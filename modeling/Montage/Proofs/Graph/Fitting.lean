import Montage.Graph.Topology
import Montage.Proofs.Outcome
import Montage.Proofs.Value.Agreement

/-!
# Graphs whose labels fit together

The check of a graph runs its stages with the labels that are there and those that are
used up. What it demands of one stage after the other is told here of the graph as a
whole: what is consumed was there before, and labels that stages produce are told apart
and consumed at most once.
-/

namespace Montage

open Outcome

namespace Value

variable {value other : Value} {values others : List Value}

/-- Values that agree can both name something or cannot. -/
theorem isKey_of_agrees (h : value.agrees other = true) : value.isKey = other.isKey := by
  cases value <;> cases other <;> simp_all [agrees, isKey, number?, isNull]

/-- A text agrees with nothing but itself. -/
theorem agrees_text_iff {t : Text} : value.agrees (.text t) = true ↔ value = .text t := by
  cases value <;> simp [agrees, isNull, number?]

/-- A value equals a text only if it is that text. -/
theorem equal_text_iff {t : Text} : value.equal (.text t) = true ↔ value = .text t := by
  have hequal : value.equal (.text t) = value.agrees (.text t) := by
    unfold equal
    cases value.number? <;> rfl
  rw [hequal, agrees_text_iff]

/-- A value is among others when it agrees with one of them. -/
theorem isAmong_iff : value.isAmong values = true ↔ ∃ other ∈ values, value.agrees other = true :=
  List.any_eq_true

/-- A value is among joined lists when it is among one of them. -/
@[simp]
theorem isAmong_append :
    value.isAmong (values ++ others) = (value.isAmong values || value.isAmong others) :=
  List.any_append

/-- The order of the list does not matter. -/
@[simp]
theorem isAmong_reverse : value.isAmong values.reverse = value.isAmong values := List.any_reverse

/-- A check of a name in front of more. -/
theorem checkKey_bind_eq_ok {α : Type} {rest : Unit → Outcome α} {a : α} :
    (value.checkKey >>= rest) = .ok a ↔ value.isKey = true ∧ rest () = .ok a := by
  cases h : value.isKey <;> simp [checkKey, h]

/-- What agrees is among the same values. -/
theorem isAmong_of_agrees (h : value.agrees other = true) :
    value.isAmong values = other.isAmong values := by
  rw [Bool.eq_iff_iff, isAmong_iff, isAmong_iff]
  constructor
  · rintro ⟨found, mem, hfound⟩
    exact ⟨found, mem, agrees_trans other value found (agrees_comm value other ▸ h) hfound⟩
  · rintro ⟨found, mem, hfound⟩
    exact ⟨found, mem, agrees_trans value other found h hfound⟩

/-- What agrees is found equally often. -/
theorem countP_agrees (h : value.agrees other = true) :
    values.countP value.agrees = values.countP other.agrees := by
  refine List.countP_congr fun found _ => ?_
  constructor
  · exact agrees_trans other value found (agrees_comm value other ▸ h)
  · exact agrees_trans value other found h

/-- No two of the values agree. -/
def Distinct (values : List Value) : Prop :=
  values.Pairwise fun a b => a.agrees b = false

/-- Distinct values are found at most once. -/
theorem Distinct.countP_le_one (distinct : Distinct values) (value : Value) :
    values.countP value.agrees ≤ 1 := by
  induction values with
  | nil => exact Nat.zero_le 1
  | cons first values ih =>
    obtain ⟨hfirst, hrest⟩ := List.pairwise_cons.mp distinct
    rw [List.countP_cons]
    split
    · next hagrees =>
      have hnone : values.countP value.agrees = 0 := by
        refine List.countP_eq_zero.mpr fun found mem hfound => ?_
        have hsame := agrees_trans first value found (agrees_comm value first ▸ hagrees) hfound
        rw [hfirst found mem] at hsame
        cases hsame
      exact Nat.le_of_eq (by rw [hnone])
    · exact ih hrest

/-- Values of which each is found at most once are distinct. -/
theorem distinct_of_countP (h : ∀ value ∈ values, values.countP value.agrees ≤ 1) :
    Distinct values := by
  induction values with
  | nil => exact .nil
  | cons first values ih =>
    refine List.pairwise_cons.mpr ⟨fun other mem => ?_, ih fun value mem => ?_⟩
    · have hone := h first List.mem_cons_self
      rw [List.countP_cons, if_pos (agrees_refl first)] at hone
      have hnone : values.countP first.agrees = 0 := by omega
      exact Bool.eq_false_iff.mpr (List.countP_eq_zero.mp hnone other mem)
    · have hone := h value (List.mem_cons_of_mem first mem)
      rw [List.countP_cons] at hone
      omega

/-- Distinct values that can be put to others because none of them is there. -/
def AddTo (known values : List Value) : Prop :=
  Distinct values ∧ ∀ value ∈ values, value.isAmong known = false

/-- Nothing can always be added. -/
theorem addTo_nil {known : List Value} : AddTo known [] := ⟨.nil, by simp⟩

/-- Values are added one after the other. -/
theorem addTo_cons {known : List Value} :
    AddTo known (value :: values) ↔
      value.isAmong known = false ∧ AddTo (value :: known) values := by
  have hcons (other : Value) : other.isAmong (value :: known) = false ↔
      value.agrees other = false ∧ other.isAmong known = false := by
    rw [isAmong, List.any_cons, Bool.or_eq_false_iff, agrees_comm]
    rfl
  simp only [AddTo, Distinct, List.pairwise_cons, List.forall_mem_cons, hcons, forall_and]
  constructor
  · rintro ⟨⟨hfirst, hrest⟩, hvalue, hvalues⟩
    exact ⟨hvalue, hrest, hfirst, hvalues⟩
  · rintro ⟨hvalue, hrest, hfirst, hvalues⟩
    exact ⟨⟨hfirst, hrest⟩, hvalue, hvalues⟩

/-- Lists of values are added one after the other. -/
theorem addTo_append {known : List Value} :
    AddTo known (values ++ others) ↔
      AddTo known values ∧ AddTo (values.reverse ++ known) others := by
  induction values generalizing known with
  | nil => simp [addTo_nil]
  | cons value values ih =>
    rw [List.cons_append, addTo_cons, addTo_cons, ih, List.reverse_cons, List.append_assoc,
      List.singleton_append, and_assoc]

end Value

/-- What holds at every place of a list holds at its front and, with the first item
before it, at every place of the rest. -/
theorem forall_split_cons {α : Type} {P : List α → α → Prop} {first : α} {items : List α} :
    (∀ before item after, first :: items = before ++ item :: after → P before item) ↔
      P [] first ∧
        ∀ before item after, items = before ++ item :: after → P (first :: before) item := by
  constructor
  · intro h
    refine ⟨h [] first items rfl, fun before item after hitems => ?_⟩
    exact h (first :: before) item after (by rw [hitems, List.cons_append])
  · rintro ⟨hfirst, hrest⟩ before item after hitems
    cases before with
    | nil =>
      obtain ⟨rfl, rfl⟩ := List.cons.inj hitems
      exact hfirst
    | cons other before =>
      obtain ⟨rfl, hsplit⟩ := List.cons.inj hitems
      exact hrest before item after hsplit

namespace RenderGraph

variable {files labels : List Value} {kind : StageKind}
  {streams after : Streams} {stage : Stage} {stages : List Stage} {label : Value}

/-! ## What the check demands of a stage -/

/-- A check for a fault in front of more. -/
theorem failIf_bind_eq_ok {α : Type} {condition : Bool} {why : GraphFault}
    {rest : Unit → Outcome α} {a : α} :
    (failIf condition why >>= rest) = .ok a ↔ condition = false ∧ rest () = .ok a := by
  cases condition <;> simp [failIf]

/-- The labels that are used up when they are consumed: those of no file. -/
def usedUp (files labels : List Value) : List Value :=
  labels.filter fun label => !label.isAmong files

/-- A label can be consumed if it is there and, unless it is that of a file, not used up. -/
theorem consume_eq_ok : consume files kind streams label = .ok after ↔
    (label.isKey = true ∧ label.isAmong streams.available = true) ∧
      Value.AddTo streams.consumed (usedUp files [label]) ∧
      after = { streams with consumed := (usedUp files [label]).reverse ++ streams.consumed } := by
  rw [consume, Value.checkKey_bind_eq_ok, failIf_bind_eq_ok, Bool.not_eq_false', and_assoc]
  cases hfile : label.isAmong files with
  | true => simp [usedUp, hfile, Value.addTo_nil, @eq_comm _ _ after]
  | false =>
    rw [if_neg Bool.false_ne_true, failIf_bind_eq_ok]
    simp [usedUp, hfile, Value.addTo_cons, Value.addTo_nil, @eq_comm _ _ after]

/-- Labels can be consumed one after the other if all are there and none is used up. -/
theorem foldlM_consume_eq_ok : labels.foldlM (consume files kind) streams = .ok after ↔
    (∀ label ∈ labels, label.isKey = true ∧ label.isAmong streams.available = true) ∧
      Value.AddTo streams.consumed (usedUp files labels) ∧
      after = { streams with consumed := (usedUp files labels).reverse ++ streams.consumed } := by
  induction labels generalizing streams with
  | nil => simp [usedUp, Value.addTo_nil, @eq_comm _ _ after]
  | cons label labels ih =>
    have hsplit : usedUp files (label :: labels) = usedUp files [label] ++ usedUp files labels :=
      List.filter_append [label] labels
    rw [List.foldlM_cons, bind_eq_ok, List.forall_mem_cons, hsplit, Value.addTo_append,
      List.reverse_append, List.append_assoc]
    constructor
    · rintro ⟨middle, hfirst, hrest⟩
      obtain ⟨hlabel, hadd, rfl⟩ := consume_eq_ok.mp hfirst
      obtain ⟨hlabels, hadds, hafter⟩ := ih.mp hrest
      exact ⟨⟨hlabel, hlabels⟩, ⟨hadd, hadds⟩, hafter⟩
    · rintro ⟨⟨hlabel, hlabels⟩, ⟨hadd, hadds⟩, hafter⟩
      exact ⟨_, consume_eq_ok.mpr ⟨hlabel, hadd, rfl⟩, ih.mpr ⟨hlabels, hadds, hafter⟩⟩

/-- Labels can be produced one after the other if none of them is there. -/
theorem foldlM_produce_eq_ok : labels.foldlM produce streams = .ok after ↔
    (∀ label ∈ labels, label.isKey = true) ∧ Value.AddTo streams.available labels ∧
      after = { streams with available := labels.reverse ++ streams.available } := by
  induction labels generalizing streams with
  | nil => simp [Value.addTo_nil, @eq_comm _ _ after]
  | cons label labels ih =>
    have hproduce {middle : Streams} : produce streams label = .ok middle ↔
        label.isKey = true ∧ label.isAmong streams.available = false ∧
          middle = { streams with available := label :: streams.available } := by
      rw [produce, Value.checkKey_bind_eq_ok, failIf_bind_eq_ok, pure_eq_ok, @eq_comm _ _ middle]
    rw [List.foldlM_cons, bind_eq_ok, List.forall_mem_cons, Value.addTo_cons, List.reverse_cons,
      List.append_assoc, List.singleton_append]
    constructor
    · rintro ⟨middle, hfirst, hrest⟩
      obtain ⟨hkey, habsent, rfl⟩ := hproduce.mp hfirst
      obtain ⟨hkeys, hadds, hafter⟩ := ih.mp hrest
      exact ⟨⟨hkey, hkeys⟩, ⟨habsent, hadds⟩, hafter⟩
    · rintro ⟨⟨hkey, hkeys⟩, ⟨habsent, hadds⟩, hafter⟩
      exact ⟨_, hproduce.mpr ⟨hkey, habsent, rfl⟩, ih.mpr ⟨hkeys, hadds, hafter⟩⟩

/-- The streams after a stage. -/
def Streams.behind (files : List Value) (streams : Streams) (stage : Stage) : Streams where
  available := stage.outputs.reverse ++ streams.available
  consumed := (usedUp files stage.inputs).reverse ++ streams.consumed

/-- A stage can run if what it consumes is there and not used up, and what it produces is
new. -/
theorem pass_eq_ok : pass files streams stage = .ok after ↔
    ((∀ label ∈ stage.inputs, label.isKey = true ∧ label.isAmong streams.available = true) ∧
      Value.AddTo streams.consumed (usedUp files stage.inputs)) ∧
    ((∀ label ∈ stage.outputs, label.isKey = true) ∧
      Value.AddTo streams.available stage.outputs) ∧ after = streams.behind files stage := by
  rw [pass, bind_eq_ok]
  constructor
  · rintro ⟨middle, hconsume, hproduce⟩
    obtain ⟨hthere, hunused, rfl⟩ := foldlM_consume_eq_ok.mp hconsume
    obtain ⟨hkeys, hnew, hafter⟩ := foldlM_produce_eq_ok.mp hproduce
    exact ⟨⟨hthere, hunused⟩, ⟨hkeys, hnew⟩, hafter⟩
  · rintro ⟨⟨hthere, hunused⟩, ⟨hkeys, hnew⟩, hafter⟩
    exact ⟨_, foldlM_consume_eq_ok.mpr ⟨hthere, hunused, rfl⟩,
      foldlM_produce_eq_ok.mpr ⟨hkeys, hnew, hafter⟩⟩

/-! ## What it demands of all stages -/

/-- The stages can run one after the other, given the labels that are there. -/
structure Runs (files : List Value) (streams : Streams) (stages : List Stage) : Prop where
  /-- What a stage consumes is there from the beginning or produced before it. -/
  supplied : ∀ before stage after, stages = before ++ stage :: after → ∀ label ∈ stage.inputs,
    label.isKey = true ∧
      label.isAmong (before.flatMap Stage.outputs ++ streams.available) = true
  /-- Nothing is consumed that is used up. -/
  unused : Value.AddTo streams.consumed (usedUp files (stages.flatMap Stage.inputs))
  /-- What is produced can name something. -/
  keys : ∀ label ∈ stages.flatMap Stage.outputs, label.isKey = true
  /-- What is produced is new. -/
  new : Value.AddTo streams.available (stages.flatMap Stage.outputs)

/-- A stage in front of others that can run. -/
theorem runs_cons : Runs files streams (stage :: stages) ↔
    ((∀ label ∈ stage.inputs, label.isKey = true ∧ label.isAmong streams.available = true) ∧
      Value.AddTo streams.consumed (usedUp files stage.inputs)) ∧
    ((∀ label ∈ stage.outputs, label.isKey = true) ∧
      Value.AddTo streams.available stage.outputs) ∧
    Runs files (streams.behind files stage) stages := by
  have hused : usedUp files ((stage :: stages).flatMap Stage.inputs) =
      usedUp files stage.inputs ++ usedUp files (stages.flatMap Stage.inputs) := by
    rw [List.flatMap_cons, usedUp, List.filter_append]
    rfl
  have hthere (before : List Stage) (label : Value) :
      label.isAmong ((stage :: before).flatMap Stage.outputs ++ streams.available) =
        label.isAmong (before.flatMap Stage.outputs ++
          (streams.behind files stage).available) := by
    simp [Streams.behind, Bool.or_left_comm]
  constructor
  · rintro ⟨supplied, unused, keys, new⟩
    rw [forall_split_cons] at supplied
    rw [hused, Value.addTo_append] at unused
    rw [List.flatMap_cons, List.forall_mem_append] at keys
    rw [List.flatMap_cons, Value.addTo_append] at new
    simp only [hthere] at supplied
    exact ⟨⟨supplied.1, unused.1⟩, ⟨keys.1, new.1⟩,
      supplied.2, unused.2, keys.2, new.2⟩
  · rintro ⟨⟨hinputs, hunused⟩, ⟨hkeys, hnew⟩, supplied, unused, keys, new⟩
    refine ⟨forall_split_cons.mpr ⟨hinputs, ?_⟩, ?_, ?_, ?_⟩
    · simpa only [hthere] using supplied
    · rw [hused, Value.addTo_append]
      exact ⟨hunused, unused⟩
    · rw [List.flatMap_cons, List.forall_mem_append]
      exact ⟨hkeys, keys⟩
    · rw [List.flatMap_cons, Value.addTo_append]
      exact ⟨hnew, new⟩

/-- The check runs through the stages if they can run one after the other. -/
theorem exists_foldlM_pass_iff :
    (∃ after, stages.foldlM (pass files) streams = .ok after) ↔ Runs files streams stages := by
  induction stages generalizing streams with
  | nil =>
    have hruns : Runs files streams [] :=
      ⟨by simp, by simp [usedUp, Value.addTo_nil], by simp, Value.addTo_nil⟩
    exact ⟨fun _ => hruns, fun _ => ⟨streams, rfl⟩⟩
  | cons stage stages ih =>
    rw [runs_cons, ← ih]
    constructor
    · rintro ⟨after, h⟩
      rw [List.foldlM_cons, bind_eq_ok] at h
      obtain ⟨middle, hstage, hrest⟩ := h
      obtain ⟨hinputs, houtputs, rfl⟩ := pass_eq_ok.mp hstage
      exact ⟨hinputs, houtputs, after, hrest⟩
    · rintro ⟨hinputs, houtputs, after, hrest⟩
      refine ⟨after, ?_⟩
      rw [List.foldlM_cons, bind_eq_ok]
      exact ⟨_, pass_eq_ok.mpr ⟨hinputs, houtputs, rfl⟩, hrest⟩

/-! ## Graphs that pass -/

/-- A label is that of a stream which an input file has: its picture, and its sound if it
is a medium. -/
def IsFile (graph : RenderGraph) (label : Value) : Prop :=
  ∃ input ∈ graph.inputs, label = .text input.video ∨
    input.kind.equal GraphInput.media = true ∧ label = .text input.audio

/-- A label is there behind some stages: it is that of a file's stream, or one of them has
produced it. -/
def IsThere (graph : RenderGraph) (before : List Stage) (label : Value) : Prop :=
  graph.IsFile label ∨
    ∃ earlier ∈ before, ∃ output ∈ earlier.outputs, label.agrees output = true

/-- The labels that the stages of a graph produce. -/
def produced (graph : RenderGraph) : List Value := graph.stages.flatMap Stage.outputs

/-- The labels that the stages of a graph consume. -/
def consumed (graph : RenderGraph) : List Value := graph.stages.flatMap Stage.inputs

/-- The labels of a graph fit together. -/
structure Fits (graph : RenderGraph) : Prop where
  /-- What a stage consumes is there behind the stages before it. -/
  supplied : ∀ before stage after, graph.stages = before ++ stage :: after →
    ∀ label ∈ stage.inputs, graph.IsThere before label
  /-- What a stage produces is consumed at most once. -/
  spent : ∀ label ∈ graph.produced, graph.consumed.countP label.agrees ≤ 1
  /-- No label is produced twice. -/
  distinct : graph.produced.Pairwise fun label other => label.agrees other = false
  /-- No stage produces a stream of a file. -/
  new : ∀ label ∈ graph.produced, ¬ graph.IsFile label

variable {graph : RenderGraph}

/-- The labels of files are those of their streams. -/
theorem isAmong_fileStreams : label.isAmong graph.fileStreams = true ↔ graph.IsFile label := by
  have hstreams (input : GraphInput) :
      (∃ stream ∈ input.streams, label = .text stream) ↔ label = .text input.video ∨
        input.kind.equal GraphInput.media = true ∧ label = .text input.audio := by
    cases hkind : input.kind.equal GraphInput.media <;> simp [GraphInput.streams, hkind]
  have hmem : label.isAmong graph.fileStreams = true ↔
      ∃ input ∈ graph.inputs, ∃ stream ∈ input.streams, label = .text stream := by
    rw [Value.isAmong_iff]
    constructor
    · rintro ⟨other, mem, h⟩
      obtain ⟨input, hinput, hother⟩ := List.mem_flatMap.mp mem
      obtain ⟨stream, hstream, rfl⟩ := List.mem_map.mp hother
      exact ⟨input, hinput, stream, hstream, Value.agrees_text_iff.mp h⟩
    · rintro ⟨input, hinput, stream, hstream, rfl⟩
      exact ⟨_, List.mem_flatMap.mpr ⟨input, hinput, List.mem_map_of_mem hstream⟩,
        Value.agrees_refl _⟩
  simp only [hmem, hstreams, IsFile]

/-- A label that fits nothing but files is not used up. -/
theorem mem_usedUp : label ∈ usedUp graph.fileStreams labels ↔
    label ∈ labels ∧ ¬ graph.IsFile label := by
  rw [usedUp, List.mem_filter, ← isAmong_fileStreams]
  simp

/-- A produced label that is of no file is found among the labels that are used up as often
as among all that are consumed. -/
theorem countP_usedUp (new : ¬ graph.IsFile label) (labels : List Value) :
    (usedUp graph.fileStreams labels).countP label.agrees = labels.countP label.agrees := by
  rw [usedUp, List.countP_filter]
  refine List.countP_congr fun other _ => ?_
  rw [Bool.and_eq_true, and_iff_left_iff_imp]
  intro h
  rw [← isAmong_fileStreams, Bool.not_eq_true] at new
  rw [← Value.isAmong_of_agrees h, new]
  rfl

/-- What is there for a stage: the streams of files and the outputs of the stages before. -/
theorem isAmong_before {before : List Stage} :
    label.isAmong (before.flatMap Stage.outputs ++ graph.fileStreams) = true ↔
      graph.IsThere before label := by
  rw [Value.isAmong_append, Bool.or_eq_true, isAmong_fileStreams, or_comm, Value.isAmong_iff,
    IsThere]
  refine or_congr_right ⟨?_, ?_⟩
  · rintro ⟨output, houtput, h⟩
    obtain ⟨earlier, hearlier, houtput⟩ := List.mem_flatMap.mp houtput
    exact ⟨earlier, hearlier, output, houtput, h⟩
  · rintro ⟨earlier, hearlier, output, houtput, h⟩
    exact ⟨output, List.mem_flatMap.mpr ⟨earlier, hearlier, houtput⟩, h⟩

/-- What is there behind some stages is there behind all. -/
theorem IsThere.mono {before later : List Stage} (h : graph.IsThere before label)
    (hstages : ∀ stage ∈ before, stage ∈ later) : graph.IsThere later label :=
  h.imp_right fun ⟨earlier, hearlier, rest⟩ => ⟨earlier, hstages earlier hearlier, rest⟩

/-- What is there can name something if everything that is produced can. -/
theorem IsThere.isKey (h : graph.IsThere graph.stages label)
    (keys : ∀ label ∈ graph.produced, label.isKey = true) : label.isKey = true := by
  rcases h with ⟨input, _, rfl | ⟨_, rfl⟩⟩ | ⟨stage, hstage, output, houtput, hagrees⟩
  · rfl
  · rfl
  · rw [Value.isKey_of_agrees hagrees]
    exact keys output (List.mem_flatMap.mpr ⟨stage, hstage, houtput⟩)

/-- When what is consumed is there, no label is used up twice exactly when what is produced
is consumed at most once. -/
theorem distinct_usedUp_iff (new : ∀ label ∈ graph.produced, ¬ graph.IsFile label)
    (there : ∀ label ∈ graph.consumed, graph.IsThere graph.stages label) :
    Value.Distinct (usedUp graph.fileStreams graph.consumed) ↔
      ∀ label ∈ graph.produced, graph.consumed.countP label.agrees ≤ 1 := by
  constructor
  · intro distinct label mem
    rw [← countP_usedUp (new label mem)]
    exact distinct.countP_le_one label
  · intro spent
    refine Value.distinct_of_countP fun label mem => ?_
    obtain ⟨mem, notFile⟩ := mem_usedUp.mp mem
    obtain ⟨stage, hstage, output, houtput, hagrees⟩ := (there label mem).resolve_left notFile
    rw [countP_usedUp notFile, Value.countP_agrees hagrees]
    exact spent output (List.mem_flatMap.mpr ⟨stage, hstage, houtput⟩)

/-- When stages are supplied by those before them, everything that is consumed is there. -/
theorem isThere_of_supplied
    (supplied : ∀ before stage after, graph.stages = before ++ stage :: after →
      ∀ label ∈ stage.inputs, graph.IsThere before label) :
    ∀ label ∈ graph.consumed, graph.IsThere graph.stages label := by
  intro label mem
  obtain ⟨stage, hstage, hlabel⟩ := List.mem_flatMap.mp mem
  obtain ⟨before, after, hsplit⟩ := List.append_of_mem hstage
  refine (supplied before stage after hsplit label hlabel).mono fun earlier hearlier => ?_
  rw [hsplit]
  exact List.mem_append_left _ hearlier

/-- The stages of a graph can run from its files exactly when its labels fit together. -/
theorem runs_iff_fits : Runs graph.fileStreams ⟨graph.fileStreams, []⟩ graph.stages ↔
    (∀ label ∈ graph.produced, label.isKey = true) ∧ graph.Fits := by
  have hnew : (∀ label ∈ graph.produced, label.isAmong graph.fileStreams = false) ↔
      ∀ label ∈ graph.produced, ¬ graph.IsFile label := by
    simp only [← isAmong_fileStreams, Bool.not_eq_true]
  constructor
  · rintro ⟨supplied, ⟨unused, _⟩, keys, distinct, new⟩
    rw [← produced, hnew] at new
    have supplied' : ∀ before stage after, graph.stages = before ++ stage :: after →
        ∀ label ∈ stage.inputs, graph.IsThere before label :=
      fun before stage after hsplit label hlabel =>
        isAmong_before.mp (supplied before stage after hsplit label hlabel).2
    have spent := (distinct_usedUp_iff new (isThere_of_supplied supplied')).mp unused
    exact ⟨keys, supplied', spent, distinct, new⟩
  · rintro ⟨keys, supplied, spent, distinct, new⟩
    have there := isThere_of_supplied supplied
    refine ⟨fun before stage after hsplit label hlabel => ⟨?_, ?_⟩, ⟨?_, ?_⟩, keys, distinct,
      hnew.mpr new⟩
    · have hstage : stage ∈ graph.stages := by
        rw [hsplit]
        exact List.mem_append_right _ List.mem_cons_self
      exact (there label (List.mem_flatMap.mpr ⟨stage, hstage, hlabel⟩)).isKey keys
    · exact isAmong_before.mpr (supplied before stage after hsplit label hlabel)
    · exact (distinct_usedUp_iff new there).mpr spent
    · exact fun label _ => rfl

/-- A graph passes its check exactly when its stages can run from its files. -/
theorem checkTopology_eq_ok_iff_runs (graph : RenderGraph) : graph.checkTopology = .ok () ↔
    Runs graph.fileStreams ⟨graph.fileStreams, []⟩ graph.stages := by
  rw [← exists_foldlM_pass_iff, checkTopology, bind_eq_ok]
  simp

/-- A graph passes its check exactly when its labels fit together. Labels are values of any
kind here: those that can name nothing, which are lists and records, cannot be produced. -/
theorem checkTopology_eq_ok_iff (graph : RenderGraph) : graph.checkTopology = .ok () ↔
    (∀ label ∈ graph.produced, label.isKey = true) ∧ graph.Fits :=
  (checkTopology_eq_ok_iff_runs graph).trans runs_iff_fits

end RenderGraph

end Montage
