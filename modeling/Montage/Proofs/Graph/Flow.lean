import Mathlib.Data.List.Nodup
import Mathlib.Data.List.Pairwise
import Montage.Proofs.Graph.Files
import Montage.Proofs.Graph.Signal

/-!
# Flows

Stages flow when each consumes streams of files and streams that stages before
it produced and that still wait to be consumed. Every stream that was produced
has then been consumed exactly once or still waits, and what it carries is
determined by the stages.
-/

namespace Montage

/-- A stream that a stage consumes. -/
inductive Feed where
  /-- The picture of a file. -/
  | picture (input : GraphInput)
  /-- The sound of a file. -/
  | sound (input : GraphInput)
  /-- A stream that a stage produces, with what it carries. -/
  | stream (label : StreamLabel) (signal : Signal)

namespace Feed

/-- The label that the stage consumes. -/
def label : Feed → Text
  | picture input => input.video
  | sound input => input.audio
  | stream label _ => label.text

/-- What the stage finds there. -/
def signal : Feed → Signal
  | picture input => .picture (input.kind.equal GraphInput.media) input.path.display
  | sound input => .sound input.path.display
  | stream _ signal => signal

/-- The stream that is no longer there afterwards. -/
def taken? : Feed → Option (StreamLabel × Signal)
  | stream label signal => some (label, signal)
  | _ => none

/-- The files have the stream, if it is one of a file. -/
def Ready (inputs : List GraphInput) : Feed → Prop
  | picture input => input ∈ inputs
  | sound input => input ∈ inputs ∧ input.kind.equal GraphInput.media = true
  | stream _ _ => True

/-- The streams that feeds take away. -/
def taken (feeds : List Feed) : List (StreamLabel × Signal) := feeds.filterMap taken?

/-- The feed of a stream that a stage produces. -/
def ofStream (stream : StreamLabel × Signal) : Feed := .stream stream.1 stream.2

/-- Feeds of streams take away these streams. -/
theorem taken_map_ofStream (streams : List (StreamLabel × Signal)) :
    taken (streams.map ofStream) = streams := by
  induction streams with
  | nil => rfl
  | cons stream streams ih => exact congrArg (stream :: ·) ih

/-- Feeds of streams are ready whatever the files are. -/
theorem ready_map_ofStream (inputs : List GraphInput) (streams : List (StreamLabel × Signal)) :
    ∀ feed ∈ streams.map ofStream, feed.Ready inputs := by
  intro feed h
  obtain ⟨stream, _, rfl⟩ := List.mem_map.mp h
  trivial

/-- More files have the stream, too. -/
theorem Ready.mono {inputs more : List GraphInput} {feed : Feed} (h : feed.Ready inputs)
    (hinputs : ∀ input ∈ inputs, input ∈ more) : feed.Ready more := by
  cases feed with
  | picture input => exact hinputs input h
  | sound input => exact ⟨hinputs input h.1, h.2⟩
  | stream label signal => trivial

/-- A feed that takes nothing away is a stream of a file. -/
theorem Ready.labels {inputs : List GraphInput} {feed : Feed} (h : feed.Ready inputs)
    (htaken : feed.taken? = none) : GraphInput.Labels inputs feed.label := by
  cases feed with
  | picture input => exact ⟨input, h, .inl rfl⟩
  | sound input => exact ⟨input, h.1, .inr rfl⟩
  | stream label signal => cases htaken

/-- What a feed takes away has its label and what is found there. -/
theorem of_taken? {feed : Feed} {stream : StreamLabel × Signal} (h : feed.taken? = some stream) :
    feed = .stream stream.1 stream.2 := by
  cases feed with
  | stream label signal =>
    cases h
    rfl
  | _ => cases h

end Feed

/-- A stage consumes feeds and produces streams, each with what it carries. -/
structure Stage.Turns (stage : Stage) (feeds : List Feed) (streams : List (StreamLabel × Signal)) :
    Prop where
  /-- The labels that the stage consumes. -/
  consumes : stage.inputs = feeds.map fun feed => .text feed.label
  /-- The labels that the stage produces. -/
  produces : stage.outputs = streams.map fun stream => stream.1.value
  /-- What the stage makes of what it finds. -/
  carries : ∀ (number : Nat) (stream : StreamLabel × Signal), streams[number]? = some stream →
    stage.signal? (feeds.map Feed.signal) number = some stream.2

/-- The stages of a list flow: which labels they have made and which of their
streams still wait, in any order. -/
inductive Flow (good : Stage → Prop) (inputs : List GraphInput) :
    List Stage → List StreamLabel → List (StreamLabel × Signal) → Prop
  /-- Nothing has been made. -/
  | empty : Flow good inputs [] [] []
  /-- A stage takes some of what waits and adds new streams. -/
  | add {stages : List Stage} {made : List StreamLabel}
      {waiting rest later streams : List (StreamLabel × Signal)} {stage : Stage}
      {feeds : List Feed} (before : Flow good inputs stages made waiting) (fine : good stage)
      (turns : stage.Turns feeds streams) (ready : ∀ feed ∈ feeds, feed.Ready inputs)
      (takes : waiting.Perm (Feed.taken feeds ++ rest))
      (fresh : (made ++ streams.map Prod.fst).Nodup)
      (waits : later.Perm (streams ++ rest)) :
      Flow good inputs (stages ++ [stage]) (made ++ streams.map Prod.fst) later

namespace Flow

variable {good fine : Stage → Prop} {inputs more : List GraphInput} {stages : List Stage}
  {made : List StreamLabel} {waiting : List (StreamLabel × Signal)}

/-- More files and other demands on stages keep a flow. -/
theorem mono (flow : Flow good inputs stages made waiting)
    (hinputs : ∀ input ∈ inputs, input ∈ more) (hgood : ∀ stage, good stage → fine stage) :
    Flow fine more stages made waiting := by
  induction flow with
  | empty => exact .empty
  | add _ hfine turns ready takes fresh waits ih =>
    exact .add ih (hgood _ hfine) turns (fun feed hfeed => (ready feed hfeed).mono hinputs) takes
      fresh waits

/-- The order in which streams wait does not matter. -/
theorem perm {other : List (StreamLabel × Signal)} (flow : Flow good inputs stages made waiting)
    (h : other.Perm waiting) : Flow good inputs stages made other := by
  cases flow with
  | empty =>
    rw [h.eq_nil]
    exact .empty
  | add before fine turns ready takes fresh waits =>
    exact .add before fine turns ready takes fresh (h.trans waits)

/-- Every stage is as demanded. -/
theorem good_of_mem (flow : Flow good inputs stages made waiting) :
    ∀ stage ∈ stages, good stage := by
  induction flow with
  | empty => exact fun stage h => absurd h List.not_mem_nil
  | add _ hfine _ _ _ _ _ ih =>
    intro stage h
    rcases List.mem_append.mp h with h | h
    · exact ih stage h
    · rw [List.mem_singleton.mp h]
      exact hfine

/-- The labels that the stages produce are those that were made. -/
theorem outputs (flow : Flow good inputs stages made waiting) :
    stages.flatMap Stage.outputs = made.map StreamLabel.value := by
  induction flow with
  | empty => rfl
  | add _ _ turns _ _ _ _ ih =>
    rw [List.flatMap_append, ih, List.flatMap_singleton, turns.produces, List.map_append,
      List.map_map]
    rfl

/-- What the stages produce is the label of a stream that was made. -/
theorem exists_made (flow : Flow good inputs stages made waiting) {value : Value}
    (h : value ∈ stages.flatMap Stage.outputs) : ∃ label ∈ made, value = label.value := by
  rw [flow.outputs] at h
  obtain ⟨label, hlabel, rfl⟩ := List.mem_map.mp h
  exact ⟨label, hlabel, rfl⟩

/-- No label is made twice. -/
theorem made_nodup (flow : Flow good inputs stages made waiting) : made.Nodup := by
  cases flow with
  | empty => exact List.nodup_nil
  | add _ _ _ _ _ fresh _ => exact fresh

/-- The labels that the stages consume are those of feeds, and every label that
was made has been taken away by one of them or still waits. -/
theorem exists_feeds (flow : Flow good inputs stages made waiting) :
    ∃ feeds : List Feed, stages.flatMap Stage.inputs = feeds.map (fun feed => .text feed.label) ∧
      (∀ feed ∈ feeds, feed.Ready inputs) ∧
      made.Perm ((Feed.taken feeds).map Prod.fst ++ waiting.map Prod.fst) := by
  induction flow with
  | empty => exact ⟨[], rfl, fun feed h => absurd h List.not_mem_nil, .refl _⟩
  | @add stages made waiting rest later streams stage feeds _ _ turns ready takes _ waits ih =>
    obtain ⟨consumed, hinputs, hready, hmade⟩ := ih
    refine ⟨consumed ++ feeds, ?_, ?_, ?_⟩
    · rw [List.flatMap_append, hinputs, List.flatMap_singleton, turns.consumes, List.map_append]
    · intro feed h
      rcases List.mem_append.mp h with h | h
      · exact hready feed h
      · exact ready feed h
    · have htaken : Feed.taken (consumed ++ feeds) = Feed.taken consumed ++ Feed.taken feeds :=
        List.filterMap_append
      have htakes := takes.map Prod.fst
      have hwaits := waits.map Prod.fst
      rw [List.map_append] at htakes hwaits
      rw [htaken, List.map_append, List.append_assoc]
      calc made ++ streams.map Prod.fst
        _ |>.Perm (((Feed.taken consumed).map Prod.fst ++ waiting.map Prod.fst) ++
            streams.map Prod.fst) := hmade.append_right _
        _ |>.Perm ((Feed.taken consumed).map Prod.fst ++
            (((Feed.taken feeds).map Prod.fst ++ rest.map Prod.fst) ++ streams.map Prod.fst)) := by
          rw [List.append_assoc]
          exact (htakes.append_right _).append_left _
        _ |>.Perm ((Feed.taken consumed).map Prod.fst ++
            ((Feed.taken feeds).map Prod.fst ++ later.map Prod.fst)) := by
          rw [List.append_assoc]
          exact ((List.perm_append_comm.trans hwaits.symm).append_left _).append_left _

/-- What the stages consume is the label of a feed, which takes no stream but one that
was made. -/
theorem exists_feed (flow : Flow good inputs stages made waiting) {value : Value}
    (h : value ∈ stages.flatMap Stage.inputs) :
    ∃ feed : Feed, feed.Ready inputs ∧ value = .text feed.label ∧
      ∀ stream, feed.taken? = some stream → stream.1 ∈ made := by
  obtain ⟨feeds, hinputs, ready, hmade⟩ := flow.exists_feeds
  rw [hinputs] at h
  obtain ⟨feed, hfeed, rfl⟩ := List.mem_map.mp h
  refine ⟨feed, ready feed hfeed, rfl, fun stream htaken => ?_⟩
  have hstream : stream.1 ∈ (Feed.taken feeds).map Prod.fst :=
    List.mem_map_of_mem (List.mem_filterMap.mpr ⟨feed, hfeed, htaken⟩)
  exact hmade.mem_iff.mpr (List.mem_append_left _ hstream)

/-- The labels of streams that wait were made, each once. -/
theorem waiting_sublist (flow : Flow good inputs stages made waiting) :
    (waiting.map Prod.fst).Nodup ∧ ∀ label ∈ waiting.map Prod.fst, label ∈ made := by
  obtain ⟨feeds, _, _, hmade⟩ := flow.exists_feeds
  have hnodup := hmade.nodup_iff.mp flow.made_nodup
  refine ⟨(List.nodup_append.mp hnodup).2.1, ?_⟩
  intro label h
  exact hmade.mem_iff.mpr (List.mem_append_right _ h)

/-! ## What streams carry -/

/-- What a stage finds at a feed is what its label stands for. -/
theorem unfolds_of_feed {feed : Feed} (ready : feed.Ready inputs)
    (htaken : ∀ stream, feed.taken? = some stream →
      Unfolds inputs stages stream.1.value stream.2) :
    Unfolds inputs stages (.text feed.label) feed.signal := by
  cases feed with
  | picture input => exact .picture ready
  | sound input => exact .sound ready.1 ready.2
  | stream label signal => exact htaken _ rfl

/-- Every stream that waits carries its signal. -/
theorem unfolds (flow : Flow good inputs stages made waiting) :
    ∀ stream ∈ waiting, Unfolds inputs stages stream.1.value stream.2 := by
  induction flow with
  | empty => exact fun stream h => absurd h List.not_mem_nil
  | @add stages made waiting rest later streams stage feeds _ _ turns ready takes _ waits ih =>
    have hkept : ∀ stream ∈ waiting,
        Unfolds inputs (stages ++ [stage]) stream.1.value stream.2 := by
      intro stream h
      exact (ih stream h).mono (fun _ h => h) fun _ h => List.mem_append_left _ h
    intro stream h
    rcases List.mem_append.mp (waits.mem_iff.mp h) with hnew | hrest
    · obtain ⟨number, hnumber⟩ := List.mem_iff_getElem?.mp hnew
      have hproduced : stage.outputs[number]? = some stream.1.value := by
        rw [turns.produces, List.getElem?_map, hnumber]
        rfl
      have hlength : (feeds.map Feed.signal).length = stage.inputs.length := by
        rw [turns.consumes, List.length_map, List.length_map]
      refine .output (List.mem_append_right _ (List.mem_singleton_self _)) hproduced hlength ?_
        (turns.carries number stream hnumber)
      intro i source part hsource hpart
      rw [turns.consumes, List.getElem?_map] at hsource
      rw [List.getElem?_map] at hpart
      obtain ⟨feed, hfeed, rfl⟩ := Option.map_eq_some_iff.mp hsource
      rw [hfeed] at hpart
      cases hpart
      have hmem := List.mem_of_getElem? hfeed
      refine unfolds_of_feed (ready feed hmem) ?_
      intro taken htaken
      exact hkept taken (takes.mem_iff.mpr (List.mem_append_left _
        (List.mem_filterMap.mpr ⟨feed, hmem, htaken⟩)))
    · exact hkept stream (takes.mem_iff.mpr (List.mem_append_right _ hrest))

/-- Every stream that was made carries something. -/
theorem exists_unfolds (flow : Flow good inputs stages made waiting) :
    ∀ label ∈ made, ∃ signal, Unfolds inputs stages label.value signal := by
  induction flow with
  | empty => exact fun label h => absurd h List.not_mem_nil
  | add before fine turns ready takes fresh waits ih =>
    intro label h
    rcases List.mem_append.mp h with hold | hnew
    · obtain ⟨signal, hsignal⟩ := ih label hold
      exact ⟨signal, hsignal.mono (fun _ h => h) fun _ h => List.mem_append_left _ h⟩
    · obtain ⟨stream, hstream, rfl⟩ := List.mem_map.mp hnew
      have hwaits := waits.mem_iff.mpr (List.mem_append_left _ hstream)
      exact ⟨stream.2, (add before fine turns ready takes fresh waits).unfolds stream hwaits⟩

end Flow

/-- A label that no stage produces twice is produced by one stage, at one place. -/
theorem Stage.eq_of_produced {stages : List Stage} (h : (stages.flatMap Stage.outputs).Nodup)
    {stage other : Stage} (hstage : stage ∈ stages) (hother : other ∈ stages) {m n : Nat}
    {label : Value} (hm : stage.outputs[m]? = some label) (hn : other.outputs[n]? = some label) :
    stage = other ∧ m = n := by
  obtain ⟨hone, hapart⟩ := List.nodup_flatMap.mp h
  have hsame : stage = other := by
    by_contra hne
    have hsymm : Std.Symm (Function.onFun List.Disjoint Stage.outputs) :=
      ⟨fun _ _ hdisjoint _ hsecond hfirst => hdisjoint hfirst hsecond⟩
    have hdisjoint := hapart.forall hstage hother hne
    exact hdisjoint (List.mem_of_getElem? hm) (List.mem_of_getElem? hn)
  subst hsame
  obtain ⟨hm', _⟩ := List.getElem?_eq_some_iff.mp hm
  exact ⟨rfl, (List.getElem?_inj hm' (hone stage hstage)).mp (hm.trans hn.symm)⟩

/-- A label stands for one signal, if files are numbered and every other label
is produced once by a stage. -/
theorem Unfolds.unique {inputs : List GraphInput} {stages : List Stage} {made : List StreamLabel}
    (numbered : Numbered inputs) (outputs : stages.flatMap Stage.outputs = made.map StreamLabel.value)
    (nodup : made.Nodup) {label : Value} {signal other : Signal}
    (h : Unfolds inputs stages label signal) (h' : Unfolds inputs stages label other) :
    signal = other := by
  have houtputs : (stages.flatMap Stage.outputs).Nodup := by
    rw [outputs]
    exact nodup.map fun a b => StreamLabel.value_inj
  -- a file's label is none of those that stages produce
  have hfile : ∀ {stage : Stage} {number : Nat} {file : Text}, GraphInput.Labels inputs file →
      stage ∈ stages → stage.outputs[number]? ≠ some (.text file) := by
    intro stage number file hlabels hstage hproduced
    have hmem : Value.text file ∈ stages.flatMap Stage.outputs :=
      List.mem_flatMap.mpr ⟨stage, hstage, List.mem_of_getElem? hproduced⟩
    rw [outputs] at hmem
    obtain ⟨stream, _, hsame⟩ := List.mem_map.mp hmem
    exact hlabels.ne_text numbered stream (Value.text.inj hsame).symm
  induction h generalizing other with
  | @picture input file =>
    generalize hlabel : Value.text input.video = label at h'
    cases h' with
    | @picture input' file' =>
      rw [GraphInput.video_inj numbered file file' (Value.text.inj hlabel)]
    | sound file' _ => exact absurd (Value.text.inj hlabel) (GraphInput.video_ne_audio _ _)
    | output here produced _ _ _ =>
      exact absurd (hlabel ▸ produced) (hfile ⟨input, file, .inl rfl⟩ here)
  | @sound input file medium =>
    generalize hlabel : Value.text input.audio = label at h'
    cases h' with
    | picture file' =>
      exact absurd (Value.text.inj hlabel).symm (GraphInput.video_ne_audio _ _)
    | @sound input' file' _ =>
      rw [GraphInput.audio_inj numbered file file' (Value.text.inj hlabel)]
    | output here produced _ _ _ =>
      exact absurd (hlabel ▸ produced) (hfile ⟨input, file, .inr rfl⟩ here)
  | @output stage number label parts signal here produced complete _ made ih =>
    cases h' with
    | picture file' => exact absurd produced (hfile ⟨_, file', .inl rfl⟩ here)
    | sound file' _ => exact absurd produced (hfile ⟨_, file', .inr rfl⟩ here)
    | @output stage' number' _ parts' _ here' produced' complete' unfolded' made' =>
      obtain ⟨rfl, rfl⟩ := Stage.eq_of_produced houtputs here here' produced produced'
      have hparts : parts = parts' := by
        refine List.ext_getElem (complete.trans complete'.symm) ?_
        intro i hi hi'
        have hsource := List.getElem?_eq_getElem (complete ▸ hi : i < stage.inputs.length)
        exact ih i _ _ hsource (List.getElem?_eq_getElem hi)
          (unfolded' i _ _ hsource (List.getElem?_eq_getElem hi'))
      rw [← hparts, made] at made'
      exact Option.some.inj made'

end Montage
