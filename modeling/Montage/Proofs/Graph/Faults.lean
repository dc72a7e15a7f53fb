import Montage.Proofs.Project.Accepted

/-!
# How compilations fail

While it compiles, an export asks where its sources are and how large the first
one is, and nothing else. Most footage that cannot be compiled is turned down.
The exceptions are few: a value that cannot name anything stands for a track or
a resolution, an integer is too large for a double, or the world outside has no
answer.
-/

namespace Montage

open Outcome

/-- The fault turns the footage down or says that it cannot be built. -/
def Fault.IsVerdict : Fault → Prop
  | .rejected _ => True
  | .uncompilable _ => True
  | _ => False

/-- The call asks where a source is or how large its picture is. -/
def OutsideCall.IsQuestion : OutsideCall → Prop
  | .look _ => True
  | .probe _ => True
  | _ => False

/-- Between two records only questions were asked. -/
def Trace.Asks (before after : Trace) : Prop :=
  ∃ questions, after.calls = before.calls ++ questions ∧ ∀ call ∈ questions, call.IsQuestion

/-- Nothing was asked where the calls are the same. -/
theorem Trace.asks_of_calls {before after : Trace} (h : after.calls = before.calls) :
    before.Asks after :=
  ⟨[], by rw [h, List.append_nil], by simp⟩

/-- Questions follow each other. -/
theorem Trace.Asks.trans {before between after : Trace} (first : before.Asks between)
    (second : between.Asks after) : before.Asks after := by
  obtain ⟨early, hearly, hquestions⟩ := first
  obtain ⟨late, hlate, hothers⟩ := second
  refine ⟨early ++ late, by rw [hlate, hearly, List.append_assoc], fun call hcall => ?_⟩
  exact (List.mem_append.mp hcall).elim (hquestions call) (hothers call)

/-- Asking starts nothing. -/
theorem Trace.Asks.commands_eq {before after : Trace} (asks : before.Asks after) :
    after.commands = before.commands := by
  obtain ⟨questions, hquestions, hall⟩ := asks
  have hsplit : after.commands = before.commands ++ (⟨questions, []⟩ : Trace).commands := by
    rw [Trace.commands, hquestions, List.filterMap_append]
    rfl
  have hnone : (⟨questions, []⟩ : Trace).commands = [] := by
    refine List.filterMap_eq_nil_iff.mpr fun call hcall => ?_
    have hquestion := hall call hcall
    cases call with
    | launch => exact hquestion.elim
    | look => rfl
    | probe => rfl
    | terminate => rfl
    | await => rfl
  rw [hsplit, hnone, List.append_nil]

/-! ## Parts of a compilation -/

namespace Compiling

variable {α β : Type} {P : Fault → Prop}

/-- Whatever the record is, a part of a compilation asks questions only, and the
faults it ends in have a property. -/
def Fails (P : Fault → Prop) (work : Compiling α) : Prop :=
  ∀ trace, Work.Ends work trace fun outcome after =>
    trace.Asks after ∧ ∀ fault, outcome = .error fault → P fault

/-- A sequence fails in one of its parts. -/
theorem Fails.bind {work : Compiling α} {rest : α → Compiling β} (first : Fails P work)
    (next : ∀ a trace after, work.run.run trace = (.ok a, after) → Fails P (rest a)) :
    Fails P (work >>= rest) := by
  intro trace
  have hfirst := first trace
  unfold Work.Ends at hfirst
  cases hwork : work.run.run trace with
  | mk outcome between =>
    rw [hwork] at hfirst
    obtain ⟨hasks, hfault⟩ := hfirst
    cases outcome with
    | error fault =>
      refine Work.ends_bind_of_error hwork ⟨hasks, fun other h => ?_⟩
      cases h
      exact hfault fault rfl
    | ok a =>
      refine Work.ends_bind_of_ok hwork ((next a trace between hwork between).mono ?_)
      exact fun _ _ h => ⟨hasks.trans h.1, h.2⟩

/-- An outcome that needs nothing from outside fails as it does. -/
theorem fails_ofOutcome {outcome : Outcome α} (h : Faults P outcome) :
    Fails P (ofOutcome outcome) := fun trace =>
  Work.ends_of_run (run_ofOutcome outcome trace)
    ⟨Trace.asks_of_calls rfl, fun fault hfault => h fault hfault⟩

/-- An outcome is followed by what comes next. -/
theorem fails_ofOutcome_bind {outcome : Outcome α} {rest : α → Compiling β}
    (h : Faults P outcome) (next : ∀ a, outcome = .ok a → Fails P (rest a)) :
    Fails P (ofOutcome outcome >>= rest) :=
  (fails_ofOutcome h).bind fun a trace after hrun => by
    rw [run_ofOutcome, Prod.mk.injEq] at hrun
    exact next a hrun.1

/-- A question does not fail. -/
theorem fails_record {call : OutsideCall} (question : call.IsQuestion) :
    Fails P (record call) := fun _ => by
  refine ⟨⟨[call], rfl, fun other hother => ?_⟩, fun _ h => by cases h⟩
  rw [List.mem_singleton.mp hother]
  exact question

/-- Notes do not fail. -/
theorem fails_leave (notes : List Note) : Fails P (leave notes) := fun _ =>
  ⟨Trace.asks_of_calls rfl, fun _ h => by cases h⟩

/-- A fault that has the property. -/
theorem fails_throw {fault : Fault} (h : P fault) : Fails P (throw fault : Compiling α) :=
  fails_ofOutcome (faults_error h)

end Compiling

/-! ## What is not turned down -/

/-- The fault says that the file of a source cannot be read. -/
def Fault.IsProbeFailure : Fault → Prop
  | .systemFailure _ => True
  | .fileMissing _ => True
  | .unreadableMedia _ => True
  | .isDirectory => True
  | .tooDeep _ => True
  | _ => False

/-- The probe of a source tells two numbers or that the file cannot be read. -/
def Outside.Measures (outside : Outside) (source : Source) : Prop :=
  (∃ width height : Number,
      (outside.probe source).1 = .ok (.list [.number width, .number height])) ∨
    ∃ fault, (outside.probe source).1 = .error fault ∧ fault.IsProbeFailure

namespace Compile

/-- A fault of a compilation that turns nothing down, with what is to blame. -/
inductive Escape (outside : Outside) (footage : Footage) (options : ExportOptions) : Fault → Prop
  /-- A track cannot name anything. -/
  | track (clip : Clip) (shown : clip ∈ footage.shown) (bad : clip.track.isKey = false) :
      Escape outside footage options .illTyped
  /-- A start time is too large. -/
  | start (clip : Clip) (shown : clip ∈ footage.shown) (huge : clip.startTime.IsHuge) :
      Escape outside footage options .tooLarge
  /-- A window or a source is too large. -/
  | window (clip : Clip) (shown : clip ∈ footage.shown) (huge : clip.IsOversized) :
      Escape outside footage options .tooLarge
  /-- Nobody knows where a source is. -/
  | source (clip : Clip) (shown : clip ∈ footage.shown) (fault : Fault)
      (unknown : outside.sourceExists clip.source = .error fault) :
      Escape outside footage options fault
  /-- The resolution cannot name anything. -/
  | resolution (bad : options.resolution.isKey = false) : Escape outside footage options .illTyped
  /-- The probe tells something else than it should. -/
  | probe (clip : Clip) (shown : clip ∈ footage.shown) (fault : Fault)
      (strange : ¬ outside.Measures clip.source) : Escape outside footage options fault
  /-- A picture is too large. -/
  | picture (clip : Clip) (shown : clip ∈ footage.shown) (width height : Value)
      (measured : (outside.probe clip.source).1 = .ok (.list [width, height]))
      (huge : width.IsHuge ∨ height.IsHuge) : Escape outside footage options .tooLarge
  /-- The durations add up to an integer that is too large. -/
  | total (main overlay : List Clip) (tracks : footage.tracks = .ok (main, overlay))
      (total : Number) (sum : totalDuration main = .ok total) (huge : total.toReal? = none) :
      Escape outside footage options .tooLarge

/-- The fault turns the footage down, or something else is to blame for it. -/
def Fails (outside : Outside) (footage : Footage) (options : ExportOptions) (fault : Fault) :
    Prop := fault.IsVerdict ∨ Escape outside footage options fault

variable {outside : Outside} {footage : Footage} {options : ExportOptions}
  {main overlay : List Clip}

/-- Looking over clips that are shown turns them down, or one of them is to blame. -/
theorem fails_validateEach {clips : List Clip} (shown : ∀ clip ∈ clips, clip ∈ footage.shown) :
    Compiling.Fails (Fails outside footage options) (validateEach outside clips) := by
  induction clips with
  | nil => exact Compiling.fails_ofOutcome (faults_ok ())
  | cons clip clips ih =>
    have hclip := shown clip List.mem_cons_self
    rw [validateEach]
    have hquestion : (OutsideCall.look clip.source).IsQuestion := trivial
    refine (Compiling.fails_record hquestion).bind fun _ _ _ _ => ?_
    refine Compiling.fails_ofOutcome_bind (fun fault hfault => ?_) fun found _ => ?_
    · exact .inr (.source clip hclip fault hfault)
    cases found with
    | false => exact Compiling.fails_throw (.inl trivial)
    | true =>
      refine Compiling.fails_ofOutcome_bind ?_ fun _ _ => ?_
      · exact Clip.faults_validate_of (fun _ => .inl trivial) fun huge =>
          .inr (.window clip hclip huge)
      · exact ih fun other hother => shown other (List.mem_cons_of_mem clip hother)

/-- A finite number has a whole part. -/
theorem exists_toWhole {value : Value} (h : value.isFinite = .ok true) :
    ∃ k, value.toWhole = .ok k := by
  obtain ⟨n, _, rfl, hplace⟩ := Value.isFinite_eq_true h
  cases n with
  | int k => exact ⟨k, rfl⟩
  | real x =>
    cases x with
    | finite s a grid => exact ⟨_, rfl⟩
    | nan origin => cases hplace
    | infinity s => cases s <;> cases hplace

/-- What a probe measures is usable, turned down or too large. -/
theorem faults_usableDimensions {P : Fault → Prop} (rejected : ∀ why, P (.rejected why))
    {width height : Number}
    (large : (Value.number width).IsHuge ∨ (Value.number height).IsHuge → P .tooLarge) :
    Faults P (usableDimensions (.number width) (.number height)) := by
  refine (Value.faults_isFinite fun huge => large (.inl huge)).bind fun _ hwidth => ?_
  refine faults_demand (rejected _) fun finite => ?_
  obtain ⟨w, hw⟩ := exists_toWhole (finite ▸ hwidth)
  refine (Value.faults_isFinite fun huge => large (.inr huge)).bind fun _ hheight => ?_
  refine faults_demand (rejected _) fun finite => ?_
  obtain ⟨h, hh⟩ := exists_toWhole (finite ▸ hheight)
  refine Faults.bind (faults_ok _) fun _ _ => Faults.bind (faults_ok _) fun _ _ => ?_
  refine faults_ite (fun _ => faults_error (rejected _)) fun _ => ?_
  rw [hw, hh]
  exact faults_ok _

/-- A probe that cannot read the file turns it down. -/
theorem isVerdict_probeFault {fault : Fault} (h : fault.IsProbeFailure) :
    (probeFault fault).IsVerdict := by
  cases fault with
  | systemFailure => trivial
  | fileMissing => trivial
  | unreadableMedia => trivial
  | isDirectory => trivial
  | tooDeep => trivial
  | _ => exact h.elim

/-- Probing the first source turns the footage down, or the probe is to blame. -/
theorem fails_probeDimensions {clip : Clip} (shown : clip ∈ footage.shown) :
    Compiling.Fails (Fails outside footage options) (probeDimensions outside clip.source) := by
  have hquestion : (OutsideCall.probe clip.source).IsQuestion := trivial
  refine (Compiling.fails_record hquestion).bind fun _ _ _ _ => ?_
  refine (Compiling.fails_leave _).bind fun _ _ _ _ => ?_
  by_cases measures : outside.Measures clip.source
  · rcases measures with ⟨width, height, hmeasured⟩ | ⟨fault, hfailed, hfault⟩
    · rw [hmeasured]
      refine Compiling.fails_ofOutcome ?_
      exact faults_usableDimensions (fun _ => .inl trivial) fun huge =>
        .inr (.picture clip shown _ _ hmeasured huge)
    · rw [hfailed]
      exact Compiling.fails_throw (.inl (isVerdict_probeFault hfault))
  · refine Compiling.fails_ofOutcome_bind (fun fault _ => ?_) fun size _ =>
      Compiling.fails_ofOutcome fun fault _ => ?_
    · exact .inr (.probe clip shown fault measures)
    · exact .inr (.probe clip shown fault measures)

/-- The size of the output is known, or the probe is to blame or the resolution. -/
theorem fails_dimensions (some : main ≠ []) (shown : ∀ clip ∈ main, clip ∈ footage.shown) :
    Compiling.Fails (Fails outside footage options)
      (dimensions outside main options.resolution) := by
  refine Compiling.fails_ofOutcome_bind ?_ fun size _ => ?_
  · refine faults_ite (fun _ => faults_ok _) fun _ => Faults.bind ?_ fun _ _ => ?_
    · refine faults_ite (fun _ => faults_ok _) fun hkey => faults_error ?_
      exact .inr (.resolution (Bool.eq_false_iff.mpr hkey))
    · split
      · exact faults_pure _
      · exact faults_error (.inl trivial)
  · cases size with
    | some size => exact Compiling.fails_ofOutcome (faults_ok _)
    | none =>
      cases main with
      | nil => exact absurd rfl some
      | cons first rest => exact fails_probeDimensions (shown first List.mem_cons_self)

/-- A graph that is constructed lasts as long as the clips of the main track. -/
theorem total_of_construct {width height : Value} {graph : RenderGraph}
    (h : (RenderGraph.construct main overlay options width height).1 = .ok graph) :
    ∃ total, totalDuration main = .ok total ∧ graph.duration = .number total := by
  unfold RenderGraph.construct at h
  obtain ⟨_, _, h⟩ := bind_eq_ok.mp (mapError_eq_ok.mp h)
  obtain ⟨total, htotal, h⟩ := bind_eq_ok.mp h
  obtain ⟨_, _, h⟩ := bind_eq_ok.mp h
  refine ⟨total, htotal, ?_⟩
  rw [← pure_eq_ok.mp h]

/-- Building turns the tracks down, or the sum of the durations is to blame. -/
theorem faults_build (tracks : footage.tracks = .ok (main, overlay)) (width height : Value) :
    Faults (Fails outside footage options)
      (RenderGraph.build main overlay options width height).1 := by
  have hconstruct : Faults (Fails outside footage options)
      (RenderGraph.construct main overlay options width height).1 := by
    refine faults_mapError fun fault => .inl ?_
    cases fault <;> trivial
  rw [RenderGraph.build_eq]
  refine hconstruct.bind fun graph hgraph fault hfault => ?_
  obtain ⟨total, htotal, hduration⟩ := total_of_construct hgraph
  have hshown : graph.duration.toReal = orFault .tooLarge total.toReal? := by
    rw [hduration]
    rfl
  rw [RenderGraph.builtNote, hshown] at hfault
  cases hreal : total.toReal? with
  | some x =>
    rw [hreal] at hfault
    cases hfault
  | none =>
    rw [hreal] at hfault
    cases hfault
    exact .inr (.total main overlay tracks total htotal hreal)

/-- A compilation turns the footage down, or something else is to blame. -/
theorem fails_run (outside : Outside) (footage : Footage) (options : ExportOptions) :
    Compiling.Fails (Fails outside footage options) (run outside footage options) := by
  refine Compiling.fails_ofOutcome_bind ?_ fun tracks htracks => ?_
  · exact Footage.faults_tracks (fun _ => .inl trivial)
      (fun clip hclip bad => .inr (.track clip hclip bad))
      fun clip hclip huge => .inr (.start clip hclip huge)
  obtain ⟨main, overlay⟩ := tracks
  have hshown := Footage.mem_shown_of_tracks htracks
  have hvalidate : Compiling.Fails (Fails outside footage options)
      (validate outside main overlay) := by
    unfold validate
    split
    · exact Compiling.fails_throw (.inl trivial)
    · exact fails_validateEach hshown
  refine hvalidate.bind fun _ trace after hvalid => ?_
  have hsome : main ≠ [] := by
    rintro rfl
    cases hvalid
  have hmain : ∀ clip ∈ main, clip ∈ footage.shown := fun clip hclip =>
    hshown clip (List.mem_append_left _ hclip)
  refine (fails_dimensions hsome hmain).bind fun size _ _ _ => ?_
  refine (Compiling.fails_leave _).bind fun _ _ _ _ => Compiling.fails_ofOutcome ?_
  exact faults_build htracks size.1 size.2

end Compile

end Montage
