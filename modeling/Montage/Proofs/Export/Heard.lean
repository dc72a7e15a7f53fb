import Montage.Proofs.Export.Stream

/-!
# What a consumer hears

A consumer may cancel or stop listening at every event. While an engine runs,
its lines decide which percentages are heard, and an engine that is cancelled
is stopped at that event. When no engine is held, events are told and nothing
else happens. This holds for all lines, also for those that are not understood.
-/

namespace Montage.Export

open Exporting Progress

/-- Events arrive one after the other, and the consumer stops listening at one of
them. -/
def Closes (consumer : Consumer) (events : List Event) : Prop :=
  ∃ seen, seen ≠ [] ∧ seen <+: events ∧ (consumer seen).closes = true

/-- A consumer that listens on after the first event may stop later. -/
theorem closes_cons {consumer : Consumer} {event : Event} {events : List Event} :
    Closes consumer (event :: events) ↔
      (consumer [event]).closes = true ∨ Closes (fun seen => consumer (event :: seen)) events :=
  exists_seen_cons

/-- Nobody cancels where nothing arrives. -/
theorem not_cancels_nil (consumer : Consumer) : ¬ Cancels consumer [] := by
  rintro ⟨seen, hseen, hprefix, _⟩
  exact hseen (List.prefix_nil.mp hprefix)

/-- Nobody stops listening where nothing arrives. -/
theorem not_closes_nil (consumer : Consumer) : ¬ Closes consumer [] := by
  rintro ⟨seen, hseen, hprefix, _⟩
  exact hseen (List.prefix_nil.mp hprefix)

/-! ## While the engine runs -/

/-- The events `heard` arrive while an engine runs that nobody has stopped yet. It
is stopped once if the consumer cancels, and nothing else is asked of the world
outside. -/
structure Hears (consumer : Consumer) (run : Run) (heard : List Event) (after : Run) : Prop where
  /-- The events have arrived. -/
  events : after.events = run.events ++ heard
  /-- They tell how far the engine is. -/
  progress : ∀ event ∈ heard, ∃ percent, event = .progress percent
  /-- The encoder is the same but for being cancelled. -/
  encoder : after.encoder = { run.encoder with cancelled := after.encoder.cancelled }
  /-- It is cancelled by the consumer only. -/
  cancelled : after.encoder.cancelled = true ↔
    Cancels (fun seen => consumer (run.events ++ seen)) heard
  /-- The engine is stopped at that event. -/
  calls : after.trace.calls =
    run.trace.calls ++ if after.encoder.cancelled then [.terminate] else []

variable {consumer : Consumer} {run told after : Run} {heard : List Event} {percent : Binary64}

/-- As long as no event arrives, nothing changes. -/
theorem Hears.nil (active : run.encoder.cancelled = false) : Hears consumer run [] run where
  events := (List.append_nil _).symm
  progress := by simp
  encoder := rfl
  cancelled := by
    rw [active]
    exact ⟨fun h => (Bool.false_ne_true h).elim, fun h => (not_cancels_nil _ h).elim⟩
  calls := by simp [active]

/-- The encoder remembers that the consumer cancels. -/
theorem Run.encoder_tell (consumer : Consumer) (run : Run) (event : Event) :
    (run.tell consumer event).encoder =
      { run.encoder with cancelled := (run.tell consumer event).encoder.cancelled } := by
  unfold Run.tell
  dsimp only
  split <;> rfl

/-- A consumer that cancels stops the engine. -/
theorem Run.calls_tell (consumer : Consumer) (run : Run) (event : Event) :
    (run.tell consumer event).trace.calls = run.trace.calls ++
      if (consumer (run.events ++ [event])).cancels && run.encoder.holdsProcess then [.terminate]
      else [] := by
  unfold Run.tell
  dsimp only
  cases (consumer (run.events ++ [event])).cancels with
  | false => simp [Run.leave, Trace.leave]
  | true =>
    cases hholds : run.encoder.holdsProcess <;>
      simp [hholds, Run.cancel, Run.leave, Trace.leave, Trace.record]

/-- One percentage is heard. -/
theorem hears_tell (active : run.encoder.cancelled = false)
    (holds : run.encoder.holdsProcess = true) (consumer : Consumer) (percent : Binary64) :
    Hears consumer run [.progress percent] (run.tell consumer (.progress percent)) where
  events := Run.events_tell _
  progress := by
    intro event hevent
    exact ⟨percent, List.mem_singleton.mp hevent⟩
  encoder := Run.encoder_tell consumer run _
  cancelled := by
    rw [Run.cancelled_tell, active, Bool.false_or, cancels_cons]
    exact ⟨.inl, fun h => h.resolve_right (not_cancels_nil _)⟩
  calls := by
    rw [Run.calls_tell, Run.cancelled_tell, active, holds, Bool.false_or, Bool.and_true]

/-- One percentage is heard without a cancellation, and others follow. -/
theorem Hears.cons (active : run.encoder.cancelled = false)
    (continues : (run.tell consumer (.progress percent)).encoder.cancelled = false)
    (later : Hears consumer (run.tell consumer (.progress percent)) heard after) :
    Hears consumer run (.progress percent :: heard) after where
  events := by rw [later.events, Run.events_tell, List.append_assoc, List.singleton_append]
  progress := by
    intro event hevent
    rcases List.mem_cons.mp hevent with rfl | hevent
    · exact ⟨percent, rfl⟩
    · exact later.progress event hevent
  encoder := by rw [later.encoder, Run.encoder_tell]
  cancelled := by
    have hnow : (consumer (run.events ++ [.progress percent])).cancels = false := by
      rw [Run.cancelled_tell, active, Bool.false_or] at continues
      exact continues
    have hlater := later.cancelled
    simp only [Run.events_tell, List.append_assoc, List.singleton_append] at hlater
    rw [hlater, cancels_cons, hnow]
    exact ⟨.inr, fun h => h.resolve_left Bool.false_ne_true⟩
  calls := by
    have hnow : (consumer (run.events ++ [.progress percent])).cancels = false := by
      rw [Run.cancelled_tell, active, Bool.false_or] at continues
      exact continues
    rw [later.calls, Run.calls_tell, hnow, Bool.false_and, if_neg Bool.false_ne_true,
      List.append_nil]

/-! ## Parts of an export -/

variable {α : Type} {post : Except Halt α → Run → Prop}

/-- An outcome is followed by what comes next, or its fault ends the export. -/
theorem ends_ofOutcome_bind {β : Type} {outcome : Outcome β} {rest : β → Exporting α}
    (next : ∀ b, outcome = .ok b → Work.Ends (rest b) run post)
    (fails : ∀ fault, outcome = .error fault → post (.error (.faulted fault)) run) :
    Work.Ends (ofOutcome outcome >>= rest) run post := by
  cases houtcome : outcome with
  | ok b => exact Work.ends_bind_of_ok rfl (next b houtcome)
  | error fault => exact Work.ends_bind_of_error rfl (fails fault houtcome)

/-- An event is followed by what comes next, unless the consumer stops listening. -/
theorem ends_emit_bind {event : Event} {rest : Unit → Exporting α}
    (next : (consumer (run.events ++ [event])).closes = false →
      Work.Ends (rest ()) (run.tell consumer event) post)
    (closed : (consumer (run.events ++ [event])).closes = true →
      post (.error .closed) (run.tell consumer event)) :
    Work.Ends (emit consumer event >>= rest) run post := by
  have hemit := run_emit_eq consumer run event
  cases hcloses : (consumer (run.events ++ [event])).closes with
  | true =>
    rw [hcloses, if_pos rfl] at hemit
    exact Work.ends_bind_of_error hemit (closed hcloses)
  | false =>
    rw [hcloses, if_neg Bool.false_ne_true] at hemit
    exact Work.ends_bind_of_ok hemit (next hcloses)

/-- An export that hears events of a running engine and may be left by the consumer
on the way. -/
def Listens (consumer : Consumer) (run : Run) (outcome : Except Halt α) (after : Run) : Prop :=
  ∃ heard, Hears consumer run heard after ∧
    (outcome = .error .closed ↔ Closes (fun seen => consumer (run.events ++ seen)) heard)

/-- Nothing is heard, and the export is not left. -/
theorem Listens.nil (active : run.encoder.cancelled = false) {outcome : Except Halt α}
    (stays : outcome ≠ .error .closed) : Listens consumer run outcome run :=
  ⟨[], .nil active, fun h => absurd h stays, fun h => (not_closes_nil _ h).elim⟩

/-- One percentage is heard, and the consumer stops there or nothing more is heard. -/
theorem Listens.single (active : run.encoder.cancelled = false)
    (holds : run.encoder.holdsProcess = true) {outcome : Except Halt α}
    (leaves : outcome = .error .closed ↔
      (consumer (run.events ++ [.progress percent])).closes = true) :
    Listens consumer run outcome (run.tell consumer (.progress percent)) := by
  refine ⟨_, hears_tell active holds consumer percent, leaves.trans ?_⟩
  rw [closes_cons]
  exact ⟨.inl, fun h => h.resolve_right (not_closes_nil _)⟩

/-- One percentage is heard, and others follow. -/
theorem Listens.cons (active : run.encoder.cancelled = false)
    (continues : (run.tell consumer (.progress percent)).encoder.cancelled = false)
    (listens : (consumer (run.events ++ [.progress percent])).closes = false)
    {outcome : Except Halt α}
    (later : Listens consumer (run.tell consumer (.progress percent)) outcome after) :
    Listens consumer run outcome after := by
  obtain ⟨heard, hhears, hcloses⟩ := later
  simp only [Run.events_tell, List.append_assoc, List.singleton_append] at hcloses
  refine ⟨_, hhears.cons active continues, hcloses.trans ?_⟩
  rw [closes_cons, listens]
  exact ⟨.inr, fun h => h.resolve_left Bool.false_ne_true⟩

/-- An encoder that has heard an event still has its engine. -/
theorem Run.holds_tell (consumer : Consumer) (run : Run) (event : Event) :
    (run.tell consumer event).encoder.holdsProcess = run.encoder.holdsProcess := by
  rw [Run.encoder_tell]

/-- Lines that are followed after a percentage are part of what is heard from
before it. -/
theorem listens_of_told (active : run.encoder.cancelled = false)
    (holds : run.encoder.holdsProcess = true)
    (listens : (consumer (run.events ++ [.progress percent])).closes = false)
    {tracker : ProgressTracker} {lines : List Value}
    (later : (run.tell consumer (.progress percent)).encoder.cancelled = false →
      Work.Ends (follow consumer tracker lines) (run.tell consumer (.progress percent))
        (Listens consumer (run.tell consumer (.progress percent)))) :
    Work.Ends (follow consumer tracker lines) (run.tell consumer (.progress percent))
      (Listens consumer run) := by
  cases hcancelled : (run.tell consumer (.progress percent)).encoder.cancelled with
  | true =>
    refine Work.ends_of_run (run_follow_of_cancelled hcancelled tracker lines) ?_
    refine .single active holds ⟨fun h => (by cases h), fun h => ?_⟩
    rw [listens] at h
    exact (Bool.false_ne_true h).elim
  | false => exact (later hcancelled).mono fun _ _ h => .cons active hcancelled listens h

/-- Following an engine is listening, whatever its lines are. -/
theorem listens_of_follow (active : run.encoder.cancelled = false)
    (holds : run.encoder.holdsProcess = true) (tracker : ProgressTracker) (lines : List Value) :
    Work.Ends (follow consumer tracker lines) run (Listens consumer run) := by
  induction lines generalizing run tracker with
  | nil => exact Work.ends_of_run rfl (.nil active fun h => by cases h)
  | cons line lines ih =>
    rw [follow]
    refine Work.ends_bind_of_ok run_get ?_
    rw [active, if_neg Bool.false_ne_true]
    refine ends_ofOutcome_bind (fun text _ => ?_) fun _ _ => .nil active fun h => by cases h
    refine ends_ofOutcome_bind (fun position? _ => ?_) fun _ _ => .nil active fun h => by cases h
    cases position? with
    | none =>
      dsimp only
      split
      · exact Work.ends_of_run rfl (.nil active fun h => by cases h)
      · exact ih active holds tracker
    | some seconds =>
      refine ends_ofOutcome_bind (fun updated _ => ?_) fun _ _ => .nil active fun h => by cases h
      obtain ⟨percent?, tracker⟩ := updated
      cases percent? with
      | none => exact ih active holds tracker
      | some percent =>
        refine ends_emit_bind (fun hlistens => ?_) fun hcloses => ?_
        · exact listens_of_told active holds hlistens fun hcontinues =>
            ih hcontinues ((Run.holds_tell _ _ _).trans holds) tracker
        · exact .single active holds ⟨fun _ => hcloses, fun _ => rfl⟩

/-! ## Until the engine has ended -/

/-- How the watch over an engine ends: it is left, or the consumer cancelled, or
the engine ended and its status was read. -/
inductive Watched (consumer : Consumer) (engine : EngineRun) (run : Run) :
    Except Halt (ProgressTracker × Option Value) → Run → Prop
  /-- It is left by the consumer or in a fault. -/
  | left (heard : List Event) (told : Run) (halt : Halt) (hears : Hears consumer run heard told)
      (closed : halt = .closed → Closes (fun seen => consumer (run.events ++ seen)) heard) :
      Watched consumer engine run (.error halt) told
  /-- The consumer cancelled. -/
  | cancelled (heard : List Event) (told : Run) (tracker : ProgressTracker)
      (hears : Hears consumer run heard told)
      (cancels : Cancels (fun seen => consumer (run.events ++ seen)) heard) :
      Watched consumer engine run (.ok (tracker, none)) told
  /-- The engine ended. -/
  | awaited (heard : List Event) (told : Run) (tracker : ProgressTracker)
      (hears : Hears consumer run heard told)
      (continues : ¬ Cancels (fun seen => consumer (run.events ++ seen)) heard)
      (listens : ¬ Closes (fun seen => consumer (run.events ++ seen)) heard) :
      Watched consumer engine run
        (.ok (tracker, if engine.status.isNull then none else some engine.status))
        (told.record .await)

/-- An engine is watched in one of these ways. -/
theorem watched_of_watch (consumer : Consumer) (run : Run) (active : run.encoder.cancelled = false)
    (holds : run.encoder.holdsProcess = true) (duration : Value) (engine : EngineRun) :
    Work.Ends (watch consumer duration engine) run (Watched consumer engine run) := by
  rw [watch]
  refine ends_emit_bind (fun hlistens => ?_) fun hcloses => ?_
  · have hfollow : Work.Ends (follow consumer (ProgressTracker.start duration) engine.lines)
        (run.tell consumer (.progress 0)) (Listens consumer run) :=
      listens_of_told active holds hlistens fun hcontinues =>
        listens_of_follow hcontinues ((Run.holds_tell _ _ _).trans holds) _ _
    refine hfollow.bind (fun tracker told hlistens => ?_) fun halt told hlistens => ?_
    · obtain ⟨heard, hhears, hcloses⟩ := hlistens
      refine Work.ends_bind_of_ok run_get ?_
      cases hcancelled : told.encoder.cancelled with
      | true => exact .cancelled heard told tracker hhears (hhears.cancelled.mp hcancelled)
      | false =>
        refine .awaited heard told tracker hhears (fun h => ?_) fun h => ?_
        · rw [hhears.cancelled.mpr h] at hcancelled
          cases hcancelled
        · cases hcloses.mpr h
    · obtain ⟨heard, hhears, hcloses⟩ := hlistens
      exact .left heard told halt hhears fun h => hcloses.mp (congrArg _ h)
  · refine .left _ _ _ (hears_tell active holds consumer 0) fun _ => ?_
    exact closes_cons.mpr (.inl hcloses)

/-! ## Without an engine -/

/-- Events arrive while no engine is held, and nothing is asked of the world
outside. -/
structure Tells (run : Run) (told : List Event) (after : Run) : Prop where
  /-- The events have arrived. -/
  events : after.events = run.events ++ told
  /-- The encoder is the same but for being cancelled. -/
  encoder : after.encoder = { run.encoder with cancelled := after.encoder.cancelled }
  /-- Nothing was asked. -/
  calls : after.trace.calls = run.trace.calls

/-- What is told in two steps is told. -/
theorem Tells.trans {early late : List Event} {between : Run} (first : Tells run early between)
    (second : Tells between late after) : Tells run (early ++ late) after where
  events := by rw [second.events, first.events, List.append_assoc]
  encoder := by rw [second.encoder, first.encoder]
  calls := second.calls.trans first.calls

/-- Where nothing is told, nothing changes. -/
theorem Tells.refl (run : Run) : Tells run [] run := ⟨(List.append_nil _).symm, rfl, rfl⟩

/-- A note tells no event. -/
theorem tells_leave (run : Run) (notes : List Note) : Tells run [] (run.leave notes) :=
  ⟨(List.append_nil _).symm, rfl, rfl⟩

/-- An event is told. -/
theorem tells_tell (free : run.encoder.holdsProcess = false) (consumer : Consumer)
    (event : Event) : Tells run [event] (run.tell consumer event) where
  events := Run.events_tell event
  encoder := Run.encoder_tell consumer run event
  calls := by rw [Run.calls_tell, free, Bool.and_false, if_neg Bool.false_ne_true, List.append_nil]

/-- No engine is held by what only tells. -/
theorem Tells.free {events : List Event} (tells : Tells run events after)
    (free : run.encoder.holdsProcess = false) : after.encoder.holdsProcess = false := by
  rw [tells.encoder]
  exact free

/-- A part of an export does nothing but tell events, all of them unless the
consumer stops listening. -/
inductive IsTold (consumer : Consumer) (run : Run) (events : List Event) :
    Except Halt α → Run → Prop
  /-- The consumer has heard all. -/
  | whole (a : α) (after : Run) (tells : Tells run events after) :
      IsTold consumer run events (.ok a) after
  /-- The consumer stopped listening. -/
  | left (told : List Event) (after : Run) (tells : Tells run told after)
      (early : told <+: events) (closes : Closes (fun seen => consumer (run.events ++ seen)) told) :
      IsTold consumer run events (.error .closed) after

/-- An event is told. -/
theorem isTold_emit (consumer : Consumer) (run : Run)
    (free : run.encoder.holdsProcess = false) (event : Event) :
    Work.Ends (emit consumer event) run (IsTold consumer run [event]) := by
  refine Work.ends_of_run (run_emit_eq consumer run event) ?_
  have htells := tells_tell free consumer event
  cases hcloses : (consumer (run.events ++ [event])).closes with
  | true => exact .left _ _ htells List.prefix_rfl (closes_cons.mpr (.inl hcloses))
  | false => exact .whole () _ htells

/-- A consumer that stops at a later event stops at one of all. -/
theorem closes_append {early late : List Event}
    (h : Closes (fun seen => consumer (early ++ seen)) late) : Closes consumer (early ++ late) := by
  obtain ⟨seen, hseen, hprefix, hcloses⟩ := h
  refine ⟨early ++ seen, ?_, (List.prefix_append_right_inj _).mpr hprefix, hcloses⟩
  exact fun h => hseen (List.append_eq_nil_iff.mp h).2

/-- What is told first is followed by what is told next. -/
theorem isTold_bind {β : Type} {first : Exporting β} {rest : β → Exporting α}
    {early late : List Event} (told : Work.Ends first run (IsTold consumer run early))
    (next : ∀ b t, Tells run early t → Work.Ends (rest b) t (IsTold consumer t late)) :
    Work.Ends (first >>= rest) run (IsTold consumer run (early ++ late)) := by
  refine Work.Ends.bind told (fun b t h => ?_) fun halt t h => ?_
  · cases h with
    | whole _ _ tells =>
      refine (next b t tells).mono fun _ _ hlater => ?_
      cases hlater with
      | whole _ _ later => exact .whole _ _ (tells.trans later)
      | left some _ later hearly closes =>
        refine .left _ _ (tells.trans later) ((List.prefix_append_right_inj _).mpr hearly) ?_
        simp only [tells.events, List.append_assoc] at closes
        exact closes_append closes
  · cases h with
    | left some _ tells hearly closes =>
      exact .left some _ tells (hearly.trans (List.prefix_append _ _)) closes

/-- An event is told after a note. -/
theorem isTold_note_emit (consumer : Consumer) (free : run.encoder.holdsProcess = false)
    (severity : Severity) (text : Text) (event : Event) :
    Work.Ends (do
      note severity text
      emit consumer event) run (IsTold consumer run [event]) := by
  have hnote : Work.Ends (note severity text) run (IsTold consumer run []) :=
    Work.ends_of_run (run_note severity text) (.whole () _ (tells_leave run _))
  exact isTold_bind hnote fun _ t htells => isTold_emit consumer t (htells.free free) event

/-- The report on an engine that is gone tells the ending. -/
theorem isTold_report (free : run.encoder.holdsProcess = false) (consumer : Consumer) (path : Text)
    (engine : EngineRun) (tracker : ProgressTracker) (status : Option Value) :
    Work.Ends (report consumer path engine (tracker, status)) run
      (IsTold consumer run (ending path engine tracker.percent status)) := by
  cases status with
  | none => exact isTold_emit consumer _ free _
  | some status =>
    rw [report, ending]
    split
    · split
      · exact isTold_bind (isTold_emit consumer _ free _) fun _ t htells =>
          isTold_note_emit consumer (htells.free free) _ _ _
      · exact isTold_note_emit consumer free _ _ _
    · exact isTold_note_emit consumer free _ _ _

/-! ## The last event -/

/-- Percentages and one terminal event, which is the last one. -/
def Concluded (events : List Event) : Prop :=
  ∃ (percents : List Binary64) (last : Event),
    events = percents.map .progress ++ [last] ∧ last.isTerminal = true

/-- A failure alone concludes. -/
theorem concluded_failure (message : Text) : Concluded [.failure message] :=
  ⟨[], .failure message, rfl, rfl⟩

/-- Every ending concludes. -/
theorem concluded_ending (file : Text) (engine : EngineRun) (percent : Binary64)
    (status : Option Value) : Concluded (ending file engine percent status) := by
  cases status with
  | none => exact concluded_failure _
  | some status =>
    rw [ending]
    split
    · split
      · exact ⟨[100], .success (.text file), rfl, rfl⟩
      · exact ⟨[], .success (.text file), rfl, rfl⟩
    · exact concluded_failure _

/-- Percentages before a conclusion belong to it. -/
theorem Concluded.append {late : List Event} (concluded : Concluded late)
    (progress : ∀ event ∈ heard, ∃ percent, event = .progress percent) :
    Concluded (heard ++ late) := by
  obtain ⟨percents, last, rfl, hlast⟩ := concluded
  induction heard with
  | nil => exact ⟨percents, last, rfl, hlast⟩
  | cons event heard ih =>
    obtain ⟨first, rfl⟩ := progress event List.mem_cons_self
    obtain ⟨more, other, hmore, hother⟩ := ih fun e he => progress e (List.mem_cons_of_mem _ he)
    exact ⟨first :: more, other, by rw [List.cons_append, hmore]; rfl, hother⟩

/-! ## From the request to the graph -/

/-- Goes on with what a compilation comes to: a graph is rendered, and a request
that is turned down ends in a failure. -/
def resume (consumer : Consumer) (render : RenderGraph → Exporting Unit) :
    Outcome RenderGraph → Exporting Unit
  | .ok graph => render graph
  | .error fault =>
    match rejection? fault with
    | some message => do
      note .error ("Export rejected: " ++ message)
      emit consumer (.failure message)
    | none => throw (.faulted fault)

/-- Runs that come to the same are the same exports. -/
theorem finish_congr {one other : Exporting Unit} {run begun : Run}
    (h : one.run.run run = other.run.run begun) : finish one run = finish other begun := by
  rw [finish, h]
  rfl

/-- What an export comes to is what its run ends in. -/
theorem finish_of_run {work : Exporting Unit} {outcome : Except Halt Unit}
    (h : work.run.run run = (outcome, after)) :
    (finish work run).run = after ∧
      ∀ fault, (finish work run).fault? = some fault ↔ outcome = .error (.faulted fault) := by
  rw [finish, h]
  cases outcome with
  | ok => exact ⟨rfl, fun fault => ⟨fun h => (by cases h), fun h => by cases h⟩⟩
  | error halt =>
    cases halt with
    | closed => exact ⟨rfl, fun fault => ⟨fun h => (by cases h), fun h => by cases h⟩⟩
    | faulted other => exact ⟨rfl, fun fault => by simp⟩

/-- Compiling leaves the encoder alone. -/
theorem run_compiling {α : Type} (work : Compiling α) (encoder : Encoder) (trace : Trace) :
    (compiling work).run.run (.start encoder trace) =
      (.ok (work.run.run trace).1, .start encoder (work.run.run trace).2) := rfl

/-- A request that is turned down ends in one failure. -/
theorem finish_rejected (consumer : Consumer) (message : Text) (run : Run) :
    finish (do
      note .error ("Export rejected: " ++ message)
      emit consumer (.failure message)) run =
    ⟨none, (run.leave [⟨.error, "Export rejected: " ++ message⟩]).tell consumer
      (.failure message)⟩ := by
  rw [finish, Work.run_bind_of_ok (run_note _ _), run_emit_eq]
  cases (consumer _).closes <;> rfl

/-- An export is performed by going on with what compiling its request comes to. -/
theorem finish_perform (consumer : Consumer) (studio : Studio) (request : Request)
    (encoder : Encoder) (trace : Trace) {outcome : Outcome RenderGraph} {after : Trace}
    (compiled : (Compile.run studio.outside (.clips request.clips) request.options).run.run trace =
      (outcome, after)) :
    finish (perform consumer studio request) (.start encoder trace) =
      finish (resume consumer (fun graph => execute consumer studio graph request.outputPath)
        outcome) (.start encoder after) := by
  have hcompiling := run_compiling
    (Compile.run studio.outside (.clips request.clips) request.options) encoder trace
  rw [compiled] at hcompiling
  have hperform : perform consumer studio request =
      compiling (Compile.run studio.outside (.clips request.clips) request.options) >>=
        resume consumer fun graph => execute consumer studio graph request.outputPath := rfl
  rw [hperform]
  exact finish_congr (Work.run_bind_of_ok hcompiling)

/-- An export compiles its request and goes on with what that comes to. -/
theorem exists_run_eq_resume (consumer : Consumer) (studio : Studio) (request : Request)
    (encoder : Encoder) (trace : Trace) : ∃ outcome after,
    (Compile.run studio.outside (.clips request.clips) request.options).run.run trace =
      (outcome, after) ∧
    Export.run consumer studio request encoder trace =
      finish (resume consumer (fun graph => execute consumer studio graph request.outputPath)
        outcome) (.start encoder after) :=
  ⟨_, _, rfl, finish_perform consumer studio request encoder trace rfl⟩

end Montage.Export
