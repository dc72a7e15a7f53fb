import Montage.Proofs.Export.Heard
import Montage.Proofs.Export.Protocol

/-!
# Seeing an engine off

An engine that was started is never left behind. Whether its lines come to an
end, the consumer cancels or stops listening, or a line cannot be understood:
when the export is over, either the status of the engine was read and nobody
stopped it, or it was stopped and waited for. The encoder is free again and
works like one that has not been used.
-/

namespace Montage.Export

open Exporting

variable {α : Type} {consumer : Consumer} {run told after : Run} {heard : List Event}

/-! ## The end of an engine -/

/-- What is asked of the world outside for an engine that was started, and the status
that is known in the end. The events `heard` arrived while the engine ran. -/
inductive Dismissed (consumer : Consumer) (engine : EngineRun) (heard : List Event)
    (faulted : Prop) : Option Value → List OutsideCall → Prop
  /-- It was left alone, and its status was read. -/
  | ended (continues : ¬ Cancels consumer heard) (listens : ¬ Closes consumer heard)
      (tells : engine.status.isNull = false) :
      Dismissed consumer engine heard faulted (some engine.status) [.await]
  /-- The consumer cancelled: it was stopped at once and again in the end. -/
  | cancelled (cancels : Cancels consumer heard) :
      Dismissed consumer engine heard faulted none [.terminate, .terminate, .await]
  /-- The consumer stopped listening, or a line was not understood. -/
  | left (continues : ¬ Cancels consumer heard) (why : Closes consumer heard ∨ faulted) :
      Dismissed consumer engine heard faulted none [.terminate, .await]
  /-- It was left alone but has no status. -/
  | silent (continues : ¬ Cancels consumer heard) (listens : ¬ Closes consumer heard)
      (tells : engine.status.isNull = true) :
      Dismissed consumer engine heard faulted none [.await, .terminate, .await]

/-- A fault does not make a difference to an engine that was dismissed without it. -/
theorem Dismissed.mono {engine : EngineRun} {faulted later : Prop} {status : Option Value}
    {calls : List OutsideCall} (dismissed : Dismissed consumer engine heard faulted status calls)
    (weaken : faulted → later) : Dismissed consumer engine heard later status calls := by
  cases dismissed with
  | ended continues listens tells => exact .ended continues listens tells
  | cancelled cancels => exact .cancelled cancels
  | left continues why => exact .left continues (why.imp_right weaken)
  | silent continues listens tells => exact .silent continues listens tells

/-- An export whose outcome is a fault. -/
def IsFaulted (outcome : Except Halt α) : Prop := ∃ fault, outcome = .error (.faulted fault)

/-- The status that is known of an engine after it was attended. -/
def statusOf : Except Halt (ProgressTracker × Option Value) → Option Value
  | .ok (_, status) => status
  | .error _ => none

/-- An engine has run and is gone, and the encoder is free. -/
structure Attends (consumer : Consumer) (engine : EngineRun) (run : Run) (faulted : Prop)
    (status : Option Value) (heard : List Event) (after : Run) : Prop where
  /-- The events have arrived. -/
  events : after.events = run.events ++ heard
  /-- They tell how far the engine was. -/
  progress : ∀ event ∈ heard, ∃ percent, event = .progress percent
  /-- The encoder is the same but for being free. -/
  encoder : after.encoder =
    { run.encoder with cancelled := after.encoder.cancelled, holdsProcess := false }
  /-- The engine was seen off. -/
  calls : ∃ calls, after.trace.calls = run.trace.calls ++ calls ∧
    Dismissed (fun seen => consumer (run.events ++ seen)) engine heard faulted status calls

/-- An engine that is stopped is waited for. -/
theorem Run.calls_stopped (run : Run) :
    ((run.record .terminate).record .await).trace.calls =
      run.trace.calls ++ [.terminate, .await] := by
  simp [record, Trace.record]

/-- Calls that are added while an engine is held are added to those before. -/
theorem Hears.dismissed {engine : EngineRun} {faulted : Prop} {status : Option Value}
    {ended : Run} {calls : List OutsideCall} (hears : Hears consumer (run.holding true) heard told)
    (events : ended.events = told.events)
    (encoder : ended.encoder = { told.encoder with holdsProcess := false })
    (added : ended.trace.calls = told.trace.calls ++ calls)
    (dismissed : Dismissed (fun seen => consumer (run.events ++ seen)) engine heard faulted status
      ((if told.encoder.cancelled then [.terminate] else []) ++ calls)) :
    Attends consumer engine run faulted status heard ended where
  events := events.trans hears.events
  progress := hears.progress
  encoder := by
    rw [encoder, hears.encoder]
    rfl
  calls := ⟨_, by rw [added, hears.calls, List.append_assoc]; rfl, dismissed⟩

/-- An engine that is attended is gone afterwards, however the export goes on. -/
theorem attends_of_attend (consumer : Consumer) (run : Run)
    (active : run.encoder.cancelled = false) (duration : Value) (engine : EngineRun) :
    Work.Ends (attend consumer duration engine) run fun outcome after =>
      ∃ heard, Attends consumer engine run (IsFaulted outcome) (statusOf outcome) heard after := by
  have hwatched := watched_of_watch consumer (run.holding true) active rfl duration engine
  rw [attend]
  refine Work.ends_bind_of_ok (run_modify _) ?_
  unfold Work.Ends at hwatched
  cases hwatch : (watch consumer duration engine).run.run (run.holding true) with
  | mk outcome told =>
    rw [hwatch] at hwatched
    cases hwatched with
    | left heard told halt hears closed =>
      refine Work.ends_bind_of_error (Work.run_tryCatch_of_error hwatch) ⟨heard, ?_⟩
      refine hears.dismissed rfl rfl (Run.calls_stopped _) ?_
      -- If the consumer cancelled, the engine has been stopped already and is stopped again.
      cases hcancelled : told.encoder.cancelled with
      | true => exact .cancelled (hears.cancelled.mp hcancelled)
      | false =>
        have hcontinues : ¬ Cancels (fun seen => consumer (run.events ++ seen)) heard := by
          intro hcancels
          rw [hears.cancelled.mpr hcancels] at hcancelled
          cases hcancelled
        cases halt with
        | closed => exact .left hcontinues (.inl (closed rfl))
        | faulted fault => exact .left hcontinues (.inr ⟨fault, rfl⟩)
    | cancelled heard told tracker hears cancels =>
      refine Work.ends_bind_of_ok (Work.run_tryCatch_of_ok hwatch) ?_
      refine Work.ends_of_run (t := ((told.record .terminate).record .await).holding false)
        (r := .ok (tracker, none)) rfl ⟨heard, ?_⟩
      refine hears.dismissed rfl rfl (Run.calls_stopped _) ?_
      rw [hears.cancelled.mpr cancels]
      exact .cancelled cancels
    | awaited heard told tracker hears continues listens =>
      have hactive : told.encoder.cancelled = false :=
        Bool.eq_false_iff.mpr fun h => continues (hears.cancelled.mp h)
      refine Work.ends_bind_of_ok (Work.run_tryCatch_of_ok hwatch) ?_
      cases hnull : engine.status.isNull with
      | true =>
        refine Work.ends_of_run (r := .ok (tracker, none)) (t :=
          (((told.record .await).record .terminate).record .await).holding false) rfl ⟨heard, ?_⟩
        have hadded := (Run.calls_stopped (told.record .await)).trans (List.append_assoc _ _ _)
        refine hears.dismissed rfl rfl hadded ?_
        rw [hactive]
        exact .silent continues listens hnull
      | false =>
        refine Work.ends_of_run (r := .ok (tracker, some engine.status))
          (t := (told.record .await).holding false) rfl ⟨heard, ?_⟩
        refine hears.dismissed rfl rfl rfl ?_
        rw [hactive]
        exact .ended continues listens hnull

/-! ## The whole export -/

/-- What is asked of the world outside for an export. The events `heard` arrived
while its engine ran and the events `late` when it did not. -/
inductive Attended (consumer : Consumer) (studio : Studio) (faulted : Prop) :
    List Event → List Event → List OutsideCall → Prop
  /-- No engine was to be started. -/
  | unstarted (late : List Event) : Attended consumer studio faulted [] late []
  /-- The engine did not start. -/
  | refused (late : List Event) (command : List Value) :
      Attended consumer studio faulted [] late [.launch command false]
  /-- One engine was started and dismissed, and the ending was told. -/
  | started (command : List Value) (engine : EngineRun) (runs : studio.launch = .running engine)
      (heard late : List Event) (calls : List OutsideCall) (status : Option Value)
      (progress : ∀ event ∈ heard, ∃ percent, event = .progress percent)
      (dismissed : Dismissed consumer engine heard faulted status calls) (file : Text)
      (percent : Binary64) (ends : late <+: ending file engine percent status) :
      Attended consumer studio faulted heard late (.launch command true :: calls)

/-- A fault does not make a difference to an engine that was seen off without it. -/
theorem Attended.mono {studio : Studio} {faulted later : Prop} {late : List Event}
    {calls : List OutsideCall} (attended : Attended consumer studio faulted heard late calls)
    (weaken : faulted → later) : Attended consumer studio later heard late calls := by
  cases attended with
  | unstarted => exact .unstarted late
  | refused _ command => exact .refused late command
  | started command engine runs _ _ calls status progress dismissed file percent ends =>
    exact .started command engine runs heard late calls status progress (dismissed.mono weaken)
      file percent ends

/-- An export is over, its engine was seen off and the encoder is free. If it ends by
itself, it has come to a conclusion. -/
structure SeesOff (consumer : Consumer) (studio : Studio) (run : Run) (outcome : Except Halt α)
    (after : Run) : Prop where
  /-- The encoder is the same but for being free. -/
  encoder : after.encoder =
    { run.encoder with cancelled := after.encoder.cancelled, holdsProcess := false }
  /-- The engine was seen off. -/
  calls : ∃ heard late calls, after.events = run.events ++ (heard ++ late) ∧
    after.trace.calls = run.trace.calls ++ calls ∧
    Attended (fun seen => consumer (run.events ++ seen)) studio (IsFaulted outcome) heard late calls
  /-- The last event is the only terminal one. -/
  concluded : ∀ a, outcome = .ok a → ∃ told, after.events = run.events ++ told ∧ Concluded told

variable {studio : Studio} {outcome : Except Halt α}

/-- Nothing is started by an export that only tells. -/
theorem Tells.seesOff {events : List Event} (tells : Tells run events after)
    (free : run.encoder.holdsProcess = false) (concluded : ∀ a, outcome = .ok a → Concluded events)
    (consumer : Consumer) (studio : Studio) : SeesOff consumer studio run outcome after where
  encoder := by
    rw [tells.encoder, ← free]
  calls := ⟨[], events, [], tells.events, by rw [tells.calls, List.append_nil], .unstarted events⟩
  concluded a h := ⟨events, tells.events, concluded a h⟩

/-- An engine that does not start is not seen again. -/
theorem seesOff_of_refused {events : List Event} {command : List Value}
    (tells : Tells (run.record (.launch command false)) events after)
    (free : run.encoder.holdsProcess = false) (concluded : ∀ a, outcome = .ok a → Concluded events)
    (consumer : Consumer) (studio : Studio) : SeesOff consumer studio run outcome after where
  encoder := by
    rw [tells.encoder, ← free]
    rfl
  calls := ⟨[], events, _, tells.events, tells.calls, .refused events command⟩
  concluded a h := ⟨events, tells.events, concluded a h⟩

/-- What is only told is told, and told to the end if the consumer goes on
listening. -/
theorem IsTold.exists_tells {events : List Event} (told : IsTold consumer run events outcome after)
    (concluded : Concluded events) :
    ∃ told, Tells run told after ∧ told <+: events ∧ ∀ a, outcome = .ok a → Concluded told := by
  cases told with
  | whole _ _ tells => exact ⟨events, tells, List.prefix_rfl, fun _ _ => concluded⟩
  | left told _ tells early _ => exact ⟨told, tells, early, Work.no_result_of_error⟩

/-- An engine that starts is attended, and the report tells how it went. -/
theorem seesOff_of_started {engine : EngineRun} (runs : studio.launch = .running engine)
    (active : run.encoder.cancelled = false) (duration : Value) (path : Text)
    (command : List Value) :
    Work.Ends (attend consumer duration engine >>= report consumer path engine)
      (run.record (.launch command true)) (SeesOff consumer studio run) := by
  have hcalls : ∀ calls, (run.record (.launch command true)).trace.calls ++ calls =
      run.trace.calls ++ (.launch command true :: calls) := fun calls => by
    simp [Run.record, Trace.record]
  have hattend :=
    attends_of_attend consumer (run.record (.launch command true)) active duration engine
  refine hattend.bind (fun watched gone h => ?_) fun halt gone h => ?_
  · obtain ⟨tracker, status⟩ := watched
    obtain ⟨heard, hattends⟩ := h
    obtain ⟨calls, hcalled, hdismissed⟩ := hattends.calls
    have hfree : gone.encoder.holdsProcess = false := by rw [hattends.encoder]
    refine (isTold_report hfree consumer path engine tracker status).mono fun outcome after h => ?_
    obtain ⟨late, htells, hlate, hconcluded⟩ := h.exists_tells (concluded_ending _ _ _ _)
    have hevents : after.events = run.events ++ (heard ++ late) := by
      rw [htells.events, hattends.events, List.append_assoc]
      rfl
    refine ⟨?_, ⟨heard, late, _, hevents, ?_, .started command engine runs heard late calls status
      hattends.progress (hdismissed.mono fun hfaulted => ?_) path tracker.percent hlate⟩, ?_⟩
    · rw [htells.encoder, hattends.encoder]
      rfl
    · rw [htells.calls, hcalled, hcalls]
    · obtain ⟨fault, hfault⟩ := hfaulted
      cases hfault
    · exact fun a h => ⟨_, hevents, (hconcluded a h).append hattends.progress⟩
  · obtain ⟨heard, hattends⟩ := h
    obtain ⟨calls, hcalled, hdismissed⟩ := hattends.calls
    refine ⟨hattends.encoder, ⟨heard, [], _, ?_, hcalled.trans (hcalls calls),
      .started command engine runs heard [] calls none hattends.progress
        (hdismissed.mono fun hfaulted => ?_) path 0 List.nil_prefix⟩,
      Work.no_result_of_error⟩
    · rw [hattends.events, List.append_nil]
      rfl
    · obtain ⟨fault, hfault⟩ := hfaulted
      cases hfault
      exact ⟨fault, rfl⟩

/-- Starting an engine sees it off. -/
theorem seesOff_of_launch (active : run.encoder.cancelled = false)
    (free : run.encoder.holdsProcess = false) (duration : Value) (path : Text)
    (command : List Value) :
    Work.Ends (launch consumer studio duration path command) run
      (SeesOff consumer studio run) := by
  rw [launch]
  refine ends_ofOutcome_bind (fun words _ => ?_) fun fault _ =>
    (Tells.refl run).seesOff free Work.no_result_of_error consumer studio
  refine Work.ends_bind_of_ok (run_note _ _) ?_
  generalize hnoted : run.leave _ = noted
  have hactive : noted.encoder.cancelled = false := by
    rw [← hnoted]
    exact active
  have hfree : noted.encoder.holdsProcess = false := by
    rw [← hnoted]
    exact free
  have hseen : ∀ (outcome : Except Halt Unit) after, SeesOff consumer studio noted outcome after →
      SeesOff consumer studio run outcome after := by
    intro outcome after h
    rw [← hnoted] at h
    exact ⟨h.encoder, h.calls, h.concluded⟩
  refine Work.Ends.mono (?_ : Work.Ends _ noted (SeesOff consumer studio noted)) hseen
  cases hlaunch : studio.launch with
  | refused reason =>
    refine Work.ends_bind_of_ok (run_modify _) ?_
    have hemit := isTold_emit consumer (noted.record (.launch command false)) hfree
      (.failure ("Failed to start FFmpeg: " ++ reason))
    refine hemit.mono fun outcome after h => ?_
    obtain ⟨_, htells, _, hconcluded⟩ := h.exists_tells (concluded_failure _)
    exact seesOff_of_refused htells hfree hconcluded consumer studio
  | broken fault =>
    refine Work.ends_of_run (t := noted.record (.launch command false))
      (r := .error (.faulted fault)) rfl ?_
    exact seesOff_of_refused (Tells.refl _) hfree Work.no_result_of_error consumer studio
  | running engine =>
    exact Work.ends_bind_of_ok (run_modify _)
      (seesOff_of_started hlaunch hactive duration path command)

variable {encoder : Encoder}

/-- An export sees its engine off. -/
theorem seesOff_of_execute (free : encoder.holdsProcess = false) (consumer : Consumer)
    (studio : Studio) (graph : RenderGraph) (path : Text) (trace : Trace) :
    Work.Ends (execute consumer studio graph path) (.start encoder trace)
      (SeesOff consumer studio (.start encoder trace)) := by
  obtain ⟨file, hfile⟩ := exists_outputPath path
  rw [Work.Ends, run_execute consumer studio graph encoder hfile trace]
  generalize hbegun : Run.leave _ (.start { encoder with cancelled := false } trace) = begun
  have hfree : begun.encoder.holdsProcess = false := by
    rw [← hbegun]
    exact free
  have hseen : ∀ (outcome : Except Halt Unit) after, SeesOff consumer studio begun outcome after →
      SeesOff consumer studio (.start encoder trace) outcome after := by
    intro outcome after h
    rw [← hbegun] at h
    exact ⟨h.encoder, h.calls, h.concluded⟩
  cases (encoder.command studio graph file).result.1 with
  | ok command =>
    have hactive : begun.encoder.cancelled = false := by rw [← hbegun]; rfl
    have hlaunch : Work.Ends (launch consumer studio graph.duration file command) begun
        (SeesOff consumer studio begun) :=
      seesOff_of_launch hactive hfree graph.duration file command
    exact hseen _ _ hlaunch
  | error fault =>
    refine hseen _ _ ?_
    dsimp only
    cases commandFailure? fault with
    | some message =>
      refine (isTold_note_emit consumer hfree _ _ _).mono fun outcome after htold => ?_
      obtain ⟨_, htells, _, hconcluded⟩ := htold.exists_tells (concluded_failure message)
      exact htells.seesOff hfree hconcluded consumer studio
    | none => exact (Tells.refl begun).seesOff hfree Work.no_result_of_error consumer studio

/-- What happened to an encoder before an export makes no difference to it. -/
theorem finish_execute_cancelled (consumer : Consumer) (studio : Studio) (graph : RenderGraph)
    (path : Text) (encoder : Encoder) (cancelled : Bool) (trace : Trace) :
    finish (execute consumer studio graph path) (.start { encoder with cancelled } trace) =
      finish (execute consumer studio graph path) (.start encoder trace) := by
  obtain ⟨file, hfile⟩ := exists_outputPath path
  rw [finish, finish, run_execute consumer studio graph encoder hfile trace,
    run_execute consumer studio graph { encoder with cancelled } hfile trace]
  rfl

end Montage.Export
