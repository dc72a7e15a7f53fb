import Montage.Proofs.Export.Attended

/-!
# What an export tells

Whatever an engine prints and with whatever an export ends, a consumer that goes on
listening hears percentages that begin with zero and rise. If there is no fault, one
event follows that ends the stream. Nothing is assumed of the request, the encoder or
the engine.
-/

namespace Montage.Export

open Exporting Progress

/-- Percentages that begin with zero, if there are some, and rise. -/
inductive Climbs : List Binary64 → Prop
  /-- There are none. -/
  | none : Climbs []
  /-- Zero comes first. -/
  | begun (percents : List Binary64) (rises : Rises 0 percents) : Climbs (0 :: percents)

/-- What is told by an export that writes a file, with the outcome of the export. -/
inductive Told (file : Text) : Except Halt Unit → List Event → Prop
  /-- The export has come to its end. -/
  | ended (percents : List Binary64) (last : Event) (climbs : Climbs percents)
      (terminal : last.isTerminal = true)
      (names : ∀ path, last = .success path → path = .text file) :
      Told file (.ok ()) (percents.map .progress ++ [last])
  /-- The export has ended in a fault. -/
  | broken (fault : Fault) (percents : List Binary64) (climbs : Climbs percents) :
      Told file (.error (.faulted fault)) (percents.map .progress)

/-- A failure may be all that is told. -/
theorem told_failure (file message : Text) : Told file (.ok ()) [.failure message] :=
  .ended [] (.failure message) .none rfl nofun

/-- A fault may come before everything. -/
theorem told_fault (file : Text) (fault : Fault) : Told file (.error (.faulted fault)) [] :=
  .broken fault [] .none

/-- An export that has told something and did not come to its end has ended in a fault. -/
theorem Told.exists_fault {file : Text} {halt : Halt} {events : List Event}
    (told : Told file (.error halt) events) : ∃ fault, halt = .faulted fault := by
  cases told with
  | broken fault percents climbs => exact ⟨fault, rfl⟩

/-- The ending of an export is told after percentages that rise to how far it came. -/
theorem told_ending {percents : List Binary64} (rises : Rises 0 percents) (file : Text)
    (engine : EngineRun) (status : Option Value) :
    Told file (.ok ())
      ((0 :: percents).map .progress ++ ending file engine (percents.getLastD 0) status) := by
  have hfailure : ∀ message, Told file (.ok ())
      ((0 :: percents).map .progress ++ [.failure message]) := fun message =>
    .ended _ (.failure message) (.begun percents rises) rfl nofun
  have hnames : ∀ path, Event.success (.text file) = .success path → path = .text file :=
    fun path h => (Event.success.inj h).symm
  cases status with
  | none => exact hfailure _
  | some status =>
    rw [ending]
    split
    · split
      · next below =>
        rw [lt_hundred] at below
        have hwhole : Told file (.ok ())
            ((0 :: (percents ++ [100])).map .progress ++ [.success (.text file)]) :=
          .ended _ _ (.begun _ (rises.concat below)) rfl hnames
        simpa using hwhole
      · exact .ended _ _ (.begun percents rises) rfl hnames
    · exact hfailure _

variable {consumer : Consumer} {run : Run}

/-! ## The engine -/

/-- After the events `before`, a part of an export tells percentages that rise from `low`,
and the consumer does not leave it. -/
def Climbing {α : Type} (before : List Event) (low : Binary64) (percent : α → Binary64)
    (outcome : Except Halt α) (after : Run) : Prop :=
  ∃ percents : List Binary64, after.events = before ++ percents.map .progress ∧
    Rises low percents ∧ outcome ≠ .error .closed ∧
    ∀ a, outcome = .ok a → percent a = percents.getLastD low

section Engine

variable (listens : ∀ events, (consumer events).closes = false)

include listens

/-- Following an engine tells percentages that rise, whatever its lines are. -/
theorem climbing_follow (run : Run) (tracker : ProgressTracker) (lines : List Value) :
    Work.Ends (follow consumer tracker lines) run
      (Climbing run.events tracker.percent ProgressTracker.percent) := by
  have hstays : ∀ run tracker, Climbing run.events tracker.percent ProgressTracker.percent
      (.ok tracker) run := fun run tracker =>
    ⟨[], (List.append_nil _).symm, rises_nil _, nofun, fun _ h => by cases h; rfl⟩
  have hbroken : ∀ run low fault, Climbing run.events low ProgressTracker.percent
      (.error (.faulted fault)) run := fun run low fault =>
    ⟨[], (List.append_nil _).symm, rises_nil _, nofun, Work.no_result_of_error⟩
  induction lines generalizing run tracker with
  | nil => exact Work.ends_of_run rfl (hstays run tracker)
  | cons line lines ih =>
    rw [follow]
    refine Work.ends_bind_of_ok run_get ?_
    split
    · exact Work.ends_of_run rfl (hstays run tracker)
    refine ends_ofOutcome_bind (fun text _ => ?_) fun fault _ => hbroken run _ fault
    refine ends_ofOutcome_bind (fun position? _ => ?_) fun fault _ => hbroken run _ fault
    cases position? with
    | none =>
      dsimp only
      split
      · exact Work.ends_of_run rfl (hstays run tracker)
      · exact ih run tracker
    | some seconds =>
      refine ends_ofOutcome_bind (fun updated hupdated => ?_) fun fault _ => hbroken run _ fault
      obtain ⟨told, next⟩ := updated
      rcases ProgressTracker.update_cases hupdated with ⟨rfl, rfl⟩ | ⟨percent, rfl, rfl, larger⟩
      · exact ih run next
      · refine Work.ends_bind_of_ok (run_emit (listens _)) ?_
        refine (ih _ _).mono fun outcome after h => ?_
        obtain ⟨percents, hevents, hrises, hstays, hlast⟩ := h
        refine ⟨percent :: percents, ?_, hrises.cons larger, hstays, fun a ha => ?_⟩
        · rw [hevents, Run.events_tell, List.append_assoc]
          rfl
        · rw [hlast a ha, List.getLastD_cons]

/-- Watching an engine tells zero and percentages that rise from there. -/
theorem climbing_watch (run : Run) (duration : Value) (engine : EngineRun) :
    Work.Ends (watch consumer duration engine) run
      (Climbing (run.events ++ [.progress 0]) 0 fun watched => watched.1.percent) := by
  have hfollow := climbing_follow listens (run.tell consumer (.progress 0))
    (ProgressTracker.start duration) engine.lines
  rw [Run.events_tell] at hfollow
  refine Work.ends_bind_of_ok (run_emit (listens _)) ?_
  refine hfollow.bind (fun tracker told h => ?_) fun halt told h => ?_
  · obtain ⟨percents, hevents, hrises, _, hlast⟩ := h
    have hpercent : tracker.percent = percents.getLastD 0 := hlast tracker rfl
    refine Work.ends_bind_of_ok run_get ?_
    split
    · exact Work.ends_of_run rfl
        ⟨percents, hevents, hrises, nofun, fun _ h => by cases h; exact hpercent⟩
    · exact Work.ends_of_run rfl
        ⟨percents, hevents, hrises, nofun, fun _ h => by cases h; exact hpercent⟩
  · obtain ⟨percents, hevents, hrises, hstays, _⟩ := h
    exact ⟨percents, hevents, hrises, fun h => hstays (by cases h; rfl), Work.no_result_of_error⟩

/-- Attending an engine tells what watching it tells. -/
theorem climbing_attend (run : Run) (duration : Value) (engine : EngineRun) :
    Work.Ends (attend consumer duration engine) run
      (Climbing (run.events ++ [.progress 0]) 0 fun watched => watched.1.percent) := by
  have hwatch := climbing_watch listens (run.holding true) duration engine
  rw [attend]
  refine Work.ends_bind_of_ok (run_modify _) ?_
  unfold Work.Ends at hwatch
  cases hrun : (watch consumer duration engine).run.run (run.holding true) with
  | mk outcome told =>
    rw [hrun] at hwatch
    cases outcome with
    | error halt => exact Work.ends_bind_of_error (Work.run_tryCatch_of_error hrun) hwatch
    | ok watched =>
      refine Work.ends_bind_of_ok (Work.run_tryCatch_of_ok hrun) ?_
      obtain ⟨tracker, status⟩ := watched
      -- an engine without a status is stopped, which tells nothing either
      cases status with
      | none =>
        exact Work.ends_of_run (r := .ok (tracker, none))
          (t := ((told.record .terminate).record .await).holding false) rfl hwatch
      | some status =>
        exact Work.ends_of_run (r := .ok (tracker, some status)) (t := told.holding false) rfl
          hwatch

/-- An engine that was started tells percentages and how the export ends. -/
theorem told_of_attend (silent : run.events = []) (duration : Value) (file : Text)
    (engine : EngineRun) :
    Work.Ends (attend consumer duration engine >>= report consumer file engine) run
      fun outcome after => Told file outcome after.events := by
  have hattend := climbing_attend listens run duration engine
  rw [silent] at hattend
  refine hattend.bind (fun watched gone h => ?_) fun halt gone h => ?_
  · obtain ⟨tracker, status⟩ := watched
    obtain ⟨percents, hevents, hrises, _, hlast⟩ := h
    have hpercent : tracker.percent = percents.getLastD 0 := hlast (tracker, status) rfl
    obtain ⟨after, hreport, hended, _⟩ :=
      exists_run_report listens file engine tracker status gone
    refine Work.ends_of_run hreport ?_
    rw [hended, hevents, hpercent]
    exact told_ending hrises file engine status
  · obtain ⟨percents, hevents, hrises, hstays, _⟩ := h
    rw [hevents]
    cases halt with
    | closed => exact absurd rfl hstays
    | faulted fault => exact .broken fault _ (.begun percents hrises)

/-! ## The export -/

/-- A note and a failure are all that is told. -/
theorem told_note_emit (silent : run.events = []) (severity : Severity) (text file message : Text) :
    Work.Ends (do
      note severity text
      emit consumer (.failure message)) run
      fun outcome after => Told file outcome after.events := by
  refine Work.ends_bind_of_ok (run_note _ _) (Work.ends_of_run (run_emit (listens _)) ?_)
  have hevents : (run.leave [⟨severity, text⟩]).events = [] := silent
  rw [Run.events_tell, hevents]
  exact told_failure file message

/-- Starting an engine tells how the export goes. -/
theorem told_of_launch (silent : run.events = []) (studio : Studio) (duration : Value)
    (file : Text) (command : List Value) :
    Work.Ends (launch consumer studio duration file command) run
      fun outcome after => Told file outcome after.events := by
  rw [launch]
  refine ends_ofOutcome_bind (fun words _ => ?_) fun fault _ => ?_
  · refine Work.ends_bind_of_ok (run_note _ _) ?_
    have hsilent : ∀ call, ((run.leave [⟨.info, "FFmpeg command: " ++
        Text.intercalate " " words⟩]).record call).events = [] := fun _ => silent
    cases studio.launch with
    | refused reason =>
      refine Work.ends_bind_of_ok (run_modify _) (Work.ends_of_run (run_emit (listens _)) ?_)
      rw [Run.events_tell, hsilent]
      exact told_failure file _
    | broken fault =>
      refine Work.ends_bind_of_ok (run_modify _) ?_
      refine Work.ends_of_run (r := .error (.faulted fault)) rfl ?_
      rw [hsilent]
      exact told_fault file fault
    | running engine =>
      exact Work.ends_bind_of_ok (run_modify _)
        (told_of_attend listens (hsilent _) duration file engine)
  · rw [silent]
    exact told_fault file fault

/-- Rendering a graph tells how the export goes. -/
theorem told_of_execute (studio : Studio) (graph : RenderGraph) {path file : Text}
    (names : outputPath (.text path) = .ok file) (encoder : Encoder) (trace : Trace) :
    Work.Ends (execute consumer studio graph path) (.start encoder trace)
      fun outcome after => Told file outcome after.events := by
  rw [Work.Ends, run_execute consumer studio graph encoder names trace]
  cases (encoder.command studio graph file).result.1 with
  | ok command => exact told_of_launch listens rfl studio graph.duration file command
  | error fault =>
    dsimp only
    cases commandFailure? fault with
    | some message => exact told_note_emit listens rfl _ _ file message
    | none => exact told_fault file fault

/-- An export tells percentages that rise from zero, and one event that ends the stream
unless there is a fault. -/
theorem exists_told_of_run (studio : Studio) (request : Request) {file : Text}
    (names : outputPath (.text request.outputPath) = .ok file) (encoder : Encoder)
    (trace : Trace) :
    ∃ outcome, Told file outcome (Export.run consumer studio request encoder trace).run.events ∧
      ∀ fault, (Export.run consumer studio request encoder trace).fault? = some fault ↔
        outcome = .error (.faulted fault) := by
  obtain ⟨compiled, asked, _, hrun⟩ := exists_run_eq_resume consumer studio request encoder trace
  rw [hrun]
  have htold : Work.Ends (resume consumer
      (fun graph => execute consumer studio graph request.outputPath) compiled)
      (.start encoder asked) fun outcome after => Told file outcome after.events := by
    cases compiled with
    | ok graph => exact told_of_execute listens studio graph names encoder asked
    | error fault =>
      rw [resume]
      cases rejection? fault with
      | some message => exact told_note_emit listens rfl _ _ file message
      | none => exact Work.ends_of_run rfl (told_fault file fault)
  generalize resume consumer _ compiled = work at htold
  unfold Work.Ends at htold
  cases hresumed : work.run.run (.start encoder asked) with
  | mk outcome after =>
    rw [hresumed] at htold
    obtain ⟨hafter, hfault⟩ := finish_of_run hresumed
    rw [← hafter] at htold
    exact ⟨outcome, htold, hfault⟩

end Engine

/-! ## The encoder afterwards -/

/-- An export leaves the encoder as it was, but for whether it was cancelled. -/
theorem exists_encoder_of_run {encoder : Encoder} (free : encoder.holdsProcess = false)
    (consumer : Consumer) (studio : Studio) (request : Request) (trace : Trace) :
    ∃ cancelled, (Export.run consumer studio request encoder trace).run.encoder =
      { encoder with cancelled } := by
  obtain ⟨compiled, asked, _, hrun⟩ := exists_run_eq_resume consumer studio request encoder trace
  rw [hrun]
  cases compiled with
  | ok graph =>
    have hseen := seesOff_of_execute free consumer studio graph request.outputPath asked
    unfold Work.Ends at hseen
    rw [resume]
    cases hexecuted : (execute consumer studio graph request.outputPath).run.run
      (.start encoder asked) with
    | mk outcome after =>
      rw [hexecuted] at hseen
      refine ⟨after.encoder.cancelled, ?_⟩
      rw [(finish_of_run hexecuted).1, hseen.encoder, ← free]
      rfl
  | error fault =>
    rw [resume]
    cases rejection? fault with
    | none => exact ⟨encoder.cancelled, rfl⟩
    | some message =>
      rw [finish_rejected]
      exact ⟨_, Run.encoder_tell _ _ _⟩

end Montage.Export
