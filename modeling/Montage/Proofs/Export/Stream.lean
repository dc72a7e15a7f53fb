import Montage.Export.Run
import Montage.Proofs.Export.Progress
import Montage.Proofs.Work

/-!
# Streams of events

What a consumer hears of a running engine is told in advance by the lines of the
engine: zero and the percentages that grow, up to the event at which the
consumer cancels. How the export goes on is decided after that, by the status
of the engine if the consumer has not cancelled.
-/

namespace Montage.Export

open Exporting Progress

/-- Events arrive one after the other, and the consumer cancels at one of them. -/
def Cancels (consumer : Consumer) (events : List Event) : Prop :=
  ∃ seen, seen ≠ [] ∧ seen <+: events ∧ (consumer seen).cancels = true

/-- Of the beginnings of a list of events, the shortest one has a property or a
longer one has. -/
theorem exists_seen_cons {p : List Event → Prop} {event : Event} {events : List Event} :
    (∃ seen, seen ≠ [] ∧ seen <+: event :: events ∧ p seen) ↔
      p [event] ∨ ∃ seen, seen ≠ [] ∧ seen <+: events ∧ p (event :: seen) := by
  constructor
  · rintro ⟨seen, hseen, hprefix, hp⟩
    cases seen with
    | nil => exact absurd rfl hseen
    | cons first rest =>
      obtain ⟨rfl, hrest⟩ := List.cons_prefix_cons.mp hprefix
      cases rest with
      | nil => exact .inl hp
      | cons second rest => exact .inr ⟨second :: rest, List.cons_ne_nil _ _, hrest, hp⟩
  · rintro (hp | ⟨seen, _, hprefix, hp⟩)
    · exact ⟨[event], List.cons_ne_nil _ _,
        List.cons_prefix_cons.mpr ⟨rfl, List.nil_prefix⟩, hp⟩
    · exact ⟨event :: seen, List.cons_ne_nil _ _, List.cons_prefix_cons.mpr ⟨rfl, hprefix⟩, hp⟩

/-- A consumer that has not cancelled when the first event has arrived may cancel
later. -/
theorem cancels_cons {consumer : Consumer} {event : Event} {events : List Event} :
    Cancels consumer (event :: events) ↔
      (consumer [event]).cancels = true ∨ Cancels (fun seen => consumer (event :: seen)) events :=
  exists_seen_cons

namespace Run

/-- An export after an event has arrived and the consumer has reacted to it. -/
def tell (consumer : Consumer) (run : Run) (event : Event) : Run :=
  let reaction := consumer (run.events ++ [event])
  let heard := leave reaction.notes { run with events := run.events ++ [event] }
  if reaction.cancels then heard.cancel else heard

/-- An export after events have arrived, up to the one at which the consumer
cancels. -/
def tellAll (consumer : Consumer) (run : Run) : List Event → Run
  | [] => run
  | event :: events =>
    if (run.tell consumer event).encoder.cancelled then run.tell consumer event
    else (run.tell consumer event).tellAll consumer events

variable {consumer : Consumer} {run : Run}

/-- The command lines so far. -/
def commands (run : Run) : List (List Value) := run.trace.commands

/-- Notes start nothing. -/
@[simp]
theorem commands_leave (notes : List Note) (run : Run) :
    (run.leave notes).commands = run.commands :=
  rfl

/-- Holding an engine or giving it up starts nothing. -/
@[simp]
theorem commands_holding (held : Bool) (run : Run) : (run.holding held).commands = run.commands :=
  rfl

/-- Stopping the engine starts nothing. -/
@[simp]
theorem commands_terminate (run : Run) : (run.record .terminate).commands = run.commands := by
  simp [commands, record, Trace.commands, Trace.record]

/-- Waiting for the engine starts nothing. -/
@[simp]
theorem commands_await (run : Run) : (run.record .await).commands = run.commands := by
  simp [commands, record, Trace.commands, Trace.record]

/-- A start adds its command line. -/
@[simp]
theorem commands_launch (command : List Value) (started : Bool) (run : Run) :
    (run.record (.launch command started)).commands = run.commands ++ [command] := by
  simp [commands, record, Trace.commands, Trace.record]

/-- Cancelling starts nothing. -/
@[simp]
theorem commands_cancel (run : Run) : run.cancel.commands = run.commands := by
  unfold cancel
  split
  · exact commands_terminate run
  · rfl

/-- An event that is told arrives. -/
@[simp]
theorem events_tell (event : Event) :
    (run.tell consumer event).events = run.events ++ [event] := by
  unfold tell
  dsimp only
  split <;> rfl

/-- Telling an event starts nothing. -/
@[simp]
theorem commands_tell (event : Event) :
    (run.tell consumer event).commands = run.commands := by
  unfold tell
  dsimp only
  split
  · rw [commands_cancel]
    rfl
  · rfl

/-- An export is cancelled when it has been or when the consumer cancels. -/
theorem cancelled_tell (consumer : Consumer) (run : Run) (event : Event) :
    (run.tell consumer event).encoder.cancelled =
      (run.encoder.cancelled || (consumer (run.events ++ [event])).cancels) := by
  unfold tell
  dsimp only
  cases (consumer (run.events ++ [event])).cancels with
  | true => simp [cancel]
  | false => simp [leave]

/-- Telling events starts nothing. -/
@[simp]
theorem commands_tellAll (events : List Event) :
    (run.tellAll consumer events).commands = run.commands := by
  induction events generalizing run with
  | nil => rfl
  | cons event events ih =>
    rw [tellAll]
    split
    · exact commands_tell event
    · rw [ih, commands_tell]

/-- Of events that are told, the first ones arrive, and all of them unless the
consumer cancels. -/
theorem exists_heard (consumer : Consumer) (run : Run) (events : List Event) :
    ∃ heard, (run.tellAll consumer events).events = run.events ++ heard ∧ heard <+: events ∧
      (events ≠ [] → heard ≠ []) ∧
      ((run.tellAll consumer events).encoder.cancelled = false → heard = events) := by
  induction events generalizing run with
  | nil => exact ⟨[], by simp [tellAll]⟩
  | cons event events ih =>
    rw [tellAll]
    split
    · next hcancelled =>
      refine ⟨[event], events_tell event, List.cons_prefix_cons.mpr ⟨rfl, List.nil_prefix⟩,
        by simp, ?_⟩
      rw [hcancelled]
      exact fun h => absurd h (by decide)
    · obtain ⟨heard, hevents, hprefix, _, hall⟩ := ih (run.tell consumer event)
      refine ⟨event :: heard, ?_, List.cons_prefix_cons.mpr ⟨rfl, hprefix⟩, by simp, ?_⟩
      · rw [hevents, events_tell, List.append_assoc, List.singleton_append]
      · exact fun h => congrArg _ (hall h)

/-- An export that is not cancelled yet is cancelled at one of the events. -/
theorem cancelled_tellAll (consumer : Consumer) (active : run.encoder.cancelled = false)
    (events : List Event) :
    (run.tellAll consumer events).encoder.cancelled = true ↔
      Cancels (fun seen => consumer (run.events ++ seen)) events := by
  induction events generalizing run with
  | nil =>
    rw [tellAll, active]
    constructor
    · intro h
      cases h
    · rintro ⟨seen, hseen, hprefix, _⟩
      exact absurd (List.prefix_nil.mp hprefix) hseen
  | cons event events ih =>
    have htold := cancelled_tell consumer run event
    rw [active, Bool.false_or] at htold
    rw [tellAll, cancels_cons, ← htold]
    cases hcancelled : (run.tell consumer event).encoder.cancelled with
    | true => simp [hcancelled]
    | false =>
      have hlater := ih hcancelled
      simp only [events_tell, List.append_assoc, List.singleton_append] at hlater
      simp [hlater]

end Run

variable {consumer : Consumer} {run : Run}

/-- A consumer hears an event and reacts to it. The export ends there if it stops
listening. -/
theorem run_emit_eq (consumer : Consumer) (run : Run) (event : Event) :
    (emit consumer event).run.run run =
      (if (consumer (run.events ++ [event])).closes then .error .closed else .ok (),
        run.tell consumer event) := by
  have hreaction : (emit consumer event).run.run run =
      (do
        if (consumer (run.events ++ [event])).cancels then modify Run.cancel
        if (consumer (run.events ++ [event])).closes then throw .closed
        : Exporting Unit).run.run
          (Run.leave (consumer (run.events ++ [event])).notes
            { run with events := run.events ++ [event] }) := rfl
  rw [hreaction, Run.tell]
  cases (consumer (run.events ++ [event])).cancels <;>
    cases (consumer (run.events ++ [event])).closes <;> rfl

/-- A consumer that goes on listening hears an event. -/
theorem run_emit {event : Event}
    (listens : (consumer (run.events ++ [event])).closes = false) :
    (emit consumer event).run.run run = (.ok (), run.tell consumer event) := by
  rw [run_emit_eq, listens]
  rfl

/-- An outcome that is there changes nothing. -/
theorem run_ofOutcome {α : Type} {outcome : Outcome α} {a : α} (h : outcome = .ok a) :
    (ofOutcome outcome).run.run run = (.ok a, run) := by
  rw [h]
  rfl

/-- Looking at the export changes nothing. -/
theorem run_get : (get : Exporting Run).run.run run = (.ok run, run) := rfl

/-- A change of the export is made. -/
theorem run_modify (change : Run → Run) :
    (modify change : Exporting Unit).run.run run = (.ok (), change run) := rfl

/-- A note is left. -/
theorem run_note (severity : Severity) (text : Text) :
    (note severity text).run.run run = (.ok (), run.leave [⟨severity, text⟩]) := rfl

/-! ## Following the engine -/

/-- No line is read when the export is cancelled. -/
theorem run_follow_of_cancelled (cancelled : run.encoder.cancelled = true)
    (tracker : ProgressTracker) (lines : List Value) :
    (follow consumer tracker lines).run.run run = (.ok tracker, run) := by
  cases lines with
  | nil => rfl
  | cons line lines =>
    rw [follow, Work.run_bind_of_ok run_get, if_pos cancelled]
    rfl

/-- A line without a position is passed over unless it is the last one. -/
theorem run_follow_of_none (active : run.encoder.cancelled = false) {line : Text}
    (h : reading? line = none) (tracker : ProgressTracker) (lines : List Value) :
    (follow consumer tracker (.text line :: lines)).run.run run =
      if isEnd line then (.ok tracker, run) else (follow consumer tracker lines).run.run run := by
  have htext : (Value.text line).asText = .ok line := rfl
  rw [follow, Work.run_bind_of_ok run_get, active, if_neg Bool.false_ne_true,
    Work.run_bind_of_ok (run_ofOutcome htext),
    Work.run_bind_of_ok (run_ofOutcome (position?_of_none h))]
  dsimp only
  split <;> rfl

/-- A line with a near position makes an event if the percentage is larger than
all before. -/
theorem run_follow_of_some (listens : ∀ events, (consumer events).closes = false)
    (active : run.encoder.cancelled = false) {total : Number} {x low : Binary64}
    (hx : total.toReal? = some x) (number : x.isNaN = false)
    (hlow : (Number.real low).lt (.real 0) = false) {line : Text} {units : Int}
    (h : reading? line = some units) (near : Near units) (lines : List Value) :
    (follow consumer ⟨.number total, low⟩ (.text line :: lines)).run.run run =
      if (Number.real low).lt (.real (percentAt x units)) then
        (follow consumer ⟨.number total, percentAt x units⟩ lines).run.run
          (run.tell consumer (.progress (percentAt x units)))
      else (follow consumer ⟨.number total, low⟩ lines).run.run run := by
  have hupdate := ProgressTracker.update_eq hx number hlow near
  have htext : (Value.text line).asText = .ok line := rfl
  rw [follow, Work.run_bind_of_ok run_get, active, if_neg Bool.false_ne_true,
    Work.run_bind_of_ok (run_ofOutcome htext),
    Work.run_bind_of_ok (run_ofOutcome (position?_of_near h near))]
  dsimp only
  rw [Work.run_bind_of_ok (run_ofOutcome hupdate)]
  cases (Number.real low).lt (.real (percentAt x units)) with
  | true =>
    rw [if_pos rfl, if_pos rfl]
    dsimp only
    rw [Work.run_bind_of_ok (run_emit (listens _))]
  | false => rfl

/-- A distant position ends the reading in a fault. -/
theorem run_follow_of_distant (active : run.encoder.cancelled = false) {line : Text} {units : Int}
    (h : reading? line = some units) (distant : Distant units) (tracker : ProgressTracker)
    (lines : List Value) :
    (follow consumer tracker (.text line :: lines)).run.run run =
      (.error (.faulted .tooLarge), run) := by
  have htext : (Value.text line).asText = .ok line := rfl
  have hposition : (ofOutcome (position? line)).run.run run =
      (.error (.faulted .tooLarge), run) := by
    rw [position?_of_distant h distant]
    rfl
  rw [follow, Work.run_bind_of_ok run_get, active, if_neg Bool.false_ne_true,
    Work.run_bind_of_ok (run_ofOutcome htext), Work.run_bind_of_error hposition]

/-- Following an engine whose positions are near tells the percentages that grow,
until the consumer cancels. If it does not, the tracker knows the last one. -/
theorem exists_run_follow (listens : ∀ events, (consumer events).closes = false)
    {total : Number} {x : Binary64} (hx : total.toReal? = some x) (number : x.isNaN = false)
    {texts : List Text} (near : ∀ units ∈ readings texts, Near units)
    (active : run.encoder.cancelled = false) {low : Binary64}
    (hlow : (Number.real low).lt (.real 0) = false) :
    ∃ percent, (follow consumer ⟨.number total, low⟩ (texts.map .text)).run.run run =
        (.ok ⟨.number total, percent⟩,
          run.tellAll consumer ((percentagesFrom low x texts).map .progress)) ∧
      ((run.tellAll consumer ((percentagesFrom low x texts).map .progress)).encoder.cancelled =
        false → percent = (percentagesFrom low x texts).getLastD low) := by
  induction texts generalizing run low with
  | nil => exact ⟨low, rfl, fun _ => rfl⟩
  | cons line texts ih =>
    cases hline : reading? line with
    | none =>
      rw [List.map_cons, run_follow_of_none active hline]
      cases hend : isEnd line with
      | true =>
        have hnone : percentagesFrom low x (line :: texts) = [] := by
          simp [percentagesFrom, readings, hline, hend, records]
        rw [hnone]
        exact ⟨low, rfl, fun _ => rfl⟩
      | false =>
        have hrest : readings (line :: texts) = readings texts := by
          simp [readings, hline, hend]
        rw [hrest] at near
        rw [percentagesFrom, hrest]
        exact ih near active hlow
    | some units =>
      have hrest : readings (line :: texts) = units :: readings texts := by
        simp [readings, hline]
      rw [hrest] at near
      have hlater : ∀ other ∈ readings texts, Near other :=
        fun other h => near other (List.mem_cons_of_mem _ h)
      rw [List.map_cons, run_follow_of_some listens active hx number hlow hline
        (near units List.mem_cons_self), percentagesFrom, hrest, List.map_cons, records]
      split
      · next hlarger =>
        rw [List.map_cons, Run.tellAll]
        split
        · next hcancelled =>
          rw [run_follow_of_cancelled hcancelled]
          refine ⟨_, rfl, ?_⟩
          rw [hcancelled]
          exact fun h => absurd h (by decide)
        · next hactive =>
          rw [Bool.not_eq_true] at hactive
          have hpositive : (Number.real (percentAt x units)).lt (.real 0) = false := by
            refine Bool.eq_false_iff.mpr fun hnegative => ?_
            rw [Number.lt_trans hlarger hnegative] at hlow
            cases hlow
          obtain ⟨percent, hfollow, hlast⟩ := ih hlater hactive hpositive
          refine ⟨percent, hfollow, fun h => (hlast h).trans ?_⟩
          rw [List.getLastD_cons]
          rfl
      · exact ih hlater active hlow

/-! ## Seeing the export through -/

/-- What is told of an engine before it ends. -/
def reported (total : Binary64) (texts : List Text) : List Event :=
  .progress 0 :: (percentages total texts).map .progress

/-- Watching an engine tells zero and the percentages that grow, until the
consumer cancels. The status is read if it does not. -/
theorem exists_run_watch (listens : ∀ events, (consumer events).closes = false)
    {total : Number} {x : Binary64} (hx : total.toReal? = some x) (number : x.isNaN = false)
    {engine : EngineRun} {texts : List Text} (lines : engine.lines = texts.map .text)
    (near : ∀ units ∈ readings texts, Near units) (ends : engine.status.isNull = false) :
    ∃ percent, (watch consumer (.number total) engine).run.run run =
        (let told := run.tellAll consumer (reported x texts)
        if told.encoder.cancelled then (.ok (⟨.number total, percent⟩, none), told)
        else (.ok (⟨.number total, percent⟩, some engine.status), told.record .await)) ∧
      ((run.tellAll consumer (reported x texts)).encoder.cancelled = false →
        percent = (percentages x texts).getLastD 0) := by
  have hzero : (Number.real 0).lt (.real 0) = false := by decide +kernel
  rw [watch, Work.run_bind_of_ok (run_emit (listens _)), ProgressTracker.start, lines, reported,
    Run.tellAll]
  cases hcancelled : (run.tell consumer (.progress 0)).encoder.cancelled with
  | true =>
    rw [Work.run_bind_of_ok (run_follow_of_cancelled hcancelled _ _),
      Work.run_bind_of_ok run_get, if_pos hcancelled, if_pos rfl]
    refine ⟨0, ?_, ?_⟩
    · dsimp only
      rw [if_pos hcancelled]
      rfl
    · rw [hcancelled]
      exact fun h => absurd h (by decide)
  | false =>
    obtain ⟨percent, hfollow, hlast⟩ :=
      exists_run_follow listens hx number near hcancelled hzero
    rw [Work.run_bind_of_ok hfollow, Work.run_bind_of_ok run_get, if_neg Bool.false_ne_true]
    refine ⟨percent, ?_, hlast⟩
    dsimp only [percentages]
    rw [ends]
    split <;> rfl

namespace Run

/-- An export whose engine has ended: by itself, or because it was stopped after
the consumer cancelled. -/
def settle (told : Run) : Run :=
  (if told.encoder.cancelled then (told.record .terminate).record .await
    else told.record .await).holding false

/-- No event arrives while the engine ends. -/
@[simp]
theorem events_settle (told : Run) : told.settle.events = told.events := by
  unfold settle
  split <;> rfl

/-- Ending the engine starts nothing. -/
@[simp]
theorem commands_settle (told : Run) : told.settle.commands = told.commands := by
  unfold settle
  split <;> simp

end Run

/-- Attending an engine is watching it and seeing to it that it ends. -/
theorem exists_run_attend (listens : ∀ events, (consumer events).closes = false)
    {total : Number} {x : Binary64} (hx : total.toReal? = some x) (number : x.isNaN = false)
    {engine : EngineRun} {texts : List Text} (lines : engine.lines = texts.map .text)
    (near : ∀ units ∈ readings texts, Near units) (ends : engine.status.isNull = false)
    (run : Run) :
    ∃ percent, (attend consumer (.number total) engine).run.run run =
        (let told := (run.holding true).tellAll consumer (reported x texts)
        (.ok (⟨.number total, percent⟩,
          if told.encoder.cancelled then none else some engine.status), told.settle)) ∧
      (((run.holding true).tellAll consumer (reported x texts)).encoder.cancelled = false →
        percent = (percentages x texts).getLastD 0) := by
  obtain ⟨percent, hwatch, hlast⟩ :=
    exists_run_watch listens hx number lines near ends
  refine ⟨percent, ?_, hlast⟩
  rw [attend, Work.run_bind_of_ok (run_modify _)]
  dsimp only at hwatch ⊢
  unfold Run.settle
  cases hcancelled :
      ((run.holding true).tellAll consumer (reported x texts)).encoder.cancelled with
  | true =>
    rw [hcancelled, if_pos rfl] at hwatch
    rw [Work.run_bind_of_ok (Work.run_tryCatch_of_ok hwatch)]
    rfl
  | false =>
    rw [hcancelled, if_neg Bool.false_ne_true] at hwatch
    rw [Work.run_bind_of_ok (Work.run_tryCatch_of_ok hwatch)]
    rfl

/-- The events with which an export ends that has come so far, with the status
of its engine unless it was cancelled. -/
def ending (file : Text) (engine : EngineRun) (percent : Binary64) : Option Value → List Event
  | none => [.failure "Export cancelled"]
  | some status =>
    if status.equal (.int 0) then
      (if (Number.real percent).lt 100 then [.progress 100] else []) ++ [.success (.text file)]
    else [.failure (failureMessage engine)]

/-- Reporting tells how the export ends and starts nothing. -/
theorem exists_run_report (listens : ∀ events, (consumer events).closes = false) (file : Text)
    (engine : EngineRun) (tracker : ProgressTracker) (status : Option Value) (run : Run) :
    ∃ after, (report consumer file engine (tracker, status)).run.run run = (.ok (), after) ∧
      after.events = run.events ++ ending file engine tracker.percent status ∧
      after.commands = run.commands := by
  cases status with
  | none =>
    rw [report, run_emit (listens _)]
    exact ⟨_, rfl, by simp [ending], by simp⟩
  | some status =>
    rw [report, ending]
    split
    · split
      · rw [Work.run_bind_of_ok (run_emit (listens _)), Work.run_bind_of_ok (run_note _ _),
          run_emit (listens _)]
        refine ⟨_, rfl, ?_, by simp⟩
        simp [Run.leave]
      · rw [Work.run_bind_of_ok (run_note _ _), run_emit (listens _)]
        refine ⟨_, rfl, ?_, by simp⟩
        simp [Run.leave]
    · rw [Work.run_bind_of_ok (run_note _ _), run_emit (listens _)]
      refine ⟨_, rfl, ?_, by simp⟩
      simp [Run.leave]

/-! ## Starting the engine -/

variable {studio : Studio} {command : List Value} {words : List Text} {duration : Value}
  {file : Text}

/-- A command line of words is noted before the engine is started. -/
theorem run_launch (spoken : wordsOf command = .ok words) :
    (launch consumer studio duration file command).run.run run =
      (match studio.launch with
        | .refused reason => do
          modify (Run.record (.launch command false))
          emit consumer (.failure ("Failed to start FFmpeg: " ++ reason))
        | .broken fault => do
          modify (Run.record (.launch command false))
          throw (.faulted fault)
        | .running engine => do
          modify (Run.record (.launch command true))
          report consumer file engine (← attend consumer duration engine)
        : Exporting Unit).run.run
          (run.leave [⟨.info, "FFmpeg command: " ++ Text.intercalate " " words⟩]) := by
  rw [launch, Work.run_bind_of_ok (run_ofOutcome spoken)]
  rfl

/-- An engine that cannot be started makes one event. -/
theorem exists_run_launch_of_refused (listens : ∀ events, (consumer events).closes = false)
    (spoken : wordsOf command = .ok words) {reason : Text}
    (refused : studio.launch = .refused reason) :
    ∃ after, (launch consumer studio duration file command).run.run run = (.ok (), after) ∧
      after.events = run.events ++ [.failure ("Failed to start FFmpeg: " ++ reason)] := by
  rw [run_launch spoken, refused]
  dsimp only
  rw [Work.run_bind_of_ok (run_modify _), run_emit (listens _)]
  refine ⟨_, rfl, ?_⟩
  rw [Run.events_tell]
  rfl

/-- An engine that is started is attended and reported. Nothing is told before that. -/
theorem exists_begun (spoken : wordsOf command = .ok words) {engine : EngineRun}
    (running : studio.launch = .running engine) (consumer : Consumer) (duration : Value)
    (file : Text) (run : Run) :
    ∃ begun, (launch consumer studio duration file command).run.run run =
        (attend consumer duration engine >>= report consumer file engine).run.run begun ∧
      begun.events = run.events ∧ begun.encoder = run.encoder ∧
      begun.commands = run.commands ++ [command] := by
  rw [run_launch spoken, running]
  dsimp only
  rw [Work.run_bind_of_ok (run_modify _)]
  exact ⟨_, rfl, rfl, rfl, by simp⟩

/-- An engine that is started tells what is reported of it up to where the
consumer cancels, and then how the export ends. -/
theorem exists_run_launch_of_running (file : Text)
    (listens : ∀ events, (consumer events).closes = false) (spoken : wordsOf command = .ok words)
    {total : Number} {x : Binary64} (hx : total.toReal? = some x) (number : x.isNaN = false)
    {engine : EngineRun}
    (running : studio.launch = .running engine) {texts : List Text}
    (lines : engine.lines = texts.map .text) (near : ∀ units ∈ readings texts, Near units)
    (ends : engine.status.isNull = false) (active : run.encoder.cancelled = false)
    (silent : run.events = []) :
    ∃ after heard, (launch consumer studio (.number total) file command).run.run run =
        (.ok (), after) ∧
      after.commands = run.commands ++ [command] ∧ heard <+: reported x texts ∧ heard ≠ [] ∧
      ((Cancels consumer (reported x texts) ∧
          after.events = heard ++ [.failure "Export cancelled"]) ∨
        (¬ Cancels consumer (reported x texts) ∧ heard = reported x texts ∧
          after.events = heard ++
            ending file engine ((percentages x texts).getLastD 0) (some engine.status))) := by
  obtain ⟨begun, hlaunch, hevents, hencoder, hcommands⟩ :=
    exists_begun spoken running consumer (.number total) file run
  have hsilent : (begun.holding true).events = [] := hevents.trans silent
  have hactive : (begun.holding true).encoder.cancelled = false :=
    (congrArg Encoder.cancelled hencoder).trans active
  obtain ⟨percent, hattend, hlast⟩ :=
    exists_run_attend listens hx number lines near ends begun
  rw [hlaunch, Work.run_bind_of_ok hattend]
  obtain ⟨heard, htold, hprefix, hsome, hall⟩ :=
    Run.exists_heard consumer (begun.holding true) (reported x texts)
  have hcancels := Run.cancelled_tellAll consumer hactive (reported x texts)
  rw [hsilent, List.nil_append] at htold
  simp only [hsilent, List.nil_append] at hcancels
  obtain ⟨after, hreport, hended, hstarted⟩ := exists_run_report listens file engine
    ⟨.number total, percent⟩ _ ((begun.holding true).tellAll consumer (reported x texts)).settle
  refine ⟨after, heard, hreport, ?_, hprefix, hsome (List.cons_ne_nil _ _), ?_⟩
  · rw [hstarted, Run.commands_settle, Run.commands_tellAll, Run.commands_holding, hcommands]
  rw [Run.events_settle, htold] at hended
  cases hcancelled :
      ((begun.holding true).tellAll consumer (reported x texts)).encoder.cancelled with
  | true =>
    rw [hcancelled, if_pos rfl, ending] at hended
    exact .inl ⟨hcancels.mp hcancelled, hended⟩
  | false =>
    rw [hcancelled, if_neg Bool.false_ne_true, hlast hcancelled] at hended
    refine .inr ⟨fun h => ?_, hall hcancelled, hended⟩
    rw [hcancels.mpr h] at hcancelled
    cases hcancelled

/-- A distant position on the first line ends an export in a fault, after zero was
told, if the consumer does not cancel then. -/
theorem exists_run_launch_of_distant (listens : ∀ events, (consumer events).closes = false)
    (spoken : wordsOf command = .ok words) {engine : EngineRun}
    (running : studio.launch = .running engine) {line : Text} {lines : List Value}
    (first : engine.lines = .text line :: lines) {units : Int} (h : reading? line = some units)
    (distant : Distant units) (active : run.encoder.cancelled = false) (silent : run.events = [])
    (continues : (consumer [.progress 0]).cancels = false) :
    ∃ after, (launch consumer studio duration file command).run.run run =
      (.error (.faulted .tooLarge), after) ∧ after.events = [.progress 0] := by
  obtain ⟨begun, hlaunch, hevents, hencoder, _⟩ :=
    exists_begun spoken running consumer duration file run
  have hsilent : (begun.holding true).events = [] := hevents.trans silent
  have hactive : ((begun.holding true).tell consumer (.progress 0)).encoder.cancelled = false := by
    rw [Run.cancelled_tell, hsilent, List.nil_append, continues, Bool.or_false]
    exact (congrArg Encoder.cancelled hencoder).trans active
  have hwatch : (watch consumer duration engine).run.run (begun.holding true) =
      (.error (.faulted .tooLarge), (begun.holding true).tell consumer (.progress 0)) := by
    rw [watch, Work.run_bind_of_ok (run_emit (listens _)), first,
      Work.run_bind_of_error (run_follow_of_distant hactive h distant _ _)]
  have hattend : (attend consumer duration engine).run.run begun = (.error (.faulted .tooLarge),
      (((((begun.holding true).tell consumer (.progress 0)).record .terminate).record
        .await).holding false)) := by
    rw [attend, Work.run_bind_of_ok (run_modify _)]
    refine Work.run_bind_of_error ?_
    rw [Work.run_tryCatch_of_error hwatch]
    rfl
  rw [hlaunch, Work.run_bind_of_error hattend]
  refine ⟨_, rfl, ?_⟩
  change ((begun.holding true).tell consumer (.progress 0)).events = _
  rw [Run.events_tell, hsilent]
  rfl

end Montage.Export
