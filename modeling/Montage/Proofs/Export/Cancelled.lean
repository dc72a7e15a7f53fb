import Montage.Export.Worker
import Montage.Proofs.Export.Attended
import Montage.Proofs.Graph.Faults
import Montage.Proofs.Graph.Routes

/-!
# Cancelling before the first event

An export can be cancelled before it has told anything. Whether that is heeded
depends on the moment. From when the encoder has taken up the graph, it is: the
engine is stopped, and a failure is told. Before that it is lost: an encoder
that takes up a graph forgets that it was cancelled.
-/

namespace Montage.Export

open Exporting

/-- A moment at which an export has not told anything yet. -/
inductive Moment where
  /-- The export was accepted. -/
  | accepted
  /-- The request is being compiled. -/
  | compiled
  /-- The encoder has taken up the graph. -/
  | prepared
  /-- The engine was started. -/
  | started

/-- Somebody may cancel at a moment. -/
def askedAt (asked : Moment → Bool) (moment : Moment) : Exporting Unit :=
  if asked moment then modify Run.cancel else pure ()

/-- Starts the engine and sees the export through while somebody may cancel. -/
def launchAsked (asked : Moment → Bool) (consumer : Consumer) (studio : Studio)
    (duration : Value) (path : Text) (command : List Value) : Exporting Unit := do
  note .info ("FFmpeg command: " ++ Text.intercalate " " (← ofOutcome (wordsOf command)))
  match studio.launch with
  | .refused reason =>
    modify (Run.record (.launch command false))
    emit consumer (.failure ("Failed to start FFmpeg: " ++ reason))
  | .broken fault =>
    modify (Run.record (.launch command false))
    throw (.faulted fault)
  | .running engine =>
    modify (Run.record (.launch command true))
    modify (Run.holding true)
    askedAt asked .started
    report consumer path engine (← attend consumer duration engine)

/-- Renders a graph while somebody may cancel. -/
def executeAsked (asked : Moment → Bool) (consumer : Consumer) (studio : Studio)
    (graph : RenderGraph) (path : Text) : Exporting Unit := do
  let path ← ofOutcome (outputPath (.text path))
  modify fun run => { run with encoder := { run.encoder with cancelled := false } }
  askedAt asked .prepared
  let (command, notes) := ((← get).encoder.command studio graph path).result
  modify (Run.leave notes)
  match command with
  | .ok command => launchAsked asked consumer studio graph.duration path command
  | .error fault =>
    match commandFailure? fault with
    | some message =>
      note .error ("Could not build FFmpeg command: " ++ message)
      emit consumer (.failure message)
    | none => throw (.faulted fault)

/-- Compiles a request and renders it while somebody may cancel. -/
def performAsked (asked : Moment → Bool) (consumer : Consumer) (studio : Studio)
    (request : Request) : Exporting Unit := do
  askedAt asked .accepted
  let compiled ← compiling (Compile.run studio.outside (.clips request.clips) request.options)
  askedAt asked .compiled
  resume consumer (fun graph => executeAsked asked consumer studio graph request.outputPath)
    compiled

/-- Two exports that cannot be told apart from outside. -/
structure Finish.Alike (one other : Finish) : Prop where
  /-- They end in the same fault, if in any. -/
  fault : one.fault? = other.fault?
  /-- The same events arrive. -/
  events : one.run.events = other.run.events
  /-- The same is asked of the world outside, and the same notes are left. -/
  trace : one.run.trace = other.run.trace

variable {asked : Moment → Bool} {consumer : Consumer} {studio : Studio}

/-! ## What is lost -/

/-- Where nobody cancels, nothing happens. -/
theorem askedAt_of_false {moment : Moment} (h : asked moment = false) :
    askedAt asked moment = pure () := by
  rw [askedAt, h]
  rfl

/-- Where nobody cancels, the engine is started as always. -/
theorem launchAsked_eq (started : asked .started = false) (duration : Value) (path : Text)
    (command : List Value) :
    launchAsked asked consumer studio duration path command =
      launch consumer studio duration path command := by
  unfold launchAsked
  rw [askedAt_of_false started]
  rfl

/-- Where nobody cancels, a graph is rendered as always. -/
theorem executeAsked_eq (prepared : asked .prepared = false) (started : asked .started = false)
    (graph : RenderGraph) (path : Text) :
    executeAsked asked consumer studio graph path = execute consumer studio graph path := by
  unfold executeAsked
  simp only [askedAt_of_false prepared, launchAsked_eq started]
  rfl

/-- Cancelling while no engine is held is remembered by the encoder only. -/
theorem Run.cancel_of_free {run : Run} (free : run.encoder.holdsProcess = false) :
    run.cancel = { run with encoder := { run.encoder with cancelled := true } } := by
  rw [Run.cancel, free, if_neg Bool.false_ne_true]

/-- While no engine is held, cancelling stops nothing. -/
theorem Run.trace_cancel (run : Run) (free : run.encoder.holdsProcess = false) :
    run.cancel.trace = run.trace := by
  rw [Run.cancel_of_free free]

/-- While no engine is held, the encoder remembers that it was cancelled, and nothing
else happens. -/
theorem run_askedAt (encoder : Encoder) (free : encoder.holdsProcess = false)
    (asked : Moment → Bool) (moment : Moment) (trace : Trace) :
    (askedAt asked moment).run.run (.start encoder trace) =
      (.ok (), .start { encoder with cancelled := encoder.cancelled || asked moment } trace) := by
  unfold askedAt
  cases asked moment with
  | false =>
    rw [Bool.or_false]
    rfl
  | true =>
    rw [if_pos rfl, run_modify, Run.cancel_of_free free, Bool.or_true]
    rfl

/-- While no engine is held, what is recorded of an event does not depend on a
cancellation before it. -/
theorem Run.trace_tell_cancelled {run : Run} (free : run.encoder.holdsProcess = false)
    (consumer : Consumer) (event : Event) (cancelled : Bool) :
    (Run.tell consumer { run with encoder := { run.encoder with cancelled } } event).trace =
      (run.tell consumer event).trace := by
  unfold Run.tell
  dsimp only
  cases (consumer (run.events ++ [event])).cancels with
  | false => rfl
  | true =>
    rw [if_pos rfl, if_pos rfl, trace_cancel _ (by exact free), trace_cancel _ (by exact free)]
    rfl

/-- How an export goes on is decided by what the compilation comes to. -/
theorem exists_finish_performAsked {encoder : Encoder} (free : encoder.holdsProcess = false)
    (asked : Moment → Bool) (consumer : Consumer) (studio : Studio) (request : Request)
    (trace : Trace) {outcome : Outcome RenderGraph} {after : Trace}
    (compiled : (Compile.run studio.outside (.clips request.clips) request.options).run.run trace =
      (outcome, after)) :
    ∃ cancelled, finish (performAsked asked consumer studio request) (.start encoder trace) =
      finish (resume consumer
        (fun graph => executeAsked asked consumer studio graph request.outputPath) outcome)
        (.start { encoder with cancelled } after) := by
  have hearly := run_askedAt encoder free asked .accepted trace
  generalize (encoder.cancelled || asked .accepted) = early at hearly
  have hlate := run_askedAt { encoder with cancelled := early } free asked .compiled after
  have hcompiling := run_compiling
    (Compile.run studio.outside (.clips request.clips) request.options)
    { encoder with cancelled := early } trace
  rw [compiled] at hcompiling
  refine ⟨early || asked .compiled, finish_congr ?_⟩
  rw [performAsked, Work.run_bind_of_ok hearly, Work.run_bind_of_ok hcompiling,
    Work.run_bind_of_ok hlate]

/-- An encoder that takes up a graph forgets that it was cancelled. -/
theorem alike_of_resume (encoder : Encoder) (free : encoder.holdsProcess = false)
    (consumer : Consumer) (studio : Studio) (path : Text) (compiled : Outcome RenderGraph)
    (cancelled : Bool) (trace : Trace) :
    (finish (resume consumer (fun graph => execute consumer studio graph path) compiled)
      (.start { encoder with cancelled } trace)).Alike
    (finish (resume consumer (fun graph => execute consumer studio graph path) compiled)
      (.start encoder trace)) := by
  cases compiled with
  | ok graph =>
    rw [resume, finish_execute_cancelled]
    exact ⟨rfl, rfl, rfl⟩
  | error fault =>
    rw [resume]
    cases rejection? fault with
    | none => exact ⟨rfl, rfl, rfl⟩
    | some message =>
      rw [finish_rejected, finish_rejected]
      refine ⟨rfl, ?_, ?_⟩
      · rw [Run.events_tell, Run.events_tell]
        rfl
      · have hfree : ((Run.start encoder trace).leave
            [⟨.error, "Export rejected: " ++ message⟩]).encoder.holdsProcess = false := free
        exact Run.trace_tell_cancelled hfree consumer _ cancelled

/-- An export does not depend on whether its encoder was cancelled before it. -/
theorem alike_of_perform (encoder : Encoder) (free : encoder.holdsProcess = false)
    (consumer : Consumer) (studio : Studio) (request : Request) (cancelled : Bool)
    (trace : Trace) :
    (finish (perform consumer studio request) (.start { encoder with cancelled } trace)).Alike
      (finish (perform consumer studio request) (.start encoder trace)) := by
  cases hcompiled : (Compile.run studio.outside (.clips request.clips) request.options).run.run
    trace with
  | mk compiled after =>
    rw [finish_perform consumer studio request _ trace hcompiled,
      finish_perform consumer studio request encoder trace hcompiled]
    exact alike_of_resume encoder free consumer studio request.outputPath compiled cancelled after

/-- What is asked before the encoder takes up the graph is lost. -/
theorem alike_of_performAsked {encoder : Encoder} (free : encoder.holdsProcess = false)
    (prepared : asked .prepared = false) (started : asked .started = false)
    (consumer : Consumer) (studio : Studio) (request : Request) (trace : Trace) :
    (finish (performAsked asked consumer studio request) (.start encoder trace)).Alike
      (finish (perform consumer studio request) (.start encoder trace)) := by
  cases hcompiled : (Compile.run studio.outside (.clips request.clips) request.options).run.run
    trace with
  | mk compiled after =>
    obtain ⟨cancelled, hasked⟩ :=
      exists_finish_performAsked free asked consumer studio request trace hcompiled
    rw [hasked, finish_perform consumer studio request encoder trace hcompiled]
    simp only [executeAsked_eq prepared started]
    exact alike_of_resume encoder free consumer studio request.outputPath compiled cancelled after

/-! ## What is heeded -/

/-- Nothing is left running: no engine was started, or it was stopped and waited
for. -/
inductive Stopped : List OutsideCall → Prop
  /-- No engine was to be started. -/
  | unstarted : Stopped []
  /-- The engine did not start. -/
  | refused (command : List Value) : Stopped [.launch command false]
  /-- The engine was stopped before it was waited for. -/
  | stopped (command : List Value) (stops : List OutsideCall) (some : stops ≠ [])
      (only : ∀ call ∈ stops, call = .terminate) :
      Stopped (.launch command true :: (stops ++ [.await]))

/-- A part of an export comes to no success. If it ends by itself, a failure is told
last. -/
structure Heeds (consumer : Consumer) (run : Run) (outcome : Except Halt Unit) (after : Run) :
    Prop where
  /-- No success is told, and a failure in the end. -/
  told : ∃ told, after.events = run.events ++ told ∧ (∀ path, .success path ∉ told) ∧
    ∀ a, outcome = .ok a →
      ∃ (percents : List Binary64) (message : Text),
        told = percents.map .progress ++ [.failure message]
  /-- Nothing is left running. -/
  stopped : ∃ calls, after.trace.calls = run.trace.calls ++ calls ∧ Stopped calls
  /-- It is left only by a consumer that stops listening. -/
  closed : outcome = .error .closed → ∃ seen, (consumer seen).closes = true

variable {run begun after : Run} {outcome : Except Halt Unit}

/-- Telling a failure after percentages is no success. -/
theorem heeds_of_isTold {percents : List Binary64} {calls : List OutsideCall} {message : Text}
    (told : IsTold consumer begun [.failure message] outcome after)
    (events : begun.events = run.events ++ percents.map .progress)
    (asked : begun.trace.calls = run.trace.calls ++ calls) (stopped : Stopped calls) :
    Heeds consumer run outcome after := by
  have hevents : ∀ late, Tells begun late after →
      after.events = run.events ++ (percents.map .progress ++ late) := by
    intro late htells
    rw [htells.events, events, List.append_assoc]
  have hnone : ∀ late, late <+: [Event.failure message] →
      ∀ path, Event.success path ∉ percents.map Event.progress ++ late := by
    intro late hlate path h
    rcases List.mem_append.mp h with h | h
    · simp at h
    · simpa using hlate.subset h
  cases told with
  | whole _ _ tells =>
    exact ⟨⟨_, hevents _ tells, hnone _ List.prefix_rfl, fun _ _ => ⟨percents, message, rfl⟩⟩,
      ⟨calls, tells.calls.trans asked, stopped⟩, fun h => by cases h⟩
  | left late _ tells early closes =>
    obtain ⟨seen, _, _, hcloses⟩ := closes
    exact ⟨⟨_, hevents _ tells, hnone _ early, Work.no_result_of_error⟩,
      ⟨calls, tells.calls.trans asked, stopped⟩, fun _ => ⟨_, hcloses⟩⟩

/-- Nothing has been told so far, and nothing is left running. -/
structure Silent (run begun : Run) : Prop where
  /-- No event has arrived. -/
  events : begun.events = run.events
  /-- An engine that was started was stopped. -/
  stopped : ∃ calls, begun.trace.calls = run.trace.calls ++ calls ∧ Stopped calls

/-- In the beginning nothing has been told. -/
theorem Silent.refl (run : Run) : Silent run run := ⟨rfl, [], (List.append_nil _).symm, .unstarted⟩

/-- A fault before the first event is no success. -/
theorem Silent.heeds_fault (silent : Silent run begun) (consumer : Consumer) (fault : Fault) :
    Heeds consumer run (.error (.faulted fault)) begun where
  told := ⟨[], by rw [silent.events, List.append_nil], by simp, Work.no_result_of_error⟩
  stopped := silent.stopped
  closed h := by cases h

/-- A failure as the first event is no success. -/
theorem Silent.heeds_failure (silent : Silent run begun) {message : Text}
    (told : IsTold consumer begun [.failure message] outcome after) :
    Heeds consumer run outcome after := by
  obtain ⟨events, calls, asked, stopped⟩ := silent
  have hnone : begun.events = run.events ++ ([] : List Binary64).map .progress := by
    rw [events, List.map_nil, List.append_nil]
  exact heeds_of_isTold told hnone asked stopped

/-- The watch over an engine that was cancelled ends at the first line. -/
theorem ends_watch_of_cancelled (consumer : Consumer) (run : Run)
    (cancelled : run.encoder.cancelled = true) (duration : Value) (engine : EngineRun) :
    Work.Ends (watch consumer duration engine) run fun outcome after =>
      after = run.tell consumer (.progress 0) ∧
        ((outcome = .error .closed ∧ (consumer (run.events ++ [.progress 0])).closes = true) ∨
          ∃ tracker, outcome = .ok (tracker, none)) := by
  have htold : (run.tell consumer (.progress 0)).encoder.cancelled = true := by
    rw [Run.cancelled_tell, cancelled, Bool.true_or]
  rw [watch]
  refine ends_emit_bind (fun _ => ?_) fun hcloses => ⟨rfl, .inl ⟨rfl, hcloses⟩⟩
  refine Work.ends_bind_of_ok (run_follow_of_cancelled htold _ _) ?_
  refine Work.ends_bind_of_ok run_get ?_
  rw [htold, if_pos rfl]
  exact ⟨rfl, .inr ⟨_, rfl⟩⟩

/-- An engine that was cancelled is stopped after the first event. -/
theorem ends_attend_of_cancelled (consumer : Consumer) (run : Run)
    (cancelled : run.encoder.cancelled = true) (duration : Value) (engine : EngineRun) :
    Work.Ends (attend consumer duration engine) run fun outcome after =>
      after = ((((run.holding true).tell consumer (.progress 0)).record .terminate).record
        .await).holding false ∧
        ((outcome = .error .closed ∧ (consumer (run.events ++ [.progress 0])).closes = true) ∨
          ∃ tracker, outcome = .ok (tracker, none)) := by
  have hwatched := ends_watch_of_cancelled consumer (run.holding true) cancelled duration engine
  unfold Work.Ends at hwatched
  rw [attend]
  refine Work.ends_bind_of_ok (run_modify _) ?_
  cases hwatch : (watch consumer duration engine).run.run (run.holding true) with
  | mk outcome told =>
    rw [hwatch] at hwatched
    obtain ⟨rfl, ⟨rfl, hcloses⟩ | ⟨tracker, rfl⟩⟩ := hwatched
    · exact Work.ends_bind_of_error (Work.run_tryCatch_of_error hwatch) ⟨rfl, .inl ⟨rfl, hcloses⟩⟩
    · exact Work.ends_bind_of_ok (Work.run_tryCatch_of_ok hwatch) ⟨rfl, .inr ⟨tracker, rfl⟩⟩

/-- When an event is told, the engine is at most stopped. -/
theorem Run.exists_calls_tell (consumer : Consumer) (run : Run) (event : Event) :
    ∃ stops, (run.tell consumer event).trace.calls = run.trace.calls ++ stops ∧
      ∀ call ∈ stops, call = .terminate := by
  refine ⟨_, Run.calls_tell consumer run event, fun call hcall => ?_⟩
  split at hcall
  · exact List.mem_singleton.mp hcall
  · exact (List.not_mem_nil hcall).elim

/-- An engine that is cancelled before anything is told comes to no success. -/
theorem heeds_of_attend (consumer : Consumer) (run begun : Run) {command : List Value}
    {stops : List OutsideCall} (cancelled : begun.encoder.cancelled = true)
    (events : begun.events = run.events)
    (asked : begun.trace.calls = run.trace.calls ++ (.launch command true :: stops))
    (only : ∀ call ∈ stops, call = .terminate) (duration : Value) (path : Text)
    (engine : EngineRun) :
    Work.Ends (attend consumer duration engine >>= report consumer path engine) begun
      (Heeds consumer run) := by
  have hattend := ends_attend_of_cancelled consumer begun cancelled duration engine
  obtain ⟨more, hmore, hmoreOnly⟩ :=
    Run.exists_calls_tell consumer (begun.holding true) (.progress 0)
  generalize hgone : (((((begun.holding true).tell consumer (.progress 0)).record
    .terminate).record .await).holding false) = gone at hattend
  have hevents : gone.events = run.events ++ [.progress 0] := by
    rw [← hgone, ← events]
    exact Run.events_tell _
  have hfree : gone.encoder.holdsProcess = false := by
    rw [← hgone]
    rfl
  have hcalls : gone.trace.calls = run.trace.calls ++
      (.launch command true :: ((stops ++ more ++ [.terminate]) ++ [.await])) := by
    have hstopped := Run.calls_stopped ((begun.holding true).tell consumer (.progress 0))
    rw [hmore] at hstopped
    rw [← hgone]
    refine hstopped.trans ?_
    change begun.trace.calls ++ more ++ _ = _
    rw [asked]
    simp
  have hstopped :
      Stopped (.launch command true :: ((stops ++ more ++ [.terminate]) ++ [.await])) := by
    refine .stopped command _ (by simp) fun call hcall => ?_
    rcases List.mem_append.mp hcall with hcall | hcall
    · exact (List.mem_append.mp hcall).elim (only call) (hmoreOnly call)
    · exact List.mem_singleton.mp hcall
  refine hattend.bind (fun watched t h => ?_) fun halt t h => ?_
  · obtain ⟨rfl, ⟨hleft, _⟩ | ⟨tracker, hwatched⟩⟩ := h
    · cases hleft
    · cases hwatched
      have hemit := isTold_emit consumer t hfree (.failure "Export cancelled")
      have hzero : t.events = run.events ++ [(0 : Binary64)].map .progress := hevents
      exact hemit.mono fun outcome after htold => heeds_of_isTold htold hzero hcalls hstopped
  · obtain ⟨rfl, ⟨hleft, hcloses⟩ | ⟨tracker, hwatched⟩⟩ := h
    · cases hleft
      exact ⟨⟨_, hevents, by simp, Work.no_result_of_error⟩, ⟨_, hcalls, hstopped⟩,
        fun _ => ⟨_, hcloses⟩⟩
    · cases hwatched

/-- Starting an engine comes to no success if somebody cancels before anything is
told. -/
theorem heeds_of_launchAsked (free : run.encoder.holdsProcess = false)
    (heeded : run.encoder.cancelled = true ∨ asked .started = true) (duration : Value)
    (path : Text) (command : List Value) :
    Work.Ends (launchAsked asked consumer studio duration path command) run
      (Heeds consumer run) := by
  rw [launchAsked]
  refine ends_ofOutcome_bind (fun words _ => ?_) fun fault _ =>
    (Silent.refl run).heeds_fault consumer fault
  refine Work.ends_bind_of_ok (run_note _ _) ?_
  generalize hnoted : run.leave _ = noted
  have hevents : noted.events = run.events := by rw [← hnoted]; rfl
  have hcalls : noted.trace.calls = run.trace.calls := by rw [← hnoted]; rfl
  have hencoder : noted.encoder = run.encoder := by rw [← hnoted]; rfl
  have hasked : ∀ started, (noted.record (.launch command started)).trace.calls =
      run.trace.calls ++ [.launch command started] := by
    intro started
    rw [← hcalls]
    rfl
  have hsilent : Silent run (noted.record (.launch command false)) :=
    ⟨hevents, _, hasked false, .refused command⟩
  cases studio.launch with
  | refused reason =>
    refine Work.ends_bind_of_ok (run_modify _) ?_
    have hfree : (noted.record (.launch command false)).encoder.holdsProcess = false := by
      rw [← free, ← hencoder]
      rfl
    have hemit := isTold_emit consumer _ hfree (.failure ("Failed to start FFmpeg: " ++ reason))
    exact hemit.mono fun outcome after => hsilent.heeds_failure
  | broken fault =>
    exact Work.ends_bind_of_ok (run_modify _) (hsilent.heeds_fault consumer fault)
  | running engine =>
    refine Work.ends_bind_of_ok (run_modify _) ?_
    refine Work.ends_bind_of_ok (run_modify _) ?_
    cases hstarted : asked .started with
    | true =>
      have hstops : (((noted.record (.launch command true)).holding true).cancel).trace.calls =
          run.trace.calls ++ (.launch command true :: [.terminate]) := by
        refine (congrArg (· ++ [.terminate]) (hasked true)).trans ?_
        simp
      rw [askedAt, hstarted, if_pos rfl]
      exact Work.ends_bind_of_ok (run_modify _) (heeds_of_attend consumer run
        ((noted.record (.launch command true)).holding true).cancel rfl hevents hstops (by simp)
        duration path engine)
    | false =>
      have hcancelled : ((noted.record (.launch command true)).holding true).encoder.cancelled =
          true := by
        change noted.encoder.cancelled = true
        rw [hencoder]
        exact heeded.resolve_right (by rw [hstarted]; exact Bool.false_ne_true)
      rw [askedAt_of_false hstarted]
      exact Work.ends_bind_of_ok rfl (heeds_of_attend consumer run
        ((noted.record (.launch command true)).holding true) hcancelled hevents (hasked true)
        (by simp) duration path engine)

/-- Rendering a graph comes to no success if somebody cancels after the encoder has
taken it up. -/
theorem heeds_of_executeAsked (encoder : Encoder) (free : encoder.holdsProcess = false)
    (heeded : asked .prepared = true ∨ asked .started = true) (consumer : Consumer)
    (studio : Studio) (graph : RenderGraph) (path : Text) (trace : Trace) :
    Work.Ends (executeAsked asked consumer studio graph path) (.start encoder trace)
      (Heeds consumer (.start encoder trace)) := by
  obtain ⟨file, hfile⟩ := exists_outputPath path
  have hprepared := run_askedAt { encoder with cancelled := false } free asked .prepared trace
  rw [executeAsked]
  refine Work.ends_bind_of_ok (run_ofOutcome hfile) ?_
  refine Work.ends_bind_of_ok (run_modify _) ?_
  refine Work.ends_bind_of_ok hprepared ?_
  refine Work.ends_bind_of_ok run_get ?_
  refine Work.ends_bind_of_ok (run_modify _) ?_
  generalize hbegun : Run.leave _ _ = begun
  have hevents : begun.events = [] := by rw [← hbegun]; rfl
  have hcalls : begun.trace.calls = trace.calls := by rw [← hbegun]; rfl
  have hfree : begun.encoder.holdsProcess = false := by rw [← hbegun]; exact free
  have hcancelled : begun.encoder.cancelled = asked .prepared := by rw [← hbegun]; rfl
  have hsame : ∀ (outcome : Except Halt Unit) after, Heeds consumer begun outcome after →
      Heeds consumer (.start encoder trace) outcome after := by
    intro outcome after h
    obtain ⟨told, stopped, closed⟩ := h
    rw [hevents] at told
    rw [hcalls] at stopped
    exact ⟨told, stopped, closed⟩
  refine Work.Ends.mono ?_ hsame
  split
  · next command _ =>
    refine heeds_of_launchAsked hfree ?_ graph.duration file command
    rwa [hcancelled]
  · next fault _ =>
    cases commandFailure? fault with
    | some message =>
      exact (isTold_note_emit consumer hfree _ _ _).mono fun _ _ => (Silent.refl begun).heeds_failure
    | none => exact (Silent.refl begun).heeds_fault consumer fault

/-- An export that did not start from `before` in vain: it comes to no success, and
nothing is left running. -/
structure Finish.Unsuccessful (consumer : Consumer) (before : Trace) (done : Finish) : Prop where
  /-- No success is told. -/
  told : ∀ path, .success path ∉ done.run.events
  /-- After the questions of the compilation, an engine that was started was
  stopped. -/
  stopped : ∃ questions calls, done.run.trace.calls = before.calls ++ (questions ++ calls) ∧
    (∀ call ∈ questions, call.IsQuestion) ∧ Stopped calls
  /-- A consumer that goes on listening hears of a failure in the end, unless there is a
  fault. -/
  failed : (∀ events, (consumer events).closes = false) → done.fault? = none →
    ∃ (percents : List Binary64) (message : Text),
      done.run.events = percents.map .progress ++ [.failure message]

/-- An export that is resumed after its compilation comes to no success if rendering
does not. -/
theorem heeds_of_resume (encoder : Encoder) (free : encoder.holdsProcess = false)
    (consumer : Consumer) (trace : Trace) {render : RenderGraph → Exporting Unit}
    (heeds : ∀ graph, Work.Ends (render graph) (.start encoder trace)
      (Heeds consumer (.start encoder trace))) (compiled : Outcome RenderGraph) :
    Work.Ends (resume consumer render compiled) (.start encoder trace)
      (Heeds consumer (.start encoder trace)) := by
  cases compiled with
  | ok graph => exact heeds graph
  | error fault =>
    rw [resume]
    cases rejection? fault with
    | none => exact (Silent.refl _).heeds_fault consumer fault
    | some message =>
      have hfree : (Run.start encoder trace).encoder.holdsProcess = false := free
      exact (isTold_note_emit consumer hfree _ _ _).mono fun _ _ => (Silent.refl _).heeds_failure

/-- Somebody who cancels after the encoder has taken up the graph is heeded. -/
theorem unsuccessful_of_performAsked {encoder : Encoder} (free : encoder.holdsProcess = false)
    (heeded : asked .prepared = true ∨ asked .started = true)
    (consumer : Consumer) (studio : Studio) (request : Request) (trace : Trace) :
    (finish (performAsked asked consumer studio request) (.start encoder trace)).Unsuccessful
      consumer trace := by
  have hfails := Compile.fails_run studio.outside (.clips request.clips) request.options trace
  unfold Work.Ends at hfails
  cases hcompiled : (Compile.run studio.outside (.clips request.clips) request.options).run.run
    trace with
  | mk compiled asking =>
    rw [hcompiled] at hfails
    obtain ⟨⟨questions, hquestions, hall⟩, _⟩ := hfails
    obtain ⟨cancelled, hasked⟩ :=
      exists_finish_performAsked free asked consumer studio request trace hcompiled
    rw [hasked]
    have hresumed := heeds_of_resume { encoder with cancelled } free consumer asking
      (fun graph => heeds_of_executeAsked { encoder with cancelled } free heeded consumer studio
        graph request.outputPath asking) compiled
    unfold Work.Ends at hresumed
    generalize resume consumer _ compiled = work at hresumed
    cases hrun : work.run.run (.start { encoder with cancelled } asking) with
    | mk outcome after =>
      rw [hrun] at hresumed
      obtain ⟨hafter, hfault⟩ := finish_of_run hrun
      obtain ⟨⟨told, hevents, hnone, hfailure⟩, ⟨calls, hcalls, hstopped⟩, hclosed⟩ := hresumed
      refine ⟨fun path => ?_, ⟨questions, calls, ?_, hall, hstopped⟩, fun listens quiet => ?_⟩
      · rw [hafter, hevents]
        exact hnone path
      · rw [hafter, hcalls, ← List.append_assoc, ← hquestions]
        rfl
      · rw [hafter, hevents]
        cases outcome with
        | ok a => exact hfailure a rfl
        | error halt =>
          cases halt with
          | closed =>
            obtain ⟨seen, hseen⟩ := hclosed rfl
            rw [listens seen] at hseen
            cases hseen
          | faulted fault =>
            rw [(hfault fault).mpr rfl] at quiet
            cases quiet

/-! ## Workers and exporters -/

/-- A worker does not notice that it was cancelled before it began. -/
theorem alike_of_cancel (worker : Worker) (free : worker.encoder.holdsProcess = false)
    (trace : Trace) :
    ((worker.cancel trace).1.run (worker.cancel trace).2).Alike (worker.run trace) := by
  have hfree : (Run.start worker.encoder trace).encoder.holdsProcess = false := free
  rw [Worker.cancel, Run.cancel_of_free hfree]
  exact alike_of_perform worker.encoder free .listening worker.studio worker.request true trace

/-- How the work of a worker that was cancelled before it began goes on when its request
is compiled. -/
def Worker.resumed (worker : Worker) (compiled : Outcome RenderGraph × Trace) : Finish :=
  finish (resume .listening (fun graph =>
    execute .listening worker.studio graph worker.request.outputPath) compiled.1)
    (.start { worker.encoder with cancelled := true } compiled.2)

/-- A worker that was cancelled before it began goes on with what compiling its request
comes to. -/
theorem run_cancel_eq (worker : Worker) (free : worker.encoder.holdsProcess = false)
    (trace : Trace) :
    (worker.cancel trace).1.run (worker.cancel trace).2 =
      worker.resumed ((Compile.run worker.studio.outside (.clips worker.request.clips)
        worker.request.options).run.run trace) := by
  have hfree : (Run.start worker.encoder trace).encoder.holdsProcess = false := free
  rw [Worker.cancel, Run.cancel_of_free hfree]
  exact finish_perform .listening worker.studio worker.request
    { worker.encoder with cancelled := true } trace rfl

/-- What the last worker does shows in the exporter. -/
theorem exists_turn_of_worker {exporter : Exporter} {worker : Worker}
    (working : exporter.worker? = some worker) :
    ∃ turn, exporter.work? = some turn ∧
      turn.signals = Signal.ofEvents (worker.run exporter.trace).run.events ∧
      turn.fault? = (worker.run exporter.trace).fault? ∧
      turn.exporter.trace = (worker.run exporter.trace).run.trace := by
  rw [Exporter.work?, working]
  exact ⟨_, rfl, rfl, rfl, rfl⟩

/-- An exporter cancels its last worker. -/
theorem exists_turn_of_cancel {exporter : Exporter} {worker : Worker}
    (working : exporter.worker? = some worker) :
    ∃ turn, exporter.cancel.work? = some turn ∧
      turn.signals = Signal.ofEvents ((worker.cancel exporter.trace).1.run
        (worker.cancel exporter.trace).2).run.events ∧
      turn.fault? = ((worker.cancel exporter.trace).1.run
        (worker.cancel exporter.trace).2).fault? ∧
      turn.exporter.trace = ((worker.cancel exporter.trace).1.run
        (worker.cancel exporter.trace).2).run.trace := by
  have hworking : exporter.cancel.worker? = some (worker.cancel exporter.trace).1 := by
    rw [Exporter.cancel, working]
  have htrace : exporter.cancel.trace = (worker.cancel exporter.trace).2 := by
    rw [Exporter.cancel, working]
  rw [← htrace]
  exact exists_turn_of_worker hworking

/-- Whether somebody who cancels before the first event is heeded depends on the
moment. If it is not after the encoder has taken up the graph, the export is like
one that nobody cancels, and an exporter signals the same after it was cancelled as
if it was not. Otherwise the export comes to no success, and its engine is stopped. -/
theorem lost_or_heeded {encoder : Encoder} (free : encoder.holdsProcess = false)
    (asked : Moment → Bool) (consumer : Consumer) (studio : Studio) (request : Request)
    (trace : Trace) :
    (asked .prepared = false → asked .started = false →
      (finish (performAsked asked consumer studio request) (.start encoder trace)).Alike
        (Export.run consumer studio request encoder trace)) ∧
    (asked .prepared = true ∨ asked .started = true →
      (finish (performAsked asked consumer studio request) (.start encoder trace)).Unsuccessful
        consumer trace) ∧
    ∀ exporter : Exporter, exporter.worker? = some ⟨request, studio, encoder⟩ →
      ∃ turn other, exporter.work? = some turn ∧ exporter.cancel.work? = some other ∧
        other.signals = turn.signals ∧ other.fault? = turn.fault? ∧
        other.exporter.trace = turn.exporter.trace := by
  refine ⟨fun prepared started =>
    alike_of_performAsked free prepared started consumer studio request trace,
    fun heeded => unsuccessful_of_performAsked free heeded consumer studio request trace,
    fun exporter working => ?_⟩
  have halike := alike_of_cancel ⟨request, studio, encoder⟩ free exporter.trace
  obtain ⟨turn, hturn, signals, fault, trace⟩ := exists_turn_of_worker working
  obtain ⟨other, hother, signals', fault', trace'⟩ := exists_turn_of_cancel working
  refine ⟨turn, other, hturn, hother, ?_, ?_, ?_⟩
  · rw [signals', signals, halike.events]
  · rw [fault', fault, halike.fault]
  · rw [trace', trace, halike.trace]

/-- A worker that exports a clip with an engine that prints nothing. -/
def filmWorker : Worker :=
  ⟨⟨[Compile.following], "film", .default⟩, playing [], .ofEngine (.text "ffmpeg") none⟩

/-- The clip is cancelled while its engine starts. -/
theorem unsuccessful_of_film :
    (finish (performAsked (fun | .started => true | _ => false) .listening filmWorker.studio
      filmWorker.request) (.start filmWorker.encoder Trace.empty)).Unsuccessful .listening
      Trace.empty :=
  (lost_or_heeded rfl _ _ filmWorker.studio filmWorker.request Trace.empty).2.1 (.inr rfl)

/-- The clip is the main track. -/
theorem tracks_following :
    Footage.tracks (.clips [Compile.following]) = .ok ([Compile.following], []) :=
  Compile.tracks_singleton rfl (Outcome.eq_ok_of_toOption (by decide +kernel))

/-- The worker compiles the clip like a timeline. -/
theorem run_filmWorker :
    Compile.run filmWorker.studio.outside (.clips filmWorker.request.clips)
      filmWorker.request.options =
        Compile.run Compile.everywhere (.timeline ⟨[Compile.following], []⟩) .default := by
  refine Eq.trans (Compile.run_of_tracks_eq_ok _ tracks_following _) ?_
  exact (Compile.run_of_tracks_eq_ok _ rfl _).symm

/-- The worker ends with a success, and does not stop the engine. -/
theorem finishes_film :
    let done := filmWorker.resumed ((Compile.run Compile.everywhere
      (.timeline ⟨[Compile.following], []⟩) .default).run.run Trace.empty)
    ((Signal.ofEvents done.run.events).any fun
      | .completed true _ => true
      | _ => false) = true ∧ done.run.trace.terminations? = some 0 := by
  decide +kernel

/-- The clip whose export was cancelled when it was accepted is exported all the same: a
success is signalled, and the engine is never stopped. -/
theorem success_of_cancelled_film : ∃ turn path,
    (Exporter.idle.start filmWorker).2.cancel.work? = some turn ∧
    .completed true path ∈ turn.signals ∧ turn.exporter.trace.terminations? = some 0 := by
  have hworking : (Exporter.idle.start filmWorker).2.worker? = some filmWorker := rfl
  have htrace : (Exporter.idle.start filmWorker).2.trace = Trace.empty := rfl
  obtain ⟨turn, hturn, signals, -, trace⟩ := exists_turn_of_cancel hworking
  have hfinishes := finishes_film
  rw [htrace, run_cancel_eq filmWorker rfl, run_filmWorker] at signals trace
  generalize filmWorker.resumed _ = done at signals trace hfinishes
  obtain ⟨hsignalled, hstopped⟩ := hfinishes
  obtain ⟨signal, hsignal, hcompleted⟩ := List.any_eq_true.mp hsignalled
  rw [← signals] at hsignal
  rw [← trace] at hstopped
  cases signal with
  | completed succeeded path =>
    cases succeeded with
    | true => exact ⟨turn, path, hturn, hsignal, hstopped⟩
    | false => cases hcompleted
  | status text => cases hcompleted
  | progress percent => cases hcompleted

end Montage.Export
