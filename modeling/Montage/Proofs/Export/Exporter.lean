import Montage.Proofs.Export.Cancelled
import Montage.Proofs.Export.Faults
import Montage.Proofs.Export.Told

/-!
# One export at a time

An exporter is used by starting workers, cancelling and letting workers do their work,
in any order. While a worker is busy, no other is started, and a refused start changes
nothing. The work of a worker signals percentages that never fall and, unless it ends in
a fault, that the export is over, once and as the last thing.
-/

namespace Montage.Export

open Exporting Progress

/-! ## What a worker signals -/

/-- Percentages never fall. -/
def NeverFall (percents : List Binary64) : Prop :=
  percents.Pairwise fun p q => (Number.real p).le (.real q) = true

/-- Percentages that rise do not fall. -/
theorem neverFall_of_rises {low : Binary64} {percents : List Binary64}
    (rises : Rises low percents) : NeverFall (low :: percents) :=
  List.Pairwise.imp Number.le_of_lt rises

/-- Zero may be told once more before percentages that begin with zero. -/
theorem Climbs.neverFall {percents : List Binary64} (climbs : Climbs percents) :
    NeverFall (0 :: percents) := by
  have hzero : (Number.real 0).le (.real 0) = true := by decide +kernel
  cases climbs with
  | none => exact List.pairwise_singleton _ _
  | begun percents rises =>
    have hsteady := neverFall_of_rises rises
    refine List.pairwise_cons.mpr ⟨fun q hq => ?_, hsteady⟩
    rcases List.mem_cons.mp hq with hq | hq
    · rw [hq]
      exact hzero
    · exact List.rel_of_pairwise_cons hsteady hq

namespace Signal

/-- The percentage that is signalled, if one is. -/
def percent? : Signal → Option Binary64
  | .progress percent => some percent
  | _ => none

/-- Whether it is signalled that the export is over. -/
def isCompletion : Signal → Bool
  | .completed _ _ => true
  | _ => false

/-- Percentages are signalled as they are told. -/
theorem percents_flatMap (percents : List Binary64) :
    ((percents.map Event.progress).flatMap ofEvent).filterMap percent? = percents := by
  induction percents with
  | nil => rfl
  | cons percent percents ih =>
    rw [List.map_cons, List.flatMap_cons, List.filterMap_append, ih]
    rfl

/-- The signals of percentages tell them after a zero. -/
theorem percents_ofEvents (percents : List Binary64) :
    (ofEvents (percents.map .progress)).filterMap percent? = 0 :: percents := by
  rw [ofEvents, List.filterMap_append, percents_flatMap]
  rfl

/-- Percentages do not signal that the export is over. -/
theorem not_isCompletion (percents : List Binary64) :
    ∀ signal ∈ ofEvents (percents.map .progress), signal.isCompletion = false := by
  intro signal hsignal
  rcases List.mem_append.mp hsignal with hopening | hsignal
  · simp only [opening, List.mem_cons, List.not_mem_nil, or_false] at hopening
    rcases hopening with rfl | rfl <;> rfl
  · obtain ⟨event, hevent, hsignal⟩ := List.mem_flatMap.mp hsignal
    obtain ⟨percent, _, rfl⟩ := List.mem_map.mp hevent
    simp only [ofEvent, List.mem_cons, List.not_mem_nil, or_false] at hsignal
    rcases hsignal with rfl | rfl <;> rfl

/-- An event that ends the stream is signalled last, with the file if it is a success. -/
theorem exists_completed {event : Event} (terminal : event.isTerminal = true) :
    ∃ text succeeded result, ofEvent event = [.status text, .completed succeeded result] ∧
      ∀ path, event = .success path ↔ succeeded = true ∧ result = path := by
  cases event with
  | progress percent => cases terminal
  | success path => exact ⟨_, true, path, rfl, by simp⟩
  | failure message => exact ⟨_, false, .text message, rfl, by simp⟩

/-- It is signalled once and last that the export of the events to a file is over: with
success and the file exactly if the events end in a success. -/
def Completes (file : Text) (events : List Event) (signals : List Signal) : Prop :=
  ∃ early succeeded result, signals = early ++ [.completed succeeded result] ∧
    (∀ signal ∈ early, signal.isCompletion = false) ∧
    (∀ path, events.getLast? = some (.success path) ↔ succeeded = true ∧ result = path) ∧
    (succeeded = true → result = .text file)

variable {file : Text} {events : List Event}

/-- The percentages that are signalled never fall. -/
theorem neverFall_of_told {outcome : Except Halt Unit} (told : Told file outcome events) :
    NeverFall ((ofEvents events).filterMap percent?) := by
  cases told with
  | broken fault percents climbs =>
    rw [percents_ofEvents]
    exact climbs.neverFall
  | ended percents last climbs terminal names =>
    obtain ⟨text, succeeded, result, hlast, _⟩ := exists_completed terminal
    have hpercents : (ofEvents (percents.map .progress ++ [last])).filterMap percent? =
        0 :: percents := by
      rw [ofEvents, List.flatMap_append, List.flatMap_singleton, hlast, ← List.append_assoc,
        List.filterMap_append, ← ofEvents, percents_ofEvents]
      exact List.append_nil _
    rw [hpercents]
    exact climbs.neverFall

/-- An export that has come to its end is signalled to be over. -/
theorem completes_of_told (told : Told file (.ok ()) events) :
    Completes file events (ofEvents events) := by
  cases told with
  | ended percents last climbs terminal names =>
    obtain ⟨text, succeeded, result, hlast, hsuccess⟩ := exists_completed terminal
    refine ⟨ofEvents (percents.map .progress) ++ [.status text], succeeded, result, ?_, ?_, ?_, ?_⟩
    · rw [ofEvents, ofEvents, List.flatMap_append, List.flatMap_singleton, hlast]
      simp
    · intro signal hsignal
      rcases List.mem_append.mp hsignal with hsignal | hsignal
      · exact not_isCompletion percents signal hsignal
      · rw [List.mem_singleton.mp hsignal]
        rfl
    · intro path
      rw [List.getLast?_concat, Option.some.injEq]
      exact hsuccess path
    · intro hsucceeded
      exact names result ((hsuccess result).mpr ⟨hsucceeded, rfl⟩)

/-- An export that ended in a fault is not signalled to be over. -/
theorem not_isCompletion_of_told {halt : Halt} (told : Told file (.error halt) events) :
    ∀ signal ∈ ofEvents events, signal.isCompletion = false := by
  cases told with
  | broken fault percents climbs => exact not_isCompletion percents

end Signal

/-! ## Working while somebody listens -/

/-- Performs the request of a worker for somebody who may cancel at its events. -/
def Worker.runAmid (consumer : Consumer) (worker : Worker) (trace : Trace) : Finish :=
  Export.run consumer worker.studio worker.request worker.encoder trace

/-- Lets the last worker do its work for somebody who may cancel at its events. -/
def Exporter.workAmid? (consumer : Consumer) (exporter : Exporter) : Option Exporter.Turn :=
  exporter.worker?.map fun worker =>
    let done := worker.runAmid consumer exporter.trace
    { signals := Signal.ofEvents done.run.events
      fault? := done.fault?
      exporter := { exporter with
        worker? := some { worker with encoder := done.run.encoder }
        running := false
        trace := done.run.trace } }

/-- Work is done as always for somebody who only listens. -/
theorem Exporter.workAmid?_listening (exporter : Exporter) :
    exporter.workAmid? .listening = exporter.work? := rfl

/-- A worker that can be started. -/
structure Worker.Ready (worker : Worker) : Prop where
  /-- Its location of the engine and its settings are of the right kinds. -/
  typed : worker.encoder.Typed
  /-- It holds no engine. -/
  free : worker.encoder.holdsProcess = false
  /-- The search for the engine finds it or tells that there is none. -/
  searches : worker.studio.Searches

/-- A worker whose request is compiled or turned down, and whose engine prints what is
understood. -/
structure Worker.Fair (worker : Worker) (before : Trace) : Prop where
  /-- The request is compiled or turned down. -/
  compiles : ∀ fault, ((Compile.run worker.studio.outside (.clips worker.request.clips)
    worker.request.options).run.run before).1 = .error fault → fault.IsVerdict
  /-- The files of the request are named by texts. -/
  reads : ∀ clip ∈ worker.request.clips, clip.Reads fun path => ∃ file, path = .text file
  /-- The engine is refused, or prints texts with near positions and ends with a whole
  number. -/
  launches : worker.studio.launch.Typed

/-- Signals of a worker whose export came to `done` after `before`. -/
structure Exporter.Turn.Orderly (worker : Worker) (before : Trace) (done : Finish)
    (turn : Exporter.Turn) : Prop where
  /-- They are made of the events of the export. -/
  signals : turn.signals = Signal.ofEvents done.run.events
  /-- The work ends in the fault of the export. -/
  fault : turn.fault? = done.fault?
  /-- The percentages never fall. -/
  steady : NeverFall (turn.signals.filterMap Signal.percent?)
  /-- Without a fault, it is signalled once and last that the export is over. -/
  completed : turn.fault? = none → ∃ file, outputPath (.text worker.request.outputPath) = .ok file ∧
    Signal.Completes file done.run.events turn.signals
  /-- For a fault, something is to blame, and it is not signalled that the export is
  over. -/
  broken : ∀ fault, turn.fault? = some fault → Blamed worker.studio worker.request fault ∧
    ∀ signal ∈ turn.signals, signal.isCompletion = false
  /-- There is no fault if the worker is fair. -/
  fair : worker.Fair before → turn.fault? = none

variable {consumer : Consumer} {worker : Worker}

/-- The export of a worker that is ready concludes. -/
theorem Worker.Ready.concludes (ready : worker.Ready)
    (listens : ∀ events, (consumer events).closes = false) (before : Trace) :
    (worker.runAmid consumer before).Concludes worker.studio worker.request before := by
  obtain ⟨outcome, asked, hcompiled, hrun⟩ := exists_run_eq_resume consumer worker.studio
    worker.request worker.encoder before
  rw [Worker.runAmid, hrun]
  exact concludes_of_resume listens ready.typed ready.free ready.searches hcompiled
    worker.request.outputPath

/-- A fair worker ends in no fault. -/
theorem Worker.Fair.fault?_eq_none {before : Trace} (fair : worker.Fair before)
    (ready : worker.Ready) (listens : ∀ events, (consumer events).closes = false) :
    (worker.runAmid consumer before).fault? = none := by
  obtain ⟨outcome, asked, hcompiled, hrun⟩ := exists_run_eq_resume consumer worker.studio
    worker.request worker.encoder before
  cases outcome with
  | error fault =>
    have hfault := congrArg Prod.fst hcompiled
    obtain ⟨message, hmessage⟩ := exists_rejection (fair.compiles fault hfault)
    exact ((ready.concludes listens before).rejected fault message hfault hmessage).1
  | ok graph =>
    have hfiles := Compile.reads_of_run hcompiled fair.reads
    rw [Worker.runAmid, hrun, resume]
    rcases Encoder.start_cases ready.typed ready.searches fair.launches with
      unstarted | ⟨location, engine, found, running, prints⟩
    · obtain ⟨ended, _, hended, _⟩ := exists_failure_of_unstarted hcompiled hfiles ready.typed
        ready.searches unstarted listens worker.request.outputPath asked
      rw [hended]
    · obtain ⟨_, _, _, _, _, ended, _, _, hended, _⟩ := exists_protocol hcompiled hfiles
        ready.typed found running prints listens worker.request.outputPath asked
      rw [hended]

/-- The signals of a worker that is ready are orderly. -/
theorem Exporter.orderly_of_work {exporter : Exporter} (working : exporter.worker? = some worker)
    (ready : worker.Ready) (listens : ∀ events, (consumer events).closes = false)
    {turn : Exporter.Turn} (works : exporter.workAmid? consumer = some turn) :
    turn.Orderly worker exporter.trace (worker.runAmid consumer exporter.trace) := by
  have hconcludes := ready.concludes listens exporter.trace
  obtain ⟨file, hfile⟩ := exists_outputPath worker.request.outputPath
  obtain ⟨outcome, told, hfault⟩ : ∃ outcome,
      Told file outcome (worker.runAmid consumer exporter.trace).run.events ∧
      ∀ fault, (worker.runAmid consumer exporter.trace).fault? = some fault ↔
        outcome = .error (.faulted fault) :=
    exists_told_of_run listens worker.studio worker.request hfile worker.encoder exporter.trace
  have hturn : turn.signals = Signal.ofEvents (worker.runAmid consumer exporter.trace).run.events ∧
      turn.fault? = (worker.runAmid consumer exporter.trace).fault? := by
    rw [workAmid?, working] at works
    cases works
    exact ⟨rfl, rfl⟩
  obtain ⟨hsignals, hended⟩ := hturn
  refine ⟨hsignals, hended, ?_, fun quiet => ⟨file, hfile, ?_⟩, fun fault broke => ⟨?_, ?_⟩,
    fun fair => hended.trans (fair.fault?_eq_none ready listens)⟩
  · rw [hsignals]
    exact Signal.neverFall_of_told told
  · rw [hsignals]
    cases outcome with
    | ok => exact Signal.completes_of_told told
    | error halt =>
      obtain ⟨fault, rfl⟩ := told.exists_fault
      rw [hended, (hfault fault).mpr rfl] at quiet
      cases quiet
  · exact hconcludes.fault fault (hended ▸ broke)
  · rw [hsignals]
    rw [hended, hfault] at broke
    subst broke
    exact Signal.not_isCompletion_of_told told

/-- A worker is still ready when its encoder was used or cancelled. -/
theorem Worker.Ready.of_cancelled (ready : worker.Ready) (cancelled : Bool) :
    Worker.Ready { worker with encoder := { worker.encoder with cancelled } } :=
  ⟨⟨ready.typed.location, ready.typed.settings⟩, ready.free, ready.searches⟩

namespace Exporter

variable {exporter : Exporter}

/-- An exporter that has refused to start a worker: nothing but a note is left. -/
def refuse (exporter : Exporter) : Exporter :=
  { exporter with trace := exporter.trace.leave [⟨.warning, "Export already in progress"⟩] }

/-- An exporter that has started a worker. -/
def employ (exporter : Exporter) (worker : Worker) : Exporter :=
  { exporter with worker? := some worker, running := true, workers := exporter.workers + 1 }

/-- While the last worker is running, no other is started. -/
theorem start_of_running (running : exporter.running = true) (worker : Worker) :
    exporter.start worker = (false, exporter.refuse) := by
  rw [start, if_pos running]
  rfl

/-- When no worker is running, one is started. -/
theorem start_of_free (free : exporter.running = false) (worker : Worker) :
    exporter.start worker = (true, exporter.employ worker) := by
  rw [start, free]
  rfl

/-- Cancelling changes nothing but whether the last worker was cancelled. -/
theorem exists_cancel (exporter : Exporter) : ∃ trace, exporter.cancel =
    { exporter with
      worker? := exporter.worker?.map fun worker =>
        { worker with encoder := { worker.encoder with cancelled := true } }
      trace } := by
  unfold cancel
  cases hworker : exporter.worker? with
  | none =>
    refine ⟨exporter.trace, ?_⟩
    cases exporter
    cases hworker
    rfl
  | some worker => exact ⟨(worker.cancel exporter.trace).2, rfl⟩

/-- A worker that is ready is not running after its work, and its encoder is as it was but
for whether it was cancelled. -/
theorem exists_exporter_of_work (ready : worker.Ready) (working : exporter.worker? = some worker)
    {turn : Turn} (works : exporter.workAmid? consumer = some turn) :
    ∃ cancelled trace, turn.exporter =
      { exporter with
        worker? := some { worker with encoder := { worker.encoder with cancelled } }
        running := false
        trace } := by
  obtain ⟨cancelled, hencoder⟩ := exists_encoder_of_run ready.free consumer worker.studio
    worker.request exporter.trace
  rw [workAmid?, working] at works
  cases works
  exact ⟨cancelled, _, by rw [← hencoder]; rfl⟩

end Exporter

/-! ## Using an exporter -/

/-- Something that is done with an exporter. -/
inductive Move where
  /-- A worker is to be started. -/
  | start (worker : Worker)
  /-- The export is cancelled. -/
  | cancel
  /-- The last worker does its work for somebody who may cancel at its events. -/
  | work (consumer : Consumer)

/-- Workers that are started are ready, and somebody listens to their work to the end. -/
def Move.Allowed : Move → Prop
  | .start worker => worker.Ready
  | .cancel => True
  | .work consumer => ∀ events, (consumer events).closes = false

/-- An exporter in use. -/
structure Desk where
  /-- The exporter. -/
  exporter : Exporter
  /-- The numbers of the workers that were started and have not done their work yet. -/
  busy : List Nat
  /-- What was signalled so far. -/
  signals : List Signal

namespace Desk

/-- An exporter that has not been used. -/
def idle : Desk := ⟨.idle, [], []⟩

/-- Does something with an exporter. -/
def move (desk : Desk) : Move → Desk
  | .start worker =>
    let (started, exporter) := desk.exporter.start worker
    { desk with exporter, busy := if started then exporter.workers :: desk.busy else desk.busy }
  | .cancel => { desk with exporter := desk.exporter.cancel }
  | .work consumer =>
    match desk.exporter.workAmid? consumer with
    | none => desk
    | some turn =>
      ⟨turn.exporter, desk.busy.erase desk.exporter.workers, desk.signals ++ turn.signals⟩

/-- An exporter with which something was done. -/
def after (moves : List Move) : Desk := moves.foldl move idle

/-- An exporter knows whether its last worker is busy, and no other worker is. -/
structure Tidy (desk : Desk) : Prop where
  /-- The last worker is busy while the exporter is running, and no other one is. -/
  busy : desk.busy = if desk.exporter.running then [desk.exporter.workers] else []
  /-- While the exporter is running, there is a last worker. -/
  employs : desk.exporter.running = true → ∃ worker, desk.exporter.worker? = some worker
  /-- The last worker can be started again. -/
  ready : ∀ worker, desk.exporter.worker? = some worker → worker.Ready

variable {desk : Desk} {moves : List Move}

/-- An exporter that has not been used is tidy. -/
theorem tidy_idle : idle.Tidy := ⟨rfl, nofun, nofun⟩

/-- An exporter is running exactly if a worker is busy. -/
theorem Tidy.running_iff (tidy : desk.Tidy) : desk.exporter.running = true ↔ desk.busy ≠ [] := by
  rw [tidy.busy]
  cases desk.exporter.running <;> simp

/-- Doing something allowed leaves an exporter tidy. -/
theorem Tidy.move (tidy : desk.Tidy) {move : Move} (allowed : move.Allowed) :
    (desk.move move).Tidy := by
  have hbusy := tidy.busy
  cases move with
  | start worker =>
    rw [Desk.move]
    cases hrunning : desk.exporter.running with
    | true =>
      rw [Exporter.start_of_running hrunning]
      exact ⟨hbusy, tidy.employs, tidy.ready⟩
    | false =>
      rw [hrunning] at hbusy
      rw [Exporter.start_of_free hrunning, hbusy]
      exact ⟨rfl, fun _ => ⟨worker, rfl⟩, fun other hother => by cases hother; exact allowed⟩
  | cancel =>
    obtain ⟨trace, hcancel⟩ := desk.exporter.exists_cancel
    rw [Desk.move, hcancel]
    refine ⟨hbusy, fun hrunning => ?_, fun worker hworker => ?_⟩
    · obtain ⟨worker, hworker⟩ := tidy.employs hrunning
      exact ⟨_, by rw [hworker]; rfl⟩
    · obtain ⟨former, hformer, rfl⟩ := Option.map_eq_some_iff.mp hworker
      exact (tidy.ready former hformer).of_cancelled true
  | work consumer =>
    rw [Desk.move]
    cases hworker : desk.exporter.worker? with
    | none =>
      rw [Exporter.workAmid?, hworker]
      exact tidy
    | some worker =>
      have hready := tidy.ready worker hworker
      cases hworks : desk.exporter.workAmid? consumer with
      | none => exact tidy
      | some turn =>
        obtain ⟨cancelled, trace, hturn⟩ := Exporter.exists_exporter_of_work hready hworker hworks
        dsimp only
        rw [hturn, hbusy]
        refine ⟨?_, nofun, fun other hother => by cases hother; exact hready.of_cancelled cancelled⟩
        cases desk.exporter.running <;> simp

/-- An exporter is tidy after everything that is allowed. -/
theorem Tidy.foldl (tidy : desk.Tidy) (allowed : ∀ move ∈ moves, move.Allowed) :
    (moves.foldl Desk.move desk).Tidy := by
  induction moves generalizing desk with
  | nil => exact tidy
  | cons move moves ih =>
    obtain ⟨hmove, hmoves⟩ := List.forall_mem_cons.mp allowed
    exact ih (tidy.move hmove) hmoves

/-- What an exporter in use can be relied on for. -/
structure Serves (desk : Desk) : Prop where
  /-- At most one worker is busy. -/
  alone : desk.busy.length ≤ 1
  /-- A worker is started exactly if none is busy. -/
  starts : ∀ worker, (desk.exporter.start worker).1 = true ↔ desk.busy = []
  /-- Otherwise nothing but a note is left: there is no new worker and no signal. -/
  refuses : ∀ worker, desk.busy ≠ [] →
    desk.move (.start worker) = { desk with exporter := desk.exporter.refuse }
  /-- A busy worker can do its work. -/
  works : ∀ consumer, desk.busy ≠ [] → ∃ turn, desk.exporter.workAmid? consumer = some turn
  /-- The signals of a worker are orderly, and it is not busy afterwards. -/
  orderly : ∀ consumer : Consumer, (∀ events, (consumer events).closes = false) →
    ∀ turn, desk.exporter.workAmid? consumer = some turn →
      ∃ worker, desk.exporter.worker? = some worker ∧
        turn.Orderly worker desk.exporter.trace
          (worker.runAmid consumer desk.exporter.trace) ∧
        desk.move (.work consumer) = ⟨turn.exporter, [], desk.signals ++ turn.signals⟩

/-- An exporter can be relied on whatever was done with it: at most one worker is busy at
a time, a start is refused exactly while one is, and every worker signals percentages that
never fall and, unless something is to blame for a fault, once and last that its export is
over. -/
theorem serves_of_moves (allowed : ∀ move ∈ moves, move.Allowed) : (after moves).Serves := by
  have tidy : (after moves).Tidy := tidy_idle.foldl allowed
  generalize after moves = desk at tidy
  have hbusy := tidy.busy
  refine ⟨?_, fun worker => ?_, fun worker busy => ?_, fun consumer busy => ?_,
    fun consumer listens turn works => ?_⟩
  · rw [hbusy]
    split <;> simp
  · rw [hbusy]
    cases hrunning : desk.exporter.running with
    | true => simp [Exporter.start_of_running hrunning]
    | false => simp [Exporter.start_of_free hrunning]
  · rw [Desk.move, Exporter.start_of_running (tidy.running_iff.mpr busy)]
    rfl
  · obtain ⟨worker, hworker⟩ := tidy.employs (tidy.running_iff.mpr busy)
    exact ⟨_, by rw [Exporter.workAmid?, hworker]; rfl⟩
  · obtain ⟨worker, hworker, _⟩ := Option.map_eq_some_iff.mp works
    refine ⟨worker, hworker,
      Exporter.orderly_of_work hworker (tidy.ready worker hworker) listens works, ?_⟩
    rw [Desk.move, works, hbusy]
    cases desk.exporter.running <;> simp

/-- A worker that exports a clip with an engine that prints some lines. -/
def filming (lines : List Text) : Worker :=
  ⟨filmWorker.request, playing lines, filmWorker.encoder⟩

/-- Nothing stands in the way of the clip. -/
theorem ready_filming (lines : List Text) : (filming lines).Ready where
  typed := ⟨fun _ => ⟨"ffmpeg", rfl⟩, nofun⟩
  free := rfl
  searches := .inl ⟨"ffmpeg", rfl⟩

/-- The clip is compiled. -/
theorem exists_filming_compiled (lines : List Text) : ∃ graph asked,
    (Compile.run (filming lines).studio.outside (.clips (filming lines).request.clips)
      (filming lines).request.options).run.run Trace.empty = (.ok graph, asked) := by
  have hrun : Compile.run (filming lines).studio.outside (.clips (filming lines).request.clips)
      (filming lines).request.options =
        Compile.run Compile.everywhere (.timeline ⟨[Compile.following], []⟩) .default :=
    run_filmWorker
  rw [hrun]
  exact Work.exists_of_isOk (by decide +kernel)

/-- The file of the clip is named by a text. -/
theorem reads_filming (lines : List Text) : ∀ clip ∈ (filming lines).request.clips,
    clip.Reads fun path => ∃ file, path = .text file := by
  intro clip hclip
  rw [List.mem_singleton.mp hclip]
  exact ⟨⟨"b.mp4", rfl⟩, nofun⟩

/-- The clip is accepted and cancelled, and its worker is to begin. -/
theorem serves_filming :
    (after [.start (filming []), .cancel]).Serves ∧
      (after [.start (filming []), .cancel]).busy = [1] ∧
      (filming []).Fair (after [.start (filming []), .cancel]).exporter.trace := by
  have hallowed : ∀ move ∈ [Move.start (filming []), .cancel], move.Allowed :=
    List.forall_mem_cons.mpr ⟨ready_filming [], List.forall_mem_singleton.mpr trivial⟩
  have htrace : (after [.start (filming []), .cancel]).exporter.trace = Trace.empty := rfl
  obtain ⟨graph, asked, hcompiled⟩ := exists_filming_compiled []
  refine ⟨serves_of_moves hallowed, rfl, fun fault hfault => ?_, reads_filming [],
    ⟨nofun, nofun, 0, rfl⟩⟩
  rw [htrace, hcompiled] at hfault
  cases hfault

/-- A position far below zero is below every bound and the clip is compiled, yet nobody is
told that the export is over. -/
theorem not_completed_of_longBefore : ∃ graph asked turn,
    (Compile.run (filming [longBefore]).studio.outside
      (.clips (filming [longBefore]).request.clips)
      (filming [longBefore]).request.options).run.run Trace.empty = (.ok graph, asked) ∧
    (∀ units ∈ readings [longBefore], units < 10 ^ 300) ∧
    (after [.start (filming [longBefore])]).exporter.work? = some turn ∧
    turn.fault? = some .tooLarge ∧ ∀ signal ∈ turn.signals, signal.isCompletion = false := by
  have hreading : reading? longBefore = some (-10 ^ 400) := by decide +kernel
  have hlistens : ∀ events, (Consumer.listening events).closes = false := fun _ => rfl
  have hfound : ((filming [longBefore]).encoder.engine
      (filming [longBefore]).studio).result.1 = .ok (.text "ffmpeg") := rfl
  have hworking : (after [.start (filming [longBefore])]).exporter.worker? =
      some (filming [longBefore]) := rfl
  have htrace : (after [.start (filming [longBefore])]).exporter.trace = Trace.empty := rfl
  obtain ⟨graph, asked, hcompiled⟩ := exists_filming_compiled [longBefore]
  obtain ⟨ended, hended, hevents⟩ := exists_fault_of_distant hcompiled
    (Compile.reads_of_run hcompiled (reads_filming [longBefore]))
    (ready_filming [longBefore]).typed hfound rfl rfl hreading (by decide +kernel) hlistens rfl
    (filming [longBefore]).request.outputPath asked
  have hrun : (filming [longBefore]).run Trace.empty = ⟨some .tooLarge, ended⟩ := by
    rw [Worker.run, Export.run, finish_perform _ _ _ _ _ hcompiled, resume, hended]
  obtain ⟨turn, hturn, hsignals, hfault, _⟩ := exists_turn_of_worker hworking
  rw [htrace, hrun] at hsignals hfault
  refine ⟨graph, asked, turn, hcompiled, by decide +kernel, hturn, hfault, ?_⟩
  rw [hsignals, hevents]
  exact Signal.not_isCompletion [0]

end Desk

end Montage.Export
