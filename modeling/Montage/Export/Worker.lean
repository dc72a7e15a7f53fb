import Montage.Export.Run

/-!
# Exports in the background

A worker performs one request and signals how it goes. An exporter has one
worker at a time and passes its signals on; while a worker is running, another
export is refused.
-/

namespace Montage.Export

/-- What a worker signals. -/
inductive Signal where
  /-- What is being done. -/
  | status (text : Text)
  /-- So much is encoded. -/
  | progress (percent : Binary64)
  /-- The export is over: whether it succeeded, and the file or what went
  wrong. -/
  | completed (succeeded : Bool) (result : Value)

namespace Signal

/-- What a worker signals before the first event. -/
def opening : List Signal := [.status "Building export graph...", .progress 0]

/-- What a worker signals for an event. -/
def ofEvent : Event → List Signal
  | .progress percent => [.status "Encoding video...", .progress percent]
  | .success path => [.status "Export complete!", .completed true path]
  | .failure message => [.status "Export failed", .completed false (.text message)]

/-- What a worker signals for a stream of events. -/
def ofEvents (events : List Event) : List Signal := opening ++ events.flatMap ofEvent

end Signal

/-- One request with what performs it. -/
structure Worker where
  /-- The request. -/
  request : Request
  /-- The world in which it is performed. -/
  studio : Studio
  /-- What drives the engine. -/
  encoder : Encoder

namespace Worker

/-- Performs the request of a worker. -/
def run (worker : Worker) (trace : Trace) : Finish :=
  Export.run Consumer.listening worker.studio worker.request worker.encoder trace

/-- Asks a worker to stop. -/
def cancel (worker : Worker) (trace : Trace) : Worker × Trace :=
  let run := (Run.start worker.encoder trace).cancel
  ({ worker with encoder := run.encoder }, run.trace)

end Worker

/-- The exports of an application. -/
structure Exporter where
  /-- The last worker, if there was one. -/
  worker? : Option Worker
  /-- Whether that worker is running. -/
  running : Bool
  /-- How many workers there were. -/
  workers : Nat
  /-- The record of outside calls. -/
  trace : Trace

namespace Exporter

/-- An exporter that has not been used. -/
def idle : Exporter := ⟨none, false, 0, Trace.empty⟩

/-- Starts a worker, unless one is running; whether it did. -/
def start (exporter : Exporter) (worker : Worker) : Bool × Exporter :=
  if exporter.running then
    let busy : Note := ⟨.warning, "Export already in progress"⟩
    (false, { exporter with trace := exporter.trace.leave [busy] })
  else
    (true, { exporter with worker? := some worker, running := true, workers := exporter.workers + 1 })

/-- Asks the last worker to stop. -/
def cancel (exporter : Exporter) : Exporter :=
  match exporter.worker? with
  | none => exporter
  | some worker =>
    let (worker, trace) := worker.cancel exporter.trace
    { exporter with worker? := some worker, trace }

/-- What the work of a worker comes to. -/
structure Turn where
  /-- The signals, in order. -/
  signals : List Signal
  /-- The fault that ended the work, if there was one. -/
  fault? : Option Fault
  /-- The exporter afterwards, with no worker running. -/
  exporter : Exporter

/-- Lets the last worker do its work to the end; nothing if there was none. -/
def work? (exporter : Exporter) : Option Turn :=
  exporter.worker?.map fun worker =>
    let finish := worker.run exporter.trace
    { signals := Signal.ofEvents finish.run.events
      fault? := finish.fault?
      exporter := { exporter with
        worker? := some { worker with encoder := finish.run.encoder }
        running := false
        trace := finish.run.trace } }

end Exporter

end Montage.Export
