import Montage.Export.Encoder
import Montage.Export.Request

/-!
# Exports

An export compiles its request and renders the graph. A request that is turned
down, or that no graph can be built for, fails before the engine is started.
-/

namespace Montage.Export

open Exporting

/-- Compiles as a part of an export. -/
def compiling {α : Type} (work : Compiling α) : Exporting (Outcome α) := do
  let run ← get
  let (outcome, trace) := work.run.run run.trace
  set { run with trace }
  return outcome

/-- The message of a fault that turns a request down, if the export tells it by
an event. -/
def rejection? : Fault → Option Text
  | .rejected why => some why.message
  | .uncompilable why => some why.message
  | _ => none

/-- Compiles a request and renders it. -/
def perform (consumer : Consumer) (studio : Studio) (request : Request) : Exporting Unit := do
  match ← compiling (Compile.run studio.outside (.clips request.clips) request.options) with
  | .ok graph => execute consumer studio graph request.outputPath
  | .error fault =>
    match rejection? fault with
    | some message =>
      note .error ("Export rejected: " ++ message)
      emit consumer (.failure message)
    | none => throw (.faulted fault)

/-- What an export has come to. -/
structure Finish where
  /-- The fault that ended it, if it is no event. -/
  fault? : Option Fault
  /-- The export in the end. -/
  run : Run

/-- Runs a part of an export. -/
def finish (work : Exporting Unit) (run : Run) : Finish :=
  match work.run.run run with
  | (.error (.faulted fault), run) => ⟨some fault, run⟩
  | (_, run) => ⟨none, run⟩

/-- Runs an export from the beginning. -/
def run (consumer : Consumer) (studio : Studio) (request : Request) (encoder : Encoder)
    (trace : Trace) : Finish :=
  finish (perform consumer studio request) (Run.start encoder trace)

/-- What an export comes to in the end: the fault that ended it, or its events. -/
def Finish.outcome (finish : Finish) : Outcome (List Event) :=
  match finish.fault? with
  | some fault => .error fault
  | none => .ok finish.run.events

end Montage.Export
