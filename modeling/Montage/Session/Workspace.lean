import Montage.Export.Run
import Montage.Media.Probe
import Montage.Media.Sources
import Montage.Session.Basic
import Montage.Supply

/-!
# Sessions at work

A workspace is a session with everything its operations draw on: the machine,
names and random numbers, the services that media need and the encoder. An
operation changes it and may end in a fault.
-/

namespace Montage

/-- How sources are found and probed and what becomes of the engine. -/
structure Services where
  /-- Whether a source can be found. -/
  sourceExists : Machine → Source → Outcome Bool
  /-- The width and height of a source, with the notes of the probe. -/
  probe : Machine → Source → Outcome Value × List Note
  /-- What comes of starting the engine. -/
  launch : Export.Launch

/-- The services on a machine, for compiling and exporting. -/
def Services.studio (services : Services) (machine : Machine) : Export.Studio where
  outside := ⟨services.sourceExists machine, services.probe machine⟩
  engine := Media.engine machine
  launch := services.launch

/-- The services of a machine with its own files and programs. -/
def Services.ofMachine (reply : Media.ProbeReply) (launch : Export.Launch) : Services where
  sourceExists := Media.sourceExists
  probe := fun machine source => (Media.dimensions machine reply source).result
  launch := launch

/-- A session with all that it draws on. -/
structure Workspace where
  /-- The session. -/
  session : Session
  /-- The machine it runs on. -/
  machine : Machine
  /-- Where its services come from. -/
  services : Services
  /-- Names, random numbers and notes. -/
  supply : Supply
  /-- What drives the engine. -/
  encoder : Export.Encoder
  /-- The outside calls so far, in order. -/
  calls : List OutsideCall

/-- An operation on a workspace. What it has changed stays changed when it ends
in a fault. -/
abbrev Editing (α : Type) := ExceptT Fault (StateM Workspace) α

namespace Editing

/-- An outcome as an operation that changes nothing. -/
def ofOutcome {α : Type} (outcome : Outcome α) : Editing α := ExceptT.mk (pure outcome)

/-- Draws on the supply of the workspace. -/
def drawing {α : Type} (work : Drawing α) : Editing α := do
  let workspace ← get
  let (outcome, supply) := work.run.run workspace.supply
  set { workspace with supply }
  ofOutcome outcome

/-- Leaves notes. -/
def leave (notes : List Note) : Editing Unit :=
  modify fun workspace =>
    { workspace with supply := { workspace.supply with notes := workspace.supply.notes ++ notes } }

/-- Does work that leaves notes. -/
def noting {α : Type} (work : Noting α) : Editing α := do
  let (outcome, notes) := work.result
  leave notes
  ofOutcome outcome

/-- Replaces the session. -/
def setSession (session : Session) : Editing Unit :=
  modify fun workspace => { workspace with session }

/-- The session as it is now. -/
def session : Editing Session := do return (← get).session

end Editing

namespace Workspace

/-- The record of outside calls and notes, to be continued by an export. -/
def trace (workspace : Workspace) : Trace := ⟨workspace.calls, workspace.supply.notes⟩

/-- The workspace with a record that was continued. -/
def withTrace (workspace : Workspace) (trace : Trace) : Workspace :=
  { workspace with
    calls := trace.calls
    supply := { workspace.supply with notes := trace.notes } }

end Workspace

end Montage
