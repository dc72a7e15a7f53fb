import Montage.Cli.Invocation
import Montage.Session.Export
import Montage.Session.Operation

/-!
# Running the program

The program opens the project of its command line in a new session and prints
the filter text or exports the video. What goes wrong in an expected way is
logged and ends it with code one.
-/

namespace Montage.Cli

/-- What a run of the program comes to. -/
structure Completion where
  /-- The code it ends with, zero for success. -/
  code : Nat
  /-- What it prints. -/
  output : Text
  /-- The record of outside calls and notes. -/
  trace : Trace
  /-- The fault that ended it, if it was not an expected one. -/
  fault? : Option Fault

/-- The code of a command line that cannot be used. -/
def refusedCode : Nat := 2

/-- What is logged of a fault that ends the program in an expected way. -/
def reported? : Fault → Option Text
  | .rejected why => some why.message
  | .uncompilable why => some why.message
  | .exportFailed message => some message
  | .invalid why => some why.message
  | .fileMissing message => some message
  | .unreadable why => some why.message
  | _ => none

/-! ## Announcing progress -/

/-- How many percent are between two announcements. -/
def announcedStep : Number := 10

/-- Whether a percentage is announced after another one. -/
def isDue (last percent : Binary64) : Bool :=
  announcedStep.le (.real (percent.sub last)) || (100 : Number).le (.real percent)

/-- The percentage from which the first one is always announced. -/
def beforeStart : Binary64 := Binary64.ofInt (-10)

/-- The last percentage announced, after one more event. -/
def announce (last : Binary64) : Export.Event → Binary64
  | .progress percent => if isDue last percent then percent else last
  | _ => last

/-- The last percentage announced in a stream. -/
def lastAnnounced (events : List Export.Event) : Binary64 := events.foldl announce beforeStart

/-- What is logged of an event, after the ones before. -/
def announcement (before : List Export.Event) : Export.Event → List Note
  | .progress percent =>
    if isDue (lastAnnounced before) percent then
      [⟨.info, "Exporting... " ++ percent.fixed 0 ++ "%"⟩]
    else []
  | .success path => [⟨.info, "Exported to " ++ path.display⟩]
  | .failure _ => []

/-- Logs the events of an export. -/
def announcing : Export.Consumer := fun events =>
  let notes := match events.getLast? with
    | some event => announcement events.dropLast event
    | none => []
  ⟨notes, false, false⟩

/-! ## Tasks -/

open Editing

/-- The options that the choices ask for. -/
def optionsOf (choices : Choices) : Editing ExportOptions := do
  let usual ← match choices.resolution with
    | some resolution => pure (ExportOptions.ofResolution (.text resolution))
    | none => Session.defaultOptions
  return { usual with
    overlayTrackVisible := .bool !choices.hideOverlay
    mainMuted := .bool choices.muteMain
    overlayMuted := .bool choices.muteOverlay }

/-- Prints the filter text of the session. -/
def printGraph (choices : Choices) : Editing Text := do
  let options ← optionsOf choices
  let graph ← Session.compile (some options)
  return (← ofOutcome graph.filterText) ++ "\n"

/-- The path of the file to write as a value, null when none was chosen. -/
def outputValue (choices : Choices) : Value :=
  match choices.output with
  | some path => .text path
  | none => .null

/-- Exports the session; nothing is printed. -/
def exportVideo (choices : Choices) : Editing Text := do
  let options ← optionsOf choices
  let timeline := (← session).timeline
  let request ← ofOutcome (Export.Request.ofTimeline timeline (outputValue choices) options)
  let events ← Session.export? announcing (some request)
  let _ ← ofOutcome (Export.Event.conclusion events)
  return ""

/-- Carries out an invocation and gives what is printed. -/
def carryOut (invocation : Invocation) : Editing Text := do
  let _ ← Session.load (.text invocation.project)
  match invocation.task with
  | .graph => printGraph invocation.choices
  | .export => exportVideo invocation.choices

/-- What an invocation comes to on a workspace. -/
def complete (invocation : Invocation) (workspace : Workspace) : Completion :=
  let (outcome, workspace) := (carryOut invocation).run.run workspace
  let trace := workspace.trace
  match outcome with
  | .ok output => ⟨0, output, trace, none⟩
  | .error fault =>
    match reported? fault with
    | some message => ⟨1, "", trace.leave [⟨.error, message⟩], none⟩
    | none => ⟨1, "", trace, some fault⟩

/-- Runs the program. -/
def run (machine : Machine) (services : Services) (supply : Supply) (encoder : Export.Encoder)
    (words : List Text) : Completion :=
  match Invocation.parse words with
  | .error .help => ⟨0, "", Trace.empty, none⟩
  | .error .refused => ⟨refusedCode, "", Trace.empty, none⟩
  | .ok invocation =>
    match (Session.start machine Timeline.empty .null).result with
    | (.error fault, notes) => ⟨1, "", ⟨[], supply.notes ++ notes⟩, some fault⟩
    | (.ok session, notes) =>
      complete invocation {
        session, machine, services, encoder
        supply := { supply with notes := supply.notes ++ notes }
        calls := [] }

end Montage.Cli
