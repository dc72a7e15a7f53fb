import Montage.Session.Workspace

/-!
# Compiling and exporting a session

Both take the timeline as it is and leave the session alone. Without options,
the resolution comes from the settings.
-/

namespace Montage.Session

open Editing

/-- The options unless told otherwise. -/
def defaultOptions : Editing ExportOptions := do
  return ExportOptions.ofResolution (← noting (Settings.lookup (← get).machine "resolution"))

/-- The given options or the default ones. -/
def optionsOr (options : Option ExportOptions) : Editing ExportOptions :=
  match options with
  | some options => return options
  | none => defaultOptions

/-- Compiles the timeline of the session. -/
def compile (options : Option ExportOptions) : Editing RenderGraph := do
  let options ← optionsOr options
  let workspace ← get
  let outside := (workspace.services.studio workspace.machine).outside
  let work := Compile.run outside (.timeline workspace.session.timeline) options
  let (graph, trace) := work.run.run workspace.trace
  set (workspace.withTrace trace)
  ofOutcome graph

/-- The given request, or one for the timeline of the session. -/
def requestOr (request : Option Export.Request) : Editing Export.Request := do
  match request with
  | some request => return request
  | none => do
    let options ← defaultOptions
    ofOutcome (Export.Request.ofTimeline (← session).timeline .null options)

/-- Exports a request, or else the timeline of the session. -/
def export? (consumer : Export.Consumer) (request : Option Export.Request) :
    Editing (List Export.Event) := do
  let request ← requestOr request
  let workspace ← get
  let studio := workspace.services.studio workspace.machine
  let finish := Export.run consumer studio request workspace.encoder workspace.trace
  set { workspace.withTrace finish.run.trace with encoder := finish.run.encoder }
  ofOutcome finish.outcome

end Montage.Session
