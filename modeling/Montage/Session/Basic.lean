import Montage.History
import Montage.Settings
import Montage.Timeline.Document

/-!
# Editing sessions

A session is the timeline being edited with its history, the library of the
project, its file and whether there is anything to save. Whatever changes the
timeline keeps the history on it.
-/

namespace Montage

/-- An open project. -/
structure Session where
  /-- The timeline as it is now. -/
  timeline : Timeline
  /-- The timelines that undo and redo lead to, with the descriptions of the
  edits that made them. -/
  history : History Timeline Value
  /-- The media library: a list of entries, or whatever stands in its place. -/
  library : Value
  /-- The file the project was last saved to or loaded from. -/
  file : Option Text
  /-- Whether there are changes that no file holds. -/
  unsaved : Bool

namespace Session

/-- The description of the first timeline of a session. -/
def initialLabel : Value := .text "Initial state"

/-- The number of states a history is to hold: the given one, or else the one
of the settings. -/
def historyLimit (machine : Machine) (limit : Value) : Noting Value := do
  if limit.truthy then return limit else return .int (← Settings.historyLimit machine)

/-- Opens a session on a timeline, which must be sound. -/
def start (machine : Machine) (timeline : Timeline) (limit : Value) : Noting Session := do
  Noting.ofOutcome timeline.checkInvariants
  let history ← Noting.ofOutcome (History.ofLimit (← historyLimit machine limit))
  return {
    timeline
    history := history.push timeline initialLabel
    library := .list []
    file := none
    unsaved := false }

/-- Makes a timeline the present one and records it. -/
def commit (session : Session) (timeline : Timeline) (label : Value) : Session :=
  { session with timeline, history := session.history.push timeline label, unsaved := true }

/-- Takes the last edit back; whether there was one. -/
def undo (session : Session) : Bool × Session :=
  let history := session.history.undo
  match session.history.canUndo, history.current? with
  | true, some timeline => (true, { session with timeline, history, unsaved := true })
  | _, _ => (false, session)

/-- Brings an edit back that was taken back; whether there was one. -/
def redo (session : Session) : Bool × Session :=
  let history := session.history.redo
  match session.history.canRedo, history.current? with
  | true, some timeline => (true, { session with timeline, history, unsaved := true })
  | _, _ => (false, session)

/-- The session on another timeline and library, with nothing to undo and
nothing to save. -/
def reset (session : Session) (timeline : Timeline) (library : List Value)
    (file : Option Text) : Session :=
  { timeline
    history := session.history.clear.push timeline initialLabel
    library := .list library
    file
    unsaved := false }

/-- The session after its project was saved to a file. -/
def savedTo (session : Session) (path : Text) : Session :=
  { session with file := some path, unsaved := false }

end Session

end Montage
