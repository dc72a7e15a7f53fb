import Montage.Edit.Draft

/-!
# Edits as documents

An edit is written as a record that says under `cmd` what is done and holds the
arguments beside it. Arguments that may be left out may also be null.
-/

namespace Montage

/-- Reads a position unless it is null; what is missing is as in the corner. -/
def Position.ofOptional (value : Value) : Outcome (Option Position) :=
  if value.isNull then .ok none else (Position.ofValue value .corner).map some

/-- Reads a size unless it is null; what is missing is as large as the frame. -/
def Size.ofOptional (value : Value) : Outcome (Option Size) :=
  if value.isNull then .ok none else (Size.ofValue value .full).map some

/-- Reads a list of overlays; null stands for none. -/
def Overlay.listOfValue (value : Value) : Outcome (List Overlay) :=
  if value.isNull then .ok [] else do (← value.elements).mapM Overlay.ofValue

namespace Draft

/-- How the edits that make clips are read, by their names. -/
def makers : List (Text × (Value → Outcome Draft)) := [
  ("insert", fun value => do
    let track ← value.require "track"
    let source ← Source.ofValue (← value.require "source")
    return .insert track source (← value.lookup "nativeDuration" .null)
      (← value.lookup "insertIndex" .null) (← value.lookup "clipId" .null)),
  ("split", fun value => do
    return .split (← value.require "clipId") (← value.require "at")),
  ("move", fun value => do
    return .move (← value.require "clipId") (← value.require "track")
      (← value.lookup "insertIndex" .null))]

/-- How the other edits are read after the clip they change, by their names. -/
def changers : List (Text × (Value → Value → Outcome Edit)) := [
  ("trim", fun clip value => do
    return .trim clip (← value.lookup "inTime" .null) (← value.lookup "outTime" .null)),
  ("reorder", fun clip value => do return .reorder clip (← value.require "index")),
  ("delete", fun clip _ => .ok (.delete clip)),
  ("mute", fun clip value => do return .mute clip (← value.require "muted").truthy),
  ("filter", fun clip value => do return .filterNamed clip (← value.require "filter")),
  ("overlays", fun clip value => do
    return .overlays clip (← Overlay.listOfValue (← value.require "overlays"))),
  ("geometry", fun clip value => do
    return .geometry clip (← Position.ofOptional (← value.lookup "position" .null))
      (← Size.ofOptional (← value.lookup "size" .null)))]

/-- Reads the arguments of a named edit. -/
def ofArguments (name : Text) (value : Value) : Outcome Draft := do
  match makers.find? fun entry => entry.1 = name with
  | some (_, read) => read value
  | none =>
    let (_, read) ← orFault (.missingField name) (changers.find? fun entry => entry.1 = name)
    return .complete (← read (← value.require "clipId") value)

/-- Reads an edit. -/
def ofValue (value : Value) : Outcome Draft := do
  ofArguments (← value.require "cmd").display value

end Draft

end Montage
