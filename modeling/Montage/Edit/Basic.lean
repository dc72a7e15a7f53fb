import Montage.Timeline.Basic

/-!
# Edits

Every change of a timeline is one of ten edits. An edit holds everything it
needs, including the names of the clips it makes, so applying it twice to the
same timeline gives the same result.
-/

namespace Montage

/-- A change of a timeline. -/
inductive Edit where
  /-- Inserts an untrimmed clip that shows a whole source of the given duration.
  Without an index, or with one past the end, it comes last. -/
  | insert (track : Value) (source : Source) (duration index id : Value)
  /-- Moves the ends of a clip's window; null keeps an end. -/
  | trim (clip inTime outTime : Value)
  /-- Splits a clip in two at a time counted from its in time. -/
  | split (clip time first second : Value)
  /-- Moves a clip to another index of its track. -/
  | reorder (clip index : Value)
  /-- Removes a clip. -/
  | delete (clip : Value)
  /-- Moves a clip to the other track, where it has a new name. -/
  | move (clip track index newId : Value)
  /-- Silences a clip or lets it be heard. -/
  | mute (clip : Value) (muted : Bool)
  /-- Sets the filter of a clip; null clears it. -/
  | filter (clip filter : Value)
  /-- Replaces the overlays of a clip. -/
  | overlays (clip : Value) (overlays : List Overlay)
  /-- Places a picture-in-picture clip; what is not given is kept. -/
  | geometry (clip : Value) (position : Option Position) (size : Option Size)

namespace Edit

/-- An insertion whose duration is the source's own unless one is given. -/
def insertSource (track : Value) (source : Source) (duration index id : Value) : Edit :=
  .insert track source (if duration.isNull then source.duration else duration) index id

/-- A change of filter, in which the empty name and `none` clear it. -/
def filterNamed (clip name : Value) : Edit :=
  .filter clip (if name.isOneOf ["", "none"] then .null else name)

/-- A description of an edit for the labels of undo and redo. -/
def description : Edit → Outcome Text
  | .insert _ source _ _ _ => do return "Add clip: " ++ (← source.name)
  | .trim _ _ _ => .ok "Trim clip"
  | .split _ _ _ _ => .ok "Split clip"
  | .reorder _ _ => .ok "Move clip"
  | .delete _ => .ok "Delete clip"
  | .move _ _ _ _ => .ok "Move clip to track"
  | .mute _ muted => .ok (if muted then "Mute clip" else "Unmute clip")
  | .filter _ name =>
    .ok ("Apply filter: " ++ (if name.truthy then name.display else "none"))
  | .overlays _ images => .ok ("Set overlays (" ++ toString images.length ++ ")")
  | .geometry _ _ _ => .ok "Move overlay"

/-- The names of the clips that an edit makes. -/
def newIds : Edit → List Value
  | .insert _ _ _ _ id => [id]
  | .split _ _ first second => [first, second]
  | .move _ _ _ newId => [newId]
  | _ => []

end Edit

end Montage
