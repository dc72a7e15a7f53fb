import Montage.Note
import Montage.Timeline.Document

/-!
# Project documents

A project is a timeline with the entries of a media library. Its document
names the version of the format, and reading it gives the same timeline again.
-/

namespace Montage

/-- The version of the format that is written. -/
def projectVersion : Text := "1.0.0"

/-- A timeline with the library it belongs to. -/
structure Project where
  /-- The clips on both tracks. -/
  timeline : Timeline
  /-- The entries of the media library, kept as they are. -/
  library : List Value
  /-- The version its document named. -/
  version : Value

namespace Project

/-- The document of a timeline and a library. -/
def fieldsOf (timeline : Timeline) (library : List Value) : List (Text × Value) := [
  ("version", .text projectVersion),
  ("timelineClips", timeline.toValue),
  ("libraryClips", .list library)]

/-- The document of a timeline and a library. -/
def document (timeline : Timeline) (library : List Value) : Value :=
  .record (fieldsOf timeline library)

/-- A note about a document of another version. -/
def versionNotes (version : Value) : List Note :=
  if version.equal (.text projectVersion) then []
  else [⟨.warning, "Project version " ++ version.display ++ " differs from " ++ projectVersion⟩]

/-- A malformed clip makes the whole document invalid. -/
def asInvalid {α : Type} : Outcome α → Outcome α
  | .ok a => .ok a
  | .error fault =>
    match fault.malformation? with
    | some cause => .error (.invalid (.clipData cause))
    | none => .error fault

/-- The entries of a library; everything empty stands for an empty one. -/
def entriesOf (library : Value) : Outcome (List Value) :=
  if library.truthy then library.elements else .ok []

/-- The library of a document. -/
def libraryOf (document : Value) : Outcome (List Value) := do
  entriesOf (← document.lookup "libraryClips" .null)

/-- The version a document names, once it is known to hold a timeline. -/
def versionOf (document : Value) : Outcome Value := do
  if (← document.mentions "timelineClips") then document.lookup "version" (.text "0.0.0")
  else .error (.invalid .noTimeline)

/-- Reads a project document of a known version. -/
def ofVersion (document version : Value) : Outcome Project := do
  let timeline ← asInvalid (Timeline.ofValue document)
  return { timeline, library := ← libraryOf document, version }

/-- Reads a project document, with a note if its version is not the one that is
written. -/
def ofValue (document : Value) : Outcome Project × List Note :=
  match versionOf document with
  | .ok version => (ofVersion document version, versionNotes version)
  | .error fault => (.error fault, [])

end Project

end Montage
