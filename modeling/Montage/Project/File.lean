import Montage.Json.Document
import Montage.Json.Writer
import Montage.Machine
import Montage.Noting
import Montage.Project.Document

/-!
# Project files

A project file is the document of a project with the time at which it was
saved. A file that cannot be written is a note and not a fault, and one that
cannot be read leaves everything as it was.
-/

namespace Montage.Project

/-- The layout of project files. -/
def fileStyle : Json.Style := ⟨some 2, false⟩

/-- The pieces of the file of a project. -/
def filePieces (timeline : Timeline) (library : List Value) (savedAt : Text) : List Text :=
  Json.documentPieces fileStyle
    (.record (Value.put (fieldsOf timeline library) "saved_at" (.text savedAt)))

/-- The document in the text of a project file. -/
def documentOfText (text : Text) : Outcome Value := do
  match ← Json.readOr (.invalid .fileFormat) text with
  | .record fields => return .record fields
  | _ => .error (.invalid .notARecord)

/-- The text that a path leads to. -/
def textAt (disk : Disk) (path : Value) : Outcome Text :=
  match path with
  | .text path =>
    match disk.find? path with
    | some (.file text) => .ok text
    | _ => .error .isDirectory
  | _ => .error (.systemFailure "not readable")

/-- Reads a project document and keeps its notes. -/
def ofDocument (document : Value) : Noting Project := do
  let (project, notes) := ofValue document
  modify fun earlier => earlier ++ notes
  Noting.ofOutcome project

/-- Reads a project file. -/
def load (disk : Disk) (path : Value) : Noting Project := do
  if (← Noting.ofOutcome (disk.holds path)) then
    ofDocument (← Noting.ofOutcome do documentOfText (← textAt disk path))
  else throw (.fileMissing ("Project file not found: " ++ path.display))

/-- What writing a project file comes to. -/
structure Saved where
  /-- The disk afterwards. -/
  disk : Disk
  /-- Whether the file was written. -/
  written : Outcome Bool
  /-- The notes about it. -/
  notes : List Note

/-- What is left of a project file that could not be written. -/
def unsaved (disk : Disk) : Saved := ⟨disk, .ok false, [⟨.error, "Failed to save project"⟩]⟩

/-- Writes a project file. -/
def save (machine : Machine) (path : Value) (timeline : Timeline) (library : List Value) :
    Saved :=
  match path with
  | .text path =>
    match machine.disk.write path (filePieces timeline library machine.clock) with
    | (disk, none) => ⟨disk, .ok true, [⟨.info, "Saved project to " ++ path⟩]⟩
    | (disk, some .depth) => ⟨disk, .error .tooManyDirectories, []⟩
    | (disk, some _) => unsaved disk
  | _ => unsaved machine.disk

end Montage.Project
