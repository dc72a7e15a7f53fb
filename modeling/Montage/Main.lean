import Montage.Cli.Run

/-!
# The program

Reads what the command line needs from the machine and hands it over. The
filter text is printed; programs cannot be started from here, so the size of a
source cannot be probed and an export ends with that message.
-/

namespace Montage.Program

/-- A code point as it is printed; a surrogate is shown by its escape. -/
def shownPoint : CodePoint → List Char
  | .char c => [c]
  | .surrogate offset => Text.escapeCode (CodePoint.surrogate offset).value

/-- A text as it is printed. -/
def shown (t : Text) : String := String.ofList (t.points.flatMap shownPoint)

/-- The text of a file, if it can be read. -/
def readText? (path : Text) : IO (Option Text) :=
  try return some (← IO.FS.readFile (shown path)) catch _ => return none

/-- Whether a file can be opened. -/
def opens (path : Text) : IO Bool :=
  try
    let _ ← IO.FS.Handle.mk (shown path) .read
    return true
  catch _ => return false

/-- The files among these paths that can be opened, without their contents. -/
def openable (paths : List Text) : IO (List (Text × Text)) := do
  let found ← paths.filterM opens
  return found.map fun path => (path, "")

/-- The paths of the sources in a project file, as far as it can be read. -/
def sourcePaths (text : Text) : List Text :=
  match (Project.documentOfText text >>= Timeline.ofValue) with
  | .ok timeline => timeline.clips.filterMap fun clip => Session.pathOf clip.source.path
  | .error _ => []

/-- The project file of a command line with the files of its sources. -/
def projectFiles (words : List Text) : IO (List (Text × Text)) := do
  match Cli.Invocation.parse words with
  | .error _ => return []
  | .ok invocation =>
    match ← readText? invocation.project with
    | none => return []
    | some text => return (← openable (sourcePaths text)) ++ [(invocation.project, text)]

/-- The bytes of a string. -/
def bytesOf (s : String) : Bytes := s.toUTF8.toList

/-- The environment variables among these names that are set. -/
def readVariables (names : List Text) : IO (List (Bytes × Bytes)) := do
  let mut found := []
  for name in names do
    match ← IO.getEnv (shown name) with
    | some text => found := found ++ [(bytesOf (shown name), bytesOf text)]
    | none => pure ()
  return found

/-- The machine as far as a command line needs it. -/
def readMachine (words : List Text) : IO Machine := do
  let home := (← IO.getEnv "HOME").getD ""
  let settingsPath : Text := home ++ "/.config/TimelineEditor/settings.json"
  let settings := (← readText? settingsPath).map fun text => (settingsPath, text)
  return {
    disk := Disk.ofFiles ((← projectFiles words) ++ settings.toList)
    settingsPath
    environment := ← readVariables (Settings.builtIn.map fun entry => Settings.variableName entry.1)
    programs := []
    clock := ""
    bundledEngine := none }

/-- What is said of a program that cannot be started. -/
def noPrograms : Text := "programs cannot be started"

/-- The services of this program. -/
def services : Services :=
  Services.ofMachine ⟨.text "", .text noPrograms, .int 1⟩ (.refused noPrograms)

/-- Prints the notes of a run. -/
def printNotes (notes : List Note) : IO Unit := do
  for note in notes do IO.eprintln (shown (note.severity.label ++ " " ++ note.text))

/-- Prints the message of a fault that nobody expected. -/
def printFault (fault? : Option Fault) : IO Unit :=
  match fault? with
  | some fault => IO.eprintln (shown ("Unexpected fault " ++ fault.message))
  | none => pure ()

end Montage.Program

/-- Runs the command line. -/
def main (arguments : List String) : IO UInt32 := do
  let words := arguments.map Montage.Text.ofString
  let machine ← Montage.Program.readMachine words
  let completion := Montage.Cli.run machine Montage.Program.services
    ⟨1, Montage.Draws.ofList [], []⟩ (Montage.Export.Encoder.ofEngine (.text "ffmpeg") none) words
  Montage.Program.printNotes completion.trace.notes
  Montage.Program.printFault completion.fault?
  IO.print (Montage.Program.shown completion.output)
  return completion.code.toUInt32
