import Montage.Cli.Switch
import Montage.Graph.Resolution

/-!
# Invocations of the program

A command line names a task and a project, with switches before the task and
after it. Whatever has no place in it makes the whole line unusable.
-/

namespace Montage.Cli

/-- What the program is asked to do with a project. -/
inductive Task where
  /-- To print the filter text it compiles to. -/
  | graph
  /-- To render it. -/
  | export
deriving DecidableEq

/-- What the switches after the task ask for. -/
structure Choices where
  /-- The name of the output resolution. -/
  resolution : Option Text
  /-- The file to write. -/
  output : Option Text
  /-- Whether the overlay track is left out. -/
  hideOverlay : Bool
  /-- Whether the main track is silenced. -/
  muteMain : Bool
  /-- Whether the overlay track is silenced. -/
  muteOverlay : Bool

/-- A usable command line. -/
structure Invocation where
  /-- Whether more is logged. -/
  verbose : Bool
  /-- What is to be done. -/
  task : Task
  /-- The path of the project. -/
  project : Text
  /-- What the switches ask for. -/
  choices : Choices

/-- Why a command line is not carried out. -/
inductive Stop where
  /-- It asks how the program is used. -/
  | help
  /-- It is not usable. -/
  | refused
deriving DecidableEq

/-- No choices. -/
def Choices.none : Choices := ⟨Option.none, Option.none, false, false, false⟩

/-- The switches before the task. -/
def leadingSwitches : List Switch := [
  ⟨"-h", .help⟩, ⟨"--help", .help⟩, ⟨"--verbose", .verbose⟩, ⟨"-v", .verbose⟩]

/-- The names of the tasks. -/
def Task.ofName? (name : Text) : Option Task :=
  if name = "graph" then some .graph else if name = "export" then some .export else Option.none

/-- The switches after a task. -/
def Task.switches : Task → List Switch
  | .graph => [⟨"-h", .help⟩, ⟨"--help", .help⟩, ⟨"--resolution", .resolution⟩]
  | .export => [⟨"-h", .help⟩, ⟨"--help", .help⟩, ⟨"-o", .output⟩, ⟨"--output", .output⟩,
      ⟨"--resolution", .resolution⟩, ⟨"--hide-overlay", .hideOverlay⟩,
      ⟨"--mute-main", .muteMain⟩, ⟨"--mute-overlay", .muteOverlay⟩]

/-- The words after a task, as far as they are read. -/
structure Reading where
  /-- The project, once it is read. -/
  project : Option Text
  /-- The choices so far. -/
  choices : Choices
  /-- Whether the last word was the project. -/
  atProject : Bool
  /-- Whether something had no place. -/
  stray : Bool

namespace Reading

/-- Nothing is read. -/
def start : Reading := ⟨Option.none, Choices.none, false, false⟩

/-- The value that a switch is given. The word after which all words are plain
is no value and takes an earlier one back. -/
def given (value : Text) : Option Text := if value = Word.separator then Option.none else some value

/-- Reads a switch with a value. -/
def setValue (reading : Reading) (key : Key) (value : Option Text) : Except Stop Reading :=
  match key with
  | .resolution =>
    if value.all Resolution.names.contains then
      .ok { reading with choices := { reading.choices with resolution := value } }
    else .error .refused
  | _ => .ok { reading with choices := { reading.choices with output := value } }

/-- Reads a switch without a value. -/
def setFlag (reading : Reading) (key : Key) : Except Stop Reading :=
  match key with
  | .help => .error .help
  | .hideOverlay => .ok { reading with choices := { reading.choices with hideOverlay := true } }
  | .muteMain => .ok { reading with choices := { reading.choices with muteMain := true } }
  | .muteOverlay => .ok { reading with choices := { reading.choices with muteOverlay := true } }
  | _ => .error .refused

/-- Reads a switch with what is attached to it. -/
def set (reading : Reading) (use : SwitchUse) : Except Stop Reading :=
  let reading := { reading with atProject := false }
  match use.value with
  | some value => reading.setValue use.key (given value)
  | Option.none => reading.setFlag use.key

/-- Reads a word that is no switch and no value. -/
def operand (reading : Reading) (text : Text) : Reading :=
  if reading.project.isNone then { reading with project := some text, atProject := true }
  else { reading with stray := true, atProject := false }

/-- Reads a word that looks like a switch and is none. -/
def strayWord (reading : Reading) : Reading := { reading with stray := true, atProject := false }

/-- Reads the word after which all words are plain. It has its place before the
project or right after it. -/
def separator (reading : Reading) : Reading :=
  { reading with stray := reading.stray || (reading.project.isSome && !reading.atProject) }

/-- Whether the last of some switches is still without its value. -/
def awaitsValue (uses : List SwitchUse) : Bool :=
  match uses.getLast? with
  | some use => use.key.takesValue && use.value.isNone
  | Option.none => false

/-- Gives the last of some switches its value. -/
def withValue (uses : List SwitchUse) (value : Text) : List SwitchUse :=
  match uses.getLast? with
  | some use => uses.dropLast ++ [{ use with value := some value }]
  | Option.none => uses

/-- Reads the words after a task. A switch whose value is missing is refused
before anything on its word is read. -/
def words (task : Task) (reading : Reading) : List Text → Except Stop Reading
  | [] => .ok reading
  | text :: rest =>
    if text = Word.separator then .ok (rest.foldl operand reading.separator)
    else
      match Word.ofText task.switches text with
      | .plain => words task (reading.operand text) rest
      | .unknown => words task reading.strayWord rest
      | .ambiguous => .error .refused
      | .switch switch attached =>
        match expanded task.switches switch attached with
        | Option.none => .error .refused
        | some uses =>
          if awaitsValue uses then
            match rest with
            | [] => .error .refused
            | value :: rest =>
              if Word.isValue task.switches value then do
                words task (← (withValue uses value).foldlM set reading) rest
              else .error .refused
          else do words task (← uses.foldlM set reading) rest

/-- The project and the choices once all words are read. -/
def result (reading : Reading) : Except Stop (Text × Choices) :=
  match reading.project with
  | some project => if reading.stray then .error .refused else .ok (project, reading.choices)
  | Option.none => .error .refused

end Reading

namespace Invocation

/-- Whether a word before the one that makes all others plain could be one of
several switches. Such a line is refused before anything else is read. -/
def isAmbiguous (switches : List Switch) (words : List Text) : Bool :=
  (words.takeWhile (· ≠ Word.separator)).any fun text =>
    match Word.ofText switches text with
    | .ambiguous => true
    | _ => false

/-- Reads the words after a task. -/
def ofTask (verbose stray : Bool) (task : Task) (words : List Text) :
    Except Stop Invocation := do
  if isAmbiguous task.switches words then .error .refused
  let reading ← Reading.words task Reading.start words
  let (project, choices) ← reading.result
  if stray then .error .refused else return ⟨verbose, task, project, choices⟩

/-- Whether one of the switches before the task asks for help. -/
def asksHelp (uses : List SwitchUse) : Bool := uses.any fun use => use.key = .help

/-- Reads a command line; `verbose` and `stray` tell of the words before. -/
def ofWords (verbose stray : Bool) : List Text → Except Stop Invocation
  | [] => .error .refused
  | text :: words =>
    match Word.ofText leadingSwitches text with
    | .plain =>
      match Task.ofName? text with
      | some task => ofTask verbose stray task words
      | Option.none => .error .refused
    | .unknown => ofWords verbose true words
    | .ambiguous => .error .refused
    | .switch switch attached =>
      match expanded leadingSwitches switch attached with
      | some uses => if asksHelp uses then .error .help else ofWords true stray words
      | Option.none => .error .refused

/-- Reads a command line. -/
def parse (words : List Text) : Except Stop Invocation :=
  if isAmbiguous leadingSwitches words then .error .refused else ofWords false false words

end Invocation

end Montage.Cli
