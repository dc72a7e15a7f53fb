import Montage.Json.Document
import Montage.Json.Writer
import Montage.Machine
import Montage.Noting
import Montage.Text.UpperCase
import Montage.Value.Display
import Montage.Value.Operations

/-!
# Settings

A setting comes from an environment variable, from the settings file or from
the built-in defaults, in this order. A settings file that cannot be read counts
as empty, with a note.
-/

namespace Montage.Settings

/-- What the names of the environment variables begin with. -/
def variableStem : Text := "TIMELINE_EDITOR_"

/-- The number of states of a history unless a setting says otherwise. -/
def builtInHistoryLimit : Nat := 50

/-- The settings unless told otherwise. -/
def builtIn : List (Text × Value) := [
  ("history_limit", .int builtInHistoryLimit),
  ("resolution", .text "1080p"),
  ("ffmpeg", .null),
  ("ffprobe", .null)]

/-- The layout of the settings file. -/
def fileStyle : Json.Style := ⟨some 4, true⟩

/-- Settings that could not be read: none, with a note. -/
def unreadableFile : Noting Value := do
  Noting.note .error "Failed to load settings"
  return .record []

/-- The settings in the text of a settings file. -/
def ofText (text : Text) : Noting Value :=
  match Json.read text with
  | .ok settings => return settings
  | .error .malformed => unreadableFile
  | .error failure => throw (failure.fault (.invalid .fileFormat))

/-- The contents of the settings file. -/
def load (machine : Machine) : Noting Value :=
  match machine.disk.find? machine.settingsPath with
  | none => return .record []
  | some .directory => unreadableFile
  | some (.file text) => ofText text

/-- The name of the environment variable of a setting. -/
def variableName (name : Text) : Text := variableStem ++ name.upperCase

/-- A setting from the settings file, or the default unless it is null, or the
built-in default. -/
def stored (machine : Machine) (name : Text) (default : Value) : Noting Value := do
  let settings ← load machine
  if (← Noting.ofOutcome (settings.mentions name)) then
    Noting.ofOutcome (settings.require name)
  else if default.isNull then return (Value.find? builtIn name).getD .null
  else return default

/-- The value of a setting. -/
def get (machine : Machine) (name default : Value) : Noting Value :=
  match name with
  | .text name => do
    let text ← Noting.ofOutcome (machine.variableNamed (variableName name))
    if text.isEmpty then stored machine name default else return .text text
  | _ => throw .noMembers

/-- A setting without a default of its own. -/
def lookup (machine : Machine) (name : Text) : Noting Value := get machine (.text name) .null

/-- The name under which a value is written as the name of a field. -/
def fieldName : Value → Outcome Text
  | .null => .ok "null"
  | .bool b => .ok (Json.writeBool b)
  | .number n => .ok (Json.writeNumber n)
  | .text name => .ok name
  | _ => .error .illTyped

/-- Fields with one of them changed. Only a text can name a field that is there
already. -/
def withField (fields : List (Text × Value)) (name value : Value) :
    Outcome (List (Text × Value)) := do
  match name with
  | .text name => return Value.put fields name value
  | name => return fields ++ [(← fieldName name, value)]

/-- Settings with one of them changed; those that are a list are changed at a
position, which counts from the end if it is negative. -/
def withSetting (settings name value : Value) : Outcome Value :=
  match settings with
  | .record fields => do return .record (← withField fields name value)
  | .list items => do
    let position ← name.position
    let position := if position < 0 then position + items.length else position
    if 0 ≤ position ∧ position < items.length then return .list (items.set position.toNat value)
    else .error .outOfRange
  | _ => .error .illTyped

/-- What it means that a settings file cannot be written. -/
def obstacleFault : Obstacle → Fault
  | .directory => .isDirectory
  | .path => .pathBlocked
  | .depth => .tooManyDirectories
  | .content => .notEncodable

/-- Writes the settings with one of them changed. -/
def store (machine : Machine) (name value : Value) : (Outcome Unit × List Note) × Machine :=
  let changed : Noting Value := do
    Noting.ofOutcome (withSetting (← load machine) name value)
  match changed.result with
  | (.error fault, notes) => ((.error fault, notes), machine)
  | (.ok settings, notes) =>
    match machine.disk.write machine.settingsPath (Json.documentPieces fileStyle settings) with
    | (disk, some obstacle) => ((.error (obstacleFault obstacle), notes), { machine with disk })
    | (disk, none) =>
      let saved : Note :=
        ⟨.info, "Saved setting: " ++ name.display ++ " = " ++ value.display⟩
      ((.ok (), notes ++ [saved]), { machine with disk })

/-- Saves a setting. The directory of the settings file is made first, so it is
there even if the file cannot be written. -/
def save (machine : Machine) (name value : Value) : (Outcome Unit × List Note) × Machine :=
  match machine.disk.makeParents machine.settingsPath with
  | (disk, .error obstacle) => ((.error (obstacleFault obstacle), []), { machine with disk })
  | (disk, .ok _) => store { machine with disk } name value

/-- The number of states that a history holds. A setting that is no whole number
counts as not given, with a note, and so does one below one. -/
def historyLimit (machine : Machine) : Noting Int := do
  let value ← lookup machine "history_limit"
  match value.toWhole with
  | .ok limit => return if 0 < limit then limit else builtInHistoryLimit
  | .error .tooLarge => throw .tooLarge
  | .error _ => do
    Noting.note .warning ("Invalid history_limit setting: " ++ value.quoted)
    return builtInHistoryLimit

end Montage.Settings
