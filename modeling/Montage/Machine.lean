import Montage.Disk

/-!
# The machine the editor runs on

What the editor reads from its surroundings, apart from media files and the
programs it starts.
-/

namespace Montage

/-- The surroundings of the editor. -/
structure Machine where
  /-- The disk. -/
  disk : Disk
  /-- The path of the settings file. -/
  settingsPath : Text
  /-- The environment variables that are set, names before texts. -/
  environment : List (Bytes × Bytes)
  /-- The programs on the search path, each with its location. -/
  programs : List (Text × Value)
  /-- The present time as files give it. -/
  clock : Text
  /-- The location of the media engine that comes with the editor, if one
  does. -/
  bundledEngine : Option Value

namespace Machine

/-- The bytes that a text stands for outside. -/
def bytesOf (t : Text) : Outcome Bytes := orFault .notEncodable t.pathBytes?

/-- The text of an environment variable, empty when it is not set. -/
def variableNamed (machine : Machine) (name : Text) : Outcome Text := do
  let name ← bytesOf name
  let found := machine.environment.find? fun entry => entry.1 = name
  return Text.ofBytes ((found.map (·.2)).getD [])

/-- Sets an environment variable. -/
def setVariable (machine : Machine) (name bytes : Bytes) : Machine :=
  { machine with
    environment := (name, bytes) :: machine.environment.filter fun entry => entry.1 ≠ name }

/-- A variable that was set has the text of its bytes. -/
theorem variableNamed_setVariable (machine : Machine) {name : Text} {key : Bytes}
    (h : name.pathBytes? = some key) (bytes : Bytes) :
    (machine.setVariable key bytes).variableNamed name = .ok (Text.ofBytes bytes) := by
  simp [variableNamed, bytesOf, setVariable, h, orFault, bind, Except.bind, pure, Except.pure]

/-- The byte between the name and the text of a variable. -/
def equalsSign : UInt8 := 0x3d

/-- The bytes that a value gives for a variable. -/
def variableBytes : Value → Outcome Bytes
  | .text t => bytesOf t
  | _ => .error .illTyped

/-- Sets the environment variable that a value names to another one. Neither can
hold the byte zero, and the name is not empty and has no equals sign. -/
def withVariable (machine : Machine) (name value : Value) : Outcome Machine := do
  let name ← variableBytes name
  let bytes ← variableBytes value
  if name.contains equalsSign || (name ++ bytes).contains 0 then
    .error (.unreadable .notAVariable)
  else if name.isEmpty then .error .unnamed
  else return machine.setVariable name bytes

/-- The location of a program on the search path, null when there is none. -/
def program (machine : Machine) (name : Text) : Value :=
  ((machine.programs.find? fun entry => entry.1 = name).map (·.2)).getD .null

end Machine

end Montage
