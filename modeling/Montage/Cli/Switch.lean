import Montage.Text.Digit
import Montage.Text.Numeral

/-!
# Switches of a command line

A switch has a long name, and perhaps a short one of a single letter. Long names
may be cut short as long as only one fits, a value may be attached to its
switch, and short switches without a value may share a dash.
-/

namespace Montage.Cli

/-- What a switch is about. -/
inductive Key where
  /-- Shows how the program is used. -/
  | help
  /-- Logs more. -/
  | verbose
  /-- Names the output resolution. -/
  | resolution
  /-- Names the file to write. -/
  | output
  /-- Leaves out the overlay track. -/
  | hideOverlay
  /-- Silences the main track. -/
  | muteMain
  /-- Silences the overlay track. -/
  | muteOverlay
deriving DecidableEq

/-- Whether a switch is followed by a value. -/
def Key.takesValue : Key → Bool
  | .resolution => true
  | .output => true
  | _ => false

/-- One name of a switch. -/
structure Switch where
  /-- The name with its dashes. -/
  name : Text
  /-- What the switch is about. -/
  key : Key

/-- What a word of a command line is. -/
inductive Word where
  /-- A word that is no switch. -/
  | plain
  /-- A switch, perhaps with something attached to it. -/
  | switch (switch : Switch) (attached : Option Text)
  /-- It looks like a switch, and there is none of that name. -/
  | unknown
  /-- It could be one of several switches. -/
  | ambiguous

namespace Word

/-- The switch of exactly this name. -/
def named? (switches : List Switch) (name : Text) : Option Switch :=
  switches.find? fun switch => switch.name = name

/-- The part of a text before the first equality sign. -/
def stem (text : Text) : Text := ⟨text.points.takeWhile (· ≠ .char '=')⟩

/-- The part of a text after the first equality sign, if there is one. -/
def value? (text : Text) : Option Text :=
  match text.points.dropWhile (· ≠ .char '=') with
  | [] => none
  | _ :: rest => some ⟨rest⟩

/-- Whether a code point is a decimal digit of any script. -/
def isDigit (point : CodePoint) : Bool := point.isIn fun c => (Text.digitValue? c).isSome

/-- A text without the line feed it may end in. -/
def withoutLineFeed (points : List CodePoint) : List CodePoint :=
  if points.getLast? = some (.char '\n') then points.dropLast else points

/-- Whether a text is a number below zero, which is no switch. One line feed may
follow. -/
def isNegative (text : Text) : Bool :=
  match withoutLineFeed text.points with
  | .char '-' :: points =>
    match points.dropWhile isDigit with
    | [] => !points.isEmpty
    | .char '.' :: places => !places.isEmpty && places.all isDigit
    | _ => false
  | _ => false

/-- The switches that a cut or clustered text may stand for, with what is
attached to each. -/
def candidates (switches : List Switch) (text : Text) : List (Switch × Option Text) :=
  match text.points with
  | .char '-' :: .char '-' :: _ =>
    (switches.filter fun switch =>
      (stem text).points.isPrefixOf switch.name.points).map fun switch => (switch, value? text)
  | .char '-' :: point :: rest =>
    (switches.filter fun switch => switch.name.points = [.char '-', point]).map fun switch =>
      (switch, some ⟨rest⟩)
  | _ => []

/-- What a word is that no switch is called. -/
def ofUnnamed (switches : List Switch) (text : Text) : Word :=
  match candidates switches text with
  | [(found, attached)] => .switch found attached
  | [] => if isNegative text || text.points.contains (.char ' ') then .plain else .unknown
  | _ => .ambiguous

/-- What a word is. -/
def ofText (switches : List Switch) (text : Text) : Word :=
  if text = "-" || !text.beginsWith '-' then .plain
  else
    match named? switches text, named? switches (stem text), value? text with
    | some found, _, _ => .switch found none
    | none, some found, some value => .switch found (some value)
    | _, _, _ => ofUnnamed switches text

/-- The word after which all words are plain. -/
def separator : Text := "--"

/-- Whether a word can be the value of the switch before it. -/
def isValue (switches : List Switch) (text : Text) : Bool :=
  match ofText switches text with
  | .plain => text ≠ separator
  | _ => false

end Word

/-- A switch as it stands in a command line, with its value if one is
attached. -/
structure SwitchUse where
  /-- What the switch is about. -/
  key : Key
  /-- The attached value. -/
  value : Option Text

/-- The switches behind short ones that share a dash, the last of them with its
value if one is attached. -/
def clustered (switches : List Switch) : List CodePoint → Option (List SwitchUse)
  | [] => some []
  | point :: rest => do
    let switch ← Word.named? switches ⟨[.char '-', point]⟩
    if switch.key.takesValue && !rest.isEmpty then return [⟨switch.key, some ⟨rest⟩⟩]
    else return ⟨switch.key, none⟩ :: (← clustered switches rest)

/-- The switches behind one switch with what is attached to it. -/
def expanded (switches : List Switch) (switch : Switch) (attached : Option Text) :
    Option (List SwitchUse) :=
  match attached with
  | none => some [⟨switch.key, none⟩]
  | some text =>
    if switch.key.takesValue then some [⟨switch.key, some text⟩]
    else if switch.name.length = 2 && !text.isEmpty then do
      return ⟨switch.key, none⟩ :: (← clustered switches text.points)
    else none

end Montage.Cli
