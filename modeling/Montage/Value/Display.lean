import Montage.Number.Decimal
import Montage.Text.Quoted
import Montage.Value.Basic

/-!
# Values in messages

Messages show a value as its plain text, or quoted, when the difference
between the text `5` and the number 5 matters. Inside lists and records values
are always quoted.
-/

namespace Montage.Value

/-- The spelling of a truth value. -/
def truthText (b : Bool) : Text := if b then "True" else "False"

mutual

/-- The text of a value that shows its kind. -/
def quoted : Value → Text
  | .null => "None"
  | .bool b => truthText b
  | .number n => n.display
  | .text s => Text.quoted s
  | .list items => "[" ++ Text.intercalate ", " (quotedItems items) ++ "]"
  | .record fields => "\x7b" ++ Text.intercalate ", " (quotedFields fields) ++ "\x7d"

/-- The quoted items of a list. -/
def quotedItems : List Value → List Text
  | [] => []
  | item :: items => quoted item :: quotedItems items

/-- The quoted fields of a record. -/
def quotedFields : List (Text × Value) → List Text
  | [] => []
  | (name, value) :: fields =>
    (Text.quoted name ++ ": " ++ quoted value) :: quotedFields fields

end

/-- The plain text of a value: a text stands for itself. -/
def display : Value → Text
  | .text s => s
  | value => quoted value

end Montage.Value
