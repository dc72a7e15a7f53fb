import Montage.Number.Decimal
import Montage.Text.Quoted
import Montage.Value.Basic

/-!
# Writing JSON

Documents are written on one line or indented, with characters outside ASCII
kept or escaped. Doubles get their shortest text, so reading a document back
gives the same value.
-/

namespace Montage.Json

/-- How a document is laid out. -/
structure Style where
  /-- The blanks of one level of indentation; without them all is on one line. -/
  indent : Option Nat
  /-- Whether characters outside printable ASCII are escaped. -/
  asciiOnly : Bool

/-- One line in printable ASCII. -/
def oneLine : Style := ⟨none, true⟩

/-- The code units that a character is escaped as. -/
def unitsOf (code : Nat) : List Nat :=
  if code < 0x10000 then [code]
  else
    let offset := code - 0x10000
    [0xd800 + offset / 0x400, 0xdc00 + offset % 0x400]

/-- The escape of one code unit. -/
def escapeUnit (unit : Nat) : List Char := '\\' :: 'u' :: Text.hex 4 unit

/-- One character inside quotes. -/
def writeChar (asciiOnly : Bool) (c : Char) : List Char :=
  match c with
  | '"' => ['\\', '"']
  | '\\' => ['\\', '\\']
  | '\n' => ['\\', 'n']
  | '\r' => ['\\', 'r']
  | '\t' => ['\\', 't']
  | c =>
    if c.toNat = 8 then ['\\', 'b']
    else if c.toNat = 12 then ['\\', 'f']
    else if c.toNat < 0x20 then escapeUnit c.toNat
    else if asciiOnly && 0x7f ≤ c.toNat then (unitsOf c.toNat).flatMap escapeUnit
    else [c]

/-- One code point inside quotes. -/
def writePoint (asciiOnly : Bool) : CodePoint → List CodePoint
  | .char c => (writeChar asciiOnly c).map .char
  | .surrogate offset =>
    if asciiOnly then (escapeUnit (CodePoint.surrogate offset).value).map .char
    else [.surrogate offset]

/-- A text in quotes. -/
def writeText (asciiOnly : Bool) (t : Text) : Text :=
  ⟨.char '"' :: t.points.flatMap (writePoint asciiOnly) ++ [.char '"']⟩

/-- A number; doubles without a numeral are written as words. -/
def writeNumber : Number → Text
  | .int n => toString n
  | .real (.nan _) => "NaN"
  | .real (.infinity negative) => if negative then "-Infinity" else "Infinity"
  | .real x => x.shortest

/-- A truth value. -/
def writeBool (b : Bool) : Text := if b then "true" else "false"

/-- The start of a line at a depth, or nothing on one line. -/
def Style.line (style : Style) (depth : Nat) : Text :=
  match style.indent with
  | some width => "\n" ++ Text.ofChars (List.replicate (width * depth) ' ')
  | none => ""

/-- What separates two items at a depth. -/
def Style.separator (style : Style) (depth : Nat) : Text :=
  match style.indent with
  | some _ => "," ++ style.line depth
  | none => ", "

/-! ## Pieces

A document is written piece by piece. Names, the colons after them and the
values of fields are pieces of their own; a scalar in a list is one piece with
what separates it from the item before. -/

mutual

/-- The pieces of a value that stands at a depth, after what leads up to it. -/
def pieces (style : Style) (depth : Nat) (lead : Text) : Value → List Text
  | .null => [lead ++ "null"]
  | .bool b => [lead ++ writeBool b]
  | .number n => [lead ++ writeNumber n]
  | .text s => [lead ++ writeText style.asciiOnly s]
  | .list items =>
    if items.isEmpty then [lead, "[]"]
    else
      lead :: itemPieces style (depth + 1) ("[" ++ style.line (depth + 1)) items ++
        [style.line depth ++ "]"]
  | .record fields =>
    if fields.isEmpty then [lead, "\x7b\x7d"]
    else
      lead :: fieldPieces style (depth + 1) ("\x7b" ++ style.line (depth + 1)) fields ++
        [style.line depth ++ "\x7d"]

/-- The pieces of the items of a list; `lead` stands before the first. -/
def itemPieces (style : Style) (depth : Nat) (lead : Text) : List Value → List Text
  | [] => []
  | item :: items =>
    pieces style depth lead item ++ itemPieces style depth (style.separator depth) items

/-- The pieces of the fields of a record; `lead` stands before the first. -/
def fieldPieces (style : Style) (depth : Nat) (lead : Text) : List (Text × Value) → List Text
  | [] => []
  | (name, value) :: fields =>
    lead :: writeText style.asciiOnly name :: ": " :: (pieces style depth "" value ++
      fieldPieces style depth (style.separator depth) fields)

end

/-- The pieces of a document. -/
def documentPieces (style : Style) (value : Value) : List Text := pieces style 0 "" value

/-- Writes a document. -/
def write (style : Style) (value : Value) : Text := Text.join (documentPieces style value)

end Montage.Json
