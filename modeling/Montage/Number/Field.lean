import Montage.Number.Decimal
import Montage.Text.Basic
import Montage.Text.Digit

/-!
# Decimals in fields

A decimal has a fixed number of places. It may also be laid out in a field of a
given width, where the rest of the width is filled with points, digits can be
grouped in threes and the sign can be chosen. A field is asked for by a text
such as `>8.2`: how it is filled, the width and the places.
-/

namespace Montage

/-- Where the points stand that fill a field. -/
inductive Filling where
  /-- Behind the decimal. -/
  | behind
  /-- In front of the decimal. -/
  | before
  /-- On both sides, the odd one behind. -/
  | around
  /-- Between the sign and the digits. -/
  | inside
deriving DecidableEq

/-- A field that a decimal is laid out in. -/
structure DecimalField where
  /-- Where it is filled. -/
  filling : Filling
  /-- What stands in the place of the sign when there is no minus. -/
  plus : List Char
  /-- Whether a minus is left out when every digit is zero. -/
  unsignedZero : Bool
  /-- Whether the point is written even if no place follows it. -/
  keepsPoint : Bool
  /-- The least number of characters. -/
  width : Nat
  /-- What stands between groups of three digits. -/
  separator : List Char
  /-- The number of decimal places. -/
  places : Nat

/-- The parts of a decimal that is laid out. -/
structure DecimalParts where
  /-- The minus or what stands in its place. -/
  sign : List Char
  /-- The digits before the point in their groups. -/
  whole : List Char
  /-- The point and what follows it, or a word that is no decimal. -/
  rest : List Char

namespace DecimalField

/-- The digits before the point with a separator in front of every third one,
counted from the end. -/
def grouped (separator : List Char) : List Char → List Char
  | [] => []
  | digit :: digits =>
    let mark := if digits.isEmpty || digits.length % 3 ≠ 0 then [] else separator
    digit :: (mark ++ grouped separator digits)

/-- Without a separator the digits stay as they are. -/
theorem grouped_nil (digits : List Char) : grouped [] digits = digits := by
  induction digits with
  | nil => rfl
  | cons digit digits ih => simp [grouped, ih]

/-- The sign of a number. -/
def signOf (field : DecimalField) (negative : Bool) : List Char :=
  if negative then ['-'] else field.plus

/-- The parts of a double in a field. -/
def parts (field : DecimalField) : Binary64 → DecimalParts
  | .nan _ => ⟨field.signOf false, [], "nan".toList⟩
  | .infinity negative => ⟨field.signOf negative, [], "inf".toList⟩
  | .finite negative units _ =>
    let text := (Binary64.fixedDigits units Grid.unitsPerOne field.places).toList
    let isZero := text.all fun c => c = '0' || c = '.'
    let rest := text.dropWhile (· ≠ '.')
    { sign := field.signOf (negative && !(field.unsignedZero && isZero))
      whole := grouped field.separator (text.takeWhile (· ≠ '.'))
      rest := if rest.isEmpty && field.keepsPoint then ['.'] else rest }

/-- Some of the points that fill a field. -/
def points (count : Nat) : List Char := List.replicate count '.'

/-- The text of a double in a field. -/
def render (field : DecimalField) (x : Binary64) : String :=
  let parts := field.parts x
  let digits := parts.whole ++ parts.rest
  let missing := field.width - (parts.sign ++ digits).length
  String.ofList <| match field.filling with
    | .behind => parts.sign ++ digits ++ points missing
    | .before => points missing ++ parts.sign ++ digits
    | .around => points (missing / 2) ++ parts.sign ++ digits ++ points (missing - missing / 2)
    | .inside => parts.sign ++ points missing ++ digits

/-! ## Fields in writing -/

/-- The largest number in the text of a field. -/
def largestNumber : Nat := Nat.pow 2 63 - 1

/-- The decimal digit that a code point is. -/
def digit? : CodePoint → Option Nat
  | .char c => Text.digitValue? c
  | .surrogate _ => none

/-- The digits at the front, of any script, and what follows them. -/
def takeDigits : List CodePoint → List Nat × List CodePoint
  | [] => ([], [])
  | point :: rest =>
    match digit? point with
    | some digit =>
      let (digits, rest) := takeDigits rest
      (digit :: digits, rest)
    | none => ([], point :: rest)

/-- The number of some digits, if it is not too large. -/
def numberOf? (digits : List Nat) : Option Nat :=
  let number := digits.foldl (fun number digit => 10 * number + digit) 0
  if number ≤ largestNumber then some number else none

/-- The mark at the front that says how a field is filled. -/
def filling? : CodePoint → Option Filling
  | .char '<' => some .behind
  | .char '>' => some .before
  | .char '^' => some .around
  | .char '=' => some .inside
  | _ => none

/-- Takes the mark for the place of the sign off the front; without it, or with
a minus, nothing stands there. -/
def takePlus : List CodePoint → List Char × List CodePoint
  | .char '+' :: rest => (['+'], rest)
  | .char ' ' :: rest => ([' '], rest)
  | .char '-' :: rest => ([], rest)
  | rest => ([], rest)

/-- Takes a mark off the front; whether it was there. -/
def takeMark (mark : Char) : List CodePoint → Bool × List CodePoint
  | [] => (false, [])
  | point :: rest => if point = .char mark then (true, rest) else (false, point :: rest)

/-- Takes a separator off the front. -/
def takeSeparator : List CodePoint → List Char × List CodePoint
  | .char ',' :: rest => ([','], rest)
  | .char '_' :: rest => (['_'], rest)
  | rest => ([], rest)

/-- The number of places of a field that does not tell it. -/
def usualPlaces : Nat := 6

/-- The number of places, which ends the text of a field. -/
def places? : List CodePoint → Option Nat
  | [] => some usualPlaces
  | .char '.' :: rest =>
    match takeDigits rest with
    | ([], _) => none
    | (digits, []) => numberOf? digits
    | _ => none
  | _ => none

/-- The field that a text asks for after the mark of its filling. -/
def ofPoints? (filling : Filling) (points : List CodePoint) : Option DecimalField := do
  let (plus, points) := takePlus points
  let (unsignedZero, points) := takeMark 'z' points
  let (keepsPoint, points) := takeMark '#' points
  let (width, points) := takeDigits points
  let (separator, points) := takeSeparator points
  return {
    filling, plus, unsignedZero, keepsPoint, separator
    width := ← numberOf? width
    places := ← places? points }

end DecimalField

/-- How a decimal is to be written. -/
inductive DecimalStyle where
  /-- With a number of places. -/
  | fixed (places : Nat)
  /-- In a field. -/
  | laidOut (field : DecimalField)

namespace DecimalStyle

/-- The number of decimal places. -/
def places : DecimalStyle → Nat
  | .fixed places => places
  | .laidOut field => field.places

/-- The text of a double. -/
def render : DecimalStyle → Binary64 → String
  | .fixed places, x => x.fixed places
  | .laidOut field, x => field.render x

/-- The style with a number of places that may be too large. -/
def ofPlaces? (places : Nat) : Option DecimalStyle :=
  if places ≤ DecimalField.largestNumber then some (.fixed places) else none

/-- The style that a text asks for: a number of places by its digits, or a
field. -/
def ofText? (t : Text) : Option DecimalStyle :=
  match t.points with
  | [] => none
  | point :: rest =>
    match DecimalField.filling? point with
    | some filling => (DecimalField.ofPoints? filling rest).map .laidOut
    | none =>
      match DecimalField.takeDigits (point :: rest) with
      | (digits, []) => (DecimalField.numberOf? digits).map .fixed
      | _ => none

end DecimalStyle

end Montage
