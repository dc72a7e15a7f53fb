import Montage.Text.Numeral
import Montage.Value.Basic

/-!
# Reading JSON

A text is read into a document value. Integers and decimals keep their kinds,
fields keep their order, and the words `NaN`, `Infinity` and `-Infinity` stand
for the doubles that JSON has no numeral for. A field given twice has its last
value at its first place. Lists and records can be nested only so deep.
-/

namespace Montage.Json

/-- Why a text is no document. -/
inductive Failure where
  /-- The text breaks the grammar. -/
  | malformed
  /-- An integer has more digits than numerals may have. -/
  | numeralTooLong (digits : Nat)
  /-- The values are nested too deep; the innermost one is of this kind. -/
  | tooDeep (innermost : Container)
deriving DecidableEq

/-- The deepest nesting of lists and records that is read. -/
def deepestNesting : Nat := 985

/-- The white space of JSON. -/
def isSpace (c : Char) : Bool := c = ' ' || c = '\t' || c = '\n' || c = '\r'

/-- Skips white space. -/
def skip (points : List CodePoint) : List CodePoint := points.dropWhile (CodePoint.isIn isSpace)

/-- The value of a digit of base sixteen. -/
def hexValue? (c : Char) : Option Nat :=
  if '0' ≤ c ∧ c ≤ '9' then some (c.toNat - '0'.toNat)
  else if 'a' ≤ c ∧ c ≤ 'f' then some (c.toNat - 'a'.toNat + 10)
  else if 'A' ≤ c ∧ c ≤ 'F' then some (c.toNat - 'A'.toNat + 10)
  else none

/-- The code unit of four digits of base sixteen. -/
def codeUnit? (a b c d : Char) : Option Nat := do
  return (((← hexValue? a) * 16 + (← hexValue? b)) * 16 + (← hexValue? c)) * 16 + (← hexValue? d)

/-- The code points read so far, newest first, after a surrogate that stayed
without its partner. -/
def settle (pending : Option Nat) (read : List CodePoint) : List CodePoint :=
  match pending with
  | some high => CodePoint.ofNat high :: read
  | none => read

/-- Whether a code unit is the first half of a surrogate pair. -/
def isHigh (unit : Nat) : Bool := 0xd800 ≤ unit && unit < 0xdc00

/-- Whether a code unit is the second half of a surrogate pair. -/
def isLow (unit : Nat) : Bool := 0xdc00 ≤ unit && unit < 0xe000

/-- The code point of a surrogate pair. -/
def pairOf (high low : Nat) : CodePoint :=
  CodePoint.ofNat (0x10000 + (high - 0xd800) * 0x400 + (low - 0xdc00))

/-- Adds a code unit: the second half of a pair completes the character, the
first half waits for the second. -/
def addUnit (pending : Option Nat) (read : List CodePoint) (unit : Nat) :
    Option Nat × List CodePoint :=
  match pending with
  | some high =>
    if isLow unit then (none, pairOf high unit :: read)
    else if isHigh unit then (some unit, CodePoint.ofNat high :: read)
    else (none, CodePoint.ofNat unit :: CodePoint.ofNat high :: read)
  | none => if isHigh unit then (some unit, read) else (none, CodePoint.ofNat unit :: read)

/-- The character behind a one-letter escape. -/
def escaped? (c : Char) : Option Char :=
  match c with
  | '"' => some '"'
  | '\\' => some '\\'
  | '/' => some '/'
  | 'b' => some (Char.ofNat 8)
  | 'f' => some (Char.ofNat 12)
  | 'n' => some '\n'
  | 'r' => some '\r'
  | 't' => some '\t'
  | _ => none

/-- Reads a text after its opening quote. -/
def readText (pending : Option Nat) (read : List CodePoint) :
    List CodePoint → Except Failure (Text × List CodePoint)
  | [] => .error .malformed
  | .char '"' :: rest => .ok (⟨(settle pending read).reverse⟩, rest)
  | .char '\\' :: .char 'u' :: .char a :: .char b :: .char c :: .char d :: rest =>
    match codeUnit? a b c d with
    | some unit =>
      let (pending, read) := addUnit pending read unit
      readText pending read rest
    | none => .error .malformed
  | .char '\\' :: .char c :: rest =>
    match escaped? c with
    | some plain => readText none (.char plain :: settle pending read) rest
    | none => .error .malformed
  | point :: rest =>
    if point.value < 0x20 ∨ point = .char '\\' then .error .malformed
    else readText none (point :: settle pending read) rest

/-- Takes the digits at the front. -/
def takeDigits : List CodePoint → List Char × List CodePoint
  | .char c :: rest =>
    if Text.isDigit c then
      let (digits, rest) := takeDigits rest
      (c :: digits, rest)
    else ([], .char c :: rest)
  | points => ([], points)

/-- Takes the fraction of a numeral: a point and at least one digit. -/
def takeFraction (points : List CodePoint) : List Char × List CodePoint :=
  match points with
  | .char '.' :: rest =>
    let (digits, rest) := takeDigits rest
    if digits.isEmpty then ([], points) else (digits, rest)
  | _ => ([], points)

/-- Takes a sign off the front; `true` stands for a minus. -/
def takeSign : List CodePoint → Bool × List CodePoint
  | .char '-' :: rest => (true, rest)
  | .char '+' :: rest => (false, rest)
  | points => (false, points)

/-- Takes the exponent of a numeral: its letter, a sign and at least one
digit. -/
def takeExponent (points : List CodePoint) : Option Int × List CodePoint :=
  match points with
  | point :: rest =>
    if point = .char 'e' || point = .char 'E' then
      let (down, after) := takeSign rest
      let (digits, after) := takeDigits after
      if digits.isEmpty then (none, points)
      else
        let size : Int := Text.digitsValue digits
        (some (if down then -size else size), after)
    else (none, points)
  | [] => (none, points)

/-- Takes the digits before the point: a single zero, or digits that do not
begin with one. -/
def takeWhole (points : List CodePoint) : List Char × List CodePoint :=
  match points with
  | .char '0' :: rest => (['0'], rest)
  | _ => takeDigits points

/-- Reads a numeral whose minus, if any, was taken. -/
def readNumeral (negative : Bool) (points : List CodePoint) :
    Except Failure (Value × List CodePoint) :=
  let (whole, afterWhole) := takeWhole points
  if whole.isEmpty then .error .malformed
  else
    let (fraction, afterFraction) := takeFraction afterWhole
    let (exponent, rest) := takeExponent afterFraction
    if fraction.isEmpty && exponent.isNone then
      if Text.longestNumeral < whole.length then .error (.numeralTooLong whole.length)
      else
        let size : Int := Text.digitsValue whole
        .ok (.int (if negative then -size else size), rest)
    else
      .ok (.real (Binary64.ofDecimal negative (Text.digitsValue (whole ++ fraction))
        (exponent.getD 0 - fraction.length)), rest)

/-- Takes a word off the front. -/
def takeWord (word : Text) (points : List CodePoint) : Option (List CodePoint) :=
  if word.points.isPrefixOf points then some (points.drop word.length) else none

/-- The words that stand for a value. -/
def words : List (Text × Value) := [
  ("null", .null),
  ("true", .bool true),
  ("false", .bool false),
  ("NaN", .real (.nan Binary64.written)),
  ("Infinity", .real (.infinity false)),
  ("-Infinity", .real (.infinity true))]

/-- Reads a word or a numeral. -/
def readScalar (points : List CodePoint) : Except Failure (Value × List CodePoint) :=
  match words.findSome? fun (word, value) =>
    (takeWord word points).map fun rest => (value, rest) with
  | some found => .ok found
  | none =>
    match points with
    | .char '-' :: rest => readNumeral true rest
    | _ => readNumeral false points

mutual

/-- Reads one value from a text without leading white space. The first argument
bounds the number of nested steps, and `room` is how much deeper values may be
nested. -/
def readValue : Nat → Nat → List CodePoint → Except Failure (Value × List CodePoint)
  | 0, _, _ => .error .malformed
  | fuel + 1, room, points =>
    match points with
    | .char '"' :: rest => do
      let (s, rest) ← readText none [] rest
      return (.text s, rest)
    | .char '[' :: rest =>
      if room = 0 then .error (.tooDeep .list)
      else
        match skip rest with
        | .char ']' :: rest => .ok (.list [], rest)
        | rest => readItems fuel (room - 1) [] rest
    | .char '{' :: rest =>
      if room = 0 then .error (.tooDeep .record)
      else
        match skip rest with
        | .char '}' :: rest => .ok (.record [], rest)
        | rest => readFields fuel (room - 1) [] rest
    | _ => readScalar points

/-- Reads the items of a list up to its closing bracket; those read so far come
newest first. -/
def readItems : Nat → Nat → List Value → List CodePoint →
    Except Failure (Value × List CodePoint)
  | 0, _, _, _ => .error .malformed
  | fuel + 1, room, read, points => do
    let (item, rest) ← readValue fuel room points
    match skip rest with
    | .char ',' :: rest => readItems fuel room (item :: read) (skip rest)
    | .char ']' :: rest => return (.list (item :: read).reverse, rest)
    | _ => .error .malformed

/-- Reads the fields of a record up to its closing brace. -/
def readFields : Nat → Nat → List (Text × Value) → List CodePoint →
    Except Failure (Value × List CodePoint)
  | 0, _, _, _ => .error .malformed
  | fuel + 1, room, read, points =>
    match points with
    | .char '"' :: rest => do
      let (name, rest) ← readText none [] rest
      match skip rest with
      | .char ':' :: rest =>
        let (value, rest) ← readValue fuel room (skip rest)
        let read := Value.put read name value
        match skip rest with
        | .char ',' :: rest => readFields fuel room read (skip rest)
        | .char '}' :: rest => return (.record read, rest)
        | _ => .error .malformed
      | _ => .error .malformed
    | _ => .error .malformed

end

/-- Reads a whole text as one document. -/
def read (t : Text) : Except Failure Value := do
  let points := skip t.points
  let (value, rest) ← readValue (2 * points.length + 2) deepestNesting points
  if (skip rest).isEmpty then return value else .error .malformed

end Montage.Json
