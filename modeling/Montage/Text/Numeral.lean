import Montage.Number.Decimal
import Montage.Text.Blank
import Montage.Text.Digit

/-!
# Numerals in free text

Settings, probe reports and progress lines give numbers as text, with blanks
around them, a sign, digits of any script and single underscores between
digits. A whole number has at most `longestNumeral` digits.
-/

namespace Montage.Text

/-- The most digits a whole number may have. -/
def longestNumeral : Nat := 4300

/-- Whether a character is a digit of ASCII. -/
def isDigit (c : Char) : Bool := '0' ≤ c && c ≤ '9'

/-- The value of a run of ASCII digits. -/
def digitsValue (cs : List Char) : Nat :=
  cs.foldl (fun value c => 10 * value + (c.toNat - '0'.toNat)) 0

/-- A character of a numeral in ASCII: digits of all scripts become the ASCII
ones, other blanks the space, and what is left cannot occur in a numeral. -/
def plainChar (c : Char) : Char :=
  if c.toNat < 128 then c
  else match digitValue? c with
    | some value => Nat.digitChar value
    | none => if isBlank c then ' ' else '?'

/-- A code point of a numeral in ASCII; surrogates cannot occur in one. -/
def plainPoint : CodePoint → Char
  | .char c => plainChar c
  | .surrogate _ => '?'

/-- The blanks that may surround a numeral once it is in ASCII. -/
def isMargin (c : Char) : Bool :=
  c = ' ' || ('\t' ≤ c && c ≤ '\r')

/-- A numeral in ASCII without its margins. -/
def plain (t : Text) : List Char :=
  let cs := (t.points.map plainPoint).dropWhile isMargin
  (cs.reverse.dropWhile isMargin).reverse

/-- Takes a sign off the front; `true` stands for a minus. -/
def takeSign : List Char → Bool × List Char
  | '-' :: rest => (true, rest)
  | '+' :: rest => (false, rest)
  | cs => (false, cs)

/-- Takes out underscores, each of which must stand between two digits.
`afterDigit` tells whether a digit was just read. -/
def dropSeparators (afterDigit : Bool) : List Char → Option (List Char)
  | [] => some []
  | '_' :: c :: rest =>
    if afterDigit && isDigit c then (dropSeparators true rest).map (c :: ·) else none
  | c :: rest =>
    if c = '_' then none else (dropSeparators (isDigit c) rest).map (c :: ·)

/-- The digits that a text begins with after its sign, whatever follows them;
none if an underscore does not stand between two of them. -/
def leadingDigits? (t : Text) : Option (List Char) :=
  dropSeparators false ((takeSign (plain t)).2.takeWhile fun c => isDigit c || c = '_')

/-- The whole number a text stands for. -/
def wholeNumber? (t : Text) : Option Int := do
  let (negative, digits) := takeSign (plain t)
  let digits ← dropSeparators false digits
  if digits.isEmpty || !digits.all isDigit || longestNumeral < digits.length then none
  else
    let value : Int := digitsValue digits
    some (if negative then -value else value)

/-- The value of a decimal without sign: digits with at most one point among
them, then optionally an exponent. -/
def unsignedDecimal? (negative : Bool) (cs : List Char) : Option Binary64 :=
  let whole := cs.takeWhile isDigit
  let afterWhole := cs.dropWhile isDigit
  let (fraction, afterFraction) := match afterWhole with
    | '.' :: rest => (rest.takeWhile isDigit, rest.dropWhile isDigit)
    | rest => ([], rest)
  if whole.isEmpty && fraction.isEmpty then none
  else
    let value := fun (exponent : Int) =>
      Binary64.ofDecimal negative (digitsValue (whole ++ fraction)) (exponent - fraction.length)
    match afterFraction with
    | [] => some (value 0)
    | c :: rest =>
      if c = 'e' || c = 'E' then
        let (down, digits) := takeSign rest
        if digits.isEmpty || !digits.all isDigit then none
        else
          let exponent : Int := digitsValue digits
          some (value (if down then -exponent else exponent))
      else none

/-- The double a text stands for: a decimal, an infinity or not-a-number, the
words in any case. -/
def decimal? (t : Text) : Option Binary64 := do
  let cs ← dropSeparators false (plain t)
  let (negative, rest) := takeSign cs
  let word := String.ofList (rest.map Char.toLower)
  if word = "inf" || word = "infinity" then some (.infinity negative)
  else if word = "nan" then some (.nan 0)
  else unsignedDecimal? negative rest

end Montage.Text
