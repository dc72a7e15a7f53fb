import Montage.Number.Basic

/-!
# Doubles as decimal text

Two printers and one reader. `Binary64.shortest` writes the fewest digits that
read back as the same double; `Binary64.fixed` writes a given number of
decimal places of the exact value; `Binary64.ofDecimal` is the double nearest
to a decimal.
-/

namespace Montage

namespace Decimal

/-- A positive decimal `digits * 10 ^ exponent`. -/
structure Scientific where
  /-- The significant digits, read as one natural number. -/
  digits : Nat
  /-- The power of ten that the last digit counts. -/
  exponent : Int
deriving DecidableEq

/-- The number of decimal digits of a natural number. -/
def width (n : Nat) : Nat := (Nat.toDigits 10 n).length

/-- Decimal places that suffice to see the leading digit of every double and
seventeen more. -/
def depth : Nat := 400

/-- The open or closed interval of reals that round to a magnitude, in quarters
of a unit. Its ends belong to it when the significand is even, and its lower
half is narrower just above a power of two. -/
structure Basin where
  /-- The lower end. -/
  low : Nat
  /-- The upper end. -/
  high : Nat
  /-- Whether the ends belong to the interval. -/
  closed : Bool

/-- The reals that round to the magnitude `units`. -/
def basin (units : Nat) : Basin :=
  let gap := Grid.step units
  let below := if units = Nat.pow 2 units.log2 ∧ 1 < gap then gap else 2 * gap
  ⟨4 * units - below, 4 * units + 2 * gap, units / gap % 2 = 0⟩

/-- Whether a point lies in the interval once both are multiplied by `scale`. -/
def Basin.holds (b : Basin) (scale point : Nat) : Bool :=
  if b.closed then b.low * scale ≤ point ∧ point ≤ b.high * scale
  else b.low * scale < point ∧ point < b.high * scale

/-- The multiple of `10 ^ exponent` that rounds to the magnitude and is nearest
to it, if one of its two neighbours on that grid does. -/
def onGrid? (units : Nat) (exponent : Int) : Option Nat :=
  let scale := Nat.pow 10 depth
  let mesh := 4 * Grid.unitsPerOne * Nat.pow 10 (exponent + depth).toNat
  let target := 4 * units * scale
  let lower := target / mesh
  let fits := fun digits => (basin units).holds scale (digits * mesh)
  match decide (0 < lower) && fits lower, fits (lower + 1) with
  | true, false => some lower
  | false, true => some (lower + 1)
  | true, true => some (roundQuotient target mesh)
  | false, false => none

/-- The decimal exponent of the leading digit's left neighbour: the magnitude
lies between `10 ^ (e - 1)` and `10 ^ e`. -/
def magnitude (units : Nat) : Int :=
  (width (units * Nat.pow 10 depth / Grid.unitsPerOne) : Int) - depth

/-- Tries grids of one digit, two digits and so on, up to `count` grids. -/
def search (units : Nat) (top : Int) : Nat → Nat → Scientific
  | 0, _ => ⟨roundQuotient (units * Nat.pow 10 depth) Grid.unitsPerOne, -(depth : Int)⟩
  | count + 1, tried =>
    let exponent := top - (tried + 1)
    match onGrid? units exponent with
    | some digits => ⟨digits, exponent⟩
    | none => search units top count (tried + 1)

/-- The decimal of fewest digits that rounds to a positive magnitude. Seventeen
digits always suffice. -/
def shortest (units : Nat) : Scientific := search units (magnitude units) 17 0

/-- Cuts zeros off the end of a digit string. -/
def trimZeros (digits : List Char) : List Char :=
  (digits.reverse.dropWhile (· = '0')).reverse

/-- How doubles are laid out once their digits are known. -/
structure Layout where
  /-- The smallest position of the point that is still written positionally. -/
  lowest : Int
  /-- The largest position of the point that is still written positionally. -/
  highest : Int

/-- Numbers from `1e-4` to below `1e16` are positional. -/
def layout : Layout := ⟨-3, 16⟩

/-- An exponent with its sign and at least two digits. -/
def exponentText (e : Int) : String :=
  let digits := toString e.natAbs
  (if e < 0 then "e-" else "e+") ++ (if digits.length < 2 then "0" ++ digits else digits)

/-- The text of `0.d₁d₂… * 10 ^ point`. -/
def place (digits : List Char) (point : Int) : String :=
  if layout.lowest ≤ point ∧ point ≤ layout.highest then
    if point ≤ 0 then
      "0." ++ String.ofList (List.replicate point.natAbs '0' ++ digits)
    else
      let whole := digits.take point.toNat
      let fraction := digits.drop point.toNat
      let filled := whole ++ List.replicate (point.toNat - whole.length) '0'
      String.ofList filled ++ "." ++ (if fraction.isEmpty then "0" else String.ofList fraction)
  else
    let lead := String.ofList (digits.take 1)
    let rest := digits.drop 1
    lead ++ (if rest.isEmpty then "" else "." ++ String.ofList rest) ++ exponentText (point - 1)

end Decimal

namespace Binary64

/-- The minus of a number that carries one. -/
def signText (negative : Bool) : String := if negative then "-" else ""

/-- The shortest text that reads back as the same double; whole numbers keep a
fraction of one zero. -/
def shortest : Binary64 → String
  | .nan _ => "nan"
  | .infinity negative => signText negative ++ "inf"
  | .finite negative units _ =>
    if units = 0 then signText negative ++ "0.0"
    else
      let found := Decimal.shortest units
      let digits := Nat.toDigits 10 found.digits
      signText negative ++
        Decimal.place (Decimal.trimZeros digits) (digits.length + found.exponent)

/-- The digits of `num / den` rounded to a number of decimal places. -/
def fixedDigits (num den places : Nat) : String :=
  let scaled := roundQuotient (num * Nat.pow 10 places) den
  let whole := toString (scaled / Nat.pow 10 places)
  if places = 0 then whole
  else
    let fraction := toString (scaled % Nat.pow 10 places)
    whole ++ "." ++ String.ofList (List.replicate (places - fraction.length) '0') ++ fraction

/-- The exact value rounded to a number of decimal places, a half going to the
even last digit. The sign stays even when every digit is zero. -/
def fixed (places : Nat) : Binary64 → String
  | .nan _ => "nan"
  | .infinity negative => signText negative ++ "inf"
  | .finite negative units _ => signText negative ++ fixedDigits units Grid.unitsPerOne places

/-- The double nearest to `digits * 10 ^ exponent`. Decimals far outside the
range are settled without forming the power. -/
def ofDecimal (negative : Bool) (digits : Nat) (exponent : Int) : Binary64 :=
  if digits = 0 then zero negative
  else
    let top := Decimal.width digits + exponent
    if 310 < top then .infinity negative
    else if top < -330 then zero negative
    else if 0 ≤ exponent then ofRatio negative (digits * Nat.pow 10 exponent.toNat) 1
    else ofRatio negative digits (Nat.pow 10 exponent.natAbs)

end Binary64

/-- The usual text of a number: all digits of an integer, the shortest text of
a double. -/
def Number.display : Number → String
  | .int n => toString n
  | .real x => x.shortest

end Montage
