import Montage.Number.Binary64

/-!
# Integers and doubles side by side

Times, sizes and percentages are integers of any size or doubles, and each
keeps its kind. Comparisons between the kinds are exact; mixed arithmetic is
done in doubles and fails for an integer that no finite double is near.
-/

namespace Montage

/-- A place on the number line, the two infinities being its ends. -/
inductive Place where
  /-- Minus infinity. -/
  | bottom
  /-- A finite place, counted in units of `2 ^ -1074` from zero. -/
  | inner (units : Int)
  /-- Plus infinity. -/
  | top
deriving DecidableEq

/-- The order of the number line. -/
def Place.lt : Place → Place → Bool
  | .bottom, .bottom => false
  | .bottom, _ => true
  | .inner _, .bottom => false
  | .inner a, .inner b => a < b
  | .inner _, .top => true
  | .top, _ => false

/-- Where a double stands on the line; not-a-number stands nowhere. -/
def Binary64.place? : Binary64 → Option Place
  | .nan _ => none
  | .infinity negative => some (if negative then .bottom else .top)
  | .finite negative units _ => some (.inner (Binary64.signed negative units))

/-- A number as it is stored: an integer of any size or a double. -/
inductive Number where
  /-- An integer. -/
  | int (n : Int)
  /-- A double. -/
  | real (x : Binary64)
deriving DecidableEq

namespace Number

instance : Inhabited Number := ⟨.int 0⟩

instance (n : Nat) : OfNat Number n := ⟨.int n⟩

/-- Where a number stands on the line; not-a-number stands nowhere. -/
def place? : Number → Option Place
  | .int n => some (.inner (n * Grid.unitsPerOne))
  | .real x => x.place?

/-- Exact "less than"; not-a-number is less than nothing. -/
def lt (a b : Number) : Bool :=
  match a.place?, b.place? with
  | some p, some q => p.lt q
  | _, _ => false

/-- Exact equality of value; not-a-number equals nothing. -/
def equal (a b : Number) : Bool :=
  match a.place?, b.place? with
  | some p, some q => p = q
  | _, _ => false

/-- Whether two stored numbers agree: by value, or as the same not-a-number. -/
def agrees (a b : Number) : Bool := a.equal b || decide (a = b)

/-- Exact "at most"; not-a-number is at most nothing. -/
def le (a b : Number) : Bool := a.lt b || a.equal b

/-- Whether the number is not-a-number. -/
def isNaN : Number → Bool
  | .int _ => false
  | .real x => x.isNaN

/-- The number as a finite or infinite double; an integer beyond the range of
the finite doubles has none. -/
def toReal? : Number → Option Binary64
  | .int n =>
    let x := Binary64.ofInt n
    if x.isFinite then some x else none
  | .real x => some x

/-- Combines two numbers: integers exactly, anything else as doubles. -/
def combine? (exact : Int → Int → Int) (rounded : Binary64 → Binary64 → Binary64) :
    Number → Number → Option Number
  | .int m, .int n => some (.int (exact m n))
  | a, b => do return .real (rounded (← a.toReal?) (← b.toReal?))

/-- The sum; there is none when an integer operand is too large for a double. -/
def add? : Number → Number → Option Number := combine? (· + ·) Binary64.add

/-- The difference, under the same condition. -/
def sub? : Number → Number → Option Number := combine? (· - ·) Binary64.sub

/-- The product, under the same condition. -/
def mul? : Number → Number → Option Number := combine? (· * ·) Binary64.mul

/-- The quotient as a double. Two integers are divided exactly and rounded
once; there is none when the result or an operand is too large for a double. -/
def div? : Number → Number → Option Binary64
  | .int m, .int n =>
    if n = 0 then none
    else
      let x := Binary64.ofRatio (decide (m < 0) != decide (n < 0)) m.natAbs n.natAbs
      if x.isFinite then some x else none
  | a, b => do return (← a.toReal?).div (← b.toReal?)

/-- Whether the number is finite: an integer counts when some finite double is
near it, and there is no answer for a larger one. -/
def isFinite? : Number → Option Bool
  | .int n => if (Binary64.ofInt n).isFinite then some true else none
  | .real x => some x.isFinite

end Number

end Montage
