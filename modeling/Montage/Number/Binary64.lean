/-!
# Double-precision numbers on an integer grid

Every finite double is a whole number of units of `2 ^ -1074`, so a double is
kept as its sign and that whole number. Sums, products, quotients and
comparisons are then exact integer arithmetic, followed by one rounding to the
nearest representable number with ties going to the even significand.

Not-a-number equals nothing by value. Where it is stored it is still the same
thing as itself, so its occurrences carry a mark of where they come from.
-/

namespace Montage

/-- The quotient `num / den` rounded to the nearest natural number; an exact
half goes to the even neighbour. -/
def roundQuotient (num den : Nat) : Nat :=
  let quotient := num / den
  let rest := num % den
  if 2 * rest < den then quotient
  else if den < 2 * rest then quotient + 1
  else if quotient % 2 = 0 then quotient
  else quotient + 1

namespace Grid

/-- The number of units of `2 ^ -1074` in one. -/
def unitsPerOne : Nat := Nat.pow 2 1074

/-- The distance between neighbouring doubles around a magnitude: significands
have 53 binary digits, and below `2 ^ 53` units every whole number is a double. -/
def step (units : Nat) : Nat := Nat.pow 2 (units.log2 - 52)

/-- The binary exponent, counted in units, at which doubles become infinite. -/
def topExponent : Nat := 2098

/-- The first power of two that is too large for a finite double: `2 ^ 1024`,
counted in units. -/
def limit : Nat := Nat.pow 2 topExponent

/-- The whole numbers of units that are magnitudes of finite doubles. -/
def Representable (units : Nat) : Prop := units < limit ∧ step units ∣ units

instance (units : Nat) : Decidable (Representable units) :=
  inferInstanceAs (Decidable (units < limit ∧ step units ∣ units))

/-- The multiple of the local step nearest to `num / den` units. It may lie
past the largest double. -/
def nearest (num den : Nat) : Nat :=
  let gap := step (num / den)
  roundQuotient num (den * gap) * gap

/-- Zero is a magnitude. -/
theorem representable_zero : Representable 0 := by
  have hpos : ∀ n, 0 < Nat.pow 2 n := Nat.two_pow_pos
  unfold Representable limit
  exact ⟨hpos topExponent, Nat.dvd_zero _⟩

end Grid

/-- A double: not-a-number, one of the infinities, or a signed magnitude
counted in units of `2 ^ -1074`. Zero has both signs. -/
inductive Binary64 where
  /-- The result of an operation without a value. Occurrences with the same
  origin are the same stored thing. -/
  | nan (origin : Nat)
  /-- An infinity of the given sign. -/
  | infinity (negative : Bool)
  /-- A finite double of the given sign and magnitude. -/
  | finite (negative : Bool) (units : Nat) (grid : Grid.Representable units)
deriving DecidableEq

namespace Binary64

/-- The zero of the given sign. -/
def zero (negative : Bool) : Binary64 := .finite negative 0 Grid.representable_zero

instance : Inhabited Binary64 := ⟨zero false⟩

/-- The origin of what arithmetic makes. -/
def computed : Nat := 0

/-- The origin of what is read from documents. -/
def written : Nat := 1

/-- The not-a-number that arithmetic makes. -/
def undefined : Binary64 := .nan computed

/-- The signed magnitude if it is representable, else the infinity of its sign. -/
def ofUnits (negative : Bool) (units : Nat) : Binary64 :=
  if grid : Grid.Representable units then .finite negative units grid else .infinity negative

/-- The double nearest to `num / den` in value, with the given sign. -/
def ofRatio (negative : Bool) (num den : Nat) : Binary64 :=
  ofUnits negative (Grid.nearest (num * Grid.unitsPerOne) den)

/-- The double nearest to an integer; an infinity when it is out of range. -/
def ofInt (n : Int) : Binary64 := ofRatio (n < 0) n.natAbs 1

/-- The double nearest to the natural number `n`. -/
def ofNat (n : Nat) : Binary64 := ofRatio false n 1

instance (n : Nat) : OfNat Binary64 n := ⟨ofNat n⟩

/-- Decimal notation for doubles: the nearest one to the decimal. -/
instance : OfScientific Binary64 where
  ofScientific mantissa isNegative exponent :=
    if isNegative then ofRatio false mantissa (Nat.pow 10 exponent)
    else ofRatio false (mantissa * Nat.pow 10 exponent) 1

/-- The sign mark, which zeros and infinities carry too. -/
def isNegative : Binary64 → Bool
  | .nan _ => false
  | .infinity negative => negative
  | .finite negative _ _ => negative

/-- Whether the double is neither infinite nor not-a-number. -/
def isFinite : Binary64 → Bool
  | .finite _ _ _ => true
  | _ => false

/-- Whether the double is not-a-number. -/
def isNaN : Binary64 → Bool
  | .nan _ => true
  | _ => false

/-- The signed number of units behind a sign mark and a magnitude. -/
def signed (negative : Bool) (units : Nat) : Int :=
  if negative then -(units : Int) else units

/-- The same double with the other sign mark. -/
def neg : Binary64 → Binary64
  | .nan _ => undefined
  | .infinity negative => .infinity !negative
  | .finite negative units grid => .finite (!negative) units grid

/-- The sum, correctly rounded. A sum that is exactly zero is positive unless
both operands carry a minus. -/
def add : Binary64 → Binary64 → Binary64
  | .nan _, _ => undefined
  | _, .nan _ => undefined
  | .infinity s, .infinity t => if s = t then .infinity s else undefined
  | .infinity s, .finite _ _ _ => .infinity s
  | .finite _ _ _, .infinity t => .infinity t
  | .finite s a _, .finite t b _ =>
    let total := signed s a + signed t b
    if total = 0 then zero (s && t)
    else ofUnits (total < 0) (Grid.nearest total.natAbs 1)

/-- The difference, correctly rounded. -/
def sub (x y : Binary64) : Binary64 := add x y.neg

/-- The product, correctly rounded. -/
def mul : Binary64 → Binary64 → Binary64
  | .nan _, _ => undefined
  | _, .nan _ => undefined
  | .infinity s, .infinity t => .infinity (s != t)
  | .infinity s, .finite t b _ => if b = 0 then undefined else .infinity (s != t)
  | .finite s a _, .infinity t => if a = 0 then undefined else .infinity (s != t)
  | .finite s a _, .finite t b _ => ofUnits (s != t) (Grid.nearest (a * b) Grid.unitsPerOne)

/-- The quotient, correctly rounded. Dividing by zero gives an infinity, and
not-a-number for zero by zero. -/
def div : Binary64 → Binary64 → Binary64
  | .nan _, _ => undefined
  | _, .nan _ => undefined
  | .infinity _, .infinity _ => undefined
  | .infinity s, .finite t _ _ => .infinity (s != t)
  | .finite s _ _, .infinity t => zero (s != t)
  | .finite s a _, .finite t b _ =>
    if b = 0 then (if a = 0 then undefined else .infinity (s != t))
    else ofRatio (s != t) a b

/-- The whole number left when the fraction is cut off, for finite doubles. -/
def truncate? : Binary64 → Option Int
  | .finite negative units _ => some (signed negative (units / Grid.unitsPerOne))
  | _ => none

end Binary64

end Montage
