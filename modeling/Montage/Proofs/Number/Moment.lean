import Montage.Proofs.Number.Order
import Montage.Proofs.Number.Rounding
import Montage.Number.Basic

/-!
# Finite numbers that are not negative

Trim points, durations and split points are moments: finite numbers from zero
on. The difference of two moments is finite, and their sum is a moment or, as a
double, so large that it becomes infinite. A clock that advances by finite
steps never turns into not-a-number, and one that advances by moments never goes
back.
-/

namespace Montage

/-- A finite number that is at least zero. -/
def Number.IsMoment (n : Number) : Prop := ∃ units : Nat, n.place? = some (.inner units)

namespace Binary64

/-- The other sign mark gives the opposite number. -/
theorem signed_not (s : Bool) (a : Nat) : signed (!s) a = -signed s a := by
  cases s <;> simp [signed]

/-- A magnitude of the grid is that of a finite double. -/
theorem ofUnits_of_representable {s : Bool} {units : Nat} (grid : Grid.Representable units) :
    ofUnits s units = .finite s units grid := by
  simp [ofUnits, grid]

/-- An integer of at most 53 digits is itself as a double. -/
theorem ofNat_eq {n : Nat} (h : n ≤ 2 ^ 53) :
    ofNat n = .finite false (n * Grid.unitsPerOne) (Grid.representable_of_le h) := by
  unfold ofNat ofRatio
  rw [Grid.nearest_of_dvd (Grid.representable_of_le h).2]
  exact ofUnits_of_representable _

/-- It stands where the integer stands. -/
theorem place?_ofNat {n : Nat} (h : n ≤ 2 ^ 53) :
    (Number.real (ofNat n)).place? = (Number.int n).place? := by
  rw [ofNat_eq h, Number.place?, Number.place?, place?, signed, if_neg Bool.false_ne_true,
    Int.natCast_mul]

/-- A fraction of one has a finite double. -/
theorem ofRatio_isFinite {s : Bool} {num den : Nat} (hd : 0 < den) (h : num ≤ den) :
    (ofRatio s num den).isFinite = true := by
  have hone : Grid.Representable Grid.unitsPerOne := by
    simpa using Grid.representable_of_le (q := 1) (by norm_num)
  have hscaled : num * Grid.unitsPerOne ≤ Grid.unitsPerOne * den := by
    rw [Nat.mul_comm num]
    exact Nat.mul_le_mul_left _ h
  unfold ofRatio
  rw [ofUnits_of_representable (Grid.representable_nearest_of_le hd hone hscaled)]
  rfl

/-- What is counted in units is a finite double or the infinity of its sign. -/
theorem ofUnits_cases (s : Bool) (units : Nat) :
    (∃ grid, ofUnits s units = .finite s units grid) ∨ ofUnits s units = .infinity s := by
  unfold ofUnits
  split
  · next grid => exact .inl ⟨grid, rfl⟩
  · exact .inr rfl

/-- A double is a moment when it is finite and its signed magnitude is its
magnitude. -/
theorem isMoment_iff {x : Binary64} :
    (Number.real x).IsMoment ↔ ∃ s a grid, x = .finite s a grid ∧ signed s a = a := by
  constructor
  · rintro ⟨units, h⟩
    cases x with
    | nan origin => simp [Number.place?, place?] at h
    | infinity s => cases s <;> simp [Number.place?, place?] at h
    | finite s a grid =>
      simp only [Number.place?, place?, Option.some.injEq, Place.inner.injEq] at h
      refine ⟨s, a, grid, rfl, ?_⟩
      cases s with
      | false => rfl
      | true =>
        simp only [signed, if_true] at h ⊢
        omega
  · rintro ⟨s, a, grid, rfl, h⟩
    exact ⟨a, by simp [Number.place?, place?, h]⟩

/-- A finite double above zero is a moment. -/
theorem isMoment_of_pos {x : Binary64} (finite : x.isFinite = true)
    (pos : (Number.real 0).lt (.real x) = true) : (Number.real x).IsMoment := by
  cases x with
  | nan origin => cases finite
  | infinity s => cases finite
  | finite s a grid =>
    rw [Number.lt_of_places Number.place?_real_zero rfl, decide_eq_true_eq] at pos
    exact ⟨(signed s a).toNat, by
      rw [Number.place?, place?, Int.toNat_of_nonneg (Int.le_of_lt pos)]⟩

/-- The difference of two moments is finite: it is at most the larger one. -/
theorem sub_isFinite {x y : Binary64} (hx : (Number.real x).IsMoment)
    (hy : (Number.real y).IsMoment) : (x.sub y).isFinite = true := by
  obtain ⟨s, a, ga, rfl, ha⟩ := isMoment_iff.mp hx
  obtain ⟨t, b, gb, rfl, hb⟩ := isMoment_iff.mp hy
  simp only [sub, neg, add, signed_not, ha, hb]
  split
  · rfl
  · have hgrid : Grid.Representable (Grid.nearest ((a : Int) + -b).natAbs 1) := by
      rcases Nat.le_total a b with h | h
      · exact Grid.representable_nearest_of_le Nat.one_pos gb (by omega)
      · exact Grid.representable_nearest_of_le Nat.one_pos ga (by omega)
    rw [ofUnits_of_representable hgrid]
    rfl

/-- The sum of two moments is a moment unless it is too large for a finite
double. -/
theorem add_moments {x y : Binary64} (hx : (Number.real x).IsMoment)
    (hy : (Number.real y).IsMoment) :
    (Number.real (x.add y)).IsMoment ∨ x.add y = .infinity false := by
  obtain ⟨s, a, ga, rfl, ha⟩ := isMoment_iff.mp hx
  obtain ⟨t, b, gb, rfl, hb⟩ := isMoment_iff.mp hy
  simp only [add, ha, hb]
  split
  · exact .inl ⟨0, by cases s && t <;> rfl⟩
  · have hsign : decide ((a : Int) + b < 0) = false := by
      rw [decide_eq_false_iff_not]
      omega
    rw [hsign]
    rcases ofUnits_cases false (Grid.nearest ((a : Int) + b).natAbs 1) with ⟨grid, he⟩ | he
    · exact .inl (isMoment_iff.mpr ⟨false, _, grid, he, rfl⟩)
    · exact .inr he

/-- What a clock can show that begins at zero and only advances. -/
def IsTime (x : Binary64) : Prop := (Number.real x).IsMoment ∨ x = .infinity false

/-- A clock that begins at zero shows a time. -/
theorem isTime_zero : (0 : Binary64).IsTime := .inl ⟨0, Number.place?_real_zero⟩

/-- A time has a place on the line. -/
theorem IsTime.exists_place {x : Binary64} (hx : x.IsTime) : ∃ p, x.place? = some p := by
  rcases hx with ⟨units, h⟩ | rfl
  · exact ⟨_, h⟩
  · exact ⟨_, rfl⟩

/-- A clock that advances by a moment shows a time again. -/
theorem IsTime.add {x y : Binary64} (hx : x.IsTime) (hy : (Number.real y).IsMoment) :
    (x.add y).IsTime := by
  rcases hx with hx | rfl
  · exact add_moments hx hy
  · obtain ⟨s, a, grid, rfl, _⟩ := isMoment_iff.mp hy
    exact .inr rfl

/-- A clock that advances by a moment does not go back. -/
theorem IsTime.add_not_lt {x y : Binary64} (hx : x.IsTime) (hy : (Number.real y).IsMoment) :
    (Number.real (x.add y)).lt (.real x) = false := by
  obtain ⟨t, b, gb, rfl, hb⟩ := isMoment_iff.mp hy
  rcases hx with hx | rfl
  · obtain ⟨s, a, ga, rfl, ha⟩ := isMoment_iff.mp hx
    have hold : (Number.real (.finite s a ga)).place? = some (.inner a) := by
      rw [Number.place?, place?, ha]
    simp only [Binary64.add, ha, hb]
    split
    · next hzero =>
      have hnew : (Number.real (zero (s && t))).place? = some (.inner 0) := by
        cases s && t <;> rfl
      rw [Number.lt_of_places hnew hold, decide_eq_false_iff_not]
      omega
    · have hsign : decide ((a : Int) + b < 0) = false := by
        rw [decide_eq_false_iff_not]
        omega
      rw [hsign]
      have hle : a ≤ Grid.nearest ((a : Int) + b).natAbs 1 :=
        Grid.le_nearest Nat.one_pos ga.2 (by omega)
      rcases ofUnits_cases false (Grid.nearest ((a : Int) + b).natAbs 1) with ⟨grid, he⟩ | he
      · have hnew : (Number.real (.finite false _ grid)).place? = some (.inner _) := rfl
        rw [he, Number.lt_of_places hnew hold, decide_eq_false_iff_not, signed]
        simpa using hle
      · rw [he, Number.lt, hold]
        rfl
  · rfl

/-- Rounding gives a number. -/
theorem ofUnits_isNaN (s : Bool) (units : Nat) : (ofUnits s units).isNaN = false := by
  rcases ofUnits_cases s units with ⟨grid, he⟩ | he
  · rw [he]
    rfl
  · rw [he]
    rfl

/-- What stands on the line is a number. -/
theorem isNaN_of_place {x : Binary64} {p : Place} (h : x.place? = some p) : x.isNaN = false := by
  cases x with
  | nan origin => cases h
  | infinity s => rfl
  | finite s a grid => rfl

/-- What is a number stands on the line. -/
theorem exists_place_of_isNaN {x : Binary64} (h : x.isNaN = false) : ∃ p, x.place? = some p := by
  cases x with
  | nan origin => cases h
  | infinity s => exact ⟨_, rfl⟩
  | finite s a grid => exact ⟨_, rfl⟩

/-- Zero is a number. -/
theorem isNaN_zero : (0 : Binary64).isNaN = false := isNaN_of_place Number.place?_real_zero

/-- A clock that is a number stays one when it advances by a finite step. -/
theorem add_isNaN {x y : Binary64} (hx : x.isNaN = false) (hy : y.isFinite = true) :
    (x.add y).isNaN = false := by
  cases y with
  | nan origin => simp [isFinite] at hy
  | infinity t => simp [isFinite] at hy
  | finite t b gb =>
    cases x with
    | nan origin => simp [isNaN] at hx
    | infinity s => rfl
    | finite s a ga =>
      simp only [add]
      split
      · rfl
      · exact ofUnits_isNaN _ _

/-- The order of what is added does not matter. -/
theorem add_comm (x y : Binary64) : x.add y = y.add x := by
  cases x with
  | nan origin => cases y <;> rfl
  | infinity s =>
    cases y with
    | infinity t => cases s <;> cases t <;> rfl
    | _ => rfl
  | finite s a ga =>
    cases y with
    | finite t b gb => simp only [add, Int.add_comm (signed s a), Bool.and_comm s]
    | _ => rfl

/-- A number from which something finite is taken stays one. -/
theorem sub_isNaN {x y : Binary64} (hx : x.isNaN = false) (hy : y.isFinite = true) :
    (x.sub y).isNaN = false := by
  refine add_isNaN hx ?_
  cases y with
  | finite t b gb => rfl
  | _ => cases hy

/-- The product of finite doubles is a number. -/
theorem mul_isNaN {x y : Binary64} (hx : x.isFinite = true) (hy : y.isFinite = true) :
    (x.mul y).isNaN = false := by
  cases x with
  | finite s a ga =>
    cases y with
    | finite t b gb => exact ofUnits_isNaN _ _
    | _ => cases hy
  | _ => cases hx

end Binary64

namespace Number

/-! ## Small integers as doubles -/

section Whole

variable {m : Nat} (hm : m ≤ 2 ^ 53)
include hm

/-- What is below an integer is below its double. -/
theorem lt_ofNat (n : Number) : n.lt (real (.ofNat m)) = n.lt (int m) := by
  rw [lt, lt, Binary64.place?_ofNat hm]

/-- What is above an integer is above its double. -/
theorem ofNat_lt (n : Number) : (real (.ofNat m)).lt n = (int m).lt n := by
  rw [lt, lt, Binary64.place?_ofNat hm]

/-- What is between zero and the double of an integer is between zero and it. -/
theorem between_ofNat {k : Int} (hlow : (real 0).lt (int k) = true)
    (hhigh : (int k).lt (real (.ofNat m)) = true) : 0 < k ∧ k < m := by
  have hzero : (real 0).lt (int k) = (int 0).lt (int k) := ofNat_lt (Nat.zero_le _) _
  rw [hzero, lt_int] at hlow
  rw [lt_ofNat hm, lt_int] at hhigh
  exact ⟨of_decide_eq_true hlow, of_decide_eq_true hhigh⟩

/-- The integer becomes its double. -/
theorem toReal?_ofNat : (int m).toReal? = some (.ofNat m) := by
  have hsign : Binary64.ofInt m = .ofNat m := by
    rw [Binary64.ofInt, Binary64.ofNat, decide_eq_false (by omega), Int.natAbs_natCast]
  rw [toReal?, hsign, Binary64.ofNat_eq hm]
  rfl

end Whole

/-! ## Arithmetic -/

/-- An integer has a quotient by every integer that is at least as large. -/
theorem exists_div?_int {m n : Int} (hn : n ≠ 0) (h : m.natAbs ≤ n.natAbs) :
    ∃ x, (int m).div? (int n) = some x := by
  have hd : 0 < n.natAbs := Int.natAbs_pos.mpr hn
  refine ⟨Binary64.ofRatio (decide (m < 0) != decide (n < 0)) m.natAbs n.natAbs, ?_⟩
  simp only [div?, hn, if_false, Binary64.ofRatio_isFinite hd h, if_true]

/-- A double can be divided by whatever has a double. -/
theorem div?_real (x : Binary64) {n : Number} {y : Binary64} (h : n.toReal? = some y) :
    (real x).div? n = some (x.div y) := by
  have hx : (real x).toReal? = some x := rfl
  simp only [div?, hx, h, Option.pure_def, Option.bind_eq_bind, Option.bind_some]

/-- The integers from zero on are moments. -/
theorem isMoment_int {n : Int} : (Number.int n).IsMoment ↔ 0 ≤ n := by
  have hu : (0 : Int) < Grid.unitsPerOne := by exact_mod_cast Grid.unitsPerOne_pos
  constructor
  · rintro ⟨units, h⟩
    simp only [place?, Option.some.injEq, Place.inner.injEq] at h
    by_contra hn
    have hneg : n * Grid.unitsPerOne < 0 := Int.mul_neg_of_neg_of_pos (by omega) hu
    omega
  · intro h
    have hwhole : (n.toNat : Int) = n := Int.toNat_of_nonneg h
    refine ⟨n.toNat * Grid.unitsPerOne, ?_⟩
    rw [place?, Int.natCast_mul, hwhole]

/-- A moment that is near a finite double gives a moment as a double. -/
theorem toReal?_isMoment {n : Number} {x : Binary64} (hn : n.IsMoment)
    (h : n.toReal? = some x) : (Number.real x).IsMoment := by
  cases n with
  | real y =>
    simp only [toReal?, Option.some.injEq] at h
    rwa [← h]
  | int n =>
    have hpos := isMoment_int.mp hn
    have hsign : decide (n < 0) = false := by simpa using hpos
    simp only [toReal?, Binary64.ofInt, Binary64.ofRatio, hsign] at h
    rcases Binary64.ofUnits_cases false (Grid.nearest (n.natAbs * Grid.unitsPerOne) 1) with
      ⟨grid, he⟩ | he
    · rw [he] at h
      simp only [Binary64.isFinite, if_true, Option.some.injEq] at h
      exact Binary64.isMoment_iff.mpr ⟨false, _, grid, h.symm, rfl⟩
    · rw [he] at h
      simp [Binary64.isFinite] at h

/-- An integer is a number as a double, if it is one. -/
theorem toReal?_isNaN_of_int {k : Int} {x : Binary64} (h : (int k).toReal? = some x) :
    x.isNaN = false := by
  rw [toReal?, Option.ite_none_right_eq_some, Option.some.injEq] at h
  obtain ⟨hfinite, rfl⟩ := h
  cases hx : Binary64.ofInt k with
  | nan origin =>
    rw [hx] at hfinite
    cases hfinite
  | infinity s => rfl
  | finite s a grid => rfl

/-- What stands on the line is a number as a double, too. -/
theorem isNaN_of_toReal? {n : Number} {p : Place} {x : Binary64} (hn : n.place? = some p)
    (h : n.toReal? = some x) : x.isNaN = false := by
  cases n with
  | real y =>
    cases h
    exact Binary64.isNaN_of_place hn
  | int k => exact toReal?_isNaN_of_int h

/-- Whole numbers are combined exactly, others as doubles. -/
theorem combine?_eq_some {exact : Int → Int → Int} {rounded : Binary64 → Binary64 → Binary64}
    {a b c : Number} (h : combine? exact rounded a b = some c) :
    (∃ m n, a = .int m ∧ b = .int n ∧ c = .int (exact m n)) ∨
      ∃ x y, a.toReal? = some x ∧ b.toReal? = some y ∧ c = .real (rounded x y) := by
  unfold combine? at h
  split at h
  · next m n =>
    cases h
    exact .inl ⟨m, n, rfl, rfl, rfl⟩
  · simp only [bind, Option.bind_eq_some_iff, pure, Option.some.injEq] at h
    obtain ⟨x, hx, y, hy, rfl⟩ := h
    exact .inr ⟨x, y, hx, hy, rfl⟩

/-- The difference of two moments is finite as a double. -/
theorem sub?_isFinite {a b c : Number} {x : Binary64} (ha : a.IsMoment) (hb : b.IsMoment)
    (h : a.sub? b = some c) (hx : c.toReal? = some x) : x.isFinite = true := by
  rcases combine?_eq_some h with ⟨m, n, rfl, rfl, rfl⟩ | ⟨y, z, hy, hz, rfl⟩
  · simp only [toReal?, Option.ite_none_right_eq_some, Option.some.injEq] at hx
    rw [← hx.2]
    exact hx.1
  · simp only [toReal?, Option.some.injEq] at hx
    rw [← hx]
    exact Binary64.sub_isFinite (toReal?_isMoment ha hy) (toReal?_isMoment hb hz)

/-- The sum of two moments is a moment or the infinite double. -/
theorem add?_moments {a b c : Number} (ha : a.IsMoment) (hb : b.IsMoment)
    (h : a.add? b = some c) : c.IsMoment ∨ c = .real (.infinity false) := by
  rcases combine?_eq_some h with ⟨m, n, rfl, rfl, rfl⟩ | ⟨x, y, hx, hy, rfl⟩
  · rw [isMoment_int] at *
    exact .inl (by omega)
  · rcases Binary64.add_moments (toReal?_isMoment ha hx) (toReal?_isMoment hb hy) with hm | hm
    · exact .inl hm
    · exact .inr (by rw [hm])

end Number

end Montage
