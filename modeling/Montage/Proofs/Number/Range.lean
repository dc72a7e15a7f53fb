import Mathlib.Tactic.Linarith
import Montage.Proofs.Number.Moment

/-!
# Numbers within a range

Up to some magnitude every integer has a double. Far below that, integers and the
sums and differences of moments are doubles themselves or differ little from the
doubles that they are rounded to.
-/

namespace Montage

/-! ## Integers too large for a double -/

/-- A magnitude from which on integers, or their differences, may be too large
for a double. -/
def hugeInteger : Nat := 2 ^ 1022

namespace Number

/-- The number is an integer of huge magnitude. -/
def IsHuge (n : Number) : Prop := ∃ k : Int, n = .int k ∧ hugeInteger ≤ k.natAbs

/-- An integer that is rounded to the magnitude of a finite double has a double. -/
theorem toReal?_int_isSome {k : Int}
    (grid : Grid.Representable (Grid.nearest (k.natAbs * Grid.unitsPerOne) 1)) :
    ((int k).toReal?).isSome = true := by
  have hfinite : (Binary64.ofInt k).isFinite = true := by
    unfold Binary64.ofInt Binary64.ofRatio
    rw [Binary64.ofUnits_of_representable grid]
    rfl
  simp only [toReal?, hfinite, if_true, Option.isSome_some]

/-- An integer whose units are at most those of a finite double has a double. -/
theorem toReal?_int_isSome_of_le {k : Int} {units : Nat} (grid : Grid.Representable units)
    (h : k.natAbs * Grid.unitsPerOne ≤ units) : ((int k).toReal?).isSome = true :=
  toReal?_int_isSome (Grid.representable_nearest_of_le one_pos grid (by rwa [Nat.mul_one]))

/-- An integer with a double is rounded to the magnitude of a finite one. -/
theorem representable_of_toReal?_int {k : Int} (h : ((int k).toReal?).isSome = true) :
    Grid.Representable (Grid.nearest (k.natAbs * Grid.unitsPerOne) 1) := by
  obtain ⟨x, hx⟩ := Option.isSome_iff_exists.mp h
  rw [toReal?, Option.ite_none_right_eq_some] at hx
  by_contra hnone
  have hinfinite : (Binary64.ofInt k).isFinite = false := by
    unfold Binary64.ofInt Binary64.ofRatio Binary64.ofUnits
    rw [dif_neg hnone]
    rfl
  rw [hinfinite] at hx
  cases hx.1

/-- Integers up to twice the huge magnitude have doubles. -/
theorem toReal?_isSome_of_le {k : Int} (h : k.natAbs ≤ 2 * hugeInteger) :
    ((int k).toReal?).isSome = true := by
  have grid : Grid.Representable (2 * hugeInteger * Grid.unitsPerOne) := by decide +kernel
  exact toReal?_int_isSome_of_le grid (Nat.mul_le_mul_right _ h)

/-- What is not huge has a double. -/
theorem toReal?_isSome {n : Number} (h : ¬ n.IsHuge) : n.toReal?.isSome = true := by
  cases n with
  | real x => rfl
  | int k =>
    have hk : ¬ hugeInteger ≤ k.natAbs := fun hle => h ⟨k, rfl, hle⟩
    exact toReal?_isSome_of_le (by omega)

/-- What equals a double has a double. -/
theorem toReal?_isSome_of_equal {n : Number} {x : Binary64} (h : n.equal (.real x) = true) :
    n.toReal?.isSome = true := by
  cases n with
  | real y => rfl
  | int k =>
    obtain ⟨p, hp, hx⟩ := equal_iff.mp h
    cases hp
    cases x with
    | nan origin => cases hx
    | infinity s => cases s <;> cases hx
    | finite s units grid =>
      simp only [place?, Binary64.place?, Option.some.injEq, Place.inner.injEq] at hx
      have hunits : k.natAbs * Grid.unitsPerOne = units := by
        have habs := congrArg Int.natAbs hx
        rw [Int.natAbs_mul, Int.natAbs_natCast] at habs
        rw [← habs]
        cases s <;> simp [Binary64.signed]
      exact toReal?_int_isSome_of_le grid hunits.le

/-- Numbers with doubles can be combined. -/
theorem combine?_isSome {exact : Int → Int → Int} {rounded : Binary64 → Binary64 → Binary64}
    {m n : Number} (hm : m.toReal?.isSome = true) (hn : n.toReal?.isSome = true) :
    (combine? exact rounded m n).isSome = true := by
  obtain ⟨x, hx⟩ := Option.isSome_iff_exists.mp hm
  obtain ⟨y, hy⟩ := Option.isSome_iff_exists.mp hn
  unfold combine?
  split
  · rfl
  · simp [hx, hy]

/-- A number with a double is combined with a double as one. -/
theorem combine?_real {exact : Int → Int → Int} {rounded : Binary64 → Binary64 → Binary64}
    {n : Number} {x : Binary64} (hx : n.toReal? = some x) (y : Binary64) :
    combine? exact rounded n (.real y) = some (.real (rounded x y)) := by
  have hy : (real y).toReal? = some y := rfl
  cases n with
  | int k =>
    simp only [combine?, hx, hy, Option.bind_eq_bind, Option.bind_some, Option.pure_def]
  | real z =>
    simp only [combine?, hx, hy, Option.bind_eq_bind, Option.bind_some, Option.pure_def]

/-- A double is combined with a number that has one as with that double. -/
theorem real_combine? {exact : Int → Int → Int} {rounded : Binary64 → Binary64 → Binary64}
    (x : Binary64) {n : Number} {y : Binary64} (hy : n.toReal? = some y) :
    combine? exact rounded (.real x) n = some (.real (rounded x y)) := by
  have hx : (real x).toReal? = some x := rfl
  simp only [combine?, hx, hy, Option.bind_eq_bind, Option.bind_some, Option.pure_def]

/-- Small integers have finite doubles. -/
theorem exists_toReal?_int {k : Int} (h : k.natAbs ≤ 2 * hugeInteger) :
    ∃ x, (int k).toReal? = some x ∧ x.isFinite = true := by
  obtain ⟨x, hx⟩ := Option.isSome_iff_exists.mp (toReal?_isSome_of_le h)
  have hfinite := hx
  rw [toReal?, Option.ite_none_right_eq_some, Option.some.injEq] at hfinite
  exact ⟨x, hx, hfinite.2 ▸ hfinite.1⟩

/-- What is found to be finite has a double. -/
theorem exists_toReal? {n : Number} (h : n.isFinite? = some true) : ∃ x, n.toReal? = some x := by
  cases n with
  | real x => exact ⟨x, rfl⟩
  | int k =>
    rw [isFinite?, Option.ite_none_right_eq_some] at h
    exact ⟨_, by rw [toReal?, if_pos h.1]⟩

/-- The difference of numbers that are not huge has a double. -/
theorem toReal?_sub?_isSome {m n c : Number} (hm : ¬ m.IsHuge) (hn : ¬ n.IsHuge)
    (h : m.sub? n = some c) : c.toReal?.isSome = true := by
  rcases combine?_eq_some h with ⟨j, k, rfl, rfl, rfl⟩ | ⟨x, y, _, _, rfl⟩
  · have hj : ¬ hugeInteger ≤ j.natAbs := fun hle => hm ⟨j, rfl, hle⟩
    have hk : ¬ hugeInteger ≤ k.natAbs := fun hle => hn ⟨k, rfl, hle⟩
    exact toReal?_isSome_of_le (by omega)
  · rfl

/-- What has a double is found to be finite or not. -/
theorem isFinite?_isSome {n : Number} (h : n.toReal?.isSome = true) :
    n.isFinite?.isSome = true := by
  cases n with
  | real x => rfl
  | int k =>
    obtain ⟨x, hx⟩ := Option.isSome_iff_exists.mp h
    rw [toReal?, Option.ite_none_right_eq_some] at hx
    rw [isFinite?, if_pos hx.1]
    rfl

end Number

/-! ## How far rounding goes -/

/-- A rounded quotient lies within one half of the quotient. -/
theorem roundQuotient_near (num : Nat) {den : Nat} (hd : 0 < den) :
    2 * (roundQuotient num den * den) ≤ 2 * num + den ∧
      2 * num ≤ 2 * (roundQuotient num den * den) + den := by
  have hsplit := Nat.div_add_mod num den
  have hrest := Nat.mod_lt num hd
  rw [Nat.mul_comm] at hsplit
  unfold roundQuotient
  dsimp only
  generalize num / den = quotient at *
  generalize num % den = rest at *
  have hnext : (quotient + 1) * den = quotient * den + den := Nat.succ_mul quotient den
  split
  · omega
  · split
    · omega
    · split <;> omega

/-- A rounded quotient is the whole part or the next number. -/
theorem roundQuotient_within (num den : Nat) :
    num / den ≤ roundQuotient num den ∧ roundQuotient num den ≤ num / den + 1 := by
  unfold roundQuotient
  dsimp only
  generalize num / den = quotient
  generalize num % den = rest
  split_ifs <;> omega

/-- Larger quotients are not rounded to less. -/
theorem roundQuotient_mono {num other den : Nat} (h : num ≤ other) :
    roundQuotient num den ≤ roundQuotient other den := by
  have hdiv : num / den ≤ other / den := Nat.div_le_div_right h
  rcases Nat.eq_or_lt_of_le hdiv with he | hlt
  · -- of the same whole part, the larger one has the larger rest
    have hrest : num % den ≤ other % den := by
      have hsplit := Nat.div_add_mod num den
      have hsplit' := Nat.div_add_mod other den
      rw [he] at hsplit
      omega
    by_cases hup : den < 2 * (other % den)
    · have hother : roundQuotient other den = other / den + 1 := by
        unfold roundQuotient
        dsimp only
        rw [if_neg (by omega), if_pos hup]
      rw [hother, ← he]
      exact (roundQuotient_within num den).2
    · by_cases hdown : 2 * (num % den) < den
      · have hnum : roundQuotient num den = num / den := by
          unfold roundQuotient
          dsimp only
          rw [if_pos hdown]
        rw [hnum, he]
        exact (roundQuotient_within other den).1
      · have hsame : num % den = other % den := by omega
        rw [roundQuotient, roundQuotient, he, hsame]
  · exact (roundQuotient_within num den).2.trans
      (Nat.le_trans hlt (roundQuotient_within other den).1)

namespace Grid

/-- Larger magnitudes are not rounded to less. -/
theorem nearest_mono {a b : Nat} (h : a ≤ b) : nearest a 1 ≤ nearest b 1 := by
  have hlog : a.log2 ≤ b.log2 := by
    rw [Nat.log2_eq_log_two, Nat.log2_eq_log_two]
    exact Nat.log_mono_right h
  rcases Nat.eq_or_lt_of_le hlog with he | hlt
  · have hstep : step a = step b := by rw [step_eq, step_eq, he]
    simp only [nearest, Nat.div_one, Nat.one_mul, hstep]
    exact Nat.mul_le_mul_right _ (roundQuotient_mono h)
  · -- a power of two lies between the magnitudes
    have hb : b ≠ 0 := by
      rintro rfl
      exact absurd hlt (Nat.not_lt_zero _)
    have hpower : step (2 ^ b.log2) ∣ 2 ^ b.log2 := by
      simpa using step_dvd_of_le (q := 1) (e := b.log2) (by norm_num)
    have hbelow : a ≤ 2 ^ b.log2 := by
      rcases Nat.eq_zero_or_pos a with rfl | ha
      · exact Nat.zero_le _
      · exact ((Nat.log2_lt ha.ne').mp hlt).le
    calc nearest a 1 ≤ 2 ^ b.log2 := nearest_le one_pos hpower (by rwa [Nat.mul_one])
      _ ≤ nearest b 1 := le_nearest one_pos hpower (by
        rw [Nat.mul_one]
        exact Nat.log2_self_le hb)

/-- Whole numbers of units are rounded by at most half of a step. -/
theorem nearest_near {units exponent : Nat} (h : units < 2 ^ (exponent + 54)) :
    nearest units 1 ≤ units + 2 ^ exponent ∧ units ≤ nearest units 1 + 2 ^ exponent := by
  have hstep : step units ≤ 2 * 2 ^ exponent := by
    rcases Nat.eq_zero_or_pos units with rfl | hpos
    · exact Nat.one_le_two_pow.trans (Nat.le_mul_of_pos_left _ two_pos)
    have hlog : units.log2 < exponent + 54 := (Nat.log2_lt hpos.ne').mpr h
    calc step units = 2 ^ (units.log2 - 52) := step_eq units
      _ ≤ 2 ^ (exponent + 1) := Nat.pow_le_pow_right two_pos (by omega)
      _ = 2 * 2 ^ exponent := by ring
  obtain ⟨hup, hdown⟩ := roundQuotient_near units (step_pos units)
  have hnearest : nearest units 1 = roundQuotient units (step units) * step units := by
    rw [nearest, Nat.div_one, Nat.one_mul]
  rw [hnearest]
  omega

end Grid

namespace Binary64

/-- The magnitude of a finite double in units. -/
def units : Binary64 → Nat
  | .finite _ units _ => units
  | _ => 0

/-- A double that stands from zero on has its place as magnitude. -/
theorem exists_finite_of_place {x : Binary64} {a : Nat} (hx : x.place? = some (.inner a)) :
    ∃ s grid, x = .finite s a grid ∧ signed s a = a := by
  obtain ⟨s, b, grid, rfl, hb⟩ := isMoment_iff.mp ⟨a, hx⟩
  rw [place?, hb, Option.some.injEq, Place.inner.injEq] at hx
  obtain rfl : b = a := by exact_mod_cast hx
  exact ⟨s, grid, rfl, hb⟩

variable {x y : Binary64} {a b : Nat}

/-- The sum of two moments is rounded once. It is infinite if there is no double
where it is rounded to. -/
theorem place?_add (hx : x.place? = some (.inner a)) (hy : y.place? = some (.inner b)) :
    (x.add y).place? = some (.inner (Grid.nearest (a + b) 1 : Nat)) ∨
      x.add y = .infinity false ∧ ¬ Grid.Representable (Grid.nearest (a + b) 1) := by
  obtain ⟨s, ga, rfl, ha⟩ := exists_finite_of_place hx
  obtain ⟨t, gb, rfl, hb⟩ := exists_finite_of_place hy
  have htotal : (a : Int) + b = (a + b : Nat) := by push_cast; rfl
  simp only [add, ha, hb, htotal, Int.natCast_eq_zero, Int.natAbs_natCast]
  split
  · next hzero =>
    left
    rw [hzero, Grid.nearest_of_dvd (Nat.dvd_zero _)]
    cases s && t <;> rfl
  · have hsign : decide (((a + b : Nat) : Int) < 0) = false := by
      rw [decide_eq_false_iff_not]
      omega
    rw [hsign, ofUnits]
    split
    · exact .inl rfl
    · next hnone => exact .inr ⟨rfl, hnone⟩

/-- The difference of two moments is rounded once. -/
theorem place?_sub (hx : x.place? = some (.inner a)) (hy : y.place? = some (.inner b))
    (h : b ≤ a) : (x.sub y).place? = some (.inner (Grid.nearest (a - b) 1 : Nat)) := by
  obtain ⟨s, ga, rfl, ha⟩ := exists_finite_of_place hx
  obtain ⟨t, gb, rfl, hb⟩ := exists_finite_of_place hy
  have htotal : (a : Int) + -b = (a - b : Nat) := by omega
  simp only [sub, neg, add, signed_not, ha, hb, htotal, Int.natCast_eq_zero, Int.natAbs_natCast]
  split
  · next hzero =>
    rw [hzero, Grid.nearest_of_dvd (Nat.dvd_zero _)]
    cases s && !t <;> rfl
  · have hsign : decide (((a - b : Nat) : Int) < 0) = false := by
      rw [decide_eq_false_iff_not]
      omega
    have hgrid : Grid.Representable (Grid.nearest (a - b) 1) :=
      Grid.representable_nearest_of_le one_pos ga (by omega)
    rw [hsign, ofUnits_of_representable hgrid]
    rfl

/-- What is taken from a moment that is not larger leaves nothing above zero. -/
theorem exists_place?_sub_nonpos (hx : x.place? = some (.inner a))
    (hy : y.place? = some (.inner b)) (h : a ≤ b) :
    ∃ c : Int, (x.sub y).place? = some (.inner c) ∧ c ≤ 0 := by
  obtain ⟨s, ga, rfl, ha⟩ := exists_finite_of_place hx
  obtain ⟨t, gb, rfl, hb⟩ := exists_finite_of_place hy
  simp only [sub, neg, add, signed_not, ha, hb]
  split
  · exact ⟨0, by cases s && !t <;> rfl, le_rfl⟩
  · have hsign : decide ((a : Int) + -b < 0) = true := by
      rw [decide_eq_true_eq]
      omega
    have hgrid : Grid.Representable (Grid.nearest ((a : Int) + -b).natAbs 1) :=
      Grid.representable_nearest_of_le one_pos gb (by omega)
    rw [hsign, ofUnits_of_representable hgrid]
    exact ⟨_, rfl, by simp [signed]⟩

end Binary64

namespace Number

variable {m n c : Number} {a b : Nat}

/-- An integer that is a moment stands where it is counted to. -/
theorem natAbs_mul_of_place {k : Int} (h : (int k).place? = some (.inner a)) :
    k.natAbs * Grid.unitsPerOne = a := by
  simp only [place?, Option.some.injEq, Place.inner.injEq] at h
  have habs := congrArg Int.natAbs h
  rwa [Int.natAbs_mul, Int.natAbs_natCast, Int.natAbs_natCast] at habs

/-- As a double a moment stands where it is rounded to. -/
theorem place?_toReal? {x : Binary64} (hn : n.place? = some (.inner a)) (h : n.toReal? = some x) :
    x.place? = some (.inner (Grid.nearest a 1 : Nat)) := by
  cases n with
  | real y =>
    cases h
    obtain ⟨s, grid, rfl, hs⟩ := Binary64.exists_finite_of_place hn
    rw [Grid.nearest_of_dvd grid.2]
    exact hn
  | int k =>
    have hpos : 0 ≤ k := isMoment_int.mp ⟨a, hn⟩
    have hsign : decide (k < 0) = false := by simpa using hpos
    simp only [toReal?, Binary64.ofInt, Binary64.ofRatio, hsign, natAbs_mul_of_place hn] at h
    rcases Binary64.ofUnits_cases false (Grid.nearest a 1) with ⟨grid, he⟩ | he
    · rw [he] at h
      cases h
      rfl
    · rw [he] at h
      cases h

/-- A sum of moments is exact, or rounded like its parts. -/
theorem place?_add? (hm : m.place? = some (.inner a)) (hn : n.place? = some (.inner b))
    (h : m.add? n = some c) :
    c.place? = some (.inner (a + b : Nat)) ∨
      c.place? = some (.inner (Grid.nearest (Grid.nearest a 1 + Grid.nearest b 1) 1 : Nat)) ∨
      c = .real (.infinity false) ∧
        ¬ Grid.Representable (Grid.nearest (Grid.nearest a 1 + Grid.nearest b 1) 1) := by
  rcases combine?_eq_some h with ⟨j, k, rfl, rfl, rfl⟩ | ⟨x, y, hx, hy, rfl⟩
  · left
    simp only [place?, Option.some.injEq, Place.inner.injEq] at hm hn ⊢
    rw [Int.add_mul, hm, hn]
    push_cast
    rfl
  · right
    rcases Binary64.place?_add (place?_toReal? hm hx) (place?_toReal? hn hy) with hp | ⟨hp, hnone⟩
    · exact .inl hp
    · exact .inr ⟨by rw [hp], hnone⟩

/-- What a double is added to as a double is not below what was not above the
double before. -/
theorem add_not_lt {x y : Binary64} {o : Nat} (hn : n.place? = some (.inner a))
    (hx : n.toReal? = some x) (hy : (real y).place? = some (.inner b))
    (hm : m.place? = some (.inner o)) (h : o ≤ Grid.nearest a 1) :
    (real (x.add y)).lt m = false := by
  rcases Binary64.place?_add (place?_toReal? hn hx) hy with hp | ⟨hp, _⟩
  · have hsum : (real (x.add y)).place? = some (.inner _) := hp
    rw [lt_of_places hsum hm, decide_eq_false_iff_not, Int.ofNat_lt, Nat.not_lt]
    exact h.trans (Grid.le_nearest one_pos (Grid.step_dvd_nearest one_pos) (by omega))
  · rw [hp, lt, hm]
    rfl

/-- What is taken from a moment that is not larger leaves nothing above zero. -/
theorem exists_place?_sub?_nonpos (hm : m.place? = some (.inner a))
    (hn : n.place? = some (.inner b)) (h : m.sub? n = some c) (hle : a ≤ b) :
    ∃ units : Int, c.place? = some (.inner units) ∧ units ≤ 0 := by
  rcases combine?_eq_some h with ⟨i, j, rfl, rfl, rfl⟩ | ⟨x, y, hx, hy, rfl⟩
  · simp only [place?, Option.some.injEq, Place.inner.injEq] at hm hn
    refine ⟨_, rfl, ?_⟩
    rw [Int.sub_mul, hm, hn]
    omega
  · exact Binary64.exists_place?_sub_nonpos (place?_toReal? hm hx) (place?_toReal? hn hy)
      (Grid.nearest_mono hle)

/-- When a moment is taken from another one and some length is left, it is the
smaller one. -/
theorem lt_of_sub?_not_lt {k : Number} {length : Int} (hm : m.place? = some (.inner a))
    (hn : n.place? = some (.inner b)) (hk : k.place? = some (.inner length)) (pos : 0 < length)
    (h : m.sub? n = some c) (long : c.lt k = false) : b < a := by
  by_contra hnot
  obtain ⟨units, hc, hunits⟩ := exists_place?_sub?_nonpos hm hn h (Nat.le_of_not_lt hnot)
  rw [lt_of_places hc hk, decide_eq_false_iff_not] at long
  omega

/-- What stands below a moment that has a double has a double. -/
theorem toReal?_isSome_of_place_le (hm : m.place? = some (.inner a))
    (hn : n.place? = some (.inner b)) (hle : a ≤ b) (h : n.toReal?.isSome = true) :
    m.toReal?.isSome = true := by
  cases m with
  | real x => rfl
  | int k =>
    obtain ⟨y, hy⟩ := Option.isSome_iff_exists.mp h
    obtain ⟨_, grid, _, _⟩ := Binary64.exists_finite_of_place (place?_toReal? hn hy)
    refine toReal?_int_isSome ?_
    rw [natAbs_mul_of_place hm]
    exact Grid.representable_nearest one_pos ((Grid.nearest_mono hle).trans_lt grid.1)

/-- What is not larger in magnitude than an integer with a double has a double. -/
theorem toReal?_int_isSome_of_natAbs_le {j k : Int} (h : j.natAbs ≤ k.natAbs)
    (hk : ((int k).toReal?).isSome = true) : ((int j).toReal?).isSome = true := by
  have grid := representable_of_toReal?_int hk
  refine toReal?_int_isSome (Grid.representable_nearest one_pos ?_)
  exact (Grid.nearest_mono (Nat.mul_le_mul_right _ h)).trans_lt grid.1

/-- The magnitude up to which every integer is a double. -/
def exactRange : Nat := 2 ^ 53 * Grid.unitsPerOne

/-- The largest exact integer is a double. -/
theorem representable_exactRange : Grid.Representable exactRange :=
  Grid.representable_of_le le_rfl

/-- Moments up to the largest exact integer stand on the grid of doubles. -/
theorem step_dvd_of_place (hn : n.place? = some (.inner a)) (h : a ≤ exactRange) :
    Grid.step a ∣ a := by
  cases n with
  | real x =>
    obtain ⟨s, grid, rfl, _⟩ := Binary64.exists_finite_of_place hn
    exact grid.2
  | int k =>
    rw [← natAbs_mul_of_place hn] at h ⊢
    have hcount : k.natAbs ≤ 2 ^ 53 := Nat.le_of_mul_le_mul_right h Grid.unitsPerOne_pos
    rw [Grid.unitsPerOne_eq]
    exact Grid.step_dvd_of_le hcount

/-- Moments up to the largest exact integer have doubles. -/
theorem toReal?_isSome_of_place (hn : n.place? = some (.inner a)) (h : a ≤ exactRange) :
    n.toReal?.isSome = true := by
  cases n with
  | real x => rfl
  | int k =>
    exact toReal?_int_isSome_of_le representable_exactRange (by rwa [natAbs_mul_of_place hn])

/-- The magnitude below which rounding moves a number by no more than the slack:
`2 ^ 32` seconds. -/
def moderateRange : Nat := 2 ^ 32 * Grid.unitsPerOne

/-- How far rounding moves a number of moderate size at most: by `2 ^ -22` seconds. -/
def slack : Nat := 2 ^ 1052

/-- Numbers of moderate size are rounded by no more than the slack. -/
theorem nearest_moderate (h : a < moderateRange) :
    Grid.nearest a 1 ≤ a + slack ∧ a ≤ Grid.nearest a 1 + slack := by
  have hpower : moderateRange = 2 ^ (1052 + 54) := by
    rw [moderateRange, Grid.unitsPerOne_eq, ← pow_add]
  exact Grid.nearest_near (hpower ▸ h)

/-- Numbers of moderate size stand in the exact range. -/
theorem moderateRange_le : moderateRange ≤ exactRange :=
  Nat.mul_le_mul_right _ (by norm_num)

/-- Sums of moderate size are off by no more than the slack, and not below a part. -/
theorem exists_place?_add? (hm : m.place? = some (.inner a)) (hn : n.place? = some (.inner b))
    (moderate : a + b < moderateRange) (h : m.add? n = some c) :
    ∃ sum : Nat, c.place? = some (.inner sum) ∧ sum ≤ a + b + slack ∧ a + b ≤ sum + slack ∧
      a ≤ sum := by
  have hrange := moderateRange_le
  have hgrid := step_dvd_of_place hm (by omega)
  have hrounded := Grid.nearest_of_dvd hgrid
  have hrounded' := Grid.nearest_of_dvd (step_dvd_of_place hn (by omega))
  obtain ⟨hup, hdown⟩ := nearest_moderate moderate
  have hplace := place?_add? hm hn h
  rw [hrounded, hrounded'] at hplace
  rcases hplace with hp | hp | ⟨_, hnone⟩
  · exact ⟨a + b, hp, by omega, by omega, by omega⟩
  · exact ⟨_, hp, hup, hdown, Grid.le_nearest one_pos hgrid (by omega)⟩
  · exact absurd
      (Grid.representable_nearest_of_le one_pos representable_exactRange (by omega)) hnone

/-- Differences of moderate size are there, are off by no more than the slack and
do not fall below a magnitude of the grid. -/
theorem exists_place?_sub? (hm : m.place? = some (.inner a)) (hn : n.place? = some (.inner b))
    (ordered : b ≤ a) (moderate : a < moderateRange) :
    ∃ c, m.sub? n = some c ∧ ∃ difference : Nat, c.place? = some (.inner difference) ∧
      difference ≤ a ∧ difference ≤ a - b + slack ∧
      ∀ low, Grid.step low ∣ low → low ≤ a - b → low ≤ difference := by
  have hrange := moderateRange_le
  have hgrid := step_dvd_of_place hm (by omega)
  have hrounded := Grid.nearest_of_dvd hgrid
  have hrounded' := Grid.nearest_of_dvd (step_dvd_of_place hn (by omega))
  have hup := (nearest_moderate (show a - b < moderateRange by omega)).1
  obtain ⟨c, h⟩ := Option.isSome_iff_exists.mp (combine?_isSome
    (toReal?_isSome_of_place hm (by omega)) (toReal?_isSome_of_place hn (by omega)))
  refine ⟨c, h, ?_⟩
  rcases combine?_eq_some h with ⟨j, k, rfl, rfl, rfl⟩ | ⟨x, y, hx, hy, rfl⟩
  · refine ⟨a - b, ?_, Nat.sub_le a b, Nat.le_add_right _ _, fun low _ hlow => hlow⟩
    simp only [place?, Option.some.injEq, Place.inner.injEq] at hm hn ⊢
    rw [Int.sub_mul, hm, hn, Int.ofNat_sub ordered]
  · have hfirst := place?_toReal? hm hx
    have hsecond := place?_toReal? hn hy
    rw [hrounded] at hfirst
    rw [hrounded'] at hsecond
    refine ⟨_, Binary64.place?_sub hfirst hsecond ordered, ?_, hup, fun low hlow hle => ?_⟩
    · exact Grid.nearest_le one_pos hgrid (by omega)
    · exact Grid.le_nearest one_pos hlow (by omega)

end Number

end Montage
