import Montage.Number.Basic

/-!
# Numbers on the line

Equality and order of numbers are those of their places, so integers compare as
integers. Agreement is equality together with sameness, which makes it an
equivalence of all numbers.
-/

namespace Montage

/-- There are units in one. -/
theorem Grid.unitsPerOne_pos : 0 < Grid.unitsPerOne := by decide +kernel

/-- What is not before something that is not before a third thing is not before
that one. -/
theorem Place.not_lt_trans {p q r : Place} (hpq : q.lt p = false) (hqr : r.lt q = false) :
    r.lt p = false := by
  cases p <;> cases q <;> cases r <;> simp_all [Place.lt]
  omega

/-- What is before something that is before a third thing is before that one. -/
theorem Place.lt_trans {p q r : Place} (hpq : p.lt q = true) (hqr : q.lt r = true) :
    p.lt r = true := by
  cases p <;> cases q <;> cases r <;> simp_all [Place.lt]
  omega

/-- No place is before itself. -/
theorem Place.lt_irrefl (p : Place) : p.lt p = false := by cases p <;> simp [Place.lt]

/-- A place that is before another one is not after it. -/
theorem Place.not_lt_of_lt {p q : Place} (h : p.lt q = true) : q.lt p = false := by
  rw [Bool.eq_false_iff]
  intro hback
  have hself := Place.lt_trans h hback
  rw [Place.lt_irrefl] at hself
  cases hself

/-- Places that are not before each other are the same. -/
theorem Place.eq_of_not_lt {p q : Place} (hpq : p.lt q = false) (hqp : q.lt p = false) :
    p = q := by
  cases p <;> cases q <;> simp_all [Place.lt]
  omega

namespace Number

/-! ## Equality -/

/-- Numbers are equal when they stand at one place of the line. -/
theorem equal_iff {a b : Number} :
    a.equal b = true ↔ ∃ p, a.place? = some p ∧ b.place? = some p := by
  unfold equal
  cases ha : a.place? with
  | none => simp
  | some p =>
    cases hb : b.place? with
    | none => simp
    | some q =>
      simp only [decide_eq_true_eq, Option.some.injEq]
      constructor
      · rintro rfl
        exact ⟨p, rfl, rfl⟩
      · rintro ⟨r, rfl, rfl⟩
        rfl

/-- Equality of numbers does not depend on the order. -/
theorem equal_comm (a b : Number) : a.equal b = b.equal a := by
  rw [Bool.eq_iff_iff, equal_iff, equal_iff]
  constructor <;> rintro ⟨p, hp, hq⟩ <;> exact ⟨p, hq, hp⟩

/-- Equal numbers of an equal number are equal. -/
theorem equal_trans {a b c : Number} (hab : a.equal b = true) (hbc : b.equal c = true) :
    a.equal c = true := by
  rw [equal_iff] at *
  obtain ⟨p, ha, hb⟩ := hab
  obtain ⟨q, hb', hc⟩ := hbc
  rw [hb] at hb'
  cases hb'
  exact ⟨p, ha, hc⟩

/-- A number agrees with itself, not-a-number included. -/
theorem agrees_refl (a : Number) : a.agrees a = true := by simp [agrees]

/-- Agreement of numbers does not depend on the order. -/
theorem agrees_comm (a b : Number) : a.agrees b = b.agrees a := by
  unfold agrees
  rw [equal_comm, Bool.eq_iff_iff]
  simp only [Bool.or_eq_true, decide_eq_true_eq]
  rw [eq_comm (a := a)]

/-- Agreement of numbers goes along chains. -/
theorem agrees_trans {a b c : Number} (hab : a.agrees b = true) (hbc : b.agrees c = true) :
    a.agrees c = true := by
  simp only [agrees, Bool.or_eq_true, decide_eq_true_eq] at *
  rcases hab with hab | rfl
  · rcases hbc with hbc | rfl
    · exact .inl (equal_trans hab hbc)
    · exact .inl hab
  · exact hbc

/-! ## Order -/

/-- The order of places within the line is that of their units. -/
theorem lt_of_places {m n : Number} {a b : Int} (hm : m.place? = some (.inner a))
    (hn : n.place? = some (.inner b)) : m.lt n = decide (a < b) := by
  simp [lt, hm, hn, Place.lt]

/-- The same for "at most". -/
theorem le_of_places {m n : Number} {a b : Int} (hm : m.place? = some (.inner a))
    (hn : n.place? = some (.inner b)) : m.le n = decide (a ≤ b) := by
  rw [le, lt_of_places hm hn, Bool.eq_iff_iff]
  simp only [Bool.or_eq_true, equal_iff, hm, hn, Option.some.injEq, decide_eq_true_eq]
  constructor
  · rintro (h | ⟨_, rfl, h⟩)
    · exact Int.le_of_lt h
    · exact Int.le_of_eq (Place.inner.inj h).symm
  · intro h
    rcases Int.lt_or_eq_of_le h with h | rfl
    · exact .inl h
    · exact .inr ⟨_, rfl, rfl⟩

/-- A number is less than another one when both stand on the line, one before the
other. -/
theorem lt_iff {a b : Number} :
    a.lt b = true ↔ ∃ p q, a.place? = some p ∧ b.place? = some q ∧ p.lt q = true := by
  unfold lt
  cases ha : a.place? with
  | none => simp
  | some p => cases hb : b.place? <;> simp

/-- What is less than a number is at most that. -/
theorem le_of_lt {a b : Number} (h : a.lt b = true) : a.le b = true := by
  rw [le, h, Bool.true_or]

/-- What is less than something less than a third number is less than that one. -/
theorem lt_trans {a b c : Number} (hab : a.lt b = true) (hbc : b.lt c = true) :
    a.lt c = true := by
  obtain ⟨p, q, hp, hq, hpq⟩ := lt_iff.mp hab
  obtain ⟨q', r, hq', hr, hqr⟩ := lt_iff.mp hbc
  rw [hq, Option.some.injEq] at hq'
  subst hq'
  exact lt_iff.mpr ⟨p, r, hp, hr, Place.lt_trans hpq hqr⟩

/-- The number zero stands at the middle of the line. -/
theorem place?_real_zero : (real 0).place? = some (.inner 0) := by decide +kernel

/-- The integer zero stands there, too. -/
theorem place?_int_zero : (int 0).place? = some (.inner 0) := by rw [place?, Int.zero_mul]

/-- Integers are ordered as integers. -/
theorem lt_int (a b : Int) : (int a).lt (int b) = decide (a < b) := by
  have hu : (0 : Int) < Grid.unitsPerOne := by exact_mod_cast Grid.unitsPerOne_pos
  rw [lt_of_places rfl rfl, decide_eq_decide]
  constructor
  · exact fun h => Int.lt_of_mul_lt_mul_right h (Int.le_of_lt hu)
  · exact fun h => Int.mul_lt_mul_of_pos_right h hu

/-- Integers are equal as integers. -/
theorem equal_int (a b : Int) : (int a).equal (int b) = decide (a = b) := by
  have hu : (Grid.unitsPerOne : Int) ≠ 0 := by exact_mod_cast Nat.ne_of_gt Grid.unitsPerOne_pos
  rw [Bool.eq_iff_iff, equal_iff, decide_eq_true_eq]
  constructor
  · rintro ⟨p, ha, hb⟩
    simp only [place?, Option.some.injEq] at ha hb
    rw [← hb, Place.inner.injEq] at ha
    exact Int.eq_of_mul_eq_mul_right hu ha
  · rintro rfl
    exact ⟨_, rfl, rfl⟩

/-- Integers are "at most" as integers. -/
theorem le_int (a b : Int) : (int a).le (int b) = decide (a ≤ b) := by
  rw [le, lt_int, equal_int, Bool.eq_iff_iff]
  simp only [Bool.or_eq_true, decide_eq_true_eq]
  omega

end Number

end Montage
