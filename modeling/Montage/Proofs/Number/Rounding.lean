import Mathlib.Data.Nat.Log
import Mathlib.Tactic.Ring
import Montage.Number.Binary64

/-!
# Rounding to the grid of doubles

Rounding never passes a magnitude of the grid, from neither side, and what it
gives lies on the grid again. A rounded magnitude is therefore that of a finite double exactly
when it lies below the first power of two without one.
-/

namespace Montage

/-- A rounded quotient is at most every whole number that the quotient is at
most. -/
theorem roundQuotient_le {num den bound : Nat} (hd : 0 < den) (h : num ≤ bound * den) :
    roundQuotient num den ≤ bound := by
  have hq : num / den ≤ bound := by
    calc num / den ≤ bound * den / den := Nat.div_le_div_right h
      _ = bound := Nat.mul_div_cancel bound hd
  have hsplit := Nat.div_add_mod num den
  by_cases he : num / den = bound
  · have hrest : num % den = 0 := by
      rw [he, Nat.mul_comm] at hsplit
      omega
    unfold roundQuotient
    simp [hrest, hd, he]
  · unfold roundQuotient
    dsimp only
    split
    · exact hq
    · split
      · omega
      · split <;> omega

/-- A rounded quotient is at least every whole number that the quotient is at
least. -/
theorem le_roundQuotient {num den low : Nat} (hd : 0 < den) (h : low * den ≤ num) :
    low ≤ roundQuotient num den := by
  have hq : low ≤ num / den := (Nat.le_div_iff_mul_le hd).mpr h
  unfold roundQuotient
  dsimp only
  split
  · exact hq
  · split
    · omega
    · split <;> omega

namespace Grid

/-- The local step is a power of two. -/
theorem step_eq (units : Nat) : step units = 2 ^ (units.log2 - 52) := rfl

/-- The local step is positive. -/
theorem step_pos (units : Nat) : 0 < step units := Nat.two_pow_pos _

/-- Steps grow with the magnitude, and each divides the later ones. -/
theorem step_dvd_step {m n : Nat} (h : m ≤ n) : step m ∣ step n := by
  apply Nat.pow_dvd_pow
  have hlog : m.log2 ≤ n.log2 := by
    rw [Nat.log2_eq_log_two, Nat.log2_eq_log_two]
    exact Nat.log_mono_right h
  omega

/-- A significand of at most 53 digits, shifted by any number of places, is a
multiple of its local step. -/
theorem step_dvd_of_le {q e : Nat} (h : q ≤ 2 ^ 53) : step (q * 2 ^ e) ∣ q * 2 ^ e := by
  rcases Nat.lt_or_eq_of_le h with hlt | rfl
  · rcases Nat.eq_zero_or_pos q with rfl | hq
    · simp
    have hne : q * 2 ^ e ≠ 0 := Nat.mul_ne_zero hq.ne' (Nat.two_pow_pos e).ne'
    have hlog : (q * 2 ^ e).log2 < 53 + e := by
      rw [Nat.log2_lt hne, pow_add]
      exact Nat.mul_lt_mul_of_pos_right hlt (Nat.two_pow_pos e)
    have hstep : step (q * 2 ^ e) ∣ 2 ^ e := Nat.pow_dvd_pow 2 (by omega)
    exact hstep.trans (Nat.dvd_mul_left _ _)
  · have hlog : (2 ^ 53 * 2 ^ e).log2 = 53 + e := by
      rw [← pow_add, Nat.log2_two_pow]
    rw [step_eq, hlog, ← pow_add]
    exact Nat.pow_dvd_pow 2 (by omega)

/-- Rounding does not pass a magnitude of the grid. -/
theorem nearest_le {num den bound : Nat} (hd : 0 < den) (hb : step bound ∣ bound)
    (h : num ≤ bound * den) : nearest num den ≤ bound := by
  have hq : num / den ≤ bound := by
    calc num / den ≤ bound * den / den := Nat.div_le_div_right h
      _ = bound := Nat.mul_div_cancel bound hd
  obtain ⟨count, hcount⟩ := (step_dvd_step hq).trans hb
  have hgap := step_pos (num / den)
  unfold nearest
  dsimp only
  rw [hcount, Nat.mul_comm (step (num / den)) count]
  apply Nat.mul_le_mul_right
  apply roundQuotient_le (Nat.mul_pos hd hgap)
  calc num ≤ bound * den := h
    _ = step (num / den) * count * den := by rw [← hcount]
    _ = count * (den * step (num / den)) := by ring

/-- Rounding does not fall below a multiple of the local step. -/
theorem le_nearest_of_dvd {num den low : Nat} (hd : 0 < den) (hl : step (num / den) ∣ low)
    (h : low * den ≤ num) : low ≤ nearest num den := by
  obtain ⟨count, rfl⟩ := hl
  have hgap := step_pos (num / den)
  unfold nearest
  dsimp only
  rw [Nat.mul_comm (step (num / den)) count]
  apply Nat.mul_le_mul_right
  apply le_roundQuotient (Nat.mul_pos hd hgap)
  calc count * (den * step (num / den)) = step (num / den) * count * den := by ring
    _ ≤ num := h

/-- Rounding does not fall below a magnitude of the grid. -/
theorem le_nearest {num den low : Nat} (hd : 0 < den) (hl : step low ∣ low)
    (h : low * den ≤ num) : low ≤ nearest num den := by
  have hq : low ≤ num / den := (Nat.le_div_iff_mul_le hd).mpr h
  have hlog : low.log2 ≤ (num / den).log2 := by
    rw [Nat.log2_eq_log_two, Nat.log2_eq_log_two]
    exact Nat.log_mono_right hq
  rcases Nat.eq_or_lt_of_le hlog with heq | hlt
  · refine le_nearest_of_dvd hd ?_ h
    rwa [step_eq, ← heq, ← step_eq]
  · -- a power of two lies between the magnitude and the quotient
    have hne : num / den ≠ 0 := by
      intro hzero
      rw [hzero] at hlt
      exact absurd hlt (Nat.not_lt_zero _)
    have hpower : 2 ^ (num / den).log2 * den ≤ num :=
      (Nat.le_div_iff_mul_le hd).mp (Nat.log2_self_le hne)
    have hstep : step (num / den) ∣ 2 ^ (num / den).log2 := Nat.pow_dvd_pow 2 (Nat.sub_le _ _)
    calc low ≤ 2 ^ (num / den).log2 := by
          rcases Nat.eq_zero_or_pos low with rfl | hlow
          · exact Nat.zero_le _
          · exact ((Nat.log2_lt hlow.ne').mp hlt).le
      _ ≤ nearest num den := le_nearest_of_dvd hd hstep hpower

/-- A magnitude of the grid is rounded to itself. -/
theorem nearest_of_dvd {units : Nat} (h : step units ∣ units) : nearest units 1 = units :=
  Nat.le_antisymm (nearest_le Nat.one_pos h (Nat.mul_one units).ge)
    (le_nearest Nat.one_pos h (Nat.mul_one units).le)

/-- The rounded quotient behind a rounded magnitude has at most 53 digits. -/
theorem roundQuotient_step_le {num den : Nat} (hd : 0 < den) :
    roundQuotient num (den * step (num / den)) ≤ 2 ^ 53 := by
  have hgap := step_pos (num / den)
  apply roundQuotient_le (Nat.mul_pos hd hgap)
  have hlog : num / den < 2 ^ ((num / den).log2 + 1) := Nat.lt_log2_self
  have hnum : num < 2 ^ ((num / den).log2 + 1) * den := (Nat.div_lt_iff_lt_mul hd).mp hlog
  have hpow : 2 ^ ((num / den).log2 + 1) ≤ 2 ^ 53 * step (num / den) := by
    rw [step_eq, ← pow_add]
    exact Nat.pow_le_pow_right (by omega) (by omega)
  calc num ≤ 2 ^ ((num / den).log2 + 1) * den := hnum.le
    _ ≤ 2 ^ 53 * step (num / den) * den := Nat.mul_le_mul_right den hpow
    _ = 2 ^ 53 * (den * step (num / den)) := by ring

/-- A rounded magnitude is a multiple of its own local step. -/
theorem step_dvd_nearest {num den : Nat} (hd : 0 < den) :
    step (nearest num den) ∣ nearest num den :=
  step_dvd_of_le (roundQuotient_step_le hd)

/-- A rounded magnitude below the limit is that of a finite double. -/
theorem representable_nearest {num den : Nat} (hd : 0 < den) (h : nearest num den < limit) :
    Representable (nearest num den) :=
  ⟨h, step_dvd_nearest hd⟩

/-- Rounding keeps what is at most a magnitude of the grid on the grid. -/
theorem representable_nearest_of_le {num den bound : Nat} (hd : 0 < den)
    (hb : Representable bound) (h : num ≤ bound * den) : Representable (nearest num den) :=
  representable_nearest hd ((nearest_le hd hb.2 h).trans_lt hb.1)

/-- The number of units in one is a power of two. -/
theorem unitsPerOne_eq : unitsPerOne = 2 ^ 1074 := by decide +kernel

/-- Every integer of at most 53 digits is a double. -/
theorem representable_of_le {q : Nat} (h : q ≤ 2 ^ 53) : Representable (q * unitsPerOne) := by
  have hlimit : 2 ^ 53 * unitsPerOne < limit := by decide +kernel
  refine ⟨(Nat.mul_le_mul_right _ h).trans_lt hlimit, ?_⟩
  rw [unitsPerOne_eq]
  exact step_dvd_of_le h

end Grid

end Montage
