import Mathlib.Algebra.Order.Ring.Abs
import Mathlib.Data.List.TakeWhile
import Montage.Number.Decimal
import Montage.Proofs.Number.Numeral
import Montage.Proofs.Number.Range

/-!
# Decimals of so many places

Rounding to a number of places yields the nearest such decimal, and the even one of two.
Counted in its last place it has one shortest numeral.
-/

namespace Montage

/-! ## Rounding to places -/

/-- A quotient halfway between whole numbers is rounded to the even one. -/
theorem even_of_tie {num den : ℕ} (hd : 0 < den)
    (h : 2 * num = 2 * (roundQuotient num den * den) + den ∨
      2 * num + den = 2 * (roundQuotient num den * den)) : Even (roundQuotient num den) := by
  have hsplit := Nat.div_add_mod num den
  have hrest := Nat.mod_lt num hd
  rw [Nat.mul_comm] at hsplit
  rw [Nat.even_iff]
  unfold roundQuotient at h ⊢
  dsimp only at h ⊢
  generalize num / den = quotient at *
  generalize num % den = rest at *
  have hnext : (quotient + 1) * den = quotient * den + den := by ring
  split_ifs at h ⊢ <;> omega

/-- The nearest decimal with a number of places; of two of them, the even one. -/
def RoundsTo (places : ℕ) (q r : ℚ) : Prop :=
  ∃ k : ℤ, r = k / 10 ^ places ∧ 2 * |q * 10 ^ places - k| ≤ 1 ∧
    (2 * |q * 10 ^ places - k| = 1 → Even k)

namespace RoundsTo

variable {places : ℕ} {q r s t : ℚ}

/-- Of two whole numbers that are both nearest, the first is not smaller: they would be
neighbours and both even. -/
theorem le_of_nearest {y : ℚ} {k l : ℤ} (hk : 2 * |y - k| ≤ 1) (hl : 2 * |y - l| ≤ 1)
    (heven : 2 * |y - k| = 1 → Even k) (heven' : 2 * |y - l| = 1 → Even l) : l ≤ k := by
  by_contra hless
  have hlow := (abs_le.mp (show |y - k| ≤ 1 / 2 by linarith)).2
  have hhigh := (abs_le.mp (show |y - l| ≤ 1 / 2 by linarith)).1
  have hcast : (k : ℚ) + 1 ≤ l := by exact_mod_cast Int.add_one_le_of_lt (not_le.mp hless)
  have hnext : l = k + 1 := by
    have hnear : (l : ℚ) ≤ k + 1 := by linarith
    exact le_antisymm (by exact_mod_cast hnear) (Int.add_one_le_of_lt (not_le.mp hless))
  have hfirst : y - k = 1 / 2 := by linarith
  have hsecond : y - l = -(1 / 2) := by linarith
  have hk' : Even k := heven (by rw [hfirst, abs_of_pos (by norm_num)]; norm_num)
  have hl' : Even l := heven' (by rw [hsecond, abs_neg, abs_of_pos (by norm_num)]; norm_num)
  rw [hnext] at hl'
  exact (Int.even_add_one.mp hl') hk'

/-- There is only one nearest decimal. -/
theorem unique (h : RoundsTo places q r) (h' : RoundsTo places q s) : r = s := by
  obtain ⟨k, rfl, hk, heven⟩ := h
  obtain ⟨l, rfl, hl, heven'⟩ := h'
  rw [le_antisymm (le_of_nearest hl hk heven' heven) (le_of_nearest hk hl heven heven')]

/-- What is not negative is not rounded to less than zero. -/
theorem nonneg (h : RoundsTo places q r) (hq : 0 ≤ q) : 0 ≤ r := by
  obtain ⟨k, rfl, hk, -⟩ := h
  have hscaled : 0 ≤ q * 10 ^ places := by positivity
  have hnear := (abs_le.mp (show |q * 10 ^ places - k| ≤ 1 / 2 by linarith)).2
  have hwhole : (-1 : ℤ) < k := by
    have hcast : (-1 : ℚ) < k := by linarith
    exact_mod_cast hcast
  have hcount : (0 : ℚ) ≤ k := by exact_mod_cast Int.add_one_le_of_lt hwhole
  positivity

/-- What differs by more than one in the last place is rounded to different decimals. -/
theorem lt (h : RoundsTo places q r) (h' : RoundsTo places s t)
    (far : q * 10 ^ places + 1 < s * 10 ^ places) : r < t := by
  obtain ⟨k, rfl, hk, -⟩ := h
  obtain ⟨l, rfl, hl, -⟩ := h'
  have hlow := (abs_le.mp (show |q * 10 ^ places - k| ≤ 1 / 2 by linarith)).1
  have hhigh := (abs_le.mp (show |s * 10 ^ places - l| ≤ 1 / 2 by linarith)).2
  have hless : (k : ℚ) < l := by linarith
  exact div_lt_div_of_pos_right hless (by positivity)

/-- Opposite numbers are rounded to opposite decimals. -/
theorem neg (h : RoundsTo places q r) : RoundsTo places (-q) (-r) := by
  obtain ⟨k, rfl, hk, hodd⟩ := h
  have hdistance : |-q * 10 ^ places - (-k : ℤ)| = |q * 10 ^ places - k| := by
    rw [← abs_neg]
    push_cast
    ring_nf
  refine ⟨-k, ?_, ?_, ?_⟩
  · push_cast
    ring
  · rwa [hdistance]
  · rw [hdistance]
    exact fun htie => (hodd htie).neg

/-- Rounded quotients are the nearest decimals. -/
theorem roundQuotient_nearest (places num : ℕ) {den : ℕ} (hd : 0 < den) :
    RoundsTo places (num / den) (roundQuotient (num * 10 ^ places) den / 10 ^ places) := by
  obtain ⟨hup, hdown⟩ := roundQuotient_near (num * 10 ^ places) hd
  have heven := @even_of_tie (num * 10 ^ places) den hd
  have hscaled : (num : ℚ) / den * 10 ^ places = (num * 10 ^ places : ℕ) / den := by
    push_cast
    ring
  generalize num * 10 ^ places = scaled at hup hdown heven hscaled ⊢
  generalize roundQuotient scaled den = k at hup hdown heven ⊢
  have hpos : (0 : ℚ) < den := by exact_mod_cast hd
  have hup' : 2 * ((k : ℚ) * den) ≤ 2 * scaled + den := by exact_mod_cast hup
  have hdown' : 2 * (scaled : ℚ) ≤ 2 * (k * den) + den := by exact_mod_cast hdown
  have hdistance : (scaled : ℚ) / den - k = (scaled - k * den) / den := by
    rw [sub_div, mul_div_cancel_right₀ _ hpos.ne']
  refine ⟨k, by push_cast; rfl, ?_, ?_⟩
  · rw [hscaled, Int.cast_natCast, hdistance, abs_div, abs_of_pos hpos, ← mul_div_assoc,
      div_le_one hpos]
    have hbound : |(scaled : ℚ) - k * den| ≤ den / 2 := abs_le.mpr ⟨by linarith, by linarith⟩
    linarith
  · rw [hscaled, Int.cast_natCast, hdistance, abs_div, abs_of_pos hpos, ← mul_div_assoc,
      div_eq_one_iff_eq hpos.ne']
    intro htie
    have heither := abs_eq (show (0 : ℚ) ≤ den / 2 by positivity) |>.mp
      (show |(scaled : ℚ) - k * den| = den / 2 by linarith)
    have hparity : Even k := by
      refine heven ?_
      rcases heither with h | h
      · left
        have hcast : 2 * (scaled : ℚ) = 2 * (k * den) + den := by linarith
        exact_mod_cast hcast
      · right
        have hcast : 2 * (scaled : ℚ) + den = 2 * (k * den) := by linarith
        exact_mod_cast hcast
    exact_mod_cast hparity

end RoundsTo

/-! ## Numerals of so many places -/

namespace Numeral

open Digits

/-- A number with so many digits, filled with zeros in front. -/
def filled (places number : ℕ) : List Char :=
  List.replicate (places - (Nat.toDigits 10 number).length) '0' ++ Nat.toDigits 10 number

/-- The shortest numeral of a number of parts of a power of ten. -/
def ofParts (places : ℕ) (negative : Bool) (parts : ℕ) : Numeral where
  negative := negative && decide (parts ≠ 0)
  whole := Nat.toDigits 10 (parts / 10 ^ places)
  fraction := Decimal.trimZeros (filled places (parts % 10 ^ places))

variable {places number : ℕ}

/-- Filled numbers consist of digits. -/
theorem allDigits_filled : AllDigits (filled places number) := by
  intro c hc
  rcases List.mem_append.mp hc with hc | hc
  · rw [List.eq_of_mem_replicate hc]
    rfl
  · exact Nat.isDigit_of_mem_toDigits (by decide) (by decide) hc

/-- Small enough numbers are filled to the number of places. -/
theorem length_filled (hp : 1 ≤ places) (h : number < 10 ^ places) :
    (filled places number).length = places := by
  have hshort := (Nat.length_toDigits_le_iff (by decide) hp).mpr h
  rw [filled, List.length_append, List.length_replicate]
  omega

/-- Filling keeps the number. -/
theorem number_filled : Digits.number (filled places number) = number := by
  rw [filled, number_append, number_toDigits, number_zeros, Nat.mul_zero, Nat.zero_add]

/-- What is cut off are zeros. -/
theorem exists_zeros (cs : List Char) :
    ∃ count, cs = Decimal.trimZeros cs ++ List.replicate count '0' := by
  obtain ⟨count, hcount⟩ : ∃ count,
      cs.reverse.takeWhile (fun c => decide (c = '0')) = List.replicate count '0' := by
    refine ⟨_, List.eq_replicate_iff.mpr ⟨rfl, fun c hc => ?_⟩⟩
    simpa using List.mem_takeWhile_imp hc
  refine ⟨count, ?_⟩
  have hsplit := congrArg List.reverse
    (List.takeWhile_append_dropWhile (p := fun c => decide (c = '0')) (l := cs.reverse))
  rw [List.reverse_append, List.reverse_reverse, hcount, List.reverse_replicate] at hsplit
  exact hsplit.symm

/-- What is left does not end with a zero. -/
theorem getLast?_trimZeros (cs : List Char) : (Decimal.trimZeros cs).getLast? ≠ some '0' := by
  intro hlast
  rw [Decimal.trimZeros, List.getLast?_reverse] at hlast
  have hstop := List.head?_dropWhile_not (fun c => decide (c = '0')) cs.reverse
  rw [hlast] at hstop
  exact absurd rfl (of_decide_eq_false hstop)

variable {negative : Bool} {parts : ℕ}

/-- The digits of the numeral and the zeros that were cut off. -/
theorem digits_ofParts (hp : 1 ≤ places) (negative : Bool) (parts : ℕ) :
    ∃ count, (ofParts places negative parts).fraction.length + count = places ∧
      (ofParts places negative parts).digits * 10 ^ count = parts := by
  have hrest : parts % 10 ^ places < 10 ^ places := Nat.mod_lt _ (by positivity)
  obtain ⟨count, hcount⟩ := exists_zeros (filled places (parts % 10 ^ places))
  have hlength := congrArg List.length hcount
  rw [length_filled hp hrest, List.length_append, List.length_replicate] at hlength
  refine ⟨count, hlength.symm, ?_⟩
  have hnumber := congrArg Digits.number hcount
  rw [number_filled, number_append, number_zeros, List.length_replicate, Nat.add_zero] at hnumber
  have hall : (ofParts places negative parts).digits = 10 ^ (places - count) *
      (parts / 10 ^ places) + Digits.number (Decimal.trimZeros (filled places
        (parts % 10 ^ places))) := by
    have hfraction : (ofParts places negative parts).fraction.length = places - count := by
      change (Decimal.trimZeros _).length = _
      omega
    rw [digits_eq, hfraction, ofParts, number_toDigits]
  calc (ofParts places negative parts).digits * 10 ^ count
      = 10 ^ (places - count) * 10 ^ count * (parts / 10 ^ places) +
          10 ^ count * Digits.number (Decimal.trimZeros (filled places (parts % 10 ^ places))) := by
        rw [hall]
        ring
    _ = 10 ^ places * (parts / 10 ^ places) + parts % 10 ^ places := by
        rw [← hnumber, ← pow_add, Nat.sub_add_cancel (by omega)]
    _ = parts := Nat.div_add_mod _ _

/-- The numeral has at most so many places. -/
theorem length_fraction_ofParts (hp : 1 ≤ places) (negative : Bool) (parts : ℕ) :
    (ofParts places negative parts).fraction.length ≤ places := by
  obtain ⟨count, hlength, _⟩ := digits_ofParts hp negative parts
  omega

/-- The numeral stands for its parts. -/
theorem value_ofParts (hp : 1 ≤ places) (negative : Bool) (parts : ℕ) :
    (ofParts places negative parts).value =
      (if negative then -(parts : ℚ) else parts) / 10 ^ places := by
  obtain ⟨count, hlength, hdigits⟩ := digits_ofParts hp negative parts
  have hmagnitude : (ofParts places negative parts).magnitude = parts / 10 ^ places := by
    rw [magnitude, div_eq_div_iff (by positivity) (by positivity)]
    have hplaces : (10 : ℚ) ^ places =
        10 ^ (ofParts places negative parts).fraction.length * 10 ^ count := by
      rw [← pow_add, hlength]
    calc ((ofParts places negative parts).digits : ℚ) * 10 ^ places
        = (ofParts places negative parts).digits * 10 ^ count *
            10 ^ (ofParts places negative parts).fraction.length := by
          rw [hplaces]
          ring
      _ = parts * 10 ^ (ofParts places negative parts).fraction.length := by
          congr 1
          exact_mod_cast hdigits
  rw [value, hmagnitude]
  cases negative with
  | false => rfl
  | true =>
    by_cases hzero : parts = 0
    · simp [hzero]
    · simp [ofParts, hzero, neg_div]

/-- The numeral is canonical. -/
theorem canonical_ofParts (hp : 1 ≤ places) (negative : Bool) (parts : ℕ) :
    (ofParts places negative parts).Canonical where
  whole_ne_nil := Nat.toDigits_ne_nil
  whole_digits _ hc := Nat.isDigit_of_mem_toDigits (by decide) (by decide) hc
  lead := head?_toDigits
  fraction_digits := by
    obtain ⟨count, hcount⟩ := exists_zeros (filled places (parts % 10 ^ places))
    have hall : AllDigits (filled places (parts % 10 ^ places)) := allDigits_filled
    rw [hcount] at hall
    exact fun c hc => hall c (List.mem_append_left _ hc)
  last := getLast?_trimZeros _
  signed := by
    intro hsign hzero
    obtain ⟨count, -, hdigits⟩ := digits_ofParts hp negative parts
    rw [hzero, Nat.zero_mul] at hdigits
    simp [ofParts, ← hdigits] at hsign

end Numeral

end Montage
