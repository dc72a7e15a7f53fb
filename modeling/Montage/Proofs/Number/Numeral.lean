import Mathlib.Data.List.Induction
import Mathlib.Data.Rat.Cast.Order
import Mathlib.Tactic.Linarith
import Mathlib.Tactic.Positivity
import Mathlib.Tactic.Ring
import Montage.Text.Basic

/-!
# Decimals in writing

A numeral is canonical when nothing in it could be left out: no zero stands in front of
the whole part or at the end of the fraction, and zero has no sign. Canonical numerals of one
value are the same, and so are those of one text.
-/

namespace Montage

/-! ## Runs of digits -/

namespace Digits

/-- All characters are decimal digits. -/
def AllDigits (cs : List Char) : Prop := ∀ c ∈ cs, c.isDigit = true

/-- The number behind a run of digits. -/
abbrev number (cs : List Char) : Nat := Nat.ofDigitChars 10 cs 0

/-- The worth of a digit is less than ten. -/
theorem worth_lt {c : Char} (h : c.isDigit = true) : c.toNat - '0'.toNat < 10 := by
  have hhigh : c.toNat ≤ 57 := (Char.isDigit_iff_toNat.mp h).2
  have hzero : '0'.toNat = 48 := rfl
  omega

/-- A digit is the one of its worth. -/
theorem digitChar_worth {c : Char} (h : c.isDigit = true) :
    Nat.digitChar (c.toNat - '0'.toNat) = c := by
  have hlow : '0'.toNat ≤ c.toNat := (Char.isDigit_iff_toNat.mp h).1
  have hzero : '0'.toNat = 48 := rfl
  apply Char.toNat_inj.mp
  rw [Nat.toNat_digitChar_of_lt_ten (worth_lt h)]
  omega

/-- The digit that is worth nothing is zero. -/
theorem eq_zero_of_worth {c : Char} (h : c.isDigit = true) (hworth : c.toNat - '0'.toNat = 0) :
    c = '0' := by
  rw [← digitChar_worth h, hworth]
  rfl

variable {cs ds : List Char}

/-- The first digit counts as often as the length of the others tells. -/
theorem number_cons (c : Char) (cs : List Char) :
    number (c :: cs) = 10 ^ cs.length * (c.toNat - '0'.toNat) + number cs := by
  rw [number, Nat.ofDigitChars_cons, Nat.mul_zero, Nat.zero_add,
    Nat.ofDigitChars_eq_ofDigitChars_zero]

/-- A single digit stands for its worth. -/
theorem number_singleton (c : Char) : number [c] = c.toNat - '0'.toNat := by
  rw [number_cons, List.length_nil, pow_zero, Nat.one_mul]
  rfl

/-- Digits in front count as often as the length of those behind tells. -/
theorem number_append (cs ds : List Char) :
    number (cs ++ ds) = 10 ^ ds.length * number cs + number ds := by
  rw [number, Nat.ofDigitChars_append, Nat.ofDigitChars_eq_ofDigitChars_zero]

/-- The digits of a number stand for it. -/
theorem number_toDigits (n : Nat) : number (Nat.toDigits 10 n) = n :=
  Nat.ofDigitChars_ten_toDigits

/-- Zeros stand for nothing. -/
theorem number_zeros (count : Nat) : number (List.replicate count '0') = 0 := by
  rw [number, Nat.ofDigitChars_replicate_zero, Nat.mul_zero]

/-- So many digits stand for less than that power of ten. -/
theorem number_lt (h : AllDigits cs) : number cs < 10 ^ cs.length := by
  induction cs with
  | nil => simp [number]
  | cons c cs ih =>
    obtain ⟨hc, hcs⟩ := List.forall_mem_cons.mp h
    have hrest := ih hcs
    have hworth := worth_lt hc
    rw [number_cons, List.length_cons, pow_succ]
    calc 10 ^ cs.length * (c.toNat - '0'.toNat) + number cs
        < 10 ^ cs.length * (c.toNat - '0'.toNat) + 10 ^ cs.length := Nat.add_lt_add_left hrest _
      _ = 10 ^ cs.length * (c.toNat - '0'.toNat + 1) := by ring
      _ ≤ 10 ^ cs.length * 10 := Nat.mul_le_mul_left _ hworth

/-- What is made up of a multiple and less than one more comes apart in one way. -/
theorem eq_of_mul_add {unit a b r s : Nat} (hr : r < unit) (hs : s < unit)
    (h : unit * a + r = unit * b + s) : a = b ∧ r = s := by
  have hpos : 0 < unit := by omega
  have hmultiple : a = b := by
    have hdiv := congrArg (· / unit) h
    simpa only [Nat.mul_add_div hpos, Nat.div_eq_of_lt hr, Nat.div_eq_of_lt hs,
      Nat.add_zero] using hdiv
  rw [hmultiple] at h
  exact ⟨hmultiple, Nat.add_left_cancel h⟩

/-- As many digits for the same number are the same digits. -/
theorem eq_of_number (hcs : AllDigits cs) (hds : AllDigits ds) (hlength : cs.length = ds.length)
    (h : number cs = number ds) : cs = ds := by
  induction cs generalizing ds with
  | nil => exact (List.eq_nil_of_length_eq_zero hlength.symm).symm
  | cons c cs ih =>
    cases ds with
    | nil => cases hlength
    | cons d ds =>
      obtain ⟨hc, hcs⟩ := List.forall_mem_cons.mp hcs
      obtain ⟨hd, hds⟩ := List.forall_mem_cons.mp hds
      have htail : cs.length = ds.length := Nat.succ.inj hlength
      have hcut := number_lt hcs
      rw [number_cons, number_cons, htail] at h
      rw [htail] at hcut
      obtain ⟨hworth, hnumber⟩ := eq_of_mul_add hcut (number_lt hds) h
      rw [ih hcs hds htail hnumber, ← digitChar_worth hc, ← digitChar_worth hd, hworth]

/-- Digits that do not begin with zero stand for some number. -/
theorem number_pos (h : AllDigits cs) (hne : cs ≠ []) (hlead : cs.head? ≠ some '0') :
    0 < number cs := by
  cases cs with
  | nil => exact absurd rfl hne
  | cons c cs =>
    have hworth : 0 < c.toNat - '0'.toNat := by
      refine Nat.pos_of_ne_zero fun hzero => hlead ?_
      rw [List.head?_cons, eq_zero_of_worth (h c List.mem_cons_self) hzero]
    rw [number_cons]
    exact Nat.add_pos_left (Nat.mul_pos (by positivity) hworth) _

/-- Digits without a superfluous zero in front are those of their number. -/
theorem toDigits_number (h : AllDigits cs) (hne : cs ≠ [])
    (hlead : cs.head? = some '0' → cs = ['0']) : Nat.toDigits 10 (number cs) = cs := by
  induction cs using List.reverseRecOn with
  | nil => exact absurd rfl hne
  | append_singleton front c ih =>
    obtain ⟨hfront, hc⟩ := List.forall_mem_append.mp h
    have hdigit := hc c List.mem_cons_self
    have hworth := worth_lt hdigit
    have hlast : Nat.toDigits 10 (number [c]) = [c] := by
      rw [number_singleton, Nat.toDigits_of_lt_base hworth, digitChar_worth hdigit]
    by_cases hempty : front = []
    · subst hempty
      exact hlast
    · have hhead : front.head? ≠ some '0' := by
        intro hzero
        have hall := hlead ((List.head?_append_of_ne_nil _ hempty).trans hzero)
        have hlength := congrArg List.length hall
        rw [List.length_append, List.length_singleton, List.length_singleton] at hlength
        exact hempty (List.eq_nil_of_length_eq_zero (by omega))
      have hnumber : number (front ++ [c]) = 10 * number front + number [c] := by
        rw [number_append, List.length_singleton, pow_one]
      rw [hnumber, ← Nat.toDigits_append_toDigits (by decide) (number_pos hfront hempty hhead)
        (number_singleton c ▸ hworth), hlast,
        ih hfront hempty fun hzero => absurd hzero hhead]

/-- The digits of a number have no superfluous zero in front. -/
theorem head?_toDigits {n : Nat} (h : (Nat.toDigits 10 n).head? = some '0') :
    Nat.toDigits 10 n = ['0'] := by
  induction n using Nat.strong_induction_on with
  | _ n ih =>
    rw [Nat.toDigits_eq_if (by decide)] at h ⊢
    split at h
    · next hsmall =>
      rw [if_pos hsmall]
      exact congrArg (fun d => [d]) (Option.some.inj h)
    · next hlarge =>
      rw [List.head?_append_of_ne_nil _ Nat.toDigits_ne_nil] at h
      have hzero : number (Nat.toDigits 10 (n / 10)) = number ['0'] :=
        congrArg number (ih (n / 10) (Nat.div_lt_self (by omega) (by decide)) h)
      rw [number_toDigits] at hzero
      have hnone : number ['0'] = 0 := rfl
      omega

end Digits

open Digits

/-! ## Numerals -/

/-- A decimal in writing. -/
structure Numeral where
  /-- Whether it begins with a minus. -/
  negative : Bool
  /-- The digits before the point. -/
  whole : List Char
  /-- The digits behind the point, without which there is no point. -/
  fraction : List Char

namespace Numeral

/-- The characters from the point on. -/
def tail (d : Numeral) : List Char := if d.fraction = [] then [] else '.' :: d.fraction

/-- The characters of a numeral. -/
def chars (d : Numeral) : List Char :=
  (if d.negative then ['-'] else []) ++ (d.whole ++ d.tail)

/-- The text of a numeral. -/
def text (d : Numeral) : Text := .ofChars d.chars

/-- All digits of a numeral as one whole number. -/
def digits (d : Numeral) : Nat := number (d.whole ++ d.fraction)

/-- What a numeral stands for but for its sign. -/
def magnitude (d : Numeral) : ℚ := d.digits / 10 ^ d.fraction.length

/-- What a numeral stands for. -/
def value (d : Numeral) : ℚ := if d.negative then -d.magnitude else d.magnitude

/-- Nothing in a numeral could be left out. -/
structure Canonical (d : Numeral) : Prop where
  /-- There are digits before the point. -/
  whole_ne_nil : d.whole ≠ []
  /-- Nothing but digits stands there. -/
  whole_digits : AllDigits d.whole
  /-- The only number that begins with zero is zero. -/
  lead : d.whole.head? = some '0' → d.whole = ['0']
  /-- Nothing but digits stands behind the point. -/
  fraction_digits : AllDigits d.fraction
  /-- The fraction does not end with a zero. -/
  last : d.fraction.getLast? ≠ some '0'
  /-- Zero has no minus. -/
  signed : d.negative = true → d.digits ≠ 0

variable {d e : Numeral}

/-- Magnitudes are not negative. -/
theorem magnitude_nonneg (d : Numeral) : 0 ≤ d.magnitude := by
  unfold magnitude
  positivity

/-- The whole part and the fraction make up the digits. -/
theorem digits_eq (d : Numeral) :
    d.digits = 10 ^ d.fraction.length * number d.whole + number d.fraction :=
  number_append _ _

/-- A magnitude is zero only if all digits are. -/
theorem digits_eq_zero (h : d.magnitude = 0) : d.digits = 0 := by
  have hpow : (10 : ℚ) ^ d.fraction.length ≠ 0 := by positivity
  rw [magnitude, div_eq_zero_iff] at h
  exact_mod_cast h.resolve_right hpow

/-- The canonical numerals with a minus are those below zero. -/
theorem Canonical.negative_iff (hd : d.Canonical) : d.negative = true ↔ d.value < 0 := by
  have hnonneg := d.magnitude_nonneg
  rw [value]
  constructor
  · intro hminus
    have hne : d.magnitude ≠ 0 := fun hzero => hd.signed hminus (digits_eq_zero hzero)
    rw [if_pos hminus]
    exact neg_lt_zero.mpr (lt_of_le_of_ne hnonneg hne.symm)
  · intro hless
    by_contra hplus
    rw [if_neg hplus] at hless
    linarith

/-- Numerals of one magnitude have the same digits but for zeros at the end. -/
theorem digits_mul_eq (h : d.magnitude = e.magnitude) :
    d.digits * 10 ^ e.fraction.length = e.digits * 10 ^ d.fraction.length := by
  rw [magnitude, magnitude, div_eq_div_iff (by positivity) (by positivity)] at h
  exact_mod_cast h

/-- A canonical numeral has no more places than another one of its magnitude. -/
theorem Canonical.length_le (hd : d.Canonical) (h : d.magnitude = e.magnitude) :
    d.fraction.length ≤ e.fraction.length := by
  by_contra hlonger
  have hdigits := digits_mul_eq h
  obtain ⟨more, hmore⟩ : ∃ more, d.fraction.length = e.fraction.length + (more + 1) :=
    ⟨d.fraction.length - e.fraction.length - 1, by omega⟩
  have hten : d.digits = 10 * (e.digits * 10 ^ more) := by
    have hpos : 0 < 10 ^ e.fraction.length := by positivity
    refine Nat.eq_of_mul_eq_mul_right hpos (hdigits.trans ?_)
    rw [hmore]
    ring
  rcases List.eq_nil_or_concat d.fraction with hnone | ⟨front, c, hc⟩
  · rw [hnone] at hmore
    simp at hmore
  · rw [List.concat_eq_append] at hc
    have hlast : d.digits = 10 * number (d.whole ++ front) + number [c] := by
      rw [digits, hc, ← List.append_assoc, number_append, List.length_singleton, pow_one]
    have hdigit := hd.fraction_digits c (by simp [hc])
    have hworth := worth_lt hdigit
    have hsingle := number_singleton c
    refine hd.last ?_
    rw [hc, List.getLast?_concat, eq_zero_of_worth hdigit (by omega)]

/-- Canonical numerals of one value are the same. -/
theorem Canonical.eq_of_value (hd : d.Canonical) (he : e.Canonical) (h : d.value = e.value) :
    d = e := by
  have hsign : d.negative = e.negative := by
    rw [Bool.eq_iff_iff, hd.negative_iff, he.negative_iff, h]
  have hmagnitude : d.magnitude = e.magnitude := by
    rw [value, value, hsign] at h
    split at h
    · exact neg_injective h
    · exact h
  have hlength := Nat.le_antisymm (hd.length_le hmagnitude) (he.length_le hmagnitude.symm)
  have hdigits := digits_mul_eq hmagnitude
  rw [hlength] at hdigits
  have hsame := Nat.eq_of_mul_eq_mul_right (by positivity) hdigits
  rw [digits_eq, digits_eq, hlength] at hsame
  have hcut := number_lt hd.fraction_digits
  rw [hlength] at hcut
  obtain ⟨hwhole, hfraction⟩ := eq_of_mul_add hcut (number_lt he.fraction_digits) hsame
  have hfirst : d.whole = e.whole := by
    rw [← toDigits_number hd.whole_digits hd.whole_ne_nil hd.lead, hwhole,
      toDigits_number he.whole_digits he.whole_ne_nil he.lead]
  have hrest := eq_of_number hd.fraction_digits he.fraction_digits hlength hfraction
  cases d
  cases e
  simp_all

/-- The part from the point on tells the fraction. -/
theorem fraction_eq_of_tail (h : d.tail = e.tail) : d.fraction = e.fraction := by
  unfold tail at h
  split_ifs at h with hd he he
  · rw [hd, he]
  · exact (List.cons.inj h).2

/-- The digits at the front are the whole part. -/
theorem Canonical.takeWhile_isDigit (hd : d.Canonical) :
    (d.whole ++ d.tail).takeWhile Char.isDigit = d.whole := by
  rw [List.takeWhile_append_of_pos hd.whole_digits, tail]
  split
  · exact List.append_nil _
  · rw [List.takeWhile_cons_of_neg (by decide), List.append_nil]

/-- No digit is a sign or a point. -/
theorem isDigit_ne {c : Char} (h : c.isDigit = true) : c ≠ '-' ∧ c ≠ '.' := by
  constructor <;> (rintro rfl; revert h; decide)

/-- The sign can be seen at the front. -/
theorem Canonical.head?_chars (hd : d.Canonical) :
    d.chars.head? = some '-' ↔ d.negative = true := by
  rw [chars]
  cases hsign : d.negative with
  | true => simp
  | false =>
    obtain ⟨c, cs, hwhole⟩ := List.exists_cons_of_ne_nil hd.whole_ne_nil
    have hdigit : c.isDigit = true := hd.whole_digits c (by simp [hwhole])
    simp only [hwhole, Bool.false_eq_true, if_false, List.nil_append, List.cons_append,
      List.head?_cons, Option.some.injEq, iff_false]
    rintro rfl
    exact absurd hdigit (by decide)

/-- Canonical numerals of one text are the same. -/
theorem Canonical.eq_of_text (hd : d.Canonical) (he : e.Canonical) (h : d.text = e.text) :
    d = e := by
  have hchars : d.chars = e.chars :=
    List.map_injective_iff.mpr (fun a b => CodePoint.char.inj) (congrArg Text.points h)
  have hsign : d.negative = e.negative := by
    rw [Bool.eq_iff_iff, ← hd.head?_chars, ← he.head?_chars, hchars]
  rw [chars, chars, hsign] at hchars
  have hrest := List.append_cancel_left hchars
  have hwhole : d.whole = e.whole := by
    rw [← hd.takeWhile_isDigit, hrest, he.takeWhile_isDigit]
  rw [hwhole] at hrest
  have hfraction := fraction_eq_of_tail (List.append_cancel_left hrest)
  cases d
  cases e
  simp_all

/-- A canonical numeral has at least one character, and no minus with a zero only. -/
theorem Canonical.text_ne (hd : d.Canonical) : d.text ≠ "" ∧ d.text ≠ "-0" := by
  have hchars : ∀ {cs : List Char}, d.text = Text.ofChars cs → d.chars = cs := fun h =>
    List.map_injective_iff.mpr (fun a b => CodePoint.char.inj) (congrArg Text.points h)
  constructor
  · intro h
    have hnone : d.chars = [] := hchars h
    rw [chars, List.append_eq_nil_iff, List.append_eq_nil_iff] at hnone
    exact hd.whole_ne_nil hnone.2.1
  · intro h
    have hminus : d.chars = ['-', '0'] := hchars h
    have hsign : d.negative = true := hd.head?_chars.mp (by rw [hminus]; rfl)
    rw [chars, hsign, if_pos rfl, List.singleton_append, List.cons_inj_right] at hminus
    have hwhole : d.whole = ['0'] := by
      rw [← hd.takeWhile_isDigit, hminus]
      rfl
    rw [hwhole] at hminus
    have htail : d.tail = [] := List.append_cancel_left (hminus.trans (List.append_nil _).symm)
    have hfraction : d.fraction = [] := by
      by_contra hne
      rw [tail, if_neg hne] at htail
      cases htail
    refine hd.signed hsign ?_
    rw [digits, hwhole, hfraction]
    rfl

end Numeral

end Montage
