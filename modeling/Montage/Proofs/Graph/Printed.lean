import Montage.Bounds
import Montage.Graph.Numeral
import Montage.Proofs.Number.Fixed
import Montage.Proofs.Value.Moment

/-!
# Numbers in print

A number is printed with a number of places by rounding its double to the nearest such
decimal, and to the even one of two. Without the zeros at its end, and without its point and
its sign where they say nothing, what is printed is the canonical numeral of that decimal.
-/

namespace Montage

open Numeral Digits

/-- Cutting off does nothing to what does not begin that way. -/
theorem dropWhile_eq_self {c d : Char} {cs : List Char} (hhead : cs.head? = some c) (hne : c ≠ d) :
    cs.dropWhile (fun x => decide (x = d)) = cs := by
  cases cs with
  | nil => rfl
  | cons x cs =>
    cases hhead
    exact List.dropWhile_cons_of_neg (by simpa using hne)

/-- Zeros at the end of a fraction are cut off, and so is a point behind which nothing
is left. -/
theorem trimFraction_eq {front fraction : List Char} {c : Char} (hfront : front.getLast? = some c)
    (hne : c ≠ '.') (hdigits : AllDigits fraction) :
    trimFraction (String.ofList (front ++ '.' :: fraction)) =
      String.ofList (front ++
        if Decimal.trimZeros fraction = [] then [] else '.' :: Decimal.trimZeros fraction) := by
  have hreverse : (front ++ '.' :: fraction).reverse =
      fraction.reverse ++ ('.' :: front.reverse) := by simp
  unfold trimFraction Decimal.trimZeros
  dsimp only
  rw [String.toList_ofList, hreverse, List.dropWhile_append]
  cases hrest : fraction.reverse.dropWhile fun x => decide (x = '0') with
  | nil =>
    have hpoint : ('.' :: front.reverse).dropWhile (fun x => decide (x = '0')) =
        '.' :: front.reverse := dropWhile_eq_self rfl (by decide)
    have hwhole : front.reverse.dropWhile (fun x => decide (x = '.')) = front.reverse :=
      dropWhile_eq_self (List.head?_reverse.trans hfront) hne
    have hcut : ('.' :: front.reverse).dropWhile (fun x => decide (x = '.')) =
        front.reverse.dropWhile fun x => decide (x = '.') :=
      List.dropWhile_cons_of_pos (by decide)
    rw [List.isEmpty_nil, if_pos rfl, hpoint, hcut, hwhole, List.reverse_reverse,
      List.reverse_nil, if_pos rfl, List.append_nil]
  | cons x xs =>
    have hmem : x ∈ fraction.reverse := by
      refine (List.dropWhile_suffix fun x => decide (x = '0')).subset ?_
      rw [hrest]
      exact List.mem_cons_self
    have hdigit := (isDigit_ne (hdigits x (List.mem_reverse.mp hmem))).2
    have hstay : (x :: xs ++ '.' :: front.reverse).dropWhile (fun x => decide (x = '.')) =
        x :: xs ++ '.' :: front.reverse := dropWhile_eq_self rfl hdigit
    rw [List.isEmpty_cons, if_neg Bool.false_ne_true, hstay, if_neg (by simp)]
    simp

/-- The text of so many places before anything is cut off. -/
theorem fixedDigits_eq {places : ℕ} (hp : 1 ≤ places) (units : ℕ) :
    Binary64.fixedDigits units Grid.unitsPerOne places =
      String.ofList (Nat.toDigits 10
          (roundQuotient (units * 10 ^ places) Grid.unitsPerOne / 10 ^ places) ++
        '.' :: filled places
          (roundQuotient (units * 10 ^ places) Grid.unitsPerOne % 10 ^ places)) := by
  unfold Binary64.fixedDigits
  dsimp only
  rw [if_neg (by omega)]
  have hpow : Nat.pow 10 places = 10 ^ places := rfl
  rw [hpow]
  generalize roundQuotient (units * 10 ^ places) Grid.unitsPerOne = parts
  rw [Nat.toString_eq_ofList_toDigits, Nat.toString_eq_ofList_toDigits, String.length_ofList,
    filled]
  have hpoint : "." = String.ofList ['.'] := rfl
  rw [hpoint, ← String.ofList_append, ← String.ofList_append, ← String.ofList_append]
  simp

/-- The numeral of zero is a single zero, whatever the sign was. -/
theorem chars_ofParts_zero (negative : Bool) (places : ℕ) :
    (ofParts places negative 0).whole = ['0'] ∧ (ofParts places negative 0).tail = [] ∧
      (ofParts places negative 0).negative = false := by
  have hwhole : Nat.toDigits 10 (0 / 10 ^ places) = ['0'] := by
    rw [Nat.zero_div, Nat.toDigits_zero]
  have hfraction : Decimal.trimZeros (filled places (0 % 10 ^ places)) = [] := by
    rw [Nat.zero_mod, Decimal.trimZeros, List.reverse_eq_nil_iff, List.dropWhile_eq_nil_iff]
    intro c hc
    rw [List.mem_reverse, filled, Nat.toDigits_zero, List.mem_append, List.mem_singleton] at hc
    rcases hc with hc | hc
    · exact decide_eq_true (List.eq_of_mem_replicate hc)
    · exact decide_eq_true hc
  refine ⟨hwhole, ?_, ?_⟩
  · rw [tail, ofParts, hfraction, if_pos rfl]
  · rw [ofParts, decide_eq_false (fun hne => hne rfl), Bool.and_false]

/-- What is cut off the text of so many places leaves a numeral, but a zero may have a
minus. -/
theorem trimFraction_fixed {places : ℕ} (hp : 1 ≤ places) (negative : Bool) (units : ℕ)
    (grid : Grid.Representable units) {e : Numeral} (he : e = ofParts places negative
      (roundQuotient (units * 10 ^ places) Grid.unitsPerOne)) :
    trimFraction ((Binary64.finite negative units grid).fixed places) =
      String.ofList ((if negative then ['-'] else []) ++ (e.whole ++ e.tail)) := by
  generalize hparts : roundQuotient (units * 10 ^ places) Grid.unitsPerOne = parts at he
  have hsign : Binary64.signText negative = String.ofList (if negative then ['-'] else []) := by
    cases negative <;> rfl
  have hlast : ∃ c, ((if negative then ['-'] else []) ++
      Nat.toDigits 10 (parts / 10 ^ places)).getLast? = some c ∧ c.isDigit = true := by
    obtain ⟨c, hc⟩ := Option.ne_none_iff_exists'.mp
      (mt List.getLast?_eq_none_iff.mp (Nat.toDigits_ne_nil (n := parts / 10 ^ places) (b := 10)))
    refine ⟨c, ?_, ?_⟩
    · rw [List.getLast?_append, hc]
      rfl
    · exact Nat.isDigit_of_mem_toDigits (by decide) (by decide) (List.mem_of_getLast? hc)
  obtain ⟨c, hc, hdigit⟩ := hlast
  rw [Binary64.fixed, fixedDigits_eq hp, hparts, hsign, ← String.ofList_append,
    ← List.append_assoc, trimFraction_eq hc (isDigit_ne hdigit).2 allDigits_filled, he,
    List.append_assoc]
  rfl

/-- With at least one place, the text of a finite double is the canonical numeral of its
rounded parts. -/
theorem decimalText_eq {places : ℕ} (hp : 1 ≤ places) (negative : Bool) (units : ℕ)
    (grid : Grid.Representable units) :
    Text.ofString (decimalText places (.finite negative units grid)) =
      (ofParts places negative
        (roundQuotient (units * 10 ^ places) Grid.unitsPerOne)).text := by
  have htrim := trimFraction_fixed hp negative units grid rfl
  have hcanonical := canonical_ofParts hp negative
    (roundQuotient (units * 10 ^ places) Grid.unitsPerOne)
  unfold decimalText shortened
  dsimp only
  rw [htrim]
  generalize hparts : roundQuotient (units * 10 ^ places) Grid.unitsPerOne = parts at *
  by_cases hzero : negative = true ∧ parts = 0
  · obtain ⟨rfl, rfl⟩ := hzero
    obtain ⟨hwhole, htail, hsign⟩ := chars_ofParts_zero true places
    rw [text, chars, hwhole, htail, hsign]
    rfl
  · have hchars : (if negative then ['-'] else []) ++ ((ofParts places negative parts).whole ++
        (ofParts places negative parts).tail) = (ofParts places negative parts).chars := by
      have hsign : (ofParts places negative parts).negative = negative := by
        cases negative with
        | false => rfl
        | true => simpa [ofParts] using hzero
      rw [chars, hsign]
    have htext : Text.ofString (String.ofList (ofParts places negative parts).chars) =
        (ofParts places negative parts).text := by
      rw [Text.ofString, String.toList_ofList, text]
    obtain ⟨hsome, hnumber⟩ := hcanonical.text_ne
    rw [hchars, if_neg, htext]
    rw [Bool.or_eq_true, decide_eq_true_eq, decide_eq_true_eq]
    rintro (hnone | hnone)
    · exact hsome (htext.symm.trans (congrArg Text.ofString hnone))
    · exact hnumber (htext.symm.trans (congrArg Text.ofString hnone))

/-- The canonical numeral of a finite double is the one of what it is rounded to. -/
theorem roundsTo_ofParts {places : ℕ} (hp : 1 ≤ places) (negative : Bool) (units : ℕ) :
    RoundsTo places ((Binary64.signed negative units : ℤ) / Grid.unitsPerOne)
      (ofParts places negative
        (roundQuotient (units * 10 ^ places) Grid.unitsPerOne)).value := by
  have hnearest := RoundsTo.roundQuotient_nearest places units Grid.unitsPerOne_pos
  rw [value_ofParts hp]
  generalize roundQuotient (units * 10 ^ places) Grid.unitsPerOne = parts at hnearest ⊢
  generalize Grid.unitsPerOne = unit at hnearest ⊢
  cases negative with
  | false =>
    rw [Binary64.signed, if_neg Bool.false_ne_true, if_neg Bool.false_ne_true, Int.cast_natCast]
    exact hnearest
  | true =>
    have hopposite := hnearest.neg
    rw [← neg_div, ← neg_div] at hopposite
    rw [Binary64.signed, if_pos rfl, if_pos rfl, Int.cast_neg, Int.cast_natCast]
    exact hopposite

/-! ## Numbers and what they are rounded to -/

/-- The rational number at a place of the line. -/
def Place.rational? : Place → Option ℚ
  | .inner units => some ((units : ℚ) / Grid.unitsPerOne)
  | _ => none

/-- The rational number that a finite number is. -/
def Number.rational? (n : Number) : Option ℚ := n.place?.bind Place.rational?

/-- Doubles, and integers of at most 53 digits of base two. -/
def Number.IsExact : Number → Prop
  | .int k => k.natAbs ≤ 2 ^ 53
  | .real _ => True

/-- An integer keeps its sign when it is counted in units. -/
theorem Binary64.signed_natAbs_mul (k : ℤ) (unit : ℕ) :
    signed (decide (k < 0)) (k.natAbs * unit) = k * unit := by
  rw [signed]
  split
  · next hneg =>
    have habs : (k.natAbs : ℤ) = -k := Int.ofNat_natAbs_of_nonpos (of_decide_eq_true hneg).le
    rw [Nat.cast_mul, habs, neg_mul, neg_neg]
  · next hpos =>
    have habs : (k.natAbs : ℤ) = k :=
      Int.natAbs_of_nonneg (not_lt.mp fun hneg => hpos (decide_eq_true hneg))
    rw [Nat.cast_mul, habs]

/-- An integer of few digits is its own double. -/
theorem Binary64.ofInt_of_le {k : ℤ} (h : k.natAbs ≤ 2 ^ 53) :
    ofInt k = .finite (decide (k < 0)) (k.natAbs * Grid.unitsPerOne)
      (Grid.representable_of_le h) := by
  rw [ofInt, ofRatio, Grid.nearest_of_dvd (Grid.representable_of_le h).2,
    ofUnits_of_representable]

/-- An exact number stands where its double does. -/
theorem Number.IsExact.place?_toReal? {n : Number} {x : Binary64} (exact : n.IsExact)
    (h : n.toReal? = some x) : (real x).place? = n.place? := by
  cases n with
  | real y =>
    rw [toReal?, Option.some.injEq] at h
    rw [h]
  | int k =>
    rw [toReal?, Option.ite_none_right_eq_some, Option.some.injEq,
      Binary64.ofInt_of_le exact] at h
    rw [← h.2]
    exact congrArg (fun units => some (Place.inner units)) (Binary64.signed_natAbs_mul k _)

namespace Value

variable {value other : Value} {places : ℕ}

/-- What a value is rounded to with so many places: the nearest decimal to its double. -/
def FormatsTo (places : ℕ) (value : Value) (r : ℚ) : Prop :=
  ∃ x q, value.toReal = .ok x ∧ (Number.real x).rational? = some q ∧ RoundsTo places q r

/-- A value is rounded to one decimal. -/
theorem FormatsTo.unique {r s : ℚ} (h : value.FormatsTo places r)
    (h' : value.FormatsTo places s) : r = s := by
  obtain ⟨x, q, hx, hq, hr⟩ := h
  obtain ⟨y, q', hy, hq', hs⟩ := h'
  obtain rfl : x = y := Except.ok.inj (hx.symm.trans hy)
  obtain rfl : q = q' := Option.some.inj (hq.symm.trans hq')
  exact hr.unique hs

/-- An exact number is itself rounded to the decimal of its double. -/
theorem FormatsTo.roundsTo {n : Number} {q r : ℚ} (h : (number n).FormatsTo places r)
    (exact : n.IsExact) (hq : n.rational? = some q) : RoundsTo places q r := by
  obtain ⟨x, q', hx, hq', hr⟩ := h
  have hreal : n.toReal? = some x := Outcome.orFault_eq_ok.mp hx
  have hsame : (Number.real x).rational? = n.rational? := by
    rw [Number.rational?, Number.rational?, exact.place?_toReal? hreal]
  rw [hsame, hq, Option.some.injEq] at hq'
  rwa [hq']

/-- A finite number has a finite double. -/
theorem exists_finite_of_isFinite (h : value.isFinite = .ok true) :
    ∃ s units grid, value.toReal = .ok (.finite s units grid) := by
  obtain ⟨n, _, rfl, _⟩ := isFinite_eq_true h
  have hfinite : ∃ x, n.toReal? = some x ∧ x.isFinite = true := by
    cases n with
    | real x => exact ⟨x, rfl, by simpa [isFinite, Number.isFinite?, orFault] using h⟩
    | int k =>
      simp only [isFinite, Outcome.orFault_eq_ok, Number.isFinite?,
        Option.ite_none_right_eq_some] at h
      exact ⟨_, by rw [Number.toReal?, if_pos h.1], h.1⟩
  obtain ⟨x, hx, hfinite⟩ := hfinite
  cases x with
  | finite s units grid => exact ⟨s, units, grid, Outcome.orFault_eq_ok.mpr hx⟩
  | _ => cases hfinite

/-- Numbers of places from one on are printed up to the largest one. -/
theorem filterNumberAs_places {t : Text} (finite : value.isFinite = .ok true)
    (h : filterNumber value places = .ok t) :
    filterNumberAs value (.int places) =
      if places ≤ mostPlaces then .ok t else .error (.unreadable .noPlaces) := by
  obtain ⟨s, units, grid, hreal⟩ := exists_finite_of_isFinite finite
  obtain ⟨n, _, rfl, _⟩ := isFinite_eq_true finite
  rw [filterNumber, hreal, Outcome.ok_bind] at h
  have hstyle : styleOf? (.int places) = DecimalStyle.ofPlaces? places := by
    rw [int, styleOf?, if_neg (by omega), Int.toNat_natCast]
  rw [filterNumberAs, hstyle, DecimalStyle.ofPlaces?]
  by_cases hfits : places ≤ DecimalField.largestNumber
  · rw [if_pos hfits]
    dsimp only
    rw [hreal, Outcome.ok_bind]
    by_cases hfew : places ≤ mostPlaces
    · rw [if_pos hfew]
      exact (if_pos hfew).trans h
    · rw [if_neg hfew]
      exact if_neg hfew
  · have hmany : ¬ places ≤ mostPlaces := fun hfew => hfits (hfew.trans (by decide +kernel))
    rw [if_neg hfits, if_neg hmany]
    rfl

/-- A numeral is what a value is printed as with a number of places. -/
structure PrintsAs (value : Value) (places : ℕ) (d : Numeral) : Prop where
  /-- Nothing in the numeral could be left out. -/
  canonical : d.Canonical
  /-- It has no more than the places that were asked for. -/
  short : d.fraction.length ≤ places
  /-- Its text is neither empty nor a zero with a minus. -/
  text_ne : d.text ≠ "" ∧ d.text ≠ "-0"
  /-- It stands for the decimal that the value is rounded to. -/
  formats : value.FormatsTo places d.value
  /-- That is the nearest one to the value itself if the value is exact. -/
  rounds : ∀ n q, value = .number n → n.IsExact → n.rational? = some q →
    RoundsTo places q d.value
  /-- Its text is printed with this number of places. -/
  printed : filterNumber value places = .ok d.text
  /-- So it is if the number of places is a value, unless there are too many for any text. -/
  asked : filterNumberAs value (.int places) =
    if places ≤ mostPlaces then .ok d.text else .error (.unreadable .noPlaces)

/-- Finite numbers are printed as numerals. -/
theorem exists_printsAs (finite : value.isFinite = .ok true) (hp : 1 ≤ places) :
    ∃ d, value.PrintsAs places d := by
  obtain ⟨s, units, grid, hreal⟩ := exists_finite_of_isFinite finite
  have hrounded := roundsTo_ofParts hp s units
  have htext := decimalText_eq hp s units grid
  generalize roundQuotient (units * 10 ^ places) Grid.unitsPerOne = parts at hrounded htext
  have hcanonical := canonical_ofParts hp s parts
  have hformats : value.FormatsTo places (ofParts places s parts).value :=
    ⟨_, _, hreal, rfl, hrounded⟩
  have hprinted : filterNumber value places = .ok (ofParts places s parts).text := by
    rw [filterNumber, hreal, Outcome.ok_bind, htext]
    rfl
  refine ⟨_, hcanonical, length_fraction_ofParts hp s parts, hcanonical.text_ne, hformats, ?_,
    hprinted, filterNumberAs_places finite hprinted⟩
  rintro n q rfl exact hq
  exact hformats.roundsTo exact hq

/-- A finite number is printed as the shortest numeral of what it is rounded to. Finite
numbers that are rounded alike are printed alike, and no others. -/
theorem printed_of_isFinite (finite : value.isFinite = .ok true) (hp : 1 ≤ places) :
    ∃ d, value.PrintsAs places d ∧ ∀ other : Value, other.isFinite = .ok true →
      (other.FormatsTo places d.value → other.PrintsAs places d) ∧
      (filterNumber other places = .ok d.text → other.PrintsAs places d) := by
  obtain ⟨d, hd⟩ := exists_printsAs finite hp
  refine ⟨d, hd, fun other hother => ?_⟩
  obtain ⟨e, he⟩ := exists_printsAs hother hp
  constructor
  · intro hformats
    have hvalue : e.value = d.value := he.formats.unique hformats
    exact he.canonical.eq_of_value hd.canonical hvalue ▸ he
  · intro hprinted
    have htext : e.text = d.text := Except.ok.inj (he.printed.symm.trans hprinted)
    exact he.canonical.eq_of_text hd.canonical htext ▸ he

/-- One sixteenth below zero lies halfway between two decimals of three places, of which the
even one is printed. -/
theorem printed_of_isFinite_sixteenth :
    (Value.real (.ofRatio true 1 16)).isFinite = .ok true ∧ 1 ≤ 3 ∧
      ∃ d : Numeral, (Value.real (.ofRatio true 1 16)).PrintsAs 3 d ∧ d.text = "-0.062" := by
  have hfinite : (Value.real (.ofRatio true 1 16)).isFinite = .ok true :=
    Outcome.eq_ok_of_toOption (by decide +kernel)
  have hcomputed : filterNumber (.real (.ofRatio true 1 16)) 3 = .ok "-0.062" :=
    Outcome.eq_ok_of_toOption (by decide +kernel)
  obtain ⟨d, hd, _⟩ := printed_of_isFinite hfinite (show 1 ≤ 3 by decide)
  exact ⟨hfinite, by decide, d, hd, Except.ok.inj (hd.printed.symm.trans hcomputed)⟩

end Value

end Montage
