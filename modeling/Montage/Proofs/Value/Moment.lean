import Montage.Proofs.Number.Moment
import Montage.Proofs.Number.Order
import Montage.Proofs.Outcome
import Montage.Proofs.Value.Agreement

/-!
# Values that are moments

What an edit accepts as a time is a finite number. Forced into the range of a
source, or added to the in time of a clip, it is a moment again, unless the sum
is too large for a finite double.
-/

namespace Montage.Value

/-- A value that counts as a finite number from zero on. -/
def IsMoment (value : Value) : Prop := ∃ n, value.number? = some n ∧ n.IsMoment

/-- What counts as a number is ordered by it, with anything that does, too. -/
theorem inOrder_of_number {a : Value} {m : Number} (ha : a.number? = some m) (order : Ordering)
    (b : Value) :
    inOrder order a b =
      (orFault .illTyped b.number?).map fun n => order.onNumbers m n := by
  cases a with
  | bool c => cases ha; cases b <;> rfl
  | number k => cases ha; cases b <;> rfl
  | _ => simp [number?] at ha

/-- Values that count as numbers are ordered like these. -/
theorem lt_of_numbers {a b : Value} {m n : Number} (ha : a.number? = some m)
    (hb : b.number? = some n) : a.lt b = .ok (m.lt n) := by
  rw [lt, inOrder_of_number ha, hb]
  rfl

/-- The same for "at most". -/
theorem le_of_numbers {a b : Value} {m n : Number} (ha : a.number? = some m)
    (hb : b.number? = some n) : a.le b = .ok (m.le n) := by
  rw [le, inOrder_of_number ha, hb]
  rfl

/-- What can be compared with a number counts as one. -/
theorem number?_of_lt_ok {a b : Value} {m : Number} {less : Bool} (ha : a.number? = some m)
    (h : a.lt b = .ok less) : ∃ n, b.number? = some n ∧ m.lt n = less := by
  cases hb : b.number? with
  | some n => exact ⟨n, rfl, by simpa [lt_of_numbers ha hb] using h⟩
  | none =>
    rw [lt, inOrder_of_number ha, hb] at h
    cases h

/-- What can be compared with a number on its right counts as one. -/
theorem number?_of_ok_lt {a b : Value} {n : Number} {less : Bool} (hb : b.number? = some n)
    (h : a.lt b = .ok less) : ∃ m, a.number? = some m ∧ m.lt n = less := by
  cases ha : a.number? with
  | some m => exact ⟨m, rfl, by simpa [lt_of_numbers ha hb] using h⟩
  | none =>
    cases a with
    | bool c => cases ha
    | number k => cases ha
    | null => cases b <;> cases h
    | text s =>
      cases b with
      | text t => cases hb
      | _ => cases h
    | list items =>
      cases b with
      | list others => cases hb
      | _ => simp [lt, inOrder] at h
    | record fields => cases b <;> cases h

/-- A finite number is a number with a place within the line. -/
theorem isFinite_eq_true {value : Value} (h : value.isFinite = .ok true) :
    ∃ n units, value = .number n ∧ n.place? = some (.inner units) := by
  cases value with
  | number n =>
    cases n with
    | int n => exact ⟨.int n, _, rfl, rfl⟩
    | real x =>
      simp only [isFinite, Outcome.orFault_eq_ok, Number.isFinite?, Option.some.injEq] at h
      cases x with
      | finite s a grid => exact ⟨.real (.finite s a grid), _, rfl, rfl⟩
      | nan origin => simp [Binary64.isFinite] at h
      | infinity s => simp [Binary64.isFinite] at h
  | _ => simp [isFinite] at h

/-- What has a finite double is finite. -/
theorem isFinite_of_toReal? {n : Number} {x : Binary64} (h : n.toReal? = some x)
    (finite : x.isFinite = true) : (number n).isFinite = .ok true := by
  cases n with
  | int k =>
    rw [Number.toReal?, Option.ite_none_right_eq_some] at h
    rw [isFinite, Number.isFinite?, if_pos h.1, orFault]
  | real y =>
    rw [Number.toReal?, Option.some.injEq] at h
    rw [isFinite, Number.isFinite?, h, finite, orFault]

/-- What stands on the line is not not-a-number. -/
theorem not_isNaN_of_place {n : Number} {p : Place} (h : n.place? = some p) :
    (number n).isNaN = false := by
  cases n with
  | int n => rfl
  | real x =>
    cases x with
    | nan origin => cases h
    | infinity s => rfl
    | finite s a grid => rfl

/-- What equals something is not not-a-number. -/
theorem not_isNaN_of_equal {a b : Value} (h : a.equal b = true) : a.isNaN = false := by
  cases a with
  | number n =>
    obtain ⟨m, hm, he⟩ := exists_number_of_equal (a := b) (by rwa [equal_comm]) rfl
    obtain ⟨p, _, hp⟩ := Number.equal_iff.mp he
    exact not_isNaN_of_place hp
  | _ => rfl

/-- A finite number that is not below a moment is a moment. -/
theorem isMoment_of_not_lt {value low : Value} (hf : value.isFinite = .ok true)
    (hl : low.IsMoment) (h : value.lt low = .ok false) : value.IsMoment := by
  obtain ⟨n, units, rfl, hn⟩ := isFinite_eq_true hf
  obtain ⟨m, hm, low, hlow⟩ := hl
  rw [lt_of_numbers rfl hm, Number.lt_of_places hn hlow] at h
  simp only [Except.ok.injEq, decide_eq_false_iff_not] at h
  exact ⟨n, rfl, units.toNat, by rw [hn, Int.toNat_of_nonneg (by omega)]⟩

/-- The zeros of both kinds are moments. -/
theorem isMoment_real_zero : (real 0).IsMoment :=
  ⟨.real 0, rfl, 0, Number.place?_real_zero⟩

/-- The integer zero is a moment. -/
theorem isMoment_int_zero : (int 0).IsMoment :=
  ⟨.int 0, rfl, Number.isMoment_int.mpr le_rfl⟩

/-- The shortest clip has a length. -/
theorem isMoment_minClipDuration : (real minClipDuration).IsMoment := by
  have hlength : minClipDuration.isFinite = true ∧
      (Number.real 0).lt (.real minClipDuration) = true := by
    decide +kernel
  exact ⟨.real minClipDuration, rfl, Binary64.isMoment_of_pos hlength.1 hlength.2⟩

/-- A value that is forced into a range becomes one of the ends or stays as it
is between them. -/
theorem clamp_cases {value low high forced : Value} (h : value.clamp low high = .ok forced) :
    forced = low ∨
      (forced = high ∧ value.lt high = .ok false ∧ low.lt high = .ok true) ∨
      (forced = value ∧ value.lt high = .ok true ∧ low.lt value = .ok true) := by
  unfold clamp at h
  split at h
  · cases h
  · simp only [Outcome.bind_eq_ok, larger, smaller] at h
    obtain ⟨least, ⟨below, hbelow, hleast⟩, above, habove, hforced⟩ := h
    cases above with
    | false =>
      have hlow : low = forced := by simpa using hforced
      exact .inl hlow.symm
    | true =>
      have hsame : least = forced := by simpa using hforced
      subst hsame
      cases below with
      | false =>
        have hhigh : high = least := by simpa using hleast
        subst hhigh
        exact .inr (.inl ⟨rfl, hbelow, habove⟩)
      | true =>
        have hvalue : value = least := by simpa using hleast
        subst hvalue
        exact .inr (.inr ⟨rfl, hbelow, habove⟩)

/-- A finite number that is forced into a range from zero on becomes a moment,
whatever the upper end is. -/
theorem isMoment_clamp {value native forced : Value} (hf : value.isFinite = .ok true)
    (h : value.clamp (.real 0) native = .ok forced) : forced.IsMoment := by
  obtain ⟨n, units, rfl, hn⟩ := isFinite_eq_true hf
  rcases clamp_cases h with rfl | ⟨rfl, hlt, habove⟩ | ⟨rfl, _, habove⟩
  · exact isMoment_real_zero
  · obtain ⟨top, htop, hlt⟩ := number?_of_lt_ok rfl hlt
    rw [lt_of_numbers rfl htop] at habove
    simp only [Except.ok.injEq] at habove
    -- the upper end lies above zero and not above a finite number, so it is finite
    cases hp : top.place? with
    | none => simp [Number.lt, hp] at habove
    | some p =>
      cases p with
      | bottom => simp [Number.lt, hp, Number.place?_real_zero, Place.lt] at habove
      | top => simp [Number.lt, hp, hn, Place.lt] at hlt
      | inner b =>
        rw [Number.lt_of_places Number.place?_real_zero hp] at habove
        simp only [decide_eq_true_eq] at habove
        exact ⟨top, htop, b.toNat, by rw [hp, Int.toNat_of_nonneg (by omega)]⟩
  · rw [lt_of_numbers rfl rfl, Number.lt_of_places Number.place?_real_zero hn] at habove
    simp only [Except.ok.injEq, decide_eq_true_eq] at habove
    exact ⟨n, rfl, units.toNat, by rw [hn, Int.toNat_of_nonneg (by omega)]⟩

/-- A number that is forced between zero and a count of places, with its
fraction cut off, is one of these places. -/
theorem toWhole_clamp {value forced : Value} {count : Nat} {place : Int}
    (hf : value.isFinite = .ok true)
    (hc : value.clamp (.int 0) (.int count) = .ok forced) (hw : forced.toWhole = .ok place) :
    0 ≤ place ∧ place ≤ count := by
  obtain ⟨n, units, rfl, hn⟩ := isFinite_eq_true hf
  have hu : (0 : Int) < Grid.unitsPerOne := by exact_mod_cast Grid.unitsPerOne_pos
  have hplace : ∀ k : Int, (Number.int k).place? = some (.inner (k * Grid.unitsPerOne)) :=
    fun k => rfl
  rcases clamp_cases hc with rfl | ⟨rfl, _, _⟩ | ⟨rfl, hbelow, habove⟩
  · cases hw
    omega
  · cases hw
    omega
  · rw [lt_of_numbers rfl rfl, Number.lt_of_places hn (hplace count)] at hbelow
    rw [lt_of_numbers rfl rfl, Number.lt_of_places (hplace 0) hn] at habove
    simp only [Except.ok.injEq, decide_eq_true_eq] at hbelow habove
    cases n with
    | int k =>
      cases hw
      simp only [Number.place?, Option.some.injEq, Place.inner.injEq] at hn
      rw [← hn] at hbelow habove
      exact ⟨(Int.lt_of_mul_lt_mul_right habove hu.le).le,
        (Int.lt_of_mul_lt_mul_right hbelow hu.le).le⟩
    | real x =>
      rw [Int.zero_mul] at habove
      obtain ⟨s, a, grid, rfl, ha⟩ :=
        Binary64.isMoment_iff.mp ⟨units.toNat, by rw [hn, Int.toNat_of_nonneg habove.le]⟩
      simp only [Number.place?, Binary64.place?, Option.some.injEq, Place.inner.injEq] at hn
      rw [← hn, ha] at hbelow habove
      have hs : s = false := by
        cases s with
        | false => rfl
        | true =>
          simp only [Binary64.signed, if_true] at ha
          omega
      subst hs
      simp only [toWhole, Binary64.truncate?, Outcome.orFault_eq_ok, Option.some.injEq,
        Binary64.signed, Bool.false_eq_true, if_false] at hw
      have hdiv : a / Grid.unitsPerOne < count :=
        Nat.div_lt_of_lt_mul (by rw [Nat.mul_comm]; exact_mod_cast hbelow)
      rw [← hw]
      exact ⟨Int.natCast_nonneg _, by exact_mod_cast hdiv.le⟩

/-- The difference of what counts as numbers is theirs. -/
theorem sub_eq_ok {a b : Value} {m n c : Number} (ha : a.number? = some m)
    (hb : b.number? = some n) : a.sub b = .ok c ↔ m.sub? n = some c := by
  simp only [sub, arithmetic, ha, hb, Outcome.orFault_eq_ok]

/-- The sum of what counts as numbers is theirs. -/
theorem add_eq_ok {a b : Value} {m n c : Number} (ha : a.number? = some m)
    (hb : b.number? = some n) : a.add b = .ok c ↔ m.add? n = some c := by
  simp only [add, arithmetic, ha, hb, Outcome.orFault_eq_ok]

/-- The product of what counts as numbers is theirs. -/
theorem mul_eq_ok {a b : Value} {m n c : Number} (ha : a.number? = some m)
    (hb : b.number? = some n) : a.mul b = .ok c ↔ m.mul? n = some c := by
  simp only [mul, arithmetic, ha, hb, Outcome.orFault_eq_ok]

/-- The quotient of what counts as numbers is theirs. -/
theorem div_eq_ok {a b : Value} {m n : Number} {x : Binary64} (ha : a.number? = some m)
    (hb : b.number? = some n) : a.div b = .ok x ↔ m.div? n = some x := by
  simp only [div, ha, hb, Outcome.orFault_eq_ok]

/-- The length between two moments is finite as a double. -/
theorem sub_isFinite {a b : Value} {n : Number} {x : Binary64} (ha : a.IsMoment)
    (hb : b.IsMoment) (h : a.sub b = .ok n) (hx : n.toReal? = some x) : x.isFinite = true := by
  obtain ⟨k, hk, hkm⟩ := ha
  obtain ⟨l, hl, hlm⟩ := hb
  exact Number.sub?_isFinite hkm hlm ((sub_eq_ok hk hl).mp h) hx

/-- The sum of two moments is a moment or the infinite double. -/
theorem isMoment_add {a b : Value} {n : Number} (ha : a.IsMoment) (hb : b.IsMoment)
    (h : a.add b = .ok n) : (number n).IsMoment ∨ n = .real (.infinity false) := by
  obtain ⟨k, hk, hkm⟩ := ha
  obtain ⟨l, hl, hlm⟩ := hb
  rcases Number.add?_moments hkm hlm ((add_eq_ok hk hl).mp h) with hm | hm
  · exact .inl ⟨n, rfl, hm⟩
  · exact .inr hm

end Montage.Value
