import Montage.Proofs.Value.Moment

/-!
# Values that are forced into a range

A value can be forced into a range exactly when it counts as a number other than
not-a-number, whatever its size. What comes out is a finite number between the
ends of the range.
-/

namespace Montage

namespace Value

/-- Whether a value counts as a number other than not-a-number: any integer and any
double that is not not-a-number does, the infinite ones included, and so does a
boolean. -/
def counts (value : Value) : Bool := value.number?.any fun n => !n.isNaN

/-- A value that counts as a finite number between two integers. -/
def Within (low high : Int) (value : Value) : Prop :=
  ∃ n units, value.number? = some n ∧ n.place? = some (.inner units) ∧
    low * Grid.unitsPerOne ≤ units ∧ units ≤ high * Grid.unitsPerOne

/-- An end of a range: a value that counts as an integer, told with a point or
without one. -/
def IsEnd (k : Int) (value : Value) : Prop :=
  ∃ n, value.number? = some n ∧ n.place? = (Number.int k).place?

variable {value low high forced : Value} {a b : Int}

/-- An integer is an end. -/
theorem isEnd_int (k : Int) : (int k).IsEnd k := ⟨.int k, rfl, rfl⟩

/-- So is its double. -/
theorem isEnd_real {n : Nat} (h : n ≤ 2 ^ 53) : (real (.ofNat n)).IsEnd n :=
  ⟨.real (.ofNat n), rfl, Binary64.place?_ofNat h⟩

/-- What does not count is not-a-number or no number at all. -/
theorem counts_eq_false : value.counts = false ↔ value.isNaN = true ∨ value.number? = none := by
  cases value with
  | number n => simp [counts, number?, isNaN]
  | bool b => simp [counts, number?, isNaN, Number.isNaN]
  | _ => simp [counts, number?]

/-- A double counts unless it is not-a-number. -/
theorem counts_real {x : Binary64} (h : x.isNaN = false) : (real x).counts = true :=
  congrArg not h

/-- A value can be forced between numbers exactly when it counts as one. -/
theorem exists_clamp_iff (hlow : low.IsEnd a) (hhigh : high.IsEnd b) :
    (∃ forced, value.clamp low high = .ok forced) ↔ value.counts = true := by
  obtain ⟨l, hl, _⟩ := hlow
  obtain ⟨h, hh, _⟩ := hhigh
  constructor
  · rintro ⟨forced, hforced⟩
    by_contra hnot
    rw [Bool.not_eq_true, counts_eq_false] at hnot
    unfold clamp at hforced
    split at hforced
    · cases hforced
    · next hnan =>
      simp only [Outcome.bind_eq_ok, smaller] at hforced
      obtain ⟨_, ⟨below, hbelow, _⟩, _⟩ := hforced
      obtain ⟨n, hn, _⟩ := number?_of_ok_lt hh hbelow
      rcases hnot with hnot | hnot
      · exact hnan hnot
      · rw [hn] at hnot
        cases hnot
  · intro hcounts
    have hnan : ¬ value.isNaN = true := fun hnan => by
      rw [counts_eq_false.mpr (.inl hnan)] at hcounts
      cases hcounts
    obtain ⟨n, hn⟩ : ∃ n, value.number? = some n := by
      refine Option.ne_none_iff_exists'.mp fun hnone => ?_
      rw [counts_eq_false.mpr (.inr hnone)] at hcounts
      cases hcounts
    unfold clamp smaller larger
    rw [if_neg hnan, lt_of_numbers hn hh, Outcome.ok_bind]
    -- whichever of the two is smaller, it is compared with the lower end
    split
    · rw [pure_bind, lt_of_numbers hl hn, Outcome.ok_bind]
      split <;> exact ⟨_, rfl⟩
    · rw [pure_bind, lt_of_numbers hl hh, Outcome.ok_bind]
      split <;> exact ⟨_, rfl⟩

/-- An end lies within every range that it lies in. -/
theorem IsEnd.within {k : Int} (h : value.IsEnd k) (hlow : a ≤ k) (hhigh : k ≤ b) :
    value.Within a b := by
  obtain ⟨n, hn, hplace⟩ := h
  have hu : (0 : Int) ≤ Grid.unitsPerOne := Int.natCast_nonneg _
  exact ⟨n, _, hn, hplace, Int.mul_le_mul_of_nonneg_right hlow hu,
    Int.mul_le_mul_of_nonneg_right hhigh hu⟩

/-- A value between two ends lies within their range. -/
theorem within_of_between (hlow : low.IsEnd a) (hhigh : high.IsEnd b)
    (above : low.lt value = .ok true) (below : value.lt high = .ok true) : value.Within a b := by
  obtain ⟨l, hl, hlplace⟩ := hlow
  obtain ⟨h, hh, hhplace⟩ := hhigh
  obtain ⟨n, hn, hbelow⟩ := number?_of_ok_lt hh below
  rw [lt_of_numbers hl hn] at above
  obtain ⟨p, q, hp, hq, habove⟩ := Number.lt_iff.mp (Except.ok.inj above)
  obtain ⟨r, s, hr, hs, hbelow⟩ := Number.lt_iff.mp hbelow
  rw [hlplace] at hp
  rw [hhplace] at hs
  cases hp
  cases hs
  rw [hq] at hr
  cases hr
  cases q with
  | bottom => cases habove
  | top => cases hbelow
  | inner units =>
    exact ⟨n, units, hn, hq, (of_decide_eq_true habove).le, (of_decide_eq_true hbelow).le⟩

/-- What is forced into a range lies within it. -/
theorem within_of_clamp (hlow : low.IsEnd a) (hhigh : high.IsEnd b) (hab : a ≤ b)
    (h : value.clamp low high = .ok forced) : forced.Within a b := by
  rcases clamp_cases h with rfl | ⟨rfl, _, _⟩ | ⟨rfl, hbelow, habove⟩
  · exact hlow.within le_rfl hab
  · exact hhigh.within hab le_rfl
  · exact within_of_between hlow hhigh habove hbelow

/-- A percentage comes out between zero and a hundred. -/
theorem within_of_clampPercent (h : value.clampPercent = .ok forced) : forced.Within 0 100 :=
  within_of_clamp (isEnd_real (n := 0) (by decide)) (isEnd_real (n := 100) (by decide))
    (by decide) h

/-- An opacity comes out between zero and one. -/
theorem within_of_clampOpacity (h : value.clampOpacity = .ok forced) : forced.Within 0 1 :=
  within_of_clamp (isEnd_real (n := 0) (by decide)) (isEnd_real (n := 1) (by decide))
    (by decide) h

/-- A percentage can be forced into its range exactly when it counts. -/
theorem exists_clampPercent_iff :
    (∃ forced, value.clampPercent = .ok forced) ↔ value.counts = true :=
  exists_clamp_iff (isEnd_real (n := 0) (by decide)) (isEnd_real (n := 100) (by decide))

/-- So can an opacity. -/
theorem exists_clampOpacity_iff :
    (∃ forced, value.clampOpacity = .ok forced) ↔ value.counts = true :=
  exists_clamp_iff (isEnd_real (n := 0) (by decide)) (isEnd_real (n := 1) (by decide))

/-- A percentage cannot be forced into its range exactly when it is not-a-number
or no number at all. -/
theorem clampPercent_eq_error :
    (∃ fault, value.clampPercent = .error fault) ↔
      value.isNaN = true ∨ value.number? = none := by
  rw [← counts_eq_false, ← Bool.not_eq_true, ← exists_clampPercent_iff]
  cases value.clampPercent <;> simp

end Value

end Montage
