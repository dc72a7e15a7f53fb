import Montage.Graph.Numeral
import Montage.Proofs.Graph.Links
import Montage.Proofs.Value.Clamp

/-!
# Numbers as filter arguments

Times and shares of the frame are written with digits, a point and a sign, or as
one of two words, so they never break a filter text apart. Every finite time and
everything that was forced into the range of percentages or opacities can be
written.
-/

namespace Montage

/-- The digits of a natural number are plain. -/
theorem Text.plainChars_toString (n : Nat) : PlainChars (toString n).toList := by
  rw [Nat.toString_eq_repr, Nat.toList_repr]
  exact plainChars_toDigits n

/-- The digits of an integer are plain. -/
theorem Value.plain_display_int (n : Int) : (Value.int n).display.Plain := by
  refine Text.plain_ofChars ?_
  cases n with
  | ofNat n => exact Text.plainChars_toString n
  | negSucc n =>
    have hsign : Text.PlainChars "-".toList := by decide
    change Text.PlainChars ("-" ++ toString (n + 1)).toList
    rw [String.toList_append]
    exact hsign.append (Text.plainChars_toString _)

/-- A text with a decimal point is plain. -/
theorem Binary64.plainChars_fixedDigits (num den places : Nat) :
    Text.PlainChars (fixedDigits num den places).toList := by
  unfold fixedDigits
  dsimp only
  split
  · exact Text.plainChars_toString _
  · have hzeros : ∀ count, Text.PlainChars (List.replicate count '0') := by
      intro count c hc
      rw [List.eq_of_mem_replicate hc]
      decide
    simp only [String.toList_append, String.toList_ofList]
    have hpoint : Text.PlainChars ".".toList := by decide
    exact (((Text.plainChars_toString _).append hpoint).append (hzeros _)).append
      (Text.plainChars_toString _)

/-- The decimals of a double are plain. -/
theorem Binary64.plainChars_fixed (places : Nat) (x : Binary64) :
    Text.PlainChars (x.fixed places).toList := by
  have hsign : ∀ negative, Text.PlainChars (signText negative).toList := by
    intro negative
    cases negative <;> decide
  cases x with
  | nan origin =>
    have hname : Text.PlainChars "nan".toList := by decide
    exact hname
  | infinity negative =>
    rw [fixed, String.toList_append]
    exact (hsign negative).append (by decide)
  | finite negative units grid =>
    rw [fixed, String.toList_append]
    exact (hsign negative).append (plainChars_fixedDigits _ _ _)

/-- Cutting zeros off keeps characters plain. -/
theorem plainChars_shortened {s : String} (h : Text.PlainChars s.toList) :
    Text.PlainChars (shortened s).toList := by
  have htrim : Text.PlainChars (trimFraction s).toList := by
    intro c hc
    simp only [trimFraction, String.toList_ofList, List.mem_reverse] at hc
    have hdigits := (List.dropWhile_suffix _).subset hc
    exact h c (List.mem_reverse.mp ((List.dropWhile_suffix _).subset hdigits))
  unfold shortened
  dsimp only
  split
  · decide
  · exact htrim

/-- A decimal in a filter argument is plain. -/
theorem plain_decimalText (places : Nat) (x : Binary64) :
    (Text.ofString (decimalText places x)).Plain :=
  Text.plain_ofChars (plainChars_shortened (x.plainChars_fixed places))

namespace Value

/-- A value that has a double can be written. -/
theorem exists_filterNumber {value : Value} {n : Number} (places : Nat)
    (hn : value.number? = some n) (hreal : n.toReal?.isSome = true) :
    ∃ t, filterNumber value places = .ok t ∧ t.Plain := by
  obtain ⟨x, hx⟩ := Option.isSome_iff_exists.mp hreal
  refine ⟨_, ?_, plain_decimalText places x⟩
  simp [filterNumber, toReal, hn, hx, orFault, pure, Except.pure]

/-- Finite numbers can be written. -/
theorem exists_filterNumber_of_isFinite {value : Value} (places : Nat)
    (h : value.isFinite = .ok true) : ∃ t, filterNumber value places = .ok t ∧ t.Plain := by
  obtain ⟨n, _, rfl, _⟩ := isFinite_eq_true h
  refine exists_filterNumber places rfl ?_
  cases n with
  | real x => rfl
  | int n =>
    simp only [isFinite, Outcome.orFault_eq_ok, Number.isFinite?, Option.ite_none_right_eq_some] at h
    simp [Number.toReal?, h.1]

/-- What was forced into the range of percentages has a share of the frame. -/
theorem exists_share {value forced : Value} (h : value.clampPercent = .ok forced) :
    ∃ x, forced.div (.int 100) = .ok x := by
  have hends : ∀ x : Binary64, ∃ y, (real x).div (.int 100) = .ok y := by
    intro x
    have hhundred := Number.toReal?_ofNat (m := 100) (by decide)
    exact ⟨_, (div_eq_ok rfl rfl).mpr (Number.div?_real x hhundred)⟩
  rcases clamp_cases h with rfl | ⟨rfl, _, _⟩ | ⟨rfl, hbelow, habove⟩
  · exact hends 0
  · exact hends 100
  · obtain ⟨n, hn, hlt⟩ := number?_of_ok_lt rfl hbelow
    cases n with
    | real x =>
      cases forced with
      | number m =>
        cases hn
        exact hends x
      | _ => cases hn
    | int k =>
      rw [lt_of_numbers rfl hn] at habove
      obtain ⟨hlow, hhigh⟩ : 0 < k ∧ k < (100 : Nat) :=
        Number.between_ofNat (by decide) (Except.ok.inj habove) hlt
      have hshare : k.natAbs ≤ (100 : Int).natAbs := by omega
      obtain ⟨y, hy⟩ := Number.exists_div?_int (by decide) hshare
      exact ⟨y, (div_eq_ok hn rfl).mpr hy⟩

/-- What was forced into the range of opacities can be written. -/
theorem exists_level {value forced : Value} (places : Nat) (h : value.clampOpacity = .ok forced) :
    forced.isNull = false ∧ ∃ t, filterNumber forced places = .ok t ∧ t.Plain := by
  rcases clamp_cases h with rfl | ⟨rfl, _, _⟩ | ⟨rfl, hbelow, habove⟩
  · exact ⟨rfl, exists_filterNumber places rfl rfl⟩
  · exact ⟨rfl, exists_filterNumber places rfl rfl⟩
  · obtain ⟨n, hn, hlt⟩ := number?_of_ok_lt rfl hbelow
    have hnull : forced.isNull = false := by
      cases forced with
      | null => cases hn
      | _ => rfl
    refine ⟨hnull, exists_filterNumber places hn ?_⟩
    cases n with
    | real x => rfl
    | int k =>
      rw [lt_of_numbers rfl hn] at habove
      obtain ⟨hlow, hhigh⟩ : 0 < k ∧ k < (1 : Nat) :=
        Number.between_ofNat (by decide) (Except.ok.inj habove) hlt
      omega

end Value

end Montage
