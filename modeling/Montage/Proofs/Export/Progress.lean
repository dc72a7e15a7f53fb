import Montage.Export.Progress
import Montage.Proofs.Number.Moment
import Montage.Proofs.Value.Moment

/-!
# Percentages that only grow

The positions that the engine reports may go back and forth. What is told of them
are the percentages that are larger than all before, so these rise from zero
and stay within a hundred. As long as no position lies beyond the doubles, every
line is read without a fault.
-/

namespace Montage

namespace Number

/-- A number is not above zero when its double is not. -/
theorem le_zero_of_toReal? {n : Number} {x : Binary64} (h : n.toReal? = some x) :
    n.le 0 = (real x).le 0 := by
  cases n with
  | real y =>
    rw [toReal?, Option.some.injEq] at h
    rw [h]
  | int k =>
    have hstep : Grid.step Grid.unitsPerOne ∣ Grid.unitsPerOne := by
      simpa using (Grid.representable_of_le (q := 1) (by decide)).2
    rw [toReal?, Option.ite_none_right_eq_some] at h
    obtain ⟨hfinite, h⟩ := h
    rcases Binary64.ofUnits_cases (decide (k < 0))
        (Grid.nearest (k.natAbs * Grid.unitsPerOne) 1) with ⟨grid, he⟩ | he
    · obtain rfl : x = .finite (decide (k < 0)) _ grid := (Option.some.inj h).symm.trans he
      have hplace := le_of_places (rfl : (real (.finite (decide (k < 0)) _ grid)).place? = _)
        place?_int_zero
      refine (le_int k 0).trans (Eq.trans (decide_eq_decide.mpr ?_) hplace.symm)
      rcases Int.lt_trichotomy k 0 with hneg | rfl | hpos
      · simp [Binary64.signed, hneg, hneg.le]
      · have hnone : Grid.nearest 0 1 ≤ 0 :=
          Grid.nearest_le Nat.one_pos (Nat.dvd_zero _) (Nat.zero_le _)
        simp [Binary64.signed, Nat.le_zero.mp hnone]
      · have hone : Grid.unitsPerOne ≤ Grid.nearest (k.natAbs * Grid.unitsPerOne) 1 := by
          refine Grid.le_nearest Nat.one_pos hstep ?_
          rw [Nat.mul_one]
          exact Nat.le_mul_of_pos_left _ (Int.natAbs_pos.mpr hpos.ne')
        have hunits := Grid.unitsPerOne_pos
        simp only [Binary64.signed, hpos.not_gt, decide_false, Bool.false_eq_true, if_false]
        omega
    · have hinfinite : Binary64.ofInt k = .infinity (decide (k < 0)) := he
      rw [hinfinite] at hfinite
      cases hfinite

end Number

namespace Progress

/-! ## Positions -/

/-- The whole number that a line reports as a position. -/
def reading? (line : Text) : Option Int :=
  let points := line.trim.points
  let name : Text := ⟨points.takeWhile (· ≠ .char '=')⟩
  let value : Text := ⟨(points.dropWhile (· ≠ .char '=')).drop 1⟩
  if positionNames.contains name then value.wholeNumber? else none

/-- The positions that lines report before one says that the engine is done. -/
def readings : List Text → List Int
  | [] => []
  | line :: lines =>
    match reading? line with
    | some units => units :: readings lines
    | none => if isEnd line then [] else readings lines

/-- A position in seconds. -/
def seconds (units : Int) : Binary64 := .ofRatio (decide (units < 0)) units.natAbs 1000000

/-- A position that is near enough for the percentages of every duration. -/
def Near (units : Int) : Prop := units.natAbs < 10 ^ 300

instance (units : Int) : Decidable (Near units) :=
  inferInstanceAs (Decidable (units.natAbs < 10 ^ 300))

/-- A position so far away that there is no double for it. -/
def Distant (units : Int) : Prop := (Number.int units).div? unitsPerSecond = none

instance (units : Int) : Decidable (Distant units) :=
  inferInstanceAs (Decidable ((Number.int units).div? unitsPerSecond = none))

/-- A line without a position reports none. -/
theorem position?_of_none {line : Text} (h : reading? line = none) :
    position? line = .ok none := by
  unfold reading? at h
  unfold position?
  dsimp only at h ⊢
  split at h
  · next hname => rw [if_pos hname, h]
  · next hname => rw [if_neg hname]

/-- A line with a position reports it as far as there is a double for it. -/
theorem position?_of_some {line : Text} {units : Int} (h : reading? line = some units) :
    position? line = (orFault .tooLarge ((Number.int units).div? unitsPerSecond)).map some := by
  unfold reading? at h
  unfold position?
  dsimp only at h ⊢
  split at h
  · next hname => rw [if_pos hname, h]
  · cases h

/-- A near position lies on the grid, so far from its end that its hundredfold
does, too. -/
theorem exists_seconds {units : Int} (near : Near units) :
    ∃ s a grid bound, seconds units = .finite s a grid ∧ a ≤ bound ∧
      Grid.Representable (bound * 100) := by
  obtain ⟨bound, hbound, hlarge, hhundred⟩ : ∃ bound, Grid.Representable bound ∧
      10 ^ 300 * Grid.unitsPerOne ≤ bound * 1000000 ∧ Grid.Representable (bound * 100) :=
    ⟨Nat.pow 2 2054, by decide +kernel⟩
  have hscaled : units.natAbs * Grid.unitsPerOne ≤ bound * 1000000 :=
    (Nat.mul_le_mul_right _ (Nat.le_of_lt near)).trans hlarge
  have hpos : 0 < 1000000 := by decide
  have hgrid := Grid.representable_nearest_of_le hpos hbound hscaled
  have hseconds : seconds units = .finite (decide (units < 0)) _ hgrid := by
    rw [seconds, Binary64.ofRatio, Binary64.ofUnits_of_representable hgrid]
  exact ⟨_, _, hgrid, bound, hseconds, Grid.nearest_le hpos hbound.2 hscaled, hhundred⟩

/-- A line with a near position reports its seconds. -/
theorem position?_of_near {line : Text} {units : Int} (h : reading? line = some units)
    (near : Near units) : position? line = .ok (some (seconds units)) := by
  obtain ⟨s, a, grid, _, hfinite, _⟩ := exists_seconds near
  have hdiv : (Number.int units).div? unitsPerSecond = some (seconds units) := by
    have hpositive : decide ((1000000 : Int) < 0) = false := by decide
    have hvalue : seconds units = .ofRatio (decide (units < 0)) units.natAbs 1000000 := rfl
    change (Number.int units).div? (.int 1000000) = _
    rw [Number.div?, if_neg (by decide), hpositive, Bool.bne_false]
    change (if (Binary64.ofRatio (decide (units < 0)) units.natAbs 1000000).isFinite then
      some (Binary64.ofRatio (decide (units < 0)) units.natAbs 1000000) else none) = _
    rw [← hvalue, hfinite]
    rfl
  rw [position?_of_some h, hdiv]
  rfl

/-- A line with a distant position cannot be read. -/
theorem position?_of_distant {line : Text} {units : Int} (h : reading? line = some units)
    (distant : Distant units) : position? line = .error .tooLarge := by
  rw [position?_of_some h, distant]
  rfl

/-! ## Percentages -/

/-- The percentage of a duration that a position makes, between 0 and 100. A
duration that is not positive is never begun. -/
def percentAt (total : Binary64) (units : Int) : Binary64 :=
  if (Number.real total).le 0 then 0 else (((seconds units).mul 100).div total).within 0 100

/-- The numbers of a list that are larger than a given one and all before. -/
def records (low : Binary64) : List Binary64 → List Binary64
  | [] => []
  | x :: xs => if (Number.real low).lt (.real x) then x :: records x xs else records low xs

/-- The percentages of a duration that are told of lines once a percentage was
told. -/
def percentagesFrom (low total : Binary64) (lines : List Text) : List Binary64 :=
  records low ((readings lines).map (percentAt total))

/-- The percentages of a duration that are told of lines. -/
def percentages (total : Binary64) (lines : List Text) : List Binary64 :=
  percentagesFrom 0 total lines

/-- Percentages that rise from zero and stay within a hundred. -/
structure Grow (percents : List Binary64) : Prop where
  /-- Each is larger than zero and all before. -/
  rises : (0 :: percents).Pairwise fun p q => (Number.real p).lt (.real q) = true
  /-- None is larger than a hundred. -/
  bounded : ∀ p ∈ percents, (Number.real p).le (.real 100) = true

/-- Percentages that rise from one before them. -/
def Rises (low : Binary64) (percents : List Binary64) : Prop :=
  (low :: percents).Pairwise fun p q => (Number.real p).lt (.real q) = true

/-- No percentage is enough to rise. -/
theorem rises_nil (low : Binary64) : Rises low [] := List.pairwise_singleton _ _

/-- A larger percentage is followed by those that rise from it. -/
theorem Rises.cons {low p : Binary64} {percents : List Binary64} (rises : Rises p percents)
    (larger : (Number.real low).lt (.real p) = true) : Rises low (p :: percents) := by
  refine List.pairwise_cons.mpr ⟨fun q hq => ?_, rises⟩
  rcases List.mem_cons.mp hq with rfl | hq
  · exact larger
  · exact Number.lt_trans larger (List.rel_of_pairwise_cons rises hq)

/-- Percentages rise on to one that is larger than the last. -/
theorem Rises.concat {low q : Binary64} {percents : List Binary64} (rises : Rises low percents)
    (larger : (Number.real (percents.getLastD low)).lt (.real q) = true) :
    Rises low (percents ++ [q]) := by
  induction percents generalizing low with
  | nil => exact (rises_nil q).cons larger
  | cons p percents ih =>
    obtain ⟨hhead, hrest⟩ := List.pairwise_cons.mp rises
    rw [List.getLastD_cons] at larger
    exact (ih hrest larger).cons (hhead p List.mem_cons_self)

/-- What is larger than all before is one of the numbers. -/
theorem mem_of_mem_records {low p : Binary64} {xs : List Binary64} (h : p ∈ records low xs) :
    p ∈ xs := by
  induction xs generalizing low with
  | nil => exact h
  | cons x xs ih =>
    rw [records] at h
    split at h
    · rcases List.mem_cons.mp h with rfl | h
      · exact List.mem_cons_self
      · exact List.mem_cons_of_mem _ (ih h)
    · exact List.mem_cons_of_mem _ (ih h)

/-- What is larger than all before rises. -/
theorem rises_records (low : Binary64) (xs : List Binary64) : Rises low (records low xs) := by
  induction xs generalizing low with
  | nil => exact rises_nil low
  | cons x xs ih =>
    rw [records]
    split
    · next hlarger => exact (ih x).cons hlarger
    · exact ih low

/-- Nothing is less than a hundred percent. -/
theorem zero_lt_hundred : (Number.real 0).lt (.real 100) = true :=
  (Number.ofNat_lt (m := 0) (Nat.zero_le _) _).trans
    ((Number.lt_ofNat (m := 100) (by decide) _).trans (Number.lt_int 0 100))

/-- What is forced into the range of percentages is a hundred or less. -/
theorem within_cases (x : Binary64) :
    x.within 0 100 = 100 ∨ (Number.real (x.within 0 100)).lt (.real 100) = true := by
  unfold Binary64.within
  dsimp only
  split
  · next hless =>
    split
    · exact .inr hless
    · exact .inr zero_lt_hundred
  · split
    · exact .inl rfl
    · exact .inr zero_lt_hundred

/-- A percentage is a hundred or less. -/
theorem percentAt_cases (total : Binary64) (units : Int) :
    percentAt total units = 100 ∨ (Number.real (percentAt total units)).lt (.real 100) = true := by
  unfold percentAt
  split
  · exact .inr zero_lt_hundred
  · exact within_cases _

/-- Told percentages are a hundred or less. -/
theorem percentages_cases {total p : Binary64} {lines : List Text}
    (h : p ∈ percentages total lines) :
    p = 100 ∨ (Number.real p).lt (.real 100) = true := by
  obtain ⟨units, _, rfl⟩ := List.mem_map.mp (mem_of_mem_records h)
  exact percentAt_cases total units

/-- A hundred percent are at most a hundred percent. -/
theorem le_hundred : (Number.real 100).le (.real 100) = true := by
  have hplace : (Number.real 100).place? = (Number.int 100).place? :=
    Binary64.place?_ofNat (n := 100) (by decide)
  rw [Number.le, Number.equal_iff.mpr ⟨_, hplace, hplace⟩, Bool.or_true]

/-- The percentages that are told grow. -/
theorem grow_percentages (total : Binary64) (lines : List Text) :
    Grow (percentages total lines) where
  rises := rises_records 0 _
  bounded p hp := by
    rcases percentages_cases hp with hwhole | hless
    · rw [hwhole]
      exact le_hundred
    · exact Number.le_of_lt hless

/-- Percentages grow from the beginning as far as they are heard. -/
theorem Grow.of_isPrefix {percents heard : List Binary64} (grow : Grow percents)
    (h : heard <+: percents) : Grow heard where
  rises := grow.rises.sublist (h.sublist.cons_cons _)
  bounded p hp := grow.bounded p (h.subset hp)

/-- Percentages below a hundred grow on to a hundred. -/
theorem Grow.concat_hundred {percents : List Binary64} (grow : Grow percents)
    (below : (Number.real (percents.getLastD 0)).lt (.real 100) = true) :
    Grow (percents ++ [100]) where
  rises := Rises.concat grow.rises below
  bounded p hp := by
    rcases List.mem_append.mp hp with hp | hp
    · exact grow.bounded p hp
    · rw [List.mem_singleton.mp hp]
      exact le_hundred

/-- A hundred is the same in both kinds of numbers. -/
theorem lt_hundred (n : Number) : n.lt 100 = n.lt (.real 100) :=
  (Number.lt_ofNat (m := 100) (by decide) n).symm

/-- The percentages of a duration with a hundred at the end. -/
def completed (percents : List Binary64) : List Binary64 :=
  percents ++ if (Number.real (percents.getLastD 0)).lt 100 then [100] else []

/-- Percentages still grow when they are completed. -/
theorem Grow.completed {percents : List Binary64} (grow : Grow percents) :
    Grow (completed percents) := by
  unfold Progress.completed
  split
  · next hbelow => exact grow.concat_hundred (lt_hundred _ ▸ hbelow)
  · rwa [List.append_nil]

/-- Completed percentages end at a hundred. -/
theorem getLast?_completed (total : Binary64) (lines : List Text) :
    (completed (percentages total lines)).getLast? = some 100 := by
  unfold completed
  split
  · exact List.getLast?_concat
  · next hbelow =>
    rw [List.append_nil]
    rw [lt_hundred] at hbelow
    rcases List.eq_nil_or_concat (percentages total lines) with hnone | ⟨before, last, hlast⟩
    · rw [hnone] at hbelow
      exact absurd zero_lt_hundred hbelow
    · have hmem : last ∈ percentages total lines := by
        rw [hlast, List.concat_eq_append]
        exact List.mem_append_right _ List.mem_cons_self
      rw [hlast, List.concat_eq_append] at hbelow ⊢
      rw [List.getLastD_concat] at hbelow
      rw [List.getLast?_concat, (percentages_cases hmem).resolve_right hbelow]

end Progress

namespace ProgressTracker

open Progress

/-- The hundredfold of a near position is finite. -/
theorem hundredfold_isFinite {units : Int} (near : Near units) :
    ((seconds units).mul 100).isFinite = true := by
  obtain ⟨s, a, grid, bound, hseconds, ha, hbound⟩ := exists_seconds near
  have hhundred : (100 : Binary64) = .finite false (100 * Grid.unitsPerOne) _ :=
    Binary64.ofNat_eq (n := 100) (by decide)
  have hscaled : a * (100 * Grid.unitsPerOne) ≤ bound * 100 * Grid.unitsPerOne := by
    rw [← Nat.mul_assoc]
    exact Nat.mul_le_mul_right _ (Nat.mul_le_mul_right _ ha)
  have hgrid := Grid.representable_nearest_of_le Grid.unitsPerOne_pos hbound hscaled
  rw [hseconds, hhundred, Binary64.mul, Binary64.ofUnits_of_representable hgrid]
  rfl

/-- What is finite has a quotient by every positive number. -/
theorem div_isNaN {x y : Binary64} (finite : x.isFinite = true) (number : y.isNaN = false)
    (positive : (Number.real y).le 0 = false) : (x.div y).isNaN = false := by
  cases x with
  | nan origin => cases finite
  | infinity s => cases finite
  | finite s a grid =>
    cases y with
    | nan origin => cases number
    | infinity t => rfl
    | finite t b wide =>
      by_cases hb : b = 0
      · have hplace : (Number.real (.finite t b wide)).place? = some (.inner 0) := by
          subst hb
          cases t <;> rfl
        have hle : (Number.real (.finite t b wide)).le 0 = true :=
          Number.le_of_places hplace Number.place?_int_zero
        rw [hle] at positive
        cases positive
      · rw [Binary64.div, if_neg hb, Binary64.ofRatio]
        rcases Binary64.ofUnits_cases (s != t) (Grid.nearest (a * Grid.unitsPerOne) b) with
          ⟨fine, he⟩ | he
        · rw [he]
          rfl
        · rw [he]
          rfl

/-- The percentage of a near position exists if the duration is known. -/
theorem percentOf_eq {total : Number} {x : Binary64} (hx : total.toReal? = some x)
    (number : x.isNaN = false) (positive : (Number.real x).le 0 = false) {units : Int}
    (near : Near units) :
    percentOf (.number total) (.real (seconds units)) = .ok (percentAt x units) := by
  have hmul : (Value.real (seconds units)).mul (.real 100) =
      .ok (.real ((seconds units).mul 100)) := rfl
  have hdiv : (Value.number (.real ((seconds units).mul 100))).div (.number total) =
      .ok (((seconds units).mul 100).div x) :=
    (Value.div_eq_ok rfl rfl).mpr (Number.div?_real _ hx)
  have hnumber := div_isNaN (hundredfold_isFinite near) number positive
  rw [percentOf, hmul, Outcome.ok_bind, hdiv, Outcome.ok_bind, hnumber, percentAt, positive,
    if_neg Bool.false_ne_true, if_neg Bool.false_ne_true]
  rfl

/-- A near position is told if it makes a larger percentage than all before. -/
theorem update_eq {total : Number} {x low : Binary64} (hx : total.toReal? = some x)
    (number : x.isNaN = false) (hlow : (Number.real low).lt (.real 0) = false) {units : Int}
    (near : Near units) :
    update ⟨.number total, low⟩ (.real (seconds units)) =
      .ok (if (Number.real low).lt (.real (percentAt x units)) then
        (some (percentAt x units), ⟨.number total, percentAt x units⟩)
      else (none, ⟨.number total, low⟩)) := by
  have hle : (Value.number total).le (.int 0) = .ok ((Number.real x).le 0) := by
    rw [← Number.le_zero_of_toReal? hx]
    exact Value.le_of_numbers rfl rfl
  rw [update]
  dsimp only
  rw [hle, Outcome.ok_bind]
  cases hpositive : (Number.real x).le 0 with
  | true =>
    rw [percentAt, if_pos hpositive, hlow]
    rfl
  | false =>
    rw [percentOf_eq hx number hpositive near]
    cases hlarger : (Number.real low).lt (.real (percentAt x units)) with
    | true => simp [hlarger, pure, Except.pure]
    | false => simp [hlarger, pure, Except.pure]

/-- Recording a position changes nothing, or tells a larger percentage and keeps it. -/
theorem update_cases {tracker next : ProgressTracker} {seconds : Value} {told : Option Binary64}
    (h : tracker.update seconds = .ok (told, next)) :
    (told = none ∧ next = tracker) ∨
      ∃ percent, told = some percent ∧ next = { tracker with percent } ∧
        (Number.real tracker.percent).lt (.real percent) = true := by
  obtain ⟨done, _, h⟩ := Outcome.bind_eq_ok.mp h
  split at h
  · cases h
    exact .inl ⟨rfl, rfl⟩
  · obtain ⟨percent, _, h⟩ := Outcome.bind_eq_ok.mp h
    split at h
    · next larger =>
      cases h
      exact .inr ⟨percent, rfl, rfl, larger⟩
    · cases h
      exact .inl ⟨rfl, rfl⟩

end ProgressTracker

end Montage
