import Mathlib.Algebra.BigOperators.Group.Multiset.Basic
import Mathlib.Tactic.Abel
import Montage.Proofs.Sorting.Faults
import Montage.Timeline.Ordered

/-!
# The items of a sorted list

A sort by runs keeps its items whatever the comparisons answer: runs are cut off,
filled up and merged without losing or doubling any. So what is sorted by a key
is a permutation of what was given, even if the keys have no order.
-/

namespace Montage.Sorting

open Outcome

variable {α : Type} {before : α → α → Outcome Bool}

/-! ## Merging -/

namespace Merging

/-- The items of two runs that are being merged. -/
def contents (m : Merging α) : Multiset α := m.first + m.second + m.merged

/-- Items that move from the first run are still there. -/
@[simp]
theorem contents_takeFirst (m : Merging α) (count : Nat) :
    (m.takeFirst count).contents = m.contents := by
  have hparts : ((m.first.take count : Multiset α) + m.first.drop count) = m.first := by
    rw [Multiset.coe_add, List.take_append_drop]
  simp only [contents, takeFirst, ← Multiset.coe_add, Multiset.coe_reverse]
  rw [← hparts]
  abel

/-- Items that move from the second run are still there. -/
@[simp]
theorem contents_takeSecond (m : Merging α) (count : Nat) :
    (m.takeSecond count).contents = m.contents := by
  have hparts : ((m.second.take count : Multiset α) + m.second.drop count) = m.second := by
    rw [Multiset.coe_add, List.take_append_drop]
  simp only [contents, takeSecond, ← Multiset.coe_add, Multiset.coe_reverse]
  rw [← hparts]
  abel

/-- Patience is no item. -/
@[simp]
theorem contents_lessPatient (m : Merging α) : m.lessPatient.contents = m.contents := rfl

/-- Patience is no item. -/
@[simp]
theorem contents_morePatient (m : Merging α) : m.morePatient.contents = m.contents := rfl

/-- All items are in the merged run. -/
@[simp]
theorem contents_ending (m : Merging α) : (m.ending.1 : Multiset α) = m.contents := by
  unfold ending
  split <;>
  · simp only [closed, crossed, contents, ← Multiset.coe_add, Multiset.coe_reverse]
    abel

/-- All items are in the merged run. -/
@[simp]
theorem contents_endingBack (m : Merging α) : (m.endingBack.1 : Multiset α) = m.contents := by
  unfold endingBack
  split
  · simp only [closedBack, contents, ← Multiset.coe_add, Multiset.coe_reverse]
  · simp only [crossedBack, contents, ← Multiset.coe_add, Multiset.coe_reverse]
    abel

/-- A leap in each run keeps the items. -/
theorem returns_leapForward (m : Merging α) :
    (m.leapForward before).Returns fun r => r.1.contents = m.contents := by
  unfold leapForward
  split
  · exact returns_ok rfl
  · refine returns_bind fun _ => returns_ite (returns_pure (by simp)) ?_
    refine returns_ite (returns_pure (by simp)) ?_
    split
    · exact returns_pure (by simp)
    · exact returns_bind fun _ =>
        returns_ite (returns_pure (by simp)) (returns_pure (by simp))

/-- Merging from the front keeps the items. -/
theorem returns_forward (fuel : Nat) (pace : Pace) (m : Merging α) :
    (m.forward before fuel pace).Returns fun r => (r.1 : Multiset α) = m.contents := by
  induction fuel generalizing pace m with
  | zero => exact returns_ok (by simp)
  | succ fuel ih =>
    unfold forward
    refine returns_ite (returns_ok (by simp)) ?_
    split
    · refine returns_bind fun fromSecond => ?_
      cases fromSecond
      all_goals
        refine returns_ite (returns_pure (by simp)) (returns_ite ?_ ?_)
        · exact (ih _ _).mono (by simp)
        · exact (ih _ _).mono (by simp)
    · refine (returns_leapForward m.lessPatient).bind fun ⟨n, _, _⟩ hn => ?_
      have hn : n.contents = m.contents := hn
      refine returns_ite (returns_pure (by simp [hn])) (returns_ite ?_ ?_)
      · exact (ih _ _).mono (by simp [hn])
      · exact (ih _ _).mono (by simp [hn])

/-- A leap in each run from the back keeps the items. -/
theorem returns_leapBackward (m : Merging α) :
    (m.leapBackward before).Returns fun r => r.1.contents = m.contents := by
  unfold leapBackward
  split
  · exact returns_ok rfl
  · refine returns_bind fun _ => returns_ite (returns_pure (by simp)) ?_
    refine returns_ite (returns_pure (by simp)) ?_
    split
    · exact returns_pure (by simp)
    · exact returns_bind fun _ =>
        returns_ite (returns_pure (by simp)) (returns_pure (by simp))

/-- Merging from the back keeps the items. -/
theorem returns_backward (fuel : Nat) (pace : Pace) (m : Merging α) :
    (m.backward before fuel pace).Returns fun r => (r.1 : Multiset α) = m.contents := by
  induction fuel generalizing pace m with
  | zero => exact returns_ok (by simp)
  | succ fuel ih =>
    unfold backward
    refine returns_ite (returns_ok (by simp)) ?_
    split
    · refine returns_bind fun fromFirst => ?_
      cases fromFirst
      all_goals
        refine returns_ite (returns_pure (by simp)) (returns_ite ?_ ?_)
        · exact (ih _ _).mono (by simp)
        · exact (ih _ _).mono (by simp)
    · refine (returns_leapBackward m.lessPatient).bind fun ⟨n, _, _⟩ hn => ?_
      have hn : n.contents = m.contents := hn
      refine returns_ite (returns_pure (by simp [hn])) (returns_ite ?_ ?_)
      · exact (ih _ _).mono (by simp [hn])
      · exact (ih _ _).mono (by simp [hn])

end Merging

/-- The inner parts of two runs are merged with their items. -/
theorem returns_mergeInner (patience : Nat) (first second : List α) :
    (mergeInner before patience first second).Returns fun r =>
      (r.1 : Multiset α) = first + second := by
  refine returns_ite ?_ ?_
  · refine (Merging.returns_forward _ _ _).mono fun r hr => ?_
    rw [hr, Merging.contents_takeSecond]
    simp [Merging.contents]
  · refine (Merging.returns_backward _ _ _).mono fun r hr => ?_
    rw [hr, Merging.contents_takeFirst]
    simp [Merging.contents]

/-- Two runs are merged with their items. -/
theorem returns_mergeRuns (patience : Nat) (first second : List α) :
    (mergeRuns before patience first second).Returns fun r =>
      (r.1 : Multiset α) = first + second := by
  unfold mergeRuns
  split
  · exact returns_ok (by simp)
  · next y rest =>
    refine returns_bind fun placed => ?_
    split
    · exact returns_pure (by simp)
    · refine returns_bind fun border => returns_ite (returns_pure (by simp)) ?_
      refine (returns_mergeInner _ _ _).bind fun ⟨inner, patience⟩ hinner => returns_pure ?_
      have hinner : (inner : Multiset α) = first.drop placed + (y :: rest).take border := hinner
      have hfirst : (first.take placed : Multiset α) + first.drop placed = first := by
        rw [Multiset.coe_add, List.take_append_drop]
      have hsecond : ((y :: rest).take border : Multiset α) + (y :: rest).drop border =
          (y :: rest : List α) := by rw [Multiset.coe_add, List.take_append_drop]
      simp only [← Multiset.coe_add]
      rw [hinner, ← hfirst, ← hsecond]
      abel

/-! ## Runs -/

/-- A run is cut off with its items, at least one if there is one. -/
theorem returns_frontRun (items : List α) :
    (frontRun before items).Returns fun r =>
      (r.1 + r.2 : Multiset α) = items ∧ (items ≠ [] → r.1 ≠ []) := by
  unfold frontRun
  split
  · next first second rest =>
    refine returns_bind fun down => returns_bind fun length => returns_pure ⟨?_, fun _ => ?_⟩
    · have hrun : ((if down then (first :: second :: rest.take length).reverse
          else first :: second :: rest.take length : List α) : Multiset α) =
            (first :: second :: rest.take length : List α) := by
        cases down
        · rfl
        · exact Multiset.coe_reverse _
      rw [hrun, Multiset.coe_add]
      simp
    · cases down <;> simp
  · exact returns_ok ⟨by simp, id⟩

/-- Items are inserted into a run. -/
theorem returns_insertAll (run items : List α) :
    (insertAll before run items).Returns fun r : List α => (r : Multiset α) = run + items := by
  induction items generalizing run with
  | nil => exact returns_ok (by simp)
  | cons item items ih =>
    refine returns_bind fun place => (ih _).mono fun r hr => ?_
    have hrun : (run.take place : Multiset α) + run.drop place = run := by
      rw [Multiset.coe_add, List.take_append_drop]
    rw [hr, ← hrun]
    simp only [← Multiset.coe_add, ← Multiset.cons_coe, ← Multiset.singleton_add]
    abel

/-- The items of the runs on a stack. -/
def contents (runs : List (Run α)) : Multiset α := (runs.map fun run => (run.items : Multiset α)).sum

/-- Merging the topmost runs keeps the items. -/
theorem returns_collapse (depth fuel : Nat) (stack : Stack α) :
    (collapse before depth fuel stack).Returns fun r => contents r.1 = contents stack.1 := by
  fun_induction collapse before depth fuel stack with
  | case1 fuel top next below patience _ ih =>
    refine (returns_mergeRuns _ _ _).bind ?_
    rintro ⟨items, patience⟩ hitems
    have hitems : (items : Multiset α) = next.items + top.items := hitems
    refine (ih items patience).mono fun r hr => ?_
    rw [hr]
    simp only [contents, List.map_cons, List.sum_cons, hitems]
    abel
  | case2 => exact returns_ok rfl
  | case3 => exact returns_ok rfl

/-- A run is put on the stack with its items. -/
theorem returns_push (length : Nat) (run : Run α) (stack : Stack α) :
    (push before length run stack).Returns fun r =>
      contents r.1 = (run.items : Multiset α) + contents stack.1 := by
  unfold push
  split
  · next h => exact returns_ok (by simp [contents, h])
  · refine (returns_collapse _ _ _).bind fun ⟨runs, patience⟩ hruns => ?_
    have hruns : contents runs = contents stack.1 := hruns
    rw [← hruns]
    cases runs with
    | nil => exact returns_pure (by simp [contents])
    | cons top below => exact returns_pure (by simp [contents])

/-- The items of a stack in the order of the list. -/
theorem coe_flatMap_items (runs : List (Run α)) :
    ((runs.reverse.flatMap Run.items : List α) : Multiset α) = contents runs := by
  induction runs with
  | nil => rfl
  | cons run runs ih =>
    rw [List.reverse_cons, List.flatMap_append, ← Multiset.coe_add, ih, List.flatMap_singleton,
      add_comm]
    rfl

/-- All runs are merged with their items. -/
theorem returns_mergeAll (fuel : Nat) (stack : Stack α) :
    (mergeAll before fuel stack).Returns fun r : List α => (r : Multiset α) = contents stack.1 := by
  fun_induction mergeAll before fuel stack with
  | case1 fuel top next third below patience _ ih =>
    refine (returns_mergeRuns _ _ _).bind ?_
    rintro ⟨items, patience⟩ hitems
    have hitems : (items : Multiset α) = third.items + next.items := hitems
    refine (ih items patience).mono fun r hr => ?_
    rw [hr]
    simp only [contents, List.map_cons, List.sum_cons, hitems]
    abel
  | case2 fuel top next third below patience _ ih =>
    refine (returns_mergeRuns _ _ _).bind ?_
    rintro ⟨items, patience⟩ hitems
    have hitems : (items : Multiset α) = next.items + top.items := hitems
    refine (ih items patience).mono fun r hr => ?_
    rw [hr]
    simp only [contents, List.map_cons, List.sum_cons, hitems]
    abel
  | case3 =>
    refine (returns_mergeRuns _ _ _).bind fun r hr => returns_pure ?_
    rw [hr]
    simp [contents, add_comm]
  | case4 fuel runs patience => exact returns_ok (coe_flatMap_items runs)

/-- The runs of a list are stacked with its items. -/
theorem returns_stackRuns (length shortest fuel : Nat) (items : List α) (stack : Stack α)
    (enough : items.length ≤ fuel) :
    (stackRuns before length shortest fuel items stack).Returns fun r =>
      contents r.1 = (items : Multiset α) + contents stack.1 := by
  induction fuel generalizing items stack with
  | zero =>
    obtain rfl : items = [] := List.length_eq_zero_iff.mp (Nat.le_zero.mp enough)
    exact returns_ok (by simp)
  | succ fuel ih =>
    cases items with
    | nil => exact returns_ok (by simp)
    | cons item items =>
      refine (returns_frontRun _).bind fun ⟨front, rest⟩ ⟨hfront, hsome⟩ => ?_
      refine (returns_insertAll _ _).bind fun run hrun => ?_
      refine (returns_push _ _ _).bind fun pushed hpushed => ?_
      have hfront : (front + rest : Multiset α) = (item :: items : List α) := hfront
      have hsome : front ≠ [] := hsome (List.cons_ne_nil item items)
      dsimp only at hrun hpushed ⊢
      generalize hmissing : shortest - front.length = missing at hrun ⊢
      have hrest : (rest.take missing : Multiset α) + rest.drop missing = rest := by
        rw [Multiset.coe_add, List.take_append_drop]
      -- A run has at least one item, so the fuel lasts for what is left.
      have hless : (rest.drop missing).length ≤ fuel := by
        have hcard := congrArg Multiset.card hfront
        simp only [Multiset.card_add, Multiset.coe_card, List.length_cons] at hcard enough
        have := List.length_pos_iff.mpr hsome
        simp only [List.length_drop]
        omega
      refine (ih _ pushed hless).mono fun r hr => ?_
      rw [hr, hpushed, hrun, ← hfront, ← hrest]
      abel

/-- A sorted list is a permutation of what was given. -/
theorem perm_of_sort {items sorted : List α} (h : sort before items = .ok sorted) :
    sorted.Perm items := by
  have hsort : (sort before items).Returns fun r : List α => (r : Multiset α) = items := by
    refine (returns_stackRuns _ _ _ _ _ le_rfl).bind fun stack hstack => ?_
    refine (returns_mergeAll _ _).mono fun r hr => ?_
    rw [hr, hstack]
    simp [contents]
  exact Multiset.coe_eq_coe.mp (hsort sorted h)

end Montage.Sorting

namespace Montage

/-- Sorted entries are a permutation of what was given. -/
theorem Keyed.perm_of_sort {α : Type} {entries sorted : List (Keyed α)}
    (h : Keyed.sort entries = .ok sorted) : sorted.Perm entries := by
  unfold Keyed.sort at h
  split at h
  · cases h
    exact List.mergeSort_perm _ _
  · exact Sorting.perm_of_sort h

/-- Items that are sorted by a key are a permutation of what was given. -/
theorem perm_of_sortOn {α : Type} {key : α → Value} {items sorted : List α}
    (h : sortOn key items = .ok sorted) : sorted.Perm items := by
  obtain ⟨entries, hentries, hsorted⟩ := Outcome.bind_eq_ok.mp h
  cases hsorted
  have hitems := (Keyed.perm_of_sort hentries).map Keyed.item
  rwa [List.map_map, show Keyed.item ∘ (fun item => (⟨key item, item⟩ : Keyed α)) = id from rfl,
    List.map_id] at hitems

end Montage
