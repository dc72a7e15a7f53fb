import Montage.Proofs.Outcome
import Montage.Sorting.Runs

/-!
# Faults of a sort

A sort ends in no other fault than one of its comparisons: searching, merging
and the stack of runs add none of their own.
-/

namespace Montage.Sorting

open Outcome

variable {α : Type} {P : Fault → Prop} {holds : α → Outcome Bool}
  {before : α → α → Outcome Bool}

/-! ## Searching -/

/-- A test at a position fails as the condition does. -/
theorem faults_holdsAt (h : ∀ item, Faults P (holds item)) (items : List α) (position : Nat) :
    Faults P (holdsAt holds items position) := by
  unfold holdsAt
  split
  · exact h _
  · exact faults_ok false

/-- Halving fails as the condition does. -/
theorem faults_bisect (h : ∀ item, Faults P (holds item)) (items : List α)
    (fuel low high : Nat) : Faults P (bisect holds items fuel low high) := by
  induction fuel generalizing low high with
  | zero => exact faults_ok low
  | succ fuel ih =>
    refine faults_ite (fun _ => ?_) fun _ => faults_ok low
    exact (faults_holdsAt h items _).bind fun _ _ => faults_ite (fun _ => ih _ _) fun _ => ih _ _

/-- Leaping fails as the test does. -/
theorem faults_leap {test : Nat → Outcome Bool} (h : ∀ distance, Faults P (test distance))
    (limit fuel last distance : Nat) : Faults P (leap test limit fuel last distance) := by
  induction fuel generalizing last distance with
  | zero => exact faults_ok _
  | succ fuel ih =>
    refine faults_ite (fun _ => ?_) fun _ => faults_ok _
    exact (h distance).bind fun _ _ => faults_ite (fun _ => ih _ _) fun _ => faults_pure _

/-- The negation of a condition fails as the condition does. -/
theorem faults_not {test : Outcome Bool} (h : Faults P test) :
    Faults P (do return !(← test)) := h.bind fun _ _ => faults_pure _

/-- Looking for a boundary fails as the condition does. -/
theorem faults_boundary (h : ∀ item, Faults P (holds item)) (items : List α) (hint : Nat) :
    Faults P (boundary holds items hint) := by
  refine (faults_holdsAt h items hint).bind fun _ _ => faults_ite (fun _ => ?_) fun _ => ?_
  · exact (faults_leap (fun _ => faults_holdsAt h items _) _ _ _ _).bind fun _ _ =>
      faults_bisect h items _ _ _
  · exact (faults_leap (fun _ => faults_not (faults_holdsAt h items _)) _ _ _ _).bind fun _ _ =>
      faults_bisect h items _ _ _

/-! ## Merging -/

namespace Merging

/-- A leap in each run fails as a comparison does. -/
theorem faults_leapForward (h : ∀ x y, Faults P (before x y)) (m : Merging α) :
    Faults P (m.leapForward before) := by
  unfold leapForward
  split
  · exact faults_ok _
  · refine (faults_boundary (fun _ => faults_not (h _ _)) _ _).bind fun _ _ => ?_
    refine faults_ite (fun _ => faults_pure _) fun _ => ?_
    refine faults_ite (fun _ => faults_pure _) fun _ => ?_
    split
    · exact faults_pure _
    · refine (faults_boundary (fun _ => h _ _) _ _).bind fun _ _ => ?_
      exact faults_ite (fun _ => faults_pure _) fun _ => faults_pure _

/-- Merging from the front fails as a comparison does. -/
theorem faults_forward (h : ∀ x y, Faults P (before x y)) (fuel : Nat) (pace : Pace)
    (m : Merging α) : Faults P (m.forward before fuel pace) := by
  induction fuel generalizing pace m with
  | zero => exact faults_ok _
  | succ fuel ih =>
    unfold forward
    refine faults_ite (fun _ => faults_ok _) fun _ => ?_
    split
    · refine (h _ _).bind fun _ _ => ?_
      refine faults_ite (fun _ => faults_pure _) fun _ => ?_
      exact faults_ite (fun _ => ih _ _) fun _ => ih _ _
    · refine (faults_leapForward h _).bind fun _ _ => ?_
      refine faults_ite (fun _ => faults_pure _) fun _ => ?_
      exact faults_ite (fun _ => ih _ _) fun _ => ih _ _

/-- A leap in each run from the back fails as a comparison does. -/
theorem faults_leapBackward (h : ∀ x y, Faults P (before x y)) (m : Merging α) :
    Faults P (m.leapBackward before) := by
  unfold leapBackward
  split
  · exact faults_ok _
  · refine (faults_boundary (fun _ => faults_not (h _ _)) _ _).bind fun _ _ => ?_
    refine faults_ite (fun _ => faults_pure _) fun _ => ?_
    refine faults_ite (fun _ => faults_pure _) fun _ => ?_
    split
    · exact faults_pure _
    · refine (faults_boundary (fun _ => h _ _) _ _).bind fun _ _ => ?_
      exact faults_ite (fun _ => faults_pure _) fun _ => faults_pure _

/-- Merging from the back fails as a comparison does. -/
theorem faults_backward (h : ∀ x y, Faults P (before x y)) (fuel : Nat) (pace : Pace)
    (m : Merging α) : Faults P (m.backward before fuel pace) := by
  induction fuel generalizing pace m with
  | zero => exact faults_ok _
  | succ fuel ih =>
    unfold backward
    refine faults_ite (fun _ => faults_ok _) fun _ => ?_
    split
    · refine (h _ _).bind fun _ _ => ?_
      refine faults_ite (fun _ => faults_pure _) fun _ => ?_
      exact faults_ite (fun _ => ih _ _) fun _ => ih _ _
    · refine (faults_leapBackward h _).bind fun _ _ => ?_
      refine faults_ite (fun _ => faults_pure _) fun _ => ?_
      exact faults_ite (fun _ => ih _ _) fun _ => ih _ _

end Merging

/-- Merging two runs fails as a comparison does. -/
theorem faults_mergeRuns (h : ∀ x y, Faults P (before x y)) (patience : Nat)
    (first second : List α) : Faults P (mergeRuns before patience first second) := by
  unfold mergeRuns
  split
  · exact faults_ok _
  · refine (faults_boundary (fun _ => faults_not (h _ _)) _ _).bind fun _ _ => ?_
    split
    · exact faults_pure _
    · refine (faults_boundary (fun _ => h _ _) _ _).bind fun _ _ => ?_
      refine faults_ite (fun _ => faults_pure _) fun _ => ?_
      refine Faults.bind ?_ fun _ _ => faults_pure _
      exact faults_ite (fun _ => Merging.faults_forward h _ _ _) fun _ =>
        Merging.faults_backward h _ _ _

/-! ## Runs -/

/-- Finding the end of a run fails as a comparison does. -/
theorem faults_runLength (h : ∀ x y, Faults P (before x y)) (down : Bool) (previous : α)
    (items : List α) : Faults P (runLength before down previous items) := by
  induction items generalizing previous with
  | nil => exact faults_ok 0
  | cons item items ih =>
    refine (h _ _).bind fun _ _ => faults_ite (fun _ => ?_) fun _ => faults_pure 0
    exact (ih item).bind fun _ _ => faults_pure _

/-- Cutting off a run fails as a comparison does. -/
theorem faults_frontRun (h : ∀ x y, Faults P (before x y)) (items : List α) :
    Faults P (frontRun before items) := by
  unfold frontRun
  split
  · refine (h _ _).bind fun _ _ => ?_
    exact (faults_runLength h _ _ _).bind fun _ _ => faults_pure _
  · exact faults_ok _

/-- Inserting items fails as a comparison does. -/
theorem faults_insertAll (h : ∀ x y, Faults P (before x y)) (run items : List α) :
    Faults P (insertAll before run items) := by
  induction items generalizing run with
  | nil => exact faults_ok run
  | cons item items ih =>
    exact (faults_bisect (fun _ => faults_not (h _ _)) _ _ _ _).bind fun _ _ => ih _

/-- Merging the topmost runs fails as a comparison does. -/
theorem faults_collapse (h : ∀ x y, Faults P (before x y)) (depth fuel : Nat)
    (stack : Stack α) : Faults P (collapse before depth fuel stack) := by
  fun_induction collapse before depth fuel stack with
  | case1 fuel top next below patience _ ih =>
    exact (faults_mergeRuns h _ _ _).bind fun ⟨items, patience⟩ _ => ih items patience
  | case2 => exact faults_ok _
  | case3 => exact faults_ok _

/-- Putting a run on the stack fails as a comparison does. -/
theorem faults_push (h : ∀ x y, Faults P (before x y)) (length : Nat) (run : Run α)
    (stack : Stack α) : Faults P (push before length run stack) := by
  unfold push
  split
  · exact faults_ok _
  · refine (faults_collapse h _ _ _).bind fun _ _ => ?_
    split <;> exact faults_pure _

/-- Merging all runs fails as a comparison does. -/
theorem faults_mergeAll (h : ∀ x y, Faults P (before x y)) (fuel : Nat) (stack : Stack α) :
    Faults P (mergeAll before fuel stack) := by
  fun_induction mergeAll before fuel stack with
  | case1 fuel top next third below patience _ ih =>
    exact (faults_mergeRuns h _ _ _).bind fun ⟨items, patience⟩ _ => ih items patience
  | case2 fuel top next third below patience _ ih =>
    exact (faults_mergeRuns h _ _ _).bind fun ⟨items, patience⟩ _ => ih items patience
  | case3 => exact (faults_mergeRuns h _ _ _).bind fun _ _ => faults_pure _
  | case4 => exact faults_ok _

/-- Stacking the runs of a list fails as a comparison does. -/
theorem faults_stackRuns (h : ∀ x y, Faults P (before x y)) (length shortest fuel : Nat)
    (items : List α) (stack : Stack α) :
    Faults P (stackRuns before length shortest fuel items stack) := by
  induction fuel generalizing items stack with
  | zero => exact faults_ok stack
  | succ fuel ih =>
    cases items with
    | nil => exact faults_ok stack
    | cons item items =>
      refine (faults_frontRun h _).bind fun _ _ => ?_
      refine (faults_insertAll h _ _).bind fun _ _ => ?_
      exact (faults_push h _ _ _).bind fun _ _ => ih _ _

/-- A sort fails as one of its comparisons does. -/
theorem faults_sort (h : ∀ x y, Faults P (before x y)) (items : List α) :
    Faults P (sort before items) :=
  (faults_stackRuns h _ _ _ _ _).bind fun _ _ => faults_mergeAll h _ _

end Montage.Sorting
