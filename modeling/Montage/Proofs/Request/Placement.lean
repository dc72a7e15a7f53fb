import Montage.Proofs.Edit.Faults
import Montage.Proofs.Value.Clamp
import Montage.Proofs.Work
import Montage.Request.Placement

/-!
# Drawn places

Random numbers are finite doubles. Spread over a range of the frame they stay
numbers, so the place of an overlay can always be picked and lies within the frame,
and the numbers that are left over are finite doubles again.
-/

namespace Montage

open Outcome

/-- All numbers to be drawn are finite doubles. -/
def Draws.Rolls (draws : Draws) : Prop :=
  ∀ number ∈ draws.all ++ draws.rest, ∃ x : Binary64, number = .real x ∧ x.isFinite = true

/-- What is drawn is a finite double, and so is what is drawn later. -/
theorem Draws.Rolls.next {draws : Draws} (rolls : draws.Rolls) :
    draws.next.2.Rolls ∧ ∃ x : Binary64, draws.next.1 = .real x ∧ x.isFinite = true := by
  obtain ⟨all, rest⟩ := draws
  cases rest with
  | cons number rest =>
    refine ⟨fun other hother => rolls other ?_, rolls number (by simp)⟩
    simp only [Draws.next, List.mem_append, List.mem_cons] at hother ⊢
    tauto
  | nil =>
    cases all with
    | nil => exact ⟨rolls, 0.5, rfl, by decide +kernel⟩
    | cons number rest =>
      refine ⟨fun other hother => rolls other ?_, rolls number (by simp)⟩
      simp only [Draws.next, List.mem_append, List.mem_cons] at hother ⊢
      tauto

namespace Placing

variable {P : Fault → Prop} {low width column : Int}

/-- A drawn number is a finite double. -/
theorem keeps_draw :
    Work.Keeps Draws.Rolls P (fun value => ∃ x : Binary64, value = .real x ∧ x.isFinite = true)
      draw :=
  Work.keeps_of_ok fun draws rolls => ⟨draws.next.1, draws.next.2, rfl, rolls.next⟩

/-- An outcome draws nothing. -/
theorem keeps_ofOutcome {α : Type} {Q : α → Prop} {x : Outcome α} (faults : Faults P x)
    (returns : Returns Q x) : Work.Keeps Draws.Rolls P Q (ofOutcome x) :=
  fun _ rolls => Work.ends_of_run rfl ⟨rolls, faults, returns⟩

/-- A known result draws nothing. -/
theorem keeps_of_eq_ok {α : Type} {Q : α → Prop} {x : Outcome α} {a : α} (h : x = .ok a)
    (ha : Q a) : Work.Keeps Draws.Rolls P Q (ofOutcome x) := by
  rw [h]
  exact keeps_ofOutcome (faults_ok a) (returns_ok ha)

end Placing

namespace Placement

variable {P : Fault → Prop} {low width column : Int}

/-- A random number spread over a range counts as one. -/
theorem keeps_spread (hlow : low.natAbs ≤ 2 * hugeInteger)
    (hwidth : width.natAbs ≤ 2 * hugeInteger) :
    Work.Keeps Draws.Rolls P (fun value => value.counts = true) (spread low width) := by
  refine Placing.keeps_draw.bind ?_
  rintro _ ⟨x, rfl, finite⟩
  obtain ⟨l, hl, hlfinite⟩ := Number.exists_toReal?_int hlow
  obtain ⟨w, hw, hwfinite⟩ := Number.exists_toReal?_int hwidth
  have hproduct : (Value.real x).mul (.int width) = .ok (.real (x.mul w)) :=
    (Value.mul_eq_ok rfl rfl).mpr (Number.real_combine? x hw)
  have hsum : (Value.int low).add (.real (x.mul w)) = .ok (.real (l.add (x.mul w))) :=
    (Value.add_eq_ok rfl rfl).mpr (Number.combine?_real hl _)
  refine Placing.keeps_of_eq_ok
    (bind_eq_ok.mpr ⟨_, hproduct, bind_eq_ok.mpr ⟨_, hsum, rfl⟩⟩) ?_
  refine Value.counts_real ?_
  rw [Binary64.add_comm]
  exact Binary64.add_isNaN (Binary64.mul_isNaN finite hwfinite) hlfinite

/-- A column that is shifted at random counts as a number. -/
theorem keeps_shifted (hcolumn : column.natAbs ≤ 2 * hugeInteger) :
    Work.Keeps Draws.Rolls P (fun value => value.counts = true) (shifted column) := by
  refine Placing.keeps_draw.bind ?_
  rintro _ ⟨x, rfl, finite⟩
  obtain ⟨c, hc, hcfinite⟩ := Number.exists_toReal?_int hcolumn
  obtain ⟨ten, hten, htenfinite⟩ := Number.exists_toReal?_int (k := 10) (by decide +kernel)
  obtain ⟨five, hfive, hfivefinite⟩ := Number.exists_toReal?_int (k := 5) (by decide +kernel)
  have hproduct : (Value.real x).mul (.int 10) = .ok (.real (x.mul ten)) :=
    (Value.mul_eq_ok rfl rfl).mpr (Number.real_combine? x hten)
  have hshift : (Value.real (x.mul ten)).sub (.int 5) = .ok (.real ((x.mul ten).sub five)) :=
    (Value.sub_eq_ok rfl rfl).mpr (Number.real_combine? _ hfive)
  have hsum : (Value.int column).add (.real ((x.mul ten).sub five)) =
      .ok (.real (c.add ((x.mul ten).sub five))) :=
    (Value.add_eq_ok rfl rfl).mpr (Number.combine?_real hc _)
  refine Placing.keeps_of_eq_ok (bind_eq_ok.mpr ⟨_, hproduct, bind_eq_ok.mpr
    ⟨_, hshift, bind_eq_ok.mpr ⟨_, hsum, rfl⟩⟩⟩) ?_
  refine Value.counts_real ?_
  rw [Binary64.add_comm]
  exact Binary64.add_isNaN
    (Binary64.sub_isNaN (Binary64.mul_isNaN finite htenfinite) hfivefinite) hcfinite

/-- Every slot is a small integer. -/
theorem slot_small (index : Value) :
    Returns (fun column => column.natAbs ≤ 2 * hugeInteger) (slot index) := by
  refine returns_bind fun position => returns_pure ?_
  have hslots : ∀ column ∈ slots, column.natAbs ≤ 2 * hugeInteger := by decide +kernel
  cases hslot : slots[(position % 5).toNat]? with
  | none => exact Nat.zero_le _
  | some column => exact hslots column (List.mem_of_getElem? hslot)

/-- The bands of all types are narrow. -/
theorem band_small (type : Value) :
    (band type).1.natAbs ≤ 2 * hugeInteger ∧ (band type).2.natAbs ≤ 2 * hugeInteger := by
  unfold band
  split_ifs <;> decide +kernel

/-- A slot is looked up with plain faults only. -/
theorem faults_slot (index : Value) : Faults Fault.IsPlain (slot index) :=
  (Value.faults_position fun _ => trivial).bind fun _ _ => faults_pure _

/-- What counts can be forced into a range of the frame. -/
theorem keeps_clamp {value : Value} (counts : value.counts = true) {low high : Int}
    (h : low ≤ high) :
    Work.Keeps Draws.Rolls P (Value.Within low high)
      (Placing.ofOutcome (value.clamp (.int low) (.int high))) := by
  obtain ⟨forced, hforced⟩ :=
    (Value.exists_clamp_iff (Value.isEnd_int low) (Value.isEnd_int high)).mpr counts
  exact Placing.keeps_of_eq_ok hforced
    (Value.within_of_clamp (Value.isEnd_int low) (Value.isEnd_int high) h hforced)

/-- An overlay goes to a place within the frame if its number leads to a slot. -/
theorem keeps_place (type : Value) {index : Value} (faults : Faults P (slot index)) :
    Work.Keeps Draws.Rolls P
      (fun placed => placed.1.x.Within 5 85 ∧ placed.1.y.Within 5 90) (place type index) := by
  refine (Placing.keeps_ofOutcome faults (slot_small index)).bind fun column small =>
    (keeps_shifted small).bind fun x hx => ?_
  refine (keeps_spread (band_small type).1 (band_small type).2).bind fun y hy => ?_
  refine (keeps_spread (by decide +kernel) (by decide +kernel)).bind fun side _ => ?_
  refine (keeps_clamp hx (by decide)).bind fun x within => ?_
  exact (keeps_clamp hy (by decide)).bind fun y within' => Work.keeps_pure ⟨within, within'⟩

end Placement

end Montage
