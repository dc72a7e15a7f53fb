import Montage.Proofs.Edit.Complete
import Montage.Proofs.Edit.Run

/-!
# Edits of steady timelines

A timeline that passes the check and that layout leaves unchanged is steady, and so
are the timelines that safe edits make of it. What an edit makes of a timeline does
not depend on start times, and steady timelines that are the same up to start times
agree, so chains of edits can be followed without any start time.
-/

namespace Montage

open Outcome

namespace Timeline

/-- Clips are named apart, stand where they say, are laid out and have windows with
moments for ends. -/
structure Steady (timeline : Timeline) : Prop extends timeline.Orderly where
  /-- Layout leaves the tracks as they are. -/
  settled : timeline.Settled
  /-- Both ends of every window are moments. -/
  moments : timeline.HasMoments

variable {timeline s t : Timeline}

/-- A checked timeline that layout leaves unchanged is steady. -/
theorem steady_of_checked (checked : timeline.checkInvariants = .ok ())
    (settled : timeline.Settled) : timeline.Steady :=
  ⟨orderly_of_checked checked, settled, hasMoments_of_checked checked⟩

/-- On a steady timeline every clip starts at the running sum. -/
theorem Steady.laidOut (steady : timeline.Steady) (track : Track) :
    LaidOutFrom 0 (timeline.on track) := steady.settled.laidOut steady.moments track

/-- Steady timelines agree when they are the same up to start times. -/
theorem Steady.agrees (steady : s.Steady) (steady' : t.Steady) (h : s.unplaced = t.unplaced) :
    s.agrees t = true := agrees_of_unplaced h steady.laidOut steady'.laidOut

/-- Whether clips have lengths does not depend on start times. -/
theorem HasLengths.of_unplaced (lengths : t.HasLengths) (h : s.unplaced = t.unplaced) :
    s.HasLengths :=
  forall_on_of_unplaced (P := fun _ clip => ∃ length, clip.length = .ok length)
    (fun _ _ => Iff.rfl) h lengths

end Timeline

namespace Edit

variable {timeline result raw : Timeline} {edit : Edit}

/-- What an edit makes does not depend on start times. -/
theorem Makes.of_unplaced (makes : edit.Makes timeline raw) {other : Timeline}
    (same : other.unplaced = timeline.unplaced) :
    ∃ made, edit.Makes other made ∧ made.unplaced = raw.unplaced := by
  have hlength (track : Track) : (other.on track).length = (timeline.on track).length := by
    rw [← List.length_map (f := Clip.unplaced), Timeline.unplaced_eq_iff.mp same,
      List.length_map]
  cases makes with
  | @insert _ number source duration index id track names finite long fresh =>
    have fresh' : other.find? id = none := by
      have hclips : other.clips.map Clip.unplaced = timeline.clips.map Clip.unplaced := by
        rw [← Timeline.clips_unplaced, same, Timeline.clips_unplaced]
      rw [Timeline.find?_eq_none_iff] at fresh ⊢
      exact Clip.forall_of_unplaced (P := fun clip => clip.id.equal id = false)
        (fun _ => Iff.rfl) hclips fresh
    refine ⟨_, .insert names finite long fresh', ?_⟩
    rw [Timeline.unplaced_putAt, Timeline.unplaced_putAt, same, hlength]
  | trim found start stop lasts long =>
    obtain ⟨_, _, _, found', _, hfill⟩ := found.exists_same same
    exact ⟨_, .trim found' start stop lasts long, hfill _ _ _ rfl⟩
  | split found finite inside sum =>
    obtain ⟨_, _, _, found', _, hfill⟩ := found.exists_same same
    exact ⟨_, .split found' finite inside sum, hfill _ _ _ rfl⟩
  | reorder found finite bounded whole within =>
    obtain ⟨_, _, _, found', hothers, hfill⟩ := found.exists_same same
    refine ⟨_, .reorder found' finite ?_ whole ?_, ?_⟩
    · rw [Spot.others, hothers]
      exact bounded
    · rw [Spot.others, hothers]
      exact within
    · rw [Timeline.unplaced_putAt, Timeline.unplaced_putAt, hfill _ _ _ rfl]
      rfl
  | delete found =>
    obtain ⟨_, _, _, found', _, hfill⟩ := found.exists_same same
    exact ⟨_, .delete found', hfill _ _ _ rfl⟩
  | move found names =>
    obtain ⟨_, _, _, found', _, hfill⟩ := found.exists_same same
    refine ⟨_, .move found' names, ?_⟩
    rw [Timeline.unplaced_putAt, Timeline.unplaced_putAt, hfill _ _ _ rfl, hlength]
    rfl
  | mute found =>
    obtain ⟨_, _, _, found', _, hfill⟩ := found.exists_same same
    exact ⟨_, .mute found', hfill _ _ _ rfl⟩
  | filter found known =>
    obtain ⟨_, _, _, found', _, hfill⟩ := found.exists_same same
    exact ⟨_, .filter found' known, hfill _ _ _ rfl⟩
  | overlays found main apart =>
    obtain ⟨_, _, _, found', _, hfill⟩ := found.exists_same same
    exact ⟨_, .overlays found' main apart, hfill _ _ _ rfl⟩
  | geometry found =>
    obtain ⟨_, _, _, found', _, hfill⟩ := found.exists_same same
    exact ⟨_, .geometry found', hfill _ _ _ rfl⟩

/-- An edit that can make its change on a timeline makes it on every one that is the same
up to start times. -/
theorem Makes.exists_of_unplaced (makes : edit.Makes timeline raw) {other : Timeline}
    (same : other.unplaced = timeline.unplaced) (orderly : other.Orderly)
    (kind : ¬ edit.Mistypes other) (lengths : raw.HasLengths) :
    ∃ result, edit.apply other = .ok result ∧ result.unplaced = raw.unplaced := by
  obtain ⟨made, makes', hmade⟩ := makes.of_unplaced same
  obtain ⟨result, h, laysOut⟩ := makes'.exists_laysOut orderly kind (lengths.of_unplaced hmade)
  exact ⟨result, h, laysOut.unplaced_eq.trans hmade⟩

/-- Edits other than splits never cut beyond the finite doubles. -/
theorem not_overflowsAt {edit : Edit}
    (h : ∀ id time first second, edit ≠ .split id time first second) (spot : Spot) :
    ¬ edit.OverflowsAt timeline spot := by
  rintro ⟨id, time, first, second, hsplit, _⟩
  exact h id time first second hsplit

/-- Safe edits keep a timeline steady. -/
theorem Safe.steady_of_apply (safe : edit.Safe timeline) (steady : timeline.Steady)
    (h : edit.apply timeline = .ok result) : result.Steady :=
  ⟨orderly_of_apply steady.toOrderly safe.1 h,
    settled_of_apply steady.toOrderly steady.settled h,
    hasMoments_of_apply steady.toOrderly steady.moments safe.2 h⟩

/-! ## Where edits lead -/

/-- Edits lead from a timeline to one that agrees with an expected one. -/
def LeadsTo (edits : List Edit) (timeline expected : Timeline) : Prop :=
  ∃ result, applyAll edits timeline = .ok result ∧ result.agrees expected = true

/-- An edit in front of others. -/
theorem LeadsTo.cons {edits : List Edit} {middle expected : Timeline}
    (h : edit.apply timeline = .ok middle) (rest : LeadsTo edits middle expected) :
    LeadsTo (edit :: edits) timeline expected := by
  obtain ⟨result, hresult, hagrees⟩ := rest
  exact ⟨result, applyAll_cons_eq_ok.mpr ⟨middle, h, hresult⟩, hagrees⟩

/-- Edits lead to what agrees with where they lead. -/
theorem LeadsTo.trans {edits : List Edit} {expected other : Timeline}
    (h : LeadsTo edits timeline expected) (agrees : expected.agrees other = true) :
    LeadsTo edits timeline other := by
  obtain ⟨result, hresult, hagrees⟩ := h
  exact ⟨result, hresult, Timeline.isAgreement.trans hagrees agrees⟩

/-- A safe edit leads from a steady timeline to what agrees with the change that it can
make, when that is laid out. -/
theorem Makes.leadsTo (makes : edit.Makes timeline raw) {other : Timeline}
    (same : other.unplaced = timeline.unplaced) (steady : other.Steady)
    (finite : ∀ spot, ¬ edit.OverflowsAt other spot) (kind : ¬ edit.Mistypes other)
    (laidOut : ∀ track, LaidOutFrom 0 (raw.on track)) : LeadsTo [edit] other raw := by
  have lengths : raw.HasLengths :=
    fun track => exists_layoutFrom_iff.mp ⟨_, (laidOut track).layoutFrom_eq⟩
  obtain ⟨result, h, hresult⟩ := makes.exists_of_unplaced same steady.toOrderly kind lengths
  have settled := settled_of_apply steady.toOrderly steady.settled h
  have moments := hasMoments_of_apply steady.toOrderly steady.moments finite h
  refine ⟨result, ?_, Timeline.agrees_of_unplaced hresult (settled.laidOut moments) laidOut⟩
  rw [applyAll_singleton, h]

end Edit

end Montage
