import Montage.Proofs.Edit.Addressed
import Montage.Proofs.Edit.Run

/-!
# Edits of different tracks

An edit that stays on a track sees that track only. Names are looked for on both tracks,
but names are apart, so what is on the other track makes no difference. Two edits of
different tracks can therefore be applied in either order.
-/

namespace Montage

open Outcome

namespace Timeline

/-- Nothing but the clips of one track. -/
def alone (timeline : Timeline) (track : Track) : Timeline :=
  empty.setTrack track (timeline.on track)

variable {timeline : Timeline} {track : Track}

end Timeline

namespace Edit

open Timeline

variable {timeline result : Timeline} {track : Track} {edit : Edit}

/-- The name that an edit looks for: that of its clip, or that of the clip to insert, which
must not be there. -/
def lookedUp : Edit → Value
  | .insert _ _ _ _ id => id
  | .trim id _ _ => id
  | .split id _ _ _ => id
  | .reorder id _ => id
  | .delete id => id
  | .move id _ _ _ => id
  | .mute id _ => id
  | .filter id _ => id
  | .overlays id _ => id
  | .geometry id _ _ => id

/-- The edit stays on a track as far as its kind and the number that it names go. -/
def StaysOn (track : Track) : Edit → Prop
  | .insert number _ _ _ _ => number.equal track.toValue = true
  | .move _ _ _ _ => False
  | _ => True

/-- The edit addresses a clip on a track or inserts one there. A move is about both
tracks. -/
inductive On : Edit → Timeline → Track → Prop
  /-- A clip is inserted into the track. -/
  | inserts {timeline : Timeline} {track : Track} {number : Value} {source : Source}
      {duration index id : Value} (names : number.equal track.toValue = true) :
      On (.insert number source duration index id) timeline track
  /-- The clip that is addressed is on the track. -/
  | addresses {timeline : Timeline} {edit : Edit} {id : Value} {spot : Spot}
      (target : edit.target? = some id) (found : spot.Of timeline id)
      (stays : edit.StaysOn spot.track) : On edit timeline spot.track

/-- The name of the clip that an edit addresses is the one that it looks for. -/
theorem lookedUp_of_target {id : Value} (target : edit.target? = some id) :
    edit.lookedUp = id := by
  cases edit with
  | insert number source duration index newId => cases target
  | _ =>
    cases target
    rfl

/-- The name that an edit of a track looks for is on no other track. -/
theorem On.lacks (on : edit.On timeline track) (orderly : timeline.Orderly)
    (fresh : edit.Fresh timeline) :
    ∀ clip ∈ timeline.on track.other, clip.id.equal edit.lookedUp = false := by
  intro clip hclip
  cases on with
  | inserts names => exact fresh.2 _ List.mem_cons_self clip (mem_clips.mpr ⟨_, hclip⟩)
  | @addresses _ _ id spot target found stays =>
    rw [lookedUp_of_target target]
    cases he : clip.id.equal id with
    | false => rfl
    | true =>
      have hne := found.apart orderly clip (List.mem_append_right _ hclip)
      rw [Value.equal_trans he (by rw [Value.equal_comm]; exact found.named)] at hne
      cases hne

/-- The clips of a track have the names that were on it before or that the edit brings. -/
theorem Makes.ids {raw : Timeline} (makes : edit.Makes timeline raw) :
    ∀ track, ∀ clip ∈ raw.on track,
      (∃ old ∈ timeline.on track, clip.id = old.id) ∨ clip.id ∈ edit.newIds := by
  have hold : ∀ track, ∀ clip ∈ timeline.on track,
      (∃ old ∈ timeline.on track, clip.id = old.id) ∨ clip.id ∈ edit.newIds :=
    fun track clip hclip => .inl ⟨clip, hclip, rfl⟩
  cases makes with
  | insert names finite long fresh =>
    exact forall_on_putAt _ hold (.inr List.mem_cons_self)
  | trim found start stop lasts long =>
    exact found.forall_on_fill_one hold (.inl ⟨_, found.mem_on, rfl⟩)
  | split found finite inside sum =>
    refine found.forall_on_fill hold ?_
    simp [newIds]
  | reorder found finite bounded whole within =>
    exact forall_on_putAt _ (found.forall_on_fill_nil hold) (.inl ⟨_, found.mem_on, rfl⟩)
  | delete found => exact found.forall_on_fill_nil hold
  | move found names =>
    exact forall_on_putAt _ (found.forall_on_fill_nil hold) (.inr List.mem_cons_self)
  | mute found => exact found.forall_on_fill_one hold (.inl ⟨_, found.mem_on, rfl⟩)
  | filter found known => exact found.forall_on_fill_one hold (.inl ⟨_, found.mem_on, rfl⟩)
  | overlays found main apart =>
    exact found.forall_on_fill_one hold (.inl ⟨_, found.mem_on, rfl⟩)
  | geometry found => exact found.forall_on_fill_one hold (.inl ⟨_, found.mem_on, rfl⟩)

section

variable {first second : Edit} (orderly : timeline.Orderly) (on : first.On timeline track)
  (on' : second.On timeline track.other) (fresh : first.Fresh timeline)
  (fresh' : second.Fresh timeline)
  (apart : ∀ id ∈ first.newIds, ∀ name ∈ second.newIds, id.equal name = false)

include orderly on on' fresh fresh' apart

end

end Edit

end Montage
