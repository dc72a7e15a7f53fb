import Montage.Proofs.Edit.Addressed
import Montage.Proofs.Edit.Steady

/-!
# Changing clips where they stand

Silencing a clip and giving it a filter change one field and keep the clip in its place.
When one such change is made to several clips, one after the other, each clip is still
found by its name, and in the end exactly the clips with these names have changed.
-/

namespace Montage

open Outcome

namespace Clip

/-- A clip that is found by its own name and whose track can be addressed. -/
def IsOpen (clip : Clip) : Prop := clip.id.isNaN = false ∧ ¬ clip.track.IsReal

/-- What becomes of a change of a clip that is not open. -/
inductive Bars (clip : Clip) : Fault → Prop
  /-- The name is not-a-number, which leads to no clip. -/
  | unnamed (unnamed : clip.id.isNaN = true) : Bars clip (.rejected (.clipNotFound clip.id))
  /-- The number of the track is stored as a double. -/
  | illTyped (real : clip.track.IsReal) : Bars clip .illTyped

end Clip

/-- A change of a clip that stays where it is. -/
inductive Change where
  /-- The clip is silenced or heard. -/
  | mute (muted : Bool)
  /-- The clip is shown through a filter, or through none. -/
  | filter (name : Value)

namespace Change

/-- The edit that changes the clip with a name. -/
def edit : Change → Value → Edit
  | .mute muted, id => .mute id muted
  | .filter name, id => .filter id name

/-- The clip after the change. -/
def on : Change → Clip → Clip
  | .mute muted, clip => { clip with muted := .bool muted }
  | .filter name, clip => { clip with filter := name }

/-- A filter that is asked for is known. -/
def Known : Change → Prop
  | .mute _ => True
  | .filter name => name.isNull = true ∨ name.isOneOf videoFilters = true

variable (change : Change) (clip : Clip)

/-- A change keeps the name. -/
@[simp]
theorem on_id : (change.on clip).id = clip.id := by cases change <;> rfl

/-- A change keeps the track. -/
@[simp]
theorem on_track : (change.on clip).track = clip.track := by cases change <;> rfl

/-- A change keeps start time and window. -/
@[simp]
theorem on_timing : (change.on clip).timing = clip.timing := by cases change <;> rfl

/-- Making a change twice is making it once. -/
@[simp]
theorem on_on : change.on (change.on clip) = change.on clip := by cases change <;> rfl

/-- The clip after the change if it has the name of one of some targets. -/
def onNamed (change : Change) (targets : List Clip) (clip : Clip) : Clip :=
  if targets.any fun target => clip.id.equal target.id then change.on clip else clip

/-- A single target is changed by its name. -/
theorem onNamed_singleton (target : Clip) : change.onNamed [target] =
    fun clip => if clip.id.equal target.id then change.on clip else clip := by
  funext clip
  rw [onNamed, List.any_cons, List.any_nil, Bool.or_false]

/-- A change of targets keeps names. -/
@[simp]
theorem onNamed_id (targets : List Clip) : (change.onNamed targets clip).id = clip.id := by
  unfold onNamed
  split
  · exact change.on_id clip
  · rfl

/-- A change of targets keeps tracks. -/
@[simp]
theorem onNamed_track (targets : List Clip) :
    (change.onNamed targets clip).track = clip.track := by
  unfold onNamed
  split
  · exact change.on_track clip
  · rfl

/-- Targets may be changed one after the other. -/
theorem onNamed_cons (target : Clip) (targets : List Clip) :
    change.onNamed (target :: targets) clip =
      change.onNamed targets (change.onNamed [target] clip) := by
  conv_rhs => rw [onNamed, onNamed_id]
  cases hfirst : clip.id.equal target.id <;>
    simp [onNamed, hfirst]

end Change

namespace Timeline

variable {timeline : Timeline}

/-- The timeline has a clip of the same name and track. -/
def Has (timeline : Timeline) (clip : Clip) : Prop :=
  ∃ other ∈ timeline.clips, other.id = clip.id ∧ other.track = clip.track

/-- The timeline has its own clips. -/
theorem has_of_mem {clip : Clip} (mem : clip ∈ timeline.clips) : timeline.Has clip :=
  ⟨clip, mem, rfl, rfl⟩

/-- Changes keep names and tracks. -/
theorem Has.map_onNamed {clip : Clip} (has : timeline.Has clip) (change : Change)
    (targets : List Clip) : (timeline.map (change.onNamed targets)).Has clip := by
  obtain ⟨other, mem, hid, htrack⟩ := has
  refine ⟨change.onNamed targets other, ?_, by simpa, by simpa⟩
  rw [clips_map]
  exact List.mem_map_of_mem mem

/-- The name of a clip leads to a spot of its track unless it is not-a-number. -/
theorem Has.exists_spot {clip : Clip} (has : timeline.Has clip) (named : clip.id.isNaN = false) :
    ∃ spot : Spot, spot.Of timeline clip.id ∧ spot.clip.track = clip.track := by
  obtain ⟨other, mem, hid, htrack⟩ := has
  obtain ⟨track, hon⟩ := mem_clips.mp mem
  obtain ⟨before, after, split⟩ := List.append_of_mem hon
  refine ⟨⟨track, before, other, after⟩, ⟨split, ?_⟩, htrack⟩
  rw [hid]
  exact Value.equal_self_of_not_isNaN named

/-- Replacing the clip of a spot by one of the same name, track and timing fills the
spot and leaves the rest as it is. -/
theorem Steady.replaceClip_eq_ok (steady : timeline.Steady) {spot : Spot} {id : Value}
    (found : spot.Of timeline id) (addressed : Track.addressed spot.clip.track = .ok spot.track)
    {clip : Clip} (hid : clip.id = spot.clip.id) (htrack : clip.track = spot.clip.track)
    (timing : clip.timing = spot.clip.timing) :
    timeline.replaceClip clip = .ok (spot.fill timeline [clip]) := by
  have hlaid := (found.laidOut_fill steady.laidOut timing spot.track).layoutFrom_eq
  rw [Spot.fill, on_setTrack_self] at hlaid
  rw [replaceClip, htrack, track_of_addressed addressed, ok_bind, found.split, hid,
    found.map_eq steady.toOrderly]
  exact withTrack_eq_ok.mpr
    ⟨_, spot.track, hlaid, found.track_equal steady.toOrderly, rfl⟩

end Timeline

namespace Spot

variable {spot : Spot} {timeline : Timeline} {id : Value}

/-- On an orderly timeline the clip of a spot is the one that has its name. -/
theorem Of.fill_eq_map (h : spot.Of timeline id) (orderly : timeline.Orderly) (f : Clip → Clip) :
    spot.fill timeline [f spot.clip] =
      timeline.map fun clip => if clip.id.equal id then f clip else clip := by
  have hkeep {clips : List Clip} (hclips : ∀ clip ∈ clips, clip ∈ spot.rest timeline) :
      clips.map (fun clip => if clip.id.equal id then f clip else clip) = clips := by
    refine (List.map_congr_left fun clip hclip => ?_).trans (List.map_id clips)
    rw [h.unnamed orderly clip (hclips clip hclip)]
    rfl
  refine Timeline.eq_of_on fun track => ?_
  rw [Timeline.on_map]
  rcases spot.track.eq_or_eq_other track with rfl | rfl
  · have hbefore : ∀ clip ∈ spot.before, clip ∈ spot.rest timeline :=
      fun clip hclip => List.mem_append_left _ (List.mem_append_left _ hclip)
    have hafter : ∀ clip ∈ spot.after, clip ∈ spot.rest timeline :=
      fun clip hclip => List.mem_append_left _ (List.mem_append_right _ hclip)
    rw [fill, Timeline.on_setTrack_self, h.split, List.map_append, List.map_cons, hkeep hbefore,
      hkeep hafter, h.named, if_pos rfl, List.append_assoc, List.singleton_append]
  · rw [fill_on_other, hkeep fun clip hclip => List.mem_append_right _ hclip]

end Spot

namespace Change

variable {change : Change} {timeline : Timeline} {clip : Clip}

/-- A known change replaces the clip that the name leads to. -/
theorem apply_of_known (known : change.Known) (timeline : Timeline) (id : Value) :
    (change.edit id).apply timeline = (do
      timeline.replaceClip (change.on (← timeline.require id))) := by
  cases change with
  | mute muted => rfl
  | filter name =>
    rw [edit, Edit.apply, Edit.applyFilter, Value.filter_known_iff.mpr known]
    rfl

/-- A filter that is not known is turned down. -/
theorem apply_of_unknown {name : Value} (unknown : ¬ (Change.filter name).Known)
    (timeline : Timeline) (id : Value) :
    ((Change.filter name).edit id).apply timeline = .error (.rejected (.filterUnknown name)) := by
  rw [edit, Edit.apply, Edit.applyFilter,
    eq_true_of_ne_false (Value.filter_known_iff.not.mpr unknown)]
  rfl

/-- Changes name no new clips and split none. -/
theorem safe_edit (change : Change) (timeline : Timeline) (id : Value) :
    (change.edit id).Safe timeline := by
  cases change <;>
    exact ⟨⟨.nil, by simp [edit, Edit.newIds]⟩, Edit.not_overflowsAt (by simp [edit])⟩

/-- On a steady timeline a known change of an open clip changes the clip of its name and
leaves the rest as it is. -/
theorem apply_eq_ok (steady : timeline.Steady) (known : change.Known)
    (has : timeline.Has clip) (isOpen : clip.IsOpen) :
    (change.edit clip.id).apply timeline = .ok (timeline.map (change.onNamed [clip])) := by
  obtain ⟨spot, found, htrack⟩ := has.exists_spot isOpen.1
  have addressed : Track.addressed spot.clip.track = .ok spot.track :=
    Track.addressed_of_equal (found.track_equal steady.toOrderly) (by rw [htrack]; exact isOpen.2)
  rw [apply_of_known known, found.require_eq_ok steady.toOrderly, ok_bind,
    steady.replaceClip_eq_ok found addressed (change.on_id _) (change.on_track _)
      (change.on_timing _), found.fill_eq_map steady.toOrderly change.on, onNamed_singleton]

/-- A known change of a clip that is not open fails. -/
theorem exists_bars_of_apply (orderly : timeline.Orderly) (known : change.Known)
    (has : timeline.Has clip) (closed : ¬ clip.IsOpen) :
    ∃ fault, clip.Bars fault ∧ (change.edit clip.id).apply timeline = .error fault := by
  rw [apply_of_known known]
  cases hnan : clip.id.isNaN with
  | true =>
    rw [Timeline.require_of_isNaN hnan]
    exact ⟨_, .unnamed hnan, rfl⟩
  | false =>
    have real : clip.track.IsReal := not_not.mp fun kind => closed ⟨hnan, kind⟩
    obtain ⟨spot, found, htrack⟩ := has.exists_spot hnan
    rw [found.require_eq_ok orderly, ok_bind, Timeline.replaceClip, change.on_track,
      Timeline.track_of_isReal (found.track_equal orderly) (by rwa [htrack])]
    exact ⟨_, .illTyped real, rfl⟩

/-! ## Several clips -/

/-- How the same change of several clips ends. -/
inductive Ends (change : Change) (timeline : Timeline) (targets : List Clip) :
    Outcome Timeline → Prop
  /-- The clips with the names of the targets have changed. -/
  | made (isOpen : ∀ target ∈ targets, target.IsOpen) :
      Ends change timeline targets (.ok (timeline.map (change.onNamed targets)))
  /-- One of the targets cannot be changed. -/
  | barred {target : Clip} {fault : Fault} (mem : target ∈ targets) (bars : target.Bars fault) :
      Ends change timeline targets (.error fault)

/-- On a steady timeline a known change is made to all targets, or one of them bars it. -/
theorem ends_of_applyAll (steady : timeline.Steady) (known : change.Known) {targets : List Clip}
    (has : ∀ target ∈ targets, timeline.Has target) :
    Ends change timeline targets
      (Edit.applyAll (targets.map fun target => change.edit target.id) timeline) := by
  induction targets generalizing timeline with
  | nil =>
    have hsame : timeline.map (change.onNamed []) = timeline :=
      Timeline.eq_of_on fun track => by rw [Timeline.on_map]; exact List.map_id _
    have ends : Ends change timeline [] (.ok (timeline.map (change.onNamed []))) :=
      .made (by simp)
    rwa [hsame] at ends
  | cons target targets ih =>
    obtain ⟨hfirst, hrest⟩ := List.forall_mem_cons.mp has
    rw [List.map_cons, Edit.applyAll_cons]
    by_cases isOpen : target.IsOpen
    · have happlied := apply_eq_ok steady known hfirst isOpen
      have steady' := (change.safe_edit timeline target.id).steady_of_apply steady happlied
      -- the targets that are left are found as before
      have ends := ih steady' fun other hother => (hrest other hother).map_onNamed change [target]
      have hmap : (timeline.map (change.onNamed [target])).map (change.onNamed targets) =
          timeline.map (change.onNamed (target :: targets)) := by
        rw [Timeline.map_map]
        exact congrArg timeline.map (funext fun clip => (change.onNamed_cons clip _ _).symm)
      rw [happlied, ok_bind]
      generalize Edit.applyAll _ _ = outcome at ends ⊢
      cases ends with
      | made others =>
        rw [hmap]
        exact .made (List.forall_mem_cons.mpr ⟨isOpen, others⟩)
      | barred mem bars => exact .barred (List.mem_cons_of_mem _ mem) bars
    · obtain ⟨fault, bars, hfault⟩ := exists_bars_of_apply steady.toOrderly known hfirst isOpen
      rw [hfault, error_bind]
      exact .barred List.mem_cons_self bars

/-- The clips that are meant have changed, and everything else is as it was before. -/
def Turns (change : Change) (meant : Clip → Prop) (before after : Timeline) : Prop :=
  ∀ track, List.Forall₂
    (fun old new => (meant old → new = change.on old) ∧ (¬ meant old → new = old))
    (before.on track) (after.on track)

/-- On an orderly timeline no clips but the targets have their names. -/
theorem turns_map_onNamed (orderly : timeline.Orderly) {targets : List Clip}
    (among : ∀ target ∈ targets, target ∈ timeline.clips)
    (isOpen : ∀ target ∈ targets, target.IsOpen) :
    change.Turns (· ∈ targets) timeline (timeline.map (change.onNamed targets)) := by
  intro track
  rw [Timeline.on_map, List.forall₂_map_right_iff, List.forall₂_same]
  intro clip hclip
  refine ⟨fun mem => if_pos ?_, fun hnot => if_neg fun hany => hnot ?_⟩
  · exact List.any_eq_true.mpr
      ⟨clip, mem, Value.equal_self_of_not_isNaN (isOpen clip mem).1⟩
  · obtain ⟨target, mem, hequal⟩ := List.any_eq_true.mp hany
    rwa [orderly.eq_of_equal (Timeline.mem_clips.mpr ⟨track, hclip⟩) (among target mem) hequal]

end Change

end Montage
