import Montage.Proofs.Edit.Faults
import Montage.Proofs.Edit.Meaning

/-!
# Edits that can be made return

What `Edit.Makes` tells is all that an edit checks. An edit that can make its
change returns, unless it comes upon a value of an unsuitable kind or one of the
clips that it makes has no length.
-/

namespace Montage

open Outcome

/-- A valid clip has a length, since its window is not longer than where it ends. -/
theorem Clip.exists_length_of_validate {clip : Clip} (h : clip.validate = .ok ()) :
    ∃ length, clip.length = .ok length := by
  obtain ⟨hin, hout, hle, hlt, _, _, ⟨length, hlength, _⟩, _⟩ := validate_eq_ok.mp h
  obtain ⟨start, _, hstart, -⟩ := Value.isFinite_eq_true hin
  obtain ⟨stop, _, hstop, -⟩ := Value.isFinite_eq_true hout
  suffices hsome : length.toReal?.isSome = true by
    obtain ⟨x, hx⟩ := Option.isSome_iff_exists.mp hsome
    exact ⟨x, bind_eq_ok.mpr ⟨length, hlength, orFault_eq_ok.mpr hx⟩⟩
  rw [duration, hstart, hstop, Value.sub_eq_ok rfl rfl] at hlength
  rcases Number.combine?_eq_some hlength with ⟨j, k, rfl, rfl, rfl⟩ | ⟨x, y, _, _, rfl⟩
  · rw [hstart, hstop, Value.le_of_numbers rfl rfl, Except.ok.injEq, Number.le_int,
      decide_eq_false_iff_not] at hle
    rw [hstart, Value.lt_of_numbers rfl rfl, Except.ok.injEq, Number.lt_int,
      decide_eq_false_iff_not] at hlt
    have hj : ((Number.int j).toReal?).isSome = true := by
      rw [hstop, Value.isFinite, orFault_eq_ok] at hout
      obtain ⟨x, hx⟩ := Number.exists_toReal? hout
      rw [hx]
      rfl
    exact Number.toReal?_int_isSome_of_natAbs_le (by omega) hj
  · rfl

namespace Timeline

/-- Every clip has a length. -/
def HasLengths (timeline : Timeline) : Prop :=
  ∀ track, ∀ clip ∈ timeline.on track, ∃ length, clip.length = .ok length

variable {timeline : Timeline}

/-- The tracks can be laid out when every clip has a length. -/
theorem HasLengths.exists_layout (lengths : timeline.HasLengths) (track : Track) :
    ∃ laid, layout (timeline.on track) = .ok laid :=
  exists_layoutFrom_iff.mpr (lengths track)

/-- On a checked timeline every clip has a length. -/
theorem hasLengths_of_checked (checked : timeline.checkInvariants = .ok ()) :
    timeline.HasLengths := fun track clip hclip =>
  Clip.exists_length_of_validate (forall_on_of_checked checked track clip hclip).2.1

/-- On a settled timeline every clip has a length. -/
theorem Settled.hasLengths (settled : timeline.Settled) : timeline.HasLengths :=
  fun track => exists_layoutFrom_iff.mp ⟨_, settled track⟩

/-- Every clip still has a length when one of them is taken to another place. -/
theorem HasLengths.putAt_fill_nil (lengths : timeline.HasLengths) {spot : Spot} {id : Value}
    (found : spot.Of timeline id) (track : Track) (place : Nat) {clip : Clip}
    (same : clip.length = spot.clip.length) :
    ((spot.fill timeline []).putAt track place clip).HasLengths := by
  have hclip : ∃ length, clip.length = .ok length := by
    rw [same]
    exact lengths spot.track spot.clip found.mem_on
  exact forall_on_putAt (P := fun _ clip => ∃ length, clip.length = .ok length) place
    (found.forall_on_fill_nil lengths) hclip

/-- The clips of the track that a value addresses. -/
theorem track_of_addressed {number : Value} {track : Track}
    (h : Track.addressed number = .ok track) : timeline.track number = .ok (timeline.on track) := by
  rw [Timeline.track, h]
  rfl

/-- A timeline with one clip replaced is there when the clips can be laid out. -/
theorem exists_replaceClip (orderly : timeline.Orderly) {spot : Spot} {id : Value}
    (found : spot.Of timeline id) (addressed : Track.addressed spot.clip.track = .ok spot.track)
    {clip : Clip} (lengths : (spot.fill timeline [clip]).HasLengths)
    (hid : clip.id = spot.clip.id) (htrack : clip.track = spot.clip.track) :
    ∃ result, timeline.replaceClip clip = .ok result := by
  obtain ⟨laid, hlaid⟩ := lengths.exists_layout spot.track
  rw [Spot.fill, on_setTrack_self] at hlaid
  rw [replaceClip, htrack, track_of_addressed addressed, ok_bind, found.split, hid,
    found.map_eq orderly]
  exact ⟨_, withTrack_eq_ok.mpr ⟨laid, spot.track, hlaid, found.track_equal orderly, rfl⟩⟩

end Timeline

namespace Edit

variable {timeline raw : Timeline} {edit : Edit}

/-- A clip is put into its slot when the index counts as a whole number or is null. -/
theorem insertOrAppend_eq_ok {index : Value} (h : index.IsIndex) (clips : List Clip)
    (clip : Clip) :
    insertOrAppend clips index clip = .ok (clips.insertIdx (slot index clips.length) clip) := by
  obtain ⟨result, hresult⟩ :=
    (faults_insertOrAppend (fun hnot => hnot h) clips clip).exists_ok
  rw [hresult, eq_insertIdx_of_insertOrAppend hresult]

/-- A clip whose track can be addressed is removed when the others of its track can
be laid out. -/
theorem applyDelete_eq_ok (orderly : timeline.Orderly) {spot : Spot} {id name : Value}
    (found : spot.Of timeline id) (addressed : Track.addressed spot.clip.track = .ok spot.track)
    (hname : timeline.require name = .ok spot.clip) {laid : List Clip}
    (hlaid : layout spot.others = .ok laid) :
    applyDelete timeline name = .ok (timeline.setTrack spot.track laid) := by
  rw [applyDelete, hname, ok_bind, Timeline.track_of_addressed addressed, ok_bind, found.split,
    found.without_eq orderly]
  exact Timeline.withTrack_eq_ok.mpr ⟨laid, spot.track, hlaid, found.track_equal orderly, rfl⟩

/-- On an orderly timeline the name of a spot leads to a track that is stored as a double
if its clip holds it so. -/
theorem onReal_iff (orderly : timeline.Orderly) {spot : Spot} {id : Value}
    (found : spot.Of timeline id) : OnReal timeline id ↔ spot.clip.track.IsReal := by
  constructor
  · rintro ⟨clip, hrequire, real⟩
    rw [found.require_eq_ok orderly] at hrequire
    cases hrequire
    exact real
  · exact fun real => ⟨spot.clip, found.require_eq_ok orderly, real⟩

/-- The track of a spot can be addressed when its name leads to no track that is stored
as a double. -/
theorem addressed_of_not_onReal (orderly : timeline.Orderly) {spot : Spot} {id : Value}
    (found : spot.Of timeline id) (kind : ¬ OnReal timeline id) :
    Track.addressed spot.clip.track = .ok spot.track :=
  Track.addressed_of_equal (found.track_equal orderly) ((onReal_iff orderly found).not.mp kind)

/-- An insertion that can make its clip returns. -/
theorem exists_applyInsert {number : Value} {source : Source} {duration index id : Value}
    {track : Track} (names : number.equal track.toValue = true)
    (finite : duration.isFinite = .ok true)
    (long : duration.lt (.real minClipDuration) = .ok false)
    (fresh : timeline.find? id = none)
    (kind : ¬ (Edit.insert number source duration index id).Mistypes timeline)
    (lengths : (timeline.putAt track (slot index (timeline.on track).length)
      (.plain id (source.lasting duration) (.real 0) duration number)).HasLengths) :
    ∃ result, applyInsert timeline number source duration index id = .ok result := by
  simp only [Mistypes, not_or, not_not, not_forall] at kind
  obtain ⟨real, hindex, path, hpath⟩ := kind
  obtain ⟨laid, hlaid⟩ := lengths.exists_layout track
  rw [Timeline.putAt, Timeline.on_setTrack_self] at hlaid
  have hname : (source.lasting duration).name = .ok (fileName path) := by
    have hsame : (source.lasting duration).path = .text path := by
      unfold Source.lasting
      split <;> exact hpath
    rw [Source.name, hsame]
  rw [applyInsert, Track.ofValue_eq_ok.mpr names, ok_bind,
    requireTime_eq_ok.mpr ⟨finite, rfl⟩, ok_bind, long, ok_bind, fresh]
  simp only [Clip.rejectIf, Option.isSome_none, Bool.false_eq_true, if_false, ok_bind]
  rw [Timeline.track_of_addressed (Track.addressed_of_equal names real), ok_bind,
    insertOrAppend_eq_ok hindex, ok_bind]
  rw [← Source.lasting, hname, ok_bind]
  exact ⟨_, Timeline.withTrack_eq_ok.mpr ⟨laid, track, hlaid, names, rfl⟩⟩

/-- A move to the other track that can take its clip there returns. -/
theorem exists_applyMove (orderly : timeline.Orderly) {spot : Spot}
    {id number index newId : Value} (found : spot.Of timeline id)
    (names : number.equal spot.track.other.toValue = true)
    (kind : ¬ (Edit.move id number index newId).Mistypes timeline) {clip : Clip}
    (hclip : clip = { spot.clip with
      id := newId
      track := number
      overlays := if spot.track.other = .main then spot.clip.overlays else [] })
    (lengths : ((spot.fill timeline []).putAt spot.track.other
      (slot index (timeline.on spot.track.other).length) clip).HasLengths) :
    ∃ result, applyMove timeline id number index newId = .ok result := by
  simp only [Mistypes, not_or, not_not] at kind
  obtain ⟨onReal, real, hindex⟩ := kind
  have addressed := addressed_of_not_onReal orderly found onReal
  have hrequire := found.require_eq_ok orderly
  -- the clip is not on the track that the number names
  have hother : spot.clip.track.equal number = false := by
    cases he : spot.clip.track.equal number with
    | false => rfl
    | true =>
      have hsame := Track.eq_of_equal (found.track_equal orderly) (Value.equal_trans he names)
      exact absurd hsame.symm spot.track.other_ne
  obtain ⟨left, hleft⟩ := lengths.exists_layout spot.track
  rw [Timeline.putAt, Timeline.on_setTrack_of_ne spot.track.other_ne.symm,
    Spot.fill_nil_on_self] at hleft
  obtain ⟨laid, hlaid⟩ := lengths.exists_layout spot.track.other
  rw [Timeline.putAt, Timeline.on_setTrack_self, Spot.fill_on_other] at hlaid
  rw [applyMove, hrequire, ok_bind, Track.ofValue_eq_ok.mpr names, ok_bind, hother,
    applyDelete_eq_ok orderly found addressed (Timeline.require_id hrequire) hleft]
  simp only [Clip.rejectIf, Bool.false_eq_true, if_false, ok_bind]
  rw [Timeline.track_of_addressed (Track.addressed_of_equal names real), ok_bind,
    Timeline.on_other_setTrack, insertOrAppend_eq_ok hindex, ok_bind]
  refine ⟨_, Timeline.withTrack_eq_ok.mpr ⟨laid, spot.track.other, ?_, names, rfl⟩⟩
  rw [← hlaid, hclip]
  cases spot.track <;> rfl

/-- An edit that can make its change returns unless it comes upon a value of an
unsuitable kind. -/
theorem Makes.exists_apply (makes : edit.Makes timeline raw) (orderly : timeline.Orderly)
    (kind : ¬ edit.Mistypes timeline) (lengths : raw.HasLengths) :
    ∃ result, edit.apply timeline = .ok result := by
  cases makes with
  | insert names finite long fresh => exact exists_applyInsert names finite long fresh kind lengths
  | trim found start stop lasts long =>
    have addressed := addressed_of_not_onReal orderly found fun h => kind (.inl h)
    rw [apply, applyTrim, found.require_eq_ok orderly, ok_bind, start.trimmedTo_eq_ok, ok_bind,
      stop.trimmedTo_eq_ok, ok_bind, lasts, ok_bind, long]
    exact Timeline.exists_replaceClip orderly found addressed lengths rfl rfl
  | split found finite inside sum =>
    obtain ⟨laid, hlaid⟩ := lengths.exists_layout _
    rw [Spot.fill, Timeline.on_setTrack_self] at hlaid
    rw [apply, applySplit, found.require_eq_ok orderly, ok_bind,
      requireTime_eq_ok.mpr ⟨finite, rfl⟩, ok_bind, inside, ok_bind]
    simp only [Clip.rejectIf, Bool.false_eq_true, if_false, ok_bind]
    rw [sum, ok_bind, Timeline.track_of_addressed (addressed_of_not_onReal orderly found kind),
      ok_bind, found.split, found.flatMap_eq orderly]
    exact ⟨_, Timeline.withTrack_eq_ok.mpr ⟨laid, _, hlaid, found.track_equal orderly, rfl⟩⟩
  | @reorder _ id index forced spot place found finite bounded whole within =>
    obtain ⟨laid, hlaid⟩ := lengths.exists_layout _
    rw [spot.putAt_fill_nil, Timeline.on_setTrack_self] at hlaid
    rw [apply, applyReorder, found.require_eq_ok orderly, ok_bind, finite, ok_bind, if_pos rfl,
      Timeline.track_of_addressed (addressed_of_not_onReal orderly found kind), ok_bind,
      found.split, found.without_eq orderly]
    dsimp only
    rw [bounded, ok_bind, whole, ok_bind, Int.toNat_natCast]
    exact ⟨_, Timeline.withTrack_eq_ok.mpr ⟨laid, _, hlaid, found.track_equal orderly, rfl⟩⟩
  | delete found =>
    obtain ⟨laid, hlaid⟩ := lengths.exists_layout _
    rw [Spot.fill_nil_on_self] at hlaid
    exact ⟨_, applyDelete_eq_ok orderly found (addressed_of_not_onReal orderly found kind)
      (found.require_eq_ok orderly) hlaid⟩
  | move found names => exact exists_applyMove orderly found names kind rfl lengths
  | mute found =>
    rw [apply, found.require_eq_ok orderly, ok_bind]
    exact Timeline.exists_replaceClip orderly found
      (addressed_of_not_onReal orderly found kind) lengths rfl rfl
  | filter found known =>
    rw [apply, applyFilter, Value.filter_known_iff.mpr known, found.require_eq_ok orderly]
    exact Timeline.exists_replaceClip orderly found
      (addressed_of_not_onReal orderly found kind) lengths rfl rfl
  | @overlays _ id images spot found main apart =>
    have addressed := addressed_of_not_onReal orderly found fun h => kind (.inl h)
    have hmain : (!images.isEmpty && !spot.clip.track.equal Track.main.toValue) = false := by
      rcases main with rfl | hmain
      · rfl
      · have hon := found.track_equal orderly
        rw [hmain] at hon
        simp [hon]
    rw [apply, applyOverlays, found.require_eq_ok orderly, ok_bind, hmain, apart]
    exact Timeline.exists_replaceClip orderly found addressed lengths rfl rfl
  | geometry found =>
    rw [apply, found.require_eq_ok orderly, ok_bind]
    exact Timeline.exists_replaceClip orderly found
      (addressed_of_not_onReal orderly found kind) lengths rfl rfl

/-- There is one change that an edit can make. -/
theorem Makes.unique (makes : edit.Makes timeline raw) (orderly : timeline.Orderly)
    {other : Timeline} (makes' : edit.Makes timeline other) : other = raw := by
  cases makes with
  | insert names finite long fresh =>
    cases makes' with
    | insert names' _ _ _ =>
      cases Track.eq_of_equal names names'
      rfl
  | trim found start stop lasts long =>
    cases makes' with
    | trim found' start' stop' _ _ =>
      cases found.unique orderly found'
      rw [start'.unique start, stop'.unique stop]
  | split found finite inside sum =>
    cases makes' with
    | split found' _ _ sum' =>
      cases found.unique orderly found'
      cases sum.symm.trans sum'
      rfl
  | reorder found finite bounded whole within =>
    cases makes' with
    | reorder found' _ bounded' whole' _ =>
      cases found.unique orderly found'
      cases bounded.symm.trans bounded'
      cases Int.ofNat.inj (Except.ok.inj (whole.symm.trans whole'))
      rfl
  | delete found =>
    cases makes' with
    | delete found' =>
      cases found.unique orderly found'
      rfl
  | move found names =>
    cases makes' with
    | move found' _ =>
      cases found.unique orderly found'
      rfl
  | mute found =>
    cases makes' with
    | mute found' =>
      cases found.unique orderly found'
      rfl
  | filter found known =>
    cases makes' with
    | filter found' _ =>
      cases found.unique orderly found'
      rfl
  | overlays found main apart =>
    cases makes' with
    | overlays found' _ _ =>
      cases found.unique orderly found'
      rfl
  | geometry found =>
    cases makes' with
    | geometry found' =>
      cases found.unique orderly found'
      rfl

/-- An edit that can make its change returns and has made it, unless it comes upon a
value of an unsuitable kind. -/
theorem Makes.exists_laysOut (makes : edit.Makes timeline raw) (orderly : timeline.Orderly)
    (kind : ¬ edit.Mistypes timeline) (lengths : raw.HasLengths) :
    ∃ result, edit.apply timeline = .ok result ∧ result.LaysOut raw timeline := by
  obtain ⟨result, h⟩ := makes.exists_apply orderly kind lengths
  obtain ⟨made, makes', laysOut⟩ := exists_makes_of_apply orderly h
  rw [makes.unique orderly makes'] at laysOut
  exact ⟨result, h, laysOut⟩

end Edit

end Montage
