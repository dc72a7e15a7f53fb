import Montage.Proofs.Edit.Addressed
import Montage.Proofs.Edit.Steady

/-!
# Edits that undo edits

Removing an inserted clip, putting a clip back to its index and taking a clip back
to its track undo what was done. Where a spot was left empty and a clip is put back
at the same place, the lists of clips are the old ones; the start times then follow.
-/

namespace Montage

open Outcome

namespace Value

/-- A finite index leads to a place among any number of clips. -/
theorem exists_place {index : Value} (finite : index.isFinite = .ok true) (count : Nat) :
    ∃ (forced : Value) (place : Nat), index.clamp (.int 0) (.int count) = .ok forced ∧
      forced.toWhole = .ok (place : Int) ∧ place ≤ count := by
  obtain ⟨forced, hforced⟩ : ∃ forced, index.clamp (.int 0) (.int count) = .ok forced :=
    (faults_clamp_number finite fun h => number?_ne_none _ h).exists_ok
  have hwhole : ∃ n, forced.toWhole = .ok n := by
    rcases clamp_cases hforced with rfl | ⟨rfl, _, _⟩ | ⟨rfl, _, _⟩
    · exact ⟨0, rfl⟩
    · exact ⟨count, rfl⟩
    · exact (faults_toWhole_of_isFinite finite).exists_ok
  obtain ⟨place, hplace⟩ := hwhole
  obtain ⟨hlow, hhigh⟩ := toWhole_clamp finite hforced hplace
  refine ⟨forced, place.toNat, hforced, ?_, by omega⟩
  rw [hplace, Int.toNat_of_nonneg hlow]

/-- An integer within a range is not forced to another one. -/
theorem clamp_int {place count : Nat} (h : place ≤ count) :
    (int place).clamp (int 0) (int count) = .ok (int place) := by
  have hsmaller : smaller (int count) (int place) = .ok (int place) := by
    rw [smaller, lt_of_numbers rfl rfl, Number.lt_int, ok_bind]
    split
    · rfl
    · next hnot =>
      have hsame : count = place := by simpa using le_antisymm (by simpa using hnot) h
      rw [hsame]
      rfl
  have hlarger : larger (int 0) (int place) = .ok (int place) := by
    rw [larger, lt_of_numbers rfl rfl, Number.lt_int, ok_bind]
    split
    · rfl
    · next hnot =>
      have hzero : place = 0 := by simpa using hnot
      rw [hzero]
      rfl
  have hnumber : (int place).isNaN = false := rfl
  rw [clamp, if_neg (by rw [hnumber]; exact Bool.false_ne_true), hsmaller, ok_bind, hlarger]

end Value

namespace Timeline

/-- A clip that is put on a track stands at a spot there. Without it the timeline is
what it was before. -/
theorem exists_spot_putAt (timeline : Timeline) (track : Track) (place : Nat) (clip : Clip)
    (h : place ≤ (timeline.on track).length) :
    ∃ before after, (timeline.putAt track place clip).on track = before ++ clip :: after ∧
      Spot.fill ⟨track, before, clip, after⟩ (timeline.putAt track place clip) [] = timeline := by
  obtain ⟨before, after, hon, _, hinsert⟩ := List.exists_of_modifyTailIdx (List.cons clip) h
  refine ⟨before, after, ?_, ?_⟩
  · rw [putAt, on_setTrack_self, List.insertIdx, hinsert]
  · rw [putAt, Spot.fill, setTrack_setTrack, List.append_nil, ← hon, setTrack_on]

end Timeline

namespace Spot

variable {spot : Spot} {timeline : Timeline}

/-- Putting a clip back where a spot was left empty fills the spot. -/
theorem fill_nil_putAt (spot : Spot) (timeline : Timeline) (clip : Clip) :
    (spot.fill timeline []).putAt spot.track spot.before.length clip =
      spot.fill timeline [clip] := by
  have hinsert : spot.others.insertIdx spot.before.length clip =
      spot.before ++ [clip] ++ spot.after := by
    rw [List.append_assoc]
    exact List.modifyTailIdx_add (List.cons clip) 0 spot.before spot.after
  rw [putAt_fill_nil, hinsert, fill]

end Spot

namespace Edit

variable {timeline raw : Timeline}

/-- An integer up to the number of the clips is the place that it counts. -/
theorem slot_int {place count : Nat} (h : place ≤ count) : slot (.int place) count = place := by
  simp only [slot, Value.number?, Value.int]
  split
  · exact Int.toNat_natCast place
  · omega

/-- Removing an inserted clip undoes the insertion. -/
theorem Makes.delete_inserted {number : Value} {source : Source} {duration index id : Value}
    (makes : (Edit.insert number source duration index id).Makes timeline raw)
    (named : id.isNaN = false) : (Edit.delete id).Makes raw timeline := by
  cases makes with
  | @insert _ _ _ _ _ _ track names finite long fresh =>
    have hid : (Clip.plain id (source.lasting duration) (.real 0) duration number).id = id := rfl
    generalize Clip.plain id (source.lasting duration) (.real 0) duration number = clip at hid
    obtain ⟨before, after, split, hfill⟩ :=
      timeline.exists_spot_putAt track _ clip (slot_le index _)
    have found : Spot.Of ⟨track, before, clip, after⟩ _ id :=
      ⟨split, by rw [hid]; exact Value.equal_self_of_not_isNaN named⟩
    have makes := Makes.delete found
    rwa [hfill] at makes

/-- Putting a clip back to its index undoes a change of order. -/
theorem Makes.reorder_back (orderly : timeline.Orderly) {spot : Spot} {id index : Value}
    (found : spot.Of timeline id) (makes : (Edit.reorder id index).Makes timeline raw)
    (finite : (Value.int spot.before.length).isFinite = .ok true) :
    (Edit.reorder id (.int spot.before.length)).Makes raw timeline := by
  cases makes with
  | @reorder _ _ _ _ spot' place found' _ _ _ within =>
    cases found.unique orderly found'
    obtain ⟨before, after, split, hfill⟩ :=
      (spot.fill timeline []).exists_spot_putAt spot.track place spot.clip
        (by rwa [Spot.fill_nil_on_self])
    have there : Spot.Of ⟨spot.track, before, spot.clip, after⟩ _ id := ⟨split, found.named⟩
    have hothers : Spot.others ⟨spot.track, before, spot.clip, after⟩ = spot.others := by
      have hon := congrArg (fun left => left.on spot.track) hfill
      rwa [Spot.fill_nil_on_self spot, Spot.fill_nil_on_self ⟨spot.track, _, _, _⟩] at hon
    have hwithin : spot.before.length ≤ spot.others.length := by
      rw [Spot.others, List.length_append]
      exact Nat.le_add_right _ _
    have makes := Makes.reorder there finite (Value.clamp_int (by rwa [hothers])) rfl
      (by rwa [hothers])
    rwa [hfill, spot.fill_nil_putAt, found.fill_clip] at makes

/-- Taking a clip back to its track and its index undoes a move, but the clip keeps a new
name and has lost its overlays. -/
theorem Makes.move_back (orderly : timeline.Orderly) {spot : Spot}
    {id number index newId number' : Value} (found : spot.Of timeline id)
    (makes : (Edit.move id number index newId).Makes timeline raw)
    (named : newId.isNaN = false) (newId' : Value)
    (names : number'.equal spot.track.toValue = true) :
    (Edit.move newId number' (.int spot.before.length) newId').Makes raw
      (spot.fill timeline
        [{ spot.clip with id := newId', track := number', overlays := [] }]) := by
  cases makes with
  | move found' _ =>
    cases found.unique orderly found'
    generalize hmoved : ({ spot.clip with
      id := newId
      track := number
      overlays := if spot.track.other = .main then spot.clip.overlays else [] } : Clip) = moved
    have hplace : slot index (timeline.on spot.track.other).length ≤
        ((spot.fill timeline []).on spot.track.other).length := by
      rw [Spot.fill_on_other]
      exact slot_le _ _
    obtain ⟨before, after, split, hfill⟩ :=
      (spot.fill timeline []).exists_spot_putAt spot.track.other _ moved hplace
    have there : Spot.Of ⟨spot.track.other, before, moved, after⟩ _ newId :=
      ⟨split, by rw [← hmoved]; exact Value.equal_self_of_not_isNaN named⟩
    have makes : (Edit.move newId number' (.int spot.before.length) newId').Makes _ _ :=
      .move there (by rwa [Track.other_other])
    -- overlays do not survive two moves, whichever track comes first
    have hoverlays : (if spot.track = .main then moved.overlays else []) = [] := by
      rw [← hmoved]
      cases spot.track <;> rfl
    have hleft : (((spot.fill timeline []).putAt spot.track.other
        (slot index (timeline.on spot.track.other).length) moved).on spot.track).length =
        spot.others.length := by
      rw [Timeline.putAt, Timeline.on_setTrack_of_ne spot.track.other_ne.symm,
        Spot.fill_nil_on_self]
    simp only [Track.other_other, hoverlays, hleft] at makes
    have hback : ({ moved with id := newId', track := number', overlays := [] } : Clip) =
        { spot.clip with id := newId', track := number', overlays := [] } := by
      rw [← hmoved]
    rw [hfill, slot_int (by simp [Spot.others]), Spot.fill_nil_putAt, hback] at makes
    exact makes

/-! ## Runs there and back -/

/-- A clip that was put on a track is found there, so its track is stored as a double only
if it was put there so. -/
theorem not_onReal_of_putAt {middle : Timeline} {track : Track} {place : Nat} {clip : Clip}
    {id : Value} (same : middle.unplaced = (timeline.putAt track place clip).unplaced)
    (orderly : middle.Orderly) (within : place ≤ (timeline.on track).length)
    (named : clip.id.equal id = true) (kind : ¬ clip.track.IsReal) : ¬ OnReal middle id := by
  obtain ⟨before, after, split, _⟩ := timeline.exists_spot_putAt track place clip within
  have there : Spot.Of ⟨track, before, clip, after⟩ _ id := ⟨split, named⟩
  obtain ⟨_, _, _, found, _, _⟩ := there.exists_same same
  exact (onReal_iff orderly found).not.mpr kind

/-- A clip that was inserted can be removed, which undoes the insertion. -/
theorem leadsTo_of_insert (steady : timeline.Steady) {number : Value} {source : Source}
    {duration index id : Value} {inserted : Timeline}
    (h : (Edit.insert number source duration index id).apply timeline = .ok inserted)
    (named : id.isNaN = false) : LeadsTo [.delete id] inserted timeline := by
  obtain ⟨raw, makes, laysOut⟩ := exists_makes_of_applyInsert h
  have same := laysOut.unplaced_eq
  have undone := makes.delete_inserted named
  have kind : ¬ number.IsReal := by
    simp only [apply, applyInsert, bind_eq_ok] at h
    obtain ⟨_, _, _, _, _, _, _, _, _, _, _, htrack, _⟩ := h
    exact Timeline.not_isReal_of_track htrack
  cases makes with
  | @insert _ _ _ _ _ _ track names finite long fresh =>
    have safe : (Edit.insert number source duration index id).Safe timeline := by
      refine ⟨⟨List.pairwise_singleton _ _, ?_⟩, not_overflowsAt (by simp)⟩
      simpa [newIds] using Timeline.find?_eq_none_iff.mp fresh
    have steady' := safe.steady_of_apply steady h
    exact undone.leadsTo same steady' (not_overflowsAt (by simp))
      (not_onReal_of_putAt same steady'.toOrderly (slot_le _ _)
        (Value.equal_self_of_not_isNaN named) kind) steady.laidOut

/-- A clip that was given another index can be put back, which undoes the change. -/
theorem leadsTo_of_reorder (steady : timeline.Steady) {spot : Spot} {id index : Value}
    (found : spot.Of timeline id) (addressed : Track.addressed spot.clip.track = .ok spot.track)
    (finite : index.isFinite = .ok true)
    (short : (Value.int spot.before.length).isFinite = .ok true) :
    LeadsTo [.reorder id index, .reorder id (.int spot.before.length)] timeline timeline := by
  obtain ⟨forced, place, bounded, whole, within⟩ :=
    Value.exists_place finite spot.others.length
  have makes := Makes.reorder found finite bounded whole within
  have kind := Track.not_isReal_of_addressed addressed
  have lengths := steady.settled.hasLengths
  obtain ⟨middle, h, same⟩ := makes.exists_of_unplaced rfl steady.toOrderly
    ((onReal_iff steady.toOrderly found).not.mpr kind)
    (lengths.putAt_fill_nil found _ _ rfl)
  have safe : (Edit.reorder id index).Safe timeline :=
    ⟨⟨.nil, by simp [newIds]⟩, not_overflowsAt (by simp)⟩
  have steady' := safe.steady_of_apply steady h
  refine .cons h ((makes.reorder_back steady.toOrderly found short).leadsTo same steady'
    (not_overflowsAt (by simp)) (not_onReal_of_putAt same steady'.toOrderly ?_ found.named kind)
    steady.laidOut)
  rwa [Spot.fill_nil_on_self]

/-- A move comes upon nothing of an unsuitable kind when the numbers of both tracks are no
doubles and the index counts as a whole number or is null. -/
theorem not_mistypes_move {id number index newId : Value} (onReal : ¬ OnReal timeline id)
    (kind : ¬ number.IsReal) (whole : index.IsIndex) :
    ¬ (Edit.move id number index newId).Mistypes timeline :=
  not_or.mpr ⟨onReal, not_or.mpr ⟨kind, not_not.mpr whole⟩⟩

/-- A clip that was moved to the other track can be taken back, which undoes the move up to
the name of the clip and its overlays. -/
theorem leadsTo_of_move (steady : timeline.Steady) {spot : Spot}
    {id number index newId number' newId' : Value} (found : spot.Of timeline id)
    (addressed : Track.addressed spot.clip.track = .ok spot.track)
    (there : Track.addressed number = .ok spot.track.other) (whole : index.IsIndex)
    (fresh : (Edit.move id number index newId).Fresh timeline) (named : newId.isNaN = false)
    (back : Track.addressed number' = .ok spot.track) :
    LeadsTo [.move id number index newId, .move newId number' (.int spot.before.length) newId']
      timeline (spot.fill timeline [{ spot.clip with id := newId', overlays := [] }]) := by
  have makes : (Edit.move id number index newId).Makes timeline _ :=
    .move found (Track.equal_of_addressed there)
  have kind := Track.not_isReal_of_addressed there
  have lengths := steady.settled.hasLengths
  have makes' := makes.move_back steady.toOrderly found named newId'
    (Track.equal_of_addressed back)
  obtain ⟨middle, h, same⟩ := makes.exists_of_unplaced rfl steady.toOrderly
    (not_mistypes_move ((onReal_iff steady.toOrderly found).not.mpr
      (Track.not_isReal_of_addressed addressed)) kind whole)
    (lengths.putAt_fill_nil found _ _ rfl)
  have safe : (Edit.move id number index newId).Safe timeline :=
    ⟨fresh, not_overflowsAt (by simp)⟩
  have steady' := safe.steady_of_apply steady h
  have within : slot index (timeline.on spot.track.other).length ≤
      ((spot.fill timeline []).on spot.track.other).length := by
    rw [Spot.fill_on_other]
    exact slot_le _ _
  have onReal : ¬ OnReal middle newId :=
    not_onReal_of_putAt same steady'.toOrderly within (Value.equal_self_of_not_isNaN named) kind
  have undone := makes'.leadsTo same steady' (not_overflowsAt (by simp))
    (not_mistypes_move onReal (Track.not_isReal_of_addressed back) (.inr ⟨_, rfl⟩))
    (found.laidOut_fill steady.laidOut rfl)
  -- the number that leads back may be stored in another way than before
  have hnumber : number'.agrees spot.clip.track = true := by
    refine Value.agrees_of_equal (Value.equal_trans (Track.equal_of_addressed back) ?_)
    rw [Value.equal_comm]
    exact found.track_equal steady.toOrderly
  refine (LeadsTo.cons h undone).trans (spot.agrees_fill timeline ?_)
  simp only [Clip.agrees, hnumber, Value.agrees_refl, Source.isAgreement.refl,
    Position.isAgreement.refl, Size.isAgreement.refl, List.zip_nil_left, List.all_nil, decide_true,
    Bool.and_self]

/-- Every insertion, every change of order and every move to the other track can be undone by
a second edit. -/
structure Reverts (timeline : Timeline) : Prop where
  /-- A clip that was inserted is removed by its name. -/
  insertion : ∀ {number : Value} {source : Source} {duration index id : Value}
    {inserted : Timeline},
    (Edit.insert number source duration index id).apply timeline = .ok inserted →
    id.isNaN = false → LeadsTo [.delete id] inserted timeline
  /-- A clip whose track can be addressed goes back to the index that it had. -/
  reordering : ∀ {spot : Spot} {id index : Value}, spot.Of timeline id →
    Track.addressed spot.clip.track = .ok spot.track → index.isFinite = .ok true →
    (Value.int spot.before.length).isFinite = .ok true →
    timeline.indexOf id = .ok spot.before.length ∧
      LeadsTo [.reorder id index, .reorder id (.int spot.before.length)] timeline timeline
  /-- Such a clip goes to the other track and back to the index that it had, with a new name
  and without overlays. -/
  moving : ∀ {spot : Spot} {id number index newId number' newId' : Value}, spot.Of timeline id →
    Track.addressed spot.clip.track = .ok spot.track →
    Track.addressed number = .ok spot.track.other → index.IsIndex →
    (Edit.move id number index newId).Fresh timeline → newId.isNaN = false →
    Track.addressed number' = .ok spot.track →
    timeline.indexOf id = .ok spot.before.length ∧
      LeadsTo [.move id number index newId, .move newId number' (.int spot.before.length) newId']
        timeline (spot.fill timeline [{ spot.clip with id := newId', overlays := [] }])

/-- On a checked timeline that layout leaves unchanged edits can be undone. -/
theorem reverts_of_checked (checked : timeline.checkInvariants = .ok ())
    (settled : timeline.Settled) : Reverts timeline := by
  have steady := Timeline.steady_of_checked checked settled
  refine ⟨fun h named => leadsTo_of_insert steady h named, ?_, ?_⟩
  · intro spot id index found addressed finite short
    exact ⟨found.indexOf_eq_ok steady.toOrderly addressed,
      leadsTo_of_reorder steady found addressed finite short⟩
  · intro spot id number index newId number' newId' found addressed there whole fresh named back
    exact ⟨found.indexOf_eq_ok steady.toOrderly addressed,
      leadsTo_of_move steady found addressed there whole fresh named back⟩

/-- The second clip of the pair goes to the front and back, and to the overlay track and
back, and a third clip comes and goes. -/
theorem reverts_of_pair :
    LeadsTo [.reorder (.text "b") (.int 0), .reorder (.text "b") (.int 1)] pair pair ∧
    LeadsTo [.move (.text "b") (.int 1) .null (.text "c"),
        .move (.text "c") (.int 0) (.int 1) (.text "d")] pair
      ⟨[former, { latter with id := .text "d" }], []⟩ ∧
    ∃ inserted, (Edit.insert (.int 0) former.source (.int 5) (.int 1) (.text "c")).apply pair =
        .ok inserted ∧ LeadsTo [.delete (.text "c")] inserted pair := by
  have found : Spot.Of ⟨.main, [former], latter, []⟩ pair (.text "b") := ⟨rfl, by decide⟩
  have addressed : Track.addressed latter.track = .ok .main := Track.addressed_toValue .main
  have fresh : (Edit.move (.text "b") (.int 1) .null (.text "c")).Fresh pair := by
    decide +kernel
  obtain ⟨inserted, h⟩ : ∃ inserted,
      (Edit.insert (.int 0) former.source (.int 5) (.int 1) (.text "c")).apply pair =
        .ok inserted := exists_of_isOk (by decide +kernel)
  have reverts := reverts_of_checked pair_checked pair_wellFormed.settled
  exact ⟨(reverts.reordering found addressed (eq_ok_of_toOption (by decide +kernel))
      (eq_ok_of_toOption (by decide +kernel))).2,
    (reverts.moving found addressed (Track.addressed_toValue .overlay)
      (.inl rfl) fresh rfl (Track.addressed_toValue .main)).2,
    inserted, h, reverts.insertion h rfl⟩

/-- A timeline whose clip holds its track as a double passes the check and is left unchanged
by layout, but the clip cannot be given an index, neither another one nor its own. -/
theorem not_leadsTo_of_doubled :
    doubled.checkInvariants = .ok () ∧ doubled.Settled ∧
      (∃ spot : Spot, spot.Of doubled (.text "a")) ∧
      ¬ LeadsTo [.reorder (.text "a") (.int 0), .reorder (.text "a") (.int 0)] doubled doubled := by
  have hwell : doubled.WellFormed := by decide +kernel
  have herror : (Edit.reorder (.text "a") (.int 0)).apply doubled = .error .illTyped :=
    eq_illTyped_of_failsAs (by decide +kernel)
  refine ⟨doubled_checked, hwell.settled, ⟨⟨.main, [], _, []⟩, rfl, by decide⟩, ?_⟩
  rintro ⟨result, h, _⟩
  rw [applyAll_cons, herror] at h
  cases h

end Edit

end Montage
