import Montage.Proofs.Edit.WellFormed

/-!
# The meaning of edits

An edit that returns gives the clips that it is meant to give, up to their start
times, and leaves alone the track that it does not touch. A clip that was given
another place among those of its track is found there.
-/

namespace Montage

namespace Spot

variable {spot : Spot} {timeline : Timeline} {id : Value}

/-- On an orderly timeline the clip of a spot is what its name leads to. -/
theorem Of.require_eq_ok (h : spot.Of timeline id) (orderly : timeline.Orderly) :
    timeline.require id = .ok spot.clip := by
  have hsome : (timeline.find? id).isSome = true := by
    rw [Timeline.find?, List.find?_isSome]
    exact ⟨spot.clip, Timeline.mem_clips.mpr ⟨spot.track, h.mem_on⟩, h.named⟩
  obtain ⟨clip, hfind⟩ := Option.isSome_iff_exists.mp hsome
  have hrequire : timeline.require id = .ok clip := by
    rw [Timeline.require, hfind]
    rfl
  obtain ⟨other, hother, rfl⟩ := Timeline.exists_spot hrequire
  rw [hrequire, h.unique orderly hother]

/-- On an orderly timeline the position of a clip within its track is the number
of the clips before it. -/
theorem Of.indexOf_eq_ok (h : spot.Of timeline id) (orderly : timeline.Orderly)
    (addressed : Track.addressed spot.clip.track = .ok spot.track) :
    timeline.indexOf id = .ok spot.before.length := by
  have hbefore : spot.before.findIdx? (fun other => other.id.equal id) = none := by
    rw [List.findIdx?_eq_none_iff]
    exact fun clip hclip =>
      h.unnamed orderly clip (List.mem_append_left _ (List.mem_append_left _ hclip))
  rw [Timeline.indexOf, h.require_eq_ok orderly, Outcome.ok_bind, Timeline.track, addressed,
    Outcome.ok_bind]
  simp only [pure, Except.pure, Outcome.ok_bind]
  rw [h.split, List.findIdx?_append, hbefore, List.findIdx?_cons, h.named]
  simp [orFault]

end Spot

namespace Edit

variable {timeline result : Timeline} {edit : Edit}

/-- A clip can be given another place only if its track can be addressed. -/
theorem addressed_of_applyReorder (orderly : timeline.Orderly) {spot : Spot} {id index : Value}
    (found : spot.Of timeline id) (h : applyReorder timeline id index = .ok result) :
    Track.addressed spot.clip.track = .ok spot.track := by
  rw [applyReorder, found.require_eq_ok orderly, Outcome.ok_bind] at h
  simp only [Outcome.bind_eq_ok] at h
  obtain ⟨finite, _, h⟩ := h
  cases finite with
  | false => simp [reject] at h
  | true =>
    simp only [if_true, Outcome.bind_eq_ok, Timeline.track, Outcome.pure_eq_ok] at h
    obtain ⟨_, ⟨track, haddressed, _⟩, _⟩ := h
    rw [haddressed, Track.eq_of_equal (Track.equal_of_addressed haddressed)
      (found.track_equal orderly)]

/-- A clip that was given another place is found where the index, forced between
zero and the number of the other clips and cut to a whole number, points. -/
theorem indexOf_of_applyReorder (orderly : timeline.Orderly) {spot : Spot} {id index : Value}
    (found : spot.Of timeline id) (h : applyReorder timeline id index = .ok result) :
    ∃ place : Nat,
      (do (← index.clamp (.int 0) (.int spot.others.length)).toWhole) = .ok (place : Int) ∧
        result.indexOf id = .ok place := by
  obtain ⟨raw, makes, laysOut⟩ := exists_makes_of_applyReorder orderly h
  have hfresh : Fresh (.reorder id index) timeline := ⟨.nil, by simp [newIds]⟩
  have hapart := laysOut.apart (makes.apart hfresh orderly.apart)
  cases makes with
  | @reorder _ _ _ forced there place found' finite bounded whole within =>
    cases found.unique orderly found'
    have htracks := laysOut.forall_on (P := fun k clip => clip.track.equal k.toValue = true)
      (fun _ _ => Iff.rfl) (Timeline.forall_on_putAt place
        (found.forall_on_fill_nil orderly.tracks) (found.track_equal orderly))
    refine ⟨place, Outcome.bind_eq_ok.mpr ⟨forced, bounded, whole⟩, ?_⟩
    -- the clip stands behind as many others as its place says
    obtain ⟨front, back, _, hplace, hinsert⟩ :=
      List.exists_of_modifyTailIdx (List.cons spot.clip) within
    have hlists := laysOut.unplaced spot.track
    rw [spot.putAt_fill_nil, Timeline.on_setTrack_self, List.insertIdx, hinsert] at hlists
    simp only [List.map_append, List.map_cons, List.map_eq_append_iff,
      List.map_eq_cons_iff] at hlists
    obtain ⟨before, _, hon, hbefore, clip, after, rfl, hclip, _⟩ := hlists
    obtain ⟨hid, htrack⟩ := Clip.named_eq_of_unplaced hclip
    have there : Spot.Of ⟨spot.track, before, clip, after⟩ result id :=
      ⟨hon, by rw [hid]; exact found.named⟩
    have hlength : before.length = place := by
      rw [← hplace, ← List.length_map (f := Clip.unplaced), hbefore, List.length_map]
    rw [there.indexOf_eq_ok ⟨hapart, htracks⟩, hlength]
    rw [htrack]
    exact addressed_of_applyReorder orderly found h

/-- An edit of a checked timeline that returns gives the clips that it makes, up
to start times, and keeps a track whose clips it does not change. After a change
of order the clip is found at its place. -/
theorem meaning_of_apply (checked : timeline.checkInvariants = .ok ())
    (settled : timeline.Settled) (h : edit.apply timeline = .ok result) :
    (∃ raw, edit.Makes timeline raw ∧
      (∀ track, (result.on track).map Clip.unplaced = (raw.on track).map Clip.unplaced) ∧
      ∀ track, raw.on track = timeline.on track → result.on track = timeline.on track) ∧
    ∀ (id index : Value) (spot : Spot), edit = .reorder id index → spot.Of timeline id →
      ∃ place : Nat,
        (do (← index.clamp (.int 0) (.int spot.others.length)).toWhole) = .ok (place : Int) ∧
          result.indexOf id = .ok place := by
  have orderly := Timeline.orderly_of_checked checked
  refine ⟨?_, ?_⟩
  · obtain ⟨raw, makes, laysOut⟩ := exists_makes_of_apply orderly h
    refine ⟨raw, makes, laysOut.unplaced, ?_⟩
    intro track hsame
    rcases laysOut track with hlaid | ⟨_, hkept⟩
    · rw [hsame, settled track] at hlaid
      exact (Except.ok.inj hlaid).symm
    · exact hkept
  · rintro id index spot rfl found
    exact indexOf_of_applyReorder orderly found h

/-- The second clip of the pair is put first, and this is where it is found. -/
theorem meaning_of_reordered_pair : ∃ result,
    (Edit.reorder (.text "b") (.int 0)).apply pair = .ok result ∧
      (∃ raw, (Edit.reorder (.text "b") (.int 0)).Makes pair raw ∧
        (result.on .main).map Clip.unplaced = (raw.on .main).map Clip.unplaced) ∧
      result.indexOf (.text "b") = .ok 0 := by
  obtain ⟨result, h⟩ : ∃ result, (Edit.reorder (.text "b") (.int 0)).apply pair = .ok result :=
    Outcome.exists_of_isOk (by decide +kernel)
  obtain ⟨⟨raw, makes, hlists, _⟩, hindex⟩ :=
    meaning_of_apply pair_checked pair_wellFormed.settled h
  have found : Spot.Of ⟨.main, [former], latter, []⟩ pair (.text "b") := ⟨rfl, by decide⟩
  obtain ⟨place, hplace, hfound⟩ := hindex _ _ _ rfl found
  have hzero : (do (← (Value.int 0).clamp (.int 0) (.int 1)).toWhole) = .ok (0 : Int) :=
    Outcome.eq_ok_of_toOption (by decide +kernel)
  have hsame : (place : Int) = 0 := Except.ok.inj (hplace.symm.trans hzero)
  rw [Int.natCast_eq_zero.mp hsame] at hfound
  exact ⟨result, h, ⟨raw, makes, hlists .main⟩, hfound⟩

end Edit

end Montage
