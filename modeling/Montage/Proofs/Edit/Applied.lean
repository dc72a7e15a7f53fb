import Montage.Proofs.Edit.Effect
import Montage.Proofs.Timeline.Integrity

/-!
# Applied edits

An edit that is applied to an orderly timeline and returns has made its change
and laid out the tracks that it touched. Every statement about what edits keep
or give is a statement about these changes.
-/

namespace Montage.Edit

/-- A time that is required is returned when it is a finite number. -/
theorem requireTime_eq_ok {argument : Text} {value time : Value} :
    requireTime argument value = .ok time ↔ value.isFinite = .ok true ∧ value = time := by
  simp only [requireTime, Outcome.bind_eq_ok]
  constructor
  · rintro ⟨finite, hfinite, h⟩
    cases finite with
    | false => simp at h
    | true => exact ⟨hfinite, by simpa using h⟩
  · rintro ⟨hfinite, rfl⟩
    exact ⟨true, hfinite, by simp⟩

/-- A time that is not too near to an end of a clip lies between two bounds. -/
theorem nearEdge_eq_false {clip : Clip} {time : Value} :
    nearEdge clip time = .ok false ↔
      time.lt (.real minClipDuration) = .ok false ∧ ∃ length last,
        clip.duration = .ok length ∧
        (Value.number length).sub (.real minClipDuration) = .ok last ∧
        (Value.number last).lt time = .ok false := by
  simp only [nearEdge, Outcome.bind_eq_ok]
  constructor
  · rintro ⟨early, hearly, h⟩
    cases early with
    | true => simp at h
    | false =>
      simp only [Bool.false_eq_true, if_false, Outcome.bind_eq_ok] at h
      obtain ⟨length, hlength, last, hlast, hlate⟩ := h
      exact ⟨hearly, length, last, hlength, hlast, hlate⟩
  · rintro ⟨hearly, length, last, hlength, hlast, hlate⟩
    refine ⟨false, hearly, ?_⟩
    simp only [Bool.false_eq_true, if_false, Outcome.bind_eq_ok]
    exact ⟨length, hlength, last, hlast, hlate⟩

/-- The end that a trim asks for. -/
theorem trimmedTo_of_eq_ok {argument : Text} {wanted present native new : Value}
    (h : trimmedTo argument wanted present native = .ok new) :
    TrimmedTo wanted present native new := by
  unfold trimmedTo at h
  split at h
  · next hnull => exact .inl ⟨hnull, (Outcome.pure_eq_ok.mp h).symm⟩
  · simp only [Outcome.bind_eq_ok, requireTime_eq_ok] at h
    obtain ⟨time, ⟨hfinite, rfl⟩, hclamp⟩ := h
    exact .inr ⟨hfinite, hclamp⟩

/-- The end that a trim asks for is found. -/
theorem TrimmedTo.trimmedTo_eq_ok {wanted present native new : Value}
    (h : TrimmedTo wanted present native new) (argument : Text) :
    trimmedTo argument wanted present native = .ok new := by
  rcases h with ⟨hnull, rfl⟩ | ⟨hfinite, hclamp⟩
  · rw [trimmedTo, if_pos hnull]
    rfl
  · have hnull : wanted.isNull = false := by
      obtain ⟨n, _, rfl, _⟩ := Value.isFinite_eq_true hfinite
      rfl
    rw [trimmedTo, hnull, requireTime_eq_ok.mpr ⟨hfinite, rfl⟩]
    exact hclamp

/-- A trim asks for one end only. -/
theorem TrimmedTo.unique {wanted present native new other : Value}
    (h : TrimmedTo wanted present native new) (hother : TrimmedTo wanted present native other) :
    new = other :=
  Except.ok.inj ((h.trimmedTo_eq_ok "").symm.trans (hother.trimmedTo_eq_ok ""))

/-- An integer addresses the place it counts. -/
theorem position_of_int {index : Value} {i : Int} (h : index.number? = some (.int i)) :
    index.position = .ok i := by
  cases index with
  | bool b =>
    cases h
    cases b <;> rfl
  | number n =>
    cases h
    rfl
  | _ => cases h

/-- A double addresses no place. -/
theorem position_of_real {index : Value} {x : Binary64} (h : index.number? = some (.real x)) :
    index.position = .error .illTyped := by
  cases index with
  | number n =>
    cases h
    rfl
  | _ => cases h

/-- Inserting or appending puts a clip into its slot. -/
theorem eq_insertIdx_of_insertOrAppend {clips result : List Clip} {index : Value} {clip : Clip}
    (h : insertOrAppend clips index clip = .ok result) :
    result = clips.insertIdx (slot index clips.length) clip := by
  have hend : clips.insertIdx clips.length clip = clips ++ [clip] := List.insertIdx_length_self
  unfold insertOrAppend at h
  split at h
  · next hnull =>
    cases index with
    | null => exact (Outcome.pure_eq_ok.mp h).symm.trans hend.symm
    | _ => simp [Value.isNull] at hnull
  · simp only [Outcome.bind_eq_ok] at h
    obtain ⟨negative, hnegative, h⟩ := h
    obtain ⟨n, hn, hlt⟩ := Value.number?_of_ok_lt rfl hnegative
    cases n with
    | int i =>
      have hle : (Value.int clips.length).le index = .ok (decide ((clips.length : Int) ≤ i)) := by
        rw [Value.le_of_numbers rfl hn, Number.le_int]
      rw [Number.lt_int] at hlt
      simp only [hle, Outcome.ok_bind, decide_eq_true_eq] at h
      simp only [slot, hn]
      cases negative with
      | true =>
        rw [decide_eq_true_eq] at hlt
        rw [if_neg (by omega), hend]
        exact (Outcome.pure_eq_ok.mp h).symm
      | false =>
        rw [decide_eq_false_iff_not] at hlt
        simp only [Bool.false_eq_true, if_false] at h
        split at h
        · rw [if_neg (by omega), hend]
          exact (Outcome.pure_eq_ok.mp h).symm
        · simp only [position_of_int hn, Outcome.ok_bind, Outcome.pure_eq_ok] at h
          rw [if_pos (by omega), h]
    | real x =>
      simp only [slot, hn]
      rw [hend]
      cases negative with
      | true => exact (Outcome.pure_eq_ok.mp h).symm
      | false =>
        simp only [Bool.false_eq_true, if_false, Outcome.bind_eq_ok] at h
        obtain ⟨past, _, h⟩ := h
        cases past with
        | true => exact (Outcome.pure_eq_ok.mp h).symm
        | false =>
          -- a double within the list addresses no place in it
          simp [position_of_real hn] at h

variable {timeline result : Timeline}

/-- What an applied insertion makes. -/
theorem exists_makes_of_applyInsert {number : Value} {source : Source} {duration index id : Value}
    (h : applyInsert timeline number source duration index id = .ok result) :
    ∃ raw, Makes (.insert number source duration index id) timeline raw ∧
      result.LaysOut raw timeline := by
  simp only [applyInsert, Outcome.bind_eq_ok, requireTime_eq_ok, Outcome.rejectIf_eq_ok] at h
  obtain ⟨_, _, _, ⟨hfinite, rfl⟩, _, hlong, _, rfl, _, hfresh, clips, hclips, inserted,
    hinserted, _, _, hwith⟩ := h
  obtain ⟨track, hnames, rfl⟩ := Timeline.track_eq_ok hclips
  obtain ⟨laid, track', hlaid, hnames', rfl⟩ := Timeline.withTrack_eq_ok.mp hwith
  cases Track.eq_of_equal hnames hnames'
  cases eq_insertIdx_of_insertOrAppend hinserted
  have hfind : timeline.find? id = none := by simpa using hfresh
  exact ⟨_, .insert hnames hfinite hlong hfind, Timeline.laysOut_setTrack hlaid⟩

/-- What an applied trim makes. -/
theorem exists_makes_of_applyTrim (orderly : timeline.Orderly) {id inTime outTime : Value}
    (h : applyTrim timeline id inTime outTime = .ok result) :
    ∃ raw, Makes (.trim id inTime outTime) timeline raw ∧ result.LaysOut raw timeline := by
  simp only [applyTrim, Outcome.bind_eq_ok, Outcome.rejectIf_eq_ok] at h
  obtain ⟨_, hrequire, newIn, hin, newOut, hout, length, hlength, _, hlong, _, rfl, hreplace⟩ := h
  obtain ⟨spot, found, rfl⟩ := Timeline.exists_spot hrequire
  have makes : Makes (.trim id inTime outTime) timeline _ := .trim found
    (trimmedTo_of_eq_ok hin) (trimmedTo_of_eq_ok hout) hlength hlong
  exact ⟨_, makes, orderly.laysOut_replaceClip found hreplace rfl rfl⟩

/-- Splitting the clip of a spot lays its track out with the two halves in its place. -/
theorem setTrack_halves_of_applySplit (orderly : timeline.Orderly) {id time first second : Value}
    (h : applySplit timeline id time first second = .ok result) :
    ∃ (spot : Spot) (cut : Number) (laid : List Clip), spot.Of timeline id ∧
      time.isFinite = .ok true ∧ nearEdge spot.clip time = .ok false ∧
      spot.clip.inTime.add time = .ok cut ∧
      layout (spot.before ++ [{ spot.clip with id := first, outTime := .number cut },
        { spot.clip with id := second, inTime := .number cut }] ++ spot.after) = .ok laid ∧
      timeline.setTrack spot.track laid = result := by
  simp only [applySplit, Outcome.bind_eq_ok, requireTime_eq_ok, Outcome.rejectIf_eq_ok] at h
  obtain ⟨_, hrequire, _, ⟨hfinite, rfl⟩, _, hinside, _, rfl, cut, hcut, clips, hclips, hwith⟩ := h
  obtain ⟨spot, found, rfl⟩ := Timeline.exists_spot hrequire
  rw [orderly.track_eq_ok found hclips, found.flatMap_eq orderly] at hwith
  obtain ⟨laid, hlaid, hresult⟩ := orderly.withTrack_eq_ok found hwith
  exact ⟨spot, cut, laid, found, hfinite, hinside, hcut, hlaid, hresult⟩

/-- What an applied split makes. -/
theorem exists_makes_of_applySplit (orderly : timeline.Orderly) {id time first second : Value}
    (h : applySplit timeline id time first second = .ok result) :
    ∃ raw, Makes (.split id time first second) timeline raw ∧ result.LaysOut raw timeline := by
  obtain ⟨spot, cut, laid, found, hfinite, hinside, hcut, hlaid, rfl⟩ :=
    setTrack_halves_of_applySplit orderly h
  exact ⟨_, .split found hfinite hinside hcut, Timeline.laysOut_setTrack hlaid⟩

/-- What an applied change of order makes. -/
theorem exists_makes_of_applyReorder (orderly : timeline.Orderly) {id index : Value}
    (h : applyReorder timeline id index = .ok result) :
    ∃ raw, Makes (.reorder id index) timeline raw ∧ result.LaysOut raw timeline := by
  simp only [applyReorder, Outcome.bind_eq_ok] at h
  obtain ⟨_, hrequire, finite, hfinite, h⟩ := h
  obtain ⟨spot, found, rfl⟩ := Timeline.exists_spot hrequire
  cases finite with
  | false => simp [reject] at h
  | true =>
    simp only [if_true, Outcome.bind_eq_ok] at h
    obtain ⟨clips, hclips, forced, hforced, place, hplace, hwith⟩ := h
    rw [orderly.track_eq_ok found hclips, found.without_eq orderly] at hforced hwith
    obtain ⟨hlow, hhigh⟩ := Value.toWhole_clamp hfinite hforced hplace
    obtain ⟨laid, hlaid, rfl⟩ := orderly.withTrack_eq_ok found hwith
    have hwhole : forced.toWhole = .ok (place.toNat : Int) := by
      rw [hplace, Int.toNat_of_nonneg hlow]
    refine ⟨_, .reorder found hfinite hforced hwhole (by omega), ?_⟩
    rw [spot.putAt_fill_nil]
    exact Timeline.laysOut_setTrack hlaid

/-- Deleting the clip of a spot lays out the other clips of its track. -/
theorem setTrack_others_of_applyDelete (orderly : timeline.Orderly) {spot : Spot} {id name : Value}
    (found : spot.Of timeline id) (hname : name.equal spot.clip.id = true)
    (h : applyDelete timeline name = .ok result) :
    ∃ laid, layout spot.others = .ok laid ∧ timeline.setTrack spot.track laid = result := by
  simp only [applyDelete, Outcome.bind_eq_ok] at h
  obtain ⟨clip, hrequire, clips, hclips, hwith⟩ := h
  obtain ⟨there, hthere, rfl⟩ := Timeline.exists_spot hrequire
  rw [found.clip_eq orderly hthere hname] at hclips hwith
  rw [orderly.track_eq_ok found hclips, found.without_eq orderly] at hwith
  exact orderly.withTrack_eq_ok found hwith

/-- What an applied deletion makes. -/
theorem exists_makes_of_applyDelete (orderly : timeline.Orderly) {id : Value}
    (h : applyDelete timeline id = .ok result) :
    ∃ raw, Makes (.delete id) timeline raw ∧ result.LaysOut raw timeline := by
  have hrequire := h
  simp only [applyDelete, Outcome.bind_eq_ok] at hrequire
  obtain ⟨_, hrequire, _⟩ := hrequire
  obtain ⟨spot, found, rfl⟩ := Timeline.exists_spot hrequire
  have hname : id.equal spot.clip.id = true := by
    rw [Value.equal_comm]
    exact found.named
  obtain ⟨laid, hlaid, rfl⟩ := setTrack_others_of_applyDelete orderly found hname h
  refine ⟨_, .delete found, Timeline.laysOut_setTrack ?_⟩
  rwa [List.append_nil]

/-- What an applied move to the other track makes. -/
theorem exists_makes_of_applyMove (orderly : timeline.Orderly) {id number index newId : Value}
    (h : applyMove timeline id number index newId = .ok result) :
    ∃ raw, Makes (.move id number index newId) timeline raw ∧ result.LaysOut raw timeline := by
  simp only [applyMove, Outcome.bind_eq_ok, Outcome.rejectIf_eq_ok, Track.ofValue_eq_ok] at h
  obtain ⟨_, hrequire, target, htarget, _, hother, left, hdelete, clips, hclips, inserted,
    hinserted, hwith⟩ := h
  obtain ⟨spot, found, rfl⟩ := Timeline.exists_spot hrequire
  obtain ⟨taken, htaken, rfl⟩ := setTrack_others_of_applyDelete orderly found found.self hdelete
  have hne : target ≠ spot.track := by
    rintro rfl
    have hsame := Value.equal_trans (found.track_equal orderly)
      (by rw [Value.equal_comm]; exact htarget : spot.track.toValue.equal number = true)
    rw [hsame] at hother
    cases hother
  have hto : target = spot.track.other :=
    (spot.track.eq_or_eq_other target).resolve_left hne
  subst hto
  obtain ⟨track, hnames, rfl⟩ := Timeline.track_eq_ok hclips
  cases Track.eq_of_equal htarget hnames
  obtain ⟨laid, track', hlaid, hnames', rfl⟩ := Timeline.withTrack_eq_ok.mp hwith
  cases Track.eq_of_equal htarget hnames'
  cases eq_insertIdx_of_insertOrAppend hinserted
  refine ⟨_, .move found htarget, ?_⟩
  intro given
  rcases spot.track.eq_or_eq_other given with rfl | rfl
  · refine .inl ?_
    rw [Timeline.putAt, Timeline.on_setTrack_of_ne spot.track.other_ne.symm,
      Timeline.on_setTrack_of_ne spot.track.other_ne.symm, Spot.fill_nil_on_self,
      Timeline.on_setTrack_self]
    exact htaken
  · refine .inl ?_
    rw [Timeline.putAt, Timeline.on_setTrack_self, Timeline.on_setTrack_self, Spot.fill_on_other]
    rw [Timeline.on_other_setTrack] at hlaid
    convert hlaid using 2
    cases spot.track <;> rfl

/-- An applied edit has made its change and laid out what it touched. -/
theorem exists_makes_of_apply (orderly : timeline.Orderly) {edit : Edit}
    (h : edit.apply timeline = .ok result) :
    ∃ raw, edit.Makes timeline raw ∧ result.LaysOut raw timeline := by
  cases edit with
  | insert number source duration index id => exact exists_makes_of_applyInsert h
  | trim id inTime outTime => exact exists_makes_of_applyTrim orderly h
  | split id time first second => exact exists_makes_of_applySplit orderly h
  | reorder id index => exact exists_makes_of_applyReorder orderly h
  | delete id => exact exists_makes_of_applyDelete orderly h
  | move id number index newId => exact exists_makes_of_applyMove orderly h
  | mute id muted =>
    simp only [apply, Outcome.bind_eq_ok] at h
    obtain ⟨_, hrequire, hreplace⟩ := h
    obtain ⟨spot, found, rfl⟩ := Timeline.exists_spot hrequire
    exact ⟨_, .mute found, orderly.laysOut_replaceClip found hreplace rfl rfl⟩
  | filter id name =>
    simp only [apply, applyFilter, Outcome.bind_eq_ok, Outcome.rejectIf_eq_ok] at h
    obtain ⟨_, hknown, _, hrequire, hreplace⟩ := h
    obtain ⟨spot, found, rfl⟩ := Timeline.exists_spot hrequire
    exact ⟨_, .filter found (Value.filter_known_iff.mp hknown),
      orderly.laysOut_replaceClip found hreplace rfl rfl⟩
  | overlays id images =>
    simp only [apply, applyOverlays, Outcome.bind_eq_ok, Outcome.rejectIf_eq_ok] at h
    obtain ⟨_, hrequire, _, hmain, _, happart, _, rfl, hreplace⟩ := h
    obtain ⟨spot, found, rfl⟩ := Timeline.exists_spot hrequire
    refine ⟨_, .overlays found ?_ happart, orderly.laysOut_replaceClip found hreplace rfl rfl⟩
    cases images with
    | nil => exact .inl rfl
    | cons image images =>
      have hon : spot.clip.track.equal Track.main.toValue = true := by simpa using hmain
      exact .inr (Track.eq_of_equal (found.track_equal orderly) hon)
  | geometry id position size =>
    simp only [apply, Outcome.bind_eq_ok] at h
    obtain ⟨_, hrequire, hreplace⟩ := h
    obtain ⟨spot, found, rfl⟩ := Timeline.exists_spot hrequire
    exact ⟨_, .geometry found, orderly.laysOut_replaceClip found hreplace rfl rfl⟩

end Montage.Edit
