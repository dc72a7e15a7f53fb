import Montage.Proofs.Edit.Faults
import Montage.Proofs.Edit.Meaning
import Montage.Proofs.Project.RoundTrip

/-!
# Edits of what was read

Every clip of a timeline that was read is found by its name, and an edit of it gives
another timeline or is turned down, unless the number of its track is stored as a double:
such a number passes the check, which compares it, but leads to no track. A name that is
not-a-number leads to no clip.
-/

namespace Montage

open Outcome

namespace Value

/-- A value that is not not-a-number equals itself. -/
theorem equal_self_of_not_isNaN {value : Value} (h : value.isNaN = false) :
    value.equal value = true := by
  cases hn : value.number? with
  | none =>
    unfold equal
    rw [hn]
    exact value.agrees_refl
  | some n =>
    have hplace : ∃ p, n.place? = some p := by
      cases n with
      | int i => exact ⟨_, rfl⟩
      | real x =>
        cases value with
        | bool b => cases hn
        | number m =>
          cases hn
          exact Binary64.exists_place_of_isNaN h
        | _ => cases hn
    obtain ⟨p, hp⟩ := hplace
    rw [equal_of_numbers hn hn, Number.equal_iff]
    exact ⟨p, hp, hp⟩

/-- The sum of a value and a double is a double. -/
theorem exists_real_of_add {a : Value} {x : Binary64} {c : Number}
    (h : a.add (real x) = .ok c) : ∃ y, c = .real y := by
  cases ha : a.number? with
  | none => simp [add, arithmetic, ha] at h
  | some m =>
    rcases Number.combine?_eq_some ((add_eq_ok ha rfl).mp h) with
      ⟨_, _, _, hint, _⟩ | ⟨_, _, _, _, hreal⟩
    · cases hint
    · exact ⟨_, hreal⟩

/-- Null or a double is not an integer that is too large. -/
theorem not_isBeyond_of_real {value : Value} (h : value = null ∨ value.IsReal) :
    ¬ value.IsBeyond := by
  rcases h with rfl | ⟨x, rfl⟩
  · exact not_isBeyond_null
  · exact not_isBeyond_real x

/-- Null or an integer is an index. -/
theorem isIndex_of_int {value : Value} (h : value = null ∨ ∃ n, value = int n) :
    value.IsIndex := by
  rcases h with rfl | ⟨n, rfl⟩
  · exact .inl rfl
  · exact .inr ⟨n, rfl⟩

end Value

/-- A value that addresses a track is no double. -/
theorem Track.not_isReal_of_addressed {value : Value} {track : Track}
    (h : addressed value = .ok track) : ¬ value.IsReal := by
  rintro ⟨x, rfl⟩
  simp only [addressed, bind_eq_ok] at h
  obtain ⟨_, _, h⟩ := h
  cases h

namespace Timeline

variable {timeline result : Timeline}

/-- A double leads to no clips. -/
theorem not_isReal_of_track {number : Value} {clips : List Clip}
    (h : timeline.track number = .ok clips) : ¬ number.IsReal := by
  obtain ⟨_, haddressed, _⟩ := bind_eq_ok.mp h
  exact Track.not_isReal_of_addressed haddressed

/-- A double that names a track is of an unsuitable kind. -/
theorem track_of_isReal {number : Value} {track : Track}
    (names : number.equal track.toValue = true) (real : number.IsReal) :
    timeline.track number = .error .illTyped := by
  obtain ⟨x, rfl⟩ := real
  rw [Timeline.track, Track.addressed, Track.ofValue_eq_ok.mpr names]
  rfl

/-- A clip that takes the place of another one does not hold its track as a double. -/
theorem not_isReal_of_replaceClip {clip : Clip} (h : timeline.replaceClip clip = .ok result) :
    ¬ clip.track.IsReal := by
  obtain ⟨_, htrack, _⟩ := bind_eq_ok.mp h
  exact not_isReal_of_track htrack

/-- What the search for a clip by its own name comes to, when some clips are before it on
its track. -/
inductive Locates (before : List Clip) (clip : Clip) : Outcome Nat → Prop
  /-- The clip is found at its place. -/
  | found (named : clip.id.isNaN = false) (kind : ¬ clip.track.IsReal) :
      Locates before clip (.ok before.length)
  /-- The track of the clip cannot be addressed. -/
  | illTyped (named : clip.id.isNaN = false) (real : clip.track.IsReal) :
      Locates before clip (.error .illTyped)
  /-- The name leads to no clip. -/
  | unnamed (unnamed : clip.id.isNaN = true) :
      Locates before clip (.error (.rejected (.clipNotFound clip.id)))

/-- Not-a-number leads to no clip. -/
theorem require_of_isNaN {id : Value} (h : id.isNaN = true) :
    timeline.require id = .error (.rejected (.clipNotFound id)) := by
  have hnone : timeline.find? id = none := by
    rw [find?, List.find?_eq_none]
    intro other _ hequal
    rw [Value.equal_comm] at hequal
    rw [Value.not_isNaN_of_equal hequal] at h
    cases h
  rw [require, hnone]
  rfl

/-- On an orderly timeline a clip is located where it stands, as far as its name and its
track allow. -/
theorem Orderly.locates (orderly : timeline.Orderly) {track : Track} {before after : List Clip}
    {clip : Clip} (stands : timeline.on track = before ++ clip :: after) :
    Locates before clip (timeline.indexOf clip.id) := by
  cases hnan : clip.id.isNaN with
  | true =>
    rw [indexOf, require_of_isNaN hnan]
    exact .unnamed hnan
  | false =>
    have found : Spot.Of ⟨track, before, clip, after⟩ timeline clip.id :=
      ⟨stands, Value.equal_self_of_not_isNaN hnan⟩
    have names := orderly.tracks track clip (by simp [stands])
    by_cases real : clip.track.IsReal
    · rw [indexOf, found.require_eq_ok orderly, ok_bind, track_of_isReal names real]
      exact .illTyped hnan real
    · rw [found.indexOf_eq_ok orderly (Track.addressed_of_equal names real)]
      exact .found hnan real

end Timeline

namespace Edit

variable {timeline result : Timeline} {edit : Edit} {clip : Clip} {id : Value}

/-- The clip that an edit addresses, unless it brings its own. -/
def target? : Edit → Option Value
  | .insert _ _ _ _ _ => none
  | .trim id _ _ => some id
  | .split id _ _ _ => some id
  | .reorder id _ => some id
  | .delete id => some id
  | .move id _ _ _ => some id
  | .mute id _ => some id
  | .filter id _ => some id
  | .overlays id _ => some id
  | .geometry id _ _ => some id

/-- What an edit is given besides the clip is of the kind that it asks for: times are
doubles, indices and tracks are integers, and overlays have names that a set can hold. -/
def WellTyped : Edit → Prop
  | .trim _ inTime outTime =>
    (inTime = .null ∨ inTime.IsReal) ∧ (outTime = .null ∨ outTime.IsReal)
  | .split _ time _ _ => time.IsReal
  | .reorder _ index => ∃ n, index = .int n
  | .move _ number index _ => (∃ n, number = .int n) ∧ (index = .null ∨ ∃ n, index = .int n)
  | .overlays _ images => ∀ image ∈ images, image.id.isKey = true
  | _ => True

/-- What an edit of a clip comes to. It ends in something else than a timeline or a
rejection only if the clip holds its track as a double, in which case there is no timeline
at all, or if the index that the clip is to have is too large for a double. -/
inductive Ends (clip : Clip) (edit : Edit) : Outcome Timeline → Prop
  /-- The edit gives a timeline. -/
  | returns (result : Timeline) (kind : ¬ clip.track.IsReal) : Ends clip edit (.ok result)
  /-- The edit is turned down. -/
  | rejected (why : Rejection) : Ends clip edit (.error (.rejected why))
  /-- The track of the clip cannot be addressed. -/
  | illTyped (real : clip.track.IsReal) : Ends clip edit (.error .illTyped)
  /-- The index has no double. -/
  | tooLarge {id index : Value} (asked : edit = .reorder id index) (beyond : index.IsBeyond) :
      Ends clip edit (.error .tooLarge)

/-- An edit that returns has found the clip that it addresses, on a track that is not
stored as a double. -/
theorem exists_require_of_apply (target : edit.target? = some id)
    (h : edit.apply timeline = .ok result) :
    ∃ clip, timeline.require id = .ok clip ∧ ¬ clip.track.IsReal := by
  cases edit with
  | insert number source duration index newId => cases target
  | trim =>
    cases target
    simp only [apply, applyTrim, bind_eq_ok] at h
    obtain ⟨clip, hclip, _, _, _, _, _, _, _, _, _, _, hreplace⟩ := h
    exact ⟨clip, hclip, fun real => Timeline.not_isReal_of_replaceClip hreplace real⟩
  | split =>
    cases target
    simp only [apply, applySplit, bind_eq_ok] at h
    obtain ⟨clip, hclip, _, _, _, _, _, _, _, _, _, htrack, _⟩ := h
    exact ⟨clip, hclip, Timeline.not_isReal_of_track htrack⟩
  | reorder =>
    cases target
    simp only [apply, applyReorder, bind_eq_ok, demand_bind_eq_ok] at h
    obtain ⟨clip, hclip, _, _, _, _, htrack, _⟩ := h
    exact ⟨clip, hclip, Timeline.not_isReal_of_track htrack⟩
  | delete =>
    cases target
    simp only [apply, applyDelete, bind_eq_ok] at h
    obtain ⟨clip, hclip, _, htrack, _⟩ := h
    exact ⟨clip, hclip, Timeline.not_isReal_of_track htrack⟩
  | move =>
    cases target
    simp only [apply, applyMove, applyDelete, bind_eq_ok] at h
    obtain ⟨clip, hclip, _, _, _, _, _, ⟨other, hother, _, htrack, _⟩, _⟩ := h
    -- the clip is looked for by its own name before it is removed
    cases (Timeline.require_id hclip).symm.trans hother
    exact ⟨clip, hclip, Timeline.not_isReal_of_track htrack⟩
  | mute =>
    cases target
    obtain ⟨clip, hclip, hreplace⟩ := bind_eq_ok.mp h
    exact ⟨clip, hclip, fun real => Timeline.not_isReal_of_replaceClip hreplace real⟩
  | filter =>
    cases target
    simp only [apply, applyFilter, bind_eq_ok] at h
    obtain ⟨_, _, clip, hclip, hreplace⟩ := h
    exact ⟨clip, hclip, fun real => Timeline.not_isReal_of_replaceClip hreplace real⟩
  | overlays =>
    cases target
    simp only [apply, applyOverlays, bind_eq_ok] at h
    obtain ⟨clip, hclip, _, _, _, _, _, _, hreplace⟩ := h
    exact ⟨clip, hclip, fun real => Timeline.not_isReal_of_replaceClip hreplace real⟩
  | geometry =>
    cases target
    obtain ⟨clip, hclip, hreplace⟩ := bind_eq_ok.mp h
    exact ⟨clip, hclip, fun real => Timeline.not_isReal_of_replaceClip hreplace real⟩

/-- A well-typed edit of a checked timeline comes upon a value of an unsuitable kind only on
the track of the clip that it addresses. -/
theorem WellTyped.onReal_of_mistypes (typed : edit.WellTyped) (target : edit.target? = some id)
    (checked : timeline.checkInvariants = .ok ()) (h : edit.Mistypes timeline) :
    OnReal timeline id := by
  cases edit with
  | insert number source duration index newId => cases target
  | trim =>
    cases target
    rcases h with h | ⟨clip, hclip, hnone⟩
    · exact h
    · have hvalid := Timeline.validate_of_checked checked clip (Timeline.mem_clips_of_require hclip)
      obtain ⟨_, _, _, _, hfinite, _⟩ := Clip.validate_eq_ok.mp hvalid
      exact absurd hnone (Value.number?_ne_none_of_isFinite hfinite)
  | move =>
    cases target
    obtain ⟨⟨n, rfl⟩, hindex⟩ := typed
    rcases h with h | ⟨x, hx⟩ | h
    · exact h
    · cases hx
    · exact absurd (Value.isIndex_of_int hindex) h
  | overlays id images =>
    cases target
    rcases h with h | ⟨name, hname, hkey⟩
    · exact h
    · obtain ⟨image, himage, rfl⟩ := List.mem_map.mp hname
      rw [typed image himage] at hkey
      cases hkey
  | _ =>
    cases target
    exact h

/-- A well-typed edit of a clip comes upon an integer that is too large for a double only as
the index that the clip is to have. -/
theorem WellTyped.exists_reorder_of_asksBeyond (typed : edit.WellTyped)
    (target : edit.target? = some id) (h : edit.AsksBeyond timeline) :
    ∃ index, edit = .reorder id index ∧ index.IsBeyond := by
  cases edit with
  | insert number source duration index newId => cases target
  | trim =>
    obtain ⟨hin, hout⟩ := typed
    exact absurd h
      (not_or.mpr ⟨Value.not_isBeyond_of_real hin, Value.not_isBeyond_of_real hout⟩)
  | split =>
    obtain ⟨x, rfl⟩ := typed
    rcases h with h | ⟨clip, cut, _, hsum, hcut⟩
    · exact absurd h (Value.not_isBeyond_real x)
    · obtain ⟨y, rfl⟩ := Value.exists_real_of_add hsum
      exact absurd hcut (Value.not_isBeyond_real y)
  | reorder =>
    cases target
    exact ⟨_, rfl, h⟩
  | _ => cases h

/-- On a timeline that was read, every clip is located where it stands, as far as its name
and its track allow, and a well-typed edit of it gives a timeline or is turned down, unless
the clip holds its track as a double or is to have an index that is too large for one. -/
theorem editable_of_ofValue {document : Value} (read : Timeline.ofValue document = .ok timeline)
    {track : Track} {before after : List Clip}
    (stands : timeline.on track = before ++ clip :: after) :
    Timeline.Locates before clip (timeline.indexOf clip.id) ∧
      ∀ edit : Edit, edit.target? = some clip.id → edit.WellTyped →
        edit.Ends clip (edit.apply timeline) := by
  obtain ⟨_, hgrouped⟩ := Timeline.exists_grouped_of_ofValue read
  have checked := (Timeline.settled_checked_of_ofGrouped hgrouped).2
  have orderly := Timeline.orderly_of_checked checked
  have hfound {found : Clip} (h : timeline.require clip.id = .ok found) : found = clip :=
    (orderly.of_require stands h).2
  refine ⟨orderly.locates stands, fun edit target typed => ?_⟩
  cases happlied : edit.apply timeline with
  | ok result =>
    obtain ⟨found, hrequire, kind⟩ := exists_require_of_apply target happlied
    rw [hfound hrequire] at kind
    exact .returns result kind
  | error fault =>
    refine (fares_apply_of (P := fun fault => edit.Ends clip (.error fault))
      (fun why => .rejected why) (Timeline.admitted_of_checked checked) ?_ ?_).1 fault happlied
    · intro h
      obtain ⟨found, hrequire, real⟩ := typed.onReal_of_mistypes target checked h
      rw [hfound hrequire] at real
      exact .illTyped real
    · intro h
      obtain ⟨index, asked, beyond⟩ := typed.exists_reorder_of_asksBeyond target h
      exact .tooLarge asked beyond

/-- The second clip of the pair, once that is read, is found in the second place, and a trim
of it gives a timeline or is turned down. -/
theorem editable_of_pair :
    Timeline.ofValue (.record [("timelineClips", pair.toValue)]) = .ok pair ∧
      pair.indexOf (.text "b") = .ok 1 ∧
      ∀ fault, (Edit.trim (.text "b") (.real 1) .null).apply pair = .error fault →
        ∃ why, fault = .rejected why := by
  have hread : Timeline.ofValue (.record [("timelineClips", pair.toValue)]) = .ok pair :=
    Timeline.ofValue_clips pair_checked pair_wellFormed.settled
  have kind : ¬ latter.track.IsReal := by
    rintro ⟨x, hx⟩
    cases hx
  obtain ⟨hlocates, hends⟩ :=
    editable_of_ofValue hread (show pair.on .main = [former] ++ latter :: [] from rfl)
  refine ⟨hread, ?_, fun fault hfault => ?_⟩
  · change Timeline.Locates [former] latter (pair.indexOf (.text "b")) at hlocates
    generalize pair.indexOf (.text "b") = place at hlocates
    cases hlocates with
    | found => rfl
    | illTyped _ real => exact absurd real kind
    | unnamed unnamed => cases unnamed
  · have hends := hends (.trim (.text "b") (.real 1) .null) rfl ⟨.inr ⟨1, rfl⟩, .inl rfl⟩
    rw [hfault] at hends
    cases hends with
    | rejected why => exact ⟨why, rfl⟩
    | illTyped real => exact absurd real kind
    | tooLarge asked => cases asked

/-- A timeline whose clip holds its track as a double is read, but the clip is not found in
any place and cannot be removed. -/
theorem unaddressed_of_doubled :
    Timeline.ofValue (.record [("timelineClips", doubled.toValue)]) = .ok doubled ∧
      doubled.indexOf (.text "a") = .error .illTyped ∧
      (Edit.delete (.text "a")).apply doubled = .error .illTyped := by
  have hwell : doubled.WellFormed := by decide +kernel
  refine ⟨Timeline.ofValue_clips doubled_checked hwell.settled, ?_,
    eq_illTyped_of_failsAs (by decide +kernel)⟩
  have hlocates := (Timeline.orderly_of_checked doubled_checked).locates
    (show doubled.on .main = [] ++ doubled.main[0] :: [] from rfl)
  change Timeline.Locates [] _ (doubled.indexOf (.text "a")) at hlocates
  generalize doubled.indexOf (.text "a") = place at hlocates
  cases hlocates with
  | found _ kind => exact absurd ⟨0, rfl⟩ kind
  | illTyped => rfl
  | unnamed unnamed => cases unnamed

end Edit

end Montage
