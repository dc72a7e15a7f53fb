import Montage.Proofs.Timeline.Layout
import Montage.Proofs.Timeline.Spot
import Montage.Timeline.Integrity

/-!
# What the check of the invariants finds out

A timeline that passes the check is orderly: its clips are named apart and stand
on their tracks. Every clip of it passes validation, so both ends of its window
are moments, and it names its overlays apart.
-/

namespace Montage

namespace Value

/-- Values without repeats can name things, and no two of them agree. -/
theorem pairwise_of_hasRepeats {values : List Value} (h : hasRepeats values = .ok false) :
    values.Pairwise fun a b => a.agrees b = false := by
  induction values with
  | nil => exact .nil
  | cons value values ih =>
    simp only [hasRepeats, Outcome.bind_eq_ok, Outcome.pure_eq_ok, Bool.or_eq_false_iff] at h
    obtain ⟨_, _, later, hlater, rfl, hamong⟩ := h
    refine List.pairwise_cons.mpr ⟨?_, ih hlater⟩
    intro other hother
    simpa using List.any_eq_false.mp hamong other hother

/-- A text behind values without repeats is repeated if it is one of them. -/
theorem hasRepeats_append_text {values : List Value} (h : hasRepeats values = .ok false)
    (t : Text) : hasRepeats (values ++ [.text t]) = .ok (values.any (equal · (.text t))) := by
  induction values with
  | nil => rfl
  | cons value values ih =>
    simp only [hasRepeats, Outcome.bind_eq_ok, Outcome.pure_eq_ok, Bool.or_eq_false_iff] at h
    obtain ⟨_, hkey, later, hlater, rfl, hamong⟩ := h
    have hequal : value.equal (.text t) = value.agrees (.text t) := by cases value <;> rfl
    rw [List.cons_append, hasRepeats, hkey, Outcome.ok_bind, ih hlater, Outcome.ok_bind]
    rw [isAmong] at hamong
    simp [isAmong, hamong, hequal, pure, Except.pure, Bool.or_comm]

/-- What does not agree is not equal. -/
theorem equal_eq_false {a b : Value} (h : a.agrees b = false) : a.equal b = false := by
  cases he : a.equal b with
  | false => rfl
  | true =>
    rw [agrees_of_equal he] at h
    cases h

/-- A filter passes when it is null or one of the known ones. -/
theorem filter_known_iff {name : Value} :
    (!name.isNull && !name.isOneOf videoFilters) = false ↔
      name.isNull = true ∨ name.isOneOf videoFilters = true := by
  cases name.isNull <;> cases name.isOneOf videoFilters <;> simp

end Value

namespace Clip

/-- Validation accepts exactly the clips with a window of finite ends that lies
within the source and is long enough, and with a known filter or none. -/
theorem validate_eq_ok {clip : Clip} {u : Unit} :
    clip.validate = .ok u ↔
      clip.inTime.isFinite = .ok true ∧ clip.outTime.isFinite = .ok true ∧
      clip.outTime.le clip.inTime = .ok false ∧ clip.inTime.lt (.int 0) = .ok false ∧
      clip.source.duration.isFinite = .ok true ∧
      (∃ last, clip.source.duration.add (.real timeTolerance) = .ok last ∧
        (Value.number last).lt clip.outTime = .ok false) ∧
      (∃ length, clip.duration = .ok length ∧
        (Value.number length).lt (.real shortestWindow) = .ok false) ∧
      (clip.filter.isNull = true ∨ clip.filter.isOneOf videoFilters = true) := by
  simp only [validate, Outcome.bind_eq_ok, Outcome.demand_bind_eq_ok, Outcome.rejectIf_eq_ok,
    Value.filter_known_iff, exists_and_left, exists_const]
  constructor
  · rintro ⟨_, hin, rfl, _, hout, rfl, _, hle, rfl, _, hlt, rfl, _, hduration, rfl, last, hlast,
      _, hafter, rfl, length, hlength, _, hshort, rfl, hknown⟩
    exact ⟨hin, hout, hle, hlt, hduration, ⟨last, hlast, hafter⟩, ⟨length, hlength, hshort⟩,
      hknown⟩
  · rintro ⟨hin, hout, hle, hlt, hduration, ⟨last, hlast, hafter⟩, ⟨length, hlength, hshort⟩,
      hknown⟩
    exact ⟨true, hin, rfl, true, hout, rfl, false, hle, rfl, false, hlt, rfl, true, hduration,
      rfl, last, hlast, false, hafter, rfl, length, hlength, false, hshort, rfl, hknown⟩

/-- Both ends of a valid window are moments. -/
theorem hasMoments_of_validate {clip : Clip} (h : clip.validate = .ok ()) : clip.HasMoments := by
  obtain ⟨hin, hout, hle, hlt, _⟩ := validate_eq_ok.mp h
  have hstart : clip.inTime.IsMoment := Value.isMoment_of_not_lt hin Value.isMoment_int_zero hlt
  refine ⟨hstart, Value.isMoment_of_not_lt hout hstart ?_⟩
  obtain ⟨m, _, hm, _⟩ := Value.isFinite_eq_true hin
  obtain ⟨n, _, hn, _⟩ := Value.isFinite_eq_true hout
  rw [hm, hn] at hle ⊢
  rw [Value.le_of_numbers rfl rfl, Except.ok.injEq, Number.le, Bool.or_eq_false_iff] at hle
  rw [Value.lt_of_numbers rfl rfl, hle.1]

end Clip

namespace Timeline

/-- The check of a track finds every clip valid and on the track, its overlays
named apart, and all names different from each other and from those seen
before; these are seen afterwards, too. -/
theorem checkTrack_eq_ok {track : Track} {seen after : List Value} {start : Value}
    {clips : List Clip} (h : checkTrack track seen start clips = .ok after) :
    (∀ clip ∈ clips, clip.track.equal track.toValue = true ∧ clip.validate = .ok () ∧
      Value.hasRepeats (clip.overlays.map Overlay.id) = .ok false ∧
      clip.id ∈ after ∧ ∀ id ∈ seen, clip.id.agrees id = false) ∧
    clips.Pairwise (fun c d => d.id.agrees c.id = false) ∧ ∀ id ∈ seen, id ∈ after := by
  induction clips generalizing seen start with
  | nil =>
    cases h
    simp
  | cons clip clips ih =>
    simp only [checkTrack, Outcome.bind_eq_ok, Outcome.rejectIf_eq_ok] at h
    obtain ⟨_, _, _, hnew, _, htrack, _, hvalid, _, _, _, hoverlays, _, rfl, finish, _, hrest⟩ := h
    obtain ⟨hall, hpairs, hkept⟩ := ih hrest
    have hon : clip.track.equal track.toValue = true := by simpa using htrack
    refine ⟨?_, List.pairwise_cons.mpr ⟨?_, hpairs⟩, ?_⟩
    · intro other hother
      rcases List.mem_cons.mp hother with rfl | hother
      · refine ⟨hon, hvalid, hoverlays, hkept _ List.mem_cons_self, ?_⟩
        intro id hid
        simpa using List.any_eq_false.mp hnew id hid
      · obtain ⟨hon', hvalid', hoverlays', hafter, hapart⟩ := hall other hother
        exact ⟨hon', hvalid', hoverlays', hafter,
          fun id hid => hapart id (List.mem_cons_of_mem _ hid)⟩
    · intro other hother
      exact (hall other hother).2.2.2.2 clip.id List.mem_cons_self
    · exact fun id hid => hkept id (List.mem_cons_of_mem _ hid)

variable {timeline : Timeline}

/-- The clips of a checked timeline are on their tracks and valid, and name
their overlays apart. -/
theorem forall_on_of_checked (h : timeline.checkInvariants = .ok ()) (track : Track) :
    ∀ clip ∈ timeline.on track, clip.track.equal track.toValue = true ∧
      clip.validate = .ok () ∧ Value.hasRepeats (clip.overlays.map Overlay.id) = .ok false := by
  simp only [checkInvariants, Outcome.bind_eq_ok] at h
  obtain ⟨seen, hmain, _, hoverlay, _⟩ := h
  intro clip hclip
  cases track with
  | main =>
    obtain ⟨hon, hvalid, hoverlays, _⟩ := (checkTrack_eq_ok hmain).1 clip hclip
    exact ⟨hon, hvalid, hoverlays⟩
  | overlay =>
    obtain ⟨hon, hvalid, hoverlays, _⟩ := (checkTrack_eq_ok hoverlay).1 clip hclip
    exact ⟨hon, hvalid, hoverlays⟩

/-- A checked timeline is orderly. -/
theorem orderly_of_checked (h : timeline.checkInvariants = .ok ()) : timeline.Orderly := by
  refine ⟨?_, fun track clip hclip => (forall_on_of_checked h track clip hclip).1⟩
  simp only [checkInvariants, Outcome.bind_eq_ok] at h
  obtain ⟨seen, hmain, _, hoverlay, _⟩ := h
  obtain ⟨hseen, hpairs, _⟩ := checkTrack_eq_ok hmain
  obtain ⟨hnew, hpairs', _⟩ := checkTrack_eq_ok hoverlay
  have hapart : ∀ {c d : Clip}, d.id.agrees c.id = false → c.id.equal d.id = false := by
    intro c d hcd
    rw [Value.equal_comm]
    exact Value.equal_eq_false hcd
  refine List.pairwise_append.mpr ⟨hpairs.imp hapart, hpairs'.imp hapart, ?_⟩
  intro c hc d hd
  exact hapart ((hnew d hd).2.2.2.2 c.id (hseen c hc).2.2.2.1)

/-- The clips of a checked timeline are valid. -/
theorem validate_of_checked (h : timeline.checkInvariants = .ok ()) :
    ∀ clip ∈ timeline.clips, clip.validate = .ok () := by
  intro clip hclip
  obtain ⟨track, hon⟩ := mem_clips.mp hclip
  exact (forall_on_of_checked h track clip hon).2.1

end Timeline

end Montage
