import Montage.Proofs.Value.Agreement
import Montage.Proofs.Value.Moment
import Montage.Timeline.Track

/-!
# Running sums and the layout of a track

A track is laid out when every clip starts at the running sum of the lengths
before it. Layout changes start times only, and doing it twice changes nothing
more. What it returns is laid out unless some clip starts at not-a-number, which
no start time can equal; while all trim points are moments, none does.
-/

namespace Montage

namespace Clip

/-- The length of a clip as a clock takes it. -/
def length (clip : Clip) : Outcome Binary64 := do orFault .tooLarge (← clip.duration).toReal?

/-- The clip without its place on the timeline. -/
def unplaced (clip : Clip) : Clip := { clip with startTime := .real 0 }

/-- When the clip starts and what window it shows. -/
def timing (clip : Clip) : Value × Value × Value := (clip.startTime, clip.inTime, clip.outTime)

/-- Clips have the same timing when they start together and show the same window. -/
theorem timing_eq_iff {clip other : Clip} :
    clip.timing = other.timing ↔ clip.startTime = other.startTime ∧
      clip.inTime = other.inTime ∧ clip.outTime = other.outTime := by
  simp only [timing, Prod.mk.injEq]

/-- Both ends of the clip's window are finite and not before its source. -/
def HasMoments (clip : Clip) : Prop := clip.inTime.IsMoment ∧ clip.outTime.IsMoment

/-- Placing a clip changes its start time only. -/
@[simp]
theorem startingAt_unplaced (clip : Clip) (now : Binary64) :
    (clip.startingAt now).unplaced = clip.unplaced := by
  unfold startingAt
  split <;> rfl

/-- Clips that are the same up to start times have the same name and track. -/
theorem named_eq_of_unplaced {clip other : Clip} (h : clip.unplaced = other.unplaced) :
    clip.id = other.id ∧ clip.track = other.track := by
  have hid := congrArg Clip.id h
  have htrack := congrArg Clip.track h
  exact ⟨hid, htrack⟩

/-- Clips that are the same up to start times show the same window. -/
theorem window_eq_of_unplaced {clip other : Clip} (h : clip.unplaced = other.unplaced) :
    clip.inTime = other.inTime ∧ clip.outTime = other.outTime := by
  have hin := congrArg Clip.inTime h
  have hout := congrArg Clip.outTime h
  exact ⟨hin, hout⟩

/-- The length of a clip does not depend on its place. -/
@[simp]
theorem length_startingAt (clip : Clip) (now : Binary64) :
    (clip.startingAt now).length = clip.length := by
  unfold startingAt
  split <;> rfl

/-- A clip that starts at a time already is left as it is. -/
theorem startingAt_of_equal {clip : Clip} {now : Binary64}
    (h : clip.startTime.equal (.real now) = true) : clip.startingAt now = clip := by
  simp [startingAt, h]

/-- Placing a clip a second time changes nothing. -/
@[simp]
theorem startingAt_startingAt (clip : Clip) (now : Binary64) :
    (clip.startingAt now).startingAt now = clip.startingAt now := by
  by_cases h : clip.startTime.equal (.real now) = true
  · rw [startingAt_of_equal h, startingAt_of_equal h]
  · simp [startingAt, h]

/-- A clip that is placed at a number starts there. -/
theorem startTime_startingAt {now : Binary64} (h : now.isNaN = false) (clip : Clip) :
    (clip.startingAt now).startTime.equal (.real now) = true := by
  unfold startingAt
  split
  · next he => exact he
  · cases now with
    | nan origin => simp [Binary64.isNaN] at h
    | infinity s => simp [Value.equal, Value.real, Value.number?, Number.equal, Number.place?,
        Binary64.place?]
    | finite s a grid => simp [Value.equal, Value.real, Value.number?, Number.equal,
        Number.place?, Binary64.place?]

/-- A clip that is at its place starts there unless it starts at
not-a-number. -/
theorem startTime_equal_of_startingAt {clip : Clip} {now : Binary64}
    (h : clip.startingAt now = clip) (number : clip.startTime.isNaN = false) :
    clip.startTime.equal (.real now) = true := by
  by_cases he : clip.startTime.equal (.real now) = true
  · exact he
  · have hstart : clip.startTime = .real now := by
      rw [← h]
      simp [startingAt, he]
    rw [hstart] at number
    rw [← h]
    exact startTime_startingAt number clip

/-- Clips with moments have a finite length, if it can be taken at all. -/
theorem HasMoments.length_isFinite {clip : Clip} (h : clip.HasMoments) {length : Binary64}
    (hl : clip.length = .ok length) : length.isFinite = true := by
  simp only [Clip.length, Outcome.bind_eq_ok, Outcome.orFault_eq_ok] at hl
  obtain ⟨n, hn, hx⟩ := hl
  exact Value.sub_isFinite h.2 h.1 hn hx

/-- Equal lists of unplaced clips have the same properties as far as these do
not look at start times. -/
theorem forall_of_unplaced {P : Clip → Prop} (hP : ∀ clip, P clip.unplaced ↔ P clip)
    {clips others : List Clip} (h : clips.map unplaced = others.map unplaced)
    (all : ∀ clip ∈ others, P clip) : ∀ clip ∈ clips, P clip := by
  intro clip hclip
  have hmem : clip.unplaced ∈ others.map unplaced := by
    rw [← h]
    exact List.mem_map_of_mem hclip
  obtain ⟨other, hother, he⟩ := List.mem_map.mp hmem
  rw [← hP, ← he, hP]
  exact all other hother

end Clip

/-- From a time on, every clip starts at the running sum of the lengths before
it. -/
def LaidOutFrom (now : Binary64) : List Clip → Prop
  | [] => True
  | clip :: clips =>
    clip.startTime.equal (.real now) = true ∧
      ∃ length, clip.length = .ok length ∧ LaidOutFrom (now.add length) clips

/-- Whether clips are laid out can be computed. -/
instance decidableLaidOutFrom (now : Binary64) :
    (clips : List Clip) → Decidable (LaidOutFrom now clips)
  | [] => isTrue trivial
  | clip :: clips =>
    match h : clip.length with
    | .error _ => isFalse (by simp [LaidOutFrom, h])
    | .ok length =>
      have := decidableLaidOutFrom (now.add length) clips
      decidable_of_iff
        (clip.startTime.equal (.real now) = true ∧ LaidOutFrom (now.add length) clips)
        (by simp [LaidOutFrom, h])

/-- Laying out a first clip takes its length, and then those behind it are laid out. -/
theorem layoutFrom_cons (now : Binary64) (clip : Clip) (clips : List Clip) :
    layoutFrom now (clip :: clips) = (do
      let length ← clip.length
      let rest ← layoutFrom (now.add length) clips
      return clip.startingAt now :: rest) := by
  rw [layoutFrom, Clip.length, bind_assoc]

/-- Laying out a first clip and the ones behind it. -/
theorem layoutFrom_cons_eq_ok {now : Binary64} {clip : Clip} {clips laid : List Clip} :
    layoutFrom now (clip :: clips) = .ok laid ↔
      ∃ length rest, clip.length = .ok length ∧ layoutFrom (now.add length) clips = .ok rest ∧
        laid = clip.startingAt now :: rest := by
  simp only [layoutFrom, Clip.length, Outcome.bind_eq_ok, Outcome.pure_eq_ok]
  constructor
  · rintro ⟨n, hn, length, hl, rest, hr, rfl⟩
    exact ⟨length, rest, ⟨n, hn, hl⟩, hr, rfl⟩
  · rintro ⟨length, rest, ⟨n, hn, hl⟩, hr, rfl⟩
    exact ⟨n, hn, length, hl, rest, hr, rfl⟩

/-- Layout changes start times only. -/
theorem layoutFrom_unplaced {now : Binary64} {clips laid : List Clip}
    (h : layoutFrom now clips = .ok laid) :
    laid.map Clip.unplaced = clips.map Clip.unplaced := by
  induction clips generalizing now laid with
  | nil =>
    cases h
    rfl
  | cons clip clips ih =>
    obtain ⟨length, rest, _, hr, rfl⟩ := layoutFrom_cons_eq_ok.mp h
    rw [List.map_cons, List.map_cons, ih hr, Clip.startingAt_unplaced]

/-- Laying out a second time changes nothing. -/
theorem layoutFrom_idem {now : Binary64} {clips laid : List Clip}
    (h : layoutFrom now clips = .ok laid) : layoutFrom now laid = .ok laid := by
  induction clips generalizing now laid with
  | nil =>
    cases h
    rfl
  | cons clip clips ih =>
    obtain ⟨length, rest, hl, hr, rfl⟩ := layoutFrom_cons_eq_ok.mp h
    rw [layoutFrom_cons_eq_ok]
    exact ⟨length, rest, by rw [Clip.length_startingAt, hl], ih hr,
      by rw [Clip.startingAt_startingAt]⟩

/-- Layout leaves clips that are laid out as they are. -/
theorem LaidOutFrom.layoutFrom_eq {now : Binary64} {clips : List Clip}
    (h : LaidOutFrom now clips) : layoutFrom now clips = .ok clips := by
  induction clips generalizing now with
  | nil => rfl
  | cons clip clips ih =>
    obtain ⟨hstart, length, hl, hrest⟩ := h
    rw [layoutFrom_cons_eq_ok]
    exact ⟨length, clips, hl, ih hrest, by rw [Clip.startingAt_of_equal hstart]⟩

/-- Whether clips are laid out depends on nothing but their start times and their
windows. -/
theorem LaidOutFrom.of_timing {now : Binary64} {clips others : List Clip}
    (h : LaidOutFrom now clips) (same : others.map Clip.timing = clips.map Clip.timing) :
    LaidOutFrom now others := by
  induction clips generalizing now others with
  | nil =>
    rw [List.map_eq_nil_iff.mp same]
    trivial
  | cons clip clips ih =>
    obtain ⟨other, rest, rfl, htiming, hrest⟩ := List.map_eq_cons_iff.mp same
    obtain ⟨hstart, length, hl, hlaid⟩ := h
    obtain ⟨hstart', hin, hout⟩ := Clip.timing_eq_iff.mp htiming
    refine ⟨by rwa [hstart'], length, ?_, ih hlaid hrest⟩
    rw [← hl, Clip.length, Clip.length, Clip.duration, Clip.duration, hin, hout]

/-- What starts at a running sum does not start at not-a-number. -/
theorem LaidOutFrom.not_isNaN {now : Binary64} {clips : List Clip} (h : LaidOutFrom now clips) :
    ∀ clip ∈ clips, clip.startTime.isNaN = false := by
  induction clips generalizing now with
  | nil => simp
  | cons clip clips ih =>
    obtain ⟨hstart, length, _, hrest⟩ := h
    intro other hother
    rcases List.mem_cons.mp hother with rfl | hother
    · exact Value.not_isNaN_of_equal hstart
    · exact ih hrest other hother

/-- Clips that layout leaves as they are start at the running sums unless one of
them starts at not-a-number. -/
theorem laidOutFrom_of_not_isNaN {now : Binary64} {clips : List Clip}
    (settled : layoutFrom now clips = .ok clips)
    (numbers : ∀ clip ∈ clips, clip.startTime.isNaN = false) : LaidOutFrom now clips := by
  induction clips generalizing now with
  | nil => trivial
  | cons clip clips ih =>
    obtain ⟨length, rest, hl, hr, he⟩ := layoutFrom_cons_eq_ok.mp settled
    obtain ⟨hclip, rfl⟩ := List.cons.inj he
    have hstart : clip.startTime.equal (.real now) = true :=
      Clip.startTime_equal_of_startingAt hclip.symm (numbers clip List.mem_cons_self)
    exact ⟨hstart, length, hl,
      ih hr fun other hother => numbers other (List.mem_cons_of_mem _ hother)⟩

/-- Finite lengths keep a clock a number, so clips with moments that layout
leaves as they are start at the running sums. -/
theorem laidOutFrom_of_moments {now : Binary64} {clips : List Clip} (hnow : now.isNaN = false)
    (settled : layoutFrom now clips = .ok clips) (moments : ∀ clip ∈ clips, clip.HasMoments) :
    LaidOutFrom now clips := by
  induction clips generalizing now with
  | nil => trivial
  | cons clip clips ih =>
    obtain ⟨length, rest, hl, hr, he⟩ := layoutFrom_cons_eq_ok.mp settled
    obtain ⟨hclip, rfl⟩ := List.cons.inj he
    have hfinite := (moments clip List.mem_cons_self).length_isFinite hl
    refine ⟨?_, length, hl, ih (Binary64.add_isNaN hnow hfinite) hr
      fun other hother => moments other (List.mem_cons_of_mem _ hother)⟩
    rw [hclip]
    exact Clip.startTime_startingAt hnow clip

/-- The clips behind others start at the running sums from some time on. -/
theorem LaidOutFrom.of_append {now : Binary64} {clips others : List Clip}
    (h : LaidOutFrom now (clips ++ others)) : ∃ later, LaidOutFrom later others := by
  induction clips generalizing now with
  | nil => exact ⟨now, h⟩
  | cons clip clips ih =>
    obtain ⟨_, length, _, hrest⟩ := h
    exact ih hrest

end Montage
