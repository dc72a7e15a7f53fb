import Montage.Proofs.Timeline.Agreement
import Montage.Proofs.Timeline.Layout
import Montage.Proofs.Timeline.Spot

/-!
# Timelines without start times

Start times follow from the rest of a timeline, so edits are compared by what is
left without them. Where two timelines have the same clips apart from start
times, a spot of one is a spot of the other, and once both are laid out they
agree in everything.
-/

namespace Montage

/-- Clips that are the same up to start times have the same length. -/
theorem Clip.length_eq_of_unplaced {clip other : Clip} (h : clip.unplaced = other.unplaced) :
    clip.length = other.length := by
  obtain ⟨hin, hout⟩ := Clip.window_eq_of_unplaced h
  rw [Clip.length, Clip.length, Clip.duration, Clip.duration, hin, hout]

/-- Clips that are the same up to start times differ in nothing else. -/
theorem Clip.eq_of_unplaced {clip other : Clip} (h : clip.unplaced = other.unplaced) :
    clip = { other with startTime := clip.startTime } := by
  cases clip
  cases other
  simp only [unplaced, Clip.mk.injEq, true_and] at h ⊢
  exact h

/-- Clips that are the same up to start times agree when these do. -/
theorem Clip.agrees_of_unplaced {clip other : Clip} (h : clip.unplaced = other.unplaced)
    (start : clip.startTime.agrees other.startTime = true) : clip.agrees other = true := by
  rw [Clip.eq_of_unplaced h, agrees, Overlay.isAgreement.list.refl other.overlays]
  simp only [Value.agrees_refl, Source.isAgreement.refl, Position.isAgreement.refl,
    Size.isAgreement.refl, start, Bool.and_self]

/-- Laying out a list returns exactly when every clip has a length. -/
theorem exists_layoutFrom_iff {now : Binary64} {clips : List Clip} :
    (∃ laid, layoutFrom now clips = .ok laid) ↔
      ∀ clip ∈ clips, ∃ length, clip.length = .ok length := by
  induction clips generalizing now with
  | nil => exact ⟨fun _ => by simp, fun _ => ⟨[], rfl⟩⟩
  | cons clip clips ih =>
    simp only [layoutFrom_cons_eq_ok, List.forall_mem_cons]
    constructor
    · rintro ⟨_, length, rest, hl, hr, rfl⟩
      exact ⟨⟨length, hl⟩, ih.mp ⟨rest, hr⟩⟩
    · rintro ⟨⟨length, hl⟩, hrest⟩
      obtain ⟨rest, hr⟩ := ih.mpr hrest
      exact ⟨_, length, rest, hl, hr, rfl⟩

/-- Clips that are the same up to start times agree once they are laid out. -/
theorem LaidOutFrom.agrees {now : Binary64} {clips others : List Clip}
    (h : LaidOutFrom now clips) (hothers : LaidOutFrom now others)
    (same : clips.map Clip.unplaced = others.map Clip.unplaced) :
    List.Forall₂ (fun c d => c.agrees d = true) clips others := by
  induction clips generalizing now others with
  | nil =>
    rw [List.map_eq_nil_iff.mp same.symm]
    exact .nil
  | cons clip clips ih =>
    obtain ⟨other, rest, rfl, hother, hrest⟩ := List.map_eq_cons_iff.mp same.symm
    obtain ⟨hstart, length, hl, hlaid⟩ := h
    obtain ⟨hstart', length', hl', hlaid'⟩ := hothers
    cases hl.symm.trans ((Clip.length_eq_of_unplaced hother.symm).trans hl')
    have hequal := Value.equal_trans hstart (by rwa [Value.equal_comm])
    exact .cons (Clip.agrees_of_unplaced hother.symm (Value.agrees_of_equal hequal))
      (ih hlaid hlaid' hrest.symm)

namespace Timeline

/-- The timeline with another clip in the place of every clip. -/
def map (f : Clip → Clip) (timeline : Timeline) : Timeline :=
  ⟨timeline.main.map f, timeline.overlay.map f⟩

/-- The tracks of a timeline with other clips. -/
@[simp]
theorem on_map (f : Clip → Clip) (timeline : Timeline) (track : Track) :
    (timeline.map f).on track = (timeline.on track).map f := by
  cases track <;> rfl

/-- The clips of a timeline with other clips. -/
theorem clips_map (f : Clip → Clip) (timeline : Timeline) :
    (timeline.map f).clips = timeline.clips.map f := by
  rw [clips, clips, List.map_append]
  rfl

/-- Clips may be replaced one time after the other. -/
theorem map_map (f g : Clip → Clip) (timeline : Timeline) :
    (timeline.map f).map g = timeline.map fun clip => g (f clip) :=
  congrArg₂ Timeline.mk List.map_map List.map_map

/-- The timeline with every clip taken out of its place in time. -/
def unplaced (timeline : Timeline) : Timeline := timeline.map Clip.unplaced

/-- The tracks of a timeline without start times. -/
@[simp]
theorem on_unplaced (timeline : Timeline) (track : Track) :
    timeline.unplaced.on track = (timeline.on track).map Clip.unplaced := timeline.on_map _ track

/-- The clips of a timeline without start times. -/
theorem clips_unplaced (timeline : Timeline) :
    timeline.unplaced.clips = timeline.clips.map Clip.unplaced := timeline.clips_map _

/-- Setting a track of a timeline without start times. -/
theorem unplaced_setTrack (timeline : Timeline) (track : Track) (clips : List Clip) :
    (timeline.setTrack track clips).unplaced =
      timeline.unplaced.setTrack track (clips.map Clip.unplaced) := by
  cases track <;> rfl

/-- Setting a track to its own clips changes nothing. -/
@[simp]
theorem setTrack_on (timeline : Timeline) (track : Track) :
    timeline.setTrack track (timeline.on track) = timeline := by
  cases track <;> rfl

/-- Putting a clip on a timeline without start times. -/
theorem unplaced_putAt (timeline : Timeline) (track : Track) (place : Nat) (clip : Clip) :
    (timeline.putAt track place clip).unplaced =
      timeline.unplaced.putAt track place clip.unplaced := by
  rw [putAt, putAt, unplaced_setTrack, on_unplaced, List.map_insertIdx]

/-- A timeline is nothing but its tracks. -/
theorem eq_of_on {s t : Timeline} (h : ∀ track, s.on track = t.on track) : s = t :=
  congrArg₂ Timeline.mk (h .main) (h .overlay)

/-- Timelines are the same up to start times when their tracks are. -/
theorem unplaced_eq_iff {s t : Timeline} :
    s.unplaced = t.unplaced ↔
      ∀ track, (s.on track).map Clip.unplaced = (t.on track).map Clip.unplaced := by
  constructor
  · intro h track
    rw [← on_unplaced, h, on_unplaced]
  · intro h
    refine eq_of_on fun track => ?_
    rw [on_unplaced, on_unplaced, h]

/-- A name is not on a timeline when no clip has it. -/
theorem find?_eq_none_iff {timeline : Timeline} {id : Value} :
    timeline.find? id = none ↔ ∀ clip ∈ timeline.clips, clip.id.equal id = false := by
  simp only [find?, List.find?_eq_none, Bool.not_eq_true]

variable {s t : Timeline}

/-- What all clips have, as far as it does not depend on start times, the clips
of a timeline with the same clips have, too. -/
theorem forall_on_of_unplaced {P : Track → Clip → Prop}
    (hP : ∀ track clip, P track clip.unplaced ↔ P track clip) (h : s.unplaced = t.unplaced)
    (all : ∀ track, ∀ clip ∈ t.on track, P track clip) :
    ∀ track, ∀ clip ∈ s.on track, P track clip :=
  fun track => Clip.forall_of_unplaced (hP track) (unplaced_eq_iff.mp h track) (all track)

/-- Whether clips are named apart does not depend on start times. -/
theorem apart_of_unplaced (h : s.unplaced = t.unplaced) (apart : NamedApart t.clips) :
    NamedApart s.clips := by
  have hmap : NamedApart (t.clips.map Clip.unplaced) := List.pairwise_map.mpr apart
  rw [← clips_unplaced, ← h, clips_unplaced] at hmap
  exact List.pairwise_map.mp hmap

/-- Whether a timeline is orderly does not depend on start times. -/
theorem Orderly.of_unplaced (orderly : t.Orderly) (h : s.unplaced = t.unplaced) : s.Orderly where
  apart := apart_of_unplaced h orderly.apart
  tracks := forall_on_of_unplaced (P := fun track clip => clip.track.equal track.toValue = true)
    (fun _ _ => Iff.rfl) h orderly.tracks

/-- Timelines with the same clips up to start times agree once both are laid
out. -/
theorem agrees_of_unplaced (h : s.unplaced = t.unplaced)
    (laidOut : ∀ track, LaidOutFrom 0 (s.on track))
    (laidOut' : ∀ track, LaidOutFrom 0 (t.on track)) : s.agrees t = true := by
  have hlists := unplaced_eq_iff.mp h
  exact agrees_of_forall₂ fun track => (laidOut track).agrees (laidOut' track) (hlists track)

end Timeline

namespace Spot

/-- The spot with every clip taken out of its place in time. -/
def unplaced (spot : Spot) : Spot :=
  ⟨spot.track, spot.before.map Clip.unplaced, spot.clip.unplaced, spot.after.map Clip.unplaced⟩

variable {spot : Spot} {timeline : Timeline} {id : Value}

/-- Filling a spot of a timeline without start times. -/
theorem unplaced_fill (spot : Spot) (timeline : Timeline) (clips : List Clip) :
    (spot.fill timeline clips).unplaced =
      spot.unplaced.fill timeline.unplaced (clips.map Clip.unplaced) := by
  rw [fill, fill, Timeline.unplaced_setTrack, List.map_append, List.map_append]
  rfl

/-- Filling a spot with its own clip changes nothing. -/
theorem Of.fill_clip (h : spot.Of timeline id) : spot.fill timeline [spot.clip] = timeline := by
  have hon : spot.before ++ [spot.clip] ++ spot.after = timeline.on spot.track := by
    rw [h.split, List.append_assoc, List.singleton_append]
  rw [fill, hon, Timeline.setTrack_on]

/-- The clip that fills a spot stands there. -/
theorem of_fill (spot : Spot) (timeline : Timeline) (clip : Clip)
    (named : clip.id.equal id = true) :
    Of ⟨spot.track, spot.before, clip, spot.after⟩ (spot.fill timeline [clip]) id := by
  refine ⟨?_, named⟩
  rw [fill, Timeline.on_setTrack_self, List.append_assoc, List.singleton_append]

/-- Only the last filling of a spot counts. -/
theorem fill_fill (spot : Spot) (timeline : Timeline) (clip : Clip) (clips : List Clip) :
    fill ⟨spot.track, spot.before, clip, spot.after⟩ (spot.fill timeline [clip]) clips =
      spot.fill timeline clips := by
  rw [fill, fill, Timeline.setTrack_setTrack, fill]

/-- A spot of a timeline is one of every timeline with the same clips up to start
times. Only start times differ, also when both spots are filled with the same clips. -/
theorem Of.exists_same (h : spot.Of timeline id) {other : Timeline}
    (same : other.unplaced = timeline.unplaced) :
    ∃ (before : List Clip) (start : Value) (after : List Clip),
      Spot.Of ⟨spot.track, before, { spot.clip with startTime := start }, after⟩ other id ∧
      (before ++ after).length = spot.others.length ∧
      ∀ (clip : Clip) (clips others : List Clip),
        clips.map Clip.unplaced = others.map Clip.unplaced →
        (fill ⟨spot.track, before, clip, after⟩ other clips).unplaced =
          (spot.fill timeline others).unplaced := by
  have hon := Timeline.unplaced_eq_iff.mp same spot.track
  rw [h.split, List.map_append, List.map_cons, List.map_eq_append_iff] at hon
  obtain ⟨before, _, hsplit, hbefore, hon⟩ := hon
  obtain ⟨clip, after, rfl, hclip, hafter⟩ := List.map_eq_cons_iff.mp hon
  rw [Clip.eq_of_unplaced hclip] at hsplit
  refine ⟨before, clip.startTime, after, ⟨hsplit, h.named⟩, ?_, fun _ clips others hclips => ?_⟩
  · rw [← List.length_map (f := Clip.unplaced), List.map_append, hbefore, hafter,
      ← List.map_append, List.length_map, others]
  · rw [unplaced_fill, unplaced_fill, same, hclips, fill, fill, unplaced, unplaced, hbefore,
      hafter]

/-- Filling a spot with a clip of the same timing keeps a timeline laid out. -/
theorem Of.laidOut_fill (h : spot.Of timeline id)
    (laidOut : ∀ track, LaidOutFrom 0 (timeline.on track)) {clip : Clip}
    (timing : clip.timing = spot.clip.timing) (track : Track) :
    LaidOutFrom 0 ((spot.fill timeline [clip]).on track) := by
  rcases spot.track.eq_or_eq_other track with rfl | rfl
  · refine (laidOut spot.track).of_timing ?_
    rw [fill, Timeline.on_setTrack_self, h.split]
    simp only [List.map_append, List.map_cons, timing, List.append_assoc,
      List.singleton_append]
  · rw [fill_on_other]
    exact laidOut _

/-- Filling a spot with clips that agree gives timelines that agree. -/
theorem agrees_fill (spot : Spot) (timeline : Timeline) {clip other : Clip}
    (h : clip.agrees other = true) :
    (spot.fill timeline [clip]).agrees (spot.fill timeline [other]) = true := by
  have hsame (clips : List Clip) : List.Forall₂ (fun c d => c.agrees d = true) clips clips :=
    List.forall₂_same.mpr fun clip _ => Clip.isAgreement.refl clip
  refine Timeline.agrees_of_forall₂ fun track => ?_
  rcases spot.track.eq_or_eq_other track with rfl | rfl
  · rw [fill, fill, Timeline.on_setTrack_self, Timeline.on_setTrack_self]
    exact List.rel_append (List.rel_append (hsame _) (.cons h .nil)) (hsame _)
  · rw [fill_on_other, fill_on_other]
    exact hsame _

end Spot

end Montage
