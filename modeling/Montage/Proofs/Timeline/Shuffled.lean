import Montage.Proofs.Graph.Routes
import Montage.Proofs.Sorting.Contents
import Montage.Proofs.Sorting.Stable

/-!
# Timelines of shuffled clips

The clips of a project are grouped, sorted by their stored start times and laid out
anew. If these are different numbers on each track, nothing is left of the order in
which the clips were given, whether they make up a timeline or not.
-/

namespace Montage

open Outcome

/-- A finite number stands on the number line. -/
theorem Value.IsFiniteNumber.exists_place {value : Value} (h : value.IsFiniteNumber) :
    ∃ n p, value = .number n ∧ n.place? = some p := by
  rcases h with ⟨n, rfl⟩ | ⟨x, rfl, hx⟩
  · exact ⟨.int n, _, rfl, rfl⟩
  · cases x with
    | finite negative units grid => exact ⟨.real _, _, rfl, rfl⟩
    | nan origin => cases hx
    | infinity negative => cases hx

namespace Timeline

/-! ## Sorting by start times -/

/-- The clips start at finite numbers, no two of which are equal. -/
structure StartApart (clips : List Clip) : Prop where
  /-- Every clip has a finite number for its start time. -/
  finite : ∀ clip ∈ clips, clip.startTime.IsFiniteNumber
  /-- No two clips start together. -/
  apart : clips.Pairwise fun first second => first.startTime.equal second.startTime = false

variable {clips others sorted : List Clip}

/-- Finite start times are compared by the ranks of their clips. -/
theorem rank_of_finite {first second : Clip} (hfirst : first.startTime.IsFiniteNumber)
    (hsecond : second.startTime.IsFiniteNumber) :
    (first.startTime.equal second.startTime = true ↔
        (Keyed.ofClip first).rank = (Keyed.ofClip second).rank) ∧
      first.startTime.lt second.startTime =
        .ok ((Keyed.ofClip first).rank.lt (Keyed.ofClip second).rank) := by
  obtain ⟨m, p, hm, hp⟩ := hfirst.exists_place
  obtain ⟨n, q, hn, hq⟩ := hsecond.exists_place
  have hrank {clip : Clip} {k : Number} {r : Place} (hstart : clip.startTime = .number k)
      (hplace : k.place? = some r) : (Keyed.ofClip clip).rank = r :=
    Keyed.rank_of_place (by rw [Keyed.place?, Keyed.ofClip, hstart]; exact hplace)
  rw [hrank hm hp, hrank hn hq, hm, hn]
  constructor
  · change m.equal n = true ↔ p = q
    rw [Number.equal, hp, hq, decide_eq_true_eq]
  · change Except.ok (m.lt n) = _
    rw [Number.lt, hp, hq]

namespace StartApart

/-- Start times that are finite numbers stand on the number line. -/
theorem placed (h : StartApart clips) : Keyed.Placed (clips.map Keyed.ofClip) := by
  intro entry hentry
  obtain ⟨clip, hclip, rfl⟩ := List.mem_map.mp hentry
  obtain ⟨n, p, hn, hplace⟩ := (h.finite clip hclip).exists_place
  rw [Keyed.place?, Keyed.ofClip, hn]
  exact Option.isSome_of_eq_some hplace

/-- Clips that start apart have different ranks. -/
theorem ranks (h : StartApart clips) :
    (clips.map Keyed.ofClip).Pairwise fun a b => a.rank ≠ b.rank := by
  refine List.pairwise_map.mpr (h.apart.imp_of_mem fun {first second} ha hb hne heq => ?_)
  rw [(rank_of_finite (h.finite first ha) (h.finite second hb)).1.mpr heq] at hne
  cases hne

/-- Sorting clips that start apart does not depend on their order. -/
theorem sortOn_congr (h : StartApart clips) (perm : others.Perm clips) :
    sortOn Clip.startTime others = sortOn Clip.startTime clips := by
  have hsort : Keyed.sort (others.map Keyed.ofClip) = Keyed.sort (clips.map Keyed.ofClip) :=
    Keyed.sort_congr h.placed (perm.map Keyed.ofClip) h.ranks
  change (Keyed.sort (others.map Keyed.ofClip) >>= fun entries => _) = _
  rw [hsort]
  rfl

/-- Sorted clips that start apart start one after the other. -/
theorem rises_of_sortOn (h : StartApart clips) (sort : sortOn Clip.startTime clips = .ok sorted) :
    sorted.Pairwise fun first second => first.startTime.lt second.startTime = .ok true := by
  obtain ⟨entries, hentries, hsorted⟩ := bind_eq_ok.mp sort
  cases hsorted
  have hclips : ∀ entry ∈ entries, ∃ clip ∈ clips, Keyed.ofClip clip = entry := fun entry hentry =>
    List.mem_map.mp ((Keyed.perm_of_sort hentries).subset hentry)
  have hrises := Keyed.rises_strictly_of_sort h.placed h.ranks hentries
  refine List.pairwise_map.mpr (hrises.imp_of_mem fun hfirst hsecond hlt => ?_)
  obtain ⟨first, hgiven, rfl⟩ := hclips _ hfirst
  obtain ⟨second, hgiven', rfl⟩ := hclips _ hsecond
  exact (rank_of_finite (h.finite first hgiven) (h.finite second hgiven')).2.trans
    (congrArg Except.ok hlt)

end StartApart

/-! ## Grouping -/

/-- A value that is the number of no track is turned down. -/
theorem track_cases (value : Value) :
    (∃ track : Track, value.equal track.toValue = true) ∨
      Track.ofValue value = .error (.rejected (.unknownTrack value)) := by
  cases htrack : Track.ofValue value with
  | ok track => exact .inl ⟨track, Track.ofValue_eq_ok.mp htrack⟩
  | error fault =>
    unfold Track.ofValue at htrack
    split at htrack
    · cases htrack
    · split at htrack
      · cases htrack
      · exact .inr htrack.symm

/-- Clips that have tracks are grouped by them. Otherwise one without a track is turned
down. -/
theorem group_cases (clips : List Clip) :
    group .ok clips = .ok ⟨Footage.clipsOn .main clips, Footage.clipsOn .overlay clips⟩ ∨
      ∃ clip ∈ clips, (¬ ∃ track : Track, clip.track.equal track.toValue = true) ∧
        group .ok clips = .error (.rejected (.unknownTrack clip.track)) := by
  suffices hcases : (∃ groups, group .ok clips = .ok groups) ∨ ∃ clip ∈ clips,
      Track.ofValue clip.track = .error (.rejected (.unknownTrack clip.track)) ∧
        group .ok clips = .error (.rejected (.unknownTrack clip.track)) by
    rcases hcases with ⟨groups, hgroups⟩ | ⟨clip, hclip, htrack, hgroup⟩
    · obtain ⟨rfl, _⟩ := group_eq_ok hgroups
      exact .inl hgroups
    · refine .inr ⟨clip, hclip, ?_, hgroup⟩
      rintro ⟨track, hon⟩
      rw [Track.ofValue_eq_ok.mpr hon] at htrack
      cases htrack
  induction clips with
  | nil => exact .inl ⟨_, rfl⟩
  | cons clip clips ih =>
    rcases track_cases clip.track with ⟨track, hon⟩ | hnone
    · rcases ih with ⟨groups, hgroups⟩ | ⟨other, hother, hnone, hgroup⟩
      · exact .inl ⟨_, group_cons rfl hon hgroups⟩
      · refine .inr ⟨other, List.mem_cons_of_mem clip hother, hnone, ?_⟩
        rw [group, ok_bind, Track.ofValue_eq_ok.mpr hon, ok_bind, hgroup]
        rfl
    · refine .inr ⟨clip, List.mem_cons_self, hnone, ?_⟩
      rw [group, ok_bind, hnone]
      rfl

/-! ## Shuffled clips -/

/-- A track is made of clips when these are in the order of the start times that were
stored for them, but every clip starts where the one before it ends. -/
structure MadeOf (laid given : List Clip) : Prop where
  /-- But for their start times the clips are those that were given, in the order of
  the times that were stored. -/
  sorted : ∃ sorted : List Clip, sorted.Perm given ∧
    (sorted.Pairwise fun first second => first.startTime.lt second.startTime = .ok true) ∧
    laid.map Clip.unplaced = sorted.map Clip.unplaced
  /-- Every clip starts at the sum of the durations before it. -/
  laidOut : LaidOutFrom 0 laid

/-- The tracks of a timeline are made of the clips that are grouped for them. -/
theorem madeOf_of_ofClips {timeline : Timeline}
    (apart : ∀ track, StartApart (Footage.clipsOn track clips))
    (h : ofClips clips = .ok timeline) (track : Track) :
    MadeOf (timeline.on track) (Footage.clipsOn track clips) := by
  obtain ⟨groups, hgroups, h⟩ := bind_eq_ok.mp h
  obtain ⟨rfl, _⟩ := group_eq_ok hgroups
  obtain ⟨hsettled, hchecked⟩ := settled_checked_of_ofGrouped h
  refine ⟨?_, hsettled.laidOut (hasMoments_of_checked hchecked) track⟩
  simp only [ofGrouped, bind_eq_ok, pure_eq_ok] at h
  obtain ⟨main, hmain, laid, hlaid, overlay, hoverlay, laid', hlaid', _, _, rfl⟩ := h
  cases track with
  | main =>
    exact ⟨main, perm_of_sortOn hmain, (apart .main).rises_of_sortOn hmain,
      layoutFrom_unplaced hlaid⟩
  | overlay =>
    exact ⟨overlay, perm_of_sortOn hoverlay, (apart .overlay).rises_of_sortOn hoverlay,
      layoutFrom_unplaced hlaid'⟩

/-- Clips that start apart on each track make up the same timeline in whatever order
they are given: its tracks are the clips in the order of the stored start times, laid
out anew. Or they make up none in any order, and the fault is the same unless clips
without a track are turned down, of which the first one is told. -/
theorem ofClips_perm (finite : ∀ clip ∈ clips, clip.startTime.IsFiniteNumber)
    (apart : ∀ track, (Footage.clipsOn track clips).Pairwise fun first second =>
      first.startTime.equal second.startTime = false)
    (perm : others.Perm clips) :
    (∃ timeline, ofClips clips = .ok timeline ∧ ofClips others = .ok timeline ∧
      ∀ track, MadeOf (timeline.on track) (Footage.clipsOn track clips)) ∨
    (∃ fault, ofClips clips = .error fault ∧ ofClips others = .error fault) ∨
    ∃ first ∈ clips, ∃ second ∈ clips,
      ofClips clips = .error (.rejected (.unknownTrack first.track)) ∧
      ofClips others = .error (.rejected (.unknownTrack second.track)) := by
  have hapart (track : Track) : StartApart (Footage.clipsOn track clips) :=
    ⟨fun clip hclip => finite clip (Footage.mem_clipsOn.mp hclip).1, apart track⟩
  have hsort (track : Track) : sortOn Clip.startTime (Footage.clipsOn track others) =
      sortOn Clip.startTime (Footage.clipsOn track clips) :=
    (hapart track).sortOn_congr (perm.filter _)
  rcases group_cases clips with hgroup | ⟨first, hfirst, hunknown, hgroup⟩
  · rcases group_cases others with hgroup' | ⟨second, hsecond, hunknown, _⟩
    · have hsame : ofClips others = ofClips clips := by
        rw [ofClips, ofClips, hgroup, hgroup', ok_bind, ok_bind, ofGrouped, ofGrouped,
          hsort .main, hsort .overlay]
      cases hclips : ofClips clips with
      | ok timeline =>
        exact .inl ⟨timeline, rfl, hsame.trans hclips, madeOf_of_ofClips hapart hclips⟩
      | error fault => exact .inr (.inl ⟨fault, rfl, hsame.trans hclips⟩)
    · exact absurd ((group_eq_ok hgroup).2 second (perm.subset hsecond)) hunknown
  · rcases group_cases others with hgroup' | ⟨second, hsecond, _, hgroup'⟩
    · exact absurd ((group_eq_ok hgroup').2 first (perm.symm.subset hfirst)) hunknown
    · refine .inr (.inr ⟨first, hfirst, second, perm.subset hsecond, ?_, ?_⟩)
      · rw [ofClips, hgroup]
        rfl
      · rw [ofClips, hgroup']
        rfl

/-- Two clips in the wrong order, and in the right one, make up the same timeline. -/
theorem ofClips_perm_scattered : ∃ timeline, ofClips Compile.scattered = .ok timeline ∧
    ofClips Compile.scattered.reverse = .ok timeline ∧
    ∀ track, MadeOf (timeline.on track) (Footage.clipsOn track Compile.scattered) := by
  have hfinite : ∀ clip ∈ Compile.scattered, clip.startTime.IsFiniteNumber := by
    intro clip hclip
    simp only [Compile.scattered, List.mem_cons, List.not_mem_nil, or_false] at hclip
    rcases hclip with rfl | rfl
    · exact .inl ⟨9, rfl⟩
    · exact .inr ⟨0, rfl, by decide +kernel⟩
  have hapart (track : Track) : (Footage.clipsOn track Compile.scattered).Pairwise
      fun first second => first.startTime.equal second.startTime = false := by
    cases track <;> decide +kernel
  rcases ofClips_perm hfinite hapart (List.reverse_perm Compile.scattered) with
    hsame | ⟨_, hfault, _⟩ | ⟨_, _, _, _, hfault, _⟩
  · exact hsame
  · cases Compile.ofClips_scattered.symm.trans hfault
  · cases Compile.ofClips_scattered.symm.trans hfault

end Timeline

end Montage
