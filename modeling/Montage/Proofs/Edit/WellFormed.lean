import Montage.Proofs.Edit.Applied
import Montage.Proofs.Timeline.Integrity

/-!
# Well-formed timelines

A timeline is tidy when its clips are named apart and every clip stands where it
says and holds what may stand there. It is well-formed when every clip also
starts at the running sum of the lengths before it. What an edit makes is shown
here to be tidy, settled and made of moments; that it is well-formed then
follows from the layout.
-/

namespace Montage

/-- A clip is on a track that it may be on. -/
structure Clip.BelongsTo (clip : Clip) (track : Track) : Prop where
  /-- The clip names the track. -/
  on : clip.track.equal track.toValue = true
  /-- No two overlays of the clip have equal ids. -/
  overlaysApart : clip.overlays.Pairwise fun o p => o.id.equal p.id = false
  /-- Clips of the overlay track have no overlays. -/
  bare : track = .overlay → clip.overlays = []

/-- Whether a clip belongs to a track can be computed. -/
instance (clip : Clip) (track : Track) : Decidable (clip.BelongsTo track) :=
  decidable_of_iff (clip.track.equal track.toValue = true ∧
    clip.overlays.Pairwise (fun o p => o.id.equal p.id = false) ∧
    (track = .overlay → clip.overlays.length = 0)) (by
      simp only [List.length_eq_zero_iff]
      exact ⟨fun ⟨on, apart, bare⟩ => ⟨on, apart, bare⟩,
        fun ⟨on, apart, bare⟩ => ⟨on, apart, bare⟩⟩)

/-- Where a clip belongs does not depend on when it starts. -/
theorem Clip.unplaced_belongsTo (track : Track) (clip : Clip) :
    clip.unplaced.BelongsTo track ↔ clip.BelongsTo track := by
  constructor
  · rintro ⟨hon, hoverlays, hbare⟩
    exact ⟨hon, hoverlays, hbare⟩
  · rintro ⟨hon, hoverlays, hbare⟩
    exact ⟨hon, hoverlays, hbare⟩

namespace Timeline

/-- Clips are named apart, and every clip belongs to its track. -/
structure Tidy (timeline : Timeline) : Prop where
  /-- No two clips have equal ids. -/
  apart : NamedApart timeline.clips
  /-- Every clip may be on its track. -/
  belongs : ∀ track, ∀ clip ∈ timeline.on track, clip.BelongsTo track

/-- Layout leaves the tracks as they are. -/
def Settled (timeline : Timeline) : Prop :=
  ∀ track, layout (timeline.on track) = .ok (timeline.on track)

/-- A tidy timeline on which every clip starts at the running sum of the lengths
before it. -/
structure WellFormed (timeline : Timeline) : Prop extends timeline.Tidy where
  /-- Every start time is the running sum. -/
  laidOut : ∀ track, LaidOutFrom 0 (timeline.on track)

/-- Whether a timeline is well-formed can be computed. -/
instance (timeline : Timeline) : Decidable timeline.WellFormed :=
  decidable_of_iff (timeline.clips.Pairwise (fun c d => c.id.equal d.id = false) ∧
    ((∀ clip ∈ timeline.main, clip.BelongsTo .main) ∧
      ∀ clip ∈ timeline.overlay, clip.BelongsTo .overlay) ∧
    LaidOutFrom 0 timeline.main ∧ LaidOutFrom 0 timeline.overlay) (by
      constructor
      · rintro ⟨apart, ⟨hmain, hoverlay⟩, lmain, loverlay⟩
        refine ⟨⟨apart, ?_⟩, ?_⟩
        · rintro (_ | _)
          · exact hmain
          · exact hoverlay
        · rintro (_ | _)
          · exact lmain
          · exact loverlay
      · rintro ⟨⟨apart, belongs⟩, laidOut⟩
        exact ⟨apart, ⟨belongs .main, belongs .overlay⟩, laidOut .main, laidOut .overlay⟩)

/-- Both ends of every window are finite and not before the source. -/
def HasMoments (timeline : Timeline) : Prop :=
  ∀ track, ∀ clip ∈ timeline.on track, clip.HasMoments

variable {timeline result raw : Timeline}

/-- Tidy timelines are orderly. -/
theorem Tidy.orderly (h : timeline.Tidy) : timeline.Orderly :=
  ⟨h.apart, fun track clip hclip => (h.belongs track clip hclip).on⟩

/-- Layout has nothing to do on a well-formed timeline. -/
theorem WellFormed.settled (h : timeline.WellFormed) : timeline.Settled :=
  fun track => (h.laidOut track).layoutFrom_eq

/-- A checked timeline is made of moments. -/
theorem hasMoments_of_checked (h : timeline.checkInvariants = .ok ()) : timeline.HasMoments :=
  fun track clip hclip => Clip.hasMoments_of_validate (forall_on_of_checked h track clip hclip).2.1

/-- On a settled timeline every clip starts at the running sum exactly when none
starts at not-a-number. -/
theorem Settled.laidOut_iff (settled : timeline.Settled) :
    (∀ track, LaidOutFrom 0 (timeline.on track)) ↔
      ∀ clip ∈ timeline.clips, clip.startTime.isNaN = false := by
  constructor
  · intro laidOut clip hclip
    obtain ⟨track, hon⟩ := mem_clips.mp hclip
    exact (laidOut track).not_isNaN clip hon
  · intro numbers track
    refine laidOutFrom_of_not_isNaN (settled track) ?_
    exact fun clip hclip => numbers clip (mem_clips.mpr ⟨track, hclip⟩)

/-- On a settled timeline that is made of moments every clip starts at the
running sum. -/
theorem Settled.laidOut (settled : timeline.Settled) (moments : timeline.HasMoments)
    (track : Track) : LaidOutFrom 0 (timeline.on track) :=
  laidOutFrom_of_moments Binary64.isNaN_zero (settled track) (moments track)

/-- What is tidy and settled is well-formed exactly when no clip starts at
not-a-number. -/
theorem Tidy.wellFormed_iff (tidy : timeline.Tidy) (settled : timeline.Settled) :
    timeline.WellFormed ↔ ∀ clip ∈ timeline.clips, clip.startTime.isNaN = false := by
  rw [← settled.laidOut_iff]
  exact ⟨fun h => h.laidOut, fun laidOut => ⟨tidy, laidOut⟩⟩

/-- What is tidy, settled and made of moments is well-formed. -/
theorem Tidy.wellFormed (tidy : timeline.Tidy) (settled : timeline.Settled)
    (moments : timeline.HasMoments) : timeline.WellFormed :=
  ⟨tidy, settled.laidOut moments⟩

/-- Laying out keeps what all clips have, as far as it does not depend on start
times. -/
theorem LaysOut.forall_on {P : Track → Clip → Prop}
    (hP : ∀ track clip, P track clip.unplaced ↔ P track clip) (h : result.LaysOut raw timeline)
    (all : ∀ track, ∀ clip ∈ raw.on track, P track clip) :
    ∀ track, ∀ clip ∈ result.on track, P track clip := forall_on_of_unplaced hP h.unplaced_eq all

/-- Laying out keeps clips named apart. -/
theorem LaysOut.apart (h : result.LaysOut raw timeline)
    (apart : NamedApart raw.clips) : NamedApart result.clips :=
  apart_of_unplaced h.unplaced_eq apart

/-- What was laid out is settled if the timeline was settled before. -/
theorem LaysOut.settled (h : result.LaysOut raw timeline) (settled : timeline.Settled) :
    result.Settled := by
  intro track
  rcases h track with hlaid | ⟨_, hsame⟩
  · exact layoutFrom_idem hlaid
  · rw [hsame]
    exact settled track

/-- Where layout has nothing to do, a timeline that is laid out stays as it is. -/
theorem LaysOut.eq_of_settled (h : result.LaysOut raw timeline) (settled : raw.Settled) :
    result = raw := by
  refine eq_of_on fun track => ?_
  rcases h track with hlaid | ⟨hraw, hkept⟩
  · exact Except.ok.inj (hlaid.symm.trans (settled track))
  · rw [hraw, hkept]

end Timeline

namespace Spot

variable {spot : Spot} {timeline : Timeline} {id : Value}

/-- Clips are named apart when the ones that fill a spot are, and each has the
name of the clip that was there or a new one. -/
theorem Of.apart_fill (h : spot.Of timeline id) (apart : NamedApart timeline.clips)
    {clips : List Clip} (among : NamedApart clips)
    (new : ∀ clip ∈ clips, clip.id = spot.clip.id ∨
      ∀ other ∈ timeline.clips, other.id.equal clip.id = false) :
    NamedApart (spot.fill timeline clips).clips := by
  obtain ⟨hothers, hrest⟩ := namedApart_cons.mp ((namedApart_perm h.clips_perm).mp apart)
  rw [namedApart_perm (spot.fill_clips_perm timeline clips)]
  refine List.pairwise_append.mpr ⟨among, hrest, ?_⟩
  intro clip hclip other hother
  rw [Value.equal_comm]
  rcases new clip hclip with hid | hnew
  · rw [hid]
    exact hothers other hother
  · exact hnew other (h.clips_perm.mem_iff.mpr (List.mem_cons_of_mem _ hother))

/-- A single clip with the name of the one that was there keeps clips named
apart. -/
theorem Of.apart_fill_same (h : spot.Of timeline id) (apart : NamedApart timeline.clips)
    {clip : Clip} (hid : clip.id = spot.clip.id) :
    NamedApart (spot.fill timeline [clip]).clips := by
  refine h.apart_fill apart (List.pairwise_singleton _ _) ?_
  intro other hother
  rw [List.mem_singleton.mp hother]
  exact .inl hid

/-- Leaving a spot empty keeps clips named apart. -/
theorem Of.apart_fill_nil (h : spot.Of timeline id) (apart : NamedApart timeline.clips) :
    NamedApart (spot.fill timeline []).clips :=
  h.apart_fill apart .nil (by simp)

/-- The clips beside an empty spot were there before. -/
theorem mem_rest_of_mem_fill_nil {clip : Clip}
    (hclip : clip ∈ (spot.fill timeline []).clips) : clip ∈ spot.rest timeline :=
  (spot.fill_clips_perm timeline []).mem_iff.mp hclip

end Spot

/-- Putting a clip with a new name on a timeline keeps clips named apart. -/
theorem Timeline.apart_putAt {timeline : Timeline} {track : Track} {place : Nat} {clip : Clip}
    (apart : NamedApart timeline.clips) (hplace : place ≤ (timeline.on track).length)
    (new : ∀ other ∈ timeline.clips, other.id.equal clip.id = false) :
    NamedApart (timeline.putAt track place clip).clips := by
  rw [namedApart_perm (Timeline.putAt_clips_perm clip hplace), namedApart_cons]
  exact ⟨new, apart⟩

namespace Edit

/-- The names for the clips that an edit makes differ from each other and from
those on the timeline. -/
def Fresh (edit : Edit) (timeline : Timeline) : Prop :=
  edit.newIds.Pairwise (fun id other => id.equal other = false) ∧
    ∀ id ∈ edit.newIds, ∀ clip ∈ timeline.clips, clip.id.equal id = false

/-- Whether the names of an edit are fresh can be computed. -/
instance (edit : Edit) (timeline : Timeline) : Decidable (edit.Fresh timeline) :=
  inferInstanceAs (Decidable (_ ∧ _))

/-- An edit splits the clip of a spot at a sum that is too large for a finite
double. -/
def OverflowsAt (edit : Edit) (timeline : Timeline) (spot : Spot) : Prop :=
  ∃ id time first second, edit = .split id time first second ∧ spot.Of timeline id ∧
    spot.clip.inTime.add time = .ok (.real (.infinity false))

variable {edit : Edit} {timeline raw : Timeline}

/-- Edits that are given fresh names keep clips named apart. -/
theorem Makes.apart (makes : edit.Makes timeline raw) (fresh : edit.Fresh timeline)
    (apart : NamedApart timeline.clips) : NamedApart raw.clips := by
  obtain ⟨hdifferent, hnew⟩ := fresh
  cases makes with
  | insert names finite long fresh =>
    exact Timeline.apart_putAt apart (slot_le _ _) (hnew _ List.mem_cons_self)
  | trim found start stop lasts long => exact found.apart_fill_same apart rfl
  | @split _ id time first second spot cut found finite inside sum =>
    have hpair : first.equal second = false := by simpa [newIds] using hdifferent
    refine found.apart_fill apart ?_ ?_
    · simp [NamedApart, hpair]
    · intro clip hclip
      rcases List.mem_cons.mp hclip with rfl | hclip
      · exact .inr (hnew first (by simp [newIds]))
      · rw [List.mem_singleton.mp hclip]
        exact .inr (hnew second (by simp [newIds]))
  | @reorder _ id index forced spot place found finite bounded whole within =>
    have hothers := (namedApart_cons.mp ((namedApart_perm found.clips_perm).mp apart)).1
    refine Timeline.apart_putAt (found.apart_fill_nil apart) ?_ ?_
    · rwa [Spot.fill_nil_on_self]
    · exact fun other hother => hothers other (Spot.mem_rest_of_mem_fill_nil hother)
  | delete found => exact found.apart_fill_nil apart
  | @move _ id number index newId spot found names =>
    refine Timeline.apart_putAt (found.apart_fill_nil apart) ?_ ?_
    · rw [Spot.fill_on_other]
      exact slot_le _ _
    · intro other hother
      refine hnew newId (by simp [newIds]) other ?_
      exact found.clips_perm.mem_iff.mpr
        (List.mem_cons_of_mem _ (Spot.mem_rest_of_mem_fill_nil hother))
  | mute found => exact found.apart_fill_same apart rfl
  | filter found known => exact found.apart_fill_same apart rfl
  | overlays found main apart' => exact found.apart_fill_same apart rfl
  | geometry found => exact found.apart_fill_same apart rfl

/-- Edits leave every clip on the track that it names. -/
theorem Makes.tracks (makes : edit.Makes timeline raw)
    (tracks : ∀ track, ∀ clip ∈ timeline.on track, clip.track.equal track.toValue = true) :
    ∀ track, ∀ clip ∈ raw.on track, clip.track.equal track.toValue = true := by
  have hkept : ∀ {spot : Spot} {id : Value}, spot.Of timeline id →
      spot.clip.track.equal spot.track.toValue = true :=
    fun {spot} _ found => tracks spot.track spot.clip found.mem_on
  cases makes with
  | insert names finite long fresh =>
    exact Timeline.forall_on_putAt (P := fun track clip => clip.track.equal track.toValue = true)
      _ tracks names
  | trim found start stop lasts long => exact found.forall_on_fill_one tracks (hkept found)
  | split found finite inside sum =>
    refine found.forall_on_fill tracks ?_
    simpa using hkept found
  | reorder found finite bounded whole within =>
    exact Timeline.forall_on_putAt (P := fun track clip => clip.track.equal track.toValue = true)
      _ (found.forall_on_fill_nil tracks) (hkept found)
  | delete found => exact found.forall_on_fill_nil tracks
  | move found names =>
    exact Timeline.forall_on_putAt (P := fun track clip => clip.track.equal track.toValue = true)
      _ (found.forall_on_fill_nil tracks) names
  | mute found => exact found.forall_on_fill_one tracks (hkept found)
  | filter found known => exact found.forall_on_fill_one tracks (hkept found)
  | overlays found main apart => exact found.forall_on_fill_one tracks (hkept found)
  | geometry found => exact found.forall_on_fill_one tracks (hkept found)

/-- Overlays without repeated ids are named apart. -/
theorem overlaysApart_of_hasRepeats {images : List Overlay}
    (h : Value.hasRepeats (images.map Overlay.id) = .ok false) :
    images.Pairwise fun o p => o.id.equal p.id = false := by
  have hpairs := List.pairwise_map.mp (Value.pairwise_of_hasRepeats h)
  exact hpairs.imp fun hagrees => Value.equal_eq_false hagrees

/-- Edits leave every clip on a track where it belongs. -/
theorem Makes.belongs (makes : edit.Makes timeline raw)
    (belongs : ∀ track, ∀ clip ∈ timeline.on track, clip.BelongsTo track) :
    ∀ track, ∀ clip ∈ raw.on track, clip.BelongsTo track := by
  -- a clip that changes keeps its track, unless it moves
  have hchanged : ∀ {spot : Spot} {id : Value} {clip : Clip}, spot.Of timeline id →
      clip.track = spot.clip.track → clip.overlays = spot.clip.overlays →
      clip.BelongsTo spot.track := by
    intro spot id clip found htrack hoverlays
    obtain ⟨hon, hapart, hbare⟩ := belongs spot.track spot.clip found.mem_on
    refine ⟨?_, ?_, ?_⟩
    · rwa [htrack]
    · rwa [hoverlays]
    · rwa [hoverlays]
  cases makes with
  | insert names finite long fresh =>
    exact Timeline.forall_on_putAt _ belongs ⟨names, .nil, fun _ => rfl⟩
  | trim found start stop lasts long =>
    exact found.forall_on_fill_one belongs (hchanged found rfl rfl)
  | split found finite inside sum =>
    refine found.forall_on_fill belongs ?_
    simpa using ⟨hchanged found rfl rfl, hchanged found rfl rfl⟩
  | reorder found finite bounded whole within =>
    exact Timeline.forall_on_putAt _ (found.forall_on_fill_nil belongs)
      (hchanged found rfl rfl)
  | delete found => exact found.forall_on_fill_nil belongs
  | @move _ id number index newId spot found names =>
    refine Timeline.forall_on_putAt _ (found.forall_on_fill_nil belongs) ⟨names, ?_, ?_⟩
    · dsimp only
      split
      · exact (belongs spot.track spot.clip found.mem_on).overlaysApart
      · exact .nil
    · intro hoverlay
      simp [hoverlay]
  | mute found => exact found.forall_on_fill_one belongs (hchanged found rfl rfl)
  | filter found known =>
    exact found.forall_on_fill_one belongs (hchanged found rfl rfl)
  | @overlays _ id images spot found main apart =>
    have hon := (belongs spot.track spot.clip found.mem_on).on
    refine found.forall_on_fill_one belongs ⟨hon, overlaysApart_of_hasRepeats apart, ?_⟩
    intro hoverlay
    rcases main with rfl | hmain
    · rfl
    · rw [hmain] at hoverlay
      cases hoverlay
  | geometry found => exact found.forall_on_fill_one belongs (hchanged found rfl rfl)

/-- The end that a trim asks for is a moment. -/
theorem TrimmedTo.isMoment {wanted present native new : Value}
    (h : TrimmedTo wanted present native new) (hpresent : present.IsMoment) : new.IsMoment := by
  rcases h with ⟨_, rfl⟩ | ⟨hfinite, hclamp⟩
  · exact hpresent
  · exact Value.isMoment_clamp hfinite hclamp

/-- Edits keep the ends of windows moments, unless a split cuts beyond the
finite doubles. -/
theorem Makes.hasMoments (makes : edit.Makes timeline raw)
    (finite : ∀ spot, ¬ edit.OverflowsAt timeline spot) (moments : timeline.HasMoments) :
    raw.HasMoments := by
  have hkept : ∀ {spot : Spot} {id : Value}, spot.Of timeline id → spot.clip.HasMoments :=
    fun {spot} _ found => moments spot.track spot.clip found.mem_on
  cases makes with
  | @insert _ number source duration index id track names hfinite long fresh =>
    refine Timeline.forall_on_putAt (P := fun _ => Clip.HasMoments) _ moments ?_
    exact ⟨Value.isMoment_real_zero,
      Value.isMoment_of_not_lt hfinite Value.isMoment_minClipDuration long⟩
  | trim found start stop lasts long =>
    refine found.forall_on_fill_one (P := fun _ => Clip.HasMoments) moments ?_
    exact ⟨start.isMoment (hkept found).1, stop.isMoment (hkept found).2⟩
  | @split _ id time first second spot cut found hfinite inside sum =>
    obtain ⟨hstart, hstop⟩ := hkept found
    have hcut : (Value.number cut).IsMoment := by
      have htime := Value.isMoment_of_not_lt hfinite Value.isMoment_minClipDuration
        (nearEdge_eq_false.mp inside).1
      refine (Value.isMoment_add hstart htime sum).resolve_right ?_
      rintro rfl
      exact finite spot ⟨id, time, first, second, rfl, found, sum⟩
    refine found.forall_on_fill (P := fun _ => Clip.HasMoments) moments ?_
    intro clip hclip
    rcases List.mem_cons.mp hclip with rfl | hclip
    · exact ⟨hstart, hcut⟩
    · rw [List.mem_singleton.mp hclip]
      exact ⟨hcut, hstop⟩
  | reorder found hfinite bounded whole within =>
    refine Timeline.forall_on_putAt (P := fun _ => Clip.HasMoments) _ ?_ (hkept found)
    exact found.forall_on_fill_nil moments
  | delete found =>
    exact found.forall_on_fill_nil moments
  | move found names =>
    refine Timeline.forall_on_putAt (P := fun _ => Clip.HasMoments) _ ?_ (hkept found)
    exact found.forall_on_fill_nil moments
  | mute found =>
    exact found.forall_on_fill_one (P := fun _ => Clip.HasMoments) moments (hkept found)
  | filter found known =>
    exact found.forall_on_fill_one (P := fun _ => Clip.HasMoments) moments (hkept found)
  | overlays found main apart =>
    exact found.forall_on_fill_one (P := fun _ => Clip.HasMoments) moments (hkept found)
  | geometry found =>
    exact found.forall_on_fill_one (P := fun _ => Clip.HasMoments) moments (hkept found)

/-- The first clip of a pair. -/
def former : Clip :=
  .plain (.text "a") ⟨.text "a.mp4", .int 5, .null, .null⟩ (.int 1) (.int 4) (.int 0)

/-- The second clip of a pair. -/
def latter : Clip :=
  { Clip.plain (.text "b") ⟨.text "b.mp4", .int 5, .null, .null⟩ (.int 0) (.int 2) (.int 0) with
    startTime := .int 3 }

/-- Two clips on the main track, one behind the other. -/
def pair : Timeline := ⟨[former, latter], []⟩

/-- The pair is well-formed. -/
theorem pair_wellFormed : pair.WellFormed := by decide +kernel

/-- The pair passes the check. -/
theorem pair_checked : pair.checkInvariants = .ok () := Outcome.eq_ok_of_isOk (by decide +kernel)

end Edit

end Montage
