import Montage.Proofs.Edit.Run
import Montage.Proofs.Timeline.Window

/-!
# Edits and valid windows

An edit of a timeline with valid clips leaves invalid ones in two ways only: an
inserted or trimmed clip may end behind its source, and a half of a split clip may
be too short. Neither happens as long as no source lasts longer than about 68 years
and none that is inserted has a truth value for its duration.
-/

namespace Montage

namespace Timeline

/-- All clips are valid. -/
def Valid (timeline : Timeline) : Prop := ∀ clip ∈ timeline.clips, clip.validate = .ok ()

/-- All sources are of moderate length. -/
def Moderate (timeline : Timeline) : Prop := ∀ clip ∈ timeline.clips, clip.source.IsModerate

/-- Whether all sources are of moderate length can be computed. -/
instance (timeline : Timeline) : Decidable timeline.Moderate :=
  inferInstanceAs (Decidable (∀ clip ∈ timeline.clips, _))

variable {timeline result raw : Timeline}

/-- Checked timelines are valid. -/
theorem valid_of_checked (checked : timeline.checkInvariants = .ok ()) : timeline.Valid :=
  validate_of_checked checked

/-- What does not depend on start times holds of all clips before and after they are
laid out. -/
theorem LaysOut.forall_iff {P : Clip → Prop} (hP : ∀ clip, P clip.unplaced ↔ P clip)
    (h : result.LaysOut raw timeline) :
    (∀ clip ∈ result.clips, P clip) ↔ ∀ clip ∈ raw.clips, P clip := by
  constructor
  · intro all clip hclip
    obtain ⟨track, hon⟩ := mem_clips.mp hclip
    exact Clip.forall_of_unplaced hP (h.unplaced track).symm
      (fun other hother => all other (mem_clips.mpr ⟨track, hother⟩)) clip hon
  · intro all clip hclip
    obtain ⟨track, hon⟩ := mem_clips.mp hclip
    exact Clip.forall_of_unplaced hP (h.unplaced track)
      (fun other hother => all other (mem_clips.mpr ⟨track, hother⟩)) clip hon

/-- Laying out neither makes clips valid nor invalid. -/
theorem LaysOut.valid_iff (h : result.LaysOut raw timeline) : result.Valid ↔ raw.Valid :=
  h.forall_iff fun _ => Iff.rfl

/-- Laying out keeps the sources. -/
theorem LaysOut.moderate_iff (h : result.LaysOut raw timeline) :
    result.Moderate ↔ raw.Moderate :=
  h.forall_iff (P := fun clip => clip.source.IsModerate) fun _ => Iff.rfl

/-- What all clips have, they have with one more clip that has it, and only then. -/
theorem forall_putAt_iff {P : Clip → Prop} {track : Track} {place : Nat} {clip : Clip}
    (hplace : place ≤ (timeline.on track).length) (all : ∀ other ∈ timeline.clips, P other) :
    (∀ other ∈ (timeline.putAt track place clip).clips, P other) ↔ P clip := by
  simp only [(putAt_clips_perm clip hplace).mem_iff, List.forall_mem_cons]
  exact and_iff_left all

end Timeline

/-- What all clips have, they have with others at a spot that have it, and only
then. -/
theorem Spot.Of.forall_fill_iff {spot : Spot} {timeline : Timeline} {id : Value}
    {P : Clip → Prop} {clips : List Clip} (h : spot.Of timeline id)
    (all : ∀ clip ∈ timeline.clips, P clip) :
    (∀ clip ∈ (spot.fill timeline clips).clips, P clip) ↔ ∀ clip ∈ clips, P clip := by
  simp only [(spot.fill_clips_perm timeline clips).mem_iff, List.forall_mem_append]
  refine and_iff_left ?_
  exact fun clip hclip => all clip (h.clips_perm.mem_iff.mpr (List.mem_cons_of_mem _ hclip))

/-- The same when the clip of a spot is put elsewhere. -/
theorem Spot.Of.forall_moved {spot : Spot} {timeline : Timeline} {id : Value} {P : Clip → Prop}
    {track : Track} {place : Nat} {clip : Clip} (h : spot.Of timeline id)
    (all : ∀ clip ∈ timeline.clips, P clip)
    (hplace : place ≤ ((spot.fill timeline []).on track).length) (new : P clip) :
    ∀ other ∈ ((spot.fill timeline []).putAt track place clip).clips, P other :=
  (Timeline.forall_putAt_iff hplace ((h.forall_fill_iff all).mpr (by simp))).mpr new

/-- The clip of a spot is one of the timeline. -/
theorem Spot.Of.mem_clips {spot : Spot} {timeline : Timeline} {id : Value}
    (h : spot.Of timeline id) : spot.clip ∈ timeline.clips :=
  Timeline.mem_clips.mpr ⟨spot.track, h.mem_on⟩

namespace Edit

/-- What remains to be checked after an edit for its result to be valid. An
inserted clip ends within its source, a trimmed one does, and both halves of a
split clip are long enough. -/
def Sound (edit : Edit) (timeline : Timeline) : Prop :=
  match edit with
  | .insert track source duration _ id =>
    (Clip.plain id (source.lasting duration) (.real 0) duration track).EndsInSource
  | .trim id _ outTime => ∀ (spot : Spot) (newOut : Value), spot.Of timeline id →
    TrimmedTo outTime spot.clip.outTime spot.clip.source.duration newOut →
    { spot.clip with outTime := newOut }.EndsInSource
  | .split id time _ _ => ∀ (spot : Spot) (cut : Number), spot.Of timeline id →
    spot.clip.inTime.add time = .ok cut →
    { spot.clip with outTime := .number cut }.IsLong ∧
      { spot.clip with inTime := .number cut }.IsLong
  | _ => True

/-- An inserted source is of moderate length, and its duration is a number. -/
def Moderate (edit : Edit) : Prop :=
  match edit with
  | .insert _ source duration _ _ => (source.lasting duration).IsModerate ∧
    (source.lasting duration).duration.isFinite = .ok true
  | _ => True

variable {edit : Edit} {timeline result raw : Timeline}

/-! ## New windows -/

/-- The end that a trim asks for is finite. -/
theorem TrimmedTo.isFinite {wanted present native new : Value}
    (h : TrimmedTo wanted present native new) (hpresent : present.isFinite = .ok true)
    (hnative : native.isFinite = .ok true) : new.isFinite = .ok true := by
  rcases h with ⟨_, rfl⟩ | ⟨hfinite, hclamp⟩
  · exact hpresent
  · rcases Value.clamp_cases hclamp with rfl | ⟨rfl, _⟩ | ⟨rfl, _⟩
    · exact Outcome.eq_ok_of_toOption (by decide +kernel)
    · exact hnative
    · exact hfinite

/-- A trim leaves the window within a source of moderate length. -/
theorem TrimmedTo.endsInSource {clip : Clip} {wanted new : Value} (inside : clip.EndsInSource)
    (moderate : clip.source.IsModerate)
    (h : TrimmedTo wanted clip.outTime clip.source.duration new) :
    { clip with outTime := new }.EndsInSource := by
  rcases h with ⟨_, rfl⟩ | ⟨hfinite, hclamp⟩
  · exact inside
  obtain ⟨native, units, hnative, hplace⟩ := Value.isFinite_eq_true inside.1
  have hnumber : clip.source.duration.number? = some native := by
    rw [hnative]
    rfl
  obtain ⟨d, rfl, _, hgrid⟩ := moderate.exists_place hnumber hplace
  have hrounded := Grid.nearest_of_dvd hgrid
  have hnativeFinite : native.isFinite? = some true := by
    have := inside.1
    rwa [hnative, Value.isFinite, Outcome.orFault_eq_ok] at this
  have hends {stop : Number} {o : Nat} (hstop : new.number? = some stop)
      (ho : stop.place? = some (.inner o)) (hle : o ≤ d) :
      { clip with outTime := new }.EndsInSource :=
    Clip.endsInSource_of_le hnative hnativeFinite hplace hstop ho (by rwa [hrounded])
  rcases Value.clamp_cases hclamp with rfl | ⟨rfl, _⟩ | ⟨rfl, hbelow, habove⟩
  · exact hends rfl Number.place?_real_zero (Nat.zero_le d)
  · exact hends hnumber hplace le_rfl
  · obtain ⟨value, o, rfl, ho⟩ := Value.isFinite_eq_true hfinite
    rw [Value.lt_of_numbers rfl hnumber, Number.lt_of_places ho hplace, Except.ok.injEq,
      decide_eq_true_eq] at hbelow
    rw [Value.lt_of_numbers rfl rfl, Number.lt_of_places Number.place?_real_zero ho,
      Except.ok.injEq, decide_eq_true_eq] at habove
    obtain ⟨o, rfl⟩ : ∃ units : Nat, o = units := ⟨o.toNat, by omega⟩
    exact hends rfl ho (by omega)

/-- An inserted clip is valid when it ends within its source. -/
theorem validate_inserted_iff {number duration id : Value} {source : Source}
    (finite : duration.isFinite = .ok true)
    (long : duration.lt (.real minClipDuration) = .ok false) :
    (Clip.plain id (source.lasting duration) (.real 0) duration number).validate = .ok () ↔
      (Clip.plain id (source.lasting duration) (.real 0) duration number).EndsInSource := by
  have moments : (Clip.plain id (source.lasting duration) (.real 0) duration number).HasMoments :=
    ⟨Value.isMoment_real_zero,
      Value.isMoment_of_not_lt finite Value.isMoment_minClipDuration long⟩
  have hstart : (Value.real 0).isFinite = .ok true :=
    Outcome.eq_ok_of_toOption (by decide +kernel)
  obtain ⟨stop, units, rfl, hplace⟩ := Value.isFinite_eq_true finite
  obtain ⟨x, hx⟩ := Number.exists_toReal? (Outcome.orFault_eq_ok.mp finite)
  rw [Value.lt_of_numbers rfl rfl, Number.lt_of_places hplace Clip.place?_minClipDuration,
    Except.ok.injEq, decide_eq_false_iff_not] at long
  obtain ⟨o, rfl⟩ : ∃ o : Nat, units = o := ⟨units.toNat, by omega⟩
  rw [Clip.validate_iff moments hstart finite (.inl rfl), and_iff_left_iff_imp]
  exact fun _ => Clip.isLong_of_zero rfl rfl hplace hx (by omega)

/-- A trimmed clip is valid when it ends within its source. -/
theorem validate_trimmed_iff {clip : Clip} {inTime outTime newIn newOut : Value} {length : Number}
    (valid : clip.validate = .ok ())
    (start : TrimmedTo inTime clip.inTime clip.source.duration newIn)
    (stop : TrimmedTo outTime clip.outTime clip.source.duration newOut)
    (lasts : newOut.sub newIn = .ok length)
    (long : (Value.number length).lt (.real minClipDuration) = .ok false) :
    { clip with inTime := newIn, outTime := newOut }.validate = .ok () ↔
      { clip with outTime := newOut }.EndsInSource := by
  obtain ⟨hin, hout, _, _, hnative, _, _, known⟩ := Clip.validate_eq_ok.mp valid
  have moments := Clip.hasMoments_of_validate valid
  have hends : ({ clip with inTime := newIn, outTime := newOut } : Clip).HasMoments :=
    ⟨start.isMoment moments.1, stop.isMoment moments.2⟩
  rw [Clip.validate_iff hends (start.isFinite hin hnative) (stop.isFinite hout hnative) known,
    and_iff_left_of_imp]
  · exact Iff.rfl
  · exact fun _ => ⟨length, lasts, Clip.not_lt_shortestWindow long⟩

/-- A half that begins at infinity is too short. -/
theorem not_isLong_of_infinite {clip : Clip} (stop : clip.outTime.IsMoment) :
    ¬ { clip with inTime := .real (.infinity false) }.IsLong := by
  rintro ⟨length, hlength, hlong⟩
  obtain ⟨n, hn, moment⟩ := stop
  have hdifference := (Value.sub_eq_ok hn rfl).mp hlength
  rcases Number.combine?_eq_some hdifference with ⟨_, _, _, hint, _⟩ | ⟨x, y, hx, hy, rfl⟩
  · cases hint
  · cases hy
    obtain ⟨s, a, grid, rfl, _⟩ := Binary64.isMoment_iff.mp (Number.toReal?_isMoment moment hx)
    have hless : (Number.real (.infinity true)).lt (.real Clip.shortestWindow) = true := by
      rw [Number.lt, Clip.place?_shortestWindow]
      rfl
    rw [Value.lt_of_numbers rfl rfl, Except.ok.injEq] at hlong
    rw [show (Binary64.finite s a grid).sub (.infinity false) = .infinity true from rfl,
      hless] at hlong
    cases hlong

/-- The halves of a split clip are valid when they are long enough. -/
theorem validate_halves_iff {clip : Clip} {time : Value} {cut : Number}
    (valid : clip.validate = .ok ()) (finite : time.isFinite = .ok true)
    (inside : nearEdge clip time = .ok false) (sum : clip.inTime.add time = .ok cut)
    (first second : Value) :
    { clip with id := first, outTime := .number cut }.validate = .ok () ∧
        { clip with id := second, inTime := .number cut }.validate = .ok () ↔
      { clip with outTime := .number cut }.IsLong ∧
        { clip with inTime := .number cut }.IsLong := by
  obtain ⟨hin, hout, _, _, hnative, hends, _, known⟩ := Clip.validate_eq_ok.mp valid
  obtain ⟨start, stop⟩ := Clip.hasMoments_of_validate valid
  constructor
  · rintro ⟨hfirst, hsecond⟩
    obtain ⟨_, _, _, _, _, _, hlong, _⟩ := Clip.validate_eq_ok.mp hfirst
    obtain ⟨_, _, _, _, _, _, hlong', _⟩ := Clip.validate_eq_ok.mp hsecond
    exact ⟨hlong, hlong'⟩
  · rintro ⟨hfirst, hsecond⟩
    have htime := Value.isMoment_of_not_lt finite Value.isMoment_minClipDuration
      (nearEdge_eq_false.mp inside).1
    have hcut : (Value.number cut).IsMoment := by
      refine (Value.isMoment_add start htime sum).resolve_right ?_
      rintro rfl
      exact not_isLong_of_infinite stop hsecond
    obtain ⟨_, hk, c, hc⟩ := hcut
    cases hk
    obtain ⟨n, hn, b, hb⟩ := id stop
    have hordered : c < b := hsecond.lt rfl hc hn hb
    have hfinite := Value.isFinite_of_place_le hc hn hb hordered.le hout
    have hbefore : cut.lt n = true := by
      rw [Number.lt_of_places hc hb, decide_eq_true_eq]
      exact_mod_cast hordered
    have inSource : clip.EndsInSource := ⟨hnative, hends⟩
    have hcutMoment : (Value.number cut).IsMoment := ⟨cut, rfl, c, hc⟩
    have hfirstEnds : ({ clip with id := first, outTime := .number cut } : Clip).HasMoments :=
      ⟨start, hcutMoment⟩
    have hsecondEnds : ({ clip with id := second, inTime := .number cut } : Clip).HasMoments :=
      ⟨hcutMoment, stop⟩
    rw [Clip.validate_iff hfirstEnds hin hfinite known,
      Clip.validate_iff hsecondEnds hfinite hout known]
    exact ⟨⟨inSource.of_lt hn hbefore first, hfirst⟩, inSource, hsecond⟩

/-- An inserted clip ends within its source if that is of moderate length. -/
theorem endsInSource_inserted {number duration id : Value} {source : Source}
    (moderate : (source.lasting duration).IsModerate)
    (native : (source.lasting duration).duration.isFinite = .ok true)
    (finite : duration.isFinite = .ok true) :
    (Clip.plain id (source.lasting duration) (.real 0) duration number).EndsInSource := by
  obtain ⟨stop, units, rfl, hplace⟩ := Value.isFinite_eq_true finite
  obtain ⟨length, units', hlength, hplace'⟩ := Value.isFinite_eq_true native
  -- what the source is kept with lies at the same place as the end
  have hequal : (source.lasting (.number stop)).duration.equal (.number stop) = true := by
    unfold Source.lasting
    split
    · next h => exact h
    · rw [Value.equal_of_numbers rfl rfl]
      exact Number.equal_iff.mpr ⟨_, hplace, hplace⟩
  have hnumber : (source.lasting (.number stop)).duration.number? = some length := by
    rw [hlength]
    rfl
  have hsame : stop.place? = some (.inner units') := by
    rw [Value.equal_of_numbers hnumber rfl, Number.equal_iff] at hequal
    obtain ⟨place, hleft, hright⟩ := hequal
    rw [hright, ← hleft, hplace']
  obtain ⟨d, rfl, _, hgrid⟩ := moderate.exists_place hnumber hplace'
  have hfinite : length.isFinite? = some true := by
    rwa [hlength, Value.isFinite, Outcome.orFault_eq_ok] at native
  exact Clip.endsInSource_of_le hlength hfinite hplace' rfl hsame
    (Grid.nearest_of_dvd hgrid).ge

/-- A time that is not too near to an end cuts a window within a source of moderate
length into halves that are long enough. -/
theorem isLong_halves {clip : Clip} {time : Value} {cut : Number}
    (valid : clip.validate = .ok ()) (moderate : clip.source.IsModerate)
    (finite : time.isFinite = .ok true) (inside : nearEdge clip time = .ok false)
    (sum : clip.inTime.add time = .ok cut) :
    { clip with outTime := .number cut }.IsLong ∧ { clip with inTime := .number cut }.IsLong := by
  obtain ⟨_, _, _, _, hnative, hends, long, _⟩ := Clip.validate_eq_ok.mp valid
  obtain ⟨⟨m, hm, a, ha⟩, n, hn, b, hb⟩ := Clip.hasMoments_of_validate valid
  have long : clip.IsLong := long
  have hordered : a < b := long.lt hm ha hn hb
  have hrange : b < Number.moderateRange :=
    Clip.EndsInSource.lt_moderateRange ⟨hnative, hends⟩ moderate hn hb
  obtain ⟨t, units, rfl, htime⟩ := Value.isFinite_eq_true finite
  obtain ⟨early, length, last, hlength, hlast, hlate⟩ := nearEdge_eq_false.mp inside
  rw [Value.lt_of_numbers rfl rfl, Except.ok.injEq] at early hlate
  obtain ⟨first, second, hfirst, hfirstLong, hsecond, hsecondLong⟩ :=
    Number.exists_halves ha hb hordered.le hrange ((Value.sub_eq_ok hn hm).mp hlength)
      ((Value.sub_eq_ok rfl rfl).mp hlast) htime early hlate ((Value.add_eq_ok hm rfl).mp sum)
  have hshort {half : Number} (h : half.lt (.real Clip.shortestWindow) = false) :
      (Value.number half).lt (.real Clip.shortestWindow) = .ok false := by
    rw [Value.lt_of_numbers rfl rfl, h]
  exact ⟨⟨first, (Value.sub_eq_ok rfl hm).mpr hfirst, hshort hfirstLong⟩,
    second, (Value.sub_eq_ok hn rfl).mpr hsecond, hshort hsecondLong⟩

/-! ## Edited timelines -/

/-- An edit that is made keeps all clips valid exactly if it is sound. -/
theorem Makes.valid_iff (makes : edit.Makes timeline raw) (orderly : timeline.Orderly)
    (valid : timeline.Valid) : raw.Valid ↔ edit.Sound timeline := by
  have hat {spot : Spot} {id : Value} (found : spot.Of timeline id) :
      spot.clip.validate = .ok () := valid spot.clip found.mem_clips
  have hone {spot : Spot} {id : Value} {clip : Clip} (found : spot.Of timeline id)
      (h : clip.validate = .ok ()) : (spot.fill timeline [clip]).Valid := by
    refine (found.forall_fill_iff valid).mpr ?_
    intro other hother
    rwa [List.mem_singleton.mp hother]
  cases makes with
  | insert names finite long fresh =>
    exact (Timeline.forall_putAt_iff (slot_le _ _) valid).trans
      (validate_inserted_iff finite long)
  | @trim _ id inTime outTime newIn newOut spot length found start stop lasts long =>
    have htrimmed := validate_trimmed_iff (hat found) start stop lasts long
    refine (found.forall_fill_iff valid).trans ?_
    rw [List.forall_mem_singleton, htrimmed]
    constructor
    · intro h there out hthere hout
      cases found.unique orderly hthere
      rwa [hout.unique stop]
    · intro sound
      exact sound spot newOut found stop
  | @split _ id time first second spot cut found finite inside sum =>
    have hhalves := validate_halves_iff (hat found) finite inside sum first second
    refine (found.forall_fill_iff valid).trans ?_
    rw [List.forall_mem_cons, List.forall_mem_singleton, hhalves]
    constructor
    · intro h there sum' hthere hsum
      cases found.unique orderly hthere
      cases sum.symm.trans hsum
      exact h
    · intro sound
      exact sound spot cut found sum
  | reorder found finite bounded whole within =>
    refine iff_of_true (found.forall_moved valid ?_ (hat found)) trivial
    rwa [Spot.fill_nil_on_self]
  | delete found => exact iff_of_true ((found.forall_fill_iff valid).mpr (by simp)) trivial
  | move found names =>
    refine iff_of_true (found.forall_moved valid ?_ ?_) trivial
    · rw [Spot.fill_on_other]
      exact slot_le _ _
    · obtain ⟨hin, hout, hordered, hlow, hnative, hends, hlong, known⟩ :=
        Clip.validate_eq_ok.mp (hat found)
      exact Clip.validate_eq_ok.mpr
        ⟨hin, hout, hordered, hlow, hnative, hends, hlong, known⟩
  | mute found => exact iff_of_true (hone found (hat found)) trivial
  | filter found known =>
    obtain ⟨hin, hout, hordered, hlow, hnative, hends, hlong, _⟩ :=
      Clip.validate_eq_ok.mp (hat found)
    exact iff_of_true (hone found (Clip.validate_eq_ok.mpr
      ⟨hin, hout, hordered, hlow, hnative, hends, hlong, known⟩)) trivial
  | overlays found main apart => exact iff_of_true (hone found (hat found)) trivial
  | geometry found => exact iff_of_true (hone found (hat found)) trivial

/-- An edit of moderate size is sound where it can be made. -/
theorem Makes.sound (makes : edit.Makes timeline raw) (orderly : timeline.Orderly)
    (valid : timeline.Valid) (moderate : timeline.Moderate) (small : edit.Moderate) :
    edit.Sound timeline := by
  cases makes with
  | insert names finite long fresh => exact endsInSource_inserted small.1 small.2 finite
  | trim found start stop lasts long =>
    intro there out hthere hout
    obtain ⟨_, _, _, _, hnative, hends, _, _⟩ := Clip.validate_eq_ok.mp (valid _ hthere.mem_clips)
    exact TrimmedTo.endsInSource ⟨hnative, hends⟩ (moderate _ hthere.mem_clips) hout
  | split found finite inside sum =>
    intro there cut hthere hcut
    cases found.unique orderly hthere
    exact isLong_halves (valid _ found.mem_clips) (moderate _ found.mem_clips) finite inside hcut
  | _ => trivial

/-- An edit of moderate size keeps all sources of moderate length. -/
theorem Makes.moderate (makes : edit.Makes timeline raw) (moderate : timeline.Moderate)
    (small : edit.Moderate) : raw.Moderate := by
  have hat {spot : Spot} {id : Value} (found : spot.Of timeline id) :
      spot.clip.source.IsModerate := moderate spot.clip found.mem_clips
  have hfill {spot : Spot} {id : Value} {clips : List Clip} (found : spot.Of timeline id)
      (h : ∀ clip ∈ clips, clip.source = spot.clip.source) :
      (spot.fill timeline clips).Moderate := by
    refine (found.forall_fill_iff moderate).mpr ?_
    intro clip hclip
    rw [h clip hclip]
    exact hat found
  cases makes with
  | insert names finite long fresh =>
    exact (Timeline.forall_putAt_iff (slot_le _ _) moderate).mpr small.1
  | reorder found finite bounded whole within =>
    refine found.forall_moved moderate ?_ (hat found)
    rwa [Spot.fill_nil_on_self]
  | delete found => exact hfill found (by simp)
  | move found names =>
    refine found.forall_moved moderate ?_ (hat found)
    rw [Spot.fill_on_other]
    exact slot_le _ _
  | trim found start stop lasts long => exact hfill found (by simp)
  | split found finite inside sum => exact hfill found (by simp)
  | mute found => exact hfill found (by simp)
  | filter found known => exact hfill found (by simp)
  | overlays found main apart => exact hfill found (by simp)
  | geometry found => exact hfill found (by simp)

/-- An applied edit keeps all clips valid exactly if it is sound. -/
theorem valid_iff_sound (orderly : timeline.Orderly) (valid : timeline.Valid)
    (h : edit.apply timeline = .ok result) : result.Valid ↔ edit.Sound timeline := by
  obtain ⟨raw, makes, laysOut⟩ := exists_makes_of_apply orderly h
  exact laysOut.valid_iff.trans (makes.valid_iff orderly valid)

/-- An applied edit of moderate size keeps all clips valid, and their sources of
moderate length. -/
theorem valid_moderate_of_apply (orderly : timeline.Orderly) (valid : timeline.Valid)
    (moderate : timeline.Moderate) (small : edit.Moderate)
    (h : edit.apply timeline = .ok result) : result.Valid ∧ result.Moderate := by
  obtain ⟨raw, makes, laysOut⟩ := exists_makes_of_apply orderly h
  have sound := makes.sound orderly valid moderate small
  exact ⟨laysOut.valid_iff.mpr ((makes.valid_iff orderly valid).mpr sound),
    laysOut.moderate_iff.mpr (makes.moderate moderate small)⟩

/-- Runs of sound edits lead to orderly timelines with valid clips. -/
theorem Run.orderly_valid {start : Timeline} (orderly : start.Orderly) (valid : start.Valid)
    (run : Run (fun edit timeline => edit.Fresh timeline ∧ edit.Sound timeline) start timeline) :
    timeline.Orderly ∧ timeline.Valid := by
  refine run.induct (P := fun timeline => timeline.Orderly ∧ timeline.Valid)
    ⟨orderly, valid⟩ ?_
  rintro edit timeline result ⟨orderly, valid⟩ ⟨fresh, sound⟩ h
  exact ⟨orderly_of_apply orderly fresh h, (valid_iff_sound orderly valid h).mpr sound⟩

/-- Runs of edits of moderate size keep sources of moderate length, too. -/
theorem Run.orderly_valid_moderate {start : Timeline} (orderly : start.Orderly)
    (valid : start.Valid) (moderate : start.Moderate)
    (run : Run (fun edit timeline => edit.Fresh timeline ∧ edit.Moderate) start timeline) :
    timeline.Orderly ∧ timeline.Valid ∧ timeline.Moderate := by
  refine run.induct
    (P := fun timeline => timeline.Orderly ∧ timeline.Valid ∧ timeline.Moderate)
    ⟨orderly, valid, moderate⟩ ?_
  rintro edit timeline result ⟨orderly, valid, moderate⟩ ⟨fresh, small⟩ h
  exact ⟨orderly_of_apply orderly fresh h,
    valid_moderate_of_apply orderly valid moderate small h⟩

end Edit

end Montage
