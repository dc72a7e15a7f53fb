import Montage.Proofs.Edit.Applied
import Montage.Proofs.Timeline.Timed

/-!
# Faults of edits

An edit that fails is turned down unless something that it comes upon cannot be used.
There are two sorts of that: a value of an unsuitable kind, which the edit is given or
which says on what track the clip is that it addresses, and an integer that is too large
for a double, which the edit is given, cuts at or finds on the timeline. What is allowed
to go wrong is a property `P` of faults here, which admits all rejections.
-/

namespace Montage

open Outcome

variable {P : Fault → Prop}

namespace Value

/-- The value is null or counts as a whole number. -/
def IsIndex (value : Value) : Prop := value.isNull = true ∨ ∃ i, value.number? = some (.int i)

/-- A number counts as one. -/
theorem number?_ne_none (n : Number) : (number n).number? ≠ none := Option.some_ne_none n

/-- Two values can be compared unless one of them is no number. -/
theorem faults_inOrder_of {a b : Value} (kind : a.number? = none ∨ b.number? = none → P .illTyped)
    (order : Ordering) : Faults P (inOrder order a b) := by
  cases ha : a.number? with
  | none => exact faults_inOrder (kind (.inl ha)) order a b
  | some m =>
    cases hb : b.number? with
    | none => exact faults_inOrder (kind (.inr hb)) order a b
    | some n =>
      rw [inOrder_of_number ha, hb]
      exact faults_ok _

/-- A value can be compared with a number unless it is none. -/
theorem faults_inOrder_number {a : Value} (kind : a.number? = none → P .illTyped)
    (order : Ordering) (n : Number) : Faults P (inOrder order a (.number n)) :=
  faults_inOrder_of (fun h => kind (h.resolve_right (number?_ne_none n))) order

/-- A number can be compared with a value unless that is none. -/
theorem faults_number_inOrder {b : Value} (kind : b.number? = none → P .illTyped)
    (order : Ordering) (n : Number) : Faults P (inOrder order (.number n) b) :=
  faults_inOrder_of (fun h => kind (h.resolve_left (number?_ne_none n))) order

/-- A value is forced into a range unless it is not-a-number or something is no number. -/
theorem faults_clamp {value low high : Value} (number : value.isNaN = false)
    (kind : value.number? = none ∨ low.number? = none ∨ high.number? = none → P .illTyped) :
    Faults P (value.clamp low high) := by
  have hsmaller : Faults P (smaller high value) :=
    (faults_inOrder_of (fun h => kind (h.imp_right .inr)) _).bind fun _ _ =>
      faults_ite (fun _ => faults_pure _) fun _ => faults_pure _
  unfold clamp
  rw [number]
  refine hsmaller.bind fun least hleast => ?_
  have hcases : least = value ∨ least = high := by
    obtain ⟨below, _, hleast⟩ := bind_eq_ok.mp hleast
    cases below with
    | true => exact .inl (pure_eq_ok.mp hleast).symm
    | false => exact .inr (pure_eq_ok.mp hleast).symm
  refine (faults_inOrder_of (fun h => kind ?_) _).bind fun _ _ =>
    faults_ite (fun _ => faults_pure _) fun _ => faults_pure _
  rcases h with h | h
  · exact .inr (.inl h)
  · rcases hcases with rfl | rfl
    · exact .inl h
    · exact .inr (.inr h)

/-- A value addresses a place unless it is no whole number. -/
theorem faults_position {value : Value}
    (kind : (¬ ∃ i, value.number? = some (.int i)) → P .illTyped) : Faults P value.position := by
  unfold position
  split
  · exact faults_ok _
  · exact faults_ok _
  · next hbool hint =>
    refine faults_error (kind ?_)
    rintro ⟨i, hi⟩
    cases value with
    | bool b => exact hbool b rfl
    | number n =>
      cases hi
      exact hint i rfl
    | _ => cases hi

/-- A finite number is not not-a-number. -/
theorem not_isNaN_of_isFinite {value : Value} (h : value.isFinite = .ok true) :
    value.isNaN = false := by
  obtain ⟨_, _, rfl, hplace⟩ := isFinite_eq_true h
  exact not_isNaN_of_place hplace

/-- A finite number is a number. -/
theorem number?_ne_none_of_isFinite {value : Value} (h : value.isFinite = .ok true) :
    value.number? ≠ none := by
  obtain ⟨n, _, rfl, _⟩ := isFinite_eq_true h
  exact number?_ne_none n

/-- A finite number is forced into a range from a number on unless the upper end is none. -/
theorem faults_clamp_number {value high : Value} {low : Number} (h : value.isFinite = .ok true)
    (kind : high.number? = none → P .illTyped) : Faults P (value.clamp (.number low) high) := by
  refine faults_clamp (not_isNaN_of_isFinite h) fun hnone => kind ?_
  exact (hnone.resolve_left (number?_ne_none_of_isFinite h)).resolve_left (number?_ne_none low)

/-- A finite number has a whole part. -/
theorem faults_toWhole_of_isFinite {value : Value} (h : value.isFinite = .ok true) :
    Faults P value.toWhole := by
  obtain ⟨n, _, rfl, hplace⟩ := isFinite_eq_true h
  cases n with
  | int k => exact faults_ok k
  | real x =>
    cases x with
    | nan origin => cases hplace
    | infinity s => cases s <;> cases hplace
    | finite s units grid => exact faults_ok _

/-- A time is a number. -/
theorem IsTime.number?_ne_none {value : Value} (h : value.IsTime) : value.number? ≠ none := by
  obtain ⟨n, hn, _⟩ := h
  rw [hn]
  exact Option.some_ne_none _

end Value

/-- A source has a name unless its path is no text. -/
theorem Source.faults_name {source : Source}
    (kind : (∀ path, source.path ≠ .text path) → P .illTyped) : Faults P source.name := by
  unfold name
  split
  · exact faults_ok _
  · next hnone => exact faults_error (kind hnone)

namespace Timeline

variable {timeline : Timeline}

/-- A track is addressed unless the value names none or is a double. -/
theorem faults_track (turned : ∀ why, P (.rejected why)) {number : Value}
    (kind : number.IsReal → P .illTyped) : Faults P (timeline.track number) := by
  refine Faults.bind ((Track.faults_ofValue (turned _)).bind fun track _ => ?_)
    fun _ _ => faults_pure _
  split
  · exact faults_error (kind ⟨_, rfl⟩)
  · exact faults_pure track

/-- The clips of an addressed track are clips of the timeline. -/
theorem mem_clips_of_track {number : Value} {clips : List Clip}
    (h : timeline.track number = .ok clips) : ∀ clip ∈ clips, clip ∈ timeline.clips := by
  obtain ⟨track, _, rfl⟩ := track_eq_ok h
  exact fun clip hclip => mem_clips.mpr ⟨track, hclip⟩

/-- A clip that is asked for is there or turned down. -/
theorem faults_require (turned : ∀ why, P (.rejected why)) (id : Value) :
    Faults P (timeline.require id) := faults_orFault (turned _) _

/-- A clip that was asked for is one of the timeline. -/
theorem mem_clips_of_require {id : Value} {clip : Clip} (h : timeline.require id = .ok clip) :
    clip ∈ timeline.clips := List.mem_of_find?_eq_some (orFault_eq_ok.mp h)

/-- A clip that was asked for is found by its own name, too. -/
theorem require_id {id : Value} {clip : Clip} (h : timeline.require id = .ok clip) :
    timeline.require clip.id = .ok clip := by
  have hnamed := List.find?_some (orFault_eq_ok.mp h)
  have hsame : (fun other : Clip => other.id.equal clip.id) = fun other => other.id.equal id := by
    funext other
    rw [Bool.eq_iff_iff]
    exact ⟨fun he => Value.equal_trans he hnamed,
      fun he => Value.equal_trans he (by rwa [Value.equal_comm])⟩
  rw [require, find?, hsame]
  exact orFault_eq_ok.mpr (orFault_eq_ok.mp h)

/-- Admitted clips can take the place of those of a track, and all clips are admitted
afterwards. -/
theorem Admitted.withTrack (admitted : timeline.Admitted P) (turned : ∀ why, P (.rejected why))
    {clips : List Clip} (new : ∀ clip ∈ clips, clip.Admitted P) (number : Value) :
    Fares P (Admitted P) (timeline.withTrack number clips) := by
  have hlengths (clip : Clip) (hclip : clip ∈ clips) : Faults P clip.length :=
    (new clip hclip).faults_length
  refine (faults_layoutFrom_of hlengths 0).bind_fares fun laid hlaid => ?_
  refine (Track.faults_ofValue (turned _)).bind_fares fun track _ => fares_ok ?_
  have hlaid := Clip.forall_of_unplaced (fun _ => Iff.rfl) (layoutFrom_unplaced hlaid) new
  intro clip hclip
  obtain ⟨other, hother⟩ := mem_clips.mp hclip
  by_cases heq : other = track
  · rw [heq, on_setTrack_self] at hother
    exact hlaid clip hother
  · rw [on_setTrack_of_ne heq] at hother
    exact admitted clip (mem_clips.mpr ⟨other, hother⟩)

/-- An admitted clip can take the place of another one. -/
theorem Admitted.replaceClip (admitted : timeline.Admitted P) (turned : ∀ why, P (.rejected why))
    {clip : Clip} (kind : clip.track.IsReal → P .illTyped) (new : clip.Admitted P) :
    Fares P (Admitted P) (timeline.replaceClip clip) := by
  refine (faults_track turned kind).bind_fares fun clips hclips => admitted.withTrack turned ?_ _
  simp only [List.forall_mem_map]
  intro other hother
  split
  · exact new
  · exact admitted other (mem_clips_of_track hclips other hother)

end Timeline

namespace Edit

open Timeline

variable {timeline : Timeline}

/-! ## Parts of edits -/

/-- A time is required unless it is no finite number or too large for a double. -/
theorem faults_requireTime (turned : ∀ why, P (.rejected why)) (argument : Text)
    {value : Value} (large : value.IsBeyond → P .tooLarge) :
    Faults P (requireTime argument value) :=
  (Value.faults_isFinite_of large).bind fun _ _ =>
    faults_ite (fun _ => faults_pure value) fun _ => faults_error (turned _)

/-- A clip is inserted at an index or appended unless the index is no whole number. -/
theorem faults_insertOrAppend {index : Value} (kind : ¬ index.IsIndex → P .illTyped)
    (clips : List Clip) (clip : Clip) : Faults P (insertOrAppend clips index clip) := by
  by_cases hnull : index.isNull = true
  · refine faults_ite (fun _ => faults_pure _) fun hnot => absurd hnull hnot
  have hkind (hwhole : ¬ ∃ i, index.number? = some (.int i)) : P .illTyped :=
    kind (not_or.mpr ⟨hnull, hwhole⟩)
  have hnumber (hnone : index.number? = none) : P .illTyped := by
    refine hkind ?_
    rintro ⟨i, hi⟩
    rw [hnone] at hi
    cases hi
  refine faults_ite (fun _ => faults_pure _) fun _ => ?_
  refine (Value.faults_inOrder_number hnumber _ _).bind fun _ _ => ?_
  refine faults_ite (fun _ => faults_pure _) fun _ => ?_
  refine (Value.faults_number_inOrder hnumber _ _).bind fun _ _ => ?_
  refine faults_ite (fun _ => faults_pure _) fun _ => ?_
  exact (Value.faults_position hkind).bind fun _ _ => faults_pure _

/-- The clips after an insertion are the new one and those before. -/
theorem mem_of_insertOrAppend {clips result : List Clip} {index : Value} {clip : Clip}
    (h : insertOrAppend clips index clip = .ok result) :
    ∀ other ∈ result, other = clip ∨ other ∈ clips := by
  rw [eq_insertIdx_of_insertOrAppend h]
  exact fun other => List.eq_or_mem_of_mem_insertIdx

/-- The end that a trim asks for is forced into a source with a length unless it is no
finite number or too large for a double. -/
theorem faults_trimmedTo (turned : ∀ why, P (.rejected why)) (argument : Text)
    {wanted native : Value} (present : Value) (kind : native.number? = none → P .illTyped)
    (large : wanted.IsBeyond → P .tooLarge) :
    Faults P (trimmedTo argument wanted present native) :=
  faults_ite (fun _ => faults_pure _) fun _ =>
    (faults_requireTime turned argument large).bind fun time htime => by
      obtain ⟨hfinite, rfl⟩ := requireTime_eq_ok.mp htime
      exact Value.faults_clamp_number hfinite kind

/-- A new end of a window is a time, and too large for a double only if the present
end is. -/
theorem TrimmedTo.isTime {wanted present native new : Value}
    (h : TrimmedTo wanted present native new) (htime : present.IsTime)
    (hnative : ¬ native.IsBeyond) :
    new.IsTime ∧ (new.IsBeyond → present.IsBeyond) := by
  rcases h with ⟨_, rfl⟩ | ⟨hfinite, hclamp⟩
  · exact ⟨htime, id⟩
  · refine ⟨(Value.isMoment_clamp hfinite hclamp).isTime, fun beyond => absurd beyond ?_⟩
    rcases Value.clamp_cases hclamp with rfl | ⟨rfl, _⟩ | ⟨rfl, _⟩
    · exact Value.not_isBeyond_real 0
    · exact hnative
    · exact Value.not_isBeyond_of_isFinite hfinite

/-- Whether a time is near an end of a clip can be told if the clip is admitted. -/
theorem faults_nearEdge {clip : Clip} (admitted : clip.Admitted P) {time : Value}
    (number : time.number? ≠ none) : Faults P (nearEdge clip time) := by
  have hnumber (hnone : time.number? = none) : P .illTyped := absurd hnone number
  refine (Value.faults_inOrder_number hnumber _ _).bind fun _ _ => ?_
  refine faults_ite (fun _ => faults_pure _) fun _ => ?_
  refine (admitted.1.faults_duration admitted.2).bind fun length hlength => ?_
  refine Faults.bind ?_ fun _ _ => Value.faults_number_inOrder hnumber _ _
  refine Value.faults_arithmetic (by rintro (h | h) <;> cases h) fun m n hm hn => ?_
  by_cases beyond : clip.IsBeyond
  · exact .inr (admitted.2 beyond)
  · cases hm
    cases hn
    exact .inl ⟨admitted.1.duration_toReal?_isSome beyond hlength, rfl⟩

/-- A finite number that is not too short for a clip is a moment. -/
theorem isMoment_of_isFinite {value : Value} (hfinite : value.isFinite = .ok true)
    (h : value.lt (.real minClipDuration) = .ok false) : value.IsMoment :=
  Value.isMoment_of_not_lt hfinite Value.isMoment_minClipDuration h

/-! ## Whole edits -/

/-- A name leads to a clip whose track is stored as a double. -/
def OnReal (timeline : Timeline) (id : Value) : Prop :=
  ∃ clip, timeline.require id = .ok clip ∧ clip.track.IsReal

/-- The edit comes upon a value of an unsuitable kind: it is given one, or the clip that
it addresses holds one. -/
def Mistypes (timeline : Timeline) : Edit → Prop
  | .insert number source _ index _ =>
    number.IsReal ∨ ¬ index.IsIndex ∨ ∀ path, source.path ≠ .text path
  | .trim id _ _ => OnReal timeline id ∨
    ∃ clip, timeline.require id = .ok clip ∧ clip.source.duration.number? = none
  | .move id number index _ => OnReal timeline id ∨ number.IsReal ∨ ¬ index.IsIndex
  | .overlays id images => OnReal timeline id ∨
    ∃ name ∈ images.map Overlay.id, name.isKey = false
  | .split id _ _ _ => OnReal timeline id
  | .reorder id _ => OnReal timeline id
  | .delete id => OnReal timeline id
  | .mute id _ => OnReal timeline id
  | .filter id _ => OnReal timeline id
  | .geometry id _ _ => OnReal timeline id

/-- The edit comes upon an integer that is too large for a double: it is given one, or
it is to cut a clip at one. -/
def AsksBeyond (timeline : Timeline) : Edit → Prop
  | .insert _ _ duration _ _ => duration.IsBeyond
  | .trim _ inTime outTime => inTime.IsBeyond ∨ outTime.IsBeyond
  | .split id time _ _ => time.IsBeyond ∨ ∃ clip cut, timeline.require id = .ok clip ∧
      clip.inTime.add time = .ok cut ∧ (Value.number cut).IsBeyond
  | .reorder _ index => index.IsBeyond
  | _ => False

section

variable (turned : ∀ why, P (.rejected why)) (admitted : timeline.Admitted P)

include turned admitted

/-- An insertion makes an admitted clip. -/
theorem fares_applyInsert {number : Value} {source : Source} {duration index : Value}
    (kind : number.IsReal ∨ ¬ index.IsIndex ∨ (∀ path, source.path ≠ .text path) → P .illTyped)
    (large : duration.IsBeyond → P .tooLarge) (id : Value) :
    Fares P (Timeline.Admitted P) (applyInsert timeline number source duration index id) := by
  refine (Track.faults_ofValue (turned _)).bind_fares fun _ _ => ?_
  refine (faults_requireTime turned _ large).bind_fares fun time htime => ?_
  obtain ⟨hfinite, rfl⟩ := requireTime_eq_ok.mp htime
  have hnumber (hnone : duration.number? = none) : P .illTyped :=
    absurd hnone (Value.number?_ne_none_of_isFinite hfinite)
  refine (Value.faults_inOrder_number hnumber _ _).bind_fares fun short hshort => ?_
  refine (faults_rejectIf (turned _) _).bind_fares fun _ hlong => ?_
  obtain rfl := rejectIf_eq_ok.mp hlong
  refine (faults_rejectIf (turned _) _).bind_fares fun _ _ => ?_
  refine (faults_track turned fun h => kind (.inl h)).bind_fares fun clips hclips => ?_
  refine (faults_insertOrAppend (fun h => kind (.inr (.inl h))) clips _).bind_fares
    fun made hmade => ?_
  have hpath : (source.lasting duration).path = source.path := by
    unfold Source.lasting
    split <;> rfl
  have hname : Faults P (source.lasting duration).name :=
    Source.faults_name fun h => kind (.inr (.inr fun path => hpath ▸ h path))
  refine hname.bind_fares fun _ _ => ?_
  refine admitted.withTrack turned (fun clip hclip => ?_) number
  rcases mem_of_insertOrAppend hmade clip hclip with rfl | hold
  · have hdouble := Value.not_isBeyond_of_isFinite hfinite
    refine ⟨⟨Value.isMoment_real_zero.isTime, (isMoment_of_isFinite hfinite hshort).isTime, ?_⟩,
      fun beyond => absurd beyond (not_or.mpr ⟨Value.not_isBeyond_real 0, hdouble⟩)⟩
    change ¬ (source.lasting duration).duration.IsBeyond
    unfold Source.lasting
    split
    · next he => exact Value.not_isBeyond_of_equal he hdouble
    · exact hdouble
  · exact admitted clip (mem_clips_of_track hclips clip hold)

/-- A trim makes an admitted clip. -/
theorem fares_applyTrim {id inTime outTime : Value}
    (kind : OnReal timeline id ∨ (∃ clip, timeline.require id = .ok clip ∧
      clip.source.duration.number? = none) → P .illTyped)
    (large : inTime.IsBeyond ∨ outTime.IsBeyond → P .tooLarge) :
    Fares P (Timeline.Admitted P) (applyTrim timeline id inTime outTime) := by
  refine (faults_require turned id).bind_fares fun clip hclip => ?_
  obtain ⟨⟨hstart, hstop, hsource⟩, hbeyond⟩ := admitted clip (mem_clips_of_require hclip)
  have hnative (hnone : clip.source.duration.number? = none) : P .illTyped :=
    kind (.inr ⟨clip, hclip, hnone⟩)
  refine (faults_trimmedTo turned _ _ hnative fun h => large (.inl h)).bind_fares
    fun newIn hin => ?_
  refine (faults_trimmedTo turned _ _ hnative fun h => large (.inr h)).bind_fares
    fun newOut hout => ?_
  obtain ⟨hstart', hin⟩ := (trimmedTo_of_eq_ok hin).isTime hstart hsource
  obtain ⟨hstop', hout⟩ := (trimmedTo_of_eq_ok hout).isTime hstop hsource
  have new : ({ clip with inTime := newIn, outTime := newOut } : Clip).Admitted P :=
    ⟨⟨hstart', hstop', hsource⟩, fun beyond => hbeyond (beyond.imp hin hout)⟩
  refine (new.1.faults_duration new.2).bind_fares fun _ _ => Faults.bind_fares (faults_ok _)
    fun _ _ => ?_
  refine (faults_rejectIf (turned _) _).bind_fares fun _ _ => ?_
  exact admitted.replaceClip turned (fun h => kind (.inl ⟨clip, hclip, h⟩)) new

/-- A split makes two admitted clips. -/
theorem fares_applySplit {id time : Value} (kind : OnReal timeline id → P .illTyped)
    (large : time.IsBeyond ∨ (∃ clip cut, timeline.require id = .ok clip ∧
      clip.inTime.add time = .ok cut ∧ (Value.number cut).IsBeyond) → P .tooLarge)
    (first second : Value) :
    Fares P (Timeline.Admitted P) (applySplit timeline id time first second) := by
  refine (faults_require turned id).bind_fares fun clip hclip => ?_
  have hadmitted := admitted clip (mem_clips_of_require hclip)
  refine (faults_requireTime turned _ fun h => large (.inl h)).bind_fares fun given htime => ?_
  obtain ⟨hfinite, rfl⟩ := requireTime_eq_ok.mp htime
  have hnumber := Value.number?_ne_none_of_isFinite hfinite
  refine (faults_nearEdge hadmitted hnumber).bind_fares fun near hnear => ?_
  refine (faults_rejectIf (turned _) _).bind_fares fun _ hinside => ?_
  obtain rfl := rejectIf_eq_ok.mp hinside
  obtain ⟨hearly, _⟩ := nearEdge_eq_false.mp hnear
  obtain ⟨⟨hstart, hstop, hsource⟩, hbeyond⟩ := hadmitted
  have hsum : Faults P (clip.inTime.add time) :=
    Value.faults_combine
      (fun h => h.elim (fun h => absurd h hstart.number?_ne_none) fun h => absurd h hnumber)
      fun h => h.elim (fun beyond => hbeyond (.inl beyond)) fun beyond => large (.inl beyond)
  refine hsum.bind_fares fun cut hcut => ?_
  have hcutTime := hstart.add (isMoment_of_isFinite hfinite hearly) hcut
  have hcutBeyond (beyond : (Value.number cut).IsBeyond) : P .tooLarge :=
    large (.inr ⟨clip, cut, hclip, hcut, beyond⟩)
  refine (faults_track turned fun h => kind ⟨clip, hclip, h⟩).bind_fares fun clips hclips =>
    admitted.withTrack turned ?_ _
  intro other hother
  obtain ⟨old, hold, hother⟩ := List.mem_flatMap.mp hother
  split at hother
  · rcases List.mem_pair.mp hother with rfl | rfl
    · exact ⟨⟨hstart, hcutTime, hsource⟩, fun beyond =>
        beyond.elim (fun h => hbeyond (.inl h)) hcutBeyond⟩
    · exact ⟨⟨hcutTime, hstop, hsource⟩, fun beyond =>
        beyond.elim hcutBeyond fun h => hbeyond (.inr h)⟩
  · obtain rfl := List.mem_singleton.mp hother
    exact admitted other (mem_clips_of_track hclips other hold)

/-- A change of order keeps clips admitted. -/
theorem fares_applyReorder {id index : Value} (kind : OnReal timeline id → P .illTyped)
    (large : index.IsBeyond → P .tooLarge) :
    Fares P (Timeline.Admitted P) (applyReorder timeline id index) := by
  refine (faults_require turned id).bind_fares fun clip hclip => ?_
  refine (Value.faults_isFinite_of large).bind_fares fun finite hfinite => ?_
  refine fares_demand (turned _) fun htrue => ?_
  have hfinite := htrue ▸ hfinite
  refine (faults_track turned fun h => kind ⟨clip, hclip, h⟩).bind_fares fun clips hclips => ?_
  have hclamp (count : Int) : Faults P (index.clamp (.int 0) (.int count)) :=
    Value.faults_clamp_number hfinite fun hnone => absurd hnone (Value.number?_ne_none _)
  refine (hclamp _).bind_fares fun forced hforced => ?_
  have hwhole : Faults P forced.toWhole := by
    rcases Value.clamp_cases hforced with rfl | ⟨rfl, _⟩ | ⟨rfl, _⟩
    · exact faults_ok _
    · exact faults_ok _
    · exact Value.faults_toWhole_of_isFinite hfinite
  refine hwhole.bind_fares fun _ _ => admitted.withTrack turned (fun other hother => ?_) _
  refine admitted other ?_
  rcases List.eq_or_mem_of_mem_insertIdx hother with rfl | hother
  · exact mem_clips_of_require hclip
  · exact mem_clips_of_track hclips other (List.mem_of_mem_filter hother)

/-- A removal keeps clips admitted. -/
theorem fares_applyDelete {id : Value} (kind : OnReal timeline id → P .illTyped) :
    Fares P (Timeline.Admitted P) (applyDelete timeline id) := by
  refine (faults_require turned id).bind_fares fun clip hclip => ?_
  refine (faults_track turned fun h => kind ⟨clip, hclip, h⟩).bind_fares fun clips hclips => ?_
  exact admitted.withTrack turned (fun other hother =>
    admitted other (mem_clips_of_track hclips other (List.mem_of_mem_filter hother))) _

/-- A move to the other track keeps clips admitted. -/
theorem fares_applyMove {id number index : Value}
    (kind : OnReal timeline id ∨ number.IsReal ∨ ¬ index.IsIndex → P .illTyped) (newId : Value) :
    Fares P (Timeline.Admitted P) (applyMove timeline id number index newId) := by
  refine (faults_require turned id).bind_fares fun clip hclip => ?_
  refine (Track.faults_ofValue (turned _)).bind_fares fun target _ => ?_
  refine (faults_rejectIf (turned _) _).bind_fares fun _ _ => ?_
  have hdelete (h : OnReal timeline clip.id) : P .illTyped := by
    obtain ⟨found, hfound, hreal⟩ := h
    cases (require_id hclip).symm.trans hfound
    exact kind (.inl ⟨clip, hclip, hreal⟩)
  refine (fares_applyDelete turned admitted hdelete).bind fun rest hrest => ?_
  refine (faults_track turned fun h => kind (.inr (.inl h))).bind_fares fun clips hclips => ?_
  refine (faults_insertOrAppend (fun h => kind (.inr (.inr h))) clips _).bind_fares
    fun made hmade => ?_
  refine hrest.withTrack turned (fun other hother => ?_) number
  rcases mem_of_insertOrAppend hmade other hother with rfl | hold
  · exact admitted clip (mem_clips_of_require hclip)
  · exact hrest other (mem_clips_of_track hclips other hold)

/-- A choice of a filter keeps clips admitted. -/
theorem fares_applyFilter {id : Value} (kind : OnReal timeline id → P .illTyped) (name : Value) :
    Fares P (Timeline.Admitted P) (applyFilter timeline id name) :=
  (faults_rejectIf (turned _) _).bind_fares fun _ _ =>
    (faults_require turned id).bind_fares fun clip hclip =>
      admitted.replaceClip turned (fun h => kind ⟨clip, hclip, h⟩)
        (admitted clip (mem_clips_of_require hclip))

/-- A change of overlays keeps clips admitted. -/
theorem fares_applyOverlays {id : Value} {images : List Overlay}
    (kind : OnReal timeline id ∨ (∃ name ∈ images.map Overlay.id, name.isKey = false) →
      P .illTyped) :
    Fares P (Timeline.Admitted P) (applyOverlays timeline id images) :=
  (faults_require turned id).bind_fares fun clip hclip =>
    (faults_rejectIf (turned _) _).bind_fares fun _ _ =>
      (Value.faults_hasRepeats fun h => kind (.inr h)).bind_fares fun _ _ =>
        (faults_rejectIf (turned _) _).bind_fares fun _ _ =>
          admitted.replaceClip turned (fun h => kind (.inl ⟨clip, hclip, h⟩))
            (admitted clip (mem_clips_of_require hclip))

/-- An edit is turned down, or it fails for a value of an unsuitable kind or for an integer
that is too large for a double, and clips that are admitted on the timeline before are
admitted on the one after it. -/
theorem fares_apply_of {edit : Edit} (kind : edit.Mistypes timeline → P .illTyped)
    (large : edit.AsksBeyond timeline → P .tooLarge) :
    Fares P (Timeline.Admitted P) (edit.apply timeline) := by
  cases edit with
  | insert number source duration index id => exact fares_applyInsert turned admitted kind large id
  | trim id inTime outTime => exact fares_applyTrim turned admitted kind large
  | split id time first second => exact fares_applySplit turned admitted kind large first second
  | reorder id index => exact fares_applyReorder turned admitted kind large
  | delete id => exact fares_applyDelete turned admitted kind
  | move id number index newId => exact fares_applyMove turned admitted kind newId
  | mute id muted =>
    exact (faults_require turned id).bind_fares fun clip hclip =>
      admitted.replaceClip turned (fun h => kind ⟨clip, hclip, h⟩)
        (admitted clip (mem_clips_of_require hclip))
  | filter id name => exact fares_applyFilter turned admitted kind name
  | overlays id images => exact fares_applyOverlays turned admitted kind
  | geometry id position size =>
    exact (faults_require turned id).bind_fares fun clip hclip =>
      admitted.replaceClip turned (fun h => kind ⟨clip, hclip, h⟩)
        (admitted clip (mem_clips_of_require hclip))

end

section

variable (plain : ∀ fault, fault.IsPlain → P fault) (admitted : timeline.Admitted P)

include plain admitted

/-- An edit fails plainly, or for an integer that is too large for a double, and clips
that are admitted on the timeline before are admitted on the one after it. -/
theorem fares_apply (edit : Edit) (large : edit.AsksBeyond timeline → P .tooLarge) :
    Fares P (Timeline.Admitted P) (edit.apply timeline) :=
  fares_apply_of (fun _ => plain _ trivial) admitted (fun _ => plain _ trivial) large

omit admitted in
/-- Edits that come upon no integer that is too large for a double fail like their
parts, and keep clips admitted. -/
theorem fares_applyAll {edits : List Edit} (admitted : timeline.Admitted P)
    (small : ∀ edit ∈ edits, ∀ timeline, ¬ edit.AsksBeyond timeline) :
    Fares P (Timeline.Admitted P) (applyAll edits timeline) := by
  induction edits generalizing timeline with
  | nil => exact fares_ok admitted
  | cons edit edits ih =>
    obtain ⟨hfirst, hrest⟩ := List.forall_mem_cons.mp small
    exact (fares_apply plain admitted edit fun h => absurd h (hfirst timeline)).bind
      fun next hnext => ih hnext hrest

end

/-- One clip on the main track, the number of which it holds as a double. -/
def doubled : Timeline :=
  ⟨[.plain (.text "a") ⟨.text "a.mp4", .real 5, .null, .null⟩ (.real 0) (.real 5) (.real 0)], []⟩

/-- That passes the check. -/
theorem doubled_checked : doubled.checkInvariants = .ok () :=
  Outcome.eq_ok_of_isOk (by decide +kernel)

end Edit

end Montage
