import Montage.Proofs.Timeline.Sorted
import Montage.Proofs.Timeline.Timed

/-!
# What a time falls into

On a track that passes the check every clip begins where the one before it ends, and it
lasts until where the next one begins. The clips of the track therefore cut the time from
zero to its end into pieces that are open on the right, and a time falls into one of them
at most. This needs that no clip ends before it begins, which is so on every track that
layout leaves as it is.
-/

namespace Montage

/-! ## Pieces of the line -/

namespace Place

/-- What is before something that is not behind a third thing is before that one. -/
theorem lt_of_lt_of_not_lt {p q r : Place} (hpq : p.lt q = true) (hqr : r.lt q = false) :
    p.lt r = true := by
  cases p <;> cases q <;> cases r <;> simp_all [lt]
  omega

/-- The place lies from a first place on and before a second one. -/
def isIn (start stop p : Place) : Bool := !p.lt start && p.lt stop

/-- There is nothing between a place and itself. -/
theorem isIn_self (start p : Place) : isIn start start p = false := by
  cases h : p.lt start <;> simp [isIn, h]

variable {start middle stop : Place}

/-- What lies in a piece of the line does not lie in the next one. -/
theorem isIn_next {p : Place} (h : isIn start middle p = true) : isIn middle stop p = false := by
  rw [isIn, Bool.and_eq_true] at h
  rw [isIn, h.2, Bool.not_true, Bool.false_and]

/-- A piece of the line can be cut in two. -/
theorem isIn_eq_or (first : middle.lt start = false) (second : stop.lt middle = false)
    (p : Place) : isIn start stop p = (isIn start middle p || isIn middle stop p) := by
  have hmiddle : p.lt start = true → p.lt middle = true := fun h => lt_of_lt_of_not_lt h first
  have hstop : p.lt middle = true → p.lt stop = true := fun h => lt_of_lt_of_not_lt h second
  unfold isIn
  cases hs : p.lt start <;> cases hm : p.lt middle <;> cases hp : p.lt stop <;> simp_all

end Place

namespace Number

/-- The number stands from a first place on and before a second one. -/
def isIn (start stop : Place) (n : Number) : Bool := n.place?.any (Place.isIn start stop)

variable {m n t : Number} {start middle stop : Place}

/-- What stands from one number on and before another one. -/
theorem le_and_lt_eq_isIn (hm : m.place? = some start) (hn : n.place? = some stop) (t : Number) :
    (m.le t && t.lt n) = t.isIn start stop := by
  cases ht : t.place? with
  | none => simp [le, lt, equal, isIn, hm, ht]
  | some p =>
    have hle : m.le t = !p.lt start := by
      rw [Bool.eq_iff_iff]
      cases start <;> cases p <;> simp [le, lt, equal, hm, ht, Place.lt]
      omega
    simp only [hle, lt, isIn, Place.isIn, hn, ht, Option.any_some]

/-- There is nothing between a place and itself. -/
theorem isIn_self (start : Place) (t : Number) : t.isIn start start = false := by
  unfold isIn
  cases t.place? with
  | none => rfl
  | some p => exact Place.isIn_self start p

/-- What stands in a piece of the line does not stand in the next one. -/
theorem isIn_next (h : t.isIn start middle = true) : t.isIn middle stop = false := by
  unfold isIn at *
  cases hp : t.place? with
  | none => rfl
  | some p =>
    rw [hp] at h
    exact Place.isIn_next h

/-- A piece of the line can be cut in two. -/
theorem isIn_eq_or (first : middle.lt start = false) (second : stop.lt middle = false)
    (t : Number) : t.isIn start stop = (t.isIn start middle || t.isIn middle stop) := by
  unfold isIn
  cases t.place? with
  | none => rfl
  | some p => exact Place.isIn_eq_or first second p

end Number

namespace Binary64

/-- What stands where a clock does shows a time, too. -/
theorem IsTime.of_place {now x : Binary64} (time : now.IsTime) (h : x.place? = now.place?) :
    x.IsTime := by
  rcases time with ⟨units, hunits⟩ | rfl
  · exact .inl ⟨units, h.trans hunits⟩
  · cases x with
    | infinity s =>
      cases s with
      | true => cases h
      | false => exact .inr rfl
    | _ => cases h

/-- What equals a clock stands where it does as a double, too. -/
theorem IsTime.place?_toReal? {now x : Binary64} (time : now.IsTime) {n : Number}
    (he : n.equal (.real now) = true) (hx : n.toReal? = some x) : x.place? = now.place? := by
  obtain ⟨p, hn, hnow⟩ := Number.equal_iff.mp he
  cases n with
  | real y =>
    cases hx
    exact hn.trans hnow.symm
  | int k =>
    rcases time with ⟨units, hunits⟩ | rfl
    · obtain ⟨_, grid, rfl, _⟩ := exists_finite_of_place hunits
      cases hnow.symm.trans hunits
      rw [Number.place?_toReal? hn hx, Grid.nearest_of_dvd grid.2]
      exact hunits.symm
    · cases hn
      cases hnow

/-- What equals a clock is not above a sum of it and a moment. -/
theorem IsTime.add?_not_lt {now : Binary64} (time : now.IsTime) {m n sum : Number}
    (he : m.equal (.real now) = true) (hn : n.IsMoment) (hsum : m.add? n = some sum) :
    sum.lt m = false := by
  rcases Number.combine?_eq_some hsum with ⟨j, k, rfl, rfl, rfl⟩ | ⟨x, y, hx, hy, rfl⟩
  · have hk := Number.isMoment_int.mp hn
    rw [Number.lt_int, decide_eq_false_iff_not]
    omega
  · have hplace := time.place?_toReal? he hx
    have hnot := (time.of_place hplace).add_not_lt (Number.toReal?_isMoment hn hy)
    obtain ⟨p, hm, hnow⟩ := Number.equal_iff.mp he
    have hreal : (Number.real x).place? = m.place? := (hplace.trans hnow).trans hm.symm
    rwa [Number.lt, hreal] at hnot

end Binary64

/-! ## What a clip covers -/

namespace Clip

/-- The clip does not end before it begins. -/
def Advances (clip : Clip) : Prop :=
  ∀ finish, clip.timelineEnd = .ok finish → (Value.number finish).lt clip.startTime = .ok false

/-- A time falls into the clip. -/
def covers (time : Value) (clip : Clip) : Bool := (clip.containsTime time).toOption.getD false

/-- The clip lasts from one place of the line to another one, which is not before it. -/
structure Spans (clip : Clip) (start stop : Place) : Prop where
  /-- The clip begins at the first place. -/
  begins : ∃ number, clip.startTime.number? = some number ∧ number.place? = some start
  /-- The clip ends at the second place. -/
  ends : ∃ finish, clip.timelineEnd = .ok finish ∧ finish.place? = some stop
  /-- The second place is not before the first one. -/
  onward : stop.lt start = false

variable {clip : Clip} {start stop : Place}

/-- The times that fall into a clip are those from its beginning on and before its
end. -/
theorem Spans.containsTime_eq (spans : clip.Spans start stop) (t : Number) :
    clip.containsTime (.number t) = .ok (t.isIn start stop) := by
  obtain ⟨number, hnumber, hstart⟩ := spans.begins
  obtain ⟨finish, hfinish, hstop⟩ := spans.ends
  rw [containsTime, Value.le_of_numbers hnumber rfl, hfinish,
    ← Number.le_and_lt_eq_isIn hstart hstop]
  cases number.le t with
  | false => rfl
  | true => exact Value.lt_of_numbers rfl rfl

/-- Whether a time falls into a clip is where it stands. -/
theorem Spans.covers_eq (spans : clip.Spans start stop) (t : Number) :
    clip.covers (.number t) = t.isIn start stop := by
  rw [covers, spans.containsTime_eq]
  rfl

/-- A valid clip has a duration, which is a moment with a double. -/
theorem exists_duration (valid : clip.validate = .ok ()) :
    ∃ length x, clip.duration = .ok length ∧ length.IsMoment ∧ length.toReal? = some x ∧
      x.isFinite = true := by
  obtain ⟨_, _, _, _, _, _, ⟨length, hlength, hlong⟩, _⟩ := validate_eq_ok.mp valid
  obtain ⟨x, hx⟩ := Option.isSome_iff_exists.mp ((timed_of_validate valid).duration_toReal?_isSome
    (not_isBeyond_of_validate valid) hlength)
  have hfinite : x.isFinite = true := by
    refine (hasMoments_of_validate valid).length_isFinite ?_
    rw [Clip.length, hlength, Outcome.ok_bind, hx, orFault]
  obtain ⟨_, hm, hmoment⟩ := Value.isMoment_of_not_lt (Value.isFinite_of_toReal? hx hfinite)
    Value.isMoment_shortestWindow hlong
  cases hm
  exact ⟨length, x, hlength, hmoment, hx, hfinite⟩

/-- A valid clip that stands on the line ends there, and it spans what is between. -/
theorem Advances.exists_spans (advances : clip.Advances) (valid : clip.validate = .ok ())
    {number finish : Number} (hnumber : clip.startTime.number? = some number)
    (hstart : number.place? = some start) (hend : clip.timelineEnd = .ok finish) :
    ∃ stop, finish.place? = some stop ∧ clip.Spans start stop := by
  obtain ⟨length, _, hlength, _, hx, hfinite⟩ := exists_duration valid
  have hsum : number.add? length = some finish := by
    rw [timelineEnd, hlength, Outcome.ok_bind] at hend
    exact (Value.add_eq_ok hnumber rfl).mp hend
  obtain ⟨stop, hstop⟩ : ∃ stop, finish.place? = some stop := by
    rcases Number.combine?_eq_some hsum with ⟨j, k, _, _, rfl⟩ | ⟨y, z, hy, hz, rfl⟩
    · exact ⟨_, rfl⟩
    · cases hx.symm.trans hz
      exact Binary64.exists_place_of_isNaN
        (Binary64.add_isNaN (Number.isNaN_of_toReal? hstart hy) hfinite)
  refine ⟨stop, hstop, ⟨number, hnumber, hstart⟩, ⟨finish, hend, hstop⟩, ?_⟩
  have hnot := advances finish hend
  rw [Value.lt_of_numbers rfl hnumber, Except.ok.injEq, Number.lt, hstop, hstart] at hnot
  exact hnot

/-- A valid clip that starts where a clock stands does not end before. -/
theorem advances_of_equal {now : Binary64} (time : now.IsTime) (valid : clip.validate = .ok ())
    (starts : clip.startTime.equal (.real now) = true) : clip.Advances := by
  intro finish hend
  obtain ⟨number, hnumber, he⟩ := Value.exists_number_of_equal starts rfl
  obtain ⟨length, _, hlength, hmoment, _⟩ := exists_duration valid
  have hsum : number.add? length = some finish := by
    rw [timelineEnd, hlength, Outcome.ok_bind] at hend
    exact (Value.add_eq_ok hnumber rfl).mp hend
  rw [Value.lt_of_numbers rfl hnumber, Except.ok.injEq]
  exact time.add?_not_lt he hmoment hsum

end Clip

/-! ## What a track covers -/

/-- From a place on every clip begins where the one before it ends, and the last one ends
at another place. -/
inductive Chained : Place → List Clip → Place → Prop
  /-- Without clips nothing is covered. -/
  | nil {start : Place} : Chained start [] start
  /-- The first clip ends where the others begin. -/
  | cons {start middle stop : Place} {clip : Clip} {clips : List Clip}
      (spans : clip.Spans start middle) (rest : Chained middle clips stop) :
      Chained start (clip :: clips) stop

namespace Chained

variable {start stop : Place} {clips : List Clip}

/-- Clips that follow each other do not end before they begin. -/
theorem onward (chained : Chained start clips stop) : stop.lt start = false := by
  induction chained with
  | nil => exact Place.lt_irrefl _
  | cons spans _ ih => exact Place.not_lt_trans spans.onward ih

/-- Each of the clips spans a part of the line that does not begin before the first. -/
theorem exists_spans (chained : Chained start clips stop) : ∀ clip ∈ clips,
    ∃ first second, clip.Spans first second ∧ first.lt start = false := by
  induction chained with
  | nil => simp
  | cons spans _ ih =>
    refine List.forall_mem_cons.mpr ⟨⟨_, _, spans, Place.lt_irrefl _⟩, fun other hother => ?_⟩
    obtain ⟨first, second, hspans, hfirst⟩ := ih other hother
    exact ⟨first, second, hspans, Place.not_lt_trans spans.onward hfirst⟩

/-- It can be told of each clip whether a time falls into it. -/
theorem containsTime_eq (chained : Chained start clips stop) (t : Number) :
    ∀ clip ∈ clips, clip.containsTime (.number t) = .ok (clip.covers (.number t)) := by
  induction chained with
  | nil => simp
  | cons spans _ ih =>
    refine List.forall_mem_cons.mpr ⟨?_, ih⟩
    rw [spans.containsTime_eq, spans.covers_eq]

/-- A time before the end of the clips falls into one of them, and any other time into
none. -/
theorem filter_covers (chained : Chained start clips stop) (t : Number) :
    (t.isIn start stop = true → ∃ before clip after, clips = before ++ clip :: after ∧
      clips.filter (Clip.covers (.number t)) = [clip]) ∧
    (t.isIn start stop = false → clips.filter (Clip.covers (.number t)) = []) := by
  induction chained with
  | nil => simp [Number.isIn_self]
  | @cons start middle stop clip clips spans rest ih =>
    obtain ⟨hinside, houtside⟩ := ih
    rw [Number.isIn_eq_or spans.onward rest.onward t, List.filter_cons, spans.covers_eq]
    cases hfirst : t.isIn start middle with
    | true =>
      refine ⟨fun _ => ⟨[], clip, clips, rfl, ?_⟩, fun h => by cases h⟩
      rw [if_pos rfl, houtside (Number.isIn_next hfirst)]
    | false =>
      rw [Bool.false_or, if_neg Bool.false_ne_true]
      refine ⟨fun h => ?_, houtside⟩
      obtain ⟨before, found, after, hclips, hfound⟩ := hinside h
      exact ⟨clip :: before, found, after, by rw [hclips, List.cons_append], hfound⟩

/-- A track ends where the last of its clips does. -/
theorem trackEnd_eq_ok (chained : Chained start clips stop) (some : clips ≠ []) :
    ∃ finish, Timeline.trackEnd clips = .ok finish ∧ finish.place? = .some stop := by
  induction chained with
  | nil => exact absurd rfl some
  | cons spans rest ih =>
    cases rest with
    | nil => exact spans.ends
    | cons next others => exact ih (List.cons_ne_nil _ _)

end Chained

/-- The clips of a laid out track do not end before they begin. -/
theorem LaidOutFrom.advances {now : Binary64} {clips : List Clip} (time : now.IsTime)
    (valid : ∀ clip ∈ clips, clip.validate = .ok ()) (h : LaidOutFrom now clips) :
    ∀ clip ∈ clips, clip.Advances := by
  induction clips generalizing now with
  | nil => simp
  | cons clip clips ih =>
    obtain ⟨hstart, length, hlength, hrest⟩ := h
    obtain ⟨hclip, hclips⟩ := List.forall_mem_cons.mp valid
    exact List.forall_mem_cons.mpr ⟨Clip.advances_of_equal time hclip hstart,
      ih (time.add (Clip.length_isMoment hclip hlength)) hclips hrest⟩

/-- The clips among others that name a track. -/
def Track.among (track : Track) (clips : List Clip) : List Clip :=
  clips.filter fun clip => clip.track.equal track.toValue

namespace Timeline

/-- The clips of a track that passes the check follow each other. -/
theorem exists_chained {track : Track} {seen after : List Value} {begin : Value} {number : Number}
    {start : Place} {clips : List Clip} (h : checkTrack track seen begin clips = .ok after)
    (hnumber : begin.number? = some number) (hstart : number.place? = some start)
    (advances : ∀ clip ∈ clips, clip.Advances) : ∃ stop, Chained start clips stop := by
  induction clips generalizing seen begin number start with
  | nil => exact ⟨start, .nil⟩
  | cons clip clips ih =>
    simp only [checkTrack, Outcome.bind_eq_ok, Outcome.rejectIf_eq_ok] at h
    obtain ⟨_, _, _, _, _, _, _, valid, _, hbegin, _, _, _, _, finish, hend, hrest⟩ := h
    have hequal : clip.startTime.equal begin = true := by simpa using hbegin
    obtain ⟨first, hfirst, he⟩ := Value.exists_number_of_equal hequal hnumber
    obtain ⟨place, hplace', hplace⟩ := Number.equal_iff.mp he
    cases hstart.symm.trans hplace
    obtain ⟨hadvances, hothers⟩ := List.forall_mem_cons.mp advances
    obtain ⟨middle, hmiddle, spans⟩ := hadvances.exists_spans valid hfirst hplace' hend
    obtain ⟨stop, rest⟩ := ih hrest rfl hmiddle hothers
    exact ⟨stop, .cons spans rest⟩

variable {timeline : Timeline}

/-- On an orderly timeline the clips that name a track are those that stand on it. -/
theorem Orderly.among_clips (orderly : timeline.Orderly) (track : Track) :
    track.among timeline.clips = timeline.on track := by
  have hself (k : Track) : k.among (timeline.on k) = timeline.on k :=
    List.filter_eq_self.mpr (orderly.tracks k)
  have hother (k l : Track) (hne : k ≠ l) : l.among (timeline.on k) = [] := by
    rw [Track.among, List.filter_eq_nil_iff]
    exact fun clip hclip he => hne (Track.eq_of_equal (orderly.tracks k clip hclip) he)
  have happend : track.among timeline.clips =
      track.among (timeline.on .main) ++ track.among (timeline.on .overlay) :=
    List.filter_append ..
  rw [happend]
  cases track with
  | main => rw [hself, hother .overlay .main (by decide), List.append_nil]
  | overlay => rw [hself, hother .main .overlay (by decide), List.nil_append]

/-- The clips of a track of a checked timeline follow each other from zero to the end of
the track. -/
theorem exists_chained_of_checked (checked : timeline.checkInvariants = .ok ())
    (advances : ∀ clip ∈ timeline.clips, clip.Advances) (track : Track) :
    ∃ finish stop, timeline.trackDuration track.toValue = .ok finish ∧
      finish.place? = some stop ∧ Chained (.inner 0) (timeline.on track) stop := by
  have hadvances (clip : Clip) (hclip : clip ∈ timeline.on track) : clip.Advances :=
    advances clip (mem_clips.mpr ⟨track, hclip⟩)
  have hchained : ∃ stop, Chained (.inner 0) (timeline.on track) stop := by
    simp only [checkInvariants, Outcome.bind_eq_ok] at checked
    obtain ⟨_, hmain, _, hoverlay, _⟩ := checked
    cases track with
    | main => exact exists_chained hmain rfl Number.place?_real_zero hadvances
    | overlay => exact exists_chained hoverlay rfl Number.place?_real_zero hadvances
  obtain ⟨stop, chained⟩ := hchained
  have hduration : timeline.trackDuration track.toValue = trackEnd (timeline.on track) := by
    rw [trackDuration, Timeline.track, Track.addressed_toValue]
    rfl
  rw [hduration]
  by_cases hempty : timeline.on track = []
  · rw [hempty] at chained ⊢
    cases chained
    exact ⟨.real 0, _, rfl, Number.place?_real_zero, .nil⟩
  · obtain ⟨finish, hend, hstop⟩ := chained.trackEnd_eq_ok hempty
    exact ⟨finish, stop, hend, hstop, chained⟩

/-- What was found is right for a track and a time: one clip, which stands on the track, if
the time is from zero on and before the end of the track, and none otherwise. -/
def FindsAt (timeline : Timeline) (t : Number) (track : Track) (found : List Clip) : Prop :=
  ∃ finish, timeline.trackDuration track.toValue = .ok finish ∧
    ((Number.le 0 t && t.lt finish) = true → ∃ before clip after,
      timeline.on track = before ++ clip :: after ∧ track.among found = [clip]) ∧
    ((Number.le 0 t && t.lt finish) = false → track.among found = [])

/-- On a checked timeline whose clips do not end before they begin it can be told at every
time which clips it falls into. -/
theorem clipsAt_eq_ok (checked : timeline.checkInvariants = .ok ())
    (advances : ∀ clip ∈ timeline.clips, clip.Advances) (t : Number) :
    timeline.clipsAt (.number t) = .ok (timeline.clips.filter (Clip.covers (.number t))) := by
  have hcovers : ∀ clip ∈ timeline.clips,
      clip.containsTime (.number t) = .ok (clip.covers (.number t)) := by
    intro clip hclip
    obtain ⟨track, hon⟩ := mem_clips.mp hclip
    obtain ⟨_, _, _, _, chained⟩ := exists_chained_of_checked checked advances track
    exact chained.containsTime_eq t clip hon
  exact Outcome.filterM_eq_ok hcovers

/-- These are the right clips on every track. -/
theorem findsAt_filter_covers (checked : timeline.checkInvariants = .ok ())
    (advances : ∀ clip ∈ timeline.clips, clip.Advances) (t : Number) (track : Track) :
    timeline.FindsAt t track (timeline.clips.filter (Clip.covers (.number t))) := by
  obtain ⟨finish, stop, hduration, hstop, chained⟩ :=
    exists_chained_of_checked checked advances track
  have hzero : (0 : Number).place? = some (.inner 0) := Number.place?_int_zero
  refine ⟨finish, hduration, ?_⟩
  have hamong : track.among (timeline.clips.filter (Clip.covers (.number t))) =
      (timeline.on track).filter (Clip.covers (.number t)) := by
    rw [← (orderly_of_checked checked).among_clips track, Track.among, Track.among,
      List.filter_comm]
  rw [Number.le_and_lt_eq_isIn hzero hstop, hamong]
  exact chained.filter_covers t

end Timeline

end Montage
