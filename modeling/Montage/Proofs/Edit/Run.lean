import Montage.Proofs.Edit.WellFormed

/-!
# Runs of edits

From a well-formed timeline that passes the check, edits with fresh names lead
to tidy and settled timelines only. Such a timeline is well-formed exactly when
no clip starts at not-a-number. While no split cuts at a sum beyond the finite
doubles, no clip does. The first split that cuts at infinity, where another clip
follows, gives that clip a start time that is no running sum.
-/

namespace Montage

namespace Edit

/-- The timelines that a run of allowed edits leads to. -/
inductive Run (allowed : Edit → Timeline → Prop) (start : Timeline) : Timeline → Prop
  /-- The empty run stays where it is. -/
  | start : Run allowed start start
  /-- One more edit returns. -/
  | step {edit : Edit} {timeline result : Timeline} (run : Run allowed start timeline)
      (permitted : allowed edit timeline) (applied : edit.apply timeline = .ok result) :
      Run allowed start result

/-- The edit has fresh names and splits no clip beyond the finite doubles. -/
def Safe (edit : Edit) (timeline : Timeline) : Prop :=
  edit.Fresh timeline ∧ ∀ spot, ¬ edit.OverflowsAt timeline spot

variable {allowed : Edit → Timeline → Prop} {start timeline result : Timeline} {edit : Edit}

/-- What holds at the start and is kept by every allowed edit holds along every
run. -/
theorem Run.induct {P : Timeline → Prop} (run : Run allowed start timeline) (base : P start)
    (kept : ∀ edit timeline result, P timeline → allowed edit timeline →
      edit.apply timeline = .ok result → P result) : P timeline := by
  induction run with
  | start => exact base
  | step _ permitted applied ih => exact kept _ _ _ ih permitted applied

/-- A run may begin with another run. -/
theorem Run.trans {middle : Timeline} (first : Run allowed start middle)
    (run : Run allowed middle timeline) : Run allowed start timeline := by
  induction run with
  | start => exact first
  | step _ permitted applied ih => exact .step ih permitted applied

/-- A run may begin with one more edit. -/
theorem Run.cons {middle : Timeline} (permitted : allowed edit start)
    (applied : edit.apply start = .ok middle) (run : Run allowed middle timeline) :
    Run allowed start timeline := (Run.start.step permitted applied).trans run

/-- The first of some edits and then the others. -/
theorem applyAll_cons (edit : Edit) (edits : List Edit) (timeline : Timeline) :
    applyAll (edit :: edits) timeline = (do applyAll edits (← edit.apply timeline)) := by
  rw [applyAll, List.foldlM_cons]
  rfl

/-- The first of some edits and then the others. -/
theorem applyAll_cons_eq_ok {edits : List Edit} :
    applyAll (edit :: edits) timeline = .ok result ↔
      ∃ next, edit.apply timeline = .ok next ∧ applyAll edits next = .ok result := by
  rw [applyAll_cons, Outcome.bind_eq_ok]

/-- Some edits and then others. -/
theorem applyAll_append_eq_ok {edits others : List Edit} :
    applyAll (edits ++ others) timeline = .ok result ↔
      ∃ next, applyAll edits timeline = .ok next ∧ applyAll others next = .ok result := by
  rw [applyAll, List.foldlM_append, Outcome.bind_eq_ok]
  rfl

/-- A single edit. -/
@[simp]
theorem applyAll_singleton (edit : Edit) (timeline : Timeline) :
    applyAll [edit] timeline = edit.apply timeline := by
  rw [applyAll_cons]
  exact bind_pure _

/-- An edit with fresh names keeps a timeline tidy. -/
theorem tidy_of_apply (tidy : timeline.Tidy) (fresh : edit.Fresh timeline)
    (h : edit.apply timeline = .ok result) : result.Tidy := by
  obtain ⟨raw, makes, laysOut⟩ := exists_makes_of_apply tidy.orderly h
  exact ⟨laysOut.apart (makes.apart fresh tidy.apart),
    laysOut.forall_on Clip.unplaced_belongsTo (makes.belongs tidy.belongs)⟩

/-- An edit with fresh names keeps a timeline orderly. -/
theorem orderly_of_apply (orderly : timeline.Orderly) (fresh : edit.Fresh timeline)
    (h : edit.apply timeline = .ok result) : result.Orderly := by
  obtain ⟨raw, makes, laysOut⟩ := exists_makes_of_apply orderly h
  exact ⟨laysOut.apart (makes.apart fresh orderly.apart),
    laysOut.forall_on (P := fun track clip => clip.track.equal track.toValue = true)
      (fun _ _ => Iff.rfl) (makes.tracks orderly.tracks)⟩

/-- An edit keeps a timeline settled. -/
theorem settled_of_apply (orderly : timeline.Orderly) (settled : timeline.Settled)
    (h : edit.apply timeline = .ok result) : result.Settled := by
  obtain ⟨raw, makes, laysOut⟩ := exists_makes_of_apply orderly h
  exact laysOut.settled settled

/-- An edit that cuts nowhere beyond the finite doubles keeps the ends of all
windows moments. -/
theorem hasMoments_of_apply (orderly : timeline.Orderly) (moments : timeline.HasMoments)
    (finite : ∀ spot, ¬ edit.OverflowsAt timeline spot) (h : edit.apply timeline = .ok result) :
    result.HasMoments := by
  obtain ⟨raw, makes, laysOut⟩ := exists_makes_of_apply orderly h
  exact laysOut.forall_on (P := fun _ => Clip.HasMoments) (fun _ _ => Iff.rfl)
    (makes.hasMoments finite moments)

/-- Runs with fresh names lead to orderly and settled timelines. -/
theorem Run.orderly_settled (orderly : start.Orderly) (settled : start.Settled)
    (run : Run Fresh start timeline) : timeline.Orderly ∧ timeline.Settled := by
  refine run.induct (P := fun timeline => timeline.Orderly ∧ timeline.Settled)
    ⟨orderly, settled⟩ ?_
  intro edit timeline result ih fresh h
  obtain ⟨orderly, settled⟩ := ih
  exact ⟨orderly_of_apply orderly fresh h, settled_of_apply orderly settled h⟩

/-- Runs without a cut at infinity lead to timelines that are made of moments,
too. -/
theorem Run.orderly_settled_hasMoments (orderly : start.Orderly) (settled : start.Settled)
    (moments : start.HasMoments) (run : Run Safe start timeline) :
    timeline.Orderly ∧ timeline.Settled ∧ timeline.HasMoments := by
  refine run.induct
    (P := fun timeline => timeline.Orderly ∧ timeline.Settled ∧ timeline.HasMoments)
    ⟨orderly, settled, moments⟩ ?_
  intro edit timeline result ih safe h
  obtain ⟨orderly, settled, moments⟩ := ih
  exact ⟨orderly_of_apply orderly safe.1 h, settled_of_apply orderly settled h,
    hasMoments_of_apply orderly moments safe.2 h⟩

/-- Runs with fresh names lead to tidy and settled timelines. -/
theorem Run.tidy_settled (wellFormed : start.WellFormed) (run : Run Fresh start timeline) :
    timeline.Tidy ∧ timeline.Settled := by
  refine run.induct (P := fun timeline => timeline.Tidy ∧ timeline.Settled)
    ⟨wellFormed.toTidy, wellFormed.settled⟩ ?_
  intro edit timeline result ih fresh h
  obtain ⟨tidy, settled⟩ := ih
  exact ⟨tidy_of_apply tidy fresh h, settled_of_apply tidy.orderly settled h⟩

/-- Runs without a cut at infinity lead to timelines that are made of moments,
too. -/
theorem Run.tidy_settled_hasMoments (wellFormed : start.WellFormed) (moments : start.HasMoments)
    (run : Run Safe start timeline) :
    timeline.Tidy ∧ timeline.Settled ∧ timeline.HasMoments := by
  refine run.induct
    (P := fun timeline => timeline.Tidy ∧ timeline.Settled ∧ timeline.HasMoments)
    ⟨wellFormed.toTidy, wellFormed.settled, moments⟩ ?_
  intro edit timeline result ih safe h
  obtain ⟨tidy, settled, moments⟩ := ih
  exact ⟨tidy_of_apply tidy safe.1 h, settled_of_apply tidy.orderly settled h,
    hasMoments_of_apply tidy.orderly moments safe.2 h⟩

end Edit

namespace Clip

/-- A window that ends at infinity is infinitely long. -/
theorem length_of_infinite_out {clip : Clip} {length : Binary64}
    (hin : clip.inTime.IsMoment) (hout : clip.outTime = .real (.infinity false))
    (h : clip.length = .ok length) : length = .infinity false := by
  obtain ⟨m, hm, hmoment⟩ := hin
  simp only [Clip.length, Outcome.bind_eq_ok, Outcome.orFault_eq_ok] at h
  obtain ⟨n, hn, hreal⟩ := h
  rw [Clip.duration, hout, Value.sub_eq_ok rfl hm] at hn
  rcases Number.combine?_eq_some hn with ⟨_, _, he, _, _⟩ | ⟨x, y, hx, hy, rfl⟩
  · cases he
  · obtain ⟨s, a, grid, rfl, _⟩ := Binary64.isMoment_iff.mp (Number.toReal?_isMoment hmoment hy)
    cases hx
    cases hreal
    rfl

/-- A window that starts at infinity is infinitely short. -/
theorem length_of_infinite_in {clip : Clip} {length : Binary64}
    (hin : clip.inTime = .real (.infinity false)) (hout : clip.outTime.IsMoment)
    (h : clip.length = .ok length) : length = .infinity true := by
  obtain ⟨m, hm, hmoment⟩ := hout
  simp only [Clip.length, Outcome.bind_eq_ok, Outcome.orFault_eq_ok] at h
  obtain ⟨n, hn, hreal⟩ := h
  rw [Clip.duration, hin, Value.sub_eq_ok hm rfl] at hn
  rcases Number.combine?_eq_some hn with ⟨_, _, _, he, _⟩ | ⟨x, y, hx, hy, rfl⟩
  · cases he
  · obtain ⟨s, a, grid, rfl, _⟩ := Binary64.isMoment_iff.mp (Number.toReal?_isMoment hmoment hx)
    cases hy
    cases hreal
    rfl

end Clip

/-- No clock is a number after an infinitely long and an infinitely short
window. -/
theorem Binary64.isNaN_add_infinities (now : Binary64) :
    ((now.add (.infinity false)).add (.infinity true)).isNaN = true := by
  cases now with
  | nan origin => rfl
  | infinity negative => cases negative <;> rfl
  | finite negative units grid => rfl

/-- Behind two halves that meet at infinity no clip starts at a running sum. -/
theorem not_laidOutFrom_of_infinite_cut {now : Binary64} {first second next : Clip}
    {after : List Clip} (hstart : first.inTime.IsMoment)
    (hfirst : first.outTime = .real (.infinity false))
    (hsecond : second.inTime = .real (.infinity false)) (hstop : second.outTime.IsMoment) :
    ¬ LaidOutFrom now (first :: second :: next :: after) := by
  rintro ⟨_, _, hl, _, _, hm, hnext, _⟩
  cases first.length_of_infinite_out hstart hfirst hl
  cases second.length_of_infinite_in hsecond hstop hm
  rw [Value.equal_comm] at hnext
  have hnumber : ((now.add (.infinity false)).add (.infinity true)).isNaN = false :=
    Value.not_isNaN_of_equal hnext
  rw [now.isNaN_add_infinities] at hnumber
  cases hnumber

namespace Edit

variable {start timeline result : Timeline} {edit : Edit}

/-- A split that cuts at infinity leaves the clip behind it without a running
sum to start at. -/
theorem not_laidOut_of_overflow (orderly : timeline.Orderly) (moments : timeline.HasMoments)
    {spot : Spot} (overflow : edit.OverflowsAt timeline spot) (follows : spot.after ≠ [])
    (h : edit.apply timeline = .ok result) : ¬ LaidOutFrom 0 (result.on spot.track) := by
  obtain ⟨id, time, first, second, rfl, found, hcut⟩ := overflow
  obtain ⟨raw, makes, laysOut⟩ := exists_makes_of_apply orderly h
  cases makes with
  | @split _ _ _ _ _ there cut found' finite inside sum =>
    cases found.unique orderly found'
    cases hcut.symm.trans sum
    obtain ⟨hstart, hstop⟩ := moments spot.track spot.clip found.mem_on
    obtain ⟨next, after, hafter⟩ := List.exists_cons_of_ne_nil follows
    intro hlaid
    -- the track is the one that was made, up to start times
    have hlists := laysOut.unplaced spot.track
    rw [Spot.fill, Timeline.on_setTrack_self, hafter, List.append_assoc] at hlists
    simp only [List.map_append, List.map_cons, List.cons_append, List.nil_append,
      List.map_eq_append_iff, List.map_eq_cons_iff] at hlists
    obtain ⟨front, _, htrack, _, one, _, rfl, hone, two, _, rfl, htwo, three, rest, rfl, _, _⟩ :=
      hlists
    rw [htrack] at hlaid
    obtain ⟨later, hlater⟩ := hlaid.of_append
    obtain ⟨hin, hcutOut⟩ := Clip.window_eq_of_unplaced hone
    obtain ⟨hcutIn, hout⟩ := Clip.window_eq_of_unplaced htwo
    refine not_laidOutFrom_of_infinite_cut ?_ hcutOut hcutIn ?_ hlater
    · rw [hin]
      exact hstart
    · rw [hout]
      exact hstop

/-- Such a split leads to a timeline that is not well-formed. -/
theorem not_wellFormed_of_overflow (tidy : timeline.Tidy) (moments : timeline.HasMoments)
    {spot : Spot} (overflow : edit.OverflowsAt timeline spot) (follows : spot.after ≠ [])
    (h : edit.apply timeline = .ok result) : ¬ result.WellFormed := by
  intro wellFormed
  exact not_laidOut_of_overflow tidy.orderly moments overflow follows h
    (wellFormed.laidOut spot.track)

/-- From a well-formed timeline that passes the check, every run of edits with
fresh names leads to tidy timelines, and these are well-formed exactly when no
clip starts at not-a-number. They all are while no split cuts at infinity; a
split that does so before another clip leads to one that is not. -/
theorem wellFormed_of_run (wellFormed : start.WellFormed)
    (checked : start.checkInvariants = .ok ()) :
    (∀ timeline, Run Fresh start timeline → timeline.Tidy ∧
      (timeline.WellFormed ↔ ∀ clip ∈ timeline.clips, clip.startTime.isNaN = false)) ∧
    (∀ timeline, Run Safe start timeline → timeline.WellFormed) ∧
    ∀ (timeline : Timeline) (edit : Edit) (spot : Spot) (result : Timeline),
      Run Safe start timeline → edit.OverflowsAt timeline spot → spot.after ≠ [] →
      edit.apply timeline = .ok result → ¬ result.WellFormed := by
  have moments := Timeline.hasMoments_of_checked checked
  refine ⟨?_, ?_, ?_⟩
  · intro timeline run
    obtain ⟨tidy, settled⟩ := run.tidy_settled wellFormed
    exact ⟨tidy, tidy.wellFormed_iff settled⟩
  · intro timeline run
    obtain ⟨tidy, settled, moments⟩ := run.tidy_settled_hasMoments wellFormed moments
    exact tidy.wellFormed settled moments
  · intro timeline edit spot result run overflow follows h
    obtain ⟨tidy, _, moments⟩ := run.tidy_settled_hasMoments wellFormed moments
    exact not_wellFormed_of_overflow tidy moments overflow follows h

/-- Changing the order of the pair is a run, and the clips that have changed
places start at the new running sums. -/
theorem wellFormed_of_reordered_pair : ∃ result,
    (Edit.reorder (.text "b") (.int 0)).apply pair = .ok result ∧ result.WellFormed := by
  obtain ⟨result, h⟩ : ∃ result, (Edit.reorder (.text "b") (.int 0)).apply pair = .ok result :=
    Outcome.exists_of_isOk (by decide +kernel)
  have safe : Safe (.reorder (.text "b") (.int 0)) pair := by
    refine ⟨⟨.nil, by simp [newIds]⟩, ?_⟩
    rintro spot ⟨_, _, _, _, hsplit, _⟩
    cases hsplit
  exact ⟨result, h, (wellFormed_of_run pair_wellFormed pair_checked).2.1 result (.step .start safe h)⟩

/-- A clip that is nearly as long as the largest double. It starts late enough
in its source for a sum to overflow. -/
def endlessClip : Clip :=
  .plain (.text "a") ⟨.text "a.mp4", .real (.ofNat ((2 ^ 53 - 1) * 2 ^ 971)), .null, .null⟩
    (.real (.ofNat (3 * 2 ^ 970))) (.real (.ofNat ((2 ^ 53 - 1) * 2 ^ 971))) (.int 0)

/-- A short clip behind the endless one. -/
def lateClip : Clip :=
  { Clip.plain (.text "b") ⟨.text "b.mp4", .int 5, .null, .null⟩ (.int 0) (.int 5) (.int 0) with
    startTime := .real (.ofNat ((2 ^ 53 - 2) * 2 ^ 971)) }

/-- The two clips on the main track. -/
def endless : Timeline := ⟨[endlessClip, lateClip], []⟩

/-- A split of the endless clip at its end, which passes all checks. -/
def endlessSplit : Edit :=
  .split (.text "a") (.real (.ofNat ((2 ^ 53 - 2) * 2 ^ 971))) (.text "c") (.text "d")

/-- The endless clip and the one behind it are well-formed. -/
theorem endless_wellFormed : endless.WellFormed := by decide +kernel

/-- The endless clip and the one behind it pass the check. -/
theorem endless_checked : endless.checkInvariants = .ok () :=
  Outcome.eq_ok_of_isOk (by decide +kernel)

/-- Whatever the halves are named, the endless clip is cut at infinity. -/
theorem endless_overflowsAt (first second : Value) :
    (Edit.split (.text "a") (.real (.ofNat ((2 ^ 53 - 2) * 2 ^ 971))) first second).OverflowsAt
      endless ⟨.main, [], endlessClip, [lateClip]⟩ := by
  refine ⟨_, _, _, _, rfl, ⟨rfl, by decide⟩, ?_⟩
  exact (Value.add_eq_ok rfl rfl).mpr (by decide +kernel)

/-- A well-formed and checked timeline that an edit with fresh names turns into
one that is not well-formed. -/
theorem not_wellFormed_of_endlessSplit :
    endless.WellFormed ∧ endless.checkInvariants = .ok () ∧ endlessSplit.Fresh endless ∧
      ∃ result, endlessSplit.apply endless = .ok result ∧ ¬ result.WellFormed := by
  obtain ⟨result, h⟩ : ∃ result, endlessSplit.apply endless = .ok result :=
    Outcome.exists_of_isOk (by decide +kernel)
  exact ⟨endless_wellFormed, endless_checked, by decide +kernel, result, h,
    not_wellFormed_of_overflow endless_wellFormed.toTidy
      (Timeline.hasMoments_of_checked endless_checked) (endless_overflowsAt _ _)
      (List.cons_ne_nil _ _) h⟩

end Edit

end Montage
