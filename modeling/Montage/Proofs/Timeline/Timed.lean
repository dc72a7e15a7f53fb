import Montage.Proofs.Timeline.Faults
import Montage.Proofs.Timeline.Integrity

/-!
# Windows made of times

On a timeline that passes the check the ends of all windows are moments with
doubles. A cut may put an end at infinity, or at an integer that is too large for a
double. What lies between two times that have doubles has a double, so the only
numbers that get in the way of layout are ends of the second sort.
-/

namespace Montage

open Outcome

namespace Number

variable {m n c : Number}

/-- The number is a moment or plus infinity. -/
def IsTime (n : Number) : Prop := n.IsMoment ∨ n = .real (.infinity false)

/-- A time to which a moment is added is a time. -/
theorem IsTime.add? (hm : m.IsTime) (hn : n.IsMoment) (h : m.add? n = some c) : c.IsTime := by
  rcases hm with hm | rfl
  · exact add?_moments hm hn h
  · rcases combine?_eq_some h with ⟨_, _, hint, _, _⟩ | ⟨x, y, hx, hy, rfl⟩
    · cases hint
    · cases hx
      rcases Binary64.IsTime.add (.inr rfl) (toReal?_isMoment hn hy) with hmoment | hinfinite
      · exact .inl hmoment
      · exact .inr (congrArg Number.real hinfinite)

/-- The difference of times that have doubles has a double. -/
theorem IsTime.toReal?_sub?_isSome (hm : m.IsTime) (hn : n.IsTime) (hreal : m.toReal?.isSome = true)
    (hreal' : n.toReal?.isSome = true) (h : m.sub? n = some c) : c.toReal?.isSome = true := by
  rcases combine?_eq_some h with ⟨j, k, rfl, rfl, rfl⟩ | ⟨x, y, _, _, rfl⟩
  · have hj : 0 ≤ j := isMoment_int.mp (hm.resolve_right fun h => by cases h)
    have hk : 0 ≤ k := isMoment_int.mp (hn.resolve_right fun h => by cases h)
    -- the difference is not larger than the larger one
    rcases le_total j k with hle | hle
    · exact toReal?_int_isSome_of_natAbs_le (by omega) hreal'
    · exact toReal?_int_isSome_of_natAbs_le (by omega) hreal
  · rfl

end Number

namespace Value

/-- The value counts as a moment or as plus infinity. -/
def IsTime (value : Value) : Prop := ∃ n, value.number? = some n ∧ n.IsTime

/-- A moment is a time. -/
theorem IsMoment.isTime {value : Value} (h : value.IsMoment) : value.IsTime := by
  obtain ⟨n, hn, hmoment⟩ := h
  exact ⟨n, hn, .inl hmoment⟩

/-- A time to which a moment is added is a time. -/
theorem IsTime.add {a b : Value} {c : Number} (ha : a.IsTime) (hb : b.IsMoment)
    (h : a.add b = .ok c) : (number c).IsTime := by
  obtain ⟨m, hm, htime⟩ := ha
  obtain ⟨n, hn, hmoment⟩ := hb
  exact ⟨c, rfl, htime.add? hmoment ((add_eq_ok hm hn).mp h)⟩

/-- A finite number has a double. -/
theorem not_isBeyond_of_isFinite {value : Value} (h : value.isFinite = .ok true) :
    ¬ value.IsBeyond := by
  rintro ⟨n, hn, hnone⟩
  obtain ⟨m, _, rfl, _⟩ := isFinite_eq_true h
  cases hn
  obtain ⟨x, hx⟩ := Number.exists_toReal? (orFault_eq_ok.mp h)
  rw [hnone] at hx
  cases hx

/-- What equals something with a double has one. -/
theorem not_isBeyond_of_equal {a b : Value} (h : a.equal b = true) (hb : ¬ b.IsBeyond) :
    ¬ a.IsBeyond := by
  rintro ⟨m, hm, hnone⟩
  obtain ⟨n, hn, he⟩ := exists_number_of_equal (by rwa [equal_comm]) hm
  have hreal := toReal?_isSome_of_number? hn hb
  cases n with
  | real x =>
    have hsome := Number.toReal?_isSome_of_equal (n := m) (by rwa [Number.equal_comm])
    rw [hnone] at hsome
    cases hsome
  | int k =>
    cases m with
    | real y => cases hnone
    | int j =>
      rw [Number.equal_int, decide_eq_true_eq] at he
      rw [he, hnone] at hreal
      cases hreal

/-- Null is no integer. -/
theorem not_isBeyond_null : ¬ null.IsBeyond := by
  rintro ⟨_, hn, _⟩
  cases hn

/-- A double has a double. -/
theorem not_isBeyond_real (x : Binary64) : ¬ (real x).IsBeyond := by
  rintro ⟨_, hn, hnone⟩
  cases hn
  cases hnone

end Value

namespace Clip

variable {P : Fault → Prop} {clip : Clip}

/-- An end of the window is an integer that is too large for a double. -/
def IsBeyond (clip : Clip) : Prop := clip.inTime.IsBeyond ∨ clip.outTime.IsBeyond

/-- No end of the window of a valid clip is. -/
theorem not_isBeyond_of_validate (h : clip.validate = .ok ()) : ¬ clip.IsBeyond :=
  not_or.mpr ⟨Value.not_isBeyond_of_isFinite (validate_eq_ok.mp h).1,
    Value.not_isBeyond_of_isFinite (validate_eq_ok.mp h).2.1⟩

/-- The ends of the window are times, and the length of the source is no integer that
is too large for a double. -/
def Timed (clip : Clip) : Prop :=
  clip.inTime.IsTime ∧ clip.outTime.IsTime ∧ ¬ clip.source.duration.IsBeyond

/-- The window of a valid clip is made of times. -/
theorem timed_of_validate (h : clip.validate = .ok ()) : clip.Timed :=
  ⟨(hasMoments_of_validate h).1.isTime, (hasMoments_of_validate h).2.isTime,
    Value.not_isBeyond_of_isFinite (validate_eq_ok.mp h).2.2.2.2.1⟩

/-- The duration of a clip whose window is made of times can be told unless an end of it
is too large for a double. -/
theorem Timed.faults_duration (timed : clip.Timed) (large : clip.IsBeyond → P .tooLarge) :
    Faults P clip.duration := by
  obtain ⟨⟨_, hstart, _⟩, ⟨_, hstop, _⟩, _⟩ := timed
  refine Value.faults_combine (fun hnone => ?_) fun beyond => large beyond.symm
  rw [hstart, hstop] at hnone
  rcases hnone with hnone | hnone <;> cases hnone

/-- The duration has a double then. -/
theorem Timed.duration_toReal?_isSome (timed : clip.Timed) (h : ¬ clip.IsBeyond) {n : Number}
    (hn : clip.duration = .ok n) : n.toReal?.isSome = true := by
  obtain ⟨⟨k, hk, hstart⟩, ⟨m, hm, hstop⟩, _⟩ := timed
  obtain ⟨hin, hout⟩ := not_or.mp h
  exact hstop.toReal?_sub?_isSome hstart (Value.toReal?_isSome_of_number? hm hout)
    (Value.toReal?_isSome_of_number? hk hin) ((Value.sub_eq_ok hm hk).mp hn)

/-- The window of the clip is made of times, and `P` admits what may come of an end
that is too large for a double. -/
def Admitted (P : Fault → Prop) (clip : Clip) : Prop :=
  clip.Timed ∧ (clip.IsBeyond → P .tooLarge)

/-- The length of such a clip can be taken. -/
theorem Admitted.faults_length (admitted : clip.Admitted P) : Faults P clip.length := by
  obtain ⟨timed, large⟩ := admitted
  refine (timed.faults_duration large).bind fun n hn => ?_
  by_cases beyond : clip.IsBeyond
  · exact faults_orFault (large beyond) _
  · obtain ⟨x, hx⟩ := Option.isSome_iff_exists.mp (timed.duration_toReal?_isSome beyond hn)
    rw [hx]
    exact faults_ok x

end Clip

/-- An end of the window of a clip of the list is too large for a double. -/
def HasBeyond (clips : List Clip) : Prop := ∃ clip ∈ clips, clip.IsBeyond

namespace Timeline

variable {P : Fault → Prop} {timeline : Timeline}

/-- The windows of all clips are made of times. -/
def Timed (timeline : Timeline) : Prop := ∀ clip ∈ timeline.clips, clip.Timed

/-- On a timeline that passes the check all windows are made of times. -/
theorem timed_of_checked (checked : timeline.checkInvariants = .ok ()) : timeline.Timed :=
  fun clip hclip => Clip.timed_of_validate (validate_of_checked checked clip hclip)

/-- All clips are admitted. -/
def Admitted (P : Fault → Prop) (timeline : Timeline) : Prop :=
  ∀ clip ∈ timeline.clips, clip.Admitted P

/-- Windows that are made of times are admitted by what admits an end that is too
large for a double. -/
theorem Timed.admitted (timed : timeline.Timed)
    (large : HasBeyond timeline.clips → P .tooLarge) : timeline.Admitted P :=
  fun clip hclip => ⟨timed clip hclip, fun beyond => large ⟨clip, hclip, beyond⟩⟩

/-- The clips of a timeline that passes the check are admitted. -/
theorem admitted_of_checked (checked : timeline.checkInvariants = .ok ()) :
    timeline.Admitted P := by
  refine (timed_of_checked checked).admitted ?_
  rintro ⟨clip, hclip, beyond⟩
  exact absurd beyond (Clip.not_isBeyond_of_validate (validate_of_checked checked clip hclip))

/-- On a timeline with admitted clips all windows are made of times. -/
theorem Admitted.timed (admitted : timeline.Admitted P) : timeline.Timed :=
  fun clip hclip => (admitted clip hclip).1

end Timeline

end Montage
