import Montage.Proofs.Number.Range
import Montage.Proofs.Project.RoundTrip
import Montage.Proofs.Sorting.Contents

/-!
# Faults of reading a timeline

A document that is no timeline is turned down, or a part of it is missing or of
an unsuitable kind. Only two faults are of another sort: a position or a size
that is neither empty nor a record has no members, and an integer can be too
large for the doubles that clocks run on.
-/

namespace Montage

open Outcome

/-- The fault says that something was turned down, is missing or is of an
unsuitable kind. -/
def Fault.IsPlain : Fault → Prop
  | .rejected _ => True
  | .missingField _ => True
  | .illTyped => True
  | _ => False

/-- The fault is plain or, only under a condition, a special one. -/
def Fault.PlainOr (special : Fault) (condition : Prop) (fault : Fault) : Prop :=
  fault.IsPlain ∨ fault = special ∧ condition

variable {α : Type} {special : Fault} {condition weaker : Prop}

/-- Where plain faults are allowed, all faults are that a plain operation ends
in. -/
theorem Outcome.Faults.plainOr {x : Outcome α} (h : Faults Fault.IsPlain x) :
    Faults (Fault.PlainOr special condition) x := h.mono fun _ => .inl

/-- The condition of the special fault may be weakened. -/
theorem Outcome.Faults.weaken {x : Outcome α} (h : Faults (Fault.PlainOr special condition) x)
    (hweaker : condition → weaker) : Faults (Fault.PlainOr special weaker) x :=
  h.mono fun _ hfault => hfault.imp id fun hspecial => ⟨hspecial.1, hweaker hspecial.2⟩

/-! ## Values -/

namespace Value

/-- Asking for the field of a record fails plainly. -/
theorem faults_require (value : Value) (name : Text) :
    Faults Fault.IsPlain (value.require name) := by
  unfold require
  split
  · exact faults_orFault trivial _
  · exact faults_error trivial

/-- Only records have members. -/
theorem faults_lookup (value : Value) (name : Text) (default : Value) :
    Faults (Fault.PlainOr .noMembers (∀ fields, value ≠ .record fields))
      (value.lookup name default) := by
  unfold lookup
  split
  · exact faults_ok _
  · next hnot => exact faults_error (.inr ⟨rfl, hnot⟩)

/-- Going through a value fails plainly. -/
theorem faults_elements (value : Value) : Faults Fault.IsPlain value.elements := by
  unfold elements
  split
  · exact faults_ok _
  · exact faults_ok _
  · exact faults_ok _
  · exact faults_error trivial

variable {P : Fault → Prop}

mutual

/-- Comparing values fails for their kinds only. -/
theorem faults_inOrder (kind : P .illTyped) (order : Ordering) : (a b : Value) →
    Faults P (inOrder order a b)
  | .text s, b => by
    cases b <;> first | exact faults_ok _ | exact faults_error kind
  | .list items, b => by
    cases b with
    | list others => exact faults_listsInOrder kind order items others
    | _ => exact faults_error kind
  | .null, b => faults_error kind
  | .bool s, b => by
    unfold inOrder
    split
    · exact faults_ok _
    · exact faults_error kind
  | .number m, b => by
    unfold inOrder
    split
    · exact faults_ok _
    · exact faults_error kind
  | .record fields, b => faults_error kind

/-- Comparing lists fails for the kinds of their items only. -/
theorem faults_listsInOrder (kind : P .illTyped) (order : Ordering) : (items others : List Value) →
    Faults P (listsInOrder order items others)
  | [], _ => faults_ok _
  | _ :: _, [] => faults_ok _
  | item :: items, other :: others =>
    faults_ite (fun _ => faults_listsInOrder kind order items others)
      fun _ => faults_inOrder kind order item other

end

/-- What cannot name anything is refused for its kind. -/
theorem faults_checkKey {value : Value} (kind : value.isKey = false → P .illTyped) :
    Faults P value.checkKey :=
  faults_ite (fun _ => faults_ok _) fun h => faults_error (kind (Bool.eq_false_of_not_eq_true h))

/-- Looking for repeats fails for values only that cannot name anything. -/
theorem faults_hasRepeats {values : List Value}
    (kind : (∃ value ∈ values, value.isKey = false) → P .illTyped) :
    Faults P (hasRepeats values) := by
  induction values with
  | nil => exact faults_ok false
  | cons value values ih =>
    refine (faults_checkKey fun h => kind ⟨value, List.mem_cons_self, h⟩).bind fun _ _ => ?_
    refine (ih fun ⟨other, hother, h⟩ => ?_).bind fun _ _ => faults_pure _
    exact kind ⟨other, List.mem_cons_of_mem value hother, h⟩

end Value

/-! ## Integers too large for a double -/

namespace Value

variable {P : Fault → Prop}

/-- The value is an integer of huge magnitude. -/
def IsHuge (value : Value) : Prop := ∃ k : Int, value = .int k ∧ hugeInteger ≤ k.natAbs

/-- What counts as a huge number is one. -/
theorem isHuge_of_number? {value : Value} {n : Number} (hn : value.number? = some n)
    (huge : n.IsHuge) : value.IsHuge := by
  obtain ⟨k, rfl, hk⟩ := huge
  cases value with
  | number m =>
    cases hn
    exact ⟨k, rfl, hk⟩
  | bool b =>
    cases hn
    have hsmall : ¬ hugeInteger ≤ ((if b = true then 1 else 0 : Int)).natAbs := by
      cases b <;> decide +kernel
    exact absurd hk hsmall
  | _ => cases hn

/-- The value counts as an integer that is too large for a double. -/
def IsBeyond (value : Value) : Prop := ∃ n, value.number? = some n ∧ n.toReal? = none

/-- What counts as a number that is not too large has a double. -/
theorem toReal?_isSome_of_number? {value : Value} {n : Number} (hn : value.number? = some n)
    (h : ¬ value.IsBeyond) : n.toReal?.isSome = true :=
  Option.isSome_iff_ne_none.mpr fun hnone => h ⟨n, hn, hnone⟩

/-- Only huge integers are too large. -/
theorem IsBeyond.isHuge {value : Value} (beyond : value.IsBeyond) : value.IsHuge := by
  obtain ⟨n, hn, hnone⟩ := beyond
  by_contra hnot
  have hsome := Number.toReal?_isSome fun huge => hnot (isHuge_of_number? hn huge)
  rw [hnone] at hsome
  cases hsome

/-- Whether a value is finite can be told unless it is too large for a double. -/
theorem faults_isFinite_of {value : Value} (large : value.IsBeyond → P .tooLarge) :
    Faults P value.isFinite := by
  cases value with
  | number n =>
    by_cases beyond : (number n).IsBeyond
    · exact faults_orFault (large beyond) _
    · obtain ⟨finite, hfinite⟩ := Option.isSome_iff_exists.mp
        (Number.isFinite?_isSome (toReal?_isSome_of_number? rfl beyond))
      rw [isFinite, hfinite]
      exact faults_ok finite
  | _ => exact faults_ok false

/-- Whether a value is finite can be told unless it is huge. -/
theorem faults_isFinite {value : Value} (large : value.IsHuge → P .tooLarge) :
    Faults P value.isFinite := faults_isFinite_of fun beyond => large beyond.isHuge

/-- Numbers are combined unless one of them has no double. -/
theorem faults_arithmetic {exact : Int → Int → Int} {rounded : Binary64 → Binary64 → Binary64}
    {a b : Value} (kind : a.number? = none ∨ b.number? = none → P .illTyped)
    (h : ∀ m n, a.number? = some m → b.number? = some n →
      (m.toReal?.isSome = true ∧ n.toReal?.isSome = true) ∨ P .tooLarge) :
    Faults P (arithmetic (Number.combine? exact rounded) a b) := by
  unfold arithmetic
  split
  · next m n hm hn =>
    rcases h m n hm hn with ⟨hreal, hreal'⟩ | large
    · obtain ⟨c, hc⟩ := Option.isSome_iff_exists.mp (Number.combine?_isSome hreal hreal')
      rw [hc]
      exact faults_ok c
    · exact faults_orFault large _
  · next hnone =>
    refine faults_error (kind ?_)
    by_contra hboth
    rw [not_or] at hboth
    obtain ⟨m, hm⟩ := Option.ne_none_iff_exists'.mp hboth.1
    obtain ⟨n, hn⟩ := Option.ne_none_iff_exists'.mp hboth.2
    exact hnone m n hm hn

/-- Two values are combined unless one of them is too large for a double. -/
theorem faults_combine {exact : Int → Int → Int} {rounded : Binary64 → Binary64 → Binary64}
    {a b : Value} (kind : a.number? = none ∨ b.number? = none → P .illTyped)
    (large : a.IsBeyond ∨ b.IsBeyond → P .tooLarge) :
    Faults P (arithmetic (Number.combine? exact rounded) a b) := by
  refine faults_arithmetic kind fun m n hm hn => ?_
  by_cases beyond : a.IsBeyond ∨ b.IsBeyond
  · exact .inr (large beyond)
  · obtain ⟨ha, hb⟩ := not_or.mp beyond
    exact .inl ⟨toReal?_isSome_of_number? hm ha, toReal?_isSome_of_number? hn hb⟩

/-- Two values are subtracted unless one of them is huge. -/
theorem faults_sub {a b : Value} (kind : a.number? = none ∨ b.number? = none → P .illTyped)
    (large : a.IsHuge ∨ b.IsHuge → P .tooLarge) : Faults P (a.sub b) :=
  faults_combine kind fun beyond => large (beyond.imp IsBeyond.isHuge IsBeyond.isHuge)

/-- A number is added to a value unless either has no double. -/
theorem faults_add {a : Value} {n : Number} (kind : a.number? = none → P .illTyped)
    (ha : ∀ m, a.number? = some m → m.toReal?.isSome = true ∨ P .tooLarge)
    (hn : n.toReal?.isSome = true ∨ P .tooLarge) : Faults P (a.add (.number n)) := by
  refine faults_arithmetic (fun h => kind (h.resolve_right nofun)) fun m _ hm hn' => ?_
  cases hn'
  rcases ha m hm with hreal | large
  · exact hn.imp (fun hreal' => ⟨hreal, hreal'⟩) id
  · exact .inr large

end Value

/-! ## Clips and tracks -/

namespace Clip

variable {P : Fault → Prop} {clip : Clip}

/-- An integer of huge magnitude stands among the trim points of the clip or is
the length of its source. -/
def IsOversized (clip : Clip) : Prop :=
  clip.inTime.IsHuge ∨ clip.outTime.IsHuge ∨ clip.source.duration.IsHuge

/-- The place of a clip does not matter for that. -/
theorem isOversized_unplaced (clip : Clip) : clip.unplaced.IsOversized ↔ clip.IsOversized :=
  Iff.rfl

/-- The duration of a clip can be told unless the clip is oversized. -/
theorem faults_duration (kind : P .illTyped) (large : clip.IsOversized → P .tooLarge) :
    Faults P clip.duration :=
  Value.faults_sub (fun _ => kind) fun huge => large (huge.elim (fun hout => .inr (.inl hout)) .inl)

/-- The duration of a clip that is not oversized has a double. -/
theorem duration_toReal?_isSome (h : ¬ clip.IsOversized) {n : Number}
    (hn : clip.duration = .ok n) : n.toReal?.isSome = true := by
  unfold duration Value.sub Value.arithmetic at hn
  split at hn
  · next j k hj hk =>
    exact Number.toReal?_sub?_isSome
      (fun huge => h (.inr (.inl (Value.isHuge_of_number? hj huge))))
      (fun huge => h (.inl (Value.isHuge_of_number? hk huge))) (orFault_eq_ok.mp hn)
  · cases hn

/-- The length of a clip can be taken unless the clip is oversized. -/
theorem faults_length (kind : P .illTyped) (large : clip.IsOversized → P .tooLarge) :
    Faults P clip.length := by
  refine (faults_duration kind large).bind fun n hn => ?_
  by_cases oversized : clip.IsOversized
  · exact faults_orFault (large oversized) _
  · obtain ⟨x, hx⟩ := Option.isSome_iff_exists.mp (duration_toReal?_isSome oversized hn)
    rw [hx]
    exact faults_ok x

/-- The validation of a clip turns it down or ends in a fault of its own if it is
oversized. -/
theorem faults_validate_of (rejected : ∀ why, P (.rejected why))
    (large : clip.IsOversized → P .tooLarge) : Faults P clip.validate := by
  refine (Value.faults_isFinite fun huge => large (.inl huge)).bind fun _ hin => ?_
  refine faults_demand (rejected _) fun finite => ?_
  obtain ⟨m, _, hm, _⟩ := Value.isFinite_eq_true (finite ▸ hin)
  refine (Value.faults_isFinite fun huge => large (.inr (.inl huge))).bind fun _ hout => ?_
  refine faults_demand (rejected _) fun finite => ?_
  obtain ⟨n, _, hn, _⟩ := Value.isFinite_eq_true (finite ▸ hout)
  have hwindow : Faults P (clip.outTime.le clip.inTime) := by
    rw [hm, hn]
    exact faults_ok _
  have hbegin : Faults P (clip.inTime.lt (.int 0)) := by
    rw [hm]
    exact faults_ok _
  refine hwindow.bind fun _ _ => (faults_rejectIf (rejected _) _).bind fun _ _ => ?_
  refine hbegin.bind fun _ _ => (faults_rejectIf (rejected _) _).bind fun _ _ => ?_
  refine (Value.faults_isFinite fun huge => large (.inr (.inr huge))).bind fun _ hsource => ?_
  refine faults_demand (rejected _) fun finite => ?_
  obtain ⟨d, _, hd, _⟩ := Value.isFinite_eq_true (finite ▸ hsource)
  have hlast : Faults P (clip.source.duration.add (.real timeTolerance)) := by
    refine Value.faults_add (fun hnone => ?_) (fun m hm => ?_) (.inl rfl)
    · rw [hd] at hnone
      cases hnone
    · by_cases huge : m.IsHuge
      · exact .inr (large (.inr (.inr (Value.isHuge_of_number? hm huge))))
      · exact .inl (Number.toReal?_isSome huge)
  have hend (last : Number) : Faults P ((Value.number last).lt clip.outTime) := by
    rw [hn]
    exact faults_ok _
  have hlength : Faults P clip.duration := by
    refine Value.faults_sub (fun hnone => ?_) fun huge =>
      large (huge.elim (fun hout => .inr (.inl hout)) .inl)
    rw [hm, hn] at hnone
    rcases hnone with hnone | hnone <;> cases hnone
  refine hlast.bind fun last _ => (hend last).bind fun _ _ => ?_
  refine (faults_rejectIf (rejected _) _).bind fun _ _ => ?_
  refine hlength.bind fun _ _ => Faults.bind (faults_ok _) fun _ _ => ?_
  refine (faults_rejectIf (rejected _) _).bind fun _ _ => ?_
  exact faults_rejectIf (rejected _) _

/-- A clip can be validated unless it is oversized. -/
theorem faults_validate (clip : Clip) :
    Faults (Fault.PlainOr .tooLarge clip.IsOversized) clip.validate :=
  faults_validate_of (fun _ => .inl trivial) fun oversized => .inr ⟨rfl, oversized⟩

/-- The start time of the clip, if it is a number, has a double. -/
def StartsOnClock (clip : Clip) : Prop :=
  ∀ m, clip.startTime.number? = some m → m.toReal?.isSome = true

/-- A clip that was placed starts on the clock. -/
theorem startsOnClock_startingAt (clip : Clip) (now : Binary64) :
    (clip.startingAt now).StartsOnClock := by
  intro m hm
  unfold startingAt at hm
  split at hm
  · next he =>
    obtain ⟨n, hn, he⟩ := Value.exists_number_of_equal he rfl
    cases hn.symm.trans hm
    exact Number.toReal?_isSome_of_equal he
  · cases hm
    rfl

/-- The end of a clip on the clock can be told unless the clip is oversized. -/
theorem faults_timelineEnd (kind : P .illTyped) (large : clip.IsOversized → P .tooLarge)
    (clock : clip.StartsOnClock) : Faults P clip.timelineEnd := by
  refine (faults_duration kind large).bind fun n hn => ?_
  refine Value.faults_add (fun _ => kind) (fun m hm => .inl (clock m hm)) ?_
  by_cases oversized : clip.IsOversized
  · exact .inr (large oversized)
  · exact .inl (duration_toReal?_isSome oversized hn)

end Clip

/-- A value names a track unless it is turned down. -/
theorem Track.faults_ofValue {P : Fault → Prop} {value : Value}
    (unknown : P (.rejected (.unknownTrack value))) : Faults P (Track.ofValue value) :=
  faults_ite (fun _ => faults_ok _) fun _ =>
    faults_ite (fun _ => faults_ok _) fun _ => faults_error unknown

/-- A clip of the list is oversized. -/
def HasOversized (clips : List Clip) : Prop := ∃ clip ∈ clips, clip.IsOversized

/-- An oversized clip is one of a longer list. -/
theorem HasOversized.subset {clips others : List Clip} (h : HasOversized clips)
    (hsub : ∀ clip ∈ clips, clip ∈ others) : HasOversized others := by
  obtain ⟨clip, hclip, oversized⟩ := h
  exact ⟨clip, hsub clip hclip, oversized⟩

/-- An oversized first clip is one of the list. -/
theorem hasOversized_cons {clip : Clip} (clips : List Clip) (h : clip.IsOversized) :
    HasOversized (clip :: clips) := ⟨clip, List.mem_cons_self, h⟩

/-- Clips can be laid out if their lengths can be taken. -/
theorem faults_layoutFrom_of {P : Fault → Prop} {clips : List Clip}
    (h : ∀ clip ∈ clips, Faults P clip.length) (now : Binary64) :
    Faults P (layoutFrom now clips) := by
  induction clips generalizing now with
  | nil => exact faults_ok []
  | cons clip clips ih =>
    rw [layoutFrom_cons]
    refine (h clip List.mem_cons_self).bind fun length _ => ?_
    refine (ih (fun other hother => ?_) _).bind fun rest _ => faults_pure _
    exact h other (List.mem_cons_of_mem clip hother)

/-- Clips can be laid out unless one of them is oversized. -/
theorem faults_layoutFrom {P : Fault → Prop} (kind : P .illTyped) {clips : List Clip}
    (large : HasOversized clips → P .tooLarge) (now : Binary64) :
    Faults P (layoutFrom now clips) :=
  faults_layoutFrom_of (fun clip hclip => Clip.faults_length kind fun oversized =>
    large ⟨clip, hclip, oversized⟩) now

/-- Clips that were laid out start on the clock. -/
theorem startsOnClock_of_layoutFrom {now : Binary64} {clips laid : List Clip}
    (h : layoutFrom now clips = .ok laid) : ∀ clip ∈ laid, clip.StartsOnClock := by
  induction clips generalizing now laid with
  | nil =>
    cases h
    simp
  | cons clip clips ih =>
    obtain ⟨length, rest, _, hrest, rfl⟩ := layoutFrom_cons_eq_ok.mp h
    intro other hother
    rcases List.mem_cons.mp hother with rfl | hother
    · exact clip.startsOnClock_startingAt now
    · exact ih hrest other hother

/-- Layout makes no clip oversized. -/
theorem hasOversized_of_layoutFrom {now : Binary64} {clips laid : List Clip}
    (h : layoutFrom now clips = .ok laid) (oversized : HasOversized laid) :
    HasOversized clips := by
  by_contra hnone
  have hall : ∀ clip ∈ clips, ¬ clip.IsOversized := fun clip hclip ho => hnone ⟨clip, hclip, ho⟩
  obtain ⟨clip, hclip, ho⟩ := oversized
  exact Clip.forall_of_unplaced (fun other => not_congr other.isOversized_unplaced)
    (layoutFrom_unplaced h) hall clip hclip ho

/-- Entries are sorted unless their keys are of unsuitable kinds. -/
theorem Keyed.faults_sort {P : Fault → Prop} (kind : P .illTyped) (entries : List (Keyed α)) :
    Faults P (Keyed.sort entries) :=
  faults_ite (fun _ => faults_ok _) fun _ =>
    Sorting.faults_sort (fun _ _ => Value.faults_inOrder kind _ _ _) _

/-- Clips are sorted unless their keys are of unsuitable kinds. -/
theorem faults_sortOn {P : Fault → Prop} (kind : P .illTyped) (key : Clip → Value)
    (clips : List Clip) : Faults P (sortOn key clips) :=
  (Keyed.faults_sort kind _).bind fun _ _ => faults_pure _

namespace Timeline

/-- A track can be checked unless one of its clips is oversized. -/
theorem faults_checkTrack (track : Track) (seen : List Value) (start : Value)
    {clips : List Clip} (clock : ∀ clip ∈ clips, clip.StartsOnClock) :
    Faults (Fault.PlainOr .tooLarge (HasOversized clips))
      (checkTrack track seen start clips) := by
  induction clips generalizing seen start with
  | nil => exact faults_ok seen
  | cons clip clips ih =>
    have hrejected (why : Rejection) :
        Fault.PlainOr .tooLarge (HasOversized (clip :: clips)) (.rejected why) := .inl trivial
    have hend : Faults (Fault.PlainOr .tooLarge (HasOversized (clip :: clips)))
        clip.timelineEnd :=
      Clip.faults_timelineEnd (.inl trivial)
        (fun oversized => .inr ⟨rfl, hasOversized_cons clips oversized⟩)
        (clock clip List.mem_cons_self)
    refine (Value.faults_checkKey fun _ => .inl trivial).bind fun _ _ => ?_
    refine (faults_rejectIf (hrejected _) _).bind fun _ _ => ?_
    refine (faults_rejectIf (hrejected _) _).bind fun _ _ => ?_
    refine (clip.faults_validate.weaken (hasOversized_cons clips)).bind fun _ _ => ?_
    refine (faults_rejectIf (hrejected _) _).bind fun _ _ => ?_
    refine (Value.faults_hasRepeats fun _ => .inl trivial).bind fun _ _ => ?_
    refine (faults_rejectIf (hrejected _) _).bind fun _ _ => ?_
    refine hend.bind fun _ _ => ?_
    refine (ih _ _ fun other hother => clock other (List.mem_cons_of_mem clip hother)).weaken ?_
    exact fun h => h.subset fun _ => List.mem_cons_of_mem clip

/-- The clips of both tracks. -/
def Grouped.clips (groups : Grouped) : List Clip := groups.main ++ groups.overlay

/-- Grouped clips can be made into a timeline unless one of them is oversized. -/
theorem faults_ofGrouped (groups : Grouped) :
    Faults (Fault.PlainOr .tooLarge (HasOversized groups.clips)) (ofGrouped groups) := by
  have hmain : ∀ clip ∈ groups.main, clip ∈ groups.clips := fun _ => List.mem_append_left _
  have hoverlay : ∀ clip ∈ groups.overlay, clip ∈ groups.clips := fun _ => List.mem_append_right _
  have hlarge (h : HasOversized groups.clips) :
      Fault.PlainOr .tooLarge (HasOversized groups.clips) .tooLarge := .inr ⟨rfl, h⟩
  refine (faults_sortOn (.inl trivial) _ _).bind fun sorted hsorted => ?_
  have hsorted := fun clip => (perm_of_sortOn hsorted).subset (a := clip)
  have hmain (h : HasOversized sorted) : HasOversized groups.clips :=
    (h.subset hsorted).subset hmain
  refine (faults_layoutFrom (.inl trivial) (fun h => hlarge (hmain h)) 0).bind
    fun main hlaid => ?_
  refine (faults_sortOn (.inl trivial) _ _).bind fun sorted' hsorted' => ?_
  have hsorted' := fun clip => (perm_of_sortOn hsorted').subset (a := clip)
  have hoverlay (h : HasOversized sorted') : HasOversized groups.clips :=
    (h.subset hsorted').subset hoverlay
  refine (faults_layoutFrom (.inl trivial) (fun h => hlarge (hoverlay h)) 0).bind
    fun overlay hlaid' => ?_
  refine Faults.bind (Faults.bind ?_ fun seen _ => Faults.bind ?_ fun _ _ => faults_pure _)
    fun _ _ => faults_pure _
  · exact (faults_checkTrack _ _ _ (startsOnClock_of_layoutFrom hlaid)).weaken fun h =>
      hmain (hasOversized_of_layoutFrom hlaid h)
  · exact (faults_checkTrack _ _ _ (startsOnClock_of_layoutFrom hlaid')).weaken fun h =>
      hoverlay (hasOversized_of_layoutFrom hlaid' h)

end Timeline

/-! ## Documents -/

namespace Value

/-- The value is a record with the part under the name. -/
def HasPart (value : Value) (name : Text) (part : Value) : Prop :=
  ∃ fields, value = .record fields ∧ find? fields name = some part

/-- The value is neither empty nor a record. -/
def IsStray (value : Value) : Prop := value.truthy = true ∧ ∀ fields, value ≠ .record fields

/-- The position or the size in a document is neither empty nor a record. -/
def IsMisplaced (value : Value) : Prop :=
  (∃ part, value.HasPart "position" part ∧ part.IsStray) ∨
    ∃ part, value.HasPart "size" part ∧ part.IsStray

/-- What has a required field is a record. -/
theorem exists_record_of_require {value part : Value} {name : Text}
    (h : value.require name = .ok part) : ∃ fields, value = .record fields := by
  cases value with
  | record fields => exact ⟨fields, rfl⟩
  | _ => cases h

/-- A field can be looked up in a record. -/
theorem faults_lookup_of_record {P : Fault → Prop} {value : Value}
    (isRecord : ∃ fields, value = .record fields) (name : Text) (default : Value) :
    Faults P (value.lookup name default) := by
  obtain ⟨fields, rfl⟩ := isRecord
  exact faults_ok _

/-- A part that is looked up and is not empty stands in the document. -/
theorem hasPart_of_lookup {value part : Value} {name : Text}
    (h : value.lookup name .null = .ok part) (truthy : part.truthy = true) :
    value.HasPart name part := by
  cases value with
  | record fields =>
    cases hfind : find? fields name with
    | some found =>
      simp only [lookup, hfind, Option.getD_some, Except.ok.injEq] at h
      exact ⟨fields, rfl, h ▸ hfind⟩
    | none =>
      simp only [lookup, hfind, Option.getD_none, Except.ok.injEq] at h
      rw [← h] at truthy
      cases truthy
  | _ => cases h

end Value

/-- A position can be read unless it is neither empty nor a record. -/
theorem Position.faults_ofValue (value : Value) (default : Position) :
    Faults (Fault.PlainOr .noMembers value.IsStray) (Position.ofValue value default) := by
  refine faults_ite (fun truthy => ?_) fun _ => faults_ok _
  refine ((value.faults_lookup _ _).weaken fun h => ⟨truthy, h⟩).bind fun _ _ => ?_
  exact ((value.faults_lookup _ _).weaken fun h => ⟨truthy, h⟩).bind fun _ _ => faults_pure _

/-- A size can be read unless it is neither empty nor a record. -/
theorem Size.faults_ofValue (value : Value) (default : Size) :
    Faults (Fault.PlainOr .noMembers value.IsStray) (Size.ofValue value default) := by
  refine faults_ite (fun truthy => ?_) fun _ => faults_ok _
  refine ((value.faults_lookup _ _).weaken fun h => ⟨truthy, h⟩).bind fun _ _ => ?_
  exact ((value.faults_lookup _ _).weaken fun h => ⟨truthy, h⟩).bind fun _ _ => faults_pure _

/-- The position and the size of a document can be read unless they are
misplaced. -/
theorem faults_geometry {value : Value} {position : Position} {size : Size}
    {make : Position → Size → α} (isRecord : ∃ fields, value = .record fields) :
    Faults (Fault.PlainOr .noMembers value.IsMisplaced) (do
      let position ← Position.ofValue (← value.lookup "position" .null) position
      let size ← Size.ofValue (← value.lookup "size" .null) size
      return make position size) := by
  obtain ⟨fields, rfl⟩ := isRecord
  refine Faults.bind (faults_ok _) fun part hpart => ?_
  refine ((Position.faults_ofValue part _).weaken fun stray => ?_).bind fun _ _ => ?_
  · exact .inl ⟨part, Value.hasPart_of_lookup hpart stray.1, stray⟩
  refine Faults.bind (faults_ok _) fun part hpart => ?_
  refine ((Size.faults_ofValue part _).weaken fun stray => ?_).bind fun _ _ => faults_pure _
  exact .inr ⟨part, Value.hasPart_of_lookup hpart stray.1, stray⟩

/-- An overlay can be read unless its geometry is misplaced. -/
theorem Overlay.faults_ofValue (value : Value) :
    Faults (Fault.PlainOr .noMembers value.IsMisplaced) (Overlay.ofValue value) := by
  refine (value.faults_require "id").plainOr.bind fun id hid => ?_
  have isRecord := Value.exists_record_of_require hid
  refine (value.faults_require "imageRef").plainOr.bind fun image _ => ?_
  exact (Value.faults_lookup_of_record isRecord _ _).bind fun _ _ => faults_geometry isRecord

/-- A source is read with plain faults only. -/
theorem Source.faults_ofValue (value : Value) : Faults Fault.IsPlain (Source.ofValue value) := by
  refine (value.faults_require "path").bind fun path hpath => ?_
  have isRecord := Value.exists_record_of_require hpath
  refine (value.faults_require "duration").bind fun _ _ => ?_
  refine (Value.faults_lookup_of_record isRecord _ _).bind fun _ _ => ?_
  exact (Value.faults_lookup_of_record isRecord _ _).bind fun _ _ => faults_pure _

namespace Clip

/-- The geometry of a clip document or of one of its overlays is misplaced. -/
def IsMisplacedIn (value : Value) : Prop :=
  value.IsMisplaced ∨ ∃ overlays items overlay, value.HasPart "overlays" overlays ∧
    overlays.elements = .ok items ∧ overlay ∈ items ∧ overlay.IsMisplaced

/-- The overlays of a clip can be read unless the geometry of one is misplaced. -/
theorem faults_overlaysOfValue (value : Value) :
    Faults (Fault.PlainOr .noMembers (value.truthy = true ∧
      ∃ items overlay, value.elements = .ok items ∧ overlay ∈ items ∧ overlay.IsMisplaced))
      (overlaysOfValue value) := by
  refine faults_ite (fun truthy => ?_) fun _ => faults_ok _
  refine value.faults_elements.plainOr.bind fun items hitems => faults_mapM fun overlay hmem => ?_
  exact (Overlay.faults_ofValue overlay).weaken fun h => ⟨truthy, items, overlay, hitems, hmem, h⟩

/-- A clip can be read unless its geometry or that of an overlay is misplaced. -/
theorem faults_ofValue (value : Value) :
    Faults (Fault.PlainOr .noMembers (IsMisplacedIn value)) (Clip.ofValue value) := by
  refine (value.faults_require "id").plainOr.bind fun id hid => ?_
  have isRecord := Value.exists_record_of_require hid
  have hlookup (name : Text) (default : Value) :
      Faults (Fault.PlainOr .noMembers (IsMisplacedIn value)) (value.lookup name default) :=
    Value.faults_lookup_of_record isRecord name default
  refine (value.faults_require "sourceRef").plainOr.bind fun reference _ => ?_
  refine (Source.faults_ofValue reference).plainOr.bind fun source _ => ?_
  refine (value.faults_require "inTime").plainOr.bind fun _ _ => ?_
  refine (value.faults_require "outTime").plainOr.bind fun _ _ => ?_
  refine (hlookup _ _).bind fun _ _ => (hlookup _ _).bind fun _ _ => ?_
  refine (hlookup _ _).bind fun _ _ => (hlookup _ _).bind fun _ _ => ?_
  refine (hlookup _ _).bind fun overlays hoverlays => ?_
  refine ((faults_overlaysOfValue overlays).weaken ?_).bind fun _ _ =>
    (faults_geometry isRecord).weaken .inl
  rintro ⟨truthy, items, overlay, hitems, hmem, h⟩
  exact .inr ⟨overlays, items, overlay, Value.hasPart_of_lookup hoverlays truthy, hitems, hmem, h⟩

end Clip

namespace Timeline

/-- Items are grouped unless one of them cannot be read or has no track. -/
theorem faults_group {β : Type} {P : Fault → Prop} {read : β → Outcome Clip} {items : List β}
    (unknown : ∀ track, P (.rejected (.unknownTrack track)))
    (h : ∀ item ∈ items, Faults P (read item)) : Faults P (group read items) := by
  induction items with
  | nil => exact faults_ok _
  | cons item items ih =>
    refine (h item List.mem_cons_self).bind fun clip _ => ?_
    refine (Track.faults_ofValue (unknown clip.track)).bind fun track _ => ?_
    exact (ih fun other hother => h other (List.mem_cons_of_mem item hother)).bind
      fun _ _ => faults_pure _

/-- Grouped clips were read from the items. -/
theorem exists_read_of_group {β : Type} {read : β → Outcome Clip} {items : List β}
    {groups : Grouped} (h : group read items = .ok groups) :
    ∀ clip ∈ groups.clips, ∃ item ∈ items, read item = .ok clip := by
  induction items generalizing groups with
  | nil =>
    cases h
    simp [Grouped.clips]
  | cons item items ih =>
    simp only [group, bind_eq_ok, pure_eq_ok] at h
    obtain ⟨clip, hread, track, _, rest, hrest, rfl⟩ := h
    intro other hother
    have hcases : other = clip ∨ other ∈ rest.clips := by
      cases track
      all_goals
        simp only [Grouped.push, Grouped.clips, List.mem_append, List.mem_cons] at hother ⊢
        tauto
    rcases hcases with rfl | hother
    · exact ⟨item, List.mem_cons_self, hread⟩
    · obtain ⟨found, hfound, hread⟩ := ih hrest other hother
      exact ⟨found, List.mem_cons_of_mem item hfound, hread⟩

/-- A fault of reading a timeline is plain, or it is one of the two special ones
and tells which document is to blame. -/
def ReadingFault (items : List Value) (fault : Fault) : Prop :=
  fault.IsPlain ∨
    (fault = .noMembers ∧ ∃ item ∈ items, Clip.IsMisplacedIn item) ∨
    (fault = .tooLarge ∧ ∃ item ∈ items, ∃ clip, Clip.ofValue item = .ok clip ∧ clip.IsOversized)

/-- Reading a timeline from clip documents ends in such faults only. -/
theorem faults_ofClipValues (items : List Value) :
    Faults (ReadingFault items) (ofClipValues items) := by
  refine Faults.bind ?_ fun groups hgroups => (faults_ofGrouped groups).mono fun fault h => ?_
  · refine faults_group (fun _ => .inl trivial) fun item hitem => ?_
    refine (Clip.faults_ofValue item).mono fun fault h => h.imp id fun hspecial => ?_
    exact .inl ⟨hspecial.1, item, hitem, hspecial.2⟩
  · refine h.imp id fun ⟨hlarge, clip, hclip, oversized⟩ => .inr ⟨hlarge, ?_⟩
    obtain ⟨item, hitem, hread⟩ := exists_read_of_group hgroups clip hclip
    exact ⟨item, hitem, clip, hread, oversized⟩

end Timeline

end Montage
