import Montage.Proofs.Edit.Addressed
import Montage.Proofs.Edit.Steady

/-!
# Trims of one clip

While a clip is dragged at an end, it is trimmed again and again. Every trim sets the
same ends anew and looks at nothing that an earlier one has left, so only the last of
them counts.
-/

namespace Montage

open Outcome

namespace Edit

variable {wanted present native new : Value}

/-- An end that is given anew or kept comes from the old one, whatever it was in between. -/
theorem TrimmedTo.anew {given : Bool} {old : Value} (h : TrimmedTo wanted present native new)
    (hnull : wanted.isNull = !given) (kept : given = false → present = old) :
    TrimmedTo wanted old native new ∧ (given = false → new = old) := by
  rcases h with ⟨hkeeps, rfl⟩ | hgives
  · have hgiven : given = false := by simpa [hkeeps] using hnull
    exact ⟨.inl ⟨hkeeps, kept hgiven⟩, kept⟩
  · refine ⟨.inr hgives, ?_⟩
    rintro rfl
    obtain ⟨_, _, rfl, _⟩ := Value.isFinite_eq_true hgives.1
    cases hnull

/-- Asking for an end once more gives the same one. -/
theorem TrimmedTo.again (h : TrimmedTo wanted present native new) :
    TrimmedTo wanted new native new := h.imp (fun hkeeps => ⟨hkeeps.1, rfl⟩) id

end Edit

namespace Clip

/-- The clip with another window. -/
def showing (clip : Clip) (inTime outTime : Value) : Clip := { clip with inTime, outTime }

/-- A trim gives the clip another window, which is long enough. -/
structure TrimsTo (clip : Clip) (wantedIn wantedOut inTime outTime : Value) : Prop where
  /-- Where the window starts. -/
  start : Edit.TrimmedTo wantedIn clip.inTime clip.source.duration inTime
  /-- Where the window stops. -/
  stop : Edit.TrimmedTo wantedOut clip.outTime clip.source.duration outTime
  /-- The window is long enough. -/
  long : ∃ length, outTime.sub inTime = .ok length ∧
    (Value.number length).lt (.real minClipDuration) = .ok false

/-- The same trim leaves the new window as it is, wherever the clip is placed. -/
theorem TrimsTo.again {clip : Clip} {wantedIn wantedOut inTime outTime : Value}
    (h : clip.TrimsTo wantedIn wantedOut inTime outTime) (startTime : Value) :
    { clip.showing inTime outTime with startTime }.TrimsTo wantedIn wantedOut inTime outTime :=
  ⟨h.start.again, h.stop.again, h.long⟩

end Clip

namespace Edit

variable {timeline current next : Timeline} {edit : Edit} {id name wantedIn wantedOut : Value}
  {start stop : Bool} {spot : Spot}

/-! ## One trim -/

/-- A trim can be made when it gives a window that is long enough. -/
theorem makes_of_trimsTo {inTime outTime : Value} (found : spot.Of timeline name)
    (h : spot.clip.TrimsTo wantedIn wantedOut inTime outTime) :
    (Edit.trim name wantedIn wantedOut).Makes timeline
      (spot.fill timeline [spot.clip.showing inTime outTime]) := by
  obtain ⟨length, lasts, long⟩ := h.long
  exact .trim found h.start h.stop lasts long

/-- A trim that gives a clip the window that it has changes nothing. -/
theorem makes_self_of_trimsTo (found : spot.Of timeline name)
    (h : spot.clip.TrimsTo wantedIn wantedOut spot.clip.inTime spot.clip.outTime) :
    (Edit.trim name wantedIn wantedOut).Makes timeline timeline := by
  have makes := makes_of_trimsTo found h
  have hclip : spot.clip.showing spot.clip.inTime spot.clip.outTime = spot.clip := rfl
  rwa [hclip, found.fill_clip] at makes

/-- A trim that returns has given the clip another window. -/
theorem exists_trimsTo_of_apply (orderly : timeline.Orderly) (found : spot.Of timeline name)
    (h : (Edit.trim name wantedIn wantedOut).apply timeline = .ok next) :
    ∃ inTime outTime, spot.clip.TrimsTo wantedIn wantedOut inTime outTime ∧
      next.unplaced = (spot.fill timeline [spot.clip.showing inTime outTime]).unplaced := by
  obtain ⟨raw, makes, laysOut⟩ := exists_makes_of_applyTrim orderly h
  cases makes with
  | trim found' start stop lasts long =>
    cases found.unique orderly found'
    exact ⟨_, _, ⟨start, stop, _, lasts, long⟩, laysOut.unplaced_eq⟩

/-- What a trim comes upon is the clip that it trims. -/
theorem mistypes_trim_iff (orderly : timeline.Orderly) (found : spot.Of timeline name) :
    (Edit.trim name wantedIn wantedOut).Mistypes timeline ↔
      spot.clip.track.IsReal ∨ spot.clip.source.duration.number? = none := by
  refine or_congr (onReal_iff orderly found) ?_
  rw [found.require_eq_ok orderly]
  simp

/-- The edit trims the clip with a name and gives the start of its window, the stop, both or
none. -/
def Trims (id : Value) (start stop : Bool) (edit : Edit) : Prop :=
  ∃ name inTime outTime, edit = .trim name inTime outTime ∧ name.equal id = true ∧
    inTime.isNull = !start ∧ outTime.isNull = !stop

/-- Trims are safe. -/
theorem Trims.safe (trims : edit.Trims id start stop) (timeline : Timeline) :
    edit.Safe timeline := by
  obtain ⟨name, inTime, outTime, rfl, _⟩ := trims
  exact ⟨⟨.nil, by simp [newIds]⟩, not_overflowsAt (by simp)⟩

/-! ## Trims in turn -/

/-- A timeline with one window moved at the ends that are given, up to start times. -/
def MovedFrom (spot : Spot) (start stop : Bool) (timeline current : Timeline) : Prop :=
  ∃ inTime outTime, (start = false → inTime = spot.clip.inTime) ∧
    (stop = false → outTime = spot.clip.outTime) ∧
    current.unplaced = (spot.fill timeline [spot.clip.showing inTime outTime]).unplaced

/-- At first a window is moved at no end. -/
theorem movedFrom_self (found : spot.Of timeline id) :
    MovedFrom spot start stop timeline timeline :=
  ⟨spot.clip.inTime, spot.clip.outTime, fun _ => rfl, fun _ => rfl,
    congrArg Timeline.unplaced found.fill_clip.symm⟩

/-- A trim of a clip whose window was moved at the given ends gives what it would give if
the window had not been moved. -/
theorem exists_trimsTo_of_movedFrom (named : spot.clip.id.equal name = true)
    (hin : wantedIn.isNull = !start) (hout : wantedOut.isNull = !stop)
    (moved : MovedFrom spot start stop timeline current) (orderly : current.Orderly)
    (h : (Edit.trim name wantedIn wantedOut).apply current = .ok next) :
    ∃ inTime outTime, (start = false → inTime = spot.clip.inTime) ∧
      (stop = false → outTime = spot.clip.outTime) ∧
      spot.clip.TrimsTo wantedIn wantedOut inTime outTime ∧
      next.unplaced = (spot.fill timeline [spot.clip.showing inTime outTime]).unplaced := by
  obtain ⟨presentIn, presentOut, hkeptIn, hkeptOut, same⟩ := moved
  obtain ⟨before, startTime, after, found, _, hfill⟩ :=
    (spot.of_fill timeline (spot.clip.showing presentIn presentOut) named).exists_same same
  obtain ⟨inTime, outTime, trimsTo, hnext⟩ := exists_trimsTo_of_apply orderly found h
  obtain ⟨hstart, hkeptIn⟩ := trimsTo.start.anew hin hkeptIn
  obtain ⟨hstop, hkeptOut⟩ := trimsTo.stop.anew hout hkeptOut
  refine ⟨inTime, outTime, hkeptIn, hkeptOut, ⟨hstart, hstop, trimsTo.long⟩, ?_⟩
  have hunplaced := hnext.trans (hfill _ _ [spot.clip.showing inTime outTime] rfl)
  rwa [Spot.fill_fill] at hunplaced

/-- Trims in turn move no window but that of their clip, and only at the ends that they
give. -/
theorem movedFrom_of_applyAll {trims : List Edit} (named : spot.clip.id.equal id = true)
    (alike : ∀ trim ∈ trims, trim.Trims id start stop)
    (moved : MovedFrom spot start stop timeline current) (steady : current.Steady)
    (h : applyAll trims current = .ok next) :
    MovedFrom spot start stop timeline next ∧ next.Steady := by
  induction trims generalizing current with
  | nil =>
    cases h
    exact ⟨moved, steady⟩
  | cons trim trims ih =>
    obtain ⟨middle, hfirst, hrest⟩ := applyAll_cons_eq_ok.mp h
    obtain ⟨first, others⟩ := List.forall_mem_cons.mp alike
    have steady' := (first.safe current).steady_of_apply steady hfirst
    obtain ⟨name, wantedIn, wantedOut, rfl, hname, hin, hout⟩ := first
    obtain ⟨inTime, outTime, hkeptIn, hkeptOut, _, same⟩ := exists_trimsTo_of_movedFrom
      (Value.equal_trans named (by rwa [Value.equal_comm])) hin hout moved steady.toOrderly hfirst
    exact ih others ⟨inTime, outTime, hkeptIn, hkeptOut, same⟩ steady' hrest

/-- The clip of trims that return is there, and its track is not stored as a double. -/
theorem exists_spot_of_trims {trims : List Edit} (nonempty : trims ≠ [])
    (alike : ∀ trim ∈ trims, trim.Trims id start stop)
    (h : applyAll trims timeline = .ok next) :
    ∃ spot : Spot, spot.Of timeline id ∧ ¬ spot.clip.track.IsReal := by
  obtain ⟨first, others, rfl⟩ := List.exists_cons_of_ne_nil nonempty
  obtain ⟨name, wantedIn, wantedOut, rfl, hname, _⟩ := alike first List.mem_cons_self
  obtain ⟨middle, hfirst, _⟩ := applyAll_cons_eq_ok.mp h
  have target : (Edit.trim name wantedIn wantedOut).target? = some name := rfl
  obtain ⟨clip, hrequire, kind⟩ := exists_require_of_apply target hfirst
  obtain ⟨spot, found, rfl⟩ := Timeline.exists_spot hrequire
  exact ⟨spot, ⟨found.split, Value.equal_trans found.named hname⟩, kind⟩

/-- When trims of one clip that all give the same ends return one after the other, the last
one alone returns, too, and gives a timeline that agrees, and to repeat it changes
nothing. -/
theorem trims_of_checked (checked : timeline.checkInvariants = .ok ())
    (settled : timeline.Settled) {trims : List Edit} {last : Edit} {final : Timeline}
    (alike : ∀ trim ∈ trims ++ [last], trim.Trims id start stop)
    (h : applyAll (trims ++ [last]) timeline = .ok final) :
    (∃ direct, last.apply timeline = .ok direct ∧ final.agrees direct = true) ∧
      last.apply final = .ok final := by
  have steady := Timeline.steady_of_checked checked settled
  obtain ⟨spot, found, kind⟩ := exists_spot_of_trims (by simp) alike h
  have number : spot.clip.source.duration.number? ≠ none := by
    have valid := (Timeline.forall_on_of_checked checked _ _ found.mem_on).2.1
    exact Value.number?_ne_none_of_isFinite (Clip.validate_eq_ok.mp valid).2.2.2.2.1
  have typed := not_or.mpr ⟨kind, number⟩
  -- up to the last trim the window of the clip was moved at the given ends only
  obtain ⟨others, alike⟩ := List.forall_mem_append.mp alike
  have trims := alike last List.mem_cons_self
  obtain ⟨middle, hmiddle, hlast⟩ := applyAll_append_eq_ok.mp h
  rw [applyAll_singleton] at hlast
  obtain ⟨moved, steady'⟩ :=
    movedFrom_of_applyAll found.named others (movedFrom_self found) steady hmiddle
  have steadyFinal := (trims.safe middle).steady_of_apply steady' hlast
  have hsafe := trims.safe timeline
  obtain ⟨name, wantedIn, wantedOut, rfl, hname, hin, hout⟩ := trims
  have named : spot.clip.id.equal name = true :=
    Value.equal_trans found.named (by rwa [Value.equal_comm])
  obtain ⟨inTime, outTime, _, _, trimsTo, same⟩ :=
    exists_trimsTo_of_movedFrom named hin hout moved steady'.toOrderly hlast
  have lengths := steadyFinal.settled.hasLengths
  refine ⟨?_, ?_⟩
  · have there : spot.Of timeline name := ⟨found.split, named⟩
    obtain ⟨direct, hdirect, hsame⟩ := (makes_of_trimsTo there trimsTo).exists_of_unplaced rfl
      steady.toOrderly ((mistypes_trim_iff steady.toOrderly there).not.mpr typed)
      (lengths.of_unplaced same.symm)
    exact ⟨direct, hdirect,
      steadyFinal.agrees (hsafe.steady_of_apply steady hdirect) (same.trans hsame.symm)⟩
  · obtain ⟨before, startTime, after, there, _, _⟩ :=
      (spot.of_fill timeline (spot.clip.showing inTime outTime) named).exists_same same
    have makes := makes_self_of_trimsTo there (trimsTo.again startTime)
    obtain ⟨result, hresult, laysOut⟩ := makes.exists_laysOut steadyFinal.toOrderly
      ((mistypes_trim_iff steadyFinal.toOrderly there).not.mpr typed) lengths
    rw [hresult, laysOut.eq_of_settled steadyFinal.settled]

/-- The first clip of the pair is trimmed twice at its end, and only the second trim
counts. -/
theorem trims_of_pair : ∃ final direct,
    applyAll [.trim (.text "a") .null (.int 2), .trim (.text "a") .null (.int 3)] pair = .ok final ∧
      (Edit.trim (.text "a") .null (.int 3)).apply pair = .ok direct ∧
      final.agrees direct = true ∧
      (Edit.trim (.text "a") .null (.int 3)).apply final = .ok final := by
  obtain ⟨final, h⟩ : ∃ final, applyAll ([.trim (.text "a") .null (.int 2)] ++
      [.trim (.text "a") .null (.int 3)]) pair = .ok final := exists_of_isOk (by decide +kernel)
  have alike : ∀ trim ∈ [Edit.trim (.text "a") .null (.int 2)] ++
      [Edit.trim (.text "a") .null (.int 3)], trim.Trims (.text "a") false true := by
    intro trim htrim
    rcases List.mem_pair.mp htrim with rfl | rfl
    · exact ⟨_, _, _, rfl, by decide, rfl, rfl⟩
    · exact ⟨_, _, _, rfl, by decide, rfl, rfl⟩
  obtain ⟨⟨direct, hdirect, hagrees⟩, hagain⟩ :=
    trims_of_checked pair_checked pair_wellFormed.settled alike h
  exact ⟨final, direct, h, hdirect, hagrees, hagain⟩

end Edit

end Montage
