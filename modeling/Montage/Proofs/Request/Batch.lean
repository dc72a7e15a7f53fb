import Montage.Proofs.Request.Faults
import Montage.Proofs.Text

/-!
# Batches of requests

A batch is applied request by request. The first one that cannot be applied to what
the ones before it have led to ends it, and the fault names that request by its
number. Only the three faults that get past a single request are told as they are.
-/

namespace Montage.Request

open Outcome

/-! ## Steps -/

/-- The name that a request of a batch is reported by. -/
def reportedName : Outcome Request → Value
  | .ok request => request.name
  | .error _ => .null

/-- The timeline that one request of a batch leads to from another. -/
def stepTimeline (timeline : Timeline) (focused : Value) : Outcome Request → Drawing Timeline
  | .ok request => applyOne timeline request focused
  | .error fault => throw fault

/-- The requests of a batch go on from where the first of them have led. -/
theorem applyFrom_append {index : Nat} {before later : List (Outcome Request)}
    {timeline present : Timeline} {focused : Value} {supply middle : Supply}
    (h : (applyFrom index timeline focused before).run.run supply = (.ok present, middle)) :
    (applyFrom index timeline focused (before ++ later)).run.run supply =
      (applyFrom (index + before.length) present focused later).run.run middle := by
  induction before generalizing index timeline supply with
  | nil =>
    cases h
    rfl
  | cons step before ih =>
    cases step with
    | error fault => cases h
    | ok request =>
      obtain ⟨next, after, hstep, hrest⟩ := Work.run_bind_eq_ok.mp h
      obtain ⟨_, noted, hnote, hrest⟩ := Work.run_bind_eq_ok.mp hrest
      rw [List.cons_append, applyFrom, Work.run_bind_of_ok hstep, Work.run_bind_of_ok hnote,
        ih hrest, List.length_cons]
      ring_nf

/-- A request that fails ends the batch with its number and name. -/
theorem applyFrom_of_error {index : Nat} {step : Outcome Request}
    {later : List (Outcome Request)} {timeline : Timeline} {focused : Value}
    {supply after : Supply} {fault : Fault}
    (h : (stepTimeline timeline focused step).run.run supply = (.error fault, after)) :
    (applyFrom index timeline focused (step :: later)).run.run supply =
      (.error (located index (reportedName step) fault), after) := by
  cases step with
  | error fault =>
    cases h
    rfl
  | ok request =>
    have hone : (applyOne timeline request focused).run.run supply = (.error fault, after) := h
    refine Work.run_bind_of_error ?_
    rw [Work.run_tryCatch_of_error hone]
    rfl

/-- A request that succeeds is noted, and the batch goes on from where it has led. -/
theorem applyFrom_of_ok {index : Nat} {request : Request} {timeline next : Timeline}
    {focused : Value} {supply middle : Supply}
    (h : (applyOne timeline request focused).run.run supply = (.ok next, middle)) :
    ∃ noted : Supply, ∀ later : List (Outcome Request),
      (applyFrom index timeline focused (.ok request :: later)).run.run supply =
        (applyFrom (index + 1) next focused later).run.run noted :=
  ⟨_, fun _ => (Work.run_bind_of_ok (Work.run_tryCatch_of_ok h)).trans rfl⟩

/-- A batch that fails does so at a request that cannot be applied to what the ones
before it have led to. -/
theorem exists_of_applyFrom_error {index : Nat} {steps : List (Outcome Request)}
    {timeline : Timeline} {focused : Value} {supply after : Supply} {fault : Fault}
    (h : (applyFrom index timeline focused steps).run.run supply = (.error fault, after)) :
    ∃ before step later present middle cause, steps = before ++ step :: later ∧
      (applyFrom index timeline focused before).run.run supply = (.ok present, middle) ∧
      (stepTimeline present focused step).run.run middle = (.error cause, after) ∧
      fault = located (index + before.length) (reportedName step) cause := by
  induction steps generalizing index timeline supply with
  | nil => cases h
  | cons step steps ih =>
    cases hstep : (stepTimeline timeline focused step).run.run supply with
    | mk outcome middle =>
    cases outcome with
    | error cause =>
      rw [applyFrom_of_error hstep, Prod.mk.injEq, Except.error.injEq] at h
      obtain ⟨rfl, rfl⟩ := h
      exact ⟨[], step, steps, timeline, supply, cause, rfl, rfl, hstep, rfl⟩
    | ok next =>
      cases step with
      | error cause => cases hstep
      | ok request =>
        obtain ⟨noted, hnext⟩ := applyFrom_of_ok hstep
        rw [hnext] at h
        obtain ⟨before, step, later, present, middle, cause, rfl, hled, hfails, rfl⟩ := ih h
        refine ⟨.ok request :: before, step, later, present, middle, cause, rfl, ?_, hfails, ?_⟩
        · rw [hnext, hled]
        · rw [List.length_cons, Nat.add_right_comm, Nat.add_assoc]

/-! ## How steps fail -/

/-- A fault that gets past a single request document, and what is to blame for it: the
document, or the timeline that it meets. -/
inductive Escape (item : Value) (timeline : Timeline) (focused : Value) : Fault → Prop
  /-- An argument that is to be a pair has not two parts. -/
  | unpaired {count : Nat} (document : IsUnpairedIn item count) :
      Escape item timeline focused (.unreadable (.ofCount count))
  /-- An overlay that is to be added is no record. -/
  | bare {request : Request} (read : ofValue item = .ok request) (adds : request.AddsBare) :
      Escape item timeline focused .noMembers
  /-- The request comes upon an integer that is too large for a double. -/
  | asked {request : Request} (read : ofValue item = .ok request)
      (asks : request.AsksBeyond timeline focused) : Escape item timeline focused .tooLarge
  /-- There is such an integer among the ends of windows, where a split has put it. -/
  | beyond (clips : HasBeyond timeline.clips) : Escape item timeline focused .tooLarge

variable {timeline : Timeline} {focused : Value}

/-- A request document that cannot be applied fails plainly or in such a way. All
windows are made of times after those that can, if they were before. -/
theorem keeps_stepTimeline (item focused : Value) (timed : timeline.Timed) :
    Work.Keeps Supply.Rolls (fun fault => fault.IsPlain ∨ Escape item timeline focused fault)
      Timeline.Timed (stepTimeline timeline focused (ofValue item)) := by
  cases hread : ofValue item with
  | error fault =>
    refine Work.keeps_throw ?_
    rcases faults_ofValue item fault hread with plain | ⟨count, rfl, unpaired⟩
    · exact .inl plain
    · exact .inr (.unpaired unpaired)
  | ok request =>
    refine keeps_applyOne (fun _ => .inl) (fun adds => .inr (.bare hread adds)) timed
      (fun h => .inr ?_) (exists_record_of_ofValue hread)
    rcases h with asks | clips
    · exact .asked hread asks
    · exact .beyond clips

/-- After a batch of request documents all windows are made of times if they were
before. -/
theorem keeps_applyFrom (index : Nat) (focused : Value) (timed : timeline.Timed)
    (items : List Value) :
    Work.Keeps Supply.Rolls (fun _ => True) Timeline.Timed
      (applyFrom index timeline focused (items.map ofValue)) := by
  induction items generalizing index timeline with
  | nil => exact Work.keeps_pure timed
  | cons item items ih =>
    have hstep := keeps_stepTimeline item focused timed
    rw [List.map_cons]
    cases hread : ofValue item with
    | error fault => exact Work.keeps_throw trivial
    | ok request =>
      rw [hread] at hstep
      refine (Work.Keeps.tryCatch hstep fun fault _ => Work.keeps_throw trivial).bind
        fun next hnext => ?_
      exact (Drawing.keeps_note _ _).bind fun _ _ => ih (index + 1) hnext

/-! ## How batches end -/

/-- The message begins with the number of a request. -/
def Names (index : Nat) (why : Rejection) : Prop :=
  ∃ rest : Text, why.message = "Request " ++ toString index ++ " " ++ rest

/-- A plain fault is told as a rejection that names the request. -/
theorem exists_names_of_located {index : Nat} {name : Value} {fault : Fault}
    (plain : fault.IsPlain) :
    ∃ why, located index name fault = .rejected why ∧ Names index why := by
  have hmalformed (cause : Malformation) : Names index (.malformedRequest index cause) :=
    ⟨"is malformed: " ++ cause.message, Text.eq_of_points (by simp [Rejection.message])⟩
  cases fault with
  | rejected why =>
    refine ⟨_, rfl, "(" ++ name.display ++ ") failed: " ++ why.message, ?_⟩
    exact Text.eq_of_points (by simp [Rejection.message])
  | missingField field => exact ⟨_, rfl, hmalformed _⟩
  | illTyped => exact ⟨_, rfl, hmalformed _⟩
  | _ => exact absurd plain id

/-- A fault that gets past a request is told as it is. -/
theorem Escape.located_eq {item : Value} {fault : Fault}
    (escape : Escape item timeline focused fault) (index : Nat) (name : Value) :
    located index name fault = fault := by
  cases escape <;> rfl

/-- How a batch of request documents may end. -/
inductive Ends (timeline : Timeline) (items : List Value) (focused : Value) (supply : Supply) :
    Outcome Timeline → Prop
  /-- All requests are applied. -/
  | applied (result : Timeline) : Ends timeline items focused supply (.ok result)
  /-- A request cannot be applied to what the ones before it have led to. The fault is
  a rejection that names it, unless it gets past the request. -/
  | stopped {before later : List Value} {item : Value} {present : Timeline}
      {middle after : Supply} {cause fault : Fault}
      (parts : items = before ++ item :: later)
      (led : (applyAll timeline (.list before) focused).run.run supply = (.ok present, middle))
      (fails : (stepTimeline present focused (ofValue item)).run.run middle =
        (.error cause, after))
      (told : (∃ why, fault = .rejected why ∧ Names before.length why) ∨
        fault = cause ∧ Escape item present focused cause) :
      Ends timeline items focused supply (.error fault)

/-- Whatever request documents a batch consists of, applied to a timeline that passes
the check it leads to a timeline, or it ends at the first request that cannot be
applied to what the ones before it have led to. Then the batch is turned down, and the
message begins with the number of that request. There are three exceptions, in which
another fault is told: arguments given as pairs of which one is none, an overlay to be
added that is no record, and an integer that is too large for a double, which the
request comes upon. -/
theorem ends_of_batch (checked : timeline.checkInvariants = .ok ()) (items : List Value)
    (focused : Value) {supply : Supply} (rolls : supply.Rolls) :
    Ends timeline items focused supply
      ((applyAll timeline (.list items) focused).run.run supply).1 := by
  have hrun (documents : List Value) :
      (applyAll timeline (.list documents) focused).run.run supply =
        (applyFrom 0 timeline focused (documents.map ofValue)).run.run supply := rfl
  cases h : (applyAll timeline (.list items) focused).run.run supply with
  | mk outcome after =>
  cases outcome with
  | ok result => exact .applied result
  | error fault =>
    rw [hrun] at h
    obtain ⟨before, step, later, present, middle, cause, hparts, hled, hfails, rfl⟩ :=
      exists_of_applyFrom_error h
    obtain ⟨documents, rest, rfl, rfl, hrest⟩ := List.map_eq_append_iff.mp hparts
    obtain ⟨item, remaining, rfl, rfl, rfl⟩ := List.map_eq_cons_iff.mp hrest
    have hkept := keeps_applyFrom 0 focused (Timeline.timed_of_checked checked)
      documents supply rolls
    rw [Work.Ends, hled] at hkept
    obtain ⟨hmiddle, _, hpresent⟩ := hkept
    have hcause := (keeps_stepTimeline item focused (hpresent present rfl) middle hmiddle).2.1 cause
      (by rw [hfails])
    refine .stopped rfl ((hrun documents).trans hled) hfails ?_
    rw [List.length_map, Nat.zero_add]
    rcases hcause with plain | escape
    · exact .inl (exists_names_of_located plain)
    · exact .inr ⟨escape.located_eq _ _, escape⟩

/-- A request document. -/
def document (name : Text) (arguments : Value) : Value :=
  .record [("name", .text name), ("arguments", arguments)]

/-- A request for an overlay with an image, and one for the trim of a clip that is not
there. -/
def broken : List Value :=
  [document "addOverlaysToClip" (.record [("overlays",
      .list [.record [("imageRef", .text "bat.png")]])]),
    document "trimClip" (.record [("clipId", .text "c")])]

/-- A supply with three numbers to be drawn. -/
def dice : Supply := ⟨1, .ofList [.real 0.25, .real 0.5, .real 0.75], []⟩

/-- These numbers are finite doubles. -/
theorem dice_rolls : dice.Rolls := by
  have hfinite : ∀ x ∈ [(0.25 : Binary64), 0.5, 0.75], x.isFinite = true := by decide +kernel
  intro number hnumber
  have hmem : number ∈ ([0.25, 0.5, 0.75] : List Binary64).map Value.real := by
    rcases List.mem_append.mp hnumber with h | h <;> exact h
  obtain ⟨x, hx, rfl⟩ := List.mem_map.mp hmem
  exact ⟨x, rfl, hfinite x hx⟩

/-- The first request is applied to a pair of clips and the second one is not; the
message names it by its number. -/
theorem ends_of_broken : Edit.pair.checkInvariants = .ok () ∧ dice.Rolls ∧
    Ends Edit.pair broken .null dice ((applyAll Edit.pair (.list broken) .null).run.run dice).1 ∧
    failsAs (fun fault => fault.message = "Request 1 (trimClip) failed: Clip not found: c")
      ((applyAll Edit.pair (.list broken) .null).run.run dice).1 = true :=
  ⟨Edit.pair_checked, dice_rolls, ends_of_batch Edit.pair_checked broken .null dice_rolls,
    by decide +kernel⟩

/-- Requests that a fault gets past: an overlay that is a text, arguments that are no
pairs, and an integer that is too large for a double. -/
def slippery : List Value :=
  [document "addOverlaysToClip" (.record [("overlays", .list [.text "bat.png"])]),
    document "setMute" (.text "ab"),
    document "trimClip" (.record [("inTime", .int (10 ^ 400))])]

/-- Applied to a pair of clips, each of these requests ends in a fault that is no
rejection and names no request. -/
theorem unnamed_of_slippery : Edit.pair.checkInvariants = .ok () ∧ dice.Rolls ∧
    ∀ item ∈ slippery, ∃ fault,
      ((applyAll Edit.pair (.list [item]) .null).run.run dice).1 = .error fault ∧
        ∀ why, fault ≠ .rejected why := by
  refine ⟨Edit.pair_checked, dice_rolls, fun item hitem => ?_⟩
  have hfails : ∀ item ∈ slippery, failsAs (fun fault => fault.message?.isNone)
      ((applyAll Edit.pair (.list [item]) .null).run.run dice).1 = true := by
    decide +kernel
  obtain ⟨fault, hfault, hnone⟩ := exists_of_failsAs (hfails item hitem)
  refine ⟨fault, hfault, fun why => ?_⟩
  rintro rfl
  cases hnone

end Montage.Request
