import Montage.Proofs.Edit.Run
import Montage.Proofs.Session.Editing
import Montage.Session.Operation

/-!
# Drags

The steps of a drag change the timeline of the session one after the other. What
comes of the drag is told by the timelines that its steps lead to: the session
goes where the last one is, and nowhere when a step fails.
-/

namespace Montage

variable {allowed : Edit → Timeline → Prop}

/-- The workspace with another timeline in its session. -/
def Workspace.showing (workspace : Workspace) (timeline : Timeline) : Workspace :=
  { workspace with session := { workspace.session with timeline } }

namespace Session

open Editing

/-- The timeline that the steps of a drag lead to from another, which stays. -/
def dragTimeline (timeline : Timeline) : List (Outcome Draft) → Editing Timeline
  | [] => return timeline
  | draft :: drafts => do
    let edit ← drawing (← ofOutcome draft).toEdit
    let after ← ofOutcome (edit.apply timeline)
    dragTimeline after drafts

/-- The session where a drag has led it: a timeline that agrees with the one
before is taken over without a record. -/
def afterDrag (session : Session) (after : Timeline) (label : Value) : Session :=
  if after.agrees session.timeline then { session with timeline := after }
  else session.commit after label

/-- One step of a drag and then the others. -/
theorem dragTimeline_cons_eq_ok {timeline result : Timeline} {step : Outcome Draft}
    {drafts : List (Outcome Draft)} {workspace after : Workspace} :
    (dragTimeline timeline (step :: drafts)).run.run workspace = (.ok result, after) ↔
      ∃ draft edit supply next, step = .ok draft ∧
        draft.toEdit.run.run workspace.supply = (.ok edit, supply) ∧
        edit.apply timeline = .ok next ∧
        (dragTimeline next drafts).run.run { workspace with supply } = (.ok result, after) := by
  rw [dragTimeline, Work.run_bind_eq_ok]
  constructor
  · rintro ⟨draft, _, hdraft, h⟩
    cases hdraft
    obtain ⟨edit, _, hedit, h⟩ := Work.run_bind_eq_ok.mp h
    obtain ⟨supply, hdrawn, rfl⟩ := drawing_eq_ok.mp hedit
    obtain ⟨next, _, hnext, h⟩ := Work.run_bind_eq_ok.mp h
    obtain ⟨happlied, rfl⟩ := ofOutcome_eq_ok.mp hnext
    exact ⟨draft, edit, supply, next, rfl, hdrawn, happlied, h⟩
  · rintro ⟨draft, edit, supply, next, rfl, hdrawn, hnext, h⟩
    refine ⟨draft, workspace, rfl,
      Work.run_bind_eq_ok.mpr ⟨edit, { workspace with supply }, ?_, ?_⟩⟩
    · exact drawing_eq_ok.mpr ⟨supply, hdrawn, rfl⟩
    · exact Work.run_bind_eq_ok.mpr
        ⟨next, { workspace with supply }, ofOutcome_eq_ok.mpr ⟨hnext, rfl⟩, h⟩

/-- The steps of a drag keep the session. -/
theorem keepsSession_dragTimeline (timeline : Timeline) (drafts : List (Outcome Draft)) :
    (dragTimeline timeline drafts).KeepsSession := by
  induction drafts generalizing timeline with
  | nil => exact keepsSession_pure timeline
  | cons step drafts ih =>
    exact (keepsSession_ofOutcome step).bind fun draft =>
      (keepsSession_drawing draft.toEdit).bind fun edit =>
        (keepsSession_ofOutcome _).bind fun next => ih next

/-- A step of a drag that comes to an edit of a timeline. -/
def StepComesAt (workspace : Workspace) (timeline : Timeline) (drafts : List (Outcome Draft))
    (edit : Edit) (present : Timeline) : Prop :=
  ∃ before draft later middle supply, drafts = before ++ .ok draft :: later ∧
    (dragTimeline timeline before).run.run workspace = (.ok present, middle) ∧
    draft.toEdit.run.run middle.supply = (.ok edit, supply)

/-- The steps of a drag are a run. -/
theorem run_of_dragTimeline {timeline result : Timeline} {drafts : List (Outcome Draft)}
    {workspace after : Workspace}
    (permitted : ∀ edit present next, StepComesAt workspace timeline drafts edit present →
      edit.apply present = .ok next → allowed edit present)
    (h : (dragTimeline timeline drafts).run.run workspace = (.ok result, after)) :
    Edit.Run allowed timeline result := by
  induction drafts generalizing timeline workspace with
  | nil =>
    cases h
    exact .start
  | cons step drafts ih =>
    obtain ⟨draft, edit, supply, next, rfl, hdrawn, hnext, hrest⟩ := dragTimeline_cons_eq_ok.mp h
    have hfirst : StepComesAt workspace timeline (.ok draft :: drafts) edit timeline :=
      ⟨[], draft, drafts, workspace, supply, rfl, rfl, hdrawn⟩
    refine .cons (permitted edit timeline next hfirst hnext) hnext (ih ?_ hrest)
    rintro other present later ⟨before, draft', rest, middle, supply', rfl, hled, hdrawn'⟩ hlater
    refine permitted other present later
      ⟨.ok draft :: before, draft', rest, middle, supply', rfl, ?_, hdrawn'⟩ hlater
    exact dragTimeline_cons_eq_ok.mpr ⟨draft, edit, supply, next, rfl, hdrawn, hnext, hled⟩

/-- The timeline that one step of a drag leads to from another. -/
def stepTimeline (timeline : Timeline) (step : Outcome Draft) : Editing Timeline := do
  let edit ← drawing (← ofOutcome step).toEdit
  ofOutcome (edit.apply timeline)

/-- The timelines that steps lead to, one after the other. -/
theorem dragTimeline_cons (timeline : Timeline) (step : Outcome Draft)
    (drafts : List (Outcome Draft)) :
    dragTimeline timeline (step :: drafts) =
      stepTimeline timeline step >>= fun next => dragTimeline next drafts := by
  simp only [dragTimeline, stepTimeline, bind_assoc]

/-- The session shows the timeline that a step leads to, or the one before it if
the step fails. -/
theorem run_dragStep (workspace : Workspace) (timeline : Timeline) (step : Outcome Draft) :
    (dragStep step).run.run (workspace.showing timeline) =
      match (stepTimeline timeline step).run.run workspace with
      | (.ok next, after) => (.ok ⟨⟩, after.showing next)
      | (.error fault, after) => (.error fault, after.showing timeline) := by
  cases step with
  | error fault => rfl
  | ok draft =>
    simp only [dragStep, stepTimeline, ofOutcome_ok, pure_bind]
    have hshown := run_drawing draft.toEdit (workspace.showing timeline)
    have hbefore := run_drawing draft.toEdit workspace
    have hsupply : (workspace.showing timeline).supply = workspace.supply := rfl
    rw [hsupply] at hshown
    cases hdrawn : draft.toEdit.run.run workspace.supply with
    | mk outcome supply =>
    rw [hdrawn] at hshown hbefore
    cases outcome with
    | error fault =>
      rw [Work.run_bind_of_error hbefore, Work.run_bind_of_error hshown]
      rfl
    | ok edit =>
      rw [Work.run_bind_of_ok hbefore, Work.run_bind_of_ok hshown]
      have hsession : (workspace.showing timeline).session.timeline = timeline := rfl
      cases hnext : edit.apply timeline with
      | error fault =>
        rw [run_session_bind, hsession, hnext]
        rfl
      | ok next =>
        rw [run_session_bind, hsession, hnext]
        rfl

/-- What the steps of a drag come to does not depend on where the timeline is
kept: the session shows the one that they lead to, or the last one before a
fault. -/
theorem run_dragSteps (workspace : Workspace) (timeline : Timeline)
    (drafts : List (Outcome Draft)) :
    match (dragTimeline timeline drafts).run.run workspace with
    | (.ok result, after) =>
      (dragSteps drafts).run.run (workspace.showing timeline) = (.ok ⟨⟩, after.showing result)
    | (.error fault, after) =>
      ∃ reached, (dragSteps drafts).run.run (workspace.showing timeline) =
        (.error fault, after.showing reached) := by
  induction drafts generalizing workspace timeline with
  | nil => rfl
  | cons step drafts ih =>
    have hstep := run_dragStep workspace timeline step
    rw [dragTimeline_cons, dragSteps]
    cases hled : (stepTimeline timeline step).run.run workspace with
    | mk outcome after =>
    rw [hled] at hstep
    cases outcome with
    | error fault =>
      rw [Work.run_bind_of_error hled, Work.run_bind_of_error hstep]
      exact ⟨timeline, rfl⟩
    | ok next =>
      rw [Work.run_bind_of_ok hled, Work.run_bind_of_ok hstep]
      exact ih after next

/-- What a drag has led to is recorded unless it agrees with the beginning. -/
theorem run_endDrag {workspace after : Workspace} (result : Timeline) (label : Value)
    (hsame : after.session = workspace.session) :
    (endDrag workspace.session.timeline label).run.run (after.showing result) =
      (.ok ⟨⟩, { after with session := workspace.session.afterDrag result label }) := by
  have hshown : (after.showing result).session = { workspace.session with timeline := result } := by
    rw [Workspace.showing, hsame]
  rw [endDrag, run_session_bind, hshown, afterDrag]
  split
  · rw [← hshown]
    rfl
  · rfl

/-- A drag whose steps lead somewhere leads the session there. -/
theorem run_drag_of_ok {workspace after : Workspace} {drafts : List (Outcome Draft)}
    {result : Timeline} (label : Value)
    (h : (dragTimeline workspace.session.timeline drafts).run.run workspace =
      (.ok result, after)) :
    (drag drafts label).run.run workspace = (.ok (.steps drafts.length),
      { after with session := workspace.session.afterDrag result label }) := by
  have hkept := keepsSession_dragTimeline workspace.session.timeline drafts workspace
  have hsteps := run_dragSteps workspace workspace.session.timeline drafts
  rw [h] at hkept hsteps
  have hrestoring : (restoring workspace.session.timeline (dragSteps drafts)).run.run workspace =
      (.ok ⟨⟩, after.showing result) := Work.run_tryCatch_of_ok hsteps
  rw [drag, run_session_bind, Work.run_bind_of_ok hrestoring,
    Work.run_bind_of_ok (run_endDrag result label hkept)]
  rfl

/-- A drag that fails at a step fails, and the session is what it was. -/
theorem run_drag_of_error {workspace after : Workspace} {drafts : List (Outcome Draft)}
    {fault : Fault} (label : Value)
    (h : (dragTimeline workspace.session.timeline drafts).run.run workspace =
      (.error fault, after)) :
    (drag drafts label).run.run workspace = (.error fault, after) := by
  have hkept := keepsSession_dragTimeline workspace.session.timeline drafts workspace
  have hsteps := run_dragSteps workspace workspace.session.timeline drafts
  rw [h] at hkept hsteps
  obtain ⟨reached, hreached⟩ := hsteps
  have hsame : after.session = workspace.session := hkept
  have hrestoring : (restoring workspace.session.timeline (dragSteps drafts)).run.run workspace =
      (.error fault, { after with session := workspace.session }) := by
    rw [restoring, Work.run_tryCatch_of_error (s := workspace) hreached, run_session_bind,
      Workspace.showing, hsame]
    rfl
  rw [drag, run_session_bind, Work.run_bind_of_error hrestoring, ← hsame]

end Session

end Montage
