import Montage.Proofs.Work
import Montage.Session.Workspace

/-!
# Work on a workspace

Most parts of an operation keep the session: they look at it, draw on the supply
or leave notes. A part that replaces it stands at the end, so an operation that
ends in a fault has left the session as it was.
-/

namespace Montage

namespace Editing

variable {α β : Type}

/-- Work that leaves the session as it is, whatever comes of it. -/
def KeepsSession (work : Editing α) : Prop :=
  ∀ workspace, (work.run.run workspace).2.session = workspace.session

/-- An outcome that is given keeps the session. -/
theorem keepsSession_ofOutcome (outcome : Outcome α) : (ofOutcome outcome).KeepsSession :=
  fun _ => rfl

/-- Looking at the session keeps it. -/
theorem keepsSession_session : session.KeepsSession := fun _ => rfl

/-- Looking at the workspace keeps the session. -/
theorem keepsSession_get : (get : Editing Workspace).KeepsSession := fun _ => rfl

/-- Leaving notes keeps the session. -/
theorem keepsSession_leave (notes : List Note) : (leave notes).KeepsSession := fun _ => rfl

/-- A value keeps the session. -/
theorem keepsSession_pure (a : α) : (pure a : Editing α).KeepsSession := fun _ => rfl

/-- Drawing on the supply keeps the session. -/
theorem keepsSession_drawing (work : Drawing α) : (drawing work).KeepsSession := fun _ => rfl

/-- Work that leaves notes keeps the session. -/
theorem keepsSession_noting (work : Noting α) : (noting work).KeepsSession := fun _ => rfl

/-- Parts that keep the session keep it together. -/
theorem KeepsSession.bind {work : Editing α} {next : α → Editing β} (h : work.KeepsSession)
    (hnext : ∀ a, (next a).KeepsSession) : (work >>= next).KeepsSession := by
  intro workspace
  have hwork : Work.Ends work workspace fun _ after => after.session = workspace.session :=
    h workspace
  have hboth : Work.Ends (work >>= next) workspace fun _ after =>
      after.session = workspace.session :=
    hwork.bind (fun a middle hmiddle => (hnext a middle).trans hmiddle) fun _ _ hsame => hsame
  exact hboth

/-- Work that leads from the present session to one of a relation when it
returns, and leaves the session when it does not. -/
def Leads (relation : Session → Session → Prop) (workspace : Workspace) (work : Editing α) :
    Prop :=
  match work.run.run workspace with
  | (.ok _, after) => relation workspace.session after.session
  | (.error _, after) => after.session = workspace.session

variable {relation : Session → Session → Prop} {workspace : Workspace}

/-- Replacing the session leads to the new one. -/
theorem leads_setSession {session : Session} (h : relation workspace.session session) :
    (setSession session).Leads relation workspace := h

/-- Work that keeps the session leads to where it stays. -/
theorem KeepsSession.leads {work : Editing α} (h : work.KeepsSession)
    (hstay : relation workspace.session workspace.session) : work.Leads relation workspace := by
  have hwork := h workspace
  unfold Leads
  split
  · next after hx =>
    rw [hx] at hwork
    rw [hwork]
    exact hstay
  · next after hx =>
    rw [hx] at hwork
    exact hwork

/-- Work that keeps the session may stand before work that leads somewhere. -/
theorem KeepsSession.bind_leads {work : Editing α} {next : α → Editing β} (h : work.KeepsSession)
    (hnext : ∀ a middle, work.run.run workspace = (.ok a, middle) →
      (next a).Leads relation middle) : (work >>= next).Leads relation workspace := by
  have hwork := h workspace
  unfold Leads
  cases hx : work.run.run workspace with
  | mk outcome middle =>
    rw [hx] at hwork
    cases outcome with
    | error fault =>
      rw [Work.run_bind_of_error hx]
      exact hwork
    | ok a =>
      have hmiddle := hnext a middle hx
      rw [Leads, hwork] at hmiddle
      rw [Work.run_bind_of_ok hx]
      exact hmiddle

/-- A workspace with the same session may be taken instead of the present one. -/
theorem Leads.set {next : PUnit → Editing β} {present : Workspace}
    (hsame : present.session = workspace.session) (h : (next ⟨⟩).Leads relation present) :
    (MonadState.set present >>= next).Leads relation workspace := by
  rw [Leads, hsame] at h
  exact h

/-- What is answered in the end does not matter. -/
theorem Leads.map {work : Editing α} (h : work.Leads relation workspace) (b : β) :
    (work >>= fun _ => pure b).Leads relation workspace := by
  unfold Leads at *
  cases hx : work.run.run workspace with
  | mk outcome after =>
    rw [hx] at h
    cases outcome with
    | error fault =>
      rw [Work.run_bind_of_error hx]
      exact h
    | ok a =>
      rw [Work.run_bind_of_ok hx]
      exact h

/-- Nothing is done for an outcome that is there. -/
theorem ofOutcome_ok (a : α) : ofOutcome (.ok a) = pure a := rfl

/-- What comes after a look at the session is done with the session. -/
theorem run_session_bind (next : Session → Editing β) (workspace : Workspace) :
    (session >>= next).run.run workspace = (next workspace.session).run.run workspace := rfl

/-- An outcome is returned when there is one, and nothing changes. -/
theorem ofOutcome_eq_ok {outcome : Outcome α} {after : Workspace} {a : α} :
    (ofOutcome outcome).run.run workspace = (.ok a, after) ↔
      outcome = .ok a ∧ workspace = after := by
  have hrun : (ofOutcome outcome).run.run workspace = (outcome, workspace) := rfl
  rw [hrun, Prod.mk.injEq]

/-- Drawing on the supply of a workspace changes nothing else of it. -/
theorem run_drawing (work : Drawing α) (workspace : Workspace) :
    (drawing work).run.run workspace = ((work.run.run workspace.supply).1,
      { workspace with supply := (work.run.run workspace.supply).2 }) := rfl

/-- What drawing on the supply returns was drawn from it. -/
theorem drawing_eq_ok {work : Drawing α} {after : Workspace} {a : α} :
    (drawing work).run.run workspace = (.ok a, after) ↔
      ∃ supply, work.run.run workspace.supply = (.ok a, supply) ∧
        after = { workspace with supply } := by
  rw [run_drawing, Prod.mk.injEq]
  constructor
  · rintro ⟨hok, rfl⟩
    exact ⟨(work.run.run workspace.supply).2, Prod.ext hok rfl, rfl⟩
  · rintro ⟨supply, hdrawn, rfl⟩
    rw [hdrawn]
    exact ⟨rfl, rfl⟩

/-- What work that leaves notes returns is what it comes to. -/
theorem noting_eq_ok {work : Noting α} {after : Workspace} {a : α}
    (h : (noting work).run.run workspace = (.ok a, after)) :
    ∃ notes, work.result = (.ok a, notes) ∧ after.session = workspace.session := by
  have hrun : (noting work).run.run workspace =
      (work.result.1, { workspace with
        supply := { workspace.supply with notes := workspace.supply.notes ++ work.result.2 } }) :=
    rfl
  rw [hrun, Prod.mk.injEq] at h
  obtain ⟨hok, rfl⟩ := h
  exact ⟨work.result.2, Prod.ext hok rfl, rfl⟩

end Editing

end Montage
