import Montage.Proofs.Session.Failure

/-!
# Drags are single steps

The edits of a drag are drawn up and applied in their order. Where they lead is
where the session is afterwards, and the history has one more state then, or none
if that is where the drag began. So one undo takes a whole drag back. A drag that
breaks off leaves nothing behind.
-/

namespace Montage

/-- Every draft can be completed. -/
theorem Draft.exists_toEdit (draft : Draft) (supply : Supply) :
    ∃ edit left, draft.toEdit.run.run supply = (.ok edit, left) := by
  cases draft with
  | insert track source duration index id =>
    rw [toEdit]
    cases id.truthy with
    | true => exact ⟨_, _, rfl⟩
    | false => exact ⟨_, _, rfl⟩
  | split clip time => exact ⟨_, _, rfl⟩
  | move clip track index => exact ⟨_, _, rfl⟩
  | complete edit => exact ⟨_, _, rfl⟩

namespace Session

open Editing

/-- The edits that the steps of a drag come to, drawn up in their order. -/
def stepEdits : List (Outcome Draft) → Drawing (List Edit)
  | [] => return []
  | step :: steps => do
    let edit ← (← Drawing.ofOutcome step).toEdit
    return edit :: (← stepEdits steps)

/-- The steps of a drag come to edits that lead from a timeline to another, one
after the other. -/
def StepsLead (timeline : Timeline) (supply : Supply) (steps : List (Outcome Draft))
    (result : Timeline) (left : Supply) : Prop :=
  ∃ edits, (stepEdits steps).run.run supply = (.ok edits, left) ∧
    Edit.applyAll edits timeline = .ok result

/-- A step of a drag fails: it is a fault itself, or its edit is turned down. -/
inductive StepFails (present : Timeline) (supply : Supply) : Outcome Draft → Fault → Prop
  /-- The step is a fault. -/
  | given (fault : Fault) : StepFails present supply (.error fault) fault
  /-- The edit cannot be applied to the timeline that it is given. -/
  | applied {draft : Draft} {edit : Edit} {left : Supply} {fault : Fault}
      (drawn : draft.toEdit.run.run supply = (.ok edit, left))
      (fails : edit.apply present = .error fault) : StepFails present supply (.ok draft) fault

/-- The first steps of a drag lead to a timeline on which the next one fails. -/
def StepsBreak (timeline : Timeline) (supply : Supply) (steps : List (Outcome Draft))
    (fault : Fault) : Prop :=
  ∃ before step later present left, steps = before ++ step :: later ∧
    StepsLead timeline supply before present left ∧ StepFails present left step fault

variable {timeline next result : Timeline} {supply left middle : Supply} {draft : Draft}
  {edit : Edit} {step : Outcome Draft} {steps : List (Outcome Draft)} {fault : Fault}

/-- No steps lead nowhere else. -/
theorem stepsLead_nil (timeline : Timeline) (supply : Supply) :
    StepsLead timeline supply [] timeline supply := ⟨[], rfl, rfl⟩

/-- A first step leads to where the others begin. -/
theorem stepsLead_cons :
    StepsLead timeline supply (step :: steps) result left ↔
      ∃ draft edit middle next, step = .ok draft ∧
        draft.toEdit.run.run supply = (.ok edit, middle) ∧ edit.apply timeline = .ok next ∧
        StepsLead next middle steps result left := by
  constructor
  · rintro ⟨edits, hdrawn, happlied⟩
    obtain ⟨draft, _, hstep, hdrawn⟩ := Work.run_bind_eq_ok.mp hdrawn
    obtain ⟨edit, middle, hedit, hdrawn⟩ := Work.run_bind_eq_ok.mp hdrawn
    obtain ⟨rest, _, hrest, hdrawn⟩ := Work.run_bind_eq_ok.mp hdrawn
    cases hdrawn
    obtain ⟨next, hnext, happlied⟩ := Edit.applyAll_cons_eq_ok.mp happlied
    cases congrArg Prod.snd hstep
    exact ⟨draft, edit, middle, next, congrArg Prod.fst hstep, hedit, hnext, rest, hrest, happlied⟩
  · rintro ⟨draft, edit, middle, next, rfl, hedit, hnext, rest, hrest, happlied⟩
    refine ⟨edit :: rest, ?_, Edit.applyAll_cons_eq_ok.mpr ⟨next, hnext, happlied⟩⟩
    exact (Work.run_bind_of_ok rfl).trans
      ((Work.run_bind_of_ok hedit).trans (Work.run_bind_of_ok hrest))

/-- A step that leads on leaves it to the others to break off. -/
theorem StepsBreak.cons (hdrawn : draft.toEdit.run.run supply = (.ok edit, middle))
    (hnext : edit.apply timeline = .ok next) (h : StepsBreak next middle steps fault) :
    StepsBreak timeline supply (.ok draft :: steps) fault := by
  obtain ⟨before, step, later, present, left, rfl, hled, hfails⟩ := h
  exact ⟨.ok draft :: before, step, later, present, left, rfl,
    stepsLead_cons.mpr ⟨draft, edit, middle, next, rfl, hdrawn, hnext, hled⟩, hfails⟩

/-- The steps of a drag lead somewhere or break off. -/
theorem exists_lead_or_break (timeline : Timeline) (supply : Supply)
    (steps : List (Outcome Draft)) :
    (∃ result left, StepsLead timeline supply steps result left) ∨
      ∃ fault, StepsBreak timeline supply steps fault := by
  induction steps generalizing timeline supply with
  | nil => exact .inl ⟨timeline, supply, stepsLead_nil timeline supply⟩
  | cons step steps ih =>
    have hnone := stepsLead_nil timeline supply
    cases step with
    | error fault =>
      exact .inr ⟨fault, [], .error fault, steps, timeline, supply, rfl, hnone, .given fault⟩
    | ok draft =>
      obtain ⟨edit, middle, hdrawn⟩ := draft.exists_toEdit supply
      cases hnext : edit.apply timeline with
      | error fault =>
        exact .inr ⟨fault, [], .ok draft, steps, timeline, supply, rfl, hnone,
          .applied hdrawn hnext⟩
      | ok next =>
        rcases ih next middle with ⟨result, left, hled⟩ | ⟨fault, hbroken⟩
        · exact .inl ⟨result, left,
            stepsLead_cons.mpr ⟨draft, edit, middle, next, rfl, hdrawn, hnext, hled⟩⟩
        · exact .inr ⟨fault, hbroken.cons hdrawn hnext⟩

/-- The timeline of a drag is where its steps lead. -/
theorem dragTimeline_of_lead {workspace : Workspace}
    (h : StepsLead timeline workspace.supply steps result left) :
    (dragTimeline timeline steps).run.run workspace =
      (.ok result, { workspace with supply := left }) := by
  induction steps generalizing timeline workspace with
  | nil =>
    obtain ⟨edits, hdrawn, happlied⟩ := h
    cases hdrawn
    cases happlied
    rfl
  | cons step steps ih =>
    obtain ⟨draft, edit, middle, next, rfl, hdrawn, hnext, hled⟩ := stepsLead_cons.mp h
    refine dragTimeline_cons_eq_ok.mpr ⟨draft, edit, middle, next, rfl, hdrawn, hnext, ih ?_⟩
    exact hled

/-- A step that fails has no timeline. -/
theorem stepTimeline_of_fails {workspace : Workspace}
    (h : StepFails timeline workspace.supply step fault) :
    ∃ after, (stepTimeline timeline step).run.run workspace = (.error fault, after) := by
  cases h with
  | given => exact ⟨workspace, rfl⟩
  | @applied draft edit left _ drawn fails =>
    have hdrawing := drawing_eq_ok.mpr ⟨left, drawn, rfl⟩
    refine ⟨{ workspace with supply := left }, ?_⟩
    refine (Work.run_bind_of_ok rfl).trans ((Work.run_bind_of_ok hdrawing).trans ?_)
    rw [fails]
    rfl

/-- A drag of which a step fails is an operation of which one does. -/
theorem StepsBreak.failsAt {workspace : Workspace}
    (h : StepsBreak workspace.session.timeline workspace.supply steps fault) (label : Value) :
    Operation.FailsAt workspace (.drag steps label) fault := by
  obtain ⟨before, step, later, present, left, rfl, hled, hfails⟩ := h
  have hfails : StepFails present { workspace with supply := left }.supply step fault := hfails
  obtain ⟨after, hbroken⟩ := stepTimeline_of_fails hfails
  exact .drag (dragTimeline_of_lead hled) hbroken

/-- A session has one more state than another: its timeline, behind the state that
the other one is on. What could be brought back is gone, and so is the oldest state
if the history was full. -/
def OneMore (session after : Session) (label : Value) : Prop :=
  ∃ current past future,
    session.history.Stands session.history.limit ⟨current :: past, future⟩ ∧
    session.timeline.agrees current.1 = true ∧
    after.history.Stands session.history.limit
      ⟨(after.timeline, label) :: (current :: past).take (session.history.limit - 1), []⟩

/-- A timeline that was recorded is one more state. -/
theorem Consistent.oneMore {property : Timeline → Prop} {session : Session}
    (h : session.Consistent property) (timeline : Timeline) (label : Value) :
    OneMore session (session.commit timeline label) label := by
  obtain ⟨_, current, past, future, stands, hagrees, _⟩ := h
  exact ⟨current, past, future, stands, hagrees, commit_stands stands timeline label⟩

/-- The session where a drag has led it is one step further, or shows a timeline
that agrees with the one before. -/
theorem Consistent.afterDrag_cases {property : Timeline → Prop} {session : Session}
    (h : session.Consistent property) (result : Timeline) (label : Value) :
    (session.afterDrag result label).timeline = result ∧
      (result.agrees session.timeline = true →
        session.afterDrag result label = { session with timeline := result }) ∧
      (result.agrees session.timeline = false →
        OneMore session (session.afterDrag result label) label ∧
          (session.afterDrag result label).unsaved = true) := by
  cases hsame : result.agrees session.timeline with
  | true =>
    have hafter : session.afterDrag result label = { session with timeline := result } := by
      rw [Session.afterDrag, if_pos hsame]
    rw [hafter]
    exact ⟨rfl, fun _ => rfl, fun hdiffers => absurd hdiffers (by decide)⟩
  | false =>
    have hafter : session.afterDrag result label = session.commit result label := by
      rw [Session.afterDrag, hsame]
      rfl
    rw [hafter]
    exact ⟨rfl, fun hagrees => absurd hagrees (by decide), fun _ => ⟨h.oneMore result label, rfl⟩⟩

/-- In every session, a drag whose steps all succeed leads where their edits lead,
applied in their order. If that differs from the beginning, the history has one
more state, with the description of the drag, and if it can hold two, undo goes
back to the beginning; if not, nothing but the timeline is touched. A drag of which
a step fails ends in its fault and leaves the session as it was. There is no third
way. -/
theorem oneStep_of_drag {machine : Machine} {opening : Timeline} {limit library : Value}
    {notes : List Note} {start session : Session} {workspace : Workspace}
    (opened : (Session.start machine opening limit).result = (.ok start, notes))
    (run : Run (fun _ _ => True) start session)
    (here : workspace.session = { session with library }) (steps : List (Outcome Draft))
    (label : Value) :
    (∀ result left,
      StepsLead workspace.session.timeline workspace.supply steps result left →
      ∃ after, (Operation.drag steps label).perform.run.run workspace =
          (.ok (.steps steps.length), after) ∧
        after.session.timeline = result ∧
        (result.agrees workspace.session.timeline = true →
          after.session = { workspace.session with timeline := result }) ∧
        (result.agrees workspace.session.timeline = false →
          OneMore workspace.session after.session label ∧ after.session.unsaved = true ∧
          (2 ≤ workspace.session.history.limit →
            ∃ back, Operation.undo.perform.run.run after = (.ok (.flag true), back) ∧
              workspace.session.timeline.agrees back.session.timeline = true))) ∧
    (∀ fault, StepsBreak workspace.session.timeline workspace.supply steps fault →
      ∃ after, (Operation.drag steps label).perform.run.run workspace = (.error fault, after) ∧
        after.session = workspace.session) ∧
    ((∃ result left,
        StepsLead workspace.session.timeline workspace.supply steps result left) ∨
      ∃ fault, StepsBreak workspace.session.timeline workspace.supply steps fault) := by
  have consistent : workspace.session.Consistent fun _ => True := by
    have hsession := run.consistent (consistent_of_start opened trivial)
      (fun _ _ => trivial) fun _ _ => trivial
    rw [here]
    exact hsession.of_eq rfl rfl
  have permitted : (Operation.drag steps label).Permitted (fun _ _ => True) workspace :=
    fun _ _ _ _ _ => trivial
  refine ⟨fun result left hled => ?_, fun fault hbroken => ?_, exists_lead_or_break _ _ steps⟩
  · have performed := run_drag_of_ok label (dragTimeline_of_lead hled)
    obtain ⟨hresult, hstays, hmore⟩ := consistent.afterDrag_cases result label
    refine ⟨_, performed, hresult, hstays, fun hdiffers => ?_⟩
    obtain ⟨hone, hunsaved⟩ := hmore hdiffers
    refine ⟨hone, hunsaved, fun two => ?_⟩
    have records : Records workspace.session (workspace.session.afterDrag result label)
        (.drag steps label) := by
      rw [Records, hresult]
      exact hdiffers
    obtain ⟨back, _, hundo, hback, _⟩ :=
      consistent.undo_redo_of_records permitted two performed records
    exact ⟨back, hundo, hback⟩
  · have hfault := (hbroken.failsAt label).perform_eq
    have hleads := Operation.perform_leads permitted
    rw [Editing.Leads] at hleads
    cases hperformed : (Operation.drag steps label).perform.run.run workspace with
    | mk outcome after =>
      rw [hperformed] at hfault hleads
      cases hfault
      exact ⟨after, rfl, hleads⟩

/-- A drag that puts the second one of a pair of clips first is one more state, and
undo takes it back. -/
theorem oneStep_of_swapping : ∃ result left after back,
    StepsLead Edit.pair ⟨0, .ofList [], []⟩ [Operation.swapping] result left ∧
    (Operation.drag [Operation.swapping] (.text "Drag")).perform.run.run
      (workspaceOf (sessionOn Edit.pair)) = (.ok (.steps 1), after) ∧
    OneMore (sessionOn Edit.pair) after.session (.text "Drag") ∧
    Operation.undo.perform.run.run after = (.ok (.flag true), back) ∧
    Edit.pair.agrees back.session.timeline = true := by
  obtain ⟨result, hswapped, hother⟩ : ∃ result,
      (Edit.reorder (.text "b") (.int 0)).apply Edit.pair = .ok result ∧
        (!result.agrees Edit.pair) = true := Outcome.exists_of_any (by decide +kernel)
  have hled : StepsLead Edit.pair ⟨0, .ofList [], []⟩ [Operation.swapping] result
      ⟨0, .ofList [], []⟩ :=
    stepsLead_cons.mpr ⟨_, _, _, result, rfl, rfl, hswapped, stepsLead_nil _ _⟩
  have hdiffers : result.agrees Edit.pair = false := by simpa using hother
  have here : (workspaceOf (sessionOn Edit.pair)).session =
      { sessionOn Edit.pair with library := .list [] } := rfl
  obtain ⟨hsucceeds, _⟩ := oneStep_of_drag (start_sessionOn Edit.pair_checked) .start here
    [Operation.swapping] (.text "Drag")
  obtain ⟨after, hperformed, _, _, hmore⟩ := hsucceeds result _ hled
  obtain ⟨hone, _, hback⟩ := hmore hdiffers
  obtain ⟨back, hundo, hagrees⟩ := hback le_rfl
  exact ⟨result, _, after, back, hled, hperformed, hone, hundo, hagrees⟩

end Session

end Montage
