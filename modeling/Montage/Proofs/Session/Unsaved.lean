import Montage.Proofs.Session.Failure

/-!
# Unsaved changes

A session says whether it has changes that are not kept anywhere. What is kept is
the timeline of the last operation that saved it, loaded it or began a new project,
or else the one that the session was opened on. However long a session is and
whatever fails in it, while it says that there are no changes its timeline agrees
with the one that is kept.
-/

namespace Montage

namespace Session

/-- An operation that was performed. -/
structure Event where
  /-- The operation. -/
  operation : Operation
  /-- What it came to. -/
  outcome : Outcome Reply
  /-- The timeline of the session afterwards. -/
  timeline : Timeline

/-- Whether the timeline after an operation is kept: it was saved or loaded, or is
that of a new project. -/
def Event.keeps (event : Event) : Bool :=
  match event.operation, event.outcome with
  | .save _, .ok (.flag written) => written
  | .load _, .ok _ => true
  | .new, .ok _ => true
  | _, _ => false

/-- The timeline that is kept after some operations, the last one first: that of the
last operation that keeps one, or the one that the session was opened on. -/
def keptTimeline (opening : Timeline) (events : List Event) : Timeline :=
  match events.find? Event.keeps with
  | some event => event.timeline
  | none => opening

/-- The sessions that operations lead to from one, whether they return or not, with
these operations, the last one first. Anything but the session may change between
them, and the library may be replaced. -/
inductive Trace (start : Session) : Session → List Event → Prop
  /-- Nothing was done yet. -/
  | start : Trace start start []
  /-- One more operation is performed. -/
  | step {session : Session} {library : Value} {workspace : Workspace} {events : List Event}
      (trace : Trace start session events) (here : workspace.session = { session with library })
      (operation : Operation) :
      Trace start (operation.perform.run.run workspace).2.session
        (⟨operation, (operation.perform.run.run workspace).1,
          (operation.perform.run.run workspace).2.session.timeline⟩ :: events)

variable {start session after : Session} {events : List Event} {workspace : Workspace}

/-- An operation that keeps a timeline keeps the present one. -/
theorem keptTimeline_of_keeps {event : Event} (h : event.keeps = true) (opening : Timeline)
    (events : List Event) : keptTimeline opening (event :: events) = event.timeline := by
  rw [keptTimeline, List.find?_cons_of_pos h]

/-- Any other operation leaves what is kept. -/
theorem keptTimeline_of_not_keeps {event : Event} (h : event.keeps = false) (opening : Timeline)
    (events : List Event) :
    keptTimeline opening (event :: events) = keptTimeline opening events := by
  have hnot : ¬ event.keeps = true := by simp [h]
  rw [keptTimeline, List.find?_cons_of_neg hnot, keptTimeline]

/-- What a session was opened on, it does not have to save. -/
theorem not_unsaved_of_start {machine : Machine} {opening : Timeline} {limit : Value}
    {notes : List Note}
    (h : (Session.start machine opening limit).result = (.ok session, notes)) :
    session.timeline = opening ∧ session.unsaved = false := by
  obtain ⟨_, _, _, h⟩ := Work.run_bind_eq_ok.mp h
  obtain ⟨_, _, _, h⟩ := Work.run_bind_eq_ok.mp h
  obtain ⟨_, _, _, h⟩ := Work.run_bind_eq_ok.mp h
  cases h
  exact ⟨rfl, rfl⟩

/-! ## One operation -/

/-- A session admits what was changed: it has unsaved changes, or its timeline agrees
with the one before and it has unsaved changes if it had some before. -/
def Admits (session after : Session) : Prop :=
  after.unsaved = true ∨
    after.timeline.agrees session.timeline = true ∧ after.unsaved = session.unsaved

/-- A session that stays has nothing to admit. -/
theorem admits_self (session : Session) : Admits session session :=
  .inr ⟨Timeline.isAgreement.refl session.timeline, rfl⟩

/-- A recorded timeline is admitted. -/
theorem admits_commit (session : Session) (timeline : Timeline) (label : Value) :
    Admits session (session.commit timeline label) := .inl rfl

/-- A drag is admitted unless it ends where it began. -/
theorem admits_afterDrag (session : Session) (timeline : Timeline) (label : Value) :
    Admits session (session.afterDrag timeline label) := by
  unfold afterDrag
  split
  · next hsame => exact .inr ⟨hsame, rfl⟩
  · exact admits_commit session timeline label

/-- Undo is admitted. -/
theorem admits_undo (session : Session) : Admits session session.undo.2 := by
  unfold undo
  dsimp only
  split
  · exact .inl rfl
  · exact admits_self session

/-- Redo is admitted. -/
theorem admits_redo (session : Session) : Admits session session.redo.2 := by
  unfold redo
  dsimp only
  split
  · exact .inl rfl
  · exact admits_self session

/-- Saving answers whether the file was written. -/
theorem save_answers_flag (path : Value) :
    (save path).Answers fun reply => ∃ written, reply = .flag written := by
  refine Editing.answers_bind fun session => ?_
  dsimp only
  generalize (if path.truthy then path else session.fileValue) = chosen
  split
  · refine Editing.answers_bind fun _ => Editing.answers_bind fun _ => ?_
    refine Editing.answers_bind fun _ => Editing.answers_bind fun _ => ?_
    refine Editing.answers_bind fun _ => ?_
    dsimp only
    split
    · exact Editing.answers_bind fun _ => Editing.answers_pure ⟨_, rfl⟩
    · exact Editing.answers_pure ⟨_, rfl⟩
  · exact Editing.answers_throw _

/-- What an operation changes that keeps no timeline is admitted. -/
theorem admits_of_not_keeps {operation : Operation} {outcome : Outcome Reply} {after : Workspace}
    (performed : operation.perform.run.run workspace = (outcome, after))
    (keeps : Event.keeps ⟨operation, outcome, after.session.timeline⟩ = false) :
    Admits workspace.session after.session := by
  have permitted : operation.Permitted (fun _ _ => True) workspace := fun _ _ _ _ _ => trivial
  have hleads := Operation.perform_leads permitted
  rw [Editing.Leads, performed] at hleads
  cases outcome with
  | error fault =>
    rw [show after.session = workspace.session from hleads]
    exact admits_self _
  | ok reply =>
    have hcommits : Operation.Commits (fun _ _ => True) workspace.session after.session →
        Admits workspace.session after.session := by
      rintro ⟨timeline, label, _, hcommit⟩
      rw [hcommit]
      exact admits_commit _ timeline label
    cases operation with
    | edit draft => exact hcommits hleads
    | splitAt time track => exact hcommits hleads
    | addOverlay clip image opacity position size => exact hcommits hleads
    | requests batch focused label => exact hcommits hleads
    | drag drafts label =>
      obtain ⟨timeline, _, hdragged⟩ := hleads
      rw [hdragged]
      exact admits_afterDrag _ timeline label
    | undo =>
      rw [show after.session = workspace.session.undo.2 from hleads]
      exact admits_undo _
    | redo =>
      rw [show after.session = workspace.session.redo.2 from hleads]
      exact admits_redo _
    | new => cases keeps
    | load path => cases keeps
    | save path =>
      -- a save that keeps nothing has answered that nothing was written
      obtain ⟨written, rfl⟩ := save_answers_flag path workspace reply after performed
      rw [show written = false from keeps] at performed
      rw [save_of_false performed]
      exact admits_self _

/-! ## Any number of operations -/

/-- While a session says that there are no unsaved changes, its timeline agrees with
the one that was kept last: by a save that has written it, by loading it, by
beginning a new project, or by opening the session. -/
theorem agrees_kept_of_trace {machine : Machine} {opening : Timeline} {limit : Value}
    {notes : List Note}
    (opened : (Session.start machine opening limit).result = (.ok start, notes))
    (trace : Trace start session events) (saved : session.unsaved = false) :
    session.timeline.agrees (keptTimeline opening events) = true := by
  induction trace with
  | start =>
    rw [(not_unsaved_of_start opened).1]
    exact Timeline.isAgreement.refl opening
  | @step session library workspace events trace here operation ih =>
    generalize hperformed : operation.perform.run.run workspace = performed at saved ⊢
    obtain ⟨outcome, after⟩ := performed
    cases hkeeps : Event.keeps ⟨operation, outcome, after.session.timeline⟩ with
    | true =>
      rw [keptTimeline_of_keeps hkeeps]
      exact Timeline.isAgreement.refl _
    | false =>
      rw [keptTimeline_of_not_keeps hkeeps]
      rcases admits_of_not_keeps hperformed hkeeps with hunsaved | ⟨hagrees, hsame⟩
      · exact absurd (hunsaved.symm.trans saved) (by decide)
      · rw [here] at hagrees hsame
        exact Timeline.isAgreement.trans hagrees (ih (hsame.symm.trans saved))

/-- A drag that puts the second one of a pair of clips first and back again has no
unsaved changes, and the clips are those that the session was opened on. -/
theorem agrees_kept_of_roundabout : ∃ reply after,
    (Operation.drag [Operation.swapping, .ok (.complete (.reorder (.text "b") (.int 1)))]
      (.text "Drag")).perform.run.run (workspaceOf (sessionOn Edit.pair)) = (.ok reply, after) ∧
    after.session.unsaved = false ∧ after.session.timeline.agrees Edit.pair = true := by
  obtain ⟨reply, after, hrun⟩ : ∃ reply after,
      (Operation.drag [Operation.swapping, .ok (.complete (.reorder (.text "b") (.int 1)))]
        (.text "Drag")).perform.run.run (workspaceOf (sessionOn Edit.pair)) = (.ok reply, after) :=
    Work.exists_of_isOk (by decide +kernel)
  have hsaved : ((Operation.drag
      [Operation.swapping, .ok (.complete (.reorder (.text "b") (.int 1)))]
        (.text "Drag")).perform.run.run (workspaceOf (sessionOn Edit.pair))).2.session.unsaved =
          false := by decide +kernel
  have here : (workspaceOf (sessionOn Edit.pair)).session =
      { sessionOn Edit.pair with library := .list [] } := rfl
  have trace : Trace (sessionOn Edit.pair) _ _ := .step .start here
    (.drag [Operation.swapping, .ok (.complete (.reorder (.text "b") (.int 1)))] (.text "Drag"))
  have hagrees := agrees_kept_of_trace (start_sessionOn Edit.pair_checked) trace hsaved
  rw [hrun] at hsaved hagrees
  exact ⟨reply, after, hrun, hsaved, hagrees⟩

end Session

end Montage
