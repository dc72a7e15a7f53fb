import Montage.Proofs.Request.Batch
import Montage.Proofs.Session.Run

/-!
# Operations that fail

An operation that ends in a fault leaves the session as it was, and so does one
that answers that it had no effect. This holds wherever the fault comes from: a
step of a drag or a request of a batch that fails ends the operation however far
those before it have led.
-/

namespace Montage

variable {allowed : Edit → Timeline → Prop}

/-! ## What operations answer -/

namespace Editing

variable {α β : Type} {property : β → Prop}

/-- Everything that work returns has a property. -/
def Answers (property : β → Prop) (work : Editing β) : Prop :=
  ∀ workspace b after, work.run.run workspace = (.ok b, after) → property b

/-- A value is the answer. -/
theorem answers_pure {b : β} (h : property b) : (pure b : Editing β).Answers property := by
  intro workspace _ after hrun
  cases hrun
  exact h

/-- Nothing is answered after a fault. -/
theorem answers_throw (fault : Fault) : (throw fault : Editing β).Answers property := by
  intro workspace b after hrun
  cases hrun

/-- The last part of some work gives the answer. -/
theorem answers_bind {work : Editing α} {next : α → Editing β}
    (h : ∀ a, (next a).Answers property) : (work >>= next).Answers property := by
  intro workspace b after hrun
  obtain ⟨a, middle, -, hnext⟩ := Work.run_bind_eq_ok.mp hrun
  exact h a middle b after hnext

end Editing

/-- The answer does not say that there was no effect. -/
def Reply.Effective : Reply → Prop
  | .flag effective => effective = true
  | _ => True

/-- An operation has failed: it has ended in a fault or answered that it had no
effect. -/
def Operation.Failed : Outcome Reply → Prop
  | .error _ => True
  | .ok reply => ¬ reply.Effective

namespace Session

open Editing

/-- An edit that was recorded had an effect. -/
theorem applyDraft_answers (draft : Draft) : (applyDraft draft).Answers Reply.Effective :=
  answers_bind fun _ => answers_bind fun _ => answers_bind fun _ => answers_bind fun _ =>
    answers_bind fun _ => answers_pure trivial

/-- A split of the clip under a time had an effect. -/
theorem splitAt_answers (time track : Value) : (splitAt time track).Answers Reply.Effective := by
  refine answers_bind fun _ => answers_bind fun _ => ?_
  split
  · exact answers_bind fun _ => applyDraft_answers _
  · exact answers_bind fun _ => answers_throw _

/-- One more overlay is an effect. -/
theorem addOverlay_answers (clip image opacity : Value) (position : Position) (size : Size) :
    (addOverlay clip image opacity position size).Answers Reply.Effective :=
  answers_bind fun _ => answers_bind fun _ => answers_bind fun _ => answers_bind fun _ =>
    answers_pure trivial

/-- A drag answers with the number of its steps. -/
theorem drag_answers (drafts : List (Outcome Draft)) (label : Value) :
    (drag drafts label).Answers Reply.Effective :=
  answers_bind fun _ => answers_bind fun _ => answers_bind fun _ => answers_pure trivial

/-- A batch of requests that was recorded had an effect. -/
theorem applyRequests_answers (batch focused label : Value) :
    (applyRequests batch focused label).Answers Reply.Effective :=
  answers_bind fun _ => answers_bind fun _ => answers_bind fun _ => answers_pure trivial

/-- A new project is an effect. -/
theorem new_answers : new.Answers Reply.Effective :=
  answers_bind fun _ => answers_bind fun _ => answers_pure trivial

/-- A project that was loaded is an effect. -/
theorem load_answers (path : Value) : (load path).Answers Reply.Effective :=
  answers_bind fun _ => answers_bind fun _ => answers_bind fun _ => answers_bind fun _ =>
    answers_pure trivial

/-- An undo without an effect leaves the session. -/
theorem undo_eq_of_false {session : Session} (h : session.undo.1 = false) :
    session.undo.2 = session := by
  simp only [undo] at h ⊢
  split at h
  · cases h
  · rfl

/-- A redo without an effect leaves the session. -/
theorem redo_eq_of_false {session : Session} (h : session.redo.1 = false) :
    session.redo.2 = session := by
  simp only [redo] at h ⊢
  split at h
  · cases h
  · rfl

/-- A move through the history without an effect leaves the session. -/
theorem travel_of_false {move : Session → Bool × Session} {workspace after : Workspace}
    (stays : ∀ session, (move session).1 = false → (move session).2 = session)
    (h : (travel move).run.run workspace = (.ok (.flag false), after)) :
    after.session = workspace.session := by
  have hrun : (travel move).run.run workspace = (.ok (.flag (move workspace.session).1),
      { workspace with session := (move workspace.session).2 }) := rfl
  rw [hrun, Prod.mk.injEq, Except.ok.injEq, Reply.flag.injEq] at h
  obtain ⟨hfalse, rfl⟩ := h
  exact stays workspace.session hfalse

/-- A project file that was not written leaves the session. -/
theorem saveTo_of_false {workspace after : Workspace} {path : Value}
    (h : (saveTo path).run.run workspace = (.ok (.flag false), after)) :
    after.session = workspace.session := by
  obtain ⟨present, _, hpresent, h⟩ := Work.run_bind_eq_ok.mp h
  cases hpresent
  obtain ⟨library, _, hlibrary, h⟩ := Work.run_bind_eq_ok.mp h
  obtain ⟨_, rfl⟩ := ofOutcome_eq_ok.mp hlibrary
  obtain ⟨_, _, hset, h⟩ := Work.run_bind_eq_ok.mp h
  cases hset
  obtain ⟨_, _, hleft, h⟩ := Work.run_bind_eq_ok.mp h
  cases hleft
  obtain ⟨written, _, hwritten, h⟩ := Work.run_bind_eq_ok.mp h
  obtain ⟨_, rfl⟩ := ofOutcome_eq_ok.mp hwritten
  cases written with
  | false =>
    cases h
    rfl
  | true =>
    dsimp only at h
    split at h <;> cases h

/-- A project that was not saved leaves the session. -/
theorem save_of_false {workspace after : Workspace} {path : Value}
    (h : (save path).run.run workspace = (.ok (.flag false), after)) :
    after.session = workspace.session := by
  rw [save, run_session_bind] at h
  dsimp only at h
  generalize (if path.truthy then path else workspace.session.fileValue) = chosen at h
  split at h
  · exact saveTo_of_false h
  · cases h

end Session

/-- An operation that answers that it had no effect had none. -/
theorem Operation.session_eq_of_ineffective {operation : Operation} {workspace after : Workspace}
    {reply : Reply} (h : operation.perform.run.run workspace = (.ok reply, after))
    (ineffective : ¬ reply.Effective) : after.session = workspace.session := by
  obtain rfl : reply = .flag false := by
    cases reply with
    | flag effective => rw [Bool.eq_false_of_not_eq_true ineffective]
    | _ => exact absurd trivial ineffective
  have hnever : ¬ operation.perform.Answers Reply.Effective :=
    fun answers => ineffective (answers workspace _ after h)
  cases operation with
  | edit draft => exact absurd (Session.applyDraft_answers draft) hnever
  | splitAt time track => exact absurd (Session.splitAt_answers time track) hnever
  | addOverlay clip image opacity position size =>
    exact absurd (Session.addOverlay_answers clip image opacity position size) hnever
  | drag drafts label => exact absurd (Session.drag_answers drafts label) hnever
  | requests batch focused label =>
    exact absurd (Session.applyRequests_answers batch focused label) hnever
  | new => exact absurd Session.new_answers hnever
  | load path => exact absurd (Session.load_answers path) hnever
  | undo => exact Session.travel_of_false (fun _ => Session.undo_eq_of_false) h
  | redo => exact Session.travel_of_false (fun _ => Session.redo_eq_of_false) h
  | save path => exact Session.save_of_false h

/-! ## Steps that fail -/

namespace Session

open Editing

/-- The steps of a drag go on from where the first of them have led. -/
theorem dragTimeline_append {before later : List (Outcome Draft)} {timeline present : Timeline}
    {workspace middle : Workspace}
    (h : (dragTimeline timeline before).run.run workspace = (.ok present, middle)) :
    (dragTimeline timeline (before ++ later)).run.run workspace =
      (dragTimeline present later).run.run middle := by
  induction before generalizing timeline workspace with
  | nil =>
    cases h
    rfl
  | cons step before ih =>
    rw [dragTimeline_cons] at h
    obtain ⟨next, after, hstep, hrest⟩ := Work.run_bind_eq_ok.mp h
    rw [List.cons_append, dragTimeline_cons, Work.run_bind_of_ok hstep]
    exact ih hrest

end Session

namespace Operation

/-- A step of an operation fails after those before it have succeeded; the fault
that the operation is to end in. -/
inductive FailsAt (workspace : Workspace) : Operation → Fault → Prop
  /-- A step of a drag fails on the timeline that the steps before it led to. -/
  | drag {before later : List (Outcome Draft)} {step : Outcome Draft} {label : Value}
      {present : Timeline} {middle after : Workspace} {fault : Fault}
      (led : (Session.dragTimeline workspace.session.timeline before).run.run workspace =
        (.ok present, middle))
      (fails : (Session.stepTimeline present step).run.run middle = (.error fault, after)) :
      FailsAt workspace (.drag (before ++ step :: later) label) fault
  /-- A request of a batch fails on the timeline that the requests before it led
  to. -/
  | requests {batch focused label : Value} {items : List Value}
      {before later : List (Outcome Request)} {step : Outcome Request} {present : Timeline}
      {middle after : Supply} {fault : Fault} (read : batch.elements = .ok items)
      (parts : items.map Request.ofValue = before ++ step :: later)
      (led : (Request.applyFrom 0 workspace.session.timeline focused before).run.run
        workspace.supply = (.ok present, middle))
      (fails : (Request.stepTimeline present focused step).run.run middle =
        (.error fault, after)) :
      FailsAt workspace (.requests batch focused label)
        (Request.located before.length (Request.reportedName step) fault)

/-- An operation one of whose steps fails ends in its fault. -/
theorem FailsAt.perform_eq {workspace : Workspace} {operation : Operation} {fault : Fault}
    (h : FailsAt workspace operation fault) :
    (operation.perform.run.run workspace).1 = .error fault := by
  cases h with
  | @drag before later step label present middle after _ led fails =>
    have hsteps : (Session.dragTimeline workspace.session.timeline
        (before ++ step :: later)).run.run workspace = (.error fault, after) := by
      rw [Session.dragTimeline_append led, Session.dragTimeline_cons,
        Work.run_bind_of_error fails]
    exact congrArg Prod.fst (Session.run_drag_of_error label hsteps)
  | @requests batch focused label items before later step present middle after cause read parts
      led fails =>
    have hbatch : (Request.applyAll workspace.session.timeline batch focused).run.run
        workspace.supply =
          (.error (Request.located before.length (Request.reportedName step) cause), after) := by
      rw [Request.applyAll, read]
      refine (Work.run_bind_of_ok rfl).trans ?_
      rw [parts, Request.applyFrom_append led, Request.applyFrom_of_error fails, Nat.zero_add]
    have hdrawing := Editing.run_drawing
      (Request.applyAll workspace.session.timeline batch focused) workspace
    rw [hbatch] at hdrawing
    rw [perform, Session.applyRequests, Editing.run_session_bind,
      Work.run_bind_of_error hdrawing]

/-- Whatever operation fails, the session is what it was before: its timeline,
the history with its entries and its place, the library, the file and whether
there is anything to save. An operation of which a step fails ends in a fault,
however far the steps before it have led. -/
theorem session_eq_of_failed (operation : Operation) (workspace : Workspace) :
    (Failed (operation.perform.run.run workspace).1 →
      (operation.perform.run.run workspace).2.session = workspace.session) ∧
    ∀ fault, FailsAt workspace operation fault →
      (operation.perform.run.run workspace).1 = .error fault := by
  refine ⟨fun failed => ?_, fun fault fails => fails.perform_eq⟩
  have hleads : operation.perform.Leads
      (fun session after => Effect (fun _ _ => True) session after operation) workspace :=
    perform_leads fun _ _ _ _ _ => trivial
  cases hrun : operation.perform.run.run workspace with
  | mk outcome after =>
  rw [hrun] at failed
  rw [Editing.Leads, hrun] at hleads
  cases outcome with
  | error fault => exact hleads
  | ok reply => exact session_eq_of_ineffective hrun failed

/-- A step of a drag that puts the second one of a pair of clips first. -/
def swapping : Outcome Draft := .ok (.complete (.reorder (.text "b") (.int 0)))

/-- A step of a drag that removes a clip that is not there. -/
def removing : Outcome Draft := .ok (.complete (.delete (.text "c")))

/-- A session on a pair of clips, at work. -/
def pairWorkspace : Workspace := Session.workspaceOf (Session.sessionOn Edit.pair)

/-- The first step of a drag leads to another timeline and the second one fails.
The drag fails, and the session is what it was. -/
theorem session_eq_of_broken_drag : ∃ present middle after fault,
    (Session.dragTimeline Edit.pair [swapping]).run.run pairWorkspace = (.ok present, middle) ∧
    present.agrees Edit.pair = false ∧
    (perform (.drag [swapping, removing] (.text "Drag"))).run.run pairWorkspace =
      (.error fault, after) ∧
    after.session = pairWorkspace.session := by
  obtain ⟨present, middle, hled⟩ : ∃ present middle,
      (Session.dragTimeline Edit.pair [swapping]).run.run pairWorkspace = (.ok present, middle) :=
    Work.exists_of_isOk (by decide +kernel)
  have hseen : ((Session.dragTimeline Edit.pair [swapping]).run.run
      pairWorkspace).1.toOption.any (fun present => !present.agrees Edit.pair &&
        !((Session.stepTimeline present removing).run.run ((Session.dragTimeline Edit.pair
          [swapping]).run.run pairWorkspace).2).1.isOk) = true := by decide +kernel
  rw [hled] at hseen
  simp only [Except.toOption, Option.any_some, Bool.and_eq_true, Bool.not_eq_true'] at hseen
  obtain ⟨hdiffers, hnot⟩ := hseen
  cases hfails : (Session.stepTimeline present removing).run.run middle with
  | mk outcome broken =>
  rw [hfails] at hnot
  cases outcome with
  | ok next => cases hnot
  | error fault =>
    have fails : FailsAt pairWorkspace (.drag [swapping, removing] (.text "Drag")) fault :=
      @FailsAt.drag pairWorkspace [swapping] [] removing _ present middle broken fault hled hfails
    obtain ⟨hkept, hfault⟩ :=
      session_eq_of_failed (.drag [swapping, removing] (.text "Drag")) pairWorkspace
    have hend := hfault fault fails
    generalize (perform (.drag [swapping, removing] (.text "Drag"))).run.run pairWorkspace =
      ended at hkept hend ⊢
    obtain ⟨_, after⟩ := ended
    cases hend
    exact ⟨present, middle, after, fault, hled, hdiffers, rfl, hkept trivial⟩

end Operation

end Montage
