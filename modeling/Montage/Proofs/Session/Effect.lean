import Montage.Proofs.Project.RoundTrip
import Montage.Proofs.Session.Drag

/-!
# What operations do to a session

An operation that ends in a fault leaves the session as it was. One that returns
has applied edits one after the other and recorded where they led, or has moved
through the history, or has begun anew. Which edits it applies to which
timelines is told by the steps it goes through.
-/

namespace Montage

/-! ## Edits that are applied in turn -/

variable {allowed : Edit → Timeline → Prop}

namespace Edit

/-- An edit of a list whose turn comes at a timeline. -/
def ComesAt (timeline : Timeline) (edits : List Edit) (edit : Edit) (present : Timeline) : Prop :=
  ∃ before later, edits = before ++ edit :: later ∧ applyAll before timeline = .ok present

/-- Edits that are applied in turn are a run. -/
theorem run_of_applyAll {edits : List Edit} {timeline result : Timeline}
    (permitted : ∀ edit present after, ComesAt timeline edits edit present →
      edit.apply present = .ok after → allowed edit present)
    (h : applyAll edits timeline = .ok result) : Run allowed timeline result := by
  induction edits generalizing timeline with
  | nil =>
    cases h
    exact .start
  | cons edit edits ih =>
    obtain ⟨next, hnext, hrest⟩ := applyAll_cons_eq_ok.mp h
    refine .cons (permitted edit timeline next ⟨[], edits, rfl, rfl⟩ hnext) hnext (ih ?_ hrest)
    rintro other present after ⟨before, later, rfl, hbefore⟩ hafter
    refine permitted other present after ⟨edit :: before, later, rfl, ?_⟩ hafter
    exact applyAll_cons_eq_ok.mpr ⟨next, hnext, hbefore⟩

end Edit

namespace Request

/-- What is noted of a request that was applied. -/
def appliedNote (index : Nat) (request : Request) : Note :=
  ⟨.info, "Applied request " ++ toString index ++ ": " ++ request.name.display⟩

/-- One request of a batch and then the others. -/
theorem applyFrom_cons_eq_ok {index : Nat} {timeline result : Timeline} {focused : Value}
    {step : Outcome Request} {requests : List (Outcome Request)} {supply after : Supply} :
    (applyFrom index timeline focused (step :: requests)).run.run supply = (.ok result, after) ↔
      ∃ request made drawn next, step = .ok request ∧
        (edits timeline request focused).run.run supply = (.ok made, drawn) ∧
        Edit.applyAll made timeline = .ok next ∧
        (applyFrom (index + 1) next focused requests).run.run
            { drawn with notes := drawn.notes ++ [appliedNote index request] } =
          (.ok result, after) := by
  cases step with
  | error fault =>
    constructor
    · intro h
      cases h
    · rintro ⟨_, _, _, _, h, _⟩
      cases h
  | ok request =>
    rw [applyFrom, Work.run_bind_eq_ok]
    simp only [Work.run_tryCatch_throw_eq_ok]
    constructor
    · rintro ⟨next, _, hone, h⟩
      obtain ⟨made, _, hmade, hnext⟩ := Work.run_bind_eq_ok.mp hone
      cases congrArg Prod.snd hnext
      exact ⟨request, made, _, next, rfl, hmade, congrArg Prod.fst hnext, h⟩
    · rintro ⟨_, made, drawn, next, hrequest, hmade, hnext, h⟩
      cases hrequest
      exact ⟨next, drawn, Work.run_bind_eq_ok.mpr ⟨made, drawn, hmade, Prod.ext hnext rfl⟩, h⟩

/-- An edit of a timeline that a request of a batch is translated into. -/
def EditComesAt (index : Nat) (supply : Supply) (timeline : Timeline) (focused : Value)
    (requests : List (Outcome Request)) (edit : Edit) (present : Timeline) : Prop :=
  ∃ before request later started middle made drawn, requests = before ++ .ok request :: later ∧
    (applyFrom index timeline focused before).run.run supply = (.ok started, middle) ∧
    (edits started request focused).run.run middle = (.ok made, drawn) ∧
    Edit.ComesAt started made edit present

/-- The edits of a batch are a run. -/
theorem run_of_applyFrom {index : Nat} {timeline result : Timeline} {focused : Value}
    {requests : List (Outcome Request)} {supply after : Supply}
    (permitted : ∀ edit present next,
      EditComesAt index supply timeline focused requests edit present →
      edit.apply present = .ok next → allowed edit present)
    (h : (applyFrom index timeline focused requests).run.run supply = (.ok result, after)) :
    Edit.Run allowed timeline result := by
  induction requests generalizing index timeline supply with
  | nil =>
    cases h
    exact .start
  | cons step requests ih =>
    obtain ⟨request, made, drawn, next, rfl, hmade, hnext, hrest⟩ := applyFrom_cons_eq_ok.mp h
    have hfirst : Edit.Run allowed timeline next := by
      refine Edit.run_of_applyAll ?_ hnext
      intro edit present after hcomes hafter
      exact permitted edit present after
        ⟨[], request, requests, timeline, supply, made, drawn, rfl, rfl, hmade, hcomes⟩ hafter
    refine hfirst.trans (ih ?_ hrest)
    rintro edit present after
      ⟨before, request', later, started, middle, made', drawn', rfl, hled, hmade', hcomes⟩ hafter
    refine permitted edit present after ⟨.ok request :: before, request', later, started, middle,
      made', drawn', rfl, ?_, hmade', hcomes⟩ hafter
    exact applyFrom_cons_eq_ok.mpr ⟨request, made, drawn, next, rfl, hmade, hnext, hled⟩

end Request

/-! ## Operations -/

namespace Session

open Editing

/-- Performing an operation comes to applying an edit to a timeline. -/
inductive Applies (workspace : Workspace) : Operation → Edit → Timeline → Prop
  /-- An edit is applied to the present timeline. -/
  | edit {draft : Draft} {edit : Edit} {supply : Supply}
      (drawn : draft.toEdit.run.run workspace.supply = (.ok edit, supply)) :
      Applies workspace (.edit draft) edit workspace.session.timeline
  /-- The clip under a time is split. -/
  | splitAt {time track : Value} {clips : List Clip} {clip : Clip} {offset : Number} {edit : Edit}
      {supply : Supply} (under : workspace.session.timeline.clipsAt time = .ok clips)
      (found : clips.find? (fun clip => clip.track.equal track) = some clip)
      (within : time.sub clip.startTime = .ok offset)
      (drawn : (Draft.split clip.id (.number offset)).toEdit.run.run workspace.supply =
        (.ok edit, supply)) :
      Applies workspace (.splitAt time track) edit workspace.session.timeline
  /-- The overlays of a clip are replaced by more. -/
  | addOverlay {clip image opacity id : Value} {position : Position} {size : Size} {found : Clip}
      {supply : Supply} (there : workspace.session.timeline.require clip = .ok found)
      (drawn : Drawing.newOverlayId.run.run workspace.supply = (.ok id, supply)) :
      Applies workspace (.addOverlay clip image opacity position size)
        (.overlays clip (found.overlays ++ [⟨id, image, opacity, position, size⟩]))
        workspace.session.timeline
  /-- A step of a drag has its turn. -/
  | drag {drafts : List (Outcome Draft)} {label : Value} {edit : Edit} {present : Timeline}
      (step : StepComesAt workspace workspace.session.timeline drafts edit present) :
      Applies workspace (.drag drafts label) edit present
  /-- An edit of a request of a batch has its turn. -/
  | requests {batch focused label : Value} {items : List Value} {edit : Edit} {present : Timeline}
      (read : batch.elements = .ok items)
      (step : Request.EditComesAt 0 workspace.supply workspace.session.timeline focused
        (items.map Request.ofValue) edit present) :
      Applies workspace (.requests batch focused label) edit present

end Session

namespace Operation

/-- All edits that an operation applies with success are allowed where they are
applied. -/
def Permitted (allowed : Edit → Timeline → Prop) (operation : Operation) (workspace : Workspace) :
    Prop :=
  ∀ edit present result, Session.Applies workspace operation edit present →
    edit.apply present = .ok result → allowed edit present

/-- The session has gone where a run of edits leads and has recorded it. -/
def Commits (allowed : Edit → Timeline → Prop) (session after : Session) : Prop :=
  ∃ timeline label, Edit.Run allowed session.timeline timeline ∧
    after = session.commit timeline label

/-- What an operation that returns has made of a session. -/
def Effect (allowed : Edit → Timeline → Prop) (session after : Session) : Operation → Prop
  | .edit _ => Commits allowed session after
  | .splitAt _ _ => Commits allowed session after
  | .addOverlay _ _ _ _ _ => Commits allowed session after
  | .requests _ _ _ => Commits allowed session after
  | .drag _ label =>
    ∃ timeline, Edit.Run allowed session.timeline timeline ∧
      after = session.afterDrag timeline label
  | .undo => after = session.undo.2
  | .redo => after = session.redo.2
  | .new => after = session.reset .empty [] none
  | .save _ => after = session ∨ ∃ path, after = session.savedTo path
  | .load _ =>
    ∃ timeline library file, timeline.Settled ∧ timeline.checkInvariants = .ok () ∧
      after = session.reset timeline library file

end Operation

namespace Session

open Editing Operation

variable {workspace : Workspace}

/-- An edit that is drawn up, applied and described is recorded. -/
theorem applyDraft_leads {draft : Draft}
    (permitted : ∀ edit supply result, draft.toEdit.run.run workspace.supply = (.ok edit, supply) →
      edit.apply workspace.session.timeline = .ok result →
      allowed edit workspace.session.timeline) :
    (applyDraft draft).Leads (Commits allowed) workspace := by
  refine (keepsSession_drawing _).bind_leads fun edit _ hedit => ?_
  obtain ⟨supply, hdrawn, rfl⟩ := drawing_eq_ok.mp hedit
  refine keepsSession_session.bind_leads fun session _ hsession => ?_
  cases hsession
  refine (keepsSession_ofOutcome _).bind_leads fun result _ hresult => ?_
  obtain ⟨happlied, rfl⟩ := ofOutcome_eq_ok.mp hresult
  refine (keepsSession_ofOutcome _).bind_leads fun label _ hlabel => ?_
  obtain ⟨_, rfl⟩ := ofOutcome_eq_ok.mp hlabel
  have hrun : Edit.Run allowed workspace.session.timeline result :=
    .step .start (permitted edit supply result hdrawn happlied) happlied
  exact (leads_setSession ⟨result, .text label, hrun, rfl⟩).map _

/-- What an edit that was recorded has led to. -/
theorem exists_of_applyDraft {draft : Draft} {reply : Reply} {after : Workspace}
    (h : (applyDraft draft).run.run workspace = (.ok reply, after)) :
    ∃ edit supply result label, draft.toEdit.run.run workspace.supply = (.ok edit, supply) ∧
      edit.apply workspace.session.timeline = .ok result ∧
      after.session = workspace.session.commit result label := by
  obtain ⟨edit, _, hedit, h⟩ := Work.run_bind_eq_ok.mp h
  obtain ⟨supply, hdrawn, rfl⟩ := drawing_eq_ok.mp hedit
  obtain ⟨session, _, hsession, h⟩ := Work.run_bind_eq_ok.mp h
  cases hsession
  obtain ⟨result, _, hresult, h⟩ := Work.run_bind_eq_ok.mp h
  obtain ⟨happlied, rfl⟩ := ofOutcome_eq_ok.mp hresult
  obtain ⟨label, _, hlabel, h⟩ := Work.run_bind_eq_ok.mp h
  obtain ⟨_, rfl⟩ := ofOutcome_eq_ok.mp hlabel
  cases h
  exact ⟨edit, supply, result, .text label, hdrawn, happlied, rfl⟩

/-- The split of the clip under a time is recorded. -/
theorem splitAt_leads {time track : Value}
    (permitted : (Operation.splitAt time track).Permitted allowed workspace) :
    (splitAt time track).Leads (Commits allowed) workspace := by
  refine keepsSession_session.bind_leads fun session _ hsession => ?_
  cases hsession
  refine (keepsSession_ofOutcome _).bind_leads fun clips _ hclips => ?_
  obtain ⟨under, rfl⟩ := ofOutcome_eq_ok.mp hclips
  split
  · next clip found =>
    refine (keepsSession_ofOutcome _).bind_leads fun offset _ hoffset => ?_
    obtain ⟨within, rfl⟩ := ofOutcome_eq_ok.mp hoffset
    refine applyDraft_leads fun edit supply result hdrawn happlied => ?_
    exact permitted edit _ result (.splitAt under found within hdrawn) happlied
  · exact (keepsSession_ofOutcome _).bind_leads fun real _ _ => rfl

/-- One more overlay on a clip is recorded. -/
theorem addOverlay_leads {clip image opacity : Value} {position : Position} {size : Size}
    (permitted :
      (Operation.addOverlay clip image opacity position size).Permitted allowed workspace) :
    (addOverlay clip image opacity position size).Leads (Commits allowed) workspace := by
  refine keepsSession_session.bind_leads fun session _ hsession => ?_
  cases hsession
  refine (keepsSession_ofOutcome _).bind_leads fun found _ hfound => ?_
  obtain ⟨there, rfl⟩ := ofOutcome_eq_ok.mp hfound
  refine (keepsSession_drawing _).bind_leads fun id _ hid => ?_
  obtain ⟨supply, hdrawn, rfl⟩ := drawing_eq_ok.mp hid
  refine (applyDraft_leads fun edit _ result hedit happlied => ?_).map _
  cases hedit
  exact permitted _ _ result (.addOverlay there hdrawn) happlied

/-- A drag leads to where its steps do. -/
theorem drag_leads {drafts : List (Outcome Draft)} {label : Value}
    (permitted : (Operation.drag drafts label).Permitted allowed workspace) :
    (drag drafts label).Leads (fun session after => Effect allowed session after
      (.drag drafts label)) workspace := by
  have hkept := keepsSession_dragTimeline workspace.session.timeline drafts workspace
  unfold Leads
  cases hled : (dragTimeline workspace.session.timeline drafts).run.run workspace with
  | mk outcome after =>
  rw [hled] at hkept
  cases outcome with
  | error fault =>
    rw [run_drag_of_error label hled]
    exact hkept
  | ok timeline =>
    rw [run_drag_of_ok label hled]
    have hrun : Edit.Run allowed workspace.session.timeline timeline :=
      run_of_dragTimeline (fun edit present next step happlied =>
        permitted edit present next (.drag step) happlied) hled
    exact ⟨timeline, hrun, rfl⟩

/-- A batch of requests is recorded. -/
theorem applyRequests_leads {batch focused label : Value}
    (permitted : (Operation.requests batch focused label).Permitted allowed workspace) :
    (applyRequests batch focused label).Leads (Commits allowed) workspace := by
  refine keepsSession_session.bind_leads fun session _ hsession => ?_
  cases hsession
  refine (keepsSession_drawing _).bind_leads fun timeline _ htimeline => ?_
  obtain ⟨supply, hdrawn, rfl⟩ := drawing_eq_ok.mp htimeline
  obtain ⟨items, _, hitems, hbatch⟩ := Work.run_bind_eq_ok.mp hdrawn
  cases congrArg Prod.snd hitems
  have hrun : Edit.Run allowed workspace.session.timeline timeline :=
    Request.run_of_applyFrom (fun edit present next step happlied =>
      permitted edit present next (.requests (congrArg Prod.fst hitems) step) happlied) hbatch
  exact (leads_setSession ⟨timeline, label, hrun, rfl⟩).map _

/-- Going through the history leads where the history does. -/
theorem travel_leads {move : Session → Bool × Session} :
    (travel move).Leads (fun session after => after = (move session).2) workspace := rfl

/-- A new project leads to an empty timeline. -/
theorem new_leads :
    new.Leads (fun session after => after = session.reset .empty [] none) workspace := rfl

/-- Writing a project file leaves the session but for its file. -/
theorem saveTo_leads {path : Value} :
    (saveTo path).Leads (fun session after => after = session ∨
      ∃ path, after = session.savedTo path) workspace := by
  refine keepsSession_get.bind_leads fun present _ hpresent => ?_
  cases hpresent
  refine (keepsSession_ofOutcome _).bind_leads fun library _ hlibrary => ?_
  obtain ⟨_, rfl⟩ := ofOutcome_eq_ok.mp hlibrary
  dsimp only
  refine .set rfl ?_
  refine (keepsSession_leave _).bind_leads fun _ _ hnotes => ?_
  cases hnotes
  refine (keepsSession_ofOutcome _).bind_leads fun done _ hdone => ?_
  obtain ⟨_, rfl⟩ := ofOutcome_eq_ok.mp hdone
  split
  · next path _ => exact (leads_setSession (.inr ⟨path, rfl⟩)).map _
  · exact (keepsSession_pure _).leads (.inl rfl)

/-- Saving a project leaves the session but for its file. -/
theorem save_leads {path : Value} :
    (save path).Leads (fun session after => after = session ∨
      ∃ path, after = session.savedTo path) workspace := by
  refine keepsSession_session.bind_leads fun session _ hsession => ?_
  cases hsession
  dsimp only
  generalize (if path.truthy then path else workspace.session.fileValue) = chosen
  split
  · exact saveTo_leads
  · exact rfl

end Session

namespace Project

/-- The timeline of a file that was loaded is settled and passes the check. -/
theorem settled_checked_of_load {disk : Disk} {path : Value} {project : Project}
    {notes : List Note} (h : (load disk path).result = (.ok project, notes)) :
    project.timeline.Settled ∧ project.timeline.checkInvariants = .ok () := by
  obtain ⟨there, _, hthere, h⟩ := Work.run_bind_eq_ok.mp h
  cases there with
  | false => cases h
  | true =>
    obtain ⟨document, _, hdocument, h⟩ := Work.run_bind_eq_ok.mp h
    cases hvalue : ofValue document with
    | mk outcome left =>
      rw [ofDocument, hvalue] at h
      cases congrArg Prod.fst h
      obtain ⟨groups, hgroups⟩ := exists_grouped_of_ofValue hvalue
      exact Timeline.settled_checked_of_ofGrouped hgroups

end Project

namespace Session

open Editing Operation

variable {workspace : Workspace}

/-- Loading a project leads to its timeline. -/
theorem load_leads {path : Value} :
    (load path).Leads (fun session after => Effect allowed session after (.load path))
      workspace := by
  refine keepsSession_get.bind_leads fun present _ hpresent => ?_
  cases hpresent
  refine (keepsSession_noting _).bind_leads fun project middle hproject => ?_
  obtain ⟨notes, hloaded, hsame⟩ := noting_eq_ok hproject
  obtain ⟨settled, checked⟩ := Project.settled_checked_of_load hloaded
  refine keepsSession_session.bind_leads fun session _ hsession => ?_
  cases hsession
  exact (leads_setSession ⟨project.timeline, project.library, pathOf path, settled, checked,
    rfl⟩).map _

end Session

/-- An operation that returns has had its effect on the session; one that does
not has left the session as it was. -/
theorem Operation.perform_leads {operation : Operation} {workspace : Workspace}
    (permitted : operation.Permitted allowed workspace) :
    operation.perform.Leads (fun session after => Effect allowed session after operation)
      workspace := by
  cases operation with
  | edit draft =>
    exact Session.applyDraft_leads fun edit _ result hdrawn happlied =>
      permitted edit _ result (.edit hdrawn) happlied
  | splitAt time track => exact Session.splitAt_leads permitted
  | addOverlay clip image opacity position size => exact Session.addOverlay_leads permitted
  | drag drafts label => exact Session.drag_leads permitted
  | requests batch focused label => exact Session.applyRequests_leads permitted
  | undo => exact Session.travel_leads
  | redo => exact Session.travel_leads
  | new => exact Session.new_leads
  | save path => exact Session.save_leads
  | load path => exact Session.load_leads

end Montage
