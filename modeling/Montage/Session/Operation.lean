import Montage.Edit.Apply
import Montage.Edit.Draft
import Montage.Project.File
import Montage.Request.Apply
import Montage.Session.Workspace

/-!
# Operations of a session

Every operation either succeeds or leaves the session as it was. A recorded
edit can be undone; a drag is one edit however many steps it has.
-/

namespace Montage

/-- What can be asked of a session. -/
inductive Operation where
  /-- To apply an edit. -/
  | edit (draft : Draft)
  /-- To split whichever clip of a track is at a time. -/
  | splitAt (time track : Value)
  /-- To add an overlay to a clip of the main track. -/
  | addOverlay (clip image opacity : Value) (position : Position) (size : Size)
  /-- To apply edits one after the other as a single one. -/
  | drag (drafts : List (Outcome Draft)) (label : Value)
  /-- To apply a batch of requests as a single edit. -/
  | requests (batch focused label : Value)
  /-- To take the last edit back. -/
  | undo
  /-- To bring back an edit that was taken back. -/
  | redo
  /-- To begin a new project. -/
  | new
  /-- To save the project to a file, or to the one it already has. -/
  | save (path : Value)
  /-- To open the project of a file. -/
  | load (path : Value)

/-- What an operation answers. -/
inductive Reply where
  /-- Nothing more than that it was done. -/
  | done
  /-- The names of what it made. -/
  | ids (ids : List Value)
  /-- Whether it had an effect. -/
  | flag (effective : Bool)
  /-- The number of its steps. -/
  | steps (count : Nat)

namespace Session

open Editing

/-- Applies an edit and records it. -/
def applyDraft (draft : Draft) : Editing Reply := do
  let edit ← drawing draft.toEdit
  let session ← session
  let after ← ofOutcome (edit.apply session.timeline)
  let label ← ofOutcome edit.description
  setSession (session.commit after (.text label))
  return .ids edit.newIds

/-- Splits the clip of a track that a time falls into. -/
def splitAt (time track : Value) : Editing Reply := do
  let clips ← ofOutcome ((← session).timeline.clipsAt time)
  match clips.find? fun clip => clip.track.equal track with
  | some clip => do
    let offset ← ofOutcome (time.sub clip.startTime)
    applyDraft (.split clip.id (.number offset))
  | none => do
    let time ← ofOutcome time.toReal
    throw (.rejected (.noClipAt track time))

/-- Adds a new overlay to a clip. -/
def addOverlay (clip image opacity : Value) (position : Position) (size : Size) :
    Editing Reply := do
  let found ← ofOutcome ((← session).timeline.require clip)
  let id ← drawing Drawing.newOverlayId
  let overlay : Overlay := ⟨id, image, opacity, position, size⟩
  let _ ← applyDraft (.complete (.overlays clip (found.overlays ++ [overlay])))
  return .ids [id]

/-- Applies a step of a drag to the timeline of the session, which it replaces. -/
def dragStep (draft : Outcome Draft) : Editing Unit := do
  let edit ← drawing (← ofOutcome draft).toEdit
  let session ← session
  let after ← ofOutcome (edit.apply session.timeline)
  setSession { session with timeline := after }

/-- Applies the steps of a drag, each to what the one before has left. -/
def dragSteps : List (Outcome Draft) → Editing Unit
  | [] => return ⟨⟩
  | draft :: drafts => do
    dragStep draft
    dragSteps drafts

/-- Puts a timeline back when work ends in a fault. -/
def restoring (timeline : Timeline) (work : Editing Unit) : Editing Unit :=
  tryCatch work fun fault => do
    setSession { (← session) with timeline }
    throw fault

/-- Records where a drag has led, unless that is where it began. -/
def endDrag (start : Timeline) (label : Value) : Editing Unit := do
  let session ← session
  if session.timeline.agrees start then return ⟨⟩
  else setSession (session.commit session.timeline label)

/-- Applies the steps of a drag and records where they lead. The timeline is put
back if one of them fails. -/
def drag (drafts : List (Outcome Draft)) (label : Value) : Editing Reply := do
  let start := (← session).timeline
  restoring start (dragSteps drafts)
  endDrag start label
  return .steps drafts.length

/-- Applies a batch of requests and records the result. -/
def applyRequests (batch focused label : Value) : Editing Reply := do
  let session ← session
  let after ← drawing (Request.applyAll session.timeline batch focused)
  setSession (session.commit after label)
  return .done

/-- The file of a session as a value, null when it has none. -/
def fileValue (session : Session) : Value :=
  match session.file with
  | some path => .text path
  | none => .null

/-- Writes the project of a session to a file. A library that has no entries
to go through is found out before anything is written. -/
def saveTo (path : Value) : Editing Reply := do
  let workspace ← get
  let session := workspace.session
  let library ← ofOutcome (Project.entriesOf session.library)
  let saved := Project.save workspace.machine path session.timeline library
  set { workspace with machine := { workspace.machine with disk := saved.disk } }
  leave saved.notes
  let written ← ofOutcome saved.written
  match written, path with
  | true, .text path => setSession (session.savedTo path)
  | _, _ => pure ()
  return .flag written

/-- Saves the project of a session. -/
def save (path : Value) : Editing Reply := do
  let session ← session
  let path := if path.truthy then path else session.fileValue
  if path.truthy then saveTo path else throw (.invalid .noSavePath)

/-- The path that a value gives, if it is one. -/
def pathOf (path : Value) : Option Text :=
  match path with
  | .text path => some path
  | _ => none

/-- Opens the project of a file. -/
def load (path : Value) : Editing Reply := do
  let project ← noting (Project.load (← get).machine.disk path)
  setSession ((← session).reset project.timeline project.library (pathOf path))
  return .done

/-- Begins a new project. -/
def new : Editing Reply := do
  setSession ((← session).reset Timeline.empty [] none)
  return .done

/-- Goes through the history. -/
def travel (move : Session → Bool × Session) : Editing Reply := do
  let (moved, session) := move (← session)
  setSession session
  return .flag moved

end Session

/-- Performs an operation. -/
def Operation.perform : Operation → Editing Reply
  | .edit draft => Session.applyDraft draft
  | .splitAt time track => Session.splitAt time track
  | .addOverlay clip image opacity position size =>
    Session.addOverlay clip image opacity position size
  | .drag drafts label => Session.drag drafts label
  | .requests batch focused label => Session.applyRequests batch focused label
  | .undo => Session.travel Session.undo
  | .redo => Session.travel Session.redo
  | .new => Session.new
  | .save path => Session.save path
  | .load path => Session.load path

end Montage
