import Montage.Edit.Apply
import Montage.Request.Basic
import Montage.Request.Target
import Montage.Supply

/-!
# Applying batches of requests

A request is translated into edits of the timeline that the requests before it
have led to. A batch is applied as a whole or not at all, and the first request
that cannot be applied is named.
-/

namespace Montage.Request

/-- The opacity of a requested overlay unless the request gives one. -/
def overlayOpacity : Value := .real 0.5

/-- The most overlays that one request adds. -/
def overlaysPerRequest : Nat := 1

/-- The first overlays that a request describes. -/
def describedOverlays (value : Value) : Outcome (List Value) :=
  if value.truthy then
    match value with
    | .record _ => .error .illTyped
    | value => do return (← value.elements).take overlaysPerRequest
  else .ok []

/-- The image of a described overlay, which may be given by either of two
names. -/
def imageOf (overlay : Value) : Outcome Value := do
  let image ← overlay.lookup "imageRef" .null
  if image.truthy then return image else overlay.lookup "filePath" .null

/-- Makes the overlays that a request describes. Those without an image are
skipped with a note. -/
def makeOverlays (made : List Overlay) : List Value → Drawing (List Overlay)
  | [] => return made
  | described :: rest => do
    let image ← Drawing.ofOutcome (imageOf described)
    if image.truthy then
      let type ← Drawing.ofOutcome (Placement.inferType described)
      let (position, size) ← Drawing.place type (.int made.length)
      let wanted ← Drawing.ofOutcome (described.lookup "opacity" .null)
      let opacity := if wanted.truthy then wanted else overlayOpacity
      let id ← Drawing.newOverlayId
      makeOverlays (made ++ [⟨id, image, opacity, position, size⟩]) rest
    else
      Drawing.note .error "Overlay missing imageRef"
      makeOverlays made rest

/-- The main clip that overlays are added to. Targets that are not on the main
track fall back on its first clip. -/
def mainClip (timeline : Timeline) (target focused : Value) : Drawing Clip :=
  match timeline.main with
  | [] => throw (.rejected .noMainClip)
  | first :: _ =>
    if Target.isPlural target then return first
    else do
      let clip ← Drawing.ofOutcome (Target.resolveFirst timeline target focused)
      if clip.track.equal Track.main.toValue then return clip
      else
        Drawing.note .warning ("Clip " ++ clip.id.display ++
          " is not on main track (track 0), using first main track clip instead")
        return first

/-- The edit that adds the overlays of a request. -/
def overlayEdits (timeline : Timeline) (request : Request) (focused : Value) :
    Drawing (List Edit) := do
  let target ← Drawing.ofOutcome request.target
  let clip ← mainClip timeline target focused
  let described ← Drawing.ofOutcome do describedOverlays (← request.argument "overlays" .null)
  let made ← makeOverlays [] described
  if made.isEmpty then throw (.rejected .noOverlayAdded)
  else return [.overlays clip.id (clip.overlays ++ made)]

/-- The names of the requests. -/
inductive Kind where
  /-- Inserts a clip. -/
  | insertClip
  /-- Trims a clip. -/
  | trimClip
  /-- Splits a clip. -/
  | splitClip
  /-- Moves a clip within its track. -/
  | reorderClip
  /-- Removes a clip. -/
  | deleteClip
  /-- Silences clips. -/
  | setMute
  /-- Sets the filter of clips. -/
  | applyFilter
  /-- Sets or clears the grayscale filter of the overlay track. -/
  | blackAndWhite
  /-- Adds an image overlay. -/
  | addOverlays

/-- The kinds of requests by name. -/
def kinds : List (Text × Kind) := [
  ("insertClip", .insertClip),
  ("trimClip", .trimClip),
  ("splitClipAtTime", .splitClip),
  ("reorderClip", .reorderClip),
  ("deleteClip", .deleteClip),
  ("setMute", .setMute),
  ("applyFilterToClip", .applyFilter),
  ("applyBlackAndWhiteToTrack1", .blackAndWhite),
  ("addOverlaysToClip", .addOverlays)]

/-- The kind of a request. -/
def kind (request : Request) : Outcome Kind :=
  match kinds.find? fun entry => request.name.equal (.text entry.1) with
  | some (_, kind) => .ok kind
  | none => reject (.unknownRequest request.name)

/-- Whether a value is the truth value "false", rather than merely empty. -/
def isFalse : Value → Bool
  | .bool b => !b
  | _ => false

/-- Translates a request into edits of a timeline. -/
def edits (timeline : Timeline) (request : Request) (focused : Value) : Drawing (List Edit) := do
  let argument := fun (name : Text) (default : Value) =>
    Drawing.ofOutcome (request.argument name default)
  let single := Drawing.ofOutcome do
    Target.resolveSingle timeline (← request.target) focused
  let targets := Drawing.ofOutcome do Target.resolve timeline (← request.target) focused
  match ← Drawing.ofOutcome request.kind with
  | .insertClip => do
    let track ← argument "track" (.int 0)
    let source ← Drawing.ofOutcome do
      Source.ofValue (← request.arguments.require "sourceRef")
    let index ← argument "insertIndex" .null
    return [Edit.insertSource track source .null index (← Drawing.newClipId)]
  | .trimClip => do
    let clip ← single
    return [.trim clip.id (← argument "inTime" .null) (← argument "outTime" .null)]
  | .splitClip => do
    let clip ← single
    let time ← argument "timestamp" .null
    let first ← Drawing.newClipId
    return [.split clip.id time first (← Drawing.newClipId)]
  | .reorderClip => do
    let clip ← single
    return [.reorder clip.id (← argument "index" (.int 0))]
  | .deleteClip => do return [.delete (← single).id]
  | .setMute => do
    let clips ← targets
    let muted ← argument "muted" (.bool true)
    return clips.map fun clip => .mute clip.id muted.truthy
  | .applyFilter => do
    let clips ← targets
    let name ← argument "filter" .null
    return clips.map fun clip => .filterNamed clip.id name
  | .blackAndWhite => do
    let enable ← argument "enable" (.bool true)
    let name : Value := if isFalse enable then .null else .text "grayscale"
    return timeline.overlay.map fun clip => .filter clip.id name
  | .addOverlays => overlayEdits timeline request focused

/-- What goes wrong with a request, told with its number in the batch. -/
def located (index : Nat) (name : Value) (fault : Fault) : Fault :=
  match fault with
  | .rejected why => .rejected (.failedRequest index name why)
  | fault =>
    match fault.malformation? with
    | some cause => .rejected (.malformedRequest index cause)
    | none => fault

/-- Applies one request. -/
def applyOne (timeline : Timeline) (request : Request) (focused : Value) : Drawing Timeline := do
  let edits ← edits timeline request focused
  Drawing.ofOutcome (Edit.applyAll edits timeline)

/-- Applies the requests of a batch from a number on. -/
def applyFrom (index : Nat) (timeline : Timeline) (focused : Value) :
    List (Outcome Request) → Drawing Timeline
  | [] => return timeline
  | request :: requests => do
    match request with
    | .error fault => throw (located index .null fault)
    | .ok request =>
      let after ← tryCatch (applyOne timeline request focused)
        fun fault => throw (located index request.name fault)
      Drawing.note .info ("Applied request " ++ toString index ++ ": " ++ request.name.display)
      applyFrom (index + 1) after focused requests

/-- Applies a batch of request documents. -/
def applyAll (timeline : Timeline) (requests focused : Value) : Drawing Timeline := do
  let requests ← Drawing.ofOutcome requests.elements
  applyFrom 0 timeline focused (requests.map ofValue)

end Montage.Request
