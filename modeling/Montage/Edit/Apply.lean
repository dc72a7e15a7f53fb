import Montage.Edit.Basic

/-!
# Applying edits

An edit either gives a new timeline or is turned down before anything is
built. Only the tracks it touches are laid out anew.
-/

namespace Montage.Edit

/-- A time given to an edit, which must be a finite number. -/
def requireTime (argument : Text) (value : Value) : Outcome Value := do
  if (← value.isFinite) then return value else reject (.notFinite argument value)

/-- Inserts a clip at an index if it lies within the list, and at the end if it
is null, negative or past the end. -/
def insertOrAppend (clips : List Clip) (index : Value) (clip : Clip) : Outcome (List Clip) := do
  if index.isNull then return clips ++ [clip]
  else if (← index.lt (.int 0)) then return clips ++ [clip]
  else if (← Value.le (.int clips.length) index) then return clips ++ [clip]
  else return clips.insertIdx (← index.position).toNat clip

/-- The clips of a list without those of an id. -/
def without (id : Value) (clips : List Clip) : List Clip :=
  clips.filter fun clip => !clip.id.equal id

/-- Inserts an untrimmed clip. -/
def applyInsert (timeline : Timeline) (track : Value) (source : Source)
    (duration index id : Value) : Outcome Timeline := do
  let _ ← Track.ofValue track
  let duration ← requireTime "Native duration" duration
  Clip.rejectIf (← duration.lt (.real minClipDuration)) .clipTooShort
  Clip.rejectIf (timeline.find? id).isSome (.duplicateClip id)
  let source := if source.duration.equal duration then source else { source with duration }
  let clips ← insertOrAppend (← timeline.track track) index
    (Clip.plain id source (.real 0) duration track)
  let _ ← source.name
  timeline.withTrack track clips

/-- The end of a window that a trim asks for, forced into the source; null
keeps the present one. -/
def trimmedTo (argument : Text) (wanted present native : Value) : Outcome Value := do
  if wanted.isNull then return present
  else (← requireTime argument wanted).clamp (.real 0) native

/-- Moves the ends of a clip's window. -/
def applyTrim (timeline : Timeline) (id inTime outTime : Value) : Outcome Timeline := do
  let clip ← timeline.require id
  let newIn ← trimmedTo "In time" inTime clip.inTime clip.source.duration
  let newOut ← trimmedTo "Out time" outTime clip.outTime clip.source.duration
  Clip.rejectIf (← (Value.number (← newOut.sub newIn)).lt (.real minClipDuration)) .clipTooShort
  timeline.replaceClip { clip with inTime := newIn, outTime := newOut }

/-- Whether a time lies too near to an end of a clip to split it there. -/
def nearEdge (clip : Clip) (time : Value) : Outcome Bool := do
  if (← time.lt (.real minClipDuration)) then return true
  else
    let last ← (Value.number (← clip.duration)).sub (.real minClipDuration)
    (Value.number last).lt time

/-- Splits a clip in two that share the source time of the cut. -/
def applySplit (timeline : Timeline) (id time first second : Value) : Outcome Timeline := do
  let clip ← timeline.require id
  let time ← requireTime "Split point" time
  Clip.rejectIf (← nearEdge clip time) .splitNearEdge
  let cut := Value.number (← clip.inTime.add time)
  let halves := [{ clip with id := first, outTime := cut }, { clip with id := second, inTime := cut }]
  let clips ← timeline.track clip.track
  timeline.withTrack clip.track
    (clips.flatMap fun other => if other.id.equal clip.id then halves else [other])

/-- Moves a clip to another index of its track. -/
def applyReorder (timeline : Timeline) (id index : Value) : Outcome Timeline := do
  let clip ← timeline.require id
  unless (← index.isFinite) do reject (.notFinite "Target index" index)
  let others := without clip.id (← timeline.track clip.track)
  let place ← (← index.clamp (.int 0) (.int others.length)).toWhole
  timeline.withTrack clip.track (others.insertIdx place.toNat clip)

/-- Removes a clip. -/
def applyDelete (timeline : Timeline) (id : Value) : Outcome Timeline := do
  let clip ← timeline.require id
  timeline.withTrack clip.track (without clip.id (← timeline.track clip.track))

/-- Moves a clip to the other track. Image overlays stay behind unless it comes
to the main track. -/
def applyMove (timeline : Timeline) (id track index newId : Value) : Outcome Timeline := do
  let clip ← timeline.require id
  let target ← Track.ofValue track
  Clip.rejectIf (clip.track.equal track) .alreadyOnTrack
  let timeline ← applyDelete timeline clip.id
  let overlays := match target with
    | .main => clip.overlays
    | .overlay => []
  let clips ← insertOrAppend (← timeline.track track) index
    { clip with id := newId, track, overlays }
  timeline.withTrack track clips

/-- Sets the filter of a clip, which must be one of the export. -/
def applyFilter (timeline : Timeline) (id name : Value) : Outcome Timeline := do
  Clip.rejectIf (!name.isNull && !name.isOneOf videoFilters) (.filterUnknown name)
  let clip ← timeline.require id
  timeline.replaceClip { clip with filter := name }

/-- Replaces the overlays of a clip. Only clips of the main track have any. -/
def applyOverlays (timeline : Timeline) (id : Value) (images : List Overlay) :
    Outcome Timeline := do
  let clip ← timeline.require id
  Clip.rejectIf (!images.isEmpty && !clip.track.equal Track.main.toValue) .overlaysOffMain
  Clip.rejectIf (← Value.hasRepeats (images.map Overlay.id)) .overlayIdsRepeated
  timeline.replaceClip { clip with overlays := images }

/-- Applies an edit to a timeline. -/
def apply (edit : Edit) (timeline : Timeline) : Outcome Timeline :=
  match edit with
  | .insert track source duration index id => applyInsert timeline track source duration index id
  | .trim clip inTime outTime => applyTrim timeline clip inTime outTime
  | .split clip time first second => applySplit timeline clip time first second
  | .reorder clip index => applyReorder timeline clip index
  | .delete clip => applyDelete timeline clip
  | .move clip track index newId => applyMove timeline clip track index newId
  | .mute clip muted => do
    timeline.replaceClip { (← timeline.require clip) with muted := .bool muted }
  | .filter clip name => applyFilter timeline clip name
  | .overlays clip images => applyOverlays timeline clip images
  | .geometry clip position size => do
    let old ← timeline.require clip
    timeline.replaceClip
      { old with position := position.getD old.position, size := size.getD old.size }

/-- Applies edits one after the other. -/
def applyAll (edits : List Edit) (timeline : Timeline) : Outcome Timeline :=
  edits.foldlM (fun timeline edit => edit.apply timeline) timeline

end Montage.Edit
