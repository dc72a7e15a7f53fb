import Montage.Timeline.Overlay

/-!
# Clips

A clip shows a part of a source file: the window between its in time and its
out time. Its start on the timeline follows from the clips before it.
-/

namespace Montage

/-- The part of a path after its last slash. -/
def fileName (path : Text) : Text :=
  ⟨(path.points.reverse.takeWhile (· ≠ .char '/')).reverse⟩

/-- A media file that clips are cut from. -/
structure Source where
  /-- The path of the file. -/
  path : Value
  /-- The length of the file in seconds. -/
  duration : Value
  /-- The width of its frames, null when unknown. -/
  width : Value
  /-- The height of its frames, null when unknown. -/
  height : Value

namespace Source

/-- The name of the file without its directory. -/
def name (source : Source) : Outcome Text :=
  match source.path with
  | .text path => .ok (fileName path)
  | _ => .error .illTyped

/-- The source as a document; unknown dimensions are left out. -/
def toValue (source : Source) : Value :=
  let known := fun (name : Text) (value : Value) => if value.isNull then [] else [(name, value)]
  .record (("path", source.path) :: ("duration", source.duration) ::
    (known "width" source.width ++ known "height" source.height))

/-- Reads a source. -/
def ofValue (value : Value) : Outcome Source := do
  return {
    path := ← value.require "path"
    duration := ← value.require "duration"
    width := ← value.lookup "width" .null
    height := ← value.lookup "height" .null }

/-- Whether two sources agree in everything. -/
def agrees (s t : Source) : Bool :=
  s.path.agrees t.path && s.duration.agrees t.duration &&
    s.width.agrees t.width && s.height.agrees t.height

end Source

/-- The filters that a clip can name. -/
def videoFilters : List Text :=
  ["grayscale", "sepia", "vintage", "xray", "blur", "bright", "dark", "high-contrast", "flicker"]

/-- A part of a source placed on a track. -/
structure Clip where
  /-- The name of the clip, unique on the timeline. -/
  id : Value
  /-- The file the clip is cut from. -/
  source : Source
  /-- Where the window begins in the source, in seconds. -/
  inTime : Value
  /-- Where the window ends in the source, in seconds. -/
  outTime : Value
  /-- Where the clip begins on the timeline, in seconds. -/
  startTime : Value
  /-- The track: 0 is the main track and 1 the overlay track. -/
  track : Value
  /-- Whether the sound of the clip is silenced. -/
  muted : Value
  /-- The filter of the clip, null for none. -/
  filter : Value
  /-- The images laid over the clip. -/
  overlays : List Overlay
  /-- Where a clip of the overlay track is placed. -/
  position : Position
  /-- How large a clip of the overlay track is shown. -/
  size : Size

namespace Clip

/-- A clip with nothing but a source, a window and a track. -/
def plain (id : Value) (source : Source) (inTime outTime track : Value) : Clip where
  id := id
  source := source
  inTime := inTime
  outTime := outTime
  startTime := .real 0
  track := track
  muted := .bool false
  filter := .null
  overlays := []
  position := .ofInset
  size := .quarter

/-- The length of the clip's window. -/
def duration (clip : Clip) : Outcome Number := clip.outTime.sub clip.inTime

/-- Where the clip ends on the timeline. -/
def timelineEnd (clip : Clip) : Outcome Number := do
  clip.startTime.add (← clip.duration)

/-- Whether a time of the timeline falls into the clip; its start does and its
end does not. -/
def containsTime (clip : Clip) (time : Value) : Outcome Bool := do
  if (← clip.startTime.le time) then time.lt (← clip.timelineEnd) else return false

/-- The clip as a document. -/
def toValue (clip : Clip) : Value := .record [
  ("id", clip.id),
  ("sourceRef", clip.source.toValue),
  ("inTime", clip.inTime),
  ("outTime", clip.outTime),
  ("startTime", clip.startTime),
  ("track", clip.track),
  ("muted", clip.muted),
  ("filter", clip.filter),
  ("overlays", .list (clip.overlays.map Overlay.toValue)),
  ("position", clip.position.toValue),
  ("size", clip.size.toValue)]

/-- Reads the overlays of a clip; everything empty stands for none. -/
def overlaysOfValue (value : Value) : Outcome (List Overlay) :=
  if value.truthy then do (← value.elements).mapM Overlay.ofValue else .ok []

/-- Reads a clip. Values are taken as they are: their ranges are checked when
the clip is placed on a timeline or compiled. -/
def ofValue (value : Value) : Outcome Clip := do
  return {
    id := ← value.require "id"
    source := ← Source.ofValue (← value.require "sourceRef")
    inTime := ← value.require "inTime"
    outTime := ← value.require "outTime"
    startTime := ← value.lookup "startTime" (.real 0)
    track := ← value.lookup "track" (.int 0)
    muted := ← value.lookup "muted" (.bool false)
    filter := (fun filter => if filter.truthy then filter else .null)
      (← value.lookup "filter" .null)
    overlays := ← overlaysOfValue (← value.lookup "overlays" .null)
    position := ← Position.ofValue (← value.lookup "position" .null) .ofInset
    size := ← Size.ofValue (← value.lookup "size" .null) .quarter }

/-- The smallest window that passes validation. -/
def shortestWindow : Binary64 := minClipDuration.sub timeTolerance

/-- Turns something down if a condition holds. -/
def rejectIf (condition : Bool) (why : Rejection) : Outcome Unit :=
  if condition then reject why else .ok ()

/-- Checks the window of a clip against its source, and its filter. The first
violated condition is reported. -/
def validate (clip : Clip) : Outcome Unit := do
  unless (← clip.inTime.isFinite) do reject (.trimNotNumeric clip.id)
  unless (← clip.outTime.isFinite) do reject (.trimNotNumeric clip.id)
  rejectIf (← clip.outTime.le clip.inTime) (.emptyWindow clip.id)
  rejectIf (← clip.inTime.lt (.int 0)) (.beforeSource clip.id clip.inTime)
  unless (← clip.source.duration.isFinite) do reject (.noSourceDuration clip.id)
  rejectIf (← (Value.number (← clip.source.duration.add (.real timeTolerance))).lt clip.outTime)
    (.afterSource clip.id clip.outTime clip.source.duration)
  rejectIf (← (Value.number (← clip.duration)).lt (.real shortestWindow)) (.windowTooShort clip.id)
  rejectIf (!clip.filter.isNull && !clip.filter.isOneOf videoFilters)
    (.clipFilterUnknown clip.id clip.filter)

/-- Whether two clips agree in everything. -/
def agrees (c d : Clip) : Bool :=
  c.id.agrees d.id && c.source.agrees d.source && c.inTime.agrees d.inTime &&
    c.outTime.agrees d.outTime && c.startTime.agrees d.startTime &&
    c.track.agrees d.track && c.muted.agrees d.muted && c.filter.agrees d.filter &&
    (c.overlays.length = d.overlays.length &&
      (c.overlays.zip d.overlays).all fun pair => pair.1.agrees pair.2) &&
    c.position.agrees d.position && c.size.agrees d.size

end Clip

end Montage
