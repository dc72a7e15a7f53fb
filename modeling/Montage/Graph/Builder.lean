import Montage.Export.Options
import Montage.Graph.Topology
import Montage.Note
import Montage.Timeline.Clip

/-!
# Building render graphs

Every clip of the main track is trimmed, filtered and covered with its image
overlays; the clips are put after each other; the overlay track is laid over
the result as a picture in the picture; and the whole is scaled to the output
size. A builder collects the inputs and stages on the way.
-/

namespace Montage

/-- The inputs, stages and notes of a graph that is being built. -/
structure Builder where
  /-- The input files so far. -/
  inputs : List GraphInput
  /-- The stages so far, in order. -/
  stages : List Stage
  /-- The notes so far, in order. -/
  notes : List Note

namespace Builder

/-- A builder that holds nothing. -/
def empty : Builder := ⟨[], [], []⟩

/-- The input for a file. A file of the same kind and path is read only once. -/
def addInput (builder : Builder) (path kind : Value) : GraphInput × Builder :=
  match builder.inputs.find? fun input =>
    input.kind.equal kind && input.path.display = path.display with
  | some input => (input, builder)
  | none =>
    let input : GraphInput := ⟨.int builder.inputs.length, path, kind⟩
    (input, { builder with inputs := builder.inputs ++ [input] })

/-- Adds a stage at the end. -/
def addStage (builder : Builder) (stage : Stage) : Builder :=
  { builder with stages := builder.stages ++ [stage] }

/-- Leaves a note. -/
def addNote (builder : Builder) (note : Note) : Builder :=
  { builder with notes := builder.notes ++ [note] }

end Builder

namespace Stage

/-- The label of the joined picture of the main track. -/
def mainVideo : Text := "mainVideo"

/-- The label of the joined sound of the main track. -/
def mainAudio : Text := "mainAudio"

/-- The label of the output's picture. -/
def outputVideo : Text := "outv"

end Stage

/-- A position and a size whose values lie within the frame. -/
structure Frame where
  /-- The width in percent. -/
  width : Value
  /-- The height in percent. -/
  height : Value
  /-- The distance from the left edge in percent. -/
  x : Value
  /-- The distance from the upper edge in percent. -/
  y : Value

/-- Forces a position and a size into the frame. -/
def Frame.clamped (position : Position) (size : Size) : Outcome Frame := do
  return {
    width := ← size.width.clampPercent
    height := ← size.height.clampPercent
    x := ← position.x.clampPercent
    y := ← position.y.clampPercent }

/-- Forces the geometry and the opacity of an overlay into their ranges. -/
def Overlay.clamped (overlay : Overlay) : Outcome (Frame × Value) := do
  let frame ← Frame.clamped overlay.position overlay.size
  return (frame, ← overlay.opacity.clampOpacity)

namespace Builder

/-- Trims the picture of a clip. -/
def trimVideo (builder : Builder) (clip : Clip) (label : Text) : Builder :=
  let (source, builder) := builder.addInput clip.source.path GraphInput.media
  builder.addStage (.trim source.video label clip.inTime clip.outTime clip.filter)

/-- Trims the sound of a clip. -/
def trimAudio (builder : Builder) (clip : Clip) (label : Text) (muted : Bool) : Builder :=
  let (source, builder) := builder.addInput clip.source.path GraphInput.media
  builder.addStage (.audioTrim source.audio label clip.inTime clip.outTime muted)

/-- Lays an image over a picture; the label of the result is returned. The
numbers of the clip and the overlay make the labels. -/
def layImage (builder : Builder) (index number : Nat) (overlay : Overlay) (frame : Frame)
    (opacity : Value) (video : Text) : Text × Builder :=
  let (image, builder) := builder.addInput overlay.image GraphInput.image
  let mark := toString index ++ "_" ++ toString number
  let builder := builder.addStage (.overlayScale image.video video ("ov" ++ mark) ("ref" ++ mark)
    frame.width frame.height opacity overlay.image)
  let label := "v" ++ mark
  (label, builder.addStage (.overlay ("ref" ++ mark) ("ov" ++ mark) label frame.x frame.y "repeat"))

/-- The note about an overlay that is left out. -/
def skippedNote (clip : Clip) (overlay : Overlay) : Note :=
  ⟨.warning, "Skipping overlay " ++ overlay.id.display ++ " on clip " ++ clip.id.display ++
    ": invalid geometry"⟩

/-- Lays the overlays of a clip over its picture, from a number on. Those whose
values cannot be forced into their ranges are left out with a note. -/
def layImages (builder : Builder) (index : Nat) (clip : Clip) (video : Text) (number : Nat) :
    List Overlay → Text × Builder
  | [] => (video, builder)
  | overlay :: overlays =>
    match overlay.clamped with
    | .ok (frame, opacity) =>
      let (video, builder) := builder.layImage index number overlay frame opacity video
      builder.layImages index clip video (number + 1) overlays
    | .error _ =>
      (builder.addNote (skippedNote clip overlay)).layImages index clip video (number + 1) overlays

/-- Adds a clip of the main track; the labels of its picture and its sound are
returned. -/
def addMainClip (builder : Builder) (options : ExportOptions) (index : Nat) (clip : Clip) :
    (Text × Text) × Builder :=
  let video := "v" ++ toString index
  let audio := "a" ++ toString index
  let muted := clip.muted.truthy || options.mainMuted.truthy
  let builder := (builder.trimVideo clip video).trimAudio clip audio muted
  let (video, builder) := builder.layImages index clip video 0 clip.overlays
  ((video, audio), builder)

/-- Adds clips of the main track from a number on. -/
def addMainClips (builder : Builder) (options : ExportOptions) (index : Nat) :
    List Clip → List (Text × Text) × Builder
  | [] => ([], builder)
  | clip :: clips =>
    let (labels, builder) := builder.addMainClip options index clip
    let (rest, builder) := builder.addMainClips options (index + 1) clips
    (labels :: rest, builder)

/-- Adds the main track; the labels of its picture and its sound are returned.
A single clip needs no joining. -/
def addMainTrack (builder : Builder) (options : ExportOptions) (clips : List Clip) :
    (Text × Text) × Builder :=
  let (labels, builder) := builder.addMainClips options 0 clips
  match labels with
  | [pair] => (pair, builder)
  | pairs =>
    let inputs := pairs.flatMap fun (video, audio) => [video, audio]
    ((Stage.mainVideo, Stage.mainAudio),
      builder.addStage
        (.concat inputs [Stage.mainVideo, Stage.mainAudio] pairs.length 1 1))

/-- Trims the clips of the overlay track from a number on; the labels of their
pictures are returned. -/
def trimOverlayClips (builder : Builder) (index : Nat) : List Clip → List Text × Builder
  | [] => ([], builder)
  | clip :: clips =>
    let label := "t" ++ toString index
    let (rest, builder) := (builder.trimVideo clip label).trimOverlayClips (index + 1) clips
    (label :: rest, builder)

/-- Joins the pictures of the overlay track; a single one needs no joining. -/
def joinOverlayClips (builder : Builder) (labels : List Text) : Text × Builder :=
  match labels with
  | [label] => (label, builder)
  | labels =>
    let joined := "overlayVideo"
    (joined, builder.addStage (.concat labels [joined] labels.length 1 0))

/-- Lays the overlay track over the main picture. The whole track has the place
and the size of its first clip. -/
def addOverlayTrack (builder : Builder) (first : Clip) (clips : List Clip) (mainVideo : Text) :
    Outcome (Text × Builder) :=
  match Frame.clamped first.position first.size with
  | .error _ => .error (.uncompilable (.overlayGeometry first.id))
  | .ok frame =>
    let (labels, builder) := builder.trimOverlayClips 0 clips
    let (picture, builder) := builder.joinOverlayClips labels
    let builder := builder.addStage (.overlayScale picture mainVideo "overlayScaled" "overlayBase"
      frame.width frame.height .null .null)
    let composited := "composited"
    .ok (composited, builder.addStage
      (.overlay "overlayBase" "overlayScaled" composited frame.x frame.y "pass"))

/-- Lays the overlay track over the main picture if it has clips and is shown. -/
def addOverlay (builder : Builder) (options : ExportOptions) (clips : List Clip)
    (mainVideo : Text) : Outcome (Text × Builder) :=
  match clips with
  | [] => .ok (mainVideo, builder)
  | first :: _ =>
    if options.overlayTrackVisible.truthy then builder.addOverlayTrack first clips mainVideo
    else .ok (mainVideo, builder)

end Builder

/-- The sum of the durations of clips, added up in their order. -/
def totalDuration (clips : List Clip) : Outcome Number :=
  clips.foldlM (fun total clip => do (Value.number total).add (.number (← clip.duration))) 0

/-- Faults of other kinds during the construction become graph faults. -/
def asGraphFault : Fault → Fault
  | .uncompilable why => .uncompilable why
  | _ => .uncompilable .construction

namespace RenderGraph

/-- Finishes a graph whose tracks were added, and checks its labels. -/
def finish (builder : Builder) (video audio : Text) (main : List Clip) (width height : Value) :
    Outcome RenderGraph := do
  let builder := builder.addStage (.scalePad video Stage.outputVideo width height)
  let builder := builder.addStage (.mux Stage.outputVideo audio)
  let graph : RenderGraph := {
    inputs := builder.inputs
    stages := builder.stages
    width := width
    height := height
    duration := .number (← totalDuration main)
    videoOutput := Stage.outputVideo
    audioOutput := audio }
  graph.checkTopology
  return graph

/-- Builds the graph of clips that passed validation, with the notes about the
overlays that are left out. -/
def construct (main overlay : List Clip) (options : ExportOptions) (width height : Value) :
    Outcome RenderGraph × List Note :=
  let ((video, audio), builder) := Builder.empty.addMainTrack options main
  let graph := do
    let (video, builder) ← builder.addOverlay options overlay video
    finish builder video audio main width height
  (graph.mapError asGraphFault, builder.notes)

/-- The note about a finished graph, which shows its duration with two decimal
places. -/
def builtNote (graph : RenderGraph) : Outcome Note := do
  let seconds ← graph.duration.toReal
  return ⟨.info, "Built render graph: " ++ toString graph.stages.length ++ " stages, " ++
    graph.width.display ++ "x" ++ graph.height.display ++ ", " ++ seconds.fixed 2 ++ "s"⟩

/-- Builds a graph. One whose duration is too large to be shown is not
returned. -/
def build (main overlay : List Clip) (options : ExportOptions) (width height : Value) :
    Outcome RenderGraph × List Note :=
  match construct main overlay options width height with
  | (.error fault, notes) => (.error fault, notes)
  | (.ok graph, notes) =>
    match graph.builtNote with
    | .ok note => (.ok graph, notes ++ [note])
    | .error fault => (.error fault, notes)

end RenderGraph

end Montage
