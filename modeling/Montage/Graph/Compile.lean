import Montage.Graph.Builder
import Montage.Graph.Resolution
import Montage.Timeline.Basic
import Montage.Timeline.Ordered
import Montage.Trace

/-!
# Compiling timelines

All clips are validated before anything is built, and each source is looked for
once. Only an export at the size of its first source reads a file: it probes the
first source of the main track. Both kinds of outside calls are recorded in the
order in which they happen.
-/

namespace Montage

/-- The answers of the world outside. -/
structure Outside where
  /-- Whether a source can be found. -/
  sourceExists : Source → Outcome Bool
  /-- The width and height of a source, with the notes of the probe. -/
  probe : Source → Outcome Value × List Note

/-- A part of a compilation: it adds to the record and may end in a fault. -/
abbrev Compiling (α : Type) := ExceptT Fault (StateM Trace) α

namespace Compiling

/-- An outcome that needs nothing from outside. -/
def ofOutcome {α : Type} (outcome : Outcome α) : Compiling α := ExceptT.mk (pure outcome)

/-- Records an outside call. -/
def record (call : OutsideCall) : Compiling Unit :=
  modify fun trace => trace.record call

/-- Leaves notes. -/
def leave (notes : List Note) : Compiling Unit :=
  modify fun trace => trace.leave notes

end Compiling

/-- What is compiled: a timeline, or clips in any order. -/
inductive Footage where
  /-- The clips of a timeline, already in order. -/
  | timeline (whole : Timeline)
  /-- Clips that are put in order by their start times. -/
  | clips (loose : List Clip)

namespace Footage

/-- Whether a clip's track is one of the two. -/
def hasTrack (clip : Clip) : Bool := (Track.ofValue clip.track).isOk

/-- The clips whose track equals the number of a track. -/
def clipsOn (track : Track) (clips : List Clip) : List Clip :=
  clips.filter fun clip => clip.track.equal track.toValue

/-- The time that a clip is ordered by: its start if that is a finite number,
and zero otherwise. -/
def orderKey (clip : Clip) : Outcome Value := do
  if (← clip.startTime.isFinite) then return clip.startTime else return .real 0

/-- Puts clips in the order of their start times. -/
def inOrder (clips : List Clip) : Outcome (List Clip) := do
  let entries ← clips.mapM fun clip => do return (⟨← orderKey clip, clip⟩ : Keyed Clip)
  return (← Keyed.sort entries).map Keyed.item

/-- The clips of both tracks in order. -/
def tracks : Footage → Outcome (List Clip × List Clip)
  | .timeline whole => .ok (whole.main, whole.overlay)
  | .clips loose => do
    for clip in loose do clip.track.checkKey
    match loose.find? fun clip => !hasTrack clip with
    | some clip => reject (.unknownTrack clip.track)
    | none => return (← inOrder (clipsOn .main loose), ← inOrder (clipsOn .overlay loose))

end Footage

namespace Compile

/-- Looks for the source of each clip and validates the clip, one after the
other. -/
def validateEach (outside : Outside) : List Clip → Compiling Unit
  | [] => return ()
  | clip :: clips => do
    Compiling.record (.look clip.source)
    let found ← Compiling.ofOutcome (outside.sourceExists clip.source)
    if found then
      Compiling.ofOutcome clip.validate
      validateEach outside clips
    else throw (.rejected (.sourceMissing clip.id clip.source.path))

/-- Validates the clips of both tracks; the main track must have some. -/
def validate (outside : Outside) (main overlay : List Clip) : Compiling Unit :=
  if main.isEmpty then throw (.rejected .nothingToExport)
  else validateEach outside (main ++ overlay)

/-- What a failed probe means for the export, if the file is to blame. -/
def probeFault : Fault → Fault
  | .systemFailure message => .rejected (.dimensionsUnreadable message)
  | .fileMissing message => .rejected (.dimensionsUnreadable message)
  | .unreadableMedia message => .rejected (.dimensionsUnreadable message)
  | .isDirectory => .rejected (.dimensionsUnreadable "Is a directory")
  | .tooDeep innermost => .rejected (.dimensionsUnreadable (nestingMessage innermost))
  | fault => fault

/-- The whole numbers behind probed dimensions, which must be positive. -/
def usableDimensions (width height : Value) : Outcome (Value × Value) := do
  unless (← width.isFinite) do reject (.badDimensions width height)
  unless (← height.isFinite) do reject (.badDimensions width height)
  if (← width.le (.int 0)) || (← height.le (.int 0)) then reject (.badDimensions width height)
  else return (.int (← width.toWhole), .int (← height.toWhole))

/-- Probes the dimensions of a source. -/
def probeDimensions (outside : Outside) (source : Source) : Compiling (Value × Value) := do
  Compiling.record (.probe source)
  let (probed, notes) := outside.probe source
  Compiling.leave notes
  let (width, height) ← Compiling.ofOutcome do (← probed.mapError probeFault).pair
  Compiling.ofOutcome (usableDimensions width height)

/-- The output dimensions for a resolution. -/
def dimensions (outside : Outside) (main : List Clip) (resolution : Value) :
    Compiling (Value × Value) := do
  match ← Compiling.ofOutcome (Resolution.dimensions? resolution), main with
  | some (width, height), _ => return (.int width, .int height)
  | none, first :: _ => probeDimensions outside first.source
  | none, [] => throw .outOfRange

/-- Builds the graph and leaves its notes. -/
def buildNoted (main overlay : List Clip) (options : ExportOptions) (width height : Value) :
    Compiling RenderGraph := do
  let (graph, notes) := RenderGraph.build main overlay options width height
  Compiling.leave notes
  Compiling.ofOutcome graph

/-- Compiles footage for known output dimensions. -/
def sized (outside : Outside) (footage : Footage) (options : ExportOptions)
    (width height : Value) : Compiling RenderGraph := do
  let (main, overlay) ← Compiling.ofOutcome footage.tracks
  validate outside main overlay
  buildNoted main overlay options width height

/-- Compiles footage into a render graph. -/
def run (outside : Outside) (footage : Footage) (options : ExportOptions) :
    Compiling RenderGraph := do
  let (main, overlay) ← Compiling.ofOutcome footage.tracks
  validate outside main overlay
  let (width, height) ← dimensions outside main options.resolution
  buildNoted main overlay options width height

end Compile

end Montage
