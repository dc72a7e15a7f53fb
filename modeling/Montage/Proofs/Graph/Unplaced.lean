import Montage.Graph.Compile
import Montage.Proofs.Timeline.Layout

/-!
# Compiling without start times

Once the clips of a track are in order, nothing in a compilation looks at their
start times: tracks that are the same up to start times are validated alike, and
the same graph is built of them.
-/

namespace Montage

namespace Builder

variable (builder : Builder) (options : ExportOptions)

/-- Images are laid over a clip without its start time. -/
theorem layImages_unplaced (index : Nat) (clip : Clip) (video : Text) (number : Nat)
    (overlays : List Overlay) :
    builder.layImages index clip.unplaced video number overlays =
      builder.layImages index clip video number overlays := by
  induction overlays generalizing builder video number with
  | nil => rfl
  | cons overlay overlays ih =>
    have hnote : skippedNote clip.unplaced overlay = skippedNote clip overlay := rfl
    simp only [layImages, ih, hnote]

/-- The clips of the main track are added without their start times. -/
theorem addMainClips_unplaced (index : Nat) (clips : List Clip) :
    builder.addMainClips options index (clips.map Clip.unplaced) =
      builder.addMainClips options index clips := by
  induction clips generalizing builder index with
  | nil => rfl
  | cons clip clips ih =>
    have hclip : builder.addMainClip options index clip.unplaced =
        builder.addMainClip options index clip := by
      simp only [addMainClip, layImages_unplaced]
      rfl
    simp only [List.map_cons, addMainClips, hclip, ih]

/-- The main track is added without start times. -/
theorem addMainTrack_unplaced (clips : List Clip) :
    builder.addMainTrack options (clips.map Clip.unplaced) =
      builder.addMainTrack options clips := by
  simp only [addMainTrack, addMainClips_unplaced]

/-- The clips of the overlay track are trimmed without their start times. -/
theorem trimOverlayClips_unplaced (index : Nat) (clips : List Clip) :
    builder.trimOverlayClips index (clips.map Clip.unplaced) =
      builder.trimOverlayClips index clips := by
  induction clips generalizing builder index with
  | nil => rfl
  | cons clip clips ih =>
    have hclip (label : Text) :
        builder.trimVideo clip.unplaced label = builder.trimVideo clip label := rfl
    simp only [List.map_cons, trimOverlayClips, hclip, ih]

/-- The overlay track is added without start times. -/
theorem addOverlay_unplaced (clips : List Clip) (video : Text) :
    builder.addOverlay options (clips.map Clip.unplaced) video =
      builder.addOverlay options clips video := by
  cases clips with
  | nil => rfl
  | cons first clips =>
    have htrim (index : Nat) := builder.trimOverlayClips_unplaced index (first :: clips)
    simp only [List.map_cons] at htrim ⊢
    simp only [addOverlay, addOverlayTrack, htrim]
    rfl

end Builder

/-- Durations are added up without start times. -/
theorem totalDuration_unplaced (clips : List Clip) :
    totalDuration (clips.map Clip.unplaced) = totalDuration clips := by
  unfold totalDuration
  rw [List.foldlM_map]
  rfl

/-- A graph is built without start times. -/
theorem RenderGraph.build_unplaced (main overlay : List Clip) (options : ExportOptions)
    (width height : Value) :
    RenderGraph.build (main.map Clip.unplaced) (overlay.map Clip.unplaced) options width height =
      RenderGraph.build main overlay options width height := by
  have hconstruct : construct (main.map Clip.unplaced) (overlay.map Clip.unplaced) options width
      height = construct main overlay options width height := by
    simp only [construct, finish, Builder.addMainTrack_unplaced, Builder.addOverlay_unplaced,
      totalDuration_unplaced]
  unfold build
  rw [hconstruct]

namespace Compile

variable (outside : Outside)

/-- Clips are validated without their start times. -/
theorem validateEach_unplaced (clips : List Clip) :
    validateEach outside (clips.map Clip.unplaced) = validateEach outside clips := by
  induction clips with
  | nil => rfl
  | cons clip clips ih =>
    simp only [List.map_cons, validateEach, ih]
    rfl

/-- Both tracks are validated without start times. -/
theorem validate_unplaced (main overlay : List Clip) :
    validate outside (main.map Clip.unplaced) (overlay.map Clip.unplaced) =
      validate outside main overlay := by
  simp only [validate, List.isEmpty_map, ← List.map_append, validateEach_unplaced]

/-- The dimensions of the output are found without start times. -/
theorem dimensions_unplaced (main : List Clip) (resolution : Value) :
    dimensions outside (main.map Clip.unplaced) resolution =
      dimensions outside main resolution := by
  cases main with
  | nil => rfl
  | cons first main =>
    refine congrArg (Compiling.ofOutcome (Resolution.dimensions? resolution) >>= ·) ?_
    funext size
    cases size <;> rfl

/-- Compiles tracks that are in order. -/
def ofTracks (main overlay : List Clip) (options : ExportOptions) : Compiling RenderGraph := do
  validate outside main overlay
  let (width, height) ← dimensions outside main options.resolution
  buildNoted main overlay options width height

/-- Tracks are compiled without start times. -/
theorem ofTracks_unplaced (main overlay : List Clip) (options : ExportOptions) :
    ofTracks outside (main.map Clip.unplaced) (overlay.map Clip.unplaced) options =
      ofTracks outside main overlay options := by
  simp only [ofTracks, validate_unplaced, dimensions_unplaced, buildNoted,
    RenderGraph.build_unplaced]

/-- Tracks that are the same up to start times are compiled alike. -/
theorem ofTracks_congr {main overlay main' overlay' : List Clip}
    (hmain : main.map Clip.unplaced = main'.map Clip.unplaced)
    (hoverlay : overlay.map Clip.unplaced = overlay'.map Clip.unplaced)
    (options : ExportOptions) :
    ofTracks outside main overlay options = ofTracks outside main' overlay' options := by
  rw [← ofTracks_unplaced, hmain, hoverlay, ofTracks_unplaced]

/-- A compilation puts the clips in order and compiles the tracks. -/
theorem run_of_tracks_eq_ok {footage : Footage} {main overlay : List Clip}
    (h : footage.tracks = .ok (main, overlay)) (options : ExportOptions) :
    run outside footage options = ofTracks outside main overlay options := by
  rw [run, h]
  rfl

/-- A compilation ends at once if the clips cannot be put in order. -/
theorem run_of_tracks_eq_error {footage : Footage} {fault : Fault}
    (h : footage.tracks = .error fault) (options : ExportOptions) (trace : Trace) :
    (run outside footage options).run.run trace = (.error fault, trace) := by
  rw [run, h]
  rfl

end Compile

end Montage
