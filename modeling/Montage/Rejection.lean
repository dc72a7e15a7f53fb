import Montage.Value.Display

/-!
# Why an edit or an export is turned down

Each constructor is one cause, with what its message shows. A rejected
operation has changed nothing.
-/

namespace Montage

/-- How a record fails to have the shape that its reader needs. -/
inductive Malformation where
  /-- A required field is absent. -/
  | missingField (name : Text)
  /-- A value has a kind that cannot be used in its place. -/
  | illTyped
deriving DecidableEq

/-- The words for a malformed record. -/
def Malformation.message : Malformation → Text
  | .missingField name => "KeyError(" ++ Text.quoted name ++ ")"
  | .illTyped => "TypeError"

/-- The causes for which an edit, a request or an export is turned down. -/
inductive Rejection where
  /-- A trim point of a clip is not a finite number. -/
  | trimNotNumeric (clip : Value)
  /-- A clip ends no later than it begins. -/
  | emptyWindow (clip : Value)
  /-- A clip begins before its source does. -/
  | beforeSource (clip inTime : Value)
  /-- The duration of a clip's source is not a finite number. -/
  | noSourceDuration (clip : Value)
  /-- A clip ends after its source does. -/
  | afterSource (clip outTime duration : Value)
  /-- A clip is shorter than the timeline allows. -/
  | windowTooShort (clip : Value)
  /-- A clip names no filter of the export. -/
  | clipFilterUnknown (clip filter : Value)
  /-- A value names neither track. -/
  | unknownTrack (track : Value)
  /-- No clip has the id. -/
  | clipNotFound (clip : Value)
  /-- A clip with the id exists already. -/
  | duplicateClip (clip : Value)
  /-- A clip's track is not the one it is stored on. -/
  | misplacedClip (clip : Value)
  /-- A clip does not start where the one before it ends. -/
  | brokenLayout (clip : Value)
  /-- Two overlays of a stored clip share an id. -/
  | repeatedOverlays (clip : Value)
  /-- An argument is not a finite number. -/
  | notFinite (argument : Text) (value : Value)
  /-- An edit would make a clip shorter than the timeline allows. -/
  | clipTooShort
  /-- A split would leave a half shorter than the timeline allows. -/
  | splitNearEdge
  /-- A clip is moved to the track it is on. -/
  | alreadyOnTrack
  /-- An edit names no filter of the export. -/
  | filterUnknown (filter : Value)
  /-- Overlays are put on a clip that is not on the main track. -/
  | overlaysOffMain
  /-- An edit gives two overlays the same id. -/
  | overlayIdsRepeated
  /-- No clip of a track is at a time. -/
  | noClipAt (track : Value) (time : Binary64)
  /-- A request needs a clip and there is none. -/
  | emptyTimeline
  /-- The target of a request names no clip. -/
  | noTarget (target : Value)
  /-- The target of a request names several clips where one is needed. -/
  | targetNotAllowed (target : Value)
  /-- Overlays are requested and the main track is empty. -/
  | noMainClip
  /-- A request for overlays has none that can be added. -/
  | noOverlayAdded
  /-- No request has the name. -/
  | unknownRequest (name : Value)
  /-- A request of a batch does not have the shape of a request. -/
  | malformedRequest (index : Nat) (cause : Malformation)
  /-- A request of a batch was turned down. -/
  | failedRequest (index : Nat) (name : Value) (cause : Rejection)
  /-- The main track is empty, so there is nothing to export. -/
  | nothingToExport
  /-- The source of a clip cannot be read. -/
  | sourceMissing (clip path : Value)
  /-- No resolution has the name. -/
  | unknownResolution (name : Value)
  /-- The dimensions of the first source could not be read. -/
  | dimensionsUnreadable (cause : Text)
  /-- The dimensions of the first source are not positive numbers. -/
  | badDimensions (width height : Value)

namespace Rejection

/-- A sentence about the clip with the given id. -/
def aboutClip (clip : Value) (rest : Text) : Text := "Clip " ++ clip.display ++ " " ++ rest

/-- The message that goes with each cause. -/
def message : Rejection → Text
  | .trimNotNumeric clip => aboutClip clip "has non-numeric trim points"
  | .emptyWindow clip => aboutClip clip "has outTime <= inTime"
  | .beforeSource clip inTime =>
    aboutClip clip ("starts before its source (inTime=" ++ inTime.display ++ ")")
  | .noSourceDuration clip => aboutClip clip "has no valid source duration"
  | .afterSource clip outTime duration =>
    aboutClip clip ("ends after its source (outTime=" ++ outTime.display ++
      ", duration=" ++ duration.display ++ ")")
  | .windowTooShort clip => aboutClip clip "is shorter than 0.1 seconds"
  | .clipFilterUnknown clip filter => aboutClip clip ("has unknown filter: " ++ filter.display)
  | .unknownTrack track => "Unknown track: " ++ track.display
  | .clipNotFound clip => "Clip not found: " ++ clip.display
  | .duplicateClip clip => "Duplicate clip id: " ++ clip.display
  | .misplacedClip clip => aboutClip clip "is stored on the wrong track"
  | .brokenLayout clip => aboutClip clip "breaks the track layout"
  | .repeatedOverlays clip => aboutClip clip "has duplicate overlay ids"
  | .notFinite argument value =>
    argument ++ " must be a finite number, got " ++ value.quoted
  | .clipTooShort => "Clip must be at least 0.1 seconds long"
  | .splitNearEdge => "Split point must be at least 0.1s from clip edges"
  | .alreadyOnTrack => "Clip is already on that track"
  | .filterUnknown filter => "Unknown filter: " ++ filter.display
  | .overlaysOffMain => "Overlays can only be added to main video track (track 0)"
  | .overlayIdsRepeated => "Overlay ids must be unique within a clip"
  | .noClipAt track time =>
    "No clip on track " ++ track.display ++ " at " ++ time.fixed 2 ++ "s"
  | .emptyTimeline => "No clips on the timeline"
  | .noTarget target => "No clips found for target: " ++ target.display
  | .targetNotAllowed target => "Target " ++ target.quoted ++ " is not allowed here"
  | .noMainClip => "No main video clip (track 0) found to add overlays to"
  | .noOverlayAdded => "Failed to add any overlays"
  | .unknownRequest name => "Unknown request: " ++ name.display
  | .malformedRequest index cause =>
    "Request " ++ toString index ++ " is malformed: " ++ cause.message
  | .failedRequest index name cause =>
    "Request " ++ toString index ++ " (" ++ name.display ++ ") failed: " ++ cause.message
  | .nothingToExport => "No video clips to export"
  | .sourceMissing clip path =>
    "Source not found for clip " ++ clip.display ++ ": " ++ path.display
  | .unknownResolution name => "Unknown resolution: " ++ name.display
  | .dimensionsUnreadable cause => "Could not read source dimensions: " ++ cause
  | .badDimensions width height =>
    "Source has invalid dimensions: " ++ width.display ++ "x" ++ height.display

end Rejection

end Montage
