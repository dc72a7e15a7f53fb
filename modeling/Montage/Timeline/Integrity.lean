import Montage.Timeline.Basic

/-!
# The invariants of a timeline

On every track the clips have ids of their own, belong to the track, have a
valid window, follow each other without gaps, and name their overlays apart.
-/

namespace Montage.Timeline

/-- Checks one track from a time on, given the ids seen before it. The ids seen
after it are returned. -/
def checkTrack (track : Track) (seen : List Value) (start : Value) :
    List Clip → Outcome (List Value)
  | [] => .ok seen
  | clip :: clips => do
    clip.id.checkKey
    Clip.rejectIf (clip.id.isAmong seen) (.duplicateClip clip.id)
    Clip.rejectIf (!clip.track.equal track.toValue) (.misplacedClip clip.id)
    clip.validate
    Clip.rejectIf (!clip.startTime.equal start) (.brokenLayout clip.id)
    Clip.rejectIf (← Value.hasRepeats (clip.overlays.map Overlay.id)) (.repeatedOverlays clip.id)
    checkTrack track (clip.id :: seen) (← clip.timelineEnd) clips

/-- Checks the invariants of both tracks; the first violation is reported. -/
def checkInvariants (timeline : Timeline) : Outcome Unit := do
  let seen ← checkTrack .main [] (.real 0) timeline.main
  let _ ← checkTrack .overlay seen (.real 0) timeline.overlay
  return ()

end Montage.Timeline
