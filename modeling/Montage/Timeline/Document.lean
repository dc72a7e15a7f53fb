import Montage.Timeline.Integrity
import Montage.Timeline.Ordered

/-!
# Timelines as documents

A timeline is saved as one list of clips. Reading groups the clips by track,
orders each track by the stored start times, lays it out anew and checks the
result.
-/

namespace Montage.Timeline

/-- The clips of both tracks, in the order in which they were given. -/
structure Grouped where
  /-- The clips of the main track. -/
  main : List Clip
  /-- The clips of the overlay track. -/
  overlay : List Clip

/-- Puts a clip in front of the others of its track. -/
def Grouped.push (clip : Clip) (groups : Grouped) : Track → Grouped
  | .main => { groups with main := clip :: groups.main }
  | .overlay => { groups with overlay := clip :: groups.overlay }

/-- Groups clips by track. They are read one at a time, so the first one that
cannot be read or has no track is reported. -/
def group {α : Type} (read : α → Outcome Clip) : List α → Outcome Grouped
  | [] => .ok ⟨[], []⟩
  | item :: items => do
    let clip ← read item
    let track ← Track.ofValue clip.track
    let groups ← group read items
    return groups.push clip track

/-- The timeline of grouped clips: each track in the order of its start times,
laid out, and the whole checked. -/
def ofGrouped (groups : Grouped) : Outcome Timeline := do
  let main ← layout (← sortOn Clip.startTime groups.main)
  let overlay ← layout (← sortOn Clip.startTime groups.overlay)
  let timeline : Timeline := ⟨main, overlay⟩
  timeline.checkInvariants
  return timeline

/-- The timeline of a list of clips in any order. -/
def ofClips (clips : List Clip) : Outcome Timeline := do
  ofGrouped (← group .ok clips)

/-- Reads the timeline of a list of clip documents. -/
def ofClipValues (values : List Value) : Outcome Timeline := do
  ofGrouped (← group Clip.ofValue values)

/-- Reads the timeline of a project document. -/
def ofValue (value : Value) : Outcome Timeline := do
  ofClipValues (← (← value.lookup "timelineClips" (.list [])).elements)

/-- The clips of a timeline as a document. -/
def toValue (timeline : Timeline) : Value := .list (timeline.clips.map Clip.toValue)

end Montage.Timeline
