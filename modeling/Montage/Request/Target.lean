import Montage.Timeline.Basic

/-!
# Targets of requests

A request names the clips it is about by an id or by a word: the first clip,
the focused one, all of them, or those of the overlay track.
-/

namespace Montage.Target

/-- The clip that requests fall back on: the first of the main track, or else
the first of all. -/
def firstClip (timeline : Timeline) : Outcome Clip :=
  orFault (.rejected .emptyTimeline) timeline.clips.head?

/-- The focused clip, if there is one and it is still on the timeline. -/
def focusedClip? (timeline : Timeline) (focused : Value) : Option Clip :=
  if focused.truthy then timeline.find? focused else none

/-- The clips that a target names, possibly none. -/
def named (timeline : Timeline) (target focused : Value) : Outcome (List Clip) :=
  if target.equal (.text "all") then .ok timeline.clips
  else if target.equal (.text "track1") then .ok timeline.overlay
  else if target.equal (.text "focused") then
    match focusedClip? timeline focused with
    | some clip => .ok [clip]
    | none => return [← firstClip timeline]
  else if target.equal (.text "first") then do return [← firstClip timeline]
  else do return [← timeline.require target]

/-- The clips that a target names, at least one. -/
def resolve (timeline : Timeline) (target focused : Value) : Outcome (List Clip) := do
  let clips ← named timeline target focused
  if clips.isEmpty then reject (.noTarget target) else return clips

/-- The first clip that a target names. -/
def resolveFirst (timeline : Timeline) (target focused : Value) : Outcome Clip := do
  orFault .outOfRange (← resolve timeline target focused).head?

/-- Whether a target is one of the words for several clips. -/
def isPlural (target : Value) : Bool := target.isOneOf ["all", "track1"]

/-- The one clip that a target names; words for several clips are refused. -/
def resolveSingle (timeline : Timeline) (target focused : Value) : Outcome Clip :=
  if isPlural target then reject (.targetNotAllowed target)
  else resolveFirst timeline target focused

end Montage.Target
