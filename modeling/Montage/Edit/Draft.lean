import Montage.Edit.Basic
import Montage.Supply

/-!
# Drafts of edits

A draft is an edit whose new clips have no names yet. Completing it draws them,
and they stay drawn even if the edit cannot be applied afterwards.
-/

namespace Montage

/-- An edit before its new clips are named. -/
inductive Draft where
  /-- Inserts an untrimmed clip; it has the given name unless that is empty. -/
  | insert (track : Value) (source : Source) (duration index id : Value)
  /-- Splits a clip in two. -/
  | split (clip time : Value)
  /-- Moves a clip to the other track. -/
  | move (clip track index : Value)
  /-- An edit that makes no clips. -/
  | complete (edit : Edit)

namespace Draft

/-- The edit of a draft, with names for its new clips. -/
def toEdit : Draft → Drawing Edit
  | .insert track source duration index id => do
    let id ← if id.truthy then pure id else Drawing.newClipId
    return .insertSource track source duration index id
  | .split clip time => do
    let first ← Drawing.newClipId
    let second ← Drawing.newClipId
    return .split clip time first second
  | .move clip track index => do return .move clip track index (← Drawing.newClipId)
  | .complete edit => return edit

end Draft

end Montage
