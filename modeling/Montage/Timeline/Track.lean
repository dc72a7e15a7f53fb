import Montage.Timeline.Clip

/-!
# Tracks and their layout

A timeline has a main track and an overlay track. Within a track the first
clip starts at zero and every other one starts where its predecessor ends, so
there are neither gaps nor overlaps.
-/

namespace Montage

/-- The two tracks of a timeline. -/
inductive Track where
  /-- The track that is shown in full. -/
  | main
  /-- The track that is shown as a picture in the picture. -/
  | overlay
deriving DecidableEq

namespace Track

/-- The number of a track. -/
def number : Track → Int
  | .main => 0
  | .overlay => 1

/-- The number of a track as a value. -/
def toValue (track : Track) : Value := .int track.number

/-- The track that a value names: whatever equals its number does. -/
def ofValue (value : Value) : Outcome Track :=
  if value.equal (.int 0) then .ok .main
  else if value.equal (.int 1) then .ok .overlay
  else reject (.unknownTrack value)

/-- The track that a value addresses. A double names a track and yet cannot be
used to address one. -/
def addressed (value : Value) : Outcome Track := do
  let track ← ofValue value
  match value with
  | .number (.real _) => .error .illTyped
  | _ => return track

end Track

/-- The same clip with a start time. A start time that is equal already stays
as it is stored. -/
def Clip.startingAt (clip : Clip) (start : Binary64) : Clip :=
  if clip.startTime.equal (.real start) then clip
  else { clip with startTime := .real start }

/-- Lays clips out one after the other from a time on. The clock is a double,
so every later time is one, too. -/
def layoutFrom (now : Binary64) : List Clip → Outcome (List Clip)
  | [] => .ok []
  | clip :: clips => do
    let length ← orFault .tooLarge (← clip.duration).toReal?
    let rest ← layoutFrom (now.add length) clips
    return clip.startingAt now :: rest

/-- Lays the clips of a track out from zero. -/
def layout (clips : List Clip) : Outcome (List Clip) := layoutFrom 0 clips

end Montage
