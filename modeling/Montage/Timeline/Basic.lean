import Montage.Timeline.Track

/-!
# Timelines

A timeline is the two tracks of clips. It is never changed: every edit makes a
new one, in which the start times of the edited track are derived again.
-/

namespace Montage

/-- The clips of both tracks. -/
structure Timeline where
  /-- The clips of the main track in order. -/
  main : List Clip
  /-- The clips of the overlay track in order. -/
  overlay : List Clip

namespace Timeline

/-- The timeline without clips. -/
def empty : Timeline := ⟨[], []⟩

instance : Inhabited Timeline := ⟨empty⟩

/-- The clips of a track. -/
def on (timeline : Timeline) : Track → List Clip
  | .main => timeline.main
  | .overlay => timeline.overlay

/-- The timeline with other clips on a track. -/
def setTrack (timeline : Timeline) (track : Track) (clips : List Clip) : Timeline :=
  match track with
  | .main => { timeline with main := clips }
  | .overlay => { timeline with overlay := clips }

/-- All clips, those of the main track first. -/
def clips (timeline : Timeline) : List Clip := timeline.main ++ timeline.overlay

/-- The clips of the track that a value addresses. -/
def track (timeline : Timeline) (number : Value) : Outcome (List Clip) := do
  return timeline.on (← Track.addressed number)

/-- The end of the last clip of a track. -/
def trackEnd (clips : List Clip) : Outcome Number :=
  match clips.getLast? with
  | some clip => clip.timelineEnd
  | none => .ok (.real 0)

/-- The duration of the track that a value addresses. -/
def trackDuration (timeline : Timeline) (number : Value) : Outcome Number := do
  trackEnd (← timeline.track number)

/-- The duration of the longer track. -/
def duration (timeline : Timeline) : Outcome Number := do
  let main ← trackEnd timeline.main
  let overlay ← trackEnd timeline.overlay
  return if main.lt overlay then overlay else main

/-- The first clip with an id. -/
def find? (timeline : Timeline) (id : Value) : Option Clip :=
  timeline.clips.find? fun clip => clip.id.equal id

/-- The clip with an id, which must exist. -/
def require (timeline : Timeline) (id : Value) : Outcome Clip :=
  orFault (.rejected (.clipNotFound id)) (timeline.find? id)

/-- The position of a clip within its track. -/
def indexOf (timeline : Timeline) (id : Value) : Outcome Nat := do
  let clip ← timeline.require id
  let clips ← timeline.track clip.track
  orFault (.rejected (.clipNotFound id)) (clips.findIdx? fun other => other.id.equal id)

/-- The clips of either track that a time falls into. -/
def clipsAt (timeline : Timeline) (time : Value) : Outcome (List Clip) :=
  timeline.clips.filterM fun clip => clip.containsTime time

/-- The timeline with the clips of a track replaced and laid out. -/
def withTrack (timeline : Timeline) (number : Value) (clips : List Clip) : Outcome Timeline := do
  let laidOut ← layout clips
  return timeline.setTrack (← Track.ofValue number) laidOut

/-- The timeline with a clip in the place of the one with the same id. -/
def replaceClip (timeline : Timeline) (clip : Clip) : Outcome Timeline := do
  let clips ← timeline.track clip.track
  timeline.withTrack clip.track
    (clips.map fun other => if other.id.equal clip.id then clip else other)

/-- Whether two timelines agree in everything. -/
def agrees (s t : Timeline) : Bool :=
  let same := fun (a b : List Clip) =>
    a.length = b.length && (a.zip b).all fun pair => pair.1.agrees pair.2
  same s.main t.main && same s.overlay t.overlay

/-- A one-line description: the number of clips on each track and the length. -/
def summary (timeline : Timeline) : Outcome Text := do
  let length ← (Value.number (← timeline.duration)).toReal
  return "Timeline(main=" ++ toString timeline.main.length ++
    ", overlay=" ++ toString timeline.overlay.length ++
    ", duration=" ++ length.fixed 2 ++ "s)"

end Timeline

end Montage
