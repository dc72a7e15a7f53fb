import Montage.Proofs.Timeline.Unplaced

/-!
# What edits make

Each edit that is applied to an orderly timeline makes one change at one spot,
under conditions that it has checked: this is told by `Edit.Makes`, which says
nothing about start times. The tracks of the result are these lists of clips,
laid out where they were touched.
-/

namespace Montage

/-- The source with a duration; one that equals it already is kept. -/
def Source.lasting (source : Source) (duration : Value) : Source :=
  if source.duration.equal duration then source else { source with duration }

namespace Edit

/-- The place of a clip that is inserted at an index: there if the index is a
whole number within the list, and at the end otherwise. -/
def slot (index : Value) (count : Nat) : Nat :=
  match index.number? with
  | some (.int i) => if 0 ≤ i ∧ i < count then i.toNat else count
  | _ => count

/-- The slot of a clip is within the list or right behind it. -/
theorem slot_le (index : Value) (count : Nat) : slot index count ≤ count := by
  unfold slot
  split
  · split
    · next h => omega
    · exact le_rfl
  · exact le_rfl

/-- The end of a window that a trim asks for: null keeps the present one, a
finite number is forced into the source. -/
def TrimmedTo (wanted present native new : Value) : Prop :=
  (wanted.isNull = true ∧ new = present) ∨
    (wanted.isFinite = .ok true ∧ wanted.clamp (.real 0) native = .ok new)

/-- What an edit makes of a timeline, start times aside, and what it has checked
before. -/
inductive Makes : Edit → Timeline → Timeline → Prop
  /-- A clip that shows a whole source comes into the track that is named. -/
  | insert {timeline : Timeline} {number : Value} {source : Source} {duration index id : Value}
      {track : Track}
      (names : number.equal track.toValue = true)
      (finite : duration.isFinite = .ok true)
      (long : duration.lt (.real minClipDuration) = .ok false)
      (fresh : timeline.find? id = none) :
      Makes (.insert number source duration index id) timeline
        (timeline.putAt track (slot index (timeline.on track).length)
          (.plain id (source.lasting duration) (.real 0) duration number))
  /-- The window of a clip is moved. -/
  | trim {timeline : Timeline} {id inTime outTime newIn newOut : Value} {spot : Spot}
      {length : Number}
      (found : spot.Of timeline id)
      (start : TrimmedTo inTime spot.clip.inTime spot.clip.source.duration newIn)
      (stop : TrimmedTo outTime spot.clip.outTime spot.clip.source.duration newOut)
      (lasts : newOut.sub newIn = .ok length)
      (long : (Value.number length).lt (.real minClipDuration) = .ok false) :
      Makes (.trim id inTime outTime) timeline
        (spot.fill timeline [{ spot.clip with inTime := newIn, outTime := newOut }])
  /-- Two halves that share the cut take the place of a clip. -/
  | split {timeline : Timeline} {id time first second : Value} {spot : Spot} {cut : Number}
      (found : spot.Of timeline id)
      (finite : time.isFinite = .ok true)
      (inside : nearEdge spot.clip time = .ok false)
      (sum : spot.clip.inTime.add time = .ok cut) :
      Makes (.split id time first second) timeline
        (spot.fill timeline [{ spot.clip with id := first, outTime := .number cut },
          { spot.clip with id := second, inTime := .number cut }])
  /-- A clip comes to another place among the others of its track. -/
  | reorder {timeline : Timeline} {id index forced : Value} {spot : Spot} {place : Nat}
      (found : spot.Of timeline id)
      (finite : index.isFinite = .ok true)
      (bounded : index.clamp (.int 0) (.int spot.others.length) = .ok forced)
      (whole : forced.toWhole = .ok place)
      (within : place ≤ spot.others.length) :
      Makes (.reorder id index) timeline
        ((spot.fill timeline []).putAt spot.track place spot.clip)
  /-- A clip is gone. -/
  | delete {timeline : Timeline} {id : Value} {spot : Spot}
      (found : spot.Of timeline id) :
      Makes (.delete id) timeline (spot.fill timeline [])
  /-- A clip leaves its track for the other one, where it has a new name. -/
  | move {timeline : Timeline} {id number index newId : Value} {spot : Spot}
      (found : spot.Of timeline id)
      (names : number.equal spot.track.other.toValue = true) :
      Makes (.move id number index newId) timeline
        ((spot.fill timeline []).putAt spot.track.other
          (slot index (timeline.on spot.track.other).length)
          { spot.clip with
            id := newId
            track := number
            overlays := if spot.track.other = .main then spot.clip.overlays else [] })
  /-- A clip is silenced or heard. -/
  | mute {timeline : Timeline} {id : Value} {muted : Bool} {spot : Spot}
      (found : spot.Of timeline id) :
      Makes (.mute id muted) timeline
        (spot.fill timeline [{ spot.clip with muted := .bool muted }])
  /-- A clip is shown through a known filter, or through none. -/
  | filter {timeline : Timeline} {id name : Value} {spot : Spot}
      (found : spot.Of timeline id)
      (known : name.isNull = true ∨ name.isOneOf videoFilters = true) :
      Makes (.filter id name) timeline (spot.fill timeline [{ spot.clip with filter := name }])
  /-- A clip of the main track has other overlays, or any clip has none. -/
  | overlays {timeline : Timeline} {id : Value} {images : List Overlay} {spot : Spot}
      (found : spot.Of timeline id)
      (main : images = [] ∨ spot.track = .main)
      (apart : Value.hasRepeats (images.map Overlay.id) = .ok false) :
      Makes (.overlays id images) timeline
        (spot.fill timeline [{ spot.clip with overlays := images }])
  /-- A clip has another place or size within the frame. -/
  | geometry {timeline : Timeline} {id : Value} {position : Option Position}
      {size : Option Size} {spot : Spot}
      (found : spot.Of timeline id) :
      Makes (.geometry id position size) timeline
        (spot.fill timeline [{ spot.clip with
          position := position.getD spot.clip.position
          size := size.getD spot.clip.size }])

end Edit

/-- A timeline has the clips of another one, laid out where they are not those
that were there before. -/
def Timeline.LaysOut (result raw before : Timeline) : Prop :=
  ∀ track, layout (raw.on track) = .ok (result.on track) ∨
    raw.on track = before.on track ∧ result.on track = before.on track

namespace Timeline

/-- Laying out one track of a timeline. -/
theorem laysOut_setTrack {timeline : Timeline} {track : Track} {clips laid : List Clip}
    (h : layout clips = .ok laid) :
    (timeline.setTrack track laid).LaysOut (timeline.setTrack track clips) timeline := by
  intro given
  rcases track.eq_or_eq_other given with rfl | rfl
  · rw [on_setTrack_self, on_setTrack_self]
    exact .inl h
  · rw [on_other_setTrack, on_other_setTrack]
    exact .inr ⟨rfl, rfl⟩

/-- Replacing a clip lays out the track that it stands on. -/
theorem Orderly.laysOut_replaceClip {timeline result : Timeline} (orderly : timeline.Orderly)
    {spot : Spot} {id : Value} (found : spot.Of timeline id) {clip : Clip}
    (hreplace : timeline.replaceClip clip = .ok result) (hid : clip.id = spot.clip.id)
    (htrack : clip.track = spot.clip.track) :
    result.LaysOut (spot.fill timeline [clip]) timeline := by
  obtain ⟨laid, hlaid, rfl⟩ := found.replaceClip_eq_ok orderly hreplace hid htrack
  exact laysOut_setTrack hlaid

/-- The clips of the result are those that were laid out. -/
theorem LaysOut.unplaced {result raw before : Timeline} (h : result.LaysOut raw before)
    (track : Track) : (result.on track).map Clip.unplaced = (raw.on track).map Clip.unplaced := by
  rcases h track with hlaid | ⟨hraw, hresult⟩
  · exact layoutFrom_unplaced hlaid
  · rw [hraw, hresult]

/-- The result is what was laid out, up to start times. -/
theorem LaysOut.unplaced_eq {result raw before : Timeline} (h : result.LaysOut raw before) :
    result.unplaced = raw.unplaced := unplaced_eq_iff.mpr h.unplaced

end Timeline

end Montage
