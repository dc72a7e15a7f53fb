import Mathlib.Data.List.Pairwise
import Mathlib.Data.List.Perm.Basic
import Montage.Edit.Apply
import Montage.Proofs.Outcome
import Montage.Proofs.Value.Agreement

/-!
# Where clips stand

On an orderly timeline the clips are named apart and stand on the track that
they say. A name then leads to one spot: a track with the clips before and
behind. What the edits do to lists of clips are changes at such a spot.
-/

namespace Montage

/-- The value is a double. -/
def Value.IsReal (value : Value) : Prop := ∃ x, value = .real x

namespace Track

/-- The other track. -/
def other : Track → Track
  | .main => .overlay
  | .overlay => .main

/-- No track is its own other track. -/
theorem other_ne (track : Track) : track.other ≠ track := by
  cases track <;> decide

/-- The other track of the other track is the track itself. -/
@[simp]
theorem other_other (track : Track) : track.other.other = track := by cases track <;> rfl

/-- There is no third track. -/
theorem eq_or_eq_other (track given : Track) : given = track ∨ given = track.other := by
  cases track <;> cases given <;> decide

/-- A value that equals the number of a track equals that of no other. -/
theorem eq_of_equal {value : Value} {k l : Track} (hk : value.equal k.toValue = true)
    (hl : value.equal l.toValue = true) : k = l := by
  have h : k.toValue.equal l.toValue = true :=
    Value.equal_trans (by rwa [Value.equal_comm]) hl
  cases k with
  | main =>
    cases l with
    | main => rfl
    | overlay => exact absurd h (by decide +kernel)
  | overlay =>
    cases l with
    | main => exact absurd h (by decide +kernel)
    | overlay => rfl

/-- A value names the track whose number it equals. -/
theorem ofValue_eq_ok {value : Value} {track : Track} :
    ofValue value = .ok track ↔ value.equal track.toValue = true := by
  constructor
  · intro h
    unfold ofValue at h
    split at h
    · next h0 =>
      cases h
      exact h0
    · split at h
      · next h1 =>
        cases h
        exact h1
      · simp at h
  · intro h
    cases track with
    | main => exact if_pos h
    | overlay =>
      have h0 : value.equal (.int 0) = false := by
        cases he : value.equal (.int 0) with
        | false => rfl
        | true => exact absurd (eq_of_equal (k := .main) he h) (by decide)
      unfold ofValue
      rw [h0]
      exact if_pos h

/-- A value that addresses a track names it. -/
theorem equal_of_addressed {value : Value} {track : Track} (h : addressed value = .ok track) :
    value.equal track.toValue = true := by
  simp only [addressed, Outcome.bind_eq_ok] at h
  obtain ⟨found, hfound, h⟩ := h
  split at h
  · cases h
  · cases h
    exact ofValue_eq_ok.mp hfound

/-- A value that names a track addresses it unless it is a double. -/
theorem addressed_of_equal {value : Value} {track : Track}
    (h : value.equal track.toValue = true) (kind : ¬ value.IsReal) :
    addressed value = .ok track := by
  rw [addressed, ofValue_eq_ok.mpr h, Outcome.ok_bind]
  split
  · exact absurd ⟨_, rfl⟩ kind
  · rfl

/-- The number of a track addresses it. -/
theorem addressed_toValue (track : Track) : addressed track.toValue = .ok track :=
  addressed_of_equal ((Number.equal_int _ _).trans (decide_eq_true rfl)) (by rintro ⟨x, h⟩; cases h)

end Track

/-- No two clips of a list have equal ids. -/
def NamedApart (clips : List Clip) : Prop := clips.Pairwise fun c d => c.id.equal d.id = false

/-- Whether clips are named apart does not depend on their order. -/
theorem namedApart_perm {clips others : List Clip} (h : clips.Perm others) :
    NamedApart clips ↔ NamedApart others := by
  refine h.pairwise_iff ?_
  intro c d hcd
  rwa [Value.equal_comm]

/-- A clip in front of others is named apart from them. -/
theorem namedApart_cons {clip : Clip} {clips : List Clip} :
    NamedApart (clip :: clips) ↔
      (∀ other ∈ clips, other.id.equal clip.id = false) ∧ NamedApart clips := by
  simp only [NamedApart, List.pairwise_cons, Value.equal_comm clip.id]

namespace Timeline

/-- A track that was set holds the new clips. -/
@[simp]
theorem on_setTrack_self (timeline : Timeline) (track : Track) (clips : List Clip) :
    (timeline.setTrack track clips).on track = clips := by
  cases track <;> rfl

/-- Setting a track keeps the other one. -/
theorem on_setTrack_of_ne {track other : Track} (h : other ≠ track) (timeline : Timeline)
    (clips : List Clip) : (timeline.setTrack track clips).on other = timeline.on other := by
  cases track <;> cases other <;> first | rfl | exact absurd rfl h

/-- Setting a track keeps the other one. -/
@[simp]
theorem on_other_setTrack (timeline : Timeline) (track : Track) (clips : List Clip) :
    (timeline.setTrack track clips).on track.other = timeline.on track.other :=
  on_setTrack_of_ne track.other_ne timeline clips

/-- Setting a track twice is setting it to the last clips. -/
@[simp]
theorem setTrack_setTrack (timeline : Timeline) (track : Track) (clips others : List Clip) :
    (timeline.setTrack track clips).setTrack track others = timeline.setTrack track others := by
  cases track <;> rfl

/-- The timeline with one more clip at a place of a track. -/
def putAt (timeline : Timeline) (track : Track) (place : Nat) (clip : Clip) : Timeline :=
  timeline.setTrack track ((timeline.on track).insertIdx place clip)

/-- All clips are those of a track and those of the other one. -/
theorem clips_perm (timeline : Timeline) (track : Track) :
    timeline.clips.Perm (timeline.on track ++ timeline.on track.other) := by
  cases track with
  | main => exact .refl _
  | overlay => exact List.perm_append_comm

/-- Putting a clip on a timeline adds it to the others. -/
theorem putAt_clips_perm {timeline : Timeline} {track : Track} {place : Nat} (clip : Clip)
    (h : place ≤ (timeline.on track).length) :
    (timeline.putAt track place clip).clips.Perm (clip :: timeline.clips) := by
  have hon : ((timeline.on track).insertIdx place clip).Perm (clip :: timeline.on track) :=
    List.perm_insertIdx clip _ h
  refine ((timeline.putAt track place clip).clips_perm track).trans ?_
  rw [putAt, on_setTrack_self, on_other_setTrack]
  exact (hon.append_right _).trans ((timeline.clips_perm track).symm.cons clip)

/-- What all clips have, each on its track, they still have when the new clips
of a track have it. -/
theorem forall_on_setTrack {P : Track → Clip → Prop} {timeline : Timeline} {track : Track}
    {clips : List Clip} (all : ∀ k, ∀ clip ∈ timeline.on k, P k clip)
    (new : ∀ clip ∈ clips, P track clip) :
    ∀ k, ∀ clip ∈ (timeline.setTrack track clips).on k, P k clip := by
  intro k clip hclip
  rcases track.eq_or_eq_other k with rfl | rfl
  · rw [on_setTrack_self] at hclip
    exact new clip hclip
  · rw [on_other_setTrack] at hclip
    exact all _ clip hclip

/-- The same when one clip is put on the timeline. -/
theorem forall_on_putAt {P : Track → Clip → Prop} {timeline : Timeline} {track : Track}
    {clip : Clip} (place : Nat) (all : ∀ k, ∀ clip ∈ timeline.on k, P k clip)
    (new : P track clip) : ∀ k, ∀ other ∈ (timeline.putAt track place clip).on k, P k other := by
  have hclips : ∀ other ∈ (timeline.on track).insertIdx place clip, P track other := by
    intro other hother
    rcases List.eq_or_mem_of_mem_insertIdx hother with rfl | hother
    · exact new
    · exact all track other hother
  exact forall_on_setTrack all hclips

/-- A clip of the timeline is on one of the tracks. -/
theorem mem_clips {timeline : Timeline} {clip : Clip} :
    clip ∈ timeline.clips ↔ ∃ track, clip ∈ timeline.on track := by
  unfold clips
  rw [List.mem_append]
  constructor
  · rintro (h | h)
    · exact ⟨.main, h⟩
    · exact ⟨.overlay, h⟩
  · rintro ⟨track, h⟩
    cases track with
    | main => exact .inl h
    | overlay => exact .inr h

/-- The clips of the track that a value addresses. -/
theorem track_eq_ok {timeline : Timeline} {value : Value} {clips : List Clip}
    (h : timeline.track value = .ok clips) :
    ∃ track, value.equal track.toValue = true ∧ clips = timeline.on track := by
  simp only [Timeline.track, Outcome.bind_eq_ok, Outcome.pure_eq_ok] at h
  obtain ⟨track, htrack, rfl⟩ := h
  exact ⟨track, Track.equal_of_addressed htrack, rfl⟩

/-- Replacing the clips of a named track lays them out. -/
theorem withTrack_eq_ok {timeline result : Timeline} {value : Value} {clips : List Clip} :
    timeline.withTrack value clips = .ok result ↔
      ∃ laid track, layout clips = .ok laid ∧ value.equal track.toValue = true ∧
        timeline.setTrack track laid = result := by
  simp only [withTrack, Outcome.bind_eq_ok, Outcome.pure_eq_ok, Track.ofValue_eq_ok]
  constructor
  · rintro ⟨laid, hlaid, track, htrack, h⟩
    exact ⟨laid, track, hlaid, htrack, h⟩
  · rintro ⟨laid, track, hlaid, htrack, h⟩
    exact ⟨laid, hlaid, track, htrack, h⟩

/-- Clips are named apart and stand on the track that they say. -/
structure Orderly (timeline : Timeline) : Prop where
  /-- No two clips have equal ids. -/
  apart : NamedApart timeline.clips
  /-- Every clip names the track that it is on. -/
  tracks : ∀ track, ∀ clip ∈ timeline.on track, clip.track.equal track.toValue = true

/-- On an orderly timeline there are no two clips with equal ids. -/
theorem Orderly.eq_of_equal {timeline : Timeline} (orderly : timeline.Orderly) {clip other : Clip}
    (mem : clip ∈ timeline.clips) (mem' : other ∈ timeline.clips)
    (h : clip.id.equal other.id = true) : clip = other := by
  have : Std.Symm fun c d : Clip => c.id.equal d.id = false :=
    ⟨fun c d hcd => by rwa [Value.equal_comm]⟩
  by_contra hne
  have hapart := orderly.apart.forall mem mem' hne
  rw [h] at hapart
  cases hapart

end Timeline

/-- A clip with its track and the clips around it. -/
structure Spot where
  /-- The track. -/
  track : Track
  /-- The clips before it. -/
  before : List Clip
  /-- The clip. -/
  clip : Clip
  /-- The clips behind it. -/
  after : List Clip

namespace Spot

/-- The clips of the track without the one of the spot. -/
def others (spot : Spot) : List Clip := spot.before ++ spot.after

/-- The timeline with other clips in the place of the spot. -/
def fill (spot : Spot) (timeline : Timeline) (clips : List Clip) : Timeline :=
  timeline.setTrack spot.track (spot.before ++ clips ++ spot.after)

/-- The spot is where a name leads to on a timeline. -/
structure Of (spot : Spot) (timeline : Timeline) (id : Value) : Prop where
  /-- The clip stands between the others of its track. -/
  split : timeline.on spot.track = spot.before ++ spot.clip :: spot.after
  /-- The clip has the name. -/
  named : spot.clip.id.equal id = true

/-- Everything on the timeline besides the clip of the spot. -/
def rest (spot : Spot) (timeline : Timeline) : List Clip :=
  spot.others ++ timeline.on spot.track.other

variable {spot : Spot} {timeline : Timeline} {id : Value}

/-- A spot shows one of the clips of its track. -/
theorem Of.mem_on (h : spot.Of timeline id) : spot.clip ∈ timeline.on spot.track := by
  rw [h.split]
  simp

/-- The clips of the timeline are the one of the spot and the rest. -/
theorem Of.clips_perm (h : spot.Of timeline id) :
    timeline.clips.Perm (spot.clip :: spot.rest timeline) := by
  refine (timeline.clips_perm spot.track).trans ?_
  rw [h.split, rest, others, ← List.cons_append]
  exact List.perm_middle.append_right _

/-- Filling a spot puts other clips beside the rest. -/
theorem fill_clips_perm (spot : Spot) (timeline : Timeline) (clips : List Clip) :
    (spot.fill timeline clips).clips.Perm (clips ++ spot.rest timeline) := by
  refine ((spot.fill timeline clips).clips_perm spot.track).trans ?_
  rw [fill, Timeline.on_setTrack_self, Timeline.on_other_setTrack, rest, others]
  simp only [List.append_assoc]
  exact List.perm_append_comm_assoc spot.before clips _

/-- Leaving a spot empty leaves the other clips of its track. -/
@[simp]
theorem fill_nil_on_self (spot : Spot) (timeline : Timeline) :
    (spot.fill timeline []).on spot.track = spot.others := by
  rw [fill, Timeline.on_setTrack_self, List.append_nil, others]

/-- Filling a spot keeps the other track. -/
@[simp]
theorem fill_on_other (spot : Spot) (timeline : Timeline) (clips : List Clip) :
    (spot.fill timeline clips).on spot.track.other = timeline.on spot.track.other := by
  rw [fill, Timeline.on_other_setTrack]

/-- Putting a clip back on the track of its spot. -/
theorem putAt_fill_nil (spot : Spot) (timeline : Timeline) (place : Nat) (clip : Clip) :
    (spot.fill timeline []).putAt spot.track place clip =
      timeline.setTrack spot.track (spot.others.insertIdx place clip) := by
  rw [Timeline.putAt, fill_nil_on_self, fill, Timeline.setTrack_setTrack]

/-- What all clips have, each on its track, they still have when the clips that
fill a spot have it. -/
theorem Of.forall_on_fill {P : Track → Clip → Prop} {clips : List Clip} (h : spot.Of timeline id)
    (all : ∀ k, ∀ clip ∈ timeline.on k, P k clip) (new : ∀ clip ∈ clips, P spot.track clip) :
    ∀ k, ∀ clip ∈ (spot.fill timeline clips).on k, P k clip := by
  refine Timeline.forall_on_setTrack all ?_
  have hother : ∀ clip ∈ spot.before ++ spot.clip :: spot.after, P spot.track clip := by
    rw [← h.split]
    exact all spot.track
  intro clip hclip
  rcases List.mem_append.mp hclip with hclip | hclip
  · rcases List.mem_append.mp hclip with hclip | hclip
    · exact hother clip (List.mem_append_left _ hclip)
    · exact new clip hclip
  · exact hother clip (List.mem_append_right _ (List.mem_cons_of_mem _ hclip))

/-- The same for a spot that is filled with one clip. -/
theorem Of.forall_on_fill_one {P : Track → Clip → Prop} {clip : Clip} (h : spot.Of timeline id)
    (all : ∀ k, ∀ other ∈ timeline.on k, P k other) (new : P spot.track clip) :
    ∀ k, ∀ other ∈ (spot.fill timeline [clip]).on k, P k other := by
  refine h.forall_on_fill all ?_
  intro other hother
  rwa [List.mem_singleton.mp hother]

/-- The same for a spot that is left empty. -/
theorem Of.forall_on_fill_nil {P : Track → Clip → Prop} (h : spot.Of timeline id)
    (all : ∀ k, ∀ clip ∈ timeline.on k, P k clip) :
    ∀ k, ∀ clip ∈ (spot.fill timeline []).on k, P k clip :=
  h.forall_on_fill all (by simp)

/-- The clip of a spot equals itself by name. -/
theorem Of.self (h : spot.Of timeline id) : spot.clip.id.equal spot.clip.id = true :=
  Value.equal_self h.named

/-- On an orderly timeline nothing else has a name equal to that of the spot. -/
theorem Of.apart (h : spot.Of timeline id) (orderly : timeline.Orderly) :
    ∀ clip ∈ spot.rest timeline, clip.id.equal spot.clip.id = false :=
  (namedApart_cons.mp ((namedApart_perm h.clips_perm).mp orderly.apart)).1

/-- On an orderly timeline the name of a spot leads to nothing else. -/
theorem Of.unnamed (h : spot.Of timeline id) (orderly : timeline.Orderly) :
    ∀ clip ∈ spot.rest timeline, clip.id.equal id = false := by
  intro clip hclip
  refine Bool.eq_false_iff.mpr fun hequal => ?_
  have hne := h.apart orderly clip hclip
  rw [Value.equal_trans hequal (by rw [Value.equal_comm]; exact h.named)] at hne
  cases hne

/-- On an orderly timeline the other clips of the track have other names. -/
theorem Of.apart_others (h : spot.Of timeline id) (orderly : timeline.Orderly) :
    ∀ clip ∈ spot.others, clip.id.equal spot.clip.id = false :=
  fun clip hclip => h.apart orderly clip (List.mem_append_left _ hclip)

/-- On an orderly timeline the clip of a spot names the track of the spot. -/
theorem Of.track_equal (h : spot.Of timeline id) (orderly : timeline.Orderly) :
    spot.clip.track.equal spot.track.toValue = true :=
  orderly.tracks spot.track spot.clip h.mem_on

/-- On an orderly timeline names that are equal lead to the same clip. -/
theorem Of.clip_eq (h : spot.Of timeline id) (orderly : timeline.Orderly) {other : Spot}
    {name : Value} (hother : other.Of timeline name) (hname : name.equal spot.clip.id = true) :
    other.clip = spot.clip :=
  orderly.eq_of_equal (Timeline.mem_clips.mpr ⟨other.track, hother.mem_on⟩)
    (Timeline.mem_clips.mpr ⟨spot.track, h.mem_on⟩) (Value.equal_trans hother.named hname)

/-- On an orderly timeline a name leads to one spot only. -/
theorem Of.unique (h : spot.Of timeline id) (orderly : timeline.Orderly) {other : Spot}
    (hother : other.Of timeline id) : other = spot := by
  have hclip : other.clip = spot.clip := by
    refine h.clip_eq orderly hother ?_
    rw [Value.equal_comm]
    exact h.named
  have htrack : other.track = spot.track := by
    have hon := hother.track_equal orderly
    rw [hclip] at hon
    exact Track.eq_of_equal hon (h.track_equal orderly)
  -- the clip is not among the others of either spot, so both cut the track at the same place
  have hnot : spot.clip ∉ spot.others := by
    intro hmem
    have hne := h.apart_others orderly _ hmem
    rw [h.self] at hne
    cases hne
  have hnot' : spot.clip ∉ other.others := by
    intro hmem
    have hne := hother.apart_others orderly _ hmem
    rw [hclip, h.self] at hne
    cases hne
  have hlists : spot.before ++ spot.clip :: spot.after =
      other.before ++ spot.clip :: other.after := by
    rw [← h.split, ← htrack, hother.split, hclip]
  obtain ⟨track, before, clip, after⟩ := spot
  obtain ⟨track', before', clip', after'⟩ := other
  dsimp only at *
  subst hclip htrack
  rcases List.append_eq_append_iff.mp hlists with ⟨more, hbefore, hcons⟩ | ⟨more, hbefore, hcons⟩
  · cases more with
    | nil => simp_all
    | cons first more =>
      obtain ⟨rfl, _⟩ := List.cons.inj hcons
      exact absurd (by simp [others, hbefore]) hnot'
  · cases more with
    | nil => simp_all
    | cons first more =>
      obtain ⟨rfl, _⟩ := List.cons.inj hcons
      exact absurd (by simp [others, hbefore]) hnot

end Spot

namespace Timeline

variable {timeline : Timeline}

/-- A clip that is required stands at a spot with its name. -/
theorem exists_spot {id : Value} {clip : Clip} (h : timeline.require id = .ok clip) :
    ∃ spot : Spot, spot.Of timeline id ∧ spot.clip = clip := by
  simp only [Timeline.require, Outcome.orFault_eq_ok, find?] at h
  have hnamed := List.find?_some h
  obtain ⟨track, hmem⟩ := mem_clips.mp (List.mem_of_find?_eq_some h)
  obtain ⟨before, after, hsplit⟩ := List.append_of_mem hmem
  exact ⟨⟨track, before, clip, after⟩, ⟨hsplit, hnamed⟩, rfl⟩

/-- On an orderly timeline a clip whose own name leads somewhere is found by it. -/
theorem Orderly.of_require (orderly : timeline.Orderly) {track : Track} {before after : List Clip}
    {clip found : Clip} (split : timeline.on track = before ++ clip :: after)
    (h : timeline.require clip.id = .ok found) :
    Spot.Of ⟨track, before, clip, after⟩ timeline clip.id ∧ found = clip := by
  obtain ⟨spot, hspot, rfl⟩ := exists_spot h
  have hself : clip.id.equal clip.id = true :=
    Value.equal_self (b := spot.clip.id) (by rw [Value.equal_comm]; exact hspot.named)
  have there : Spot.Of ⟨track, before, clip, after⟩ timeline clip.id := ⟨split, hself⟩
  exact ⟨there, congrArg Spot.clip (there.unique orderly hspot)⟩

/-- On an orderly timeline a clip's own track is where its spot is. -/
theorem Orderly.track_eq_ok (orderly : timeline.Orderly) {spot : Spot} {id : Value}
    (h : spot.Of timeline id) {clips : List Clip}
    (htrack : timeline.track spot.clip.track = .ok clips) :
    clips = spot.before ++ spot.clip :: spot.after := by
  obtain ⟨track, hequal, rfl⟩ := Timeline.track_eq_ok htrack
  rw [Track.eq_of_equal hequal (h.track_equal orderly), h.split]

/-- On an orderly timeline new clips for a clip's own track end up there. -/
theorem Orderly.withTrack_eq_ok (orderly : timeline.Orderly) {spot : Spot} {id : Value}
    (h : spot.Of timeline id) {clips : List Clip} {result : Timeline}
    (hwith : timeline.withTrack spot.clip.track clips = .ok result) :
    ∃ laid, layout clips = .ok laid ∧ timeline.setTrack spot.track laid = result := by
  obtain ⟨laid, track, hlaid, hequal, hresult⟩ := Timeline.withTrack_eq_ok.mp hwith
  rw [Track.eq_of_equal hequal (h.track_equal orderly)] at hresult
  exact ⟨laid, hlaid, hresult⟩

end Timeline

namespace Spot

variable {spot : Spot} {timeline : Timeline} {id : Value}

/-- Leaving out the name of a spot leaves the other clips. -/
theorem Of.without_eq (h : spot.Of timeline id) (orderly : timeline.Orderly) :
    Edit.without spot.clip.id (spot.before ++ spot.clip :: spot.after) = spot.others := by
  have hkeep : ∀ clips : List Clip, (∀ clip ∈ clips, clip ∈ spot.others) →
      clips.filter (fun clip => !clip.id.equal spot.clip.id) = clips := by
    intro clips hclips
    apply List.filter_eq_self.mpr
    intro clip hclip
    simp [h.apart_others orderly clip (hclips clip hclip)]
  unfold Edit.without
  rw [List.filter_append, List.filter_cons, h.self]
  simp only [Bool.not_true, Bool.false_eq_true, if_false]
  rw [hkeep _ fun clip hclip => List.mem_append_left _ hclip,
    hkeep _ fun clip hclip => List.mem_append_right _ hclip]
  rfl

/-- Replacing by name the clip of a spot changes no other clip. -/
theorem Of.flatMap_eq (h : spot.Of timeline id) (orderly : timeline.Orderly)
    (clips : List Clip) :
    (spot.before ++ spot.clip :: spot.after).flatMap
        (fun other => if other.id.equal spot.clip.id then clips else [other]) =
      spot.before ++ clips ++ spot.after := by
  have hkeep : ∀ given : List Clip, (∀ clip ∈ given, clip ∈ spot.others) →
      given.flatMap (fun other => if other.id.equal spot.clip.id then clips else [other]) =
        given := by
    intro given hgiven
    induction given with
    | nil => rfl
    | cons clip given ih =>
      rw [List.flatMap_cons, ih fun other hother => hgiven other (List.mem_cons_of_mem _ hother),
        h.apart_others orderly clip (hgiven clip List.mem_cons_self)]
      rfl
  rw [List.flatMap_append, List.flatMap_cons, h.self,
    hkeep _ fun clip hclip => List.mem_append_left _ hclip,
    hkeep _ fun clip hclip => List.mem_append_right _ hclip]
  simp

/-- Putting a clip in the place of the one with its name fills the spot. -/
theorem Of.map_eq (h : spot.Of timeline id) (orderly : timeline.Orderly) (clip : Clip) :
    (spot.before ++ spot.clip :: spot.after).map
        (fun other => if other.id.equal spot.clip.id then clip else other) =
      spot.before ++ [clip] ++ spot.after := by
  rw [← h.flatMap_eq orderly [clip], List.map_eq_flatMap]
  congr 1
  funext other
  split <;> rfl

/-- A clip that is put in the place of the one with its name fills the spot. -/
theorem Of.replaceClip_eq_ok (h : spot.Of timeline id) (orderly : timeline.Orderly)
    {clip : Clip} {result : Timeline} (hreplace : timeline.replaceClip clip = .ok result)
    (hid : clip.id = spot.clip.id) (htrack : clip.track = spot.clip.track) :
    ∃ laid, layout (spot.before ++ [clip] ++ spot.after) = .ok laid ∧
      timeline.setTrack spot.track laid = result := by
  simp only [Timeline.replaceClip, Outcome.bind_eq_ok] at hreplace
  obtain ⟨clips, hclips, hwith⟩ := hreplace
  rw [htrack] at hclips hwith
  rw [orderly.track_eq_ok h hclips, hid, h.map_eq orderly] at hwith
  exact orderly.withTrack_eq_ok h hwith

end Spot

end Montage
