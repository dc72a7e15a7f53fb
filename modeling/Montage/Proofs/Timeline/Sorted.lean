import Montage.Proofs.Timeline.Integrity
import Montage.Timeline.Ordered

/-!
# Laid out tracks are in order

Valid clips last, and a clock that advances by what lasts never goes back. A
track that is laid out is therefore in the order of its start times, and a
stable sort by these leaves it as it is.
-/

namespace Montage

namespace Value

/-- The shortest valid window has a length. -/
theorem isMoment_shortestWindow : (real Clip.shortestWindow).IsMoment :=
  ⟨.real Clip.shortestWindow, rfl,
    Binary64.isMoment_of_pos (by decide +kernel) (by decide +kernel)⟩

/-- What equals a double stands where the double does. -/
theorem place?_of_equal_real {a : Value} {x : Binary64} (h : a.equal (.real x) = true) :
    a.number?.bind Number.place? = x.place? := by
  obtain ⟨m, hm, he⟩ := exists_number_of_equal h rfl
  obtain ⟨p, hp, hq⟩ := Number.equal_iff.mp he
  rw [hm, Option.bind_some, hp]
  exact hq.symm

end Value

/-- The length of a valid clip is a moment. -/
theorem Clip.length_isMoment {clip : Clip} (valid : clip.validate = .ok ()) {length : Binary64}
    (h : clip.length = .ok length) : (Number.real length).IsMoment := by
  have hfinite := (hasMoments_of_validate valid).length_isFinite h
  obtain ⟨_, _, _, _, _, _, ⟨n, hn, hlong⟩, _⟩ := validate_eq_ok.mp valid
  rw [Clip.length, hn, Outcome.ok_bind, Outcome.orFault_eq_ok] at h
  obtain ⟨_, hm, hmoment⟩ :=
    Value.isMoment_of_not_lt (Value.isFinite_of_toReal? h hfinite)
      Value.isMoment_shortestWindow hlong
  cases hm
  exact Number.toReal?_isMoment hmoment h

namespace Keyed

/-- A clip with its start time as a key. -/
def ofClip (clip : Clip) : Keyed Clip := ⟨clip.startTime, clip⟩

variable {α : Type} {first second third : Keyed α}

/-- Two entries in the wrong order change their places. -/
theorem sort_of_not_atMost
    (places : [first, second].all (fun entry => entry.place?.isSome) = true)
    (swapped : first.atMost second = false) : sort [first, second] = .ok [second, first] := by
  rw [sort, if_pos places]
  simp [List.mergeSort, List.MergeSort.Internal.splitInTwo, swapped]

/-- The last one of three entries goes between the others. -/
theorem sort_of_last_between
    (places : [first, second, third].all (fun entry => entry.place?.isSome) = true)
    (ordered : first.atMost second = true) (stays : first.atMost third = true)
    (swapped : second.atMost third = false) :
    sort [first, second, third] = .ok [first, third, second] := by
  rw [sort, if_pos places]
  simp [List.mergeSort, List.MergeSort.Internal.splitInTwo, ordered, stays, swapped]

end Keyed

/-- From a time on, the clips of a laid out track start at that time or later,
one not before the other. -/
theorem LaidOutFrom.inOrder {now : Binary64} {clips : List Clip} (time : now.IsTime)
    (valid : ∀ clip ∈ clips, clip.validate = .ok ()) (h : LaidOutFrom now clips) {p : Place}
    (hp : now.place? = some p) :
    (∀ clip ∈ clips, ∃ q, (Keyed.ofClip clip).place? = some q ∧ q.lt p = false) ∧
      clips.Pairwise fun c d => (Keyed.ofClip c).atMost (.ofClip d) = true := by
  induction clips generalizing now p with
  | nil => exact ⟨by simp, .nil⟩
  | cons clip clips ih =>
    obtain ⟨hstart, length, hlength, hrest⟩ := h
    have hmoment := Clip.length_isMoment (valid clip List.mem_cons_self) hlength
    have later := time.add hmoment
    obtain ⟨q, hq⟩ := later.exists_place
    have hforward : q.lt p = false := by
      have hnot := time.add_not_lt hmoment
      simpa [Number.lt, Number.place?, hq, hp] using hnot
    obtain ⟨hplaces, hpairs⟩ :=
      ih later (fun other hother => valid other (List.mem_cons_of_mem _ hother)) hrest hq
    have hfirst : (Keyed.ofClip clip).place? = some p := by
      rw [Keyed.place?, Keyed.ofClip, Value.place?_of_equal_real hstart, hp]
    have hothers : ∀ other ∈ clips,
        ∃ r, (Keyed.ofClip other).place? = some r ∧ r.lt p = false := by
      intro other hother
      obtain ⟨r, hr, hle⟩ := hplaces other hother
      exact ⟨r, hr, Place.not_lt_trans hforward hle⟩
    refine ⟨?_, List.pairwise_cons.mpr ⟨?_, hpairs⟩⟩
    · intro other hother
      rcases List.mem_cons.mp hother with rfl | hother
      · exact ⟨p, hfirst, by cases p <;> simp [Place.lt]⟩
      · exact hothers other hother
    · intro other hother
      obtain ⟨r, hr, hle⟩ := hothers other hother
      simp [Keyed.atMost, hfirst, hr, hle]

/-- Clips are sorted by their start times as their entries are by the keys. -/
theorem sortOn_startTime_eq {clips sorted : List Clip}
    (h : Keyed.sort (clips.map Keyed.ofClip) = .ok (sorted.map Keyed.ofClip)) :
    sortOn Clip.startTime clips = .ok sorted := by
  change (Keyed.sort (clips.map Keyed.ofClip) >>= fun entries =>
    (pure (entries.map Keyed.item) : Outcome (List Clip))) = .ok sorted
  rw [h, Outcome.ok_bind, List.map_map, Outcome.pure_eq_ok]
  exact List.map_id sorted

/-- Sorting the valid clips of a laid out track by their start times leaves them
as they are. -/
theorem LaidOutFrom.sortOn_eq {clips : List Clip} (h : LaidOutFrom 0 clips)
    (valid : ∀ clip ∈ clips, clip.validate = .ok ()) :
    sortOn Clip.startTime clips = .ok clips := by
  obtain ⟨p, hp⟩ := Binary64.isTime_zero.exists_place
  obtain ⟨hplaces, hpairs⟩ := h.inOrder Binary64.isTime_zero valid hp
  have hall : (clips.map Keyed.ofClip).all (fun entry => entry.place?.isSome) = true := by
    rw [List.all_eq_true]
    intro entry hentry
    obtain ⟨clip, hclip, rfl⟩ := List.mem_map.mp hentry
    obtain ⟨q, hq, _⟩ := hplaces clip hclip
    rw [hq, Option.isSome_some]
  refine sortOn_startTime_eq ?_
  rw [Keyed.sort, if_pos hall, List.mergeSort_of_pairwise (List.pairwise_map.mpr hpairs)]

end Montage
