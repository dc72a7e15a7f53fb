import Montage.Proofs.Number.Order
import Montage.Timeline.Ordered

/-!
# Sorts by keys on the number line

Keys that stand on the number line are in a linear order. A sort by such keys puts
the entries in that order and leaves those with equal keys as they were given, so
entries whose keys are all different are sorted into one order only.
-/

namespace Montage

namespace Keyed

variable {α : Type} {entries sorted others : List (Keyed α)} {first second : Keyed α}

/-- The keys of all entries stand on the number line. -/
def Placed (entries : List (Keyed α)) : Prop := ∀ entry ∈ entries, entry.place?.isSome = true

/-- The place of a key, at the far end for a key that has none. -/
def rank (entry : Keyed α) : Place := entry.place?.getD .bottom

/-- An entry with a place is ranked there. -/
theorem rank_of_place {entry : Keyed α} {p : Place} (h : entry.place? = some p) :
    entry.rank = p := by
  rw [rank, h, Option.getD_some]

/-- Whether an entry is ranked at most like another one. -/
def upTo (a b : Keyed α) : Bool := !b.rank.lt a.rank

/-- An entry is ranked at most like another one when that is not ranked before it. -/
@[simp]
theorem upTo_eq_true : first.upTo second = true ↔ second.rank.lt first.rank = false := by
  rw [upTo, Bool.not_eq_true']

/-- Entries with places are compared by their ranks. -/
theorem atMost_eq_upTo (hfirst : first.place?.isSome = true)
    (hsecond : second.place?.isSome = true) : first.atMost second = first.upTo second := by
  obtain ⟨p, hp⟩ := Option.isSome_iff_exists.mp hfirst
  obtain ⟨q, hq⟩ := Option.isSome_iff_exists.mp hsecond
  rw [upTo, rank_of_place hp, rank_of_place hq, atMost, hp, hq]

/-- Ranks go along chains. -/
theorem upTo_trans (a b c : Keyed α) (hab : a.upTo b = true) (hbc : b.upTo c = true) :
    a.upTo c = true := by
  rw [upTo_eq_true] at *
  exact Place.not_lt_trans hab hbc

/-- Of two entries one is ranked at most like the other. -/
theorem upTo_total (a b : Keyed α) : (a.upTo b || b.upTo a) = true := by
  rw [Bool.or_eq_true, upTo_eq_true, upTo_eq_true]
  cases h : b.rank.lt a.rank with
  | false => exact .inl rfl
  | true => exact .inr (Place.not_lt_of_lt h)

/-- Entries with places are sorted by their ranks. -/
theorem sort_of_placed (placed : Placed entries) : sort entries = .ok (entries.mergeSort upTo) := by
  have hsame := List.map_mergeSort (f := id) (r := atMost) (s := upTo)
    fun a ha b hb => atMost_eq_upTo (placed a ha) (placed b hb)
  rw [List.map_id, List.map_id] at hsame
  rw [sort, if_pos (List.all_eq_true.mpr placed), hsame]

/-- Sorted entries are in the order of their keys. -/
theorem rises_of_sort (placed : Placed entries) (h : sort entries = .ok sorted) :
    sorted.Pairwise fun a b => b.rank.lt a.rank = false := by
  rw [sort_of_placed placed] at h
  cases h
  exact (List.pairwise_mergeSort upTo_trans upTo_total entries).imp upTo_eq_true.mp

/-- Two entries that are in the order of their keys stay in it. -/
theorem sublist_of_sort (placed : Placed entries) (h : sort entries = .ok sorted)
    (before : [first, second].Sublist entries) (ordered : second.rank.lt first.rank = false) :
    [first, second].Sublist sorted := by
  rw [sort_of_placed placed] at h
  cases h
  exact List.pair_sublist_mergeSort upTo_trans upTo_total (upTo_eq_true.mpr ordered) before

/-- Sorted entries whose keys are all different rise from one to the next. -/
theorem rises_strictly_of_sort (placed : Placed entries)
    (apart : entries.Pairwise fun a b => a.rank ≠ b.rank) (h : sort entries = .ok sorted) :
    sorted.Pairwise fun a b => a.rank.lt b.rank = true := by
  have hrises := rises_of_sort placed h
  rw [sort_of_placed placed] at h
  cases h
  have hapart := apart.perm (List.mergeSort_perm entries upTo).symm Ne.symm
  refine (hrises.and hapart).imp fun {a b} ⟨hle, hne⟩ => ?_
  cases hlt : a.rank.lt b.rank with
  | true => rfl
  | false => exact absurd (Place.eq_of_not_lt hlt hle) hne

/-- Entries whose keys are all different are sorted into one order, in whatever order
they are given. -/
theorem sort_congr (placed : Placed entries) (perm : others.Perm entries)
    (apart : entries.Pairwise fun a b => a.rank ≠ b.rank) : sort others = sort entries := by
  have hplaced : Placed others := fun entry hentry => placed entry (perm.subset hentry)
  have hapart := apart.perm perm.symm Ne.symm
  have hothers := rises_strictly_of_sort hplaced hapart (sort_of_placed hplaced)
  have hentries := rises_strictly_of_sort placed apart (sort_of_placed placed)
  have hperm : (others.mergeSort upTo).Perm (entries.mergeSort upTo) :=
    (List.mergeSort_perm _ _).trans (perm.trans (List.mergeSort_perm _ _).symm)
  rw [sort_of_placed hplaced, sort_of_placed placed]
  refine congrArg Except.ok (hperm.eq_of_pairwise (fun a b _ _ hab hba => ?_) hothers hentries)
  rw [Place.not_lt_of_lt hab] at hba
  cases hba

end Keyed

end Montage
