import Montage.Sorting.Runs
import Montage.Value.Operations

/-!
# Stable order by a key

Clips are ordered by their start times. Keys that stand on the number line are
sorted stably. Other keys are sorted by runs: the first comparison without an
answer ends the sort, and not-a-number, which is less than nothing, ends up
where those comparisons leave it.
-/

namespace Montage

/-- An item with the value it is ordered by. -/
structure Keyed (α : Type) where
  /-- The value that decides the place. -/
  key : Value
  /-- The item. -/
  item : α

namespace Keyed

variable {α : Type}

/-- Where the key stands on the number line, if it does. -/
def place? (entry : Keyed α) : Option Place := entry.key.number?.bind Number.place?

/-- Whether the first key is at most the second, for keys on the line. -/
def atMost (a b : Keyed α) : Bool :=
  match a.place?, b.place? with
  | some p, some q => !q.lt p
  | _, _ => true

/-- Whether the key of an entry is less than that of another. -/
def before (a b : Keyed α) : Outcome Bool := a.key.lt b.key

/-- Sorts entries by their keys, keeping the order of equal ones. -/
def sort (entries : List (Keyed α)) : Outcome (List (Keyed α)) :=
  if entries.all fun entry => entry.place?.isSome then .ok (entries.mergeSort atMost)
  else Sorting.sort before entries

end Keyed

/-- Sorts items by a key, keeping the order of items with equal keys. -/
def sortOn {α : Type} (key : α → Value) (items : List α) : Outcome (List α) := do
  let entries ← Keyed.sort (items.map fun item => ⟨key item, item⟩)
  return entries.map Keyed.item

end Montage
