import Montage.Sorting.Merge

/-!
# Sorting by runs

A list is cut into runs that are ordered already. A falling run is turned round,
and a short one is filled up by inserting the items that follow. Runs wait on a
stack; how the border of two runs divides the list decides which of them are
merged first.
-/

namespace Montage.Sorting

variable {α : Type}

/-- Lists below this length are a single run. -/
def shortList : Nat := 64

/-- The smallest length of a run in a list of a length: its leading binary
digits, rounded up. `fuel` bounds the halvings. -/
def shortestRun : Nat → Nat → Nat → Nat
  | 0, length, _ => length
  | fuel + 1, length, rest =>
    if length < shortList then length + rest
    else shortestRun fuel (length / 2) (max rest (length % 2))

/-- The length of the run at the front, after its first item, in which each
comparison of an item with its predecessor has the given answer. -/
def runLength (before : α → α → Outcome Bool) (down : Bool) (previous : α) :
    List α → Outcome Nat
  | [] => .ok 0
  | item :: items => do
    if (← before item previous) = down then return (← runLength before down item items) + 1
    else return 0

/-- Cuts the longest run off the front, in rising order. -/
def frontRun (before : α → α → Outcome Bool) : List α → Outcome (List α × List α)
  | first :: second :: rest => do
    let down ← before second first
    let length ← runLength before down second rest
    let run := first :: second :: rest.take length
    return (if down then run.reverse else run, rest.drop length)
  | items => .ok (items, [])

/-- Inserts items one by one into an ordered run, each after its equals. -/
def insertAll (before : α → α → Outcome Bool) (run : List α) : List α → Outcome (List α)
  | [] => .ok run
  | item :: items => do
    let place ←
      bisect (fun other => do return !(← before item other)) run run.length 0 run.length
    insertAll before (run.take place ++ item :: run.drop place) items

/-- A run on the stack. -/
structure Run (α : Type) where
  /-- The position of its first item in the list. -/
  start : Nat
  /-- Its items. -/
  items : List α
  /-- The depth of its border with the run above it. -/
  depth : Nat

/-- At which halving of a list of a length its parts first come to lie on
different sides, given twice the middles of two neighbouring runs. -/
def depthFrom (length : Nat) : Nat → Nat → Nat → Nat
  | 0, _, _ => 0
  | fuel + 1, low, high =>
    if length ≤ low then depthFrom length fuel (2 * (low - length)) (2 * (high - length)) + 1
    else if length ≤ high then 1
    else depthFrom length fuel (2 * low) (2 * high) + 1

/-- The depth of the border between a run and one of a length after it. -/
def borderDepth (length : Nat) (run : Run α) (next : Nat) : Nat :=
  let middle := 2 * run.start + run.items.length
  depthFrom length (length + 2) middle (middle + run.items.length + next)

/-- The stack of runs, the last one first, and the patience that is left. -/
abbrev Stack (α : Type) := List (Run α) × Nat

/-- Merges the topmost runs as long as the border below them is deeper. -/
def collapse (before : α → α → Outcome Bool) (depth : Nat) : Nat → Stack α → Outcome (Stack α)
  | fuel + 1, (top :: next :: below, patience) =>
    if depth < next.depth then do
      let (items, patience) ← mergeRuns before patience next.items top.items
      collapse before depth fuel ({ next with items } :: below, patience)
    else .ok (top :: next :: below, patience)
  | _, stack => .ok stack

/-- Puts a run on the stack, after the merges that its border asks for. -/
def push (before : α → α → Outcome Bool) (length : Nat) (run : Run α) (stack : Stack α) :
    Outcome (Stack α) :=
  match stack.1 with
  | [] => .ok ([run], stack.2)
  | top :: _ => do
    let depth := borderDepth length top run.items.length
    match ← collapse before depth stack.1.length stack with
    | (top :: below, patience) => return (run :: { top with depth } :: below, patience)
    | ([], patience) => return ([run], patience)

/-- Merges all runs of a stack, the shorter neighbour of the second one first. -/
def mergeAll (before : α → α → Outcome Bool) : Nat → Stack α → Outcome (List α)
  | fuel + 1, (top :: next :: third :: below, patience) =>
    if third.items.length < top.items.length then do
      let (items, patience) ← mergeRuns before patience third.items next.items
      mergeAll before fuel (top :: { third with items } :: below, patience)
    else do
      let (items, patience) ← mergeRuns before patience next.items top.items
      mergeAll before fuel ({ next with items } :: third :: below, patience)
  | _, ([top, next], patience) => do return (← mergeRuns before patience next.items top.items).1
  | _, (runs, _) => .ok (runs.reverse.flatMap Run.items)

/-- Cuts a list into runs and puts them on the stack. -/
def stackRuns (before : α → α → Outcome Bool) (length shortest : Nat) :
    Nat → List α → Stack α → Outcome (Stack α)
  | fuel + 1, item :: items, stack => do
    let (run, rest) ← frontRun before (item :: items)
    let missing := shortest - run.length
    let run ← insertAll before run (rest.take missing)
    let rest := rest.drop missing
    let start := length - (run.length + rest.length)
    stackRuns before length shortest fuel rest (← push before length ⟨start, run, 0⟩ stack)
  | _, _, stack => .ok stack

/-- Sorts a list by comparisons. -/
def sort (before : α → α → Outcome Bool) (items : List α) : Outcome (List α) := do
  let length := items.length
  let shortest := shortestRun length length 0
  let stack ← stackRuns before length shortest length items ([], worthwhile)
  mergeAll before length stack

end Montage.Sorting
