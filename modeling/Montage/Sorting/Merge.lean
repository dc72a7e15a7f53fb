import Montage.Sorting.Search

/-!
# Merging two runs

Two ordered runs that follow each other become one. Items are compared one by
one until one of the runs has given several in a row; then whole stretches are
looked for by leaps, as long as that pays. The shorter run decides from which
end the merging goes. With a comparison that orders the items the result is the
stable merge; with any other one it is what these comparisons make of it.
-/

namespace Montage.Sorting

variable {α : Type}

/-- The length from which a stretch is worth a leap. -/
def worthwhile : Nat := 7

/-- How runs are merged at the moment. -/
inductive Pace where
  /-- One by one; so many items in a row came from the first and from the second
  run. -/
  | steps (first second : Nat)
  /-- By stretches. -/
  | leaps

/-- Two runs that are being merged. -/
structure Merging (α : Type) where
  /-- What is left of the first run. -/
  first : List α
  /-- What is left of the second run. -/
  second : List α
  /-- What is merged. -/
  merged : List α
  /-- How many items in a row one run must give before the next leap. -/
  patience : Nat

/-- An ordered run and the patience that is left. -/
abbrev Merged (α : Type) := List α × Nat

namespace Merging

/-- Whether a stretch of either run was worth its leap. -/
def pays (first second : Nat) : Bool := worthwhile ≤ first || worthwhile ≤ second

/-- The patience during one more leap. -/
def lessPatient (m : Merging α) : Merging α :=
  { m with patience := if 1 < m.patience then m.patience - 1 else m.patience }

/-- The patience at a change of the pace. -/
def morePatient (m : Merging α) : Merging α := { m with patience := m.patience + 1 }

/-- Takes items off the front of the first run. -/
def takeFirst (m : Merging α) (count : Nat) : Merging α :=
  { m with first := m.first.drop count, merged := (m.first.take count).reverse ++ m.merged }

/-- Takes items off the front of the second run. -/
def takeSecond (m : Merging α) (count : Nat) : Merging α :=
  { m with second := m.second.drop count, merged := (m.second.take count).reverse ++ m.merged }

/-! ## From the front

What is merged comes newest first. -/

/-- The merged run when what is left stays in its order. -/
def closed (m : Merging α) : Merged α := (m.merged.reverse ++ m.first ++ m.second, m.patience)

/-- The merged run when the last item of the first run comes last. -/
def crossed (m : Merging α) : Merged α := (m.merged.reverse ++ m.second ++ m.first, m.patience)

/-- Whether nothing is left to be compared. -/
def isOver (m : Merging α) : Bool := m.second.isEmpty || m.first.length ≤ 1

/-- The merged run when nothing is left to be compared. -/
def ending (m : Merging α) : Merged α :=
  if m.second.isEmpty || m.first.isEmpty then m.closed else m.crossed

/-- One leap in each run, first over the items of the first run that stay before
the next one of the second, then the other way round. The result tells how far
the leaps went. -/
def leapForward (before : α → α → Outcome Bool) (m : Merging α) :
    Outcome (Merging α × Nat × Nat) :=
  match m.second with
  | [] => .ok (m, 0, 0)
  | y :: _ => do
    let i ← boundary (fun x => do return !(← before y x)) m.first 0
    let m := m.takeFirst i
    if m.isOver then return (m, i, 0)
    else
      let m := m.takeSecond 1
      if m.isOver then return (m, i, 0)
      else
        match m.first with
        | [] => return (m, i, 0)
        | x :: _ =>
          let j ← boundary (fun z => before z x) m.second 0
          let m := m.takeSecond j
          if m.isOver then return (m, i, j) else return (m.takeFirst 1, i, j)

/-- Merges from the front. `fuel` bounds the number of steps. -/
def forward (before : α → α → Outcome Bool) : Nat → Pace → Merging α → Outcome (Merged α)
  | 0, _, m => .ok m.ending
  | fuel + 1, pace, m =>
    if m.isOver then .ok m.ending
    else
      match pace, m.first, m.second with
      | .steps a b, x :: _, y :: _ => do
        let fromSecond ← before y x
        let (a, b) := if fromSecond then (0, b + 1) else (a + 1, 0)
        let m := if fromSecond then m.takeSecond 1 else m.takeFirst 1
        if m.isOver then return m.ending
        else if m.patience ≤ max a b then forward before fuel .leaps m.morePatient
        else forward before fuel (.steps a b) m
      | _, _, _ => do
        let (m, a, b) ← leapForward before m.lessPatient
        if m.isOver then return m.ending
        else if pays a b then forward before fuel .leaps m
        else forward before fuel (.steps 0 0) m.morePatient

/-! ## From the back

Both runs come with their last item first, and what is merged in its order. -/

/-- The merged run when what is left stays in its order. -/
def closedBack (m : Merging α) : Merged α :=
  (m.first.reverse ++ m.second.reverse ++ m.merged, m.patience)

/-- The merged run when the first item of the second run comes first. -/
def crossedBack (m : Merging α) : Merged α :=
  (m.second.reverse ++ m.first.reverse ++ m.merged, m.patience)

/-- Whether nothing is left to be compared. -/
def isOverBack (m : Merging α) : Bool := m.first.isEmpty || m.second.length ≤ 1

/-- The merged run when nothing is left to be compared. -/
def endingBack (m : Merging α) : Merged α :=
  if m.first.isEmpty || m.second.isEmpty then m.closedBack else m.crossedBack

/-- One leap in each run, first over the items of the first run that come after
the next one of the second, then the other way round. -/
def leapBackward (before : α → α → Outcome Bool) (m : Merging α) :
    Outcome (Merging α × Nat × Nat) :=
  match m.second with
  | [] => .ok (m, 0, 0)
  | y :: _ => do
    let i ← boundary (fun x => do return !(← before y x)) m.first.reverse (m.first.length - 1)
    let i := m.first.length - i
    let m := m.takeFirst i
    if m.isOverBack then return (m, i, 0)
    else
      let m := m.takeSecond 1
      if m.isOverBack then return (m, i, 0)
      else
        match m.first with
        | [] => return (m, i, 0)
        | x :: _ =>
          let j ← boundary (fun z => before z x) m.second.reverse (m.second.length - 1)
          let j := m.second.length - j
          let m := m.takeSecond j
          if m.isOverBack then return (m, i, j) else return (m.takeFirst 1, i, j)

/-- Merges from the back. `fuel` bounds the number of steps. -/
def backward (before : α → α → Outcome Bool) : Nat → Pace → Merging α → Outcome (Merged α)
  | 0, _, m => .ok m.endingBack
  | fuel + 1, pace, m =>
    if m.isOverBack then .ok m.endingBack
    else
      match pace, m.first, m.second with
      | .steps a b, x :: _, y :: _ => do
        let fromFirst ← before y x
        let (a, b) := if fromFirst then (a + 1, 0) else (0, b + 1)
        let m := if fromFirst then m.takeFirst 1 else m.takeSecond 1
        if m.isOverBack then return m.endingBack
        else if m.patience ≤ max a b then backward before fuel .leaps m.morePatient
        else backward before fuel (.steps a b) m
      | _, _, _ => do
        let (m, a, b) ← leapBackward before m.lessPatient
        if m.isOverBack then return m.endingBack
        else if pays a b then backward before fuel .leaps m
        else backward before fuel (.steps 0 0) m.morePatient

end Merging

/-- Merges what is left of two runs after the parts that stay in their places. -/
def mergeInner (before : α → α → Outcome Bool) (patience : Nat) (first second : List α) :
    Outcome (Merged α) :=
  let fuel := 2 * (first.length + second.length) + 2
  if first.length ≤ second.length then
    (Merging.mk first second [] patience).takeSecond 1 |>.forward before fuel (.steps 0 0)
  else
    (Merging.mk first.reverse second.reverse [] patience).takeFirst 1
      |>.backward before fuel (.steps 0 0)

/-- Merges two runs. The front of the first one and the end of the second one may
be in their places already. -/
def mergeRuns (before : α → α → Outcome Bool) (patience : Nat) (first second : List α) :
    Outcome (Merged α) :=
  match second with
  | [] => .ok (first, patience)
  | y :: _ => do
    let placed ← boundary (fun x => do return !(← before y x)) first 0
    match (first.drop placed).getLast? with
    | none => return (first ++ second, patience)
    | some x =>
      let open_ ← boundary (fun z => before z x) second (second.length - 1)
      if open_ = 0 then return (first ++ second, patience)
      else
        let (inner, patience) ←
          mergeInner before patience (first.drop placed) (second.take open_)
        return (first.take placed ++ inner ++ second.drop open_, patience)

end Montage.Sorting
