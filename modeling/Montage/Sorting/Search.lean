import Montage.Fault

/-!
# Searching ordered items

A condition that holds for the first items of a list and for no later ones
changes at one place. It is found by halving a range, or from a hint by leaps of
growing length. Every test may end in a fault.
-/

namespace Montage.Sorting

variable {α : Type}

/-- Whether a condition holds at a position. -/
def holdsAt (holds : α → Outcome Bool) (items : List α) (position : Nat) : Outcome Bool :=
  match items[position]? with
  | some item => holds item
  | none => .ok false

/-- The first position from `low` to `high` at which the condition does not
hold, found by halving. `fuel` bounds the halvings. -/
def bisect (holds : α → Outcome Bool) (items : List α) : Nat → Nat → Nat → Outcome Nat
  | 0, low, _ => .ok low
  | fuel + 1, low, high =>
    if low < high then do
      let middle := low + (high - low) / 2
      if (← holdsAt holds items middle) then bisect holds items fuel (middle + 1) high
      else bisect holds items fuel low middle
    else .ok low

/-- Leaps away from a position while a test succeeds, each more than twice as far
as the one before. The result is the last distance at which the test succeeded
and the first at which it failed or the end was reached. -/
def leap (test : Nat → Outcome Bool) (limit : Nat) : Nat → Nat → Nat → Outcome (Nat × Nat)
  | 0, last, distance => .ok (last, min distance limit)
  | fuel + 1, last, distance =>
    if distance < limit then do
      if (← test distance) then leap test limit fuel distance (2 * distance + 1)
      else return (last, distance)
    else .ok (last, limit)

/-- The first position at which the condition does not hold, looked for from a
hint. -/
def boundary (holds : α → Outcome Bool) (items : List α) (hint : Nat) : Outcome Nat := do
  let fuel := items.length + 1
  if (← holdsAt holds items hint) then
    let (last, distance) ←
      leap (fun d => holdsAt holds items (hint + d)) (items.length - hint) fuel 0 1
    bisect holds items fuel (hint + last + 1) (hint + distance)
  else
    let (last, distance) ←
      leap (fun d => do return !(← holdsAt holds items (hint - d))) (hint + 1) fuel 0 1
    bisect holds items fuel (hint + 1 - distance) (hint - last)

end Montage.Sorting
