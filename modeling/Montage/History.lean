import Montage.Value.Operations

/-!
# Undo history

A history is a bounded list of labelled states with a cursor on the current
one. Undo and redo move the cursor; recording a state drops everything after
the cursor first, and the oldest state when the history is full.
-/

namespace Montage

/-- The number of states a history holds unless told otherwise. -/
def defaultHistoryLimit : Nat := 50

/-- Labelled states and a cursor. -/
structure History (State Label : Type) where
  /-- The most entries that are kept. -/
  limit : Nat
  /-- The recorded states, oldest first, each with the label of the edit that
  made it. -/
  entries : List (State × Label)
  /-- The number of entries up to the current one, zero when there is none. -/
  cursor : Nat

namespace History

variable {State Label : Type}

/-- The largest number of entries that can be asked for. -/
def largestLimit : Nat := Nat.pow 2 63 - 1

/-- An empty history. -/
def empty (limit : Nat) : History State Label := ⟨limit, [], 0⟩

/-- An empty history whose limit is given by a value: a whole number that is at
least one. -/
def ofLimit (limit : Value) : Outcome (History State Label) := do
  if (← limit.lt (.int 1)) then .error (.invalid .historyLimit)
  else
    match limit with
    | .bool _ => return empty 1
    | .number (.int n) => if n.toNat ≤ largestLimit then return empty n.toNat else .error .tooLarge
    | _ => .error .illTyped

/-- The number of entries. -/
def size (history : History State Label) : Nat := history.entries.length

/-- The position of the cursor among the entries, minus one when there are none. -/
def index (history : History State Label) : Int := (history.cursor : Int) - 1

/-- The entry at a position. -/
def entry? (history : History State Label) (position : Nat) : Option (State × Label) :=
  history.entries[position]?

/-- The current state. -/
def current? (history : History State Label) : Option State :=
  if history.cursor = 0 then none else (history.entry? (history.cursor - 1)).map (·.1)

/-- Records a state after the current one. -/
def push (history : History State Label) (state : State) (label : Label) :
    History State Label :=
  let entries := history.entries.take history.cursor ++ [(state, label)]
  let kept := entries.drop (entries.length - history.limit)
  { history with entries := kept, cursor := kept.length }

/-- Whether there is an earlier state. -/
def canUndo (history : History State Label) : Bool := 1 < history.cursor

/-- Whether there is a later state. -/
def canRedo (history : History State Label) : Bool := history.cursor < history.size

/-- Goes back by one state, if there is an earlier one. -/
def undo (history : History State Label) : History State Label :=
  if history.canUndo then { history with cursor := history.cursor - 1 } else history

/-- Goes forward by one state, if there is a later one. -/
def redo (history : History State Label) : History State Label :=
  if history.canRedo then { history with cursor := history.cursor + 1 } else history

/-- The label of the edit that undo takes back. -/
def undoLabel? (history : History State Label) : Option Label :=
  if history.canUndo then (history.entry? (history.cursor - 1)).map (·.2) else none

/-- The label of the edit that redo brings back. -/
def redoLabel? (history : History State Label) : Option Label :=
  if history.canRedo then (history.entry? history.cursor).map (·.2) else none

/-- Forgets all states. -/
def clear (history : History State Label) : History State Label :=
  { history with entries := [], cursor := 0 }

end History

end Montage
