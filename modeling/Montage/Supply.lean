import Montage.Fault
import Montage.Ids
import Montage.Note
import Montage.Request.Placement

/-!
# What editing draws on

New names, random numbers and the log outlast a failed operation: a name that
was drawn is not drawn again.
-/

namespace Montage

/-- The state that operations draw new names and random numbers from, and leave
their notes in. -/
structure Supply where
  /-- The number of the next new name. -/
  nextId : Nat
  /-- The random numbers to come. -/
  draws : Draws
  /-- The notes left so far, oldest first. -/
  notes : List Note

/-- An operation that draws on a supply and may end in a fault; what it drew
stays drawn either way. -/
abbrev Drawing (α : Type) := ExceptT Fault (StateM Supply) α

namespace Drawing

/-- An outcome as an operation that draws nothing. -/
def ofOutcome {α : Type} (outcome : Outcome α) : Drawing α := ExceptT.mk (pure outcome)

/-- Draws a number for a new name. -/
def nextNumber : Drawing Nat := do
  let supply ← get
  set { supply with nextId := supply.nextId + 1 }
  return supply.nextId

/-- Draws a name for a new clip. -/
def newClipId : Drawing Value := do return .text (clipId (← nextNumber))

/-- Draws a name for a new overlay. -/
def newOverlayId : Drawing Value := do return .text (overlayId (← nextNumber))

/-- Leaves a note. -/
def note (severity : Severity) (text : Text) : Drawing Unit :=
  modify fun supply => { supply with notes := supply.notes ++ [⟨severity, text⟩] }

/-- Picks the place of an overlay by random draws. -/
def place (type index : Value) : Drawing (Position × Size) := do
  let supply ← get
  let (placed, draws) := (Placement.place type index).run.run supply.draws
  set { supply with draws }
  ofOutcome placed

end Drawing

end Montage
