import Montage.Fault
import Montage.Note

/-!
# Work that leaves notes

Reading settings and probing files may end in a fault and leave notes about
what was worked around. The notes stay when the work fails.
-/

namespace Montage

/-- Work that leaves notes and may end in a fault. -/
abbrev Noting (α : Type) := ExceptT Fault (StateM (List Note)) α

namespace Noting

/-- An outcome as work that leaves no notes. -/
def ofOutcome {α : Type} (outcome : Outcome α) : Noting α := ExceptT.mk (pure outcome)

/-- Leaves a note. -/
def note (severity : Severity) (text : Text) : Noting Unit :=
  modify fun notes => notes ++ [⟨severity, text⟩]

/-- What work comes to: its outcome and its notes. -/
def result {α : Type} (work : Noting α) : Outcome α × List Note := work.run.run []

end Noting

end Montage
