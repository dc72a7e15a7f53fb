import Montage.Fault

/-!
# Events of an export

An export tells how it goes by a stream of events: percentages, and at the end
the file that was written or what went wrong.
-/

namespace Montage.Export

/-- What an export tells. -/
inductive Event where
  /-- So much is encoded. -/
  | progress (percent : Binary64)
  /-- The file was written. -/
  | success (outputPath : Value)
  /-- The export failed. -/
  | failure (message : Text)

namespace Event

/-- Whether nothing follows an event. -/
def isTerminal : Event → Bool
  | .progress _ => false
  | _ => true

/-- An event as a document. -/
def toValue : Event → Value
  | .progress percent => .record [("type", .text "progress"), ("percent", .real percent)]
  | .success path => .record [("type", .text "success"), ("outputPath", path)]
  | .failure message => .record [("type", .text "failure"), ("message", .text message)]

/-- What is said of a stream without a terminal event. -/
def withoutResult : Text := "Export ended without a result"

/-- What a stream of events comes to: the written file, or the failure. -/
def conclusion : List Event → Outcome Value
  | [] => .error (.exportFailed withoutResult)
  | .progress _ :: events => conclusion events
  | .success path :: _ => .ok path
  | .failure message :: _ => .error (.exportFailed message)

end Event

end Montage.Export
