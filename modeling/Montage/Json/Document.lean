import Montage.Fault
import Montage.Json.Reader

/-!
# Documents from texts

What a text that is no document means to the operation that reads it.
-/

namespace Montage.Json

/-- The fault of a text that is no document; `malformed` is the one for a broken
grammar. -/
def Failure.fault (malformed : Fault) : Failure → Fault
  | .malformed => malformed
  | .numeralTooLong digits => .unreadable (.numeralTooLong digits)
  | .tooDeep innermost => .tooDeep innermost

/-- Reads a text as a document; one that breaks the grammar ends in the given
fault. -/
def readOr (malformed : Fault) (t : Text) : Outcome Value := (read t).mapError (Failure.fault malformed)

end Montage.Json
