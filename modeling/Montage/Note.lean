import Montage.Text.Basic

/-!
# Notes for the log

Operations leave notes about what they did or could not do. They are returned
beside the result and never change it.
-/

namespace Montage

/-- How much attention a note deserves. -/
inductive Severity where
  /-- What was done. -/
  | info
  /-- Something unexpected that was worked around. -/
  | warning
  /-- Something that failed. -/
  | error
deriving DecidableEq

/-- The name of a severity in the log. -/
def Severity.label : Severity → Text
  | .info => "INFO"
  | .warning => "WARNING"
  | .error => "ERROR"

/-- A line of the log. -/
structure Note where
  /-- How much attention it deserves. -/
  severity : Severity
  /-- What it says. -/
  text : Text
deriving DecidableEq

end Montage
