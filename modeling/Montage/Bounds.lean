import Montage.Value.Operations

/-!
# Bounds of timeline values

Numbers are stored as given and forced into their range where they are used.
Percentages lie between 0 and 100 and opacities between 0 and 1.
-/

namespace Montage

/-- The shortest clip the timeline allows, in seconds. -/
def minClipDuration : Binary64 := 0.1

/-- The slack for rounding when stored trim points are compared. -/
def timeTolerance : Binary64 := 1e-6

namespace Value

/-- Whether a value is a finite number. Truth values are none, although they
count as numbers elsewhere. -/
def isFinite : Value → Outcome Bool
  | .number n => orFault .tooLarge n.isFinite?
  | _ => .ok false

/-- Whether a value is the double that is not-a-number. -/
def isNaN : Value → Bool
  | .number n => n.isNaN
  | _ => false

/-- Forces a value into a range. A value equal to an end becomes that end, and
not-a-number is refused. -/
def clamp (value low high : Value) : Outcome Value :=
  if value.isNaN then .error (.invalid .clampNaN)
  else do larger low (← smaller high value)

/-- Forces a percentage into its range. -/
def clampPercent (value : Value) : Outcome Value := clamp value (real 0) (real 100)

/-- Forces an opacity into its range. -/
def clampOpacity (value : Value) : Outcome Value := clamp value (real 0) (real 1)

end Value

end Montage
