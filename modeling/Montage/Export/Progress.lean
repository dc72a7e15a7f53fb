import Montage.Bounds

/-!
# Progress of an export

The media engine reports on lines of the form `name=value` how far it has
come. A tracker turns those positions into percentages that only grow.
-/

namespace Montage

/-- Forces a double other than not-a-number into a range. A value equal to an
end becomes that end. -/
def Binary64.within (x low high : Binary64) : Binary64 :=
  let y := if (Number.real x).lt (.real high) then x else high
  if (Number.real low).lt (.real y) then y else low

namespace Progress

/-- The names of the lines that report a position. -/
def positionNames : List Text := ["out_time_ms", "out_time_us"]

/-- The number of reported units in a second: both names count microseconds. -/
def unitsPerSecond : Number := 1000000

/-- The position that a line reports, in seconds. Other lines, and values that
are no whole numbers, report none. -/
def position? (line : Text) : Outcome (Option Binary64) :=
  let points := line.trim.points
  let name : Text := ⟨points.takeWhile (· ≠ .char '=')⟩
  let value : Text := ⟨(points.dropWhile (· ≠ .char '=')).drop 1⟩
  if positionNames.contains name then
    match value.wholeNumber? with
    | some n => (orFault .tooLarge ((Number.int n).div? unitsPerSecond)).map some
    | none => .ok none
  else .ok none

/-- Whether a line says that the engine is done. -/
def isEnd (line : Text) : Bool := ("progress=end" : Text).points.isPrefixOf line.points

end Progress

/-- How far an export of a known duration has come. -/
structure ProgressTracker where
  /-- The duration of the whole, in seconds. -/
  total : Value
  /-- The largest percentage so far. -/
  percent : Binary64

namespace ProgressTracker

/-- A tracker before the first position. -/
def start (total : Value) : ProgressTracker := ⟨total, 0⟩

/-- The percentage of a position, between 0 and 100. -/
def percentOf (total seconds : Value) : Outcome Binary64 := do
  let hundredfold ← seconds.mul (.real 100)
  let ratio ← (Value.number hundredfold).div total
  if ratio.isNaN then .error (.invalid .clampNaN) else return ratio.within 0 100

/-- Records a position. The new percentage is returned if it is larger than all
before; a duration that is not positive never gives one. -/
def update (tracker : ProgressTracker) (seconds : Value) :
    Outcome (Option Binary64 × ProgressTracker) := do
  if (← tracker.total.le (.int 0)) then return (none, tracker)
  else
    let percent ← percentOf tracker.total seconds
    if (Number.real tracker.percent).lt (.real percent) then
      return (some percent, { tracker with percent })
    else return (none, tracker)

end ProgressTracker

end Montage
