import Montage.Number.Field
import Montage.Value.Operations

/-!
# Numbers in filter arguments

Filter arguments are written with a few decimal places and without trailing
zeros. Zero is written without a sign.
-/

namespace Montage

/-- Cuts trailing zeros off a text, and then trailing points. -/
def trimFraction (text : String) : String :=
  let digits := text.toList.reverse.dropWhile (· = '0')
  String.ofList (digits.dropWhile (· = '.')).reverse

/-- A decimal without trailing zeros and points; what is left of zero is `0`. -/
def shortened (decimal : String) : String :=
  let text := trimFraction decimal
  if text = "" || text = "-0" then "0" else text

/-- The text of a double with at most the given number of decimal places. -/
def decimalText (places : Nat) (x : Binary64) : String := shortened (x.fixed places)

/-- The text of a value as a filter argument. -/
def filterNumber (value : Value) (places : Nat) : Outcome Text := do
  return decimalText places (← value.toReal)

/-- The most decimal places that can be written. -/
def mostPlaces : Nat := Nat.pow 2 31 - 1

/-- How a value asks for decimals to be written: a whole number is the number of
places. -/
def styleOf? : Value → Option DecimalStyle
  | .number (.int n) => if n < 0 then none else DecimalStyle.ofPlaces? n.toNat
  | .text t => DecimalStyle.ofText? t
  | _ => none

/-- The text of a value as a filter argument, written as another value asks for.
A value that is no number at all is found out first. -/
def filterNumberAs (value style : Value) : Outcome Text := do
  match styleOf? style with
  | some style =>
    let x ← value.toReal
    if style.places ≤ mostPlaces then return shortened (style.render x)
    else .error (.unreadable .noPlaces)
  | none =>
    if value.number?.isSome then .error (.unreadable .noPlaces) else filterNumber value 0

/-- Times are written in milliseconds. -/
def timePlaces : Nat := 3

/-- Shares of the frame and opacities have four places. -/
def sharePlaces : Nat := 4

end Montage
