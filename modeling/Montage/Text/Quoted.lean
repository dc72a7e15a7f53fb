import Montage.Text.Basic
import Montage.Text.Printable

/-!
# Quoted text

Messages show text inside quotes: single ones, unless the text holds a single
quote and no double one. Backslashes, the chosen quote and everything that is
not printable are escaped, so the ends and the characters stay visible.
-/

namespace Montage.Text

/-- A digit of base sixteen, in lower case. -/
def hexDigit (n : Nat) : Char := Nat.digitChar (n % 16)

/-- The last `places` digits of a number in base sixteen. -/
def hex (places n : Nat) : List Char :=
  (List.range places).reverse.map fun i => hexDigit (n / Nat.pow 16 i)

/-- The escape of a character by its code point, in the shortest form. -/
def escapeCode (code : Nat) : List Char :=
  if code < 0x100 then '\\' :: 'x' :: hex 2 code
  else if code < 0x10000 then '\\' :: 'u' :: hex 4 code
  else '\\' :: 'U' :: hex 8 code

/-- One character of quoted text. -/
def quoteChar (quote c : Char) : List Char :=
  if c = quote ∨ c = '\\' then ['\\', c]
  else if c = '\t' then ['\\', 't']
  else if c = '\n' then ['\\', 'n']
  else if c = '\r' then ['\\', 'r']
  else if isPrintable c then [c]
  else escapeCode c.toNat

/-- One code point of quoted text; a surrogate is never shown as it is. -/
def quotePoint (quote : Char) : CodePoint → List Char
  | .char c => quoteChar quote c
  | .surrogate offset => escapeCode (CodePoint.surrogate offset).value

/-- The quotes a text is put in. -/
def quoteMark (t : Text) : Char :=
  if t.points.contains (.char '\'') && !t.points.contains (.char '"') then '"' else '\''

/-- The text in quotes. -/
def quoted (t : Text) : Text :=
  let quote := quoteMark t
  ofChars (quote :: t.points.flatMap (quotePoint quote) ++ [quote])

end Montage.Text
