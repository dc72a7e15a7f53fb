import Montage.Fault
import Montage.Text.Numeral

/-!
# Operations on values

Order, arithmetic and access to parts. A value of an unsuitable kind ends an
operation in a fault; nothing is converted silently, except that truth values
count as numbers and integers become doubles where a double is involved.
-/

namespace Montage.Value

/-! ## Order -/

/-- The two orderings that values are asked for. -/
inductive Ordering where
  /-- Strictly before. -/
  | before
  /-- Before or equal. -/
  | upTo

/-- The ordering of numbers. -/
def Ordering.onNumbers : Ordering → Number → Number → Bool
  | .before => Number.lt
  | .upTo => Number.le

/-- The ordering of texts, code point by code point. -/
def Ordering.onTexts : Ordering → Text → Text → Bool
  | .before => fun s t => s.lt t
  | .upTo => fun s t => !t.lt s

/-- The ordering of lists that agree up to the end of the shorter one. -/
def Ordering.onLengths : Ordering → Nat → Nat → Bool
  | .before => fun m n => m < n
  | .upTo => fun m n => m ≤ n

mutual

/-- Orders two values. Numbers and truth values are compared by value, texts
code point by code point and lists at their first difference. -/
def inOrder (order : Ordering) : Value → Value → Outcome Bool
  | .text s, other =>
    match other with
    | .text t => .ok (order.onTexts s t)
    | _ => .error .illTyped
  | .list items, other =>
    match other with
    | .list others => listsInOrder order items others
    | _ => .error .illTyped
  | value, other =>
    match value.number?, other.number? with
    | some m, some n => .ok (order.onNumbers m n)
    | _, _ => .error .illTyped

/-- Orders two lists at their first difference, or by length. -/
def listsInOrder (order : Ordering) : List Value → List Value → Outcome Bool
  | [], others => .ok (order.onLengths 0 others.length)
  | item :: items, others =>
    match others with
    | [] => .ok (order.onLengths (items.length + 1) 0)
    | other :: rest =>
      if item.agrees other then listsInOrder order items rest else inOrder order item other

end

/-- Whether the first value is less than the second. -/
def lt (a b : Value) : Outcome Bool := inOrder .before a b

/-- Whether the first value is at most the second. -/
def le (a b : Value) : Outcome Bool := inOrder .upTo a b

/-- The smaller of two values, the first one if they are equal. -/
def smaller (a b : Value) : Outcome Value := do
  if (← lt b a) then return b else return a

/-- The larger of two values, the first one if they are equal. -/
def larger (a b : Value) : Outcome Value := do
  if (← lt a b) then return b else return a

/-! ## Arithmetic -/

/-- Applies an operation on numbers to values that count as numbers. -/
def arithmetic (operation : Number → Number → Option Number) (a b : Value) : Outcome Number :=
  match a.number?, b.number? with
  | some m, some n => orFault .tooLarge (operation m n)
  | _, _ => .error .illTyped

/-- The sum of two numbers. -/
def add : Value → Value → Outcome Number := arithmetic Number.add?

/-- The difference of two numbers. -/
def sub : Value → Value → Outcome Number := arithmetic Number.sub?

/-- The product of two numbers. -/
def mul : Value → Value → Outcome Number := arithmetic Number.mul?

/-- The quotient of two numbers as a double. -/
def div (a b : Value) : Outcome Binary64 :=
  match a.number?, b.number? with
  | some m, some n => orFault .tooLarge (m.div? n)
  | _, _ => .error .illTyped

/-- A value as a double, for printing with decimal places: a text cannot be
read that way, and other values have no such form at all. -/
def toReal (value : Value) : Outcome Binary64 :=
  match value.number? with
  | some n => orFault .tooLarge n.toReal?
  | none => .error (match value with | .text _ => .unreadable .noPlaces | _ => .illTyped)

/-- Why a text stands for no whole number. That it begins with too many digits
is found before what follows them. -/
def notWhole (t : Text) : Unreadable :=
  match t.leadingDigits? with
  | some digits =>
    if Text.longestNumeral < digits.length then .numeralTooLong digits.length else .notWhole t
  | none => .notWhole t

/-- The whole number a value stands for: fractions are cut off and texts are
read as numerals. -/
def toWhole : Value → Outcome Int
  | .bool b => .ok (if b then 1 else 0)
  | .number (.int n) => .ok n
  | .number (.real (.nan _)) => .error (.unreadable .noWholePart)
  | .number (.real x) => orFault .tooLarge x.truncate?
  | .text s => orFault (.unreadable (notWhole s)) (Text.wholeNumber? s)
  | _ => .error .illTyped

/-- The double a value stands for: texts are read as decimals. -/
def toDecimal (value : Value) : Outcome Binary64 :=
  match value with
  | .text s => orFault (.unreadable (.notDecimal s)) (Text.decimal? s)
  | _ => value.toReal

/-- The whole number that addresses a place in a list. Doubles do not. -/
def position : Value → Outcome Int
  | .bool b => .ok (if b then 1 else 0)
  | .number (.int n) => .ok n
  | _ => .error .illTyped

/-! ## Parts -/

/-- The field of a record that must be there. -/
def require (value : Value) (name : Text) : Outcome Value :=
  match value with
  | .record fields => orFault (.missingField name) (find? fields name)
  | _ => .error .illTyped

/-- The field of a record, or a default when it is absent. -/
def lookup (value : Value) (name : Text) (default : Value) : Outcome Value :=
  match value with
  | .record fields => .ok ((find? fields name).getD default)
  | _ => .error .noMembers

/-- The parts of a value that can be gone through: the items of a list, the
characters of a text, the names of a record. -/
def elements : Value → Outcome (List Value)
  | .list items => .ok items
  | .text s => .ok (s.points.map fun point => .text ⟨[point]⟩)
  | .record fields => .ok (fields.map fun field => .text field.1)
  | _ => .error .illTyped

/-- Whether a text occurs in a value: as part of a text, as an item of a list
or as the name of a field. -/
def mentions (value : Value) (needle : Text) : Outcome Bool :=
  match value with
  | .text s => .ok (needle.occurs s)
  | .list items => .ok (isAmong (.text needle) items)
  | .record fields => .ok (fields.any fun field => field.1 = needle)
  | _ => .error .illTyped

/-- The two parts of a value that has exactly two. -/
def pair (value : Value) : Outcome (Value × Value) := do
  match (← value.elements) with
  | [a, b] => return (a, b)
  | parts => .error (.unreadable (.ofCount parts.length))

/-- The text that a value is. Other values have no letters to be looked at. -/
def asText : Value → Outcome Text
  | .text s => .ok s
  | _ => .error .noMembers

/-- Refuses values that cannot name anything. -/
def checkKey (value : Value) : Outcome Unit :=
  if value.isKey then .ok () else .error .illTyped

/-- Whether two of the values are equal, after refusing those that cannot name
anything. -/
def hasRepeats : List Value → Outcome Bool
  | [] => .ok false
  | value :: values => do
    value.checkKey
    let later ← hasRepeats values
    return later || value.isAmong values

end Montage.Value
