import Montage.Number.Basic
import Montage.Text.Basic

/-!
# Document values

Project files, requests, settings and probe reports are documents: nulls,
truth values, numbers, texts, lists and records whose fields keep their order.
Values are stored as given, so the model of a clip is made of them as well.
-/

namespace Montage

/-- A document value. -/
inductive Value where
  /-- The absent value. -/
  | null
  /-- A truth value; in comparisons and arithmetic it counts as one or zero. -/
  | bool (b : Bool)
  /-- A number of either kind. -/
  | number (n : Number)
  /-- A text. -/
  | text (s : Text)
  /-- A list of values. -/
  | list (items : List Value)
  /-- Named values in the order in which they were given. -/
  | record (fields : List (Text × Value))

/-- What other values stand in. -/
inductive Container where
  /-- A list. -/
  | list
  /-- A record. -/
  | record
deriving DecidableEq

namespace Value

instance : Inhabited Value := ⟨.null⟩

/-- An integer as a value. -/
def int (n : Int) : Value := .number (.int n)

/-- A double as a value. -/
def real (x : Binary64) : Value := .number (.real x)

instance : Coe Number Value := ⟨.number⟩

/-- The number that a value counts as in comparisons and arithmetic. -/
def number? : Value → Option Number
  | .number n => some n
  | .bool b => some (.int (if b then 1 else 0))
  | _ => none

/-- Whether a value counts as true: null, false, zero and everything empty do
not. -/
def truthy : Value → Bool
  | .null => false
  | .bool b => b
  | .number n => !n.equal 0
  | .text s => !s.isEmpty
  | .list items => !items.isEmpty
  | .record fields => !fields.isEmpty

/-- Whether a value is null. -/
def isNull : Value → Bool
  | .null => true
  | _ => false

/-- Whether a value can name something in a set or a table: lists and records
cannot. -/
def isKey : Value → Bool
  | .list _ => false
  | .record _ => false
  | _ => true

/-- The value of a field among named values. -/
def find? (fields : List (Text × Value)) (name : Text) : Option Value :=
  (fields.find? fun field => field.1 = name).map (·.2)

/-- Sets a field: an existing one keeps its place, a new one comes last. -/
def put (fields : List (Text × Value)) (name : Text) (value : Value) :
    List (Text × Value) :=
  if fields.any fun field => field.1 = name then
    fields.map fun field => if field.1 = name then (name, value) else field
  else fields ++ [(name, value)]

/-- Fields without the first one of a name. -/
def remove (fields : List (Text × Value)) (name : Text) : List (Text × Value) :=
  fields.eraseP fun field => field.1 = name

mutual

/-- Whether two stored values agree. Truth values agree with the numbers they
count as, the order of fields does not matter, and the same not-a-number agrees
with itself. -/
def agrees : Value → Value → Bool
  | .null, other => other.isNull
  | .bool b, other =>
    match other.number? with
    | some n => (Number.int (if b then 1 else 0)).agrees n
    | none => false
  | .number m, other =>
    match other.number? with
    | some n => m.agrees n
    | none => false
  | .text s, other =>
    match other with
    | .text t => s = t
    | _ => false
  | .list items, other =>
    match other with
    | .list others => listsAgree items others
    | _ => false
  | .record fields, other =>
    match other with
    | .record others => fieldsAgree fields others
    | _ => false

/-- Whether two lists of stored values agree, item by item. -/
def listsAgree : List Value → List Value → Bool
  | [], others => others.isEmpty
  | item :: items, others =>
    match others with
    | [] => false
    | other :: rest => agrees item other && listsAgree items rest

/-- Whether every field of the first record agrees with the one of that name in
the second, and none is left over there. -/
def fieldsAgree : List (Text × Value) → List (Text × Value) → Bool
  | [], others => others.isEmpty
  | (name, value) :: fields, others =>
    match find? others name with
    | some other => agrees value other && fieldsAgree fields (remove others name)
    | none => false

end

/-- Equality of values: numbers are compared by value, so that not-a-number
equals nothing, while what lists and records hold only has to agree. -/
def equal (a b : Value) : Bool :=
  match a.number?, b.number? with
  | some m, some n => m.equal n
  | _, _ => a.agrees b

/-- Whether a value equals one of the given texts. -/
def isOneOf (value : Value) (texts : List Text) : Bool :=
  texts.any fun s => value.equal (.text s)

/-- Whether a list of values holds one that agrees. -/
def isAmong (value : Value) (values : List Value) : Bool := values.any (agrees value)

end Value

end Montage
