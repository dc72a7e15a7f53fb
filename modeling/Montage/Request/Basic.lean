import Montage.Value.Operations

/-!
# Requests

Assistants and scripts describe edits as named requests with arguments.
-/

namespace Montage

/-- A named request with its arguments. -/
structure Request where
  /-- The name of the request. -/
  name : Value
  /-- The arguments, a record for all requests that are read. -/
  arguments : Value

namespace Request

/-- An argument, or a default when it is absent. -/
def argument (request : Request) (name : Text) (default : Value) : Outcome Value :=
  request.arguments.lookup name default

/-- The target of a request, the first clip unless one is named. -/
def target (request : Request) : Outcome Value := request.argument "clipId" (.text "first")

/-- Collects pairs into named values. Names other than texts are of no use and
are dropped; the last pair with a name counts. -/
def collect (fields : List (Text × Value)) : List Value → Outcome (List (Text × Value))
  | [] => .ok fields
  | item :: items => do
    let (name, value) ← item.pair
    name.checkKey
    match name with
    | .text name => collect (Value.put fields name value) items
    | _ => collect fields items

/-- The arguments that a value gives: a record, or pairs of a name and a value.
Everything empty stands for none. -/
def argumentsOf (value : Value) : Outcome (List (Text × Value)) :=
  if value.truthy then
    match value with
    | .record fields => .ok fields
    | value => do collect [] (← value.elements)
  else .ok []

/-- Reads a request. -/
def ofValue (value : Value) : Outcome Request := do
  return {
    name := ← value.require "name"
    arguments := .record (← argumentsOf (← value.lookup "arguments" .null)) }

end Request

end Montage
