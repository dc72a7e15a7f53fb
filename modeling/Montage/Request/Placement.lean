import Montage.Timeline.Geometry

/-!
# Where requested overlays go

Overlays are spread over the frame from left to right, each in the band of its
type: ghosts float near the top, tombstones stand at the bottom and everything
else keeps to the middle. Random draws move them a little.
-/

namespace Montage

/-- Random numbers that are handed out in turn; after the last one they begin
anew. -/
structure Draws where
  /-- All numbers. -/
  all : List Value
  /-- The numbers that are still to come in this turn. -/
  rest : List Value

namespace Draws

/-- The numbers from the beginning. -/
def ofList (numbers : List Value) : Draws := ⟨numbers, numbers⟩

/-- The next number; without any numbers it is one half. -/
def next (draws : Draws) : Value × Draws :=
  match draws.rest with
  | number :: rest => (number, { draws with rest })
  | [] =>
    match draws.all with
    | number :: rest => (number, { draws with rest })
    | [] => (.real 0.5, draws)

end Draws

/-- A choice that draws random numbers and may end in a fault; what it drew stays
drawn either way. -/
abbrev Placing (α : Type) := ExceptT Fault (StateM Draws) α

namespace Placing

/-- An outcome as a choice that draws nothing. -/
def ofOutcome {α : Type} (outcome : Outcome α) : Placing α := ExceptT.mk (pure outcome)

/-- Draws a number. -/
def draw : Placing Value := modifyGet Draws.next

end Placing

namespace Placement

/-- The types of overlays that requests know. -/
def types : List Text := ["ghost", "monster", "tombstone"]

/-- The horizontal slots, in percent of the frame. -/
def slots : List Int := [15, 35, 55, 75, 85]

/-- The slot for the overlay with a given number; the slots repeat, in both
directions. -/
def slot (index : Value) : Outcome Int := do
  return (slots[((← index.position) % 5).toNat]?).getD 0

/-- The upper edge and the height of the band of a type, in percent. -/
def band (type : Value) : Int × Int :=
  if type.equal (.text "ghost") then (5, 25)
  else if type.equal (.text "tombstone") then (70, 20)
  else (30, 40)

/-- A random number spread over a range: `low + draw * width`. -/
def spread (low width : Int) : Placing Value := do
  let draw ← Placing.draw
  Placing.ofOutcome do return .number (← (Value.int low).add (.number (← draw.mul (.int width))))

/-- The distance from the left edge: a slot and a random shift of up to five to
either side. -/
def shifted (column : Int) : Placing Value := do
  let draw ← Placing.draw
  Placing.ofOutcome do
    let shift ← (Value.number (← draw.mul (.int 10))).sub (.int 5)
    return .number (← (Value.int column).add (.number shift))

/-- Picks the place of an overlay and its size, which is square. Three numbers
are drawn: for the column, the row and the size. -/
def place (type index : Value) : Placing (Position × Size) := do
  let x ← shifted (← Placing.ofOutcome (slot index))
  let y ← spread (band type).1 (band type).2
  let side ← spread 15 10
  let x ← Placing.ofOutcome (x.clamp (.int 5) (.int 85))
  let y ← Placing.ofOutcome (y.clamp (.int 5) (.int 90))
  return (⟨x, y⟩, ⟨side, side⟩)

/-- Joins tags with blanks between them. -/
def joinTags : List Value → Outcome (List Text)
  | [] => .ok []
  | .text tag :: tags => do return tag :: (← joinTags tags)
  | _ :: _ => .error .illTyped

/-- The tags of an overlay as one text in lower case. -/
def tagText (tags : Value) : Outcome Text :=
  if tags.truthy then do
    return (Text.intercalate " " (← joinTags (← tags.elements))).map Char.toLower
  else .ok ""

/-- Whether tags speak of one of the given words. -/
def speaks (tags : Text) (words : List Text) : Bool := words.any fun word => word.occurs tags

/-- The type of an overlay: the one it names, or the one its tags speak of. -/
def inferType (overlay : Value) : Outcome Value := do
  let named ← overlay.lookup "type" .null
  if named.isOneOf types then return named
  else
    let tags ← tagText (← overlay.lookup "tags" .null)
    if speaks tags ["tombstone", "grave"] then return .text "tombstone"
    else if speaks tags ["monster", "zombie", "creature"] then return .text "monster"
    else return .text "ghost"

end Placement

end Montage
