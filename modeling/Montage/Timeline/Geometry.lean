import Montage.Bounds

/-!
# Places and sizes within the frame

Overlays and picture-in-picture clips are placed by percentages of the frame.
-/

namespace Montage

/-- The top left corner of a picture, in percent of the frame. -/
structure Position where
  /-- The distance from the left edge. -/
  x : Value
  /-- The distance from the upper edge. -/
  y : Value

/-- The extent of a picture, in percent of the frame. -/
structure Size where
  /-- The share of the frame's width. -/
  width : Value
  /-- The share of the frame's height. -/
  height : Value

namespace Position

/-- The upper left corner of the frame. -/
def corner : Position := ⟨.real 0, .real 0⟩

/-- Where an image overlay goes unless told otherwise. -/
def ofOverlay : Position := ⟨.real 10, .real 10⟩

/-- Where a picture-in-picture clip goes unless told otherwise. -/
def ofInset : Position := ⟨.real 70, .real 70⟩

/-- The position as a document. -/
def toValue (p : Position) : Value := .record [("x", p.x), ("y", p.y)]

/-- Reads a position; what is missing comes from the default. -/
def ofValue (value : Value) (default : Position) : Outcome Position :=
  if value.truthy then do
    return ⟨← value.lookup "x" default.x, ← value.lookup "y" default.y⟩
  else .ok default

/-- Whether two positions agree. -/
def agrees (p q : Position) : Bool := p.x.agrees q.x && p.y.agrees q.y

end Position

namespace Size

/-- The size of the whole frame. -/
def full : Size := ⟨.real 100, .real 100⟩

/-- The size of image overlays and picture-in-picture clips unless told
otherwise. -/
def quarter : Size := ⟨.real 25, .real 25⟩

/-- The size as a document. -/
def toValue (s : Size) : Value := .record [("width", s.width), ("height", s.height)]

/-- Reads a size; what is missing comes from the default. -/
def ofValue (value : Value) (default : Size) : Outcome Size :=
  if value.truthy then do
    return ⟨← value.lookup "width" default.width, ← value.lookup "height" default.height⟩
  else .ok default

/-- Whether two sizes agree. -/
def agrees (s t : Size) : Bool := s.width.agrees t.width && s.height.agrees t.height

end Size

end Montage
