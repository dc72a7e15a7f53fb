import Montage.Timeline.Geometry

/-!
# Image overlays

An overlay is a still image that is laid over a clip of the main track.
-/

namespace Montage

/-- An image laid over a clip. -/
structure Overlay where
  /-- The name of the overlay, unique within its clip. -/
  id : Value
  /-- The path of the image. -/
  image : Value
  /-- How opaque the image is, from 0 to 1. -/
  opacity : Value
  /-- Where the image is placed. -/
  position : Position
  /-- How large the image is shown. -/
  size : Size

namespace Overlay

/-- The opacity of an overlay unless told otherwise. -/
def defaultOpacity : Value := .real 0.7

/-- The overlay as a document. -/
def toValue (o : Overlay) : Value := .record [
  ("id", o.id),
  ("imageRef", o.image),
  ("opacity", o.opacity),
  ("position", o.position.toValue),
  ("size", o.size.toValue)]

/-- Reads an overlay. -/
def ofValue (value : Value) : Outcome Overlay := do
  return {
    id := ← value.require "id"
    image := ← value.require "imageRef"
    opacity := ← value.lookup "opacity" defaultOpacity
    position := ← Position.ofValue (← value.lookup "position" .null) .ofOverlay
    size := ← Size.ofValue (← value.lookup "size" .null) .quarter }

/-- Whether two overlays agree in everything. -/
def agrees (o p : Overlay) : Bool :=
  o.id.agrees p.id && o.image.agrees p.image && o.opacity.agrees p.opacity &&
    o.position.agrees p.position && o.size.agrees p.size

end Overlay

end Montage
