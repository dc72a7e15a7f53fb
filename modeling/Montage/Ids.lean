import Montage.Text.Quoted

/-!
# Names for new clips and overlays

New names are drawn from a counter, so two draws never agree.
-/

namespace Montage

/-- The `n`-th name of a clip. -/
def clipId (n : Nat) : Text :=
  "clip-" ++ Text.ofChars (Text.hex 12 n ++ List.replicate 20 '0')

/-- The `n`-th name of an overlay. -/
def overlayId (n : Nat) : Text := "overlay-" ++ Text.ofChars (Text.hex 12 n)

end Montage
