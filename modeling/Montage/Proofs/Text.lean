import Montage.Text.Basic

/-!
# Texts as sequences of code points

Statements about joined texts are statements about lists of code points.
-/

namespace Montage.Text

/-- The code points of joined texts. -/
@[simp]
theorem points_append (s t : Text) : (s ++ t).points = s.points ++ t.points := rfl

/-- The code points of a string. -/
@[simp]
theorem points_ofString (s : String) : (ofString s).points = s.toList.map .char := rfl

/-- Texts with the same code points are the same. -/
theorem eq_of_points {s t : Text} (h : s.points = t.points) : s = t := by
  cases s
  cases t
  exact congrArg Text.mk h

/-- Joining texts is associative. -/
theorem append_assoc (s t u : Text) : s ++ t ++ u = s ++ (t ++ u) :=
  eq_of_points (List.append_assoc _ _ _)

/-- Joined strings are joined texts. -/
theorem ofString_append (s t : String) : ofString (s ++ t) = ofString s ++ ofString t :=
  eq_of_points (by simp)

/-- The digits of a natural number as a text. -/
theorem ofString_toString (n : Nat) : ofString (toString n) = ofChars (Nat.toDigits 10 n) := by
  rw [ofString, Nat.toString_eq_repr, Nat.toList_repr]

end Montage.Text
