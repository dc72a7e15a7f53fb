import Montage.Text.Basic

/-!
# Lines of a text

A text is cut after each line feed, so joining the lines gives the text back.
-/

namespace Montage.Text

/-- Puts a code point in front of the first line. -/
def consToFirst (point : CodePoint) : List (List CodePoint) → List (List CodePoint)
  | [] => [[point]]
  | line :: lines => (point :: line) :: lines

/-- The lines of a text, each with the line feed that ends it. -/
def lines : List CodePoint → List (List CodePoint)
  | [] => []
  | point :: points =>
    if point = .char '\n' then [point] :: lines points else consToFirst point (lines points)

/-- The last items of a list. -/
def lastItems {α : Type} (count : Nat) (items : List α) : List α :=
  items.drop (items.length - count)

/-- A code point in front of the first line is in front of the text. -/
theorem flatten_consToFirst (point : CodePoint) (lines : List (List CodePoint)) :
    (consToFirst point lines).flatten = point :: lines.flatten := by
  cases lines <;> rfl

/-- Lines lose nothing of the text. -/
theorem flatten_lines (points : List CodePoint) : (lines points).flatten = points := by
  induction points with
  | nil => rfl
  | cons point points ih =>
    unfold lines
    split
    · rw [List.flatten_cons, ih, List.singleton_append]
    · rw [flatten_consToFirst, ih]

end Montage.Text
