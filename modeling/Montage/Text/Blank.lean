import Montage.Text.Basic

/-!
# Blank characters

The characters that separate words, which are cut off both ends of a line
before it is read.
-/

namespace Montage.Text

/-- The code points of the blank characters: everything with the Unicode
property of white space, and the four information separators. -/
def blanks : List Nat := [
  0x9, 0xa, 0xb, 0xc, 0xd, 0x1c, 0x1d, 0x1e, 0x1f, 0x20, 0x85, 0xa0, 0x1680, 0x2000, 0x2001,
  0x2002, 0x2003, 0x2004, 0x2005, 0x2006, 0x2007, 0x2008, 0x2009, 0x200a, 0x2028, 0x2029,
  0x202f, 0x205f, 0x3000]

/-- Whether a character is blank. -/
def isBlank (c : Char) : Bool := blanks.contains c.toNat

/-- The text without the blanks at its ends. -/
def trim (t : Text) : Text :=
  ⟨((t.points.dropWhile (CodePoint.isIn isBlank)).reverse.dropWhile
    (CodePoint.isIn isBlank)).reverse⟩

/-- Every character that core calls white space is blank. -/
theorem isBlank_of_isWhitespace (c : Char) (h : c.isWhitespace) : isBlank c := by
  have cases : c = ' ' ∨ c = '\t' ∨ c = '\r' ∨ c = '\n' := by
    simp [Char.isWhitespace] at h
    grind
  rcases cases with rfl | rfl | rfl | rfl <;> decide

end Montage.Text
