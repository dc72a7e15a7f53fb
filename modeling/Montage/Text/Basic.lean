/-!
# Texts

A text is a sequence of code points. Most of them are characters; the others
are surrogates, with two of which documents may write one character. A surrogate
that stands alone is kept: it can be shown and compared, but no file can hold
it.
-/

namespace Montage

/-- A unit of text. -/
inductive CodePoint where
  /-- A character. -/
  | char (c : Char)
  /-- A surrogate, by its distance from the first one. -/
  | surrogate (offset : Fin 0x800)
deriving DecidableEq

namespace CodePoint

instance : Coe Char CodePoint := ⟨.char⟩

/-- The first number of a surrogate. -/
def firstSurrogate : Nat := 0xd800

/-- The number of a code point. -/
def value : CodePoint → Nat
  | .char c => c.toNat
  | .surrogate offset => firstSurrogate + offset.val

/-- The code point of a number. -/
def ofNat (code : Nat) : CodePoint :=
  if h : firstSurrogate ≤ code ∧ code < firstSurrogate + 0x800 then
    .surrogate ⟨code - firstSurrogate, by omega⟩
  else .char (Char.ofNat code)

/-- Whether a code point is a character of a class. -/
def isIn (members : Char → Bool) : CodePoint → Bool
  | .char c => members c
  | .surrogate _ => false

/-- The code point with its character replaced. -/
def map (f : Char → Char) : CodePoint → CodePoint
  | .char c => .char (f c)
  | .surrogate offset => .surrogate offset

/-- A surrogate is the code point of its number. -/
theorem ofNat_value_surrogate (offset : Fin 0x800) :
    ofNat (value (.surrogate offset)) = .surrogate offset := by
  simp [ofNat, value]

end CodePoint

/-- A sequence of code points. -/
structure Text where
  /-- The code points in order. -/
  points : List CodePoint
deriving DecidableEq

namespace Text

/-- The text of some characters. -/
def ofChars (cs : List Char) : Text := ⟨cs.map .char⟩

/-- The text of a string. -/
def ofString (s : String) : Text := ofChars s.toList

instance : Coe String Text := ⟨ofString⟩

instance : Inhabited Text := ⟨⟨[]⟩⟩

instance : Append Text := ⟨fun s t => ⟨s.points ++ t.points⟩⟩

/-- Whether a text has no code points. -/
def isEmpty (t : Text) : Bool := t.points.isEmpty

/-- The number of code points. -/
def length (t : Text) : Nat := t.points.length

/-- Texts one after the other. -/
def join (texts : List Text) : Text := ⟨texts.flatMap points⟩

/-- Texts with a separator between them. -/
def intercalate (separator : Text) (texts : List Text) : Text :=
  ⟨separator.points.intercalate (texts.map points)⟩

/-- The parts of a list around every occurrence of a code point. -/
def splitPoints (mark : CodePoint) : List CodePoint → List (List CodePoint)
  | [] => [[]]
  | point :: rest =>
    if point = mark then [] :: splitPoints mark rest
    else
      match splitPoints mark rest with
      | [] => [[point]]
      | part :: parts => (point :: part) :: parts

/-- The parts of a text around every occurrence of a character. -/
def split (mark : Char) (t : Text) : List Text := (splitPoints mark t.points).map Text.mk

/-- Whether the first list occurs within the second. -/
def occursIn (needle : List CodePoint) : List CodePoint → Bool
  | [] => needle.isEmpty
  | point :: rest => needle.isPrefixOf (point :: rest) || occursIn needle rest

/-- Whether a text occurs within another. -/
def occurs (needle haystack : Text) : Bool := occursIn needle.points haystack.points

/-- Whether a text begins with a character. -/
def beginsWith (t : Text) (c : Char) : Bool := t.points.head? = some (.char c)

/-- The text with each of its characters replaced. -/
def map (f : Char → Char) (t : Text) : Text := ⟨t.points.map (CodePoint.map f)⟩

/-- The numbers of the code points. -/
def codes (t : Text) : List Nat := t.points.map CodePoint.value

/-- Whether a text comes before another in the order of code points. -/
def lt (s t : Text) : Bool := s.codes < t.codes

/-- Whether all code points are characters, so that a file can hold the text. -/
def isStorable (t : Text) : Bool := t.points.all (CodePoint.isIn fun _ => true)

/-- There is at least one part. -/
theorem splitPoints_ne_nil (mark : CodePoint) (points : List CodePoint) :
    splitPoints mark points ≠ [] := by
  cases points with
  | nil => simp [splitPoints]
  | cons point rest =>
    unfold splitPoints
    split
    · simp
    · split <;> simp

/-- Splitting loses nothing but the marks. -/
theorem intercalate_splitPoints (mark : CodePoint) (points : List CodePoint) :
    [mark].intercalate (splitPoints mark points) = points := by
  induction points with
  | nil => rfl
  | cons point rest ih =>
    unfold splitPoints
    have nonempty := splitPoints_ne_nil mark rest
    revert ih nonempty
    cases splitPoints mark rest with
    | nil => simp
    | cons part parts =>
      intro ih _
      split
      · next h => subst h; simpa [List.intercalate] using ih
      · cases parts <;> simp_all [List.intercalate]

/-- What comes of a string can be stored. -/
theorem isStorable_ofString (s : String) : (ofString s).isStorable = true := by
  simp [isStorable, ofString, ofChars, CodePoint.isIn]

end Text

end Montage
