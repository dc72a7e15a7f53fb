import Montage.Proofs.Text

/-!
# The links in a filter text

A filter text is a sequence of chains with semicolons between them. The labels
in brackets before the filters of a chain are its inputs, and the ones behind
are its outputs. They are read off the text here, character by character, as
the media engine would do it.
-/

namespace Montage

/-- The side of a chain that a label stands on. -/
inductive LinkSide where
  /-- Before the filters. -/
  | input
  /-- Behind the filters. -/
  | output
deriving DecidableEq

/-- An occurrence of a label in a filter text. -/
structure Link where
  /-- Where it stands. -/
  side : LinkSide
  /-- The label between the brackets. -/
  label : Text
deriving DecidableEq

namespace Text

/-- Characters among which are no brackets and semicolons. -/
def PlainChars (cs : List Char) : Prop := ∀ c ∈ cs, c ≠ '[' ∧ c ≠ ']' ∧ c ≠ ';'

instance (cs : List Char) : Decidable (PlainChars cs) := List.decidableBAll _ cs

/-- A text without brackets and semicolons. -/
def Plain (t : Text) : Prop :=
  ∀ point ∈ t.points, point ≠ .char '[' ∧ point ≠ .char ']' ∧ point ≠ .char ';'

instance (t : Text) : Decidable t.Plain := List.decidableBAll _ t.points

/-- The links from a place of a text on, given the side and, within brackets,
the label so far. Whatever stands outside of brackets is part of the filters,
and a semicolon begins a new chain. -/
def linksFrom : LinkSide → Option (List CodePoint) → List CodePoint → List Link
  | _, _, [] => []
  | side, none, point :: rest =>
    if point = .char '[' then linksFrom side (some []) rest
    else if point = .char ';' then linksFrom .input none rest
    else linksFrom .output none rest
  | side, some label, point :: rest =>
    if point = .char ']' then ⟨side, ⟨label⟩⟩ :: linksFrom side none rest
    else linksFrom side (some (label ++ [point])) rest

/-- The links of a text in their order. -/
def links (t : Text) : List Link := linksFrom .input none t.points

/-- Joined plain texts are plain. -/
theorem Plain.append {s t : Text} (hs : s.Plain) (ht : t.Plain) : (s ++ t).Plain := by
  intro point hpoint
  rcases List.mem_append.mp hpoint with h | h
  · exact hs point h
  · exact ht point h

/-- Plain characters one after the other. -/
theorem PlainChars.append {cs ds : List Char} (hc : PlainChars cs) (hd : PlainChars ds) :
    PlainChars (cs ++ ds) := by
  intro c hmem
  rcases List.mem_append.mp hmem with h | h
  · exact hc c h
  · exact hd c h

/-- Digits are plain. -/
theorem plainChars_toDigits (n : Nat) : PlainChars (Nat.toDigits 10 n) := by
  intro c hc
  have hdigit : c.isDigit = true := Nat.isDigit_of_mem_toDigits (by decide) (by decide) hc
  refine ⟨?_, ?_, ?_⟩
  · rintro rfl
    exact absurd hdigit (by decide)
  · rintro rfl
    exact absurd hdigit (by decide)
  · rintro rfl
    exact absurd hdigit (by decide)

/-- A text of plain characters is plain. -/
theorem plain_ofChars {cs : List Char} (h : PlainChars cs) : (ofChars cs).Plain := by
  intro point hpoint
  obtain ⟨c, hc, rfl⟩ := List.mem_map.mp hpoint
  simpa using h c hc

/-- A literal is a list of characters, which shows it plain without decoding it. -/
theorem plain_ofList {cs : List Char} (h : PlainChars cs) :
    (ofString (String.ofList cs)).Plain := by
  rw [ofString, String.toList_ofList]
  exact plain_ofChars h

/-- Reading a label up to its closing bracket. -/
theorem linksFrom_label {side : LinkSide} {points : List CodePoint} (h : Plain ⟨points⟩)
    (label rest : List CodePoint) :
    linksFrom side (some label) (points ++ .char ']' :: rest) =
      ⟨side, ⟨label ++ points⟩⟩ :: linksFrom side none rest := by
  induction points generalizing label with
  | nil => simp [linksFrom]
  | cons point points ih =>
    have hpoint := (h point List.mem_cons_self).2.1
    have hrest : Plain ⟨points⟩ := fun p hp => h p (List.mem_cons_of_mem _ hp)
    rw [List.cons_append, linksFrom, if_neg hpoint, ih hrest]
    simp

/-- Reading a label in brackets. -/
theorem linksFrom_link {side : LinkSide} {t : Text} (h : t.Plain) (rest : List CodePoint) :
    linksFrom side none (("[" ++ t ++ "]" : Text).points ++ rest) =
      ⟨side, t⟩ :: linksFrom side none rest := by
  have hpoints : ("[" ++ t ++ "]" : Text).points ++ rest =
      .char '[' :: (t.points ++ .char ']' :: rest) := by
    simp
  rw [hpoints, linksFrom, if_pos rfl, linksFrom_label h]
  rfl

/-- Reading filters. -/
theorem linksFrom_filters {side : LinkSide} {t : Text} (h : t.Plain) (hne : t.isEmpty = false)
    (rest : List CodePoint) :
    linksFrom side none (t.points ++ rest) = linksFrom .output none rest := by
  obtain ⟨points⟩ := t
  induction points generalizing side with
  | nil => cases hne
  | cons point points ih =>
    obtain ⟨hopen, _, hmark⟩ := h point List.mem_cons_self
    have hrest : Plain ⟨points⟩ := fun p hp => h p (List.mem_cons_of_mem _ hp)
    simp only [List.cons_append, linksFrom, if_neg hopen, if_neg hmark]
    cases points with
    | nil => rfl
    | cons next points => exact ih hrest rfl

/-- A text that shows some links, also when another chain follows. -/
structure Shows (t : Text) (found : List Link) : Prop where
  /-- These are its links. -/
  alone : t.links = found
  /-- They are found in front of a semicolon, too. -/
  followed : ∀ rest, linksFrom .input none (t.points ++ .char ';' :: rest) =
    found ++ linksFrom .input none rest

/-- A text that is read to its end, whatever follows, shows what was read. -/
theorem shows_of_linksFrom {t : Text} {found : List Link} (side : LinkSide)
    (h : ∀ rest, linksFrom .input none (t.points ++ rest) = found ++ linksFrom side none rest) :
    t.Shows found := by
  constructor
  · have hend := h []
    rw [List.append_nil] at hend
    rw [links, hend]
    simp [linksFrom]
  · intro rest
    rw [h, linksFrom]
    simp

/-- Chains with a semicolon between them show the links of both. -/
theorem Shows.append {s t : Text} {found others : List Link} (hs : s.Shows found)
    (ht : t.Shows others) : (s ++ ";" ++ t).Shows (found ++ others) := by
  have hpoints : (s ++ ";" ++ t).points = s.points ++ .char ';' :: t.points := by
    simp
  constructor
  · rw [links, hpoints, hs.followed]
    exact congrArg (found ++ ·) ht.alone
  · intro rest
    rw [hpoints, List.append_assoc, List.cons_append, hs.followed, ht.followed,
      List.append_assoc]

/-- Texts with a separator between them, from the front. -/
theorem intercalate_cons_cons (separator s t : Text) (texts : List Text) :
    intercalate separator (s :: t :: texts) =
      s ++ separator ++ intercalate separator (t :: texts) := by
  apply eq_of_points
  simp [intercalate, List.intercalate_cons_cons]

/-- Chains show their links one after the other. -/
theorem links_intercalate {texts : List Text} {found : Text → List Link}
    (h : ∀ t ∈ texts, t.Shows (found t)) :
    (intercalate ";" texts).links = texts.flatMap found := by
  -- together with what may follow, so that the induction can put a chain in front
  have hshows : texts ≠ [] → (intercalate ";" texts).Shows (texts.flatMap found) := by
    induction texts with
    | nil => exact fun hne => absurd rfl hne
    | cons t texts ih =>
      intro _
      have ht := h t List.mem_cons_self
      cases texts with
      | nil =>
        have hone : intercalate ";" [t] = t := eq_of_points (by simp [intercalate])
        rw [hone]
        simpa using ht
      | cons next texts =>
        rw [intercalate_cons_cons, List.flatMap_cons]
        exact ht.append (ih (fun s hs => h s (List.mem_cons_of_mem _ hs)) (List.cons_ne_nil _ _))
  cases texts with
  | nil => rfl
  | cons t texts => exact (hshows (List.cons_ne_nil _ _)).alone

end Text

end Montage
