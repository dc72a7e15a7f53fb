import Mathlib.Data.List.Basic
import Montage.Graph.Basic
import Montage.Proofs.Graph.Links

/-!
# The labels of a built graph

The builder makes labels of letters and numbers. Different streams have
different labels, none of them is that of a file's stream, and none is like the
label of a picture whose opacity is changed within the filter text.
-/

namespace Montage

/-- A stream that a stage of a built graph produces. -/
inductive StreamLabel where
  /-- The trimmed picture of a clip of the main track. -/
  | picture (index : Nat)
  /-- The picture with one more image laid over it. -/
  | laid (index number : Nat)
  /-- The scaled image. -/
  | image (index number : Nat)
  /-- The picture that the image was scaled by. -/
  | passed (index number : Nat)
  /-- The trimmed sound of a clip of the main track. -/
  | sound (index : Nat)
  /-- The trimmed picture of a clip of the overlay track. -/
  | inset (index : Nat)
  /-- The joined picture of the main track. -/
  | mainVideo
  /-- The joined sound of the main track. -/
  | mainAudio
  /-- The joined picture of the overlay track. -/
  | overlayVideo
  /-- The scaled picture of the overlay track. -/
  | overlayScaled
  /-- The picture that the overlay track was scaled by. -/
  | overlayBase
  /-- The main picture with the overlay track laid over it. -/
  | composited
  /-- The picture of the output. -/
  | output
deriving DecidableEq

namespace StreamLabel

/-- The letters that a label begins with. -/
def letters : StreamLabel → List Char
  | picture _ => ['v']
  | laid _ _ => ['v']
  | image _ _ => ['o', 'v']
  | passed _ _ => ['r', 'e', 'f']
  | sound _ => ['a']
  | inset _ => ['t']
  | mainVideo => ['m', 'a', 'i', 'n', 'V', 'i', 'd', 'e', 'o']
  | mainAudio => ['m', 'a', 'i', 'n', 'A', 'u', 'd', 'i', 'o']
  | overlayVideo => ['o', 'v', 'e', 'r', 'l', 'a', 'y', 'V', 'i', 'd', 'e', 'o']
  | overlayScaled => ['o', 'v', 'e', 'r', 'l', 'a', 'y', 'S', 'c', 'a', 'l', 'e', 'd']
  | overlayBase => ['o', 'v', 'e', 'r', 'l', 'a', 'y', 'B', 'a', 's', 'e']
  | composited => ['c', 'o', 'm', 'p', 'o', 's', 'i', 't', 'e', 'd']
  | output => ['o', 'u', 't', 'v']

/-- The numbers behind the letters. -/
def numbers : StreamLabel → List Nat
  | picture index => [index]
  | laid index number => [index, number]
  | image index number => [index, number]
  | passed index number => [index, number]
  | sound index => [index]
  | inset index => [index]
  | _ => []

/-- Numerals with underscores between them. -/
def numerals : List Nat → List Char
  | [] => []
  | [n] => Nat.toDigits 10 n
  | n :: m :: numbers => Nat.toDigits 10 n ++ '_' :: numerals (m :: numbers)

/-- The characters of a label. -/
def chars (label : StreamLabel) : List Char := label.letters ++ numerals label.numbers

/-- The text of a label. -/
def text (label : StreamLabel) : Text := .ofChars label.chars

/-- The label as it stands in a stage. -/
def value (label : StreamLabel) : Value := .text label.text

/-- The label of a picture before it is scaled, if its opacity is changed. -/
def alpha (label : StreamLabel) : Text := label.text ++ "_alpha"

/-- The label of some letters and numbers. -/
def ofParts? (letters : List Char) : List Nat → Option StreamLabel
  | [index] =>
    if letters = ['v'] then some (picture index)
    else if letters = ['a'] then some (sound index)
    else some (inset index)
  | [index, number] =>
    if letters = ['v'] then some (laid index number)
    else if letters = ['o', 'v'] then some (image index number)
    else some (passed index number)
  | _ => [mainVideo, mainAudio, overlayVideo, overlayScaled, overlayBase, composited, output].find?
      fun label => label.letters = letters

/-- A label is that of its letters and numbers. -/
theorem ofParts?_eq (label : StreamLabel) : ofParts? label.letters label.numbers = some label := by
  cases label <;> rfl

/-- Letters and numbers tell labels apart. -/
theorem eq_of_parts {a b : StreamLabel} (hletters : a.letters = b.letters)
    (hnumbers : a.numbers = b.numbers) : a = b := by
  have h := ofParts?_eq a
  rw [hletters, hnumbers, ofParts?_eq b] at h
  exact (Option.some.inj h).symm

/-- Different numbers have different numerals. -/
theorem toDigits_inj {m n : Nat} (h : Nat.toDigits 10 m = Nat.toDigits 10 n) : m = n := by
  have hparsed := congrArg (fun digits => Nat.ofDigitChars 10 digits 0) h
  simpa using hparsed

/-- What stands before the first underscore. -/
theorem takeWhile_underscore {front : List Char} (h : '_' ∉ front) (rest : List Char) :
    (front ++ '_' :: rest).takeWhile (fun c => c ≠ '_') = front := by
  rw [List.takeWhile_append_of_pos]
  · simp
  · intro c hc
    rw [decide_eq_true_eq]
    rintro rfl
    exact h hc

/-- Different lists of numbers have different numerals. -/
theorem numerals_inj : {ms ns : List Nat} → numerals ms = numerals ns → ms = ns
  | [], [], _ => rfl
  | [], [n], h => absurd h.symm Nat.toDigits_ne_nil
  | [m], [], h => absurd h Nat.toDigits_ne_nil
  | [], _ :: _ :: _, h => by simp [numerals] at h
  | _ :: _ :: _, [], h => by simp [numerals] at h
  | [m], [n], h => by rw [toDigits_inj h]
  | [m], n :: n' :: ns, h => by
    have hmem : '_' ∈ Nat.toDigits 10 m := by
      change Nat.toDigits 10 m = _ at h
      rw [h]
      simp [numerals]
    exact absurd hmem Nat.underscore_not_in_toDigits
  | m :: m' :: ms, [n], h => by
    have hmem : '_' ∈ Nat.toDigits 10 n := by
      change _ = Nat.toDigits 10 n at h
      rw [← h]
      simp [numerals]
    exact absurd hmem Nat.underscore_not_in_toDigits
  | m :: m' :: ms, n :: n' :: ns, h => by
    rw [numerals, numerals] at h
    have hdigits : Nat.toDigits 10 m = Nat.toDigits 10 n := by
      rw [← takeWhile_underscore Nat.underscore_not_in_toDigits (numerals (m' :: ms)), h,
        takeWhile_underscore Nat.underscore_not_in_toDigits]
    rw [hdigits] at h
    obtain ⟨_, hrest⟩ := List.cons.inj (List.append_cancel_left h)
    rw [toDigits_inj hdigits, numerals_inj hrest]

/-- There is no digit among the letters. -/
theorem not_isDigit_of_mem_letters {label : StreamLabel} {c : Char} (h : c ∈ label.letters) :
    c.isDigit = false := by
  have hall : label.letters.all (fun c => !c.isDigit) = true := by cases label <;> rfl
  simpa using List.all_eq_true.mp hall c h

/-- The letters are all that stands before the first digit. -/
theorem takeWhile_chars (label : StreamLabel) :
    label.chars.takeWhile (fun c => !c.isDigit) = label.letters := by
  have hdigits : ∀ n, (Nat.toDigits 10 n).takeWhile (fun c => !c.isDigit) = [] := by
    intro n
    cases hn : Nat.toDigits 10 n with
    | nil => rfl
    | cons c cs =>
      have hc : c.isDigit = true := by
        have hmem : c ∈ Nat.toDigits 10 n := by
          rw [hn]
          exact List.mem_cons_self
        exact Nat.isDigit_of_mem_toDigits (by decide) (by decide) hmem
      simp [hc]
  have hnumerals : ∀ ns, (numerals ns).takeWhile (fun c => !c.isDigit) = [] := by
    intro ns
    match ns with
    | [] => rfl
    | [n] => exact hdigits n
    | n :: m :: ns =>
      have hn := hdigits n
      cases hc : Nat.toDigits 10 n with
      | nil => exact absurd hc Nat.toDigits_ne_nil
      | cons c cs =>
        rw [hc] at hn
        simp only [numerals, hc, List.cons_append, List.takeWhile_cons] at hn ⊢
        split at hn
        · cases hn
        · next hdigit => simp [hdigit]
  rw [chars, List.takeWhile_append_of_pos, hnumerals, List.append_nil]
  intro c hc
  simp [not_isDigit_of_mem_letters hc]

/-- Different streams have labels of different characters. -/
theorem chars_inj {a b : StreamLabel} (h : a.chars = b.chars) : a = b := by
  have hletters : a.letters = b.letters := by
    rw [← takeWhile_chars a, h, takeWhile_chars b]
  refine eq_of_parts hletters (numerals_inj ?_)
  rw [chars, chars, hletters] at h
  exact List.append_cancel_left h

/-- Different streams have different labels. -/
theorem text_inj {a b : StreamLabel} (h : a.text = b.text) : a = b := by
  have hpoints := congrArg Text.points h
  refine chars_inj (List.map_injective_iff.mpr ?_ hpoints)
  intro c d hcd
  exact CodePoint.char.inj hcd

/-- The labels in stages tell streams apart. -/
theorem value_inj {a b : StreamLabel} (h : a.value = b.value) : a = b :=
  text_inj (Value.text.inj h)

/-- A label begins with a letter. -/
theorem exists_letter (label : StreamLabel) :
    ∃ c rest, label.chars = c :: rest ∧ c.isDigit = false := by
  cases h : label.letters with
  | nil => cases label <;> cases h
  | cons c cs =>
    refine ⟨c, cs ++ numerals label.numbers, by rw [chars, h, List.cons_append], ?_⟩
    exact not_isDigit_of_mem_letters (by rw [h]; exact List.mem_cons_self)

/-- A label ends with a digit or with the last letter of a name. -/
theorem getLast?_chars (label : StreamLabel) : label.chars.getLast? ≠ some 'a' := by
  have hdigits : ∀ n, (Nat.toDigits 10 n).getLast? ≠ some 'a' := by
    intro n hlast
    have hdigit : 'a'.isDigit = true :=
      Nat.isDigit_of_mem_toDigits (by decide) (by decide) (List.mem_of_getLast? hlast)
    exact absurd hdigit (by decide)
  have hnumerals : ∀ front n ns, (front ++ numerals (n :: ns)).getLast? ≠ some 'a' := by
    intro front n ns
    induction ns generalizing front n with
    | nil =>
      rw [numerals, List.getLast?_append_of_ne_nil _ Nat.toDigits_ne_nil]
      exact hdigits n
    | cons m ns ih =>
      have happend : front ++ numerals (n :: m :: ns) =
          (front ++ Nat.toDigits 10 n ++ ['_']) ++ numerals (m :: ns) := by
        simp [numerals]
      rw [happend]
      exact ih _ m
  cases hn : label.numbers with
  | cons n ns =>
    rw [chars, hn]
    exact hnumerals _ n ns
  | nil => cases label <;> first | decide | cases hn

/-- The label of a picture whose opacity is changed is not that of any other
stream. -/
theorem text_ne_alpha (a b : StreamLabel) : a.text ≠ b.alpha := by
  intro h
  have hpoints := congrArg (fun t : Text => t.points.getLast?) h
  have hlast : a.chars.getLast?.map CodePoint.char = some (.char 'a') := by
    rw [← List.getLast?_map]
    exact hpoints.trans (List.getLast?_append_of_ne_nil _ (by decide))
  obtain ⟨c, hc, he⟩ := Option.map_eq_some_iff.mp hlast
  rw [CodePoint.char.inj he] at hc
  exact getLast?_chars a hc

/-- The labels of pictures whose opacity is changed tell these apart. -/
theorem alpha_inj {a b : StreamLabel} (h : a.alpha = b.alpha) : a = b := by
  have hpoints := congrArg Text.points h
  exact text_inj (Text.eq_of_points (List.append_cancel_right hpoints))

/-- Labels hold no brackets and no semicolons. -/
theorem plain_text (label : StreamLabel) : label.text.Plain := by
  have hnumerals : ∀ ns, Text.PlainChars (numerals ns) := by
    intro ns
    induction ns with
    | nil => exact fun c hc => absurd hc List.not_mem_nil
    | cons n ns ih =>
      cases ns with
      | nil => exact Text.plainChars_toDigits n
      | cons m ns =>
        refine (Text.plainChars_toDigits n).append ?_
        intro c hc
        rcases List.mem_cons.mp hc with rfl | hc
        · decide
        · exact ih c hc
  have hletters : Text.PlainChars label.letters := by
    have hall : label.letters.all (fun c => decide (c ≠ '[' ∧ c ≠ ']' ∧ c ≠ ';')) = true := by
      cases label <;> rfl
    exact fun c hc => of_decide_eq_true (List.all_eq_true.mp hall c hc)
  exact Text.plain_ofChars (hletters.append (hnumerals _))

/-! ## The labels as the builder writes them -/

/-- The label of a trimmed picture. -/
theorem text_picture (index : Nat) : (picture index).text = .ofString ("v" ++ toString index) := by
  rw [Text.ofString_append, Text.ofString_toString]
  rfl

/-- The label of a trimmed sound. -/
theorem text_sound (index : Nat) : (sound index).text = .ofString ("a" ++ toString index) := by
  rw [Text.ofString_append, Text.ofString_toString]
  rfl

/-- The label of a trimmed picture of the overlay track. -/
theorem text_inset (index : Nat) : (inset index).text = .ofString ("t" ++ toString index) := by
  rw [Text.ofString_append, Text.ofString_toString]
  rfl

/-- The numbers of a clip and an image with an underscore between them. -/
theorem ofString_mark (index number : Nat) :
    Text.ofString (toString index ++ "_" ++ toString number) =
      .ofChars (numerals [index, number]) := by
  have hmark : Text.ofString "_" = .ofChars ['_'] := rfl
  rw [Text.ofString_append, Text.ofString_append, Text.ofString_toString, Text.ofString_toString,
    hmark]
  exact Text.eq_of_points (by simp [Text.ofChars, numerals])

/-- The label of a picture with an image laid over it. -/
theorem text_laid (index number : Nat) : (laid index number).text =
    .ofString ("v" ++ (toString index ++ "_" ++ toString number)) := by
  rw [Text.ofString_append, ofString_mark]
  rfl

/-- The label of a scaled image. -/
theorem text_image (index number : Nat) : (image index number).text =
    .ofString "ov" ++ .ofString (toString index ++ "_" ++ toString number) := by
  rw [ofString_mark]
  rfl

/-- The label of a picture that an image was scaled by. -/
theorem text_passed (index number : Nat) : (passed index number).text =
    .ofString "ref" ++ .ofString (toString index ++ "_" ++ toString number) := by
  rw [ofString_mark]
  rfl

end StreamLabel

end Montage
