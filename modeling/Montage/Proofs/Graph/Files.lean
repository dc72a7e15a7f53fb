import Montage.Graph.Builder
import Montage.Proofs.Graph.Argument
import Montage.Proofs.Graph.Label

/-!
# The files of a built graph

The builder numbers the files that it reads, and gives a file again that it has
read before. The labels of their streams begin with the number, so that they differ
from each other and from the labels of all streams that stages produce.
-/

namespace Montage

/-- Files that are numbered in their order. -/
def Numbered (inputs : List GraphInput) : Prop :=
  ∀ (number : Nat) (input : GraphInput), inputs[number]? = some input →
    input.index = .int number

/-- One more file gets the next number. -/
theorem Numbered.snoc {inputs : List GraphInput} (numbered : Numbered inputs) (path kind : Value) :
    Numbered (inputs ++ [⟨.int inputs.length, path, kind⟩]) := by
  intro number input hinput
  by_cases hlast : number < inputs.length
  · rw [List.getElem?_append_left hlast] at hinput
    exact numbered number input hinput
  · rw [List.getElem?_append_right (Nat.le_of_not_lt hlast), List.getElem?_singleton] at hinput
    split at hinput
    · have hnumber : number = inputs.length := by omega
      cases hinput
      rw [hnumber]
    · cases hinput

/-- A file that is given when one is asked for. -/
def GraphInput.IsFor (path kind : Value) (input : GraphInput) : Prop :=
  input.kind = kind ∧ input.path.display = path.display

/-- A file that was asked for was there before, or there was none and it is
added with the next number. -/
theorem Builder.addInput_cases {builder after : Builder} {path kind : Value}
    (text : ∃ t, kind = .text t) {input : GraphInput}
    (h : builder.addInput path kind = (input, after)) :
    (after = builder ∧ input ∈ builder.inputs ∧ input.IsFor path kind) ∨
    (input = ⟨.int builder.inputs.length, path, kind⟩ ∧
      after = { builder with inputs := builder.inputs ++ [input] } ∧
      ∀ other ∈ builder.inputs, ¬ other.IsFor path kind) := by
  obtain ⟨t, rfl⟩ := text
  unfold addInput at h
  split at h
  · next found hfound =>
    cases h
    have hsame := List.find?_some hfound
    simp only [Bool.and_eq_true, decide_eq_true_eq] at hsame
    exact .inl ⟨rfl, List.mem_of_find?_eq_some hfound, Value.eq_text_of_equal hsame.1, hsame.2⟩
  · next hnone =>
    cases h
    refine .inr ⟨rfl, rfl, fun other hother hfor => ?_⟩
    have hdiffers := List.find?_eq_none.mp hnone other hother
    have hkind : other.kind.equal (.text t) = true := by
      rw [hfor.1, Value.equal_text, decide_eq_true_eq]
    simp [hkind, hfor.2] at hdiffers

namespace GraphInput

/-- The characters of the label of a numbered file's stream. -/
theorem points_of_index {input : GraphInput} {number : Nat} (h : input.index = .int number)
    (ending : Text) :
    (input.index.display ++ ending).points =
      (Nat.toDigits 10 number).map .char ++ ending.points := by
  have hdisplay : (Value.int number).display = .ofString (toString number) := rfl
  rw [h, hdisplay, Text.ofString_toString]
  rfl

/-- The label of a numbered file's stream. -/
def Labels (inputs : List GraphInput) (label : Text) : Prop :=
  ∃ input ∈ inputs, label = input.video ∨ label = input.audio

variable {inputs : List GraphInput}

/-- A file among numbered ones has its place as its number. -/
theorem exists_number (numbered : Numbered inputs) {input : GraphInput} (h : input ∈ inputs) :
    ∃ number : Nat, inputs[number]? = some input ∧ input.index = .int number := by
  obtain ⟨number, hnumber⟩ := List.mem_iff_getElem?.mp h
  exact ⟨number, hnumber, numbered number input hnumber⟩

/-- Files with the same number are the same file. -/
theorem eq_of_endings (numbered : Numbered inputs) {input other : GraphInput}
    (hinput : input ∈ inputs) (hother : other ∈ inputs) {ending : Text}
    (h : input.index.display ++ ending = other.index.display ++ ending) : input = other := by
  obtain ⟨m, hm, hindex⟩ := exists_number numbered hinput
  obtain ⟨n, hn, hindex'⟩ := exists_number numbered hother
  have hpoints := congrArg Text.points h
  rw [points_of_index hindex, points_of_index hindex'] at hpoints
  have hdigits := List.append_cancel_right hpoints
  have hsame : m = n := StreamLabel.toDigits_inj
    (List.map_injective_iff.mpr (fun _ _ h => CodePoint.char.inj h) hdigits)
  rw [hsame, hn] at hm
  exact (Option.some.inj hm).symm

/-- Pictures of different files have different labels. -/
theorem video_inj (numbered : Numbered inputs) {input other : GraphInput} (hinput : input ∈ inputs)
    (hother : other ∈ inputs) (h : input.video = other.video) : input = other :=
  eq_of_endings numbered hinput hother h

/-- Sounds of different files have different labels. -/
theorem audio_inj (numbered : Numbered inputs) {input other : GraphInput} (hinput : input ∈ inputs)
    (hother : other ∈ inputs) (h : input.audio = other.audio) : input = other :=
  eq_of_endings numbered hinput hother h

/-- No picture has the label of a sound. -/
theorem video_ne_audio (input other : GraphInput) : input.video ≠ other.audio := by
  intro h
  have hlast := congrArg (fun t : Text => t.points.getLast?) h
  have hv : input.video.points.getLast? = some (.char 'v') :=
    List.getLast?_append_of_ne_nil _ (by decide)
  have ha : other.audio.points.getLast? = some (.char 'a') :=
    List.getLast?_append_of_ne_nil _ (by decide)
  have hsame : some (CodePoint.char 'v') = some (.char 'a') := hv.symm.trans (hlast.trans ha)
  exact absurd hsame (by decide)

/-- The label of a numbered file's stream begins with a digit. -/
theorem Labels.exists_digit (numbered : Numbered inputs) {label : Text} (h : Labels inputs label) :
    ∃ c rest, label.points = .char c :: rest ∧ c.isDigit = true := by
  obtain ⟨input, hinput, hlabel⟩ := h
  obtain ⟨number, _, hindex⟩ := exists_number numbered hinput
  cases hdigits : Nat.toDigits 10 number with
  | nil => exact absurd hdigits Nat.toDigits_ne_nil
  | cons c cs =>
    have hc : c.isDigit = true :=
      Nat.isDigit_of_mem_toDigits (by decide) (by decide) (hdigits ▸ List.mem_cons_self)
    rcases hlabel with rfl | rfl
    · exact ⟨c, _, by rw [video, points_of_index hindex, hdigits]; rfl, hc⟩
    · exact ⟨c, _, by rw [audio, points_of_index hindex, hdigits]; rfl, hc⟩

/-- The label of a file's stream is not that of a stage's, whatever is put behind
that. -/
theorem Labels.ne_text_append (numbered : Numbered inputs) {label : Text} (h : Labels inputs label)
    (stream : StreamLabel) (ending : Text) : label ≠ stream.text ++ ending := by
  intro hsame
  obtain ⟨c, rest, hpoints, hdigit⟩ := h.exists_digit numbered
  obtain ⟨d, others, hchars, hletter⟩ := stream.exists_letter
  have htext : stream.text.points = .char d :: others.map .char := by
    rw [StreamLabel.text, Text.ofChars, hchars, List.map_cons]
  rw [hsame, Text.points_append, htext, List.cons_append] at hpoints
  rw [CodePoint.char.inj (List.cons.inj hpoints).1, hdigit] at hletter
  cases hletter

/-- The label of a file's stream is not that of a stage's. -/
theorem Labels.ne_text (numbered : Numbered inputs) {label : Text} (h : Labels inputs label)
    (stream : StreamLabel) : label ≠ stream.text := by
  have hempty : stream.text ++ ⟨[]⟩ = stream.text := Text.eq_of_points (List.append_nil _)
  exact hempty ▸ h.ne_text_append numbered stream ⟨[]⟩

/-- The label of a numbered file's stream holds no brackets and no semicolons. -/
theorem Labels.plain (numbered : Numbered inputs) {label : Text} (h : Labels inputs label) :
    label.Plain := by
  obtain ⟨input, hinput, hlabel⟩ := h
  obtain ⟨number, _, hindex⟩ := exists_number numbered hinput
  have hnumber : input.index.display.Plain := by
    rw [hindex]
    exact Value.plain_display_int number
  rcases hlabel with rfl | rfl
  · exact hnumber.append (Text.plain_ofList (by decide))
  · exact hnumber.append (Text.plain_ofList (by decide))

end GraphInput

end Montage
