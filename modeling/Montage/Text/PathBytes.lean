import Montage.Text.Basic

/-!
# Bytes of paths and variables

Files and directories have names of bytes, and the environment holds bytes as
well. A text stands for its UTF-8 bytes; some surrogates stand for single bytes
that are no UTF-8, and a text with any other surrogate stands for nothing. Every
sequence of bytes can be shown as a text that stands for it.
-/

namespace Montage

/-- Bytes as the world outside keeps them. -/
abbrev Bytes := List UInt8

namespace CodePoint

/-- The first and the number of the surrogates that stand for bytes. -/
def byteSurrogates : Nat × Nat := (0x480, 0x80)

/-- The distance of a surrogate from the byte that it stands for. -/
def surrogateShift : Nat := 0x400

/-- The bytes that a code point stands for. -/
def pathBytes? : CodePoint → Option Bytes
  | .char c => some (String.utf8EncodeChar c)
  | .surrogate offset =>
    if byteSurrogates.1 ≤ offset.val ∧ offset.val < byteSurrogates.1 + byteSurrogates.2 then
      some [UInt8.ofNat (offset.val - surrogateShift)]
    else none

/-- The surrogate that stands for a byte which is not part of a character. -/
def ofByte (byte : UInt8) : CodePoint :=
  .surrogate ⟨surrogateShift + byte.toNat, by have := byte.toNat_lt; simp [surrogateShift]; omega⟩

/-- The most bytes of a character. -/
def widest : Nat := 4

/-- The character that bytes begin with, if they begin with one. -/
def leading? (bytes : Bytes) : Option Char := (bytes.take widest).toByteArray.utf8DecodeChar? 0

/-- The code points that bytes are shown as: the characters, and a surrogate for
every byte between them. -/
def ofBytes : Bytes → List CodePoint
  | [] => []
  | byte :: rest =>
    match leading? (byte :: rest) with
    | some c => .char c :: ofBytes (rest.drop (c.utf8Size - 1))
    | none => ofByte byte :: ofBytes rest
termination_by bytes => bytes.length

/-- Bytes that begin with a character are its bytes and others. -/
theorem eq_of_leading? {bytes : Bytes} {c : Char} (h : leading? bytes = some c) :
    String.utf8EncodeChar c ++ bytes.drop c.utf8Size = bytes := by
  have taken := congrArg (·.data.toList) (ByteArray.eq_of_utf8DecodeChar?_eq_some h)
  simp only [ByteArray.data_append, List.data_toByteArray, Array.toList_append] at taken
  have within : String.utf8EncodeChar c <+: bytes :=
    List.IsPrefix.trans ⟨_, taken.symm⟩ (List.take_prefix widest bytes)
  have whole := List.prefix_iff_eq_append.1 within
  rwa [String.length_utf8EncodeChar] at whole

/-- A byte that begins no character is beyond those of ASCII. -/
theorem le_of_leading?_eq_none {byte : UInt8} {rest : Bytes}
    (h : leading? (byte :: rest) = none) : 0x80 ≤ byte.toNat := by
  apply Nat.le_of_not_lt
  intro small
  have noHighBit : byte &&& 0x80 = 0 := by
    apply UInt8.toNat_inj.1
    rw [UInt8.toNat_and]
    apply Nat.eq_of_testBit_eq
    intro i
    rw [Nat.testBit_and, show (0x80 : UInt8).toNat = 2 ^ 7 from rfl, Nat.testBit_two_pow]
    by_cases here : 7 = i
    · subst here
      simp only [decide_true, Bool.and_true]
      exact Nat.testBit_lt_two_pow (show byte.toNat < 2 ^ 7 from small)
    · simp [here]
  have ascii : ByteArray.utf8DecodeChar?.parseFirstByte byte = .done := by
    simp [ByteArray.utf8DecodeChar?.parseFirstByte, noHighBit]
  have nonempty : 0 < ((byte :: rest).take widest).toByteArray.size := by simp [widest]
  have first : ((byte :: rest).take widest).toByteArray[0] = byte := by
    simp [widest, ByteArray.getElem_eq_getElem_data]
  unfold leading? ByteArray.utf8DecodeChar? at h
  split at h
  · split at h
    · simp_all
    · simp [ByteArray.utf8DecodeChar?.assemble₁] at h
    · simp_all
    · simp_all
    · simp_all
  · simp_all [widest]

/-- A byte beyond ASCII is what its surrogate stands for. -/
theorem pathBytes?_ofByte {byte : UInt8} (h : 0x80 ≤ byte.toNat) :
    (ofByte byte).pathBytes? = some [byte] := by
  have small := byte.toNat_lt
  have within : byteSurrogates.1 ≤ surrogateShift + byte.toNat ∧
      surrogateShift + byte.toNat < byteSurrogates.1 + byteSurrogates.2 := by
    simp only [byteSurrogates, surrogateShift]
    omega
  simp [ofByte, pathBytes?, within]

end CodePoint

namespace Text

/-- The bytes that a text stands for. -/
def pathBytes? (t : Text) : Option Bytes :=
  (t.points.mapM CodePoint.pathBytes?).map List.flatten

/-- The text that bytes are shown as. -/
def ofBytes (bytes : Bytes) : Text := ⟨CodePoint.ofBytes bytes⟩

/-- The bytes of a code point stand before those of the code points after it. -/
theorem pathBytes?_cons {point : CodePoint} {points : List CodePoint} {first others : Bytes}
    (hpoint : point.pathBytes? = some first) (hpoints : (Text.mk points).pathBytes? = some others) :
    (Text.mk (point :: points)).pathBytes? = some (first ++ others) := by
  obtain ⟨parts, hparts, rfl⟩ := Option.map_eq_some_iff.1 hpoints
  simp only at hparts
  simp [pathBytes?, List.mapM_cons, hpoint, hparts]

/-- The text that bytes are shown as stands for them. -/
theorem pathBytes?_ofBytes (bytes : Bytes) : (ofBytes bytes).pathBytes? = some bytes := by
  unfold ofBytes
  fun_induction CodePoint.ofBytes bytes with
  | case1 => rfl
  | case2 byte rest c h ih =>
    rw [pathBytes?_cons rfl ih]
    have whole := CodePoint.eq_of_leading? h
    rw [List.drop_cons c.utf8Size_pos] at whole
    rw [whole]
  | case3 byte rest h ih =>
    exact pathBytes?_cons (CodePoint.pathBytes?_ofByte (CodePoint.le_of_leading?_eq_none h)) ih

end Text

end Montage
