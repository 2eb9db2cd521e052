import Mathlib.Data.List.Basic

/-! # Lossy UTF-8

Bytes read as text: a well-formed character stands for itself, and each maximal ill-formed
run for the replacement character. Text without a replacement character determines its
bytes; text with one does not.
-/
namespace Texo.Foundation

/-- The character encoded at the head of some bytes. -/
def decodeChar (bytes : List UInt8) : Option Char := (bytes.toByteArray).utf8DecodeChar? 0

/-- The bytes of some characters. -/
def encodeChars (chars : List Char) : List UInt8 := chars.flatMap String.utf8EncodeChar

/-- U+FFFD, what ill-formed bytes are shown as. -/
def replacementChar : Char := Char.ofNat 0xFFFD

/-- A continuation byte. -/
def isContinuation (byte : UInt8) : Bool := 0x80 ≤ byte && byte ≤ 0xBF

/-- The second byte may follow the first in an encoding of three or four bytes. -/
def secondAllowed (first second : UInt8) : Bool :=
  (first == 0xE0 && 0xA0 ≤ second && second ≤ 0xBF) ||
  (0xE1 ≤ first && first ≤ 0xEC && isContinuation second) ||
  (first == 0xED && 0x80 ≤ second && second ≤ 0x9F) ||
  (0xEE ≤ first && first ≤ 0xEF && isContinuation second) ||
  (first == 0xF0 && 0x90 ≤ second && second ≤ 0xBF) ||
  (0xF1 ≤ first && first ≤ 0xF3 && isContinuation second) ||
  (first == 0xF4 && 0x80 ≤ second && second ≤ 0x8F)

/-- The length of the ill-formed run at the head of bytes that encode no character there. -/
def invalidLength : List UInt8 → Nat
  | first :: second :: rest =>
    if secondAllowed first second then
      match rest with
      | third :: _ => if isContinuation third then 3 else 2
      | [] => 2
    else 1
  | _ => 1

/-- `String::from_utf8_lossy`, as far as the fuel reaches. -/
def lossyFrom : Nat → List UInt8 → List Char
  | 0, _ => []
  | _ + 1, [] => []
  | fuel + 1, first :: rest =>
    match decodeChar (first :: rest) with
    | some char => char :: lossyFrom fuel ((first :: rest).drop char.utf8Size)
    | none => replacementChar :: lossyFrom fuel ((first :: rest).drop (invalidLength (first :: rest)))

/-- `String::from_utf8_lossy`. -/
def fromUtf8Lossy (bytes : List UInt8) : List Char := lossyFrom bytes.length bytes

/-- An encoded character is read back from the head of its bytes. -/
theorem decodeChar_encode (char : Char) (rest : List UInt8) :
    decodeChar (String.utf8EncodeChar char ++ rest) = some char := by
  unfold decodeChar
  rw [List.toByteArray_append]
  exact ByteArray.utf8DecodeChar?_utf8EncodeChar_append

/-- A character is read only from the bytes that encode it. -/
theorem encode_of_decodeChar {bytes : List UInt8} {char : Char}
    (decoded : decodeChar bytes = some char) :
    ∃ rest, bytes = String.utf8EncodeChar char ++ rest := by
  obtain ⟨rest, split⟩ := ByteArray.exists_of_utf8DecodeChar?_eq_some decoded
  refine ⟨rest.data.toList, ?_⟩
  have listed := congrArg (fun array : ByteArray => array.data.toList) split
  simpa using listed

/-- Every character takes at least one byte. -/
theorem encode_ne_nil (char : Char) : String.utf8EncodeChar char ≠ [] := by
  intro empty
  have size := String.length_utf8EncodeChar char
  have positive := char.utf8Size_pos
  rw [empty, List.length_nil] at size
  omega

/-- Bytes that open with an encoded character lose exactly it. -/
theorem drop_encode (char : Char) (rest : List UInt8) :
    (String.utf8EncodeChar char ++ rest).drop char.utf8Size = rest := by
  rw [← String.length_utf8EncodeChar char, List.drop_left]

/-- Reading encoded characters from the head of some bytes. -/
theorem lossyFrom_encode {fuel : Nat} (char : Char) (rest : List UInt8) :
    lossyFrom (fuel + 1) (String.utf8EncodeChar char ++ rest) = char :: lossyFrom fuel rest := by
  cases encoded : String.utf8EncodeChar char ++ rest with
  | nil => exact absurd (List.append_eq_nil_iff.mp encoded).1 (encode_ne_nil char)
  | cons first more =>
    rw [lossyFrom, ← encoded, decodeChar_encode]
    show char :: lossyFrom fuel ((String.utf8EncodeChar char ++ rest).drop char.utf8Size) = _
    rw [drop_encode]

/-- Encoded text reads as itself. -/
theorem fromUtf8Lossy_encode (chars : List Char) : fromUtf8Lossy (encodeChars chars) = chars := by
  suffices reads : ∀ fuel, (encodeChars chars).length ≤ fuel →
      lossyFrom fuel (encodeChars chars) = chars by
    exact reads _ (Nat.le_refl _)
  induction chars with
  | nil =>
    intro fuel _
    cases fuel with
    | zero => rfl
    | succ fuel => rfl
  | cons char rest ih =>
    intro fuel enough
    have split : encodeChars (char :: rest) = String.utf8EncodeChar char ++ encodeChars rest := rfl
    rw [split, List.length_append, String.length_utf8EncodeChar] at enough
    have positive := char.utf8Size_pos
    obtain ⟨less, rfl⟩ : ∃ less, fuel = less + 1 := ⟨fuel - 1, by omega⟩
    rw [split, lossyFrom_encode, ih less (by omega)]

/-- Text without a replacement character determines the bytes it was read from. -/
theorem encode_fromUtf8Lossy {bytes : List UInt8}
    (clean : replacementChar ∉ fromUtf8Lossy bytes) :
    encodeChars (fromUtf8Lossy bytes) = bytes := by
  suffices reads : ∀ fuel bytes, bytes.length ≤ fuel → replacementChar ∉ lossyFrom fuel bytes →
      encodeChars (lossyFrom fuel bytes) = bytes by
    exact reads _ _ (Nat.le_refl _) clean
  intro fuel
  induction fuel with
  | zero =>
    intro bytes enough _
    have empty : bytes = [] := List.eq_nil_of_length_eq_zero (by omega)
    rw [empty]
    rfl
  | succ fuel ih =>
    intro bytes enough clean
    cases bytes with
    | nil => rfl
    | cons first rest =>
      cases decoded : decodeChar (first :: rest) with
      | none =>
        unfold lossyFrom at clean
        rw [decoded] at clean
        exact absurd List.mem_cons_self clean
      | some char =>
        obtain ⟨later, split⟩ := encode_of_decodeChar decoded
        have size := congrArg List.length split
        rw [List.length_append, String.length_utf8EncodeChar] at size
        have positive := char.utf8Size_pos
        rw [split, lossyFrom_encode] at clean ⊢
        have tail : encodeChars (lossyFrom fuel later) = later := by
          apply ih later (by omega)
          exact fun inside => clean (List.mem_cons_of_mem _ inside)
        show String.utf8EncodeChar char ++ encodeChars (lossyFrom fuel later) = _
        rw [tail]

/-- Text reads the same from ill-formed bytes as from a replacement character. -/
example : fromUtf8Lossy [0x61, 0xFF] = fromUtf8Lossy [0x61, 0xEF, 0xBF, 0xBD] := by
  decide +kernel

end Texo.Foundation
