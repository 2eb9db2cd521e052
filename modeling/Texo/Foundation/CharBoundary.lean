import Texo.Foundation.Utf8
import Mathlib.Data.String.Basic

/-! # Character boundaries

The offsets of a text that lie between two of its characters. They are the offsets whose byte does
not continue a character, and a slice of the bytes is a text of its own exactly where it is empty
or lies between two of them.
-/
namespace Texo.Foundation

/-- `str::is_char_boundary`: the offset lies between two characters of the text, or at an end. -/
def CharBoundary (text : String) (offset : Nat) : Prop := (⟨offset⟩ : String.Pos.Raw).IsValid text

instance (text : String) (offset : Nat) : Decidable (CharBoundary text offset) :=
  inferInstanceAs (Decidable (String.Pos.Raw.IsValid _ _))

/-- The bytes of a text are those of its characters. -/
theorem encodeChars_toList (text : String) : encodeChars text.toList = text.toByteArray.data.toList := by
  have bytes := @String.utf8Encode_toList text
  rw [← bytes]
  unfold encodeChars List.utf8Encode
  simp

/-- A text is as long as its bytes. -/
theorem length_encodeChars_toList (text : String) :
    (encodeChars text.toList).length = text.utf8ByteSize := by
  rw [encodeChars_toList]
  exact String.size_toByteArray

/-- The last six bits of a byte after its two leading bits. -/
theorem continuation_bits : ∀ rest < 64, (UInt8.ofNat (rest + 0x80)) &&& 0xC0 = 0x80 := by decide

/-- The first byte of a character opens it. -/
theorem opens_of_head {char : Char} {byte : UInt8} {rest : List UInt8}
    (encoded : String.utf8EncodeChar char = byte :: rest) : byte.IsUTF8FirstByte := by
  have inside : 0 < (String.utf8EncodeChar char).length := by
    rw [encoded]
    exact Nat.succ_pos _
  have opening := (@UInt8.isUTF8FirstByte_getElem_utf8EncodeChar char 0 inside).mpr rfl
  simpa [encoded] using opening

/-- A byte of a character opens it, or continues it. -/
theorem opens_or_continues {char : Char} {byte : UInt8} (member : byte ∈ String.utf8EncodeChar char) :
    byte.IsUTF8FirstByte ∨ byte &&& 0xC0 = 0x80 := by
  have follows : ∀ number, byte = UInt8.ofNat (number % 0x40 + 0x80) → byte &&& 0xC0 = 0x80 := by
    intro number same
    rw [same]
    exact continuation_bits _ (Nat.mod_lt _ (by decide))
  cases encoded : String.utf8EncodeChar char with
  | nil => exact absurd encoded (encode_ne_nil char)
  | cons head rest =>
    have opening := opens_of_head encoded
    rw [encoded] at member
    rcases List.mem_cons.mp member with rfl | behind
    · exact Or.inl opening
    · right
      have tail : rest = (String.utf8EncodeChar char).tail := by rw [encoded, List.tail_cons]
      rw [tail] at behind
      unfold String.utf8EncodeChar at behind
      simp only at behind
      split at behind
      · cases behind
      · split at behind
        · exact follows _ (List.mem_singleton.mp behind)
        · split at behind
          · simp only [List.tail_cons, List.mem_cons, List.not_mem_nil, or_false] at behind
            rcases behind with second | third
            · exact follows _ second
            · exact follows _ third
          · simp only [List.tail_cons, List.mem_cons, List.not_mem_nil, or_false] at behind
            rcases behind with second | third | fourth
            · exact follows _ second
            · exact follows _ third
            · exact follows _ fourth

/-- The end of a text is a boundary. -/
theorem charBoundary_length (text : String) : CharBoundary text (encodeChars text.toList).length := by
  rw [length_encodeChars_toList]
  exact String.Pos.Raw.isValid_rawEndPos

/-- An offset at a byte that continues no character is a boundary. -/
theorem charBoundary_of_byte {text : String} {offset : Nat} {byte : UInt8}
    (located : (encodeChars text.toList)[offset]? = some byte) (opens : byte &&& 0xC0 ≠ 0x80) :
    CharBoundary text offset := by
  apply String.Pos.Raw.isValid_iff_isUTF8FirstByte.mpr
  right
  obtain ⟨inside, found⟩ := List.getElem?_eq_some_iff.mp located
  have size : offset < text.utf8ByteSize := by
    rw [← length_encodeChars_toList]
    exact inside
  refine ⟨size, ?_⟩
  have member : byte ∈ encodeChars text.toList := List.mem_of_getElem? located
  obtain ⟨char, _, encoded⟩ := List.mem_flatMap.mp member
  have first : byte.IsUTF8FirstByte := by
    rcases opens_or_continues encoded with opening | continuing
    · exact opening
    · exact absurd continuing opens
  have same : text.getUTF8Byte ⟨offset⟩ size = byte := by
    have listed := encodeChars_toList text
    have read : text.toByteArray.data.toList[offset]? = some byte := by
      rw [← listed]
      exact located
    have there := (List.getElem?_eq_some_iff.mp read).2
    exact there
  rw [same]
  exact first

/-- The bytes between two offsets. -/
theorem extract_toList (text : String) (first last : Nat) :
    (text.toByteArray.extract first last).data.toList =
      ((encodeChars text.toList).drop first).take (last - first) := by
  rw [ByteArray.data_extract, encodeChars_toList, Array.toList_extract]

/-- A slice of a text is a text of its own exactly where it is empty or lies between boundaries. -/
theorem slice_isValid_iff {text : String} {first last : Nat} (forward : first ≤ last)
    (within : last ≤ (encodeChars text.toList).length) :
    (text.toByteArray.extract first last).IsValidUTF8 ↔
      first = last ∨ (CharBoundary text first ∧ CharBoundary text last) := by
  rw [length_encodeChars_toList] at within
  have law := @String.Pos.Raw.isValidUTF8_extract_iff text ⟨first⟩ ⟨last⟩ forward within
  rw [law]
  constructor
  · rintro (same | both)
    · exact Or.inl (congrArg String.Pos.Raw.byteIdx same)
    · exact Or.inr both
  · rintro (same | both)
    · exact Or.inl (congrArg String.Pos.Raw.mk same)
    · exact Or.inr both

/-- A byte that opens a character continues none. -/
theorem opens_not_continues {byte : UInt8} (opening : byte.IsUTF8FirstByte) : byte &&& 0xC0 ≠ 0x80 := by
  have every : ∀ number < 256, (UInt8.ofNat number).IsUTF8FirstByte →
      UInt8.ofNat number &&& 0xC0 ≠ 0x80 := by decide +kernel
  have named : byte = UInt8.ofNat byte.toNat := by simp
  rw [named] at opening ⊢
  exact every _ byte.toNat_lt opening

/-- The bytes of a character: the first opens it, and is the line feed only alone; the others
continue it. -/
theorem encoded_bytes (char : Char) : ∃ opening rest, String.utf8EncodeChar char = opening :: rest ∧
    opening &&& 0xC0 ≠ 0x80 ∧ (∀ byte ∈ rest, byte &&& 0xC0 = 0x80) ∧ rest.length < 4 ∧
    (opening = 10 → rest = []) := by
  cases encoded : String.utf8EncodeChar char with
  | nil => exact absurd encoded (encode_ne_nil char)
  | cons opening rest =>
    refine ⟨opening, rest, rfl, opens_not_continues (opens_of_head encoded), ?_, ?_, ?_⟩
    · intro byte member
      obtain ⟨place, inside, located⟩ := List.getElem_of_mem member
      have size : place + 1 < (String.utf8EncodeChar char).length := by
        rw [encoded, List.length_cons]
        omega
      have law := @UInt8.isUTF8FirstByte_getElem_utf8EncodeChar char (place + 1) size
      have same : (String.utf8EncodeChar char)[place + 1] = byte := by
        simp only [encoded, List.getElem_cons_succ]
        exact located
      rw [same] at law
      have within : byte ∈ String.utf8EncodeChar char := by
        rw [encoded]
        exact List.mem_cons_of_mem _ member
      rcases opens_or_continues within with first | continuing
      · exact absurd (law.mp first) (Nat.succ_ne_zero place)
      · exact continuing
    · have size := String.length_utf8EncodeChar char
      have bound := char.utf8Size_le_four
      rw [encoded, List.length_cons] at size
      omega
    · intro feed
      have read := decodeChar_encode char []
      have line := decodeChar_encode '\n' rest
      have alone : String.utf8EncodeChar '\n' = [10] := by decide
      rw [List.append_nil, encoded, feed] at read
      rw [alone, List.singleton_append, read] at line
      cases line
      rw [alone] at encoded
      cases encoded
      rfl

/-- A text whose bytes begin with those of another begins with it. -/
theorem encodeChars_eq_append {needle text : List Char} {rest : List UInt8}
    (bytes : encodeChars text = encodeChars needle ++ rest) :
    ∃ later, text = needle ++ later ∧ encodeChars later = rest := by
  induction needle generalizing text with
  | nil => exact ⟨text, rfl, bytes⟩
  | cons char needle ih =>
    have opened : encodeChars text =
        String.utf8EncodeChar char ++ (encodeChars needle ++ rest) := by
      rw [bytes, ← List.append_assoc]
      rfl
    cases text with
    | nil => exact absurd (List.append_eq_nil_iff.mp opened.symm).1 (encode_ne_nil char)
    | cons head text =>
      have split : encodeChars (head :: text) = String.utf8EncodeChar head ++ encodeChars text := rfl
      rw [split] at opened
      have read := congrArg decodeChar opened
      rw [decodeChar_encode, decodeChar_encode] at read
      cases read
      obtain ⟨later, whole, behind⟩ := ih (List.append_cancel_left opened)
      exact ⟨later, by rw [whole, List.cons_append], behind⟩

/-- A byte that is a character of its own stands between two characters. -/
theorem encodeChars_around {char : Char} {byte : UInt8} (alone : String.utf8EncodeChar char = [byte])
    {text : List Char} {early late : List UInt8} (bytes : encodeChars text = early ++ byte :: late) :
    ∃ front back, text = front ++ char :: back ∧ encodeChars front = early ∧
      encodeChars back = late := by
  induction text generalizing early with
  | nil => exact absurd (List.append_eq_nil_iff.mp bytes.symm).2 (List.cons_ne_nil _ _)
  | cons head text ih =>
    have split : encodeChars (head :: text) = String.utf8EncodeChar head ++ encodeChars text := rfl
    rw [split] at bytes
    have later : ∀ more, early = String.utf8EncodeChar head ++ more →
        encodeChars text = more ++ byte :: late →
        ∃ front back, head :: text = front ++ char :: back ∧ encodeChars front = early ∧
          encodeChars back = late := by
      intro more whole rest
      obtain ⟨front, back, parts, frontBytes, backBytes⟩ := ih rest
      refine ⟨head :: front, back, by rw [parts, List.cons_append], ?_, backBytes⟩
      rw [whole, ← frontBytes]
      rfl
    rcases List.append_eq_append_iff.mp bytes with ⟨more, whole, rest⟩ | ⟨more, inside, rest⟩
    · exact later more whole rest
    · cases more with
      | nil =>
        rw [List.append_nil] at inside
        exact later [] (by rw [inside, List.append_nil]) rest.symm
      | cons lead more =>
        obtain ⟨same, tails⟩ := List.cons.inj rest
        rw [← same] at inside
        obtain ⟨opening, others, encoded, _, continues, _⟩ := encoded_bytes head
        have fresh : byte &&& 0xC0 ≠ 0x80 := opens_not_continues (opens_of_head alone)
        rw [encoded] at inside
        -- A byte that opens a character stands in front of all others of its character.
        cases early with
        | nil =>
          rw [List.nil_append] at inside
          rw [inside] at encoded
          have one := decodeChar_encode head []
          have two := decodeChar_encode char more
          rw [List.append_nil, encoded] at one
          rw [alone, List.singleton_append, one] at two
          cases two
          rw [alone] at encoded
          cases encoded
          exact ⟨[], text, rfl, rfl, tails.symm⟩
        | cons lead early =>
          obtain ⟨_, behind⟩ := List.cons.inj inside
          have member : byte ∈ others := by
            rw [behind]
            exact List.mem_append_right _ List.mem_cons_self
          exact absurd (continues byte member) fresh

/-- No character continues at an offset. -/
def OpensAt (bytes : List UInt8) (offset : Nat) : Prop :=
  ∀ byte, bytes[offset]? = some byte → byte &&& 0xC0 ≠ 0x80

/-- Encoded characters open at their start. -/
theorem opensAt_encodeChars (chars : List Char) : OpensAt (encodeChars chars) 0 := by
  intro byte located
  cases chars with
  | nil => cases located
  | cons char rest =>
    obtain ⟨opening, more, encoded, fresh, _⟩ := encoded_bytes char
    have split : encodeChars (char :: rest) = String.utf8EncodeChar char ++ encodeChars rest := rfl
    rw [split, encoded] at located
    cases located
    exact fresh

/-- An offset stands inside the bytes of one character, which is no line feed. -/
structure InsideChar (bytes : List UInt8) (offset start stop : Nat) : Prop where
  after : start < offset
  before : offset < stop
  near : stop < start + 5
  within : stop ≤ bytes.length
  opens : OpensAt bytes start
  closes : OpensAt bytes stop
  oneLine : ∀ place, start ≤ place → place < stop → bytes[place]? ≠ some 10

/-- A byte that continues a character stands inside the bytes of one. -/
theorem inside_of_continues (chars : List Char) {offset : Nat} {byte : UInt8}
    (located : (encodeChars chars)[offset]? = some byte) (continuing : byte &&& 0xC0 = 0x80) :
    ∃ start stop, InsideChar (encodeChars chars) offset start stop := by
  induction chars generalizing offset with
  | nil => cases located
  | cons char rest ih =>
    obtain ⟨opening, more, encoded, fresh, continues, short, alone⟩ := encoded_bytes char
    have split : encodeChars (char :: rest) = (opening :: more) ++ encodeChars rest := by
      rw [← encoded]
      rfl
    have shift : ∀ place, (encodeChars (char :: rest))[(opening :: more).length + place]? =
        (encodeChars rest)[place]? := by
      intro place
      rw [split, List.getElem?_append_right (Nat.le_add_right _ _), Nat.add_sub_cancel_left]
    by_cases here : offset < (opening :: more).length
    · refine ⟨0, (opening :: more).length, ?_, here, ?_, ?_, opensAt_encodeChars _, ?_, ?_⟩
      · cases offset with
        | zero =>
          rw [split] at located
          cases located
          exact absurd continuing fresh
        | succ offset => exact Nat.succ_pos offset
      · rw [List.length_cons]
        omega
      · rw [split, List.length_append]
        exact Nat.le_add_right _ _
      · intro other there
        have moved := shift 0
        rw [Nat.add_zero] at moved
        rw [moved] at there
        exact opensAt_encodeChars rest other there
      · intro place _ before feed
        rw [split, List.getElem?_append_left before] at feed
        cases place with
        | zero =>
          cases feed
          rw [alone rfl, List.length_singleton] at here
          have first : offset = 0 := by omega
          rw [first, split] at located
          cases located
          exact fresh continuing
        | succ place =>
          rw [List.getElem?_cons_succ] at feed
          have bits := continues 10 (List.mem_of_getElem? feed)
          exact absurd bits (by decide)
    · obtain ⟨behind, rfl⟩ : ∃ behind, offset = (opening :: more).length + behind :=
        ⟨offset - (opening :: more).length, by omega⟩
      rw [shift behind] at located
      obtain ⟨start, stop, inside⟩ := ih located
      have after := inside.after
      have before := inside.before
      have near := inside.near
      refine ⟨(opening :: more).length + start, (opening :: more).length + stop, by omega, by omega,
        by omega, ?_, ?_, ?_, ?_⟩
      · rw [split, List.length_append]
        exact Nat.add_le_add_left inside.within _
      · intro other there
        rw [shift start] at there
        exact inside.opens other there
      · intro other there
        rw [shift stop] at there
        exact inside.closes other there
      · intro place afterPlace beforePlace feed
        obtain ⟨inner, rfl⟩ : ∃ inner, place = (opening :: more).length + inner :=
          ⟨place - (opening :: more).length, by omega⟩
        rw [shift inner] at feed
        exact inside.oneLine inner (by omega) (by omega) feed

/-- An offset of a text that is no boundary stands inside a character. -/
theorem inside_of_not_boundary {text : String} {offset : Nat}
    (within : offset ≤ (encodeChars text.toList).length) (apart : ¬CharBoundary text offset) :
    ∃ start stop, InsideChar (encodeChars text.toList) offset start stop := by
  cases located : (encodeChars text.toList)[offset]? with
  | none =>
    have beyond := List.getElem?_eq_none_iff.mp located
    have same : offset = (encodeChars text.toList).length := Nat.le_antisymm within beyond
    rw [same] at apart
    exact absurd (charBoundary_length text) apart
  | some byte =>
    apply inside_of_continues text.toList located
    by_contra opens
    exact apart (charBoundary_of_byte located opens)

end Texo.Foundation
