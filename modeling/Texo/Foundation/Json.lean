import Mathlib.Algebra.GroupWithZero.Nat
import Mathlib.Data.List.Basic

/-! # JSON values

Values as a JSON library holds them, the fields of an object in the order of their keys, and the
compact text they are written as. A written value has no line break.
-/
namespace Texo.Foundation.Json

/-- A character of a written number. -/
def numberChar (c : Char) : Bool :=
  c.isDigit || c = '-' || c = '+' || c = '.' || c = 'e' || c = 'E'

/-- A number, by the text it is written as. -/
structure Number where
  text : List Char
  plain : ∀ c ∈ text, numberChar c = true

/-- A JSON value. -/
inductive Value where
  | null
  | bool (value : Bool)
  | number (value : Number)
  | string (value : String)
  | array (items : List Value)
  | object (fields : List (String × Value))

/-- The digits of a number are characters of numbers. -/
theorem numberChar_repr (value : Nat) : ∀ c ∈ (Nat.repr value).toList, numberChar c = true := by
  intro c member
  have digit : c.isDigit = true := by
    rw [Nat.toList_repr] at member
    exact Nat.isDigit_of_mem_toDigits (by decide) (by decide) member
  unfold numberChar
  rw [digit]
  rfl

/-- A natural number. -/
def Number.ofNat (value : Nat) : Number := ⟨(Nat.repr value).toList, numberChar_repr value⟩

/-- A negative number. -/
def Number.negative (value : Nat) : Number where
  text := '-' :: (Nat.repr value).toList
  plain := by
    intro c member
    cases List.mem_cons.mp member with
    | inl lead =>
      rw [lead]
      decide
    | inr digit => exact numberChar_repr value c digit

/-- `Number::as_u64`: digits only, within 64 bits. -/
def Number.asU64 (value : Number) : Option Nat :=
  ((String.ofList value.text).toNat?).filter fun number => number < 2 ^ 64

/-- `Value::get`. -/
def Value.get (value : Value) (key : String) : Option Value :=
  match value with
  | .object fields => fields.lookup key
  | _ => none

/-- `Value::as_str`. -/
def Value.asStr : Value → Option String
  | .string value => some value
  | _ => none

/-- `Value::as_bool`. -/
def Value.asBool : Value → Option Bool
  | .bool value => some value
  | _ => none

/-- `Value::as_u64`. -/
def Value.asU64 : Value → Option Nat
  | .number value => value.asU64
  | _ => none

/-- `Value::as_array`. -/
def Value.asArray : Value → Option (List Value)
  | .array items => some items
  | _ => none

/-- `Map::insert`, into fields in the order of their keys. -/
def insertField (key : String) (value : Value) : List (String × Value) → List (String × Value)
  | [] => [(key, value)]
  | (other, kept) :: fields =>
    if key = other then (key, value) :: fields
    else if key < other then (key, value) :: (other, kept) :: fields
    else (other, kept) :: insertField key value fields

/-- `json!` of an object. -/
def Value.ofFields (fields : List (String × Value)) : Value :=
  .object (fields.foldl (fun made field => insertField field.1 field.2 made) [])

/-- An inserted field is looked up, and the others are as they were. -/
theorem lookup_insertField (wanted key : String) (value : Value) (fields : List (String × Value)) :
    (insertField key value fields).lookup wanted =
      if wanted = key then some value else fields.lookup wanted := by
  induction fields with
  | nil =>
    rw [insertField, List.lookup_cons]
    by_cases same : wanted = key
    · rw [if_pos same, same, beq_self_eq_true]
    · rw [if_neg same, beq_eq_false_iff_ne.mpr same]
  | cons field fields ih =>
    obtain ⟨other, kept⟩ := field
    unfold insertField
    by_cases replaces : key = other
    · rw [if_pos replaces, List.lookup_cons]
      by_cases same : wanted = key
      · rw [if_pos same, same, beq_self_eq_true]
      · have apart : wanted ≠ other := fun equal => same (equal.trans replaces.symm)
        rw [if_neg same, beq_eq_false_iff_ne.mpr same, List.lookup_cons,
          beq_eq_false_iff_ne.mpr apart]
    · rw [if_neg replaces]
      by_cases before : key < other
      · rw [if_pos before, List.lookup_cons]
        by_cases same : wanted = key
        · rw [if_pos same, same, beq_self_eq_true]
        · rw [if_neg same, beq_eq_false_iff_ne.mpr same]
      · rw [if_neg before, List.lookup_cons, List.lookup_cons, ih]
        by_cases same : wanted = key
        · have apart : wanted ≠ other := fun equal => replaces (same.symm.trans equal)
          rw [if_pos same, if_pos same, beq_eq_false_iff_ne.mpr apart]
        · rw [if_neg same, if_neg same]

/-- A hexadecimal digit. -/
def hexDigitChar (digit : Nat) : Char := Nat.digitChar (digit % 16)

/-- A character of a string, as it is written. -/
def escapeChar (c : Char) : List Char :=
  if c.toNat = 34 ∨ c = '\\' then ['\\', c]
  else if c.toNat = 8 then ['\\', 'b']
  else if c = '\t' then ['\\', 't']
  else if c = '\n' then ['\\', 'n']
  else if c.toNat = 12 then ['\\', 'f']
  else if c = '\r' then ['\\', 'r']
  else if c.toNat < 32 then
    ['\\', 'u', '0', '0', hexDigitChar (c.toNat / 16), hexDigitChar c.toNat]
  else [c]

/-- A string, as it is written. -/
def writeString (value : String) : List Char :=
  Char.ofNat 34 :: (value.toList.flatMap escapeChar ++ [Char.ofNat 34])

mutual

/-- The compact text of a value. -/
def Value.write : Value → List Char
  | .null => "null".toList
  | .bool true => "true".toList
  | .bool false => "false".toList
  | .number value => value.text
  | .string value => writeString value
  | .array items => '[' :: (List.intercalate [','] (writeItems items) ++ [']'])
  | .object fields => '\x7b' :: (List.intercalate [','] (writeFields fields) ++ ['\x7d'])

/-- The texts of items. -/
def writeItems : List Value → List (List Char)
  | [] => []
  | item :: items => item.write :: writeItems items

/-- The texts of fields. -/
def writeFields : List (String × Value) → List (List Char)
  | [] => []
  | (key, value) :: fields => (writeString key ++ ':' :: value.write) :: writeFields fields

end

/-- No hexadecimal digit is a line break. -/
theorem hexDigitChar_ne (digit : Nat) : hexDigitChar digit ≠ '\n' := by
  have digits : ∀ value < 16, Nat.digitChar value ≠ '\n' := by decide
  exact digits _ (Nat.mod_lt _ (by decide))

/-- A written character has no line break. -/
theorem newline_notMem_escapeChar (c : Char) : '\n' ∉ escapeChar c := by
  unfold escapeChar
  split
  · rename_i quoted
    intro member
    have broken : '\n' = c := by simpa using member
    rw [← broken] at quoted
    exact absurd quoted (by decide)
  · split
    · decide
    · split
      · decide
      · split
        · decide
        · split
          · decide
          · split
            · decide
            · split
              · intro member
                simp only [List.mem_cons, List.not_mem_nil, or_false] at member
                have high := hexDigitChar_ne (c.toNat / 16)
                have low := hexDigitChar_ne c.toNat
                rcases member with found | found | found | found | found | found
                · exact absurd found (by decide)
                · exact absurd found (by decide)
                · exact absurd found (by decide)
                · exact absurd found (by decide)
                · exact high found.symm
                · exact low found.symm
              · rename_i unbroken _ _ _
                intro member
                exact unbroken (List.mem_singleton.mp member).symm

/-- A written string has no line break. -/
theorem newline_notMem_writeString (value : String) : '\n' ∉ writeString value := by
  unfold writeString
  intro member
  cases List.mem_cons.mp member with
  | inl quote => exact absurd quote (by decide)
  | inr rest =>
    cases List.mem_append.mp rest with
    | inl inside =>
      obtain ⟨c, _, broken⟩ := List.mem_flatMap.mp inside
      exact newline_notMem_escapeChar c broken
    | inr quote => exact absurd quote (by decide)

/-- Texts between brackets and commas have no line break if none of them has one. -/
theorem newline_notMem_joined {texts : List (List Char)} (clear : ∀ text ∈ texts, '\n' ∉ text)
    {start stop : Char} (opens : start ≠ '\n') (closes : stop ≠ '\n') :
    '\n' ∉ start :: (List.intercalate [','] texts ++ [stop]) := by
  have joined : '\n' ∉ List.intercalate [','] texts := by
    induction texts with
    | nil => exact List.not_mem_nil
    | cons text texts ih =>
      have later := ih fun other member => clear other (List.mem_cons_of_mem text member)
      have here := clear text List.mem_cons_self
      cases texts with
      | nil => simpa [List.intercalate] using here
      | cons next texts =>
        rw [List.intercalate_cons_cons]
        intro member
        cases List.mem_append.mp member with
        | inl front =>
          cases List.mem_append.mp front with
          | inl inside => exact here inside
          | inr comma => exact absurd comma (by decide)
        | inr rest => exact later rest
  intro member
  cases List.mem_cons.mp member with
  | inl first => exact opens first.symm
  | inr rest =>
    cases List.mem_append.mp rest with
    | inl inside => exact joined inside
    | inr last => exact closes (List.mem_singleton.mp last).symm

mutual

/-- A written value has no line break. -/
theorem newline_notMem_write : ∀ value : Value, '\n' ∉ value.write
  | .null => by decide
  | .bool true => by decide
  | .bool false => by decide
  | .number value => by
    intro member
    exact absurd (value.plain _ member) (by decide)
  | .string value => newline_notMem_writeString value
  | .array items => newline_notMem_joined (newline_notMem_writeItems items) (by decide) (by decide)
  | .object fields =>
    newline_notMem_joined (newline_notMem_writeFields fields) (by decide) (by decide)

/-- Written items have no line breaks. -/
theorem newline_notMem_writeItems : ∀ items : List Value, ∀ text ∈ writeItems items, '\n' ∉ text
  | [], _, member => absurd member List.not_mem_nil
  | item :: items, text, member => by
    cases List.mem_cons.mp member with
    | inl same =>
      rw [same]
      exact newline_notMem_write item
    | inr later => exact newline_notMem_writeItems items text later

/-- Written fields have no line breaks. -/
theorem newline_notMem_writeFields :
    ∀ fields : List (String × Value), ∀ text ∈ writeFields fields, '\n' ∉ text
  | [], _, member => absurd member List.not_mem_nil
  | (key, value) :: fields, text, member => by
    cases List.mem_cons.mp member with
    | inl same =>
      rw [same]
      intro broken
      cases List.mem_append.mp broken with
      | inl inKey => exact newline_notMem_writeString key inKey
      | inr behind =>
        cases List.mem_cons.mp behind with
        | inl colon => exact absurd colon (by decide)
        | inr inValue => exact newline_notMem_write value inValue
    | inr later => exact newline_notMem_writeFields fields text later

end

end Texo.Foundation.Json
