import Mathlib.Data.List.Basic
import Mathlib.Data.List.Induction
import Mathlib.Data.String.Basic

/-! # Separated fields and unsigned numerals

Text made of fields that a separator keeps apart, and the reader of an unsigned machine
integer. The reader is lenient (it takes a plus sign and leading zeros), so a number has
many spellings; exactly one of them is its decimal.
-/
namespace Texo.Foundation

/-- The digits of a numeral, without its plus sign. -/
def numeralDigits (text : List Char) : List Char :=
  if text.head? = some '+' then text.tail else text

/-- The value of an unsigned numeral: an optional plus sign and at least one digit, below
the bound. -/
def parseUnsigned (bound : Nat) (text : List Char) : Option Nat :=
  if numeralDigits text ≠ [] ∧ (numeralDigits text).all Char.isDigit = true ∧
      Nat.ofDigitChars 10 (numeralDigits text) 0 < bound then
    some (Nat.ofDigitChars 10 (numeralDigits text) 0)
  else
    none

/-- A numeral is plain when it has neither a plus sign nor a needless leading zero. -/
def PlainNumeral (text : List Char) : Prop :=
  text.head? ≠ some '+' ∧ (text.head? = some '0' → text = ['0'])

instance (text : List Char) : Decidable (PlainNumeral text) :=
  inferInstanceAs (Decidable (text.head? ≠ some '+' ∧ (text.head? = some '0' → text = ['0'])))

/-- Every character of a decimal is a digit. -/
theorem isDigit_of_mem_decimal {value : Nat} {c : Char} (member : c ∈ Nat.toDigits 10 value) :
    c.isDigit = true :=
  Nat.isDigit_of_mem_toDigits (by decide) (by decide) member

/-- A character that is not a digit is in no decimal. -/
theorem notMem_decimal {c : Char} (other : c.isDigit = false) (value : Nat) :
    c ∉ Nat.toDigits 10 value := by
  intro member
  have digit := isDigit_of_mem_decimal member
  rw [other] at digit
  exact absurd digit (by decide)

/-- The decimal of a positive number does not start with a zero. -/
theorem head_decimal_ne_zero {value : Nat} (positive : 0 < value) :
    (Nat.toDigits 10 value).head? ≠ some '0' := by
  induction value using Nat.strong_induction_on with
  | _ value ih =>
    by_cases short : value < 10
    · rw [Nat.toDigits_of_lt_base short]
      have nonzero : value ≠ 0 := by omega
      simpa using nonzero
    · rw [Nat.toDigits_of_base_le (by decide) (by omega),
        List.head?_append_of_ne_nil _ Nat.toDigits_ne_nil]
      apply ih (value / 10)
      · omega
      · omega

/-- A decimal is a plain numeral. -/
theorem plainNumeral_decimal (value : Nat) : PlainNumeral (Nat.toDigits 10 value) := by
  constructor
  · intro sign
    have member : '+' ∈ Nat.toDigits 10 value := List.mem_of_mem_head? (by simp [sign])
    have plus : '+'.isDigit = false := by decide
    exact notMem_decimal plus value member
  · intro zero
    by_cases positive : 0 < value
    · exact absurd zero (head_decimal_ne_zero positive)
    · have nothing : value = 0 := by omega
      rw [nothing]
      exact Nat.toDigits_zero 10

/-- A digit lies between zero and nine, and its value reads back as the digit. -/
theorem digitChar_of_isDigit {c : Char} (digit : c.isDigit = true) :
    (c.toNat - '0'.toNat).digitChar = c ∧ c.toNat - '0'.toNat < 10 := by
  have range : 48 ≤ c.toNat ∧ c.toNat ≤ 57 := by
    simp only [Char.isDigit, Bool.and_eq_true, decide_eq_true_eq, UInt32.le_iff_toNat_le] at digit
    exact digit
  have zero : '0'.toNat = 48 := by decide
  rw [zero]
  have small : c.toNat - 48 < 10 := by omega
  constructor
  · apply Char.toNat_inj.mp
    rw [Nat.toNat_digitChar_of_lt_ten small]
    omega
  · exact small

/-- Digits after a positive number extend its decimal. -/
theorem decimal_append {digits : List Char} (all : ∀ c ∈ digits, c.isDigit = true) {value : Nat}
    (positive : 0 < value) :
    Nat.toDigits 10 value ++ digits = Nat.toDigits 10 (Nat.ofDigitChars 10 digits value) := by
  induction digits generalizing value with
  | nil => simp
  | cons c rest ih =>
    obtain ⟨same, small⟩ := digitChar_of_isDigit (all c (by simp))
    have grown : Nat.toDigits 10 value ++ [c] =
        Nat.toDigits 10 (10 * value + (c.toNat - '0'.toNat)) := by
      rw [← Nat.toDigits_append_toDigits (by decide) positive small, Nat.toDigits_of_lt_base small,
        same]
    calc
      Nat.toDigits 10 value ++ c :: rest = (Nat.toDigits 10 value ++ [c]) ++ rest := by simp
      _ = Nat.toDigits 10 (10 * value + (c.toNat - '0'.toNat)) ++ rest := by rw [grown]
      _ = Nat.toDigits 10 (Nat.ofDigitChars 10 rest (10 * value + (c.toNat - '0'.toNat))) := by
        apply ih
        · exact fun other member => all other (by simp [member])
        · omega
      _ = Nat.toDigits 10 (Nat.ofDigitChars 10 (c :: rest) value) := by rw [Nat.ofDigitChars_cons]

/-- Digits without a needless leading zero are the decimal of their value. -/
theorem decimal_of_plain {digits : List Char} (nonempty : digits ≠ [])
    (all : ∀ c ∈ digits, c.isDigit = true) (plain : digits.head? = some '0' → digits = ['0']) :
    Nat.toDigits 10 (Nat.ofDigitChars 10 digits 0) = digits := by
  cases digits with
  | nil => exact absurd rfl nonempty
  | cons c rest =>
    obtain ⟨same, small⟩ := digitChar_of_isDigit (all c (by simp))
    by_cases zero : c = '0'
    · have single : c :: rest = ['0'] := plain (by rw [zero]; rfl)
      rw [single]
      decide
    · have positive : 0 < c.toNat - '0'.toNat := by
        by_contra nothing
        have none : c.toNat - '0'.toNat = 0 := by omega
        rw [none] at same
        exact zero same.symm
      have start : 10 * 0 + (c.toNat - '0'.toNat) = c.toNat - '0'.toNat := by omega
      rw [Nat.ofDigitChars_cons, start, ← decimal_append _ positive,
        Nat.toDigits_of_lt_base small, same]
      · rfl
      · exact fun other member => all other (by simp [member])

/-- What a numeral that reads as a number is made of. -/
theorem parseUnsigned_eq_some {bound value : Nat} {text : List Char} :
    parseUnsigned bound text = some value ↔
      (numeralDigits text ≠ [] ∧ (numeralDigits text).all Char.isDigit = true ∧
        Nat.ofDigitChars 10 (numeralDigits text) 0 < bound) ∧
      Nat.ofDigitChars 10 (numeralDigits text) 0 = value := by
  unfold parseUnsigned
  rw [Option.ite_none_right_eq_some, Option.some.injEq]

/-- A decimal below the bound reads as its number. -/
theorem parseUnsigned_decimal {bound value : Nat} (below : value < bound) :
    parseUnsigned bound (Nat.toDigits 10 value) = some value := by
  have unsigned : (Nat.toDigits 10 value).head? ≠ some '+' := (plainNumeral_decimal value).1
  have all : (Nat.toDigits 10 value).all Char.isDigit = true :=
    List.all_eq_true.mpr fun _ member => isDigit_of_mem_decimal member
  have inside : Nat.ofDigitChars 10 (Nat.toDigits 10 value) 0 < bound := by
    rw [Nat.ofDigitChars_ten_toDigits]
    exact below
  unfold parseUnsigned
  rw [numeralDigits, if_neg unsigned, if_pos ⟨Nat.toDigits_ne_nil, all, inside⟩,
    Nat.ofDigitChars_ten_toDigits]

/-- A numeral that reads as a number is its decimal exactly when it is plain. -/
theorem decimal_iff_plain {bound value : Nat} {text : List Char}
    (parsed : parseUnsigned bound text = some value) :
    Nat.toDigits 10 value = text ↔ PlainNumeral text := by
  constructor
  · intro same
    rw [← same]
    exact plainNumeral_decimal value
  · intro plain
    obtain ⟨⟨nonempty, all, _⟩, read⟩ := parseUnsigned_eq_some.mp parsed
    rw [numeralDigits, if_neg plain.1] at nonempty all read
    rw [← read]
    exact decimal_of_plain nonempty (List.all_eq_true.mp all) plain.2

/-- A decimal reads as its number or not at all. -/
theorem value_of_parse_decimal {bound number value : Nat}
    (parsed : parseUnsigned bound (Nat.toDigits 10 number) = some value) : value = number := by
  have digits := (decimal_iff_plain parsed).mpr (plainNumeral_decimal number)
  have values := congrArg (fun digits => Nat.ofDigitChars 10 digits 0) digits
  simpa only [Nat.ofDigitChars_ten_toDigits] using values

/-- The text around the last separator is determined by the whole. -/
theorem append_cons_inj_last {Item : Type} {separator : Item} {left left' right right' : List Item}
    (clear : separator ∉ right) (clear' : separator ∉ right')
    (same : left ++ separator :: right = left' ++ separator :: right') :
    left = left' ∧ right = right' := by
  induction left generalizing left' with
  | nil =>
    cases left' with
    | nil =>
      have tails : right = right' := by simpa using same
      exact ⟨rfl, tails⟩
    | cons head rest =>
      have later : right = rest ++ separator :: right' := by
        have both : separator = head ∧ right = rest ++ separator :: right' := by simpa using same
        exact both.2
      exact absurd (by simp [later]) clear
  | cons head rest ih =>
    cases left' with
    | nil =>
      have later : rest ++ separator :: right = right' := by
        have both : head = separator ∧ rest ++ separator :: right = right' := by simpa using same
        exact both.2
      exact absurd (by simp [← later]) clear'
    | cons head' rest' =>
      have both : head = head' ∧ rest ++ separator :: right = rest' ++ separator :: right' := by
        simpa using same
      obtain ⟨lefts, rights⟩ := ih both.2
      exact ⟨by rw [both.1, lefts], rights⟩

end Texo.Foundation
