import Mathlib.Data.Rat.Floor
import Mathlib.Tactic.Positivity
import Mathlib.Tactic.Linarith
import Texo.Error

/-! # Fixed-point scores

A model score is a 32-bit float; what the journal keeps of it is an integer in parts per million.
The conversion works on the bits of the float alone and is exact on the values between zero and
one.
-/
namespace Texo.Semantics

/-- `PPM_SCALE`. -/
def ppmScale : Nat := 1000000

/-- The sign bit of a float. -/
def signBit (bits : BitVec 32) : Bool := bits.toNat >>> 31 = 1

/-- The exponent field of a float. -/
def rawExponent (bits : BitVec 32) : Nat := (bits.toNat >>> 23) &&& 0xff

/-- The fraction field of a float. -/
def fraction (bits : BitVec 32) : Nat := bits.toNat &&& 0x7fffff

/-- What a float stands for. -/
inductive FloatReading where
  | nan
  | infinite (negative : Bool)
  | finite (value : ℚ)
deriving DecidableEq

/-- The size of a finite float. -/
def floatMagnitude (bits : BitVec 32) : ℚ :=
  if rawExponent bits = 0 then (fraction bits : ℚ) / 2 ^ 149
  else ((2 ^ 23 + fraction bits : Nat) : ℚ) * 2 ^ rawExponent bits / 2 ^ 150

/-- The reading of the bits of a float. -/
def floatReading (bits : BitVec 32) : FloatReading :=
  if rawExponent bits = 255 then
    if fraction bits = 0 then .infinite (signBit bits) else .nan
  else .finite (if signBit bits then -floatMagnitude bits else floatMagnitude bits)

/-- `score <= bound`. -/
def FloatReading.atMost (score : FloatReading) (bound : ℚ) : Bool :=
  match score with
  | .nan => false
  | .infinite negative => negative
  | .finite value => value ≤ bound

/-- `score >= bound`. -/
def FloatReading.atLeast (score : FloatReading) (bound : ℚ) : Bool :=
  match score with
  | .nan => false
  | .infinite negative => !negative
  | .finite value => bound ≤ value

/-- `i32::saturating_sub`. -/
def saturatingSub32 (a b : Int) : Int := max (-2 ^ 31) (min (2 ^ 31 - 1) (a - b))

/-- `u64::checked_shl` of one. -/
def checkedShl64 (shift : Nat) : Option Nat := if shift < 64 then some (1 <<< shift) else none

/-- `u64::saturating_mul`. -/
def saturatingMul (a b : Nat) : Nat := min (a * b) (2 ^ 64 - 1)

/-- The mantissa of a normal float, its leading bit in place. -/
def scoreMantissa (bits : BitVec 32) : Nat := fraction bits ||| (1 <<< 23)

/-- How far the mantissa of a float lies below the unit. -/
def scoreShift (bits : BitVec 32) : Int := saturatingSub32 23 ((rawExponent bits : Int) - 127)

/-- `unit_interval_to_ppm`. -/
def unitIntervalToPpm (bits : BitVec 32) : Nat :=
  let score := floatReading bits
  if score = .nan ∨ score.atMost 0 then 0
  else if score.atLeast 1 then ppmScale
  else if rawExponent bits = 0 then 0
  else if scoreShift bits < 0 then 0
  else
    match checkedShl64 (scoreShift bits).toNat with
    | none => 0
    | some denominator =>
      let numerator := saturatingMul (scoreMantissa bits) ppmScale
      let rounded := saturatingAdd numerator (denominator / 2) / denominator
      min (if rounded < 2 ^ 32 then rounded else ppmScale) ppmScale

/-- A normal float strictly between zero and one. -/
structure NormalUnit (bits : BitVec 32) (value : ℚ) : Prop where
  normal : rawExponent bits ≠ 0
  reading : floatReading bits = .finite value
  positive : 0 < value
  below : value < 1

/-- The fraction field has 23 bits. -/
theorem fraction_lt (bits : BitVec 32) : fraction bits < 2 ^ 23 := by
  have masked : fraction bits = bits.toNat % 2 ^ 23 := Nat.and_two_pow_sub_one_eq_mod _ 23
  rw [masked]
  exact Nat.mod_lt _ (by decide)

/-- The mantissa is the fraction under a leading bit. -/
theorem scoreMantissa_eq (bits : BitVec 32) : scoreMantissa bits = 2 ^ 23 + fraction bits := by
  have joined := Nat.two_pow_add_eq_or_of_lt (fraction_lt bits) 1
  rw [Nat.mul_one] at joined
  rw [joined, scoreMantissa, Nat.or_comm]
  rfl

/-- The exponent field has eight bits. -/
theorem rawExponent_le (bits : BitVec 32) : rawExponent bits ≤ 255 := Nat.and_le_right

/-- The shift of a float, without saturation. -/
theorem scoreShift_eq (bits : BitVec 32) : scoreShift bits = 150 - (rawExponent bits : Int) := by
  have bound := rawExponent_le bits
  unfold scoreShift saturatingSub32
  omega

/-- The scaled mantissa is far below the width. -/
theorem scaled_lt (bits : BitVec 32) : scoreMantissa bits * ppmScale < 2 ^ 44 := by
  have small := fraction_lt bits
  rw [scoreMantissa_eq, ppmScale]
  omega

/-- A shift that is carried out is below the width. -/
theorem checkedShl64_eq_some {shift denominator : Nat} :
    checkedShl64 shift = some denominator ↔ shift < 64 ∧ denominator = 2 ^ shift := by
  unfold checkedShl64
  by_cases inside : shift < 64
  · rw [if_pos inside, Nat.one_shiftLeft, Option.some.injEq]
    constructor
    · intro same
      exact ⟨inside, same.symm⟩
    · intro ⟨_, same⟩
      exact same.symm
  · rw [if_neg inside]
    constructor
    · intro impossible
      cases impossible
    · intro ⟨possible, _⟩
      exact absurd possible inside

/-- The exponent field of a normal float strictly between zero and one. -/
theorem NormalUnit.exponent_lt {bits : BitVec 32} {value : ℚ} (unit : NormalUnit bits value) :
    rawExponent bits < 127 ∧ value = floatMagnitude bits := by
  have reading := unit.reading
  unfold floatReading at reading
  have magnitude : 0 ≤ floatMagnitude bits := by
    unfold floatMagnitude
    split <;> positivity
  by_cases special : rawExponent bits = 255
  · rw [if_pos special] at reading
    split at reading <;> cases reading
  · rw [if_neg special] at reading
    have same := FloatReading.finite.inj reading
    have positive := unit.positive
    by_cases negative : signBit bits = true
    · rw [if_pos negative] at same
      linarith
    · rw [if_neg negative] at same
      refine ⟨?_, same.symm⟩
      by_contra large
      have below := unit.below
      rw [← same, floatMagnitude, if_neg unit.normal, div_lt_one (by positivity)] at below
      have lead : (2 ^ 23 : ℚ) ≤ ((2 ^ 23 + fraction bits : Nat) : ℚ) := by
        push_cast
        have := Nat.cast_nonneg (α := ℚ) (fraction bits)
        linarith
      have scale : (2 : ℚ) ^ 127 ≤ 2 ^ rawExponent bits :=
        pow_le_pow_right₀ (by norm_num) (by omega)
      have product : (2 ^ 23 : ℚ) * 2 ^ 127 ≤
          ((2 ^ 23 + fraction bits : Nat) : ℚ) * 2 ^ rawExponent bits := by gcongr
      have whole : (2 ^ 23 : ℚ) * 2 ^ 127 = 2 ^ 150 := by norm_num
      linarith

/-- The rounded quotient is the rounded value. -/
theorem floor_scaled {bits : BitVec 32} {value : ℚ} (unit : NormalUnit bits value) :
    ⌊value * 10 ^ 6 + 1 / 2⌋₊ =
      (scoreMantissa bits * ppmScale + 2 ^ (150 - rawExponent bits) / 2) /
        2 ^ (150 - rawExponent bits) := by
  obtain ⟨small, same⟩ := unit.exponent_lt
  obtain ⟨half, split⟩ : ∃ half, 150 - rawExponent bits = half + 1 :=
    ⟨149 - rawExponent bits, by omega⟩
  have whole : (2 : ℚ) ^ 150 = 2 ^ rawExponent bits * 2 ^ (half + 1) := by
    rw [← pow_add]
    congr 1
    omega
  have quotient : value * 10 ^ 6 + 1 / 2 =
      ((scoreMantissa bits * ppmScale + 2 ^ half : Nat) : ℚ) / ((2 ^ (half + 1) : Nat) : ℚ) := by
    rw [same, floatMagnitude, if_neg unit.normal, whole, scoreMantissa_eq, ppmScale]
    push_cast
    have nonzero : (2 : ℚ) ^ rawExponent bits ≠ 0 := by positivity
    rw [pow_succ]
    field_simp
    ring
  have halved : 2 ^ (half + 1) / 2 = 2 ^ half := by
    rw [pow_succ, Nat.mul_div_cancel _ (by decide)]
  rw [quotient, split, halved, Rat.natFloor_natCast_div_natCast]

/-- A part of the denominator, scaled and rounded, is at most the scale. -/
theorem rounded_le {part denominator scale : Nat} (inside : part < denominator) :
    (part * scale + denominator / 2) / denominator ≤ scale := by
  have scaled : part * scale ≤ denominator * scale := Nat.mul_le_mul_right scale (by omega)
  have below : part * scale + denominator / 2 < denominator * (scale + 1) := by
    rw [Nat.mul_succ]
    omega
  exact Nat.lt_succ_iff.mp (Nat.div_lt_of_lt_mul below)

/-- The conversion of a normal float strictly between zero and one is its quotient, rounded. -/
theorem unitIntervalToPpm_eq {bits : BitVec 32} {value : ℚ} (unit : NormalUnit bits value) :
    unitIntervalToPpm bits =
      (scoreMantissa bits * ppmScale + 2 ^ (150 - rawExponent bits) / 2) /
        2 ^ (150 - rawExponent bits) := by
  obtain ⟨small, _⟩ := unit.exponent_lt
  have real : ¬ (floatReading bits = .nan ∨ (floatReading bits).atMost 0 = true) := by
    rw [unit.reading]
    simp [FloatReading.atMost, unit.positive]
  have inner : ¬ (floatReading bits).atLeast 1 = true := by
    rw [unit.reading]
    simp [FloatReading.atLeast, unit.below]
  have shift : (scoreShift bits).toNat = 150 - rawExponent bits := by
    rw [scoreShift_eq]
    omega
  have downward : ¬ scoreShift bits < 0 := by
    rw [scoreShift_eq]
    omega
  have scaled := scaled_lt bits
  unfold unitIntervalToPpm
  dsimp only
  rw [if_neg real, if_neg inner, if_neg unit.normal, if_neg downward, shift]
  by_cases inside : 150 - rawExponent bits < 64
  · rw [checkedShl64_eq_some.mpr ⟨inside, rfl⟩]
    dsimp only
    have power : 2 ^ (150 - rawExponent bits) ≤ 2 ^ 63 :=
      Nat.pow_le_pow_right (by decide) (by omega)
    have multiplied : saturatingMul (scoreMantissa bits) ppmScale =
        scoreMantissa bits * ppmScale := by
      unfold saturatingMul
      omega
    have added : saturatingAdd (scoreMantissa bits * ppmScale)
        (2 ^ (150 - rawExponent bits) / 2) =
          scoreMantissa bits * ppmScale + 2 ^ (150 - rawExponent bits) / 2 := by
      unfold saturatingAdd
      omega
    rw [multiplied, added]
    have low : 2 ^ 24 ≤ 2 ^ (150 - rawExponent bits) :=
      Nat.pow_le_pow_right (by decide) (by omega)
    have mantissa : scoreMantissa bits < 2 ^ 24 := by
      have := fraction_lt bits
      rw [scoreMantissa_eq]
      omega
    have bounded : (scoreMantissa bits * ppmScale + 2 ^ (150 - rawExponent bits) / 2) /
        2 ^ (150 - rawExponent bits) ≤ ppmScale :=
      rounded_le (by omega)
    have narrow : (scoreMantissa bits * ppmScale + 2 ^ (150 - rawExponent bits) / 2) /
        2 ^ (150 - rawExponent bits) < 2 ^ 32 :=
      Nat.lt_of_le_of_lt bounded (by decide)
    rw [if_pos narrow, Nat.min_eq_left bounded]
  · have refused : checkedShl64 (150 - rawExponent bits) = none := if_neg inside
    rw [refused]
    dsimp only
    have power : 2 ^ 64 ≤ 2 ^ (150 - rawExponent bits) :=
      Nat.pow_le_pow_right (by decide) (by omega)
    symm
    apply Nat.div_eq_of_lt
    omega

/-- The conversion never exceeds its scale. -/
theorem unitIntervalToPpm_le (bits : BitVec 32) : unitIntervalToPpm bits ≤ ppmScale := by
  unfold unitIntervalToPpm
  dsimp only
  split
  · exact Nat.zero_le _
  · split
    · exact Nat.le_refl _
    · split
      · exact Nat.zero_le _
      · split
        · exact Nat.zero_le _
        · split
          · exact Nat.zero_le _
          · exact Nat.min_le_right _ _

/-- No step of the conversion leaves its width: the product, the shift that is carried out and the
sum are what they are without a bound. -/
structure StaysInWidth (bits : BitVec 32) : Prop where
  shift : scoreShift bits = 23 - ((rawExponent bits : Int) - 127)
  product : saturatingMul (scoreMantissa bits) ppmScale = scoreMantissa bits * ppmScale
  shifted : ∀ denominator, checkedShl64 (scoreShift bits).toNat = some denominator →
    (scoreShift bits).toNat < 64 ∧ denominator = 2 ^ (scoreShift bits).toNat ∧
      denominator < 2 ^ 64
  sum : ∀ denominator, checkedShl64 (scoreShift bits).toNat = some denominator →
    saturatingAdd (scoreMantissa bits * ppmScale) (denominator / 2) =
      scoreMantissa bits * ppmScale + denominator / 2

/-- Every float is converted within the width. -/
theorem staysInWidth (bits : BitVec 32) : StaysInWidth bits where
  shift := by
    rw [scoreShift_eq]
    omega
  product := by
    have scaled := scaled_lt bits
    unfold saturatingMul
    omega
  shifted := by
    intro denominator carried
    obtain ⟨inside, same⟩ := checkedShl64_eq_some.mp carried
    have bound : 2 ^ (scoreShift bits).toNat < 2 ^ 64 := Nat.pow_lt_pow_right (by decide) inside
    exact ⟨inside, same, by omega⟩
  sum := by
    intro denominator carried
    obtain ⟨inside, same⟩ := checkedShl64_eq_some.mp carried
    have bound : 2 ^ (scoreShift bits).toNat ≤ 2 ^ 63 :=
      Nat.pow_le_pow_right (by decide) (by omega)
    have scaled := scaled_lt bits
    unfold saturatingAdd
    omega

/-- The conversion of scores. For every float it stays within its scale and its widths; on a
normal float strictly between zero and one it is the value in parts per million, rounded to the
nearest integer, and grows with the value. -/
theorem unitIntervalToPpm_exact (bits : BitVec 32) :
    unitIntervalToPpm bits ≤ 1000000 ∧
      (∀ value, NormalUnit bits value →
        unitIntervalToPpm bits = ⌊value * 10 ^ 6 + 1 / 2⌋₊) ∧
      (∀ other value larger, NormalUnit bits value → NormalUnit other larger → value ≤ larger →
        unitIntervalToPpm bits ≤ unitIntervalToPpm other) ∧
      StaysInWidth bits := by
  have exact : ∀ bits value, NormalUnit bits value →
      unitIntervalToPpm bits = ⌊value * 10 ^ 6 + 1 / 2⌋₊ := by
    intro bits value unit
    rw [unitIntervalToPpm_eq unit, floor_scaled unit]
  refine ⟨unitIntervalToPpm_le bits, exact bits, ?_, staysInWidth bits⟩
  intro other value larger unit above ordered
  rw [exact bits value unit, exact other larger above]
  apply Nat.floor_le_floor
  linarith

/-- One half is a normal float strictly between zero and one. -/
theorem normalUnit_half : NormalUnit 0x3F000000#32 (1 / 2) where
  normal := by decide
  reading := by decide +kernel
  positive := by norm_num
  below := by norm_num

/-- One quarter is a normal float strictly between zero and one. -/
theorem normalUnit_quarter : NormalUnit 0x3E800000#32 (1 / 4) where
  normal := by decide
  reading := by decide +kernel
  positive := by norm_num
  below := by norm_num

/-- One quarter in parts per million, below one half. -/
theorem unitIntervalToPpm_quarter :
    unitIntervalToPpm 0x3E800000#32 = ⌊(1 / 4 : ℚ) * 10 ^ 6 + 1 / 2⌋₊ ∧
      unitIntervalToPpm 0x3E800000#32 ≤ unitIntervalToPpm 0x3F000000#32 := by
  obtain ⟨_, rounded, grows, _⟩ := unitIntervalToPpm_exact 0x3E800000#32
  exact ⟨rounded _ normalUnit_quarter,
    grows _ _ _ normalUnit_quarter normalUnit_half (by norm_num)⟩

end Texo.Semantics
