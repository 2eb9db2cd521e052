import Texo.CodeIndex.Source
import Texo.Foundation.CharBoundary

/-! # The context of an occurrence

`source_context` widens an occurrence to its lines, cuts it to the length of an excerpt around the
occurrence and moves both ends to character boundaries. Whatever the widening and the cut do, the
range stays between the occurrence and its line bounds, so the boundary search always has the
occurrence itself to stop at.
-/
namespace Texo.CodeIndex
open Texo.Foundation Texo.Events Texo.Knowledge Texo.Ops

/-- A byte of a slice is a byte of the whole at an offset inside the range. -/
theorem mem_byteSlice {bytes : List UInt8} {first last : Nat} {byte : UInt8} :
    byte ∈ byteSlice bytes (first, last) ↔
      ∃ offset, first ≤ offset ∧ offset < last ∧ bytes[offset]? = some byte := by
  unfold byteSlice
  rw [List.mem_iff_getElem?]
  constructor
  · rintro ⟨place, located⟩
    rw [List.getElem?_take] at located
    split at located
    · rename_i inside
      rw [List.getElem?_drop] at located
      exact ⟨first + place, by omega, by omega, located⟩
    · cases located
  · rintro ⟨offset, after, before, located⟩
    refine ⟨offset - first, ?_⟩
    rw [List.getElem?_take, if_pos (by omega), List.getElem?_drop]
    rw [show first + (offset - first) = offset by omega]
    exact located

/-- A slice within a slice misses what the wider one misses. -/
theorem notMem_byteSlice_of_within {bytes : List UInt8} {first last inner outer : Nat} {byte : UInt8}
    (clear : byte ∉ byteSlice bytes (first, last)) (left : first ≤ inner) (right : outer ≤ last) :
    byte ∉ byteSlice bytes (inner, outer) := by
  intro member
  obtain ⟨offset, after, before, located⟩ := mem_byteSlice.mp member
  apply clear
  exact mem_byteSlice.mpr ⟨offset, by omega, by omega, located⟩

/-- The line of an offset starts at or before it, with no line feed in between. -/
theorem lineStartOf_spec {bytes : List UInt8} {offset : Nat} (within : offset ≤ bytes.length) :
    lineStartOf bytes offset ≤ offset ∧ 10 ∉ byteSlice bytes (lineStartOf bytes offset, offset) := by
  have size : (bytes.take offset).length = offset := List.length_take_of_le within
  unfold lineStartOf
  cases search : (bytes.take offset).reverse.findIdx? (· == 10) with
  | none =>
    refine ⟨Nat.zero_le _, ?_⟩
    intro member
    have all := List.findIdx?_eq_none_iff.mp search
    unfold byteSlice at member
    have inside : (10 : UInt8) ∈ (bytes.take offset).reverse := by
      rw [List.mem_reverse]
      simpa using member
    have apart := all 10 inside
    cases apart
  | some back =>
    obtain ⟨short, feed, before⟩ := List.findIdx?_eq_some_iff_getElem.mp search
    rw [List.length_reverse, size] at short
    refine ⟨Nat.sub_le _ _, ?_⟩
    intro member
    obtain ⟨place, after, under, located⟩ := mem_byteSlice.mp member
    have lower : offset - back ≤ place := after
    have nearer : offset - 1 - place < back := by omega
    have apart := before (offset - 1 - place) nearer
    have read : (bytes.take offset).reverse[offset - 1 - place]? = some 10 := by
      rw [List.getElem?_reverse (by omega), size, List.getElem?_take, if_pos (by omega)]
      rw [show offset - 1 - (offset - 1 - place) = place by omega]
      exact located
    have there := (List.getElem?_eq_some_iff.mp read).2
    rw [there] at apart
    exact apart rfl

/-- The line of an offset ends at or after it, with no line feed in between. -/
theorem lineEndOf_spec {bytes : List UInt8} {offset : Nat} (within : offset ≤ bytes.length) :
    offset ≤ lineEndOf bytes offset ∧ lineEndOf bytes offset ≤ bytes.length ∧
      10 ∉ byteSlice bytes (offset, lineEndOf bytes offset) := by
  have size : (bytes.drop offset).length = bytes.length - offset := List.length_drop
  unfold lineEndOf
  cases search : (bytes.drop offset).findIdx? (· == 10) with
  | none =>
    refine ⟨within, Nat.le_refl _, ?_⟩
    intro member
    have inside : (10 : UInt8) ∈ bytes.drop offset := List.mem_of_mem_take member
    have apart := List.findIdx?_eq_none_iff.mp search 10 inside
    cases apart
  | some ahead =>
    obtain ⟨short, feed, before⟩ := List.findIdx?_eq_some_iff_getElem.mp search
    refine ⟨Nat.le_add_right _ _, by show offset + ahead ≤ _; omega, ?_⟩
    intro member
    obtain ⟨place, after, under, located⟩ := mem_byteSlice.mp member
    have upper : place < offset + ahead := under
    have apart := before (place - offset) (by omega)
    have read : (bytes.drop offset)[place - offset]? = some 10 := by
      rw [List.getElem?_drop, show offset + (place - offset) = place by omega]
      exact located
    have there := (List.getElem?_eq_some_iff.mp read).2
    rw [there] at apart
    exact apart rfl

/-- A line starts at the start of the file or behind a line feed. -/
theorem lineStartOf_feed {bytes : List UInt8} {offset : Nat} (within : offset ≤ bytes.length)
    (positive : 0 < lineStartOf bytes offset) : bytes[lineStartOf bytes offset - 1]? = some 10 := by
  have size : (bytes.take offset).length = offset := List.length_take_of_le within
  unfold lineStartOf at positive ⊢
  cases search : (bytes.take offset).reverse.findIdx? (· == 10) with
  | none =>
    rw [search] at positive
    cases positive
  | some back =>
    obtain ⟨short, feed, _⟩ := List.findIdx?_eq_some_iff_getElem.mp search
    have read : (bytes.take offset).reverse[back]? = some 10 := by
      rw [List.getElem?_eq_getElem short]
      exact congrArg some (beq_iff_eq.mp feed)
    rw [List.length_reverse, size] at short
    rw [List.getElem?_reverse (by omega), size, List.getElem?_take, if_pos (by omega)] at read
    show bytes[offset - back - 1]? = some 10
    rw [show offset - back - 1 = offset - 1 - back by omega]
    exact read

/-- A line ends at the end of the file or at a line feed. -/
theorem lineEndOf_feed {bytes : List UInt8} {offset : Nat}
    (before : lineEndOf bytes offset < bytes.length) : bytes[lineEndOf bytes offset]? = some 10 := by
  unfold lineEndOf at before ⊢
  cases search : (bytes.drop offset).findIdx? (· == 10) with
  | none =>
    rw [search] at before
    exact absurd before (Nat.lt_irrefl _)
  | some ahead =>
    obtain ⟨short, feed, _⟩ := List.findIdx?_eq_some_iff_getElem.mp search
    have read : (bytes.drop offset)[ahead]? = some 10 := by
      rw [List.getElem?_eq_getElem short]
      exact congrArg some (beq_iff_eq.mp feed)
    rw [List.getElem?_drop] at read
    exact read

/-- The window holds the occurrence, stays on its lines and is no longer than an excerpt. -/
theorem contextWindow_spec {bytes : List UInt8} {first last : Nat} (forward : first ≤ last)
    (within : last ≤ bytes.length) (short : last - first ≤ maxEvidenceExcerptBytes) :
    lineStartOf bytes first ≤ (contextWindow bytes first last).1 ∧
      (contextWindow bytes first last).1 ≤ first ∧ last ≤ (contextWindow bytes first last).2 ∧
      (contextWindow bytes first last).2 ≤ lineEndOf bytes last ∧
      (contextWindow bytes first last).2 - (contextWindow bytes first last).1 ≤
        maxEvidenceExcerptBytes := by
  have start := (lineStartOf_spec (Nat.le_trans forward within)).1
  have stop := (lineEndOf_spec within).1
  unfold contextWindow
  generalize maxEvidenceExcerptBytes = cap at short ⊢
  generalize lineStartOf bytes first = lineStart at start ⊢
  generalize lineEndOf bytes last = lineEnd at stop ⊢
  simp only
  split
  · rename_i small
    simp only
    omega
  · rename_i large
    simp only
    omega

/-- The start moves forward over at most its room, and stops at a byte that continues nothing or
where the room ends. -/
theorem skipForward_spec (bytes : List UInt8) (room first : Nat) :
    first ≤ skipForward bytes room first ∧ skipForward bytes room first ≤ first + room ∧
      (skipForward bytes room first = first + room ∨
        (bytes[skipForward bytes room first]?).any continuesChar = false) := by
  induction room generalizing first with
  | zero => exact ⟨Nat.le_refl _, Nat.le_refl _, Or.inl rfl⟩
  | succ room ih =>
    unfold skipForward
    by_cases continuing : (bytes[first]?).any continuesChar = true
    · rw [if_pos continuing]
      obtain ⟨after, within, stops⟩ := ih (first + 1)
      refine ⟨by omega, by omega, ?_⟩
      rcases stops with ends | opens
      · left
        omega
      · exact Or.inr opens
    · rw [if_neg continuing]
      refine ⟨Nat.le_refl _, by omega, Or.inr ?_⟩
      simpa using continuing

/-- The end moves back over at most its room, and stops at a byte that continues nothing or where
the room ends. -/
theorem skipBackward_spec (bytes : List UInt8) (room last : Nat) (enough : room ≤ last) :
    skipBackward bytes room last ≤ last ∧ last - room ≤ skipBackward bytes room last ∧
      (skipBackward bytes room last = last - room ∨
        (bytes[skipBackward bytes room last]?).any continuesChar = false) := by
  induction room generalizing last with
  | zero => exact ⟨Nat.le_refl _, Nat.le_refl _, Or.inl rfl⟩
  | succ room ih =>
    unfold skipBackward
    by_cases continuing : (bytes[last]?).any continuesChar = true
    · rw [if_pos continuing]
      obtain ⟨before, within, stops⟩ := ih (last - 1) (by omega)
      refine ⟨by omega, by omega, ?_⟩
      rcases stops with ends | opens
      · left
        omega
      · exact Or.inr opens
    · rw [if_neg continuing]
      refine ⟨Nat.le_refl _, by omega, Or.inr ?_⟩
      simpa using continuing

/-- The range of the context, cut at character boundaries. -/
def contextRange (bytes : List UInt8) (first last : Nat) : Nat × Nat :=
  let window := contextWindow bytes first last
  (skipForward bytes (first - window.1) window.1, skipBackward bytes (window.2 - last) window.2)

/-- The range of a context holds the occurrence, stays on its lines and is no longer than an
excerpt; its ends stop at the occurrence or at bytes that continue nothing. -/
structure Widened (bytes : List UInt8) (first last : Nat) (range : Nat × Nat) : Prop where
  start : range.1 ≤ first
  stop : last ≤ range.2
  within : range.2 ≤ bytes.length
  short : range.2 - range.1 ≤ maxEvidenceExcerptBytes
  sameStartLine : 10 ∉ byteSlice bytes (range.1, first)
  sameEndLine : 10 ∉ byteSlice bytes (last, range.2)
  opens : range.1 = first ∨ (bytes[range.1]?).any continuesChar = false
  closes : range.2 = last ∨ (bytes[range.2]?).any continuesChar = false

/-- The spec of the range of a context. -/
theorem contextRange_widened {bytes : List UInt8} {first last : Nat} (forward : first ≤ last)
    (within : last ≤ bytes.length) (short : last - first ≤ maxEvidenceExcerptBytes) :
    Widened bytes first last (contextRange bytes first last) := by
  obtain ⟨_, startClear⟩ := lineStartOf_spec (Nat.le_trans forward within)
  obtain ⟨_, inside, endClear⟩ := lineEndOf_spec within
  have spec := contextWindow_spec forward within short
  unfold contextRange
  generalize contextWindow bytes first last = window at spec ⊢
  obtain ⟨low, start, stop, high, size⟩ := spec
  have ahead := skipForward_spec bytes (first - window.1) window.1
  have back := skipBackward_spec bytes (window.2 - last) window.2 (by omega)
  have startRoom : window.1 + (first - window.1) = first := by omega
  have endRoom : window.2 - (window.2 - last) = last := by omega
  rw [startRoom] at ahead
  rw [endRoom] at back
  obtain ⟨after, until_, opens⟩ := ahead
  obtain ⟨before, from_, closes⟩ := back
  refine ⟨until_, from_, ?_, ?_, ?_, ?_, opens, closes⟩
  · exact Nat.le_trans before (Nat.le_trans high inside)
  · show skipBackward bytes (window.2 - last) window.2 - skipForward bytes (first - window.1) window.1 ≤ _
    omega
  · exact notMem_byteSlice_of_within startClear (Nat.le_trans low after) (Nat.le_refl _)
  · exact notMem_byteSlice_of_within endClear (Nat.le_refl _) (Nat.le_trans before high)

/-- `source_context` reads the range of the context as text. -/
theorem sourceContext_eq {bytes : List UInt8} {first last : Nat} (forward : first ≤ last)
    (within : last ≤ bytes.length) (short : last - first ≤ maxEvidenceExcerptBytes) :
    sourceContext bytes first last =
      (fromUtf8 (byteSlice bytes (contextRange bytes first last))).map fun context =>
        (context, contextRange bytes first last,
          byteLineRange bytes (contextRange bytes first last).1 (contextRange bytes first last).2) := by
  unfold sourceContext
  rw [if_neg (by omega), if_neg (by omega)]
  rfl

/-- A slice of a text reads as text exactly where it is empty or lies between boundaries. -/
theorem fromUtf8_slice {text : String} {first last : Nat} (forward : first ≤ last)
    (within : last ≤ (asBytes text).length) :
    (fromUtf8 (byteSlice (asBytes text) (first, last))).isSome = true ↔
      first = last ∨ (CharBoundary text first ∧ CharBoundary text last) := by
  rw [← slice_isValid_iff forward within]
  have array : (⟨(byteSlice (asBytes text) (first, last)).toArray⟩ : ByteArray) =
      text.toByteArray.extract first last := by
    apply ByteArray.ext
    have listed := extract_toList text first last
    show (((encodeChars text.toList).drop first).take (last - first)).toArray = _
    rw [← listed, Array.toArray_toList]
  unfold fromUtf8 String.fromUTF8?
  rw [array]
  split
  · rename_i valid
    exact iff_of_true rfl valid
  · rename_i invalid
    exact iff_of_false (fun some_ => by cases some_) invalid

/-- An offset inside a text whose byte continues nothing is a boundary. -/
theorem boundary_of_continues {text : String} {offset : Nat} (within : offset ≤ (asBytes text).length)
    (opens : ((asBytes text)[offset]?).any continuesChar = false) : CharBoundary text offset := by
  cases located : (asBytes text)[offset]? with
  | none =>
    have beyond := List.getElem?_eq_none_iff.mp located
    have same : offset = (encodeChars text.toList).length := Nat.le_antisymm within beyond
    rw [same]
    exact charBoundary_length text
  | some byte =>
    apply charBoundary_of_byte located
    rw [located] at opens
    simpa [continuesChar] using opens

/-- What the context of an occurrence is: it holds the occurrence, is no longer than an excerpt,
lies between character boundaries, adds no line feed to the occurrence on either side, and its text
and its lines are those of its range. -/
structure ContextOf (text : String) (first last : Nat)
    (found : String × (Nat × Nat) × (Nat × Nat)) : Prop where
  start : found.2.1.1 ≤ first
  stop : last ≤ found.2.1.2
  short : found.2.1.2 - found.2.1.1 ≤ maxEvidenceExcerptBytes
  opens : CharBoundary text found.2.1.1
  closes : CharBoundary text found.2.1.2
  sameStartLine : 10 ∉ byteSlice (asBytes text) (found.2.1.1, first)
  sameEndLine : 10 ∉ byteSlice (asBytes text) (last, found.2.1.2)
  reads : asBytes found.1 = byteSlice (asBytes text) found.2.1
  lines : found.2.2 = byteLineRange (asBytes text) found.2.1.1 found.2.1.2

/-- An occurrence between character boundaries that is no longer than an excerpt has a context. -/
theorem sourceContext_exists {text : String} {first last : Nat} (forward : first ≤ last)
    (opens : CharBoundary text first) (closes : CharBoundary text last)
    (short : last - first ≤ maxEvidenceExcerptBytes) :
    ∃ found, sourceContext (asBytes text) first last = some found ∧
      ContextOf text first last found := by
  have within : last ≤ (asBytes text).length := by
    have size : (asBytes text).length = text.utf8ByteSize := length_encodeChars_toList text
    rw [size]
    exact closes.le_utf8ByteSize
  have widened := contextRange_widened forward within short
  let range := contextRange (asBytes text) first last
  have ordered : range.1 ≤ range.2 :=
    Nat.le_trans widened.start (Nat.le_trans forward widened.stop)
  have left : CharBoundary text range.1 := by
    rcases widened.opens with same | free
    · rw [show range.1 = first from same]
      exact opens
    · exact boundary_of_continues (Nat.le_trans ordered widened.within) free
  have right : CharBoundary text range.2 := by
    rcases widened.closes with same | free
    · rw [show range.2 = last from same]
      exact closes
    · exact boundary_of_continues widened.within free
  obtain ⟨context, read⟩ := Option.isSome_iff_exists.mp
    ((fromUtf8_slice ordered widened.within).mpr (Or.inr ⟨left, right⟩))
  refine ⟨(context, range, byteLineRange (asBytes text) range.1 range.2), ?_, ?_⟩
  · rw [sourceContext_eq forward within short]
    show (fromUtf8 (byteSlice (asBytes text) (range.1, range.2))).map _ = _
    rw [read]
    rfl
  · exact ⟨widened.start, widened.stop, widened.short, left, right, widened.sameStartLine,
      widened.sameEndLine, fromUtf8_eq_some.mp read, rfl⟩

/-- The context of the second word of two lines is its line. -/
theorem sourceContext_exists_second_line :
    ∃ found, sourceContext (asBytes "one\ntwo three") 4 7 = some found ∧
      ContextOf "one\ntwo three" 4 7 found :=
  sourceContext_exists (by decide) (by decide +kernel) (by decide +kernel) (by decide)

end Texo.CodeIndex
