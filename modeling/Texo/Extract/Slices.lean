import Texo.Extract.Heuristics
import Texo.Foundation.CharBoundary

/-! # Slices of a text by byte offsets

A slice is taken between two offsets that lie between characters. Slices side by side make up the
slice of both, and the blank end of a slice is cut off inside it.
-/
namespace Texo.Extract
open Texo.Foundation

/-- The text behind some bytes, unless they end inside a character or behind the end. -/
def dropBytes : List Char → Nat → Option (List Char)
  | text, 0 => some text
  | [], _ + 1 => none
  | c :: rest, count + 1 =>
    if c.utf8Size ≤ count + 1 then dropBytes rest (count + 1 - c.utf8Size) else none

/-- The text of the first bytes, unless they end inside a character or behind the end. -/
def takeBytes : List Char → Nat → Option (List Char)
  | _, 0 => some []
  | [], _ + 1 => none
  | c :: rest, count + 1 =>
    if c.utf8Size ≤ count + 1 then (takeBytes rest (count + 1 - c.utf8Size)).map (c :: ·) else none

/-- `&source[first..last]`, nothing where it panics. -/
def slice (source : String) (first last : Nat) : Option (List Char) :=
  if first ≤ last then
    (dropBytes source.toList first).bind fun rest => takeBytes rest (last - first)
  else
    none

/-- Texts one after the other are as long as both. -/
theorem byteLength_append (front back : List Char) :
    byteLength (front ++ back) = byteLength front + byteLength back := by
  unfold byteLength
  rw [List.map_append, List.sum_append]

/-- Only the empty text has no bytes. -/
theorem byteLength_pos {text : List Char} (some : text ≠ []) : 0 < byteLength text := by
  cases text with
  | nil => exact absurd rfl some
  | cons c rest =>
    have size := c.utf8Size_pos
    unfold byteLength
    rw [List.map_cons, List.sum_cons]
    omega

/-- Dropping the bytes of a text leaves what is behind it. -/
theorem dropBytes_append (front back : List Char) :
    dropBytes (front ++ back) (byteLength front) = some back := by
  induction front with
  | nil =>
    show dropBytes back 0 = some back
    unfold dropBytes
    cases back <;> rfl
  | cons c rest ih =>
    have size := c.utf8Size_pos
    have length : byteLength (c :: rest) = c.utf8Size + byteLength rest := rfl
    obtain ⟨count, more⟩ : ∃ count, byteLength (c :: rest) = count + 1 :=
      ⟨byteLength (c :: rest) - 1, by omega⟩
    rw [more, List.cons_append, dropBytes, if_pos (by omega),
      show count + 1 - c.utf8Size = byteLength rest by omega]
    exact ih

/-- Taking the bytes of a text gives it. -/
theorem takeBytes_append (text back : List Char) :
    takeBytes (text ++ back) (byteLength text) = some text := by
  induction text with
  | nil =>
    show takeBytes back 0 = some []
    unfold takeBytes
    cases back <;> rfl
  | cons c rest ih =>
    have size := c.utf8Size_pos
    have length : byteLength (c :: rest) = c.utf8Size + byteLength rest := rfl
    obtain ⟨count, more⟩ : ∃ count, byteLength (c :: rest) = count + 1 :=
      ⟨byteLength (c :: rest) - 1, by omega⟩
    rw [more, List.cons_append, takeBytes, if_pos (by omega),
      show count + 1 - c.utf8Size = byteLength rest by omega, ih]
    rfl

/-- A text between two others is their slice. -/
theorem slice_append {source : String} {front text back : List Char}
    (whole : source.toList = front ++ (text ++ back)) :
    slice source (byteLength front) (byteLength front + byteLength text) = some text := by
  unfold slice
  rw [if_pos (Nat.le_add_right _ _), whole, dropBytes_append, Nat.add_sub_cancel_left]
  exact takeBytes_append text back

/-- A text is split at an offset in one way. -/
theorem split_unique {front back front' back' : List Char} (same : front ++ back = front' ++ back')
    (length : byteLength front = byteLength front') : front = front' ∧ back = back' := by
  rcases List.append_eq_append_iff.mp same with ⟨more, longer, behind⟩ | ⟨more, longer, behind⟩
  · have none : more = [] := by
      by_contra some
      have positive := byteLength_pos some
      rw [longer, byteLength_append] at length
      omega
    rw [none, List.append_nil] at longer
    exact ⟨longer.symm, by rw [behind, none, List.nil_append]⟩
  · have none : more = [] := by
      by_contra some
      have positive := byteLength_pos some
      rw [longer, byteLength_append] at length
      omega
    rw [none, List.append_nil] at longer
    exact ⟨longer, by rw [behind, none, List.nil_append]⟩

/-- A boundary splits a text. -/
theorem split_of_boundary {source : String} {offset : Nat} (boundary : CharBoundary source offset) :
    ∃ front back, source.toList = front ++ back ∧ byteLength front = offset := by
  obtain ⟨front, back, whole, place⟩ := String.Pos.Raw.isValid_iff_exists_append.mp boundary
  refine ⟨front.toList, back.toList, by rw [whole, String.toList_append], ?_⟩
  have bytes := length_encodeChars_toList front
  have length : (encodeChars front.toList).length = byteLength front.toList := by
    unfold encodeChars byteLength
    rw [List.length_flatMap]
    congr 1
    apply List.map_congr_left
    intro c _
    exact String.length_utf8EncodeChar c
  have offset : offset = front.utf8ByteSize := congrArg String.Pos.Raw.byteIdx place
  omega

/-- Two boundaries cut a text in three. -/
theorem split_of_boundaries {source : String} {first last : Nat} (forward : first ≤ last)
    (left : CharBoundary source first) (right : CharBoundary source last) :
    ∃ front text back, source.toList = front ++ (text ++ back) ∧ byteLength front = first ∧
      byteLength front + byteLength text = last := by
  obtain ⟨front, rest, whole, here⟩ := split_of_boundary left
  obtain ⟨front', back, whole', there⟩ := split_of_boundary right
  rw [whole] at whole'
  rcases List.append_eq_append_iff.mp whole' with ⟨text, longer, behind⟩ | ⟨text, shorter, behind⟩
  · refine ⟨front, text, back, by rw [whole, behind], here, ?_⟩
    rw [← there, longer, byteLength_append]
  · have none : text = [] := by
      by_contra some
      have more := byteLength_pos some
      rw [shorter, byteLength_append] at here
      omega
    rw [none, List.append_nil] at shorter
    refine ⟨front, [], rest, whole, here, ?_⟩
    rw [← there, ← shorter]
    rfl

/-- The characters `push_span` cuts off the end of a block. -/
def isBlank (c : Char) : Bool := c = '\n' || c = '\r' || c = ' ' || c = '\t'

/-- The text of a range without its blank end. -/
def textOf (source : String) (range : Nat × Nat) : List Char :=
  trimEndMatches isBlank ((slice source range.1 range.2).getD [])

/-- The end of the text of a range. -/
def textEnd (source : String) (range : Nat × Nat) : Nat :=
  range.1 + byteLength (textOf source range)

/-- What is cut off the end is behind the rest. -/
theorem trimEndMatches_append (trimmed : Char → Bool) (text : List Char) :
    ∃ cut, text = trimEndMatches trimmed text ++ cut := by
  refine ⟨(text.reverse.takeWhile trimmed).reverse, ?_⟩
  unfold trimEndMatches
  rw [← List.reverse_append, List.takeWhile_append_dropWhile, List.reverse_reverse]

/-- What stays of a text stays of a longer one, with what is in front of it. -/
theorem trimEndMatches_around (trimmed : Char → Bool) (front text back : List Char)
    (kept : trimEndMatches trimmed text ≠ []) :
    ∃ more, trimEndMatches trimmed (front ++ (text ++ back)) =
      front ++ (trimEndMatches trimmed text ++ more) := by
  unfold trimEndMatches at kept ⊢
  have left : text.reverse.dropWhile trimmed ≠ [] := fun none => kept (by rw [none]; rfl)
  have whole : (front ++ (text ++ back)).reverse =
      back.reverse ++ (text.reverse ++ front.reverse) := by
    rw [List.reverse_append, List.reverse_append, List.append_assoc]
  have inner : (text.reverse ++ front.reverse).dropWhile trimmed =
      text.reverse.dropWhile trimmed ++ front.reverse := by
    rw [List.dropWhile_append, if_neg (by simpa using left)]
  rw [whole, List.dropWhile_append]
  by_cases blank : ((back.reverse.dropWhile trimmed).isEmpty) = true
  · refine ⟨[], ?_⟩
    rw [if_pos blank, inner, List.reverse_append, List.reverse_reverse, List.append_nil]
  · rw [if_neg blank]
    obtain ⟨cut, split⟩ := trimEndMatches_append trimmed text
    unfold trimEndMatches at split
    refine ⟨cut ++ (back.reverse.dropWhile trimmed).reverse, ?_⟩
    rw [List.reverse_append, List.reverse_append, List.reverse_reverse, List.reverse_reverse,
      List.append_assoc, ← List.append_assoc (List.reverse _) cut, ← split]

/-- A range between two boundaries, cut out of a text, with the text it keeps. -/
structure Cut (source : String) (range : Nat × Nat) (front text back : List Char) : Prop where
  whole : source.toList = front ++ (text ++ back)
  starts : byteLength front = range.1
  stops : byteLength front + byteLength text = range.2
  slices : slice source range.1 range.2 = some text
  keeps : textOf source range = trimEndMatches isBlank text

/-- Boundaries cut a range out. -/
theorem cut_of_boundaries (source : String) (range : Nat × Nat) (forward : range.1 ≤ range.2)
    (left : CharBoundary source range.1) (right : CharBoundary source range.2) :
    ∃ front text back, Cut source range front text back := by
  obtain ⟨front, text, back, whole, starts, stops⟩ := split_of_boundaries forward left right
  have slices : slice source range.1 range.2 = some text := by
    rw [← starts, ← stops]
    exact slice_append whole
  refine ⟨front, text, back, whole, starts, stops, slices, ?_⟩
  unfold textOf
  rw [slices]
  rfl

/-- The kept text of a range is the slice up to its end, which lies in the range. -/
theorem Cut.text {source : String} {range : Nat × Nat} {front text back : List Char}
    (cut : Cut source range front text back) :
    slice source range.1 (textEnd source range) = some (textOf source range) ∧
      textEnd source range ≤ range.2 := by
  obtain ⟨blank, split⟩ := trimEndMatches_append isBlank text
  have whole : source.toList = front ++ (textOf source range ++ (blank ++ back)) := by
    rw [cut.whole, cut.keeps, ← List.append_assoc (trimEndMatches isBlank text), ← split]
  have size : byteLength text = byteLength (textOf source range) + byteLength blank := by
    rw [cut.keeps, ← byteLength_append, ← split]
  have starts := cut.starts
  have stops := cut.stops
  unfold textEnd
  constructor
  · rw [← starts]
    exact slice_append whole
  · omega

/-- A range around another keeps all of its text. -/
theorem textEnd_le {source : String} {outer inner : Nat × Nat}
    (outside : CharBoundary source outer.1 ∧ CharBoundary source outer.2)
    (inside : CharBoundary source inner.1 ∧ CharBoundary source inner.2)
    (before : outer.1 ≤ inner.1) (forward : inner.1 ≤ inner.2) (after : inner.2 ≤ outer.2)
    (kept : textOf source inner ≠ []) :
    textOf source outer ≠ [] ∧ textEnd source inner ≤ textEnd source outer := by
  obtain ⟨front, text, back, cut⟩ := cut_of_boundaries source inner forward
    inside.1 inside.2
  obtain ⟨early, lead, rest, whole, starts, stops⟩ :=
    split_of_boundaries before outside.1 inside.1
  obtain ⟨most, tail, late, whole', starts', stops'⟩ :=
    split_of_boundaries after inside.2 outside.2
  have here := cut.starts
  have there := cut.stops
  obtain ⟨head, body⟩ : early ++ lead = front ∧ rest = text ++ back := by
    apply split_unique
    · rw [List.append_assoc, ← whole, cut.whole]
    · rw [byteLength_append]
      omega
  obtain ⟨_, foot⟩ : most = front ++ text ∧ tail ++ late = back := by
    apply split_unique
    · rw [← whole', cut.whole, List.append_assoc]
    · rw [byteLength_append]
      omega
  have around : source.toList = early ++ ((lead ++ (text ++ tail)) ++ late) := by
    rw [whole, body, ← foot]
    simp only [List.append_assoc]
  have size : outer.2 = byteLength early + byteLength (lead ++ (text ++ tail)) := by
    rw [byteLength_append, byteLength_append]
    omega
  have slices : slice source outer.1 outer.2 = some (lead ++ (text ++ tail)) := by
    rw [size, ← starts]
    exact slice_append around
  have keeps : textOf source outer = trimEndMatches isBlank (lead ++ (text ++ tail)) := by
    unfold textOf
    rw [slices]
    rfl
  rw [cut.keeps] at kept
  obtain ⟨more, stays⟩ := trimEndMatches_around isBlank lead text tail kept
  have length := byteLength_pos kept
  unfold textEnd
  rw [keeps, stays, cut.keeps, byteLength_append, byteLength_append]
  constructor
  · intro none
    have empty := (List.append_eq_nil_iff.mp (List.append_eq_nil_iff.mp none).2).1
    exact kept empty
  · omega

end Texo.Extract
