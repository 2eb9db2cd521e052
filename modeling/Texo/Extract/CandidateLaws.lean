import Texo.Extract.Spans

/-! # When the candidate spans are lawful

Spans are to be in order and apart, to slice the source back, to name their lines, to cover all
prose and to leave out what is passed over. They do exactly where no outermost prose block holds a
second block of prose with text, or a block that is passed over, within its text.
-/
namespace Texo.Extract
open Texo.Foundation Texo.Ops

/-- The line of a byte offset, one more than the line feeds before it. -/
def lineNumber (source : String) (offset : Nat) : Nat :=
  ((encodeChars source.toList).take offset).count 10 + 1

/-- Which bytes of a text are line feeds. -/
def feedBytes (chars : List Char) : List Bool := (encodeChars chars).map fun byte => byte = 10

/-- Texts with the same line feeds number their lines alike. -/
theorem lineNumber_of_feedBytes {source other : String}
    (same : feedBytes source.toList = feedBytes other.toList) (offset : Nat) :
    lineNumber source offset = lineNumber other offset := by
  have counted : ∀ bytes : List UInt8, (bytes.take offset).count 10 =
      ((bytes.map fun byte => decide (byte = 10)).take offset).countP id := by
    intro bytes
    rw [← List.map_take, List.countP_map, List.count_eq_countP]
    apply List.countP_congr
    intro byte _
    simp
  unfold lineNumber
  unfold feedBytes at same
  rw [counted, counted, same]

/-- Line feeds one text after the other. -/
theorem feedBytes_append (front back : List Char) :
    feedBytes (front ++ back) = feedBytes front ++ feedBytes back := by
  unfold feedBytes encodeChars
  rw [List.flatMap_append, List.map_append]

/-- A text without a line feed has none among its bytes. -/
theorem feedBytes_clear {chars : List Char} (clear : '\n' ∉ chars) :
    feedBytes chars = List.replicate (byteLength chars) false := by
  rw [List.eq_replicate_iff]
  constructor
  · unfold feedBytes
    rw [List.length_map]
    exact length_charBytes chars
  · intro feed member
    obtain ⟨byte, inside, rfl⟩ := List.mem_map.mp member
    apply decide_eq_false
    intro same
    rw [same] at inside
    exact newline_notMem_charBytes clear inside

/-- What is split off the end belongs there. -/
theorem splitLast_append (last : Char) (text : List Char) :
    (splitLast last text).1 ++ (splitLast last text).2 = text := by
  unfold splitLast
  split
  · rename_i c rest turned
    split
    · rw [← List.reverse_cons, ← turned, List.reverse_reverse]
    · rw [List.append_nil]
  · rw [List.append_nil]

/-- A space is one byte. -/
theorem byteLength_spaces (count : Nat) : byteLength (List.replicate count ' ') = count := by
  induction count with
  | zero => rfl
  | succ count ih =>
    have one : byteLength (List.replicate (count + 1) ' ') =
        1 + byteLength (List.replicate count ' ') := rfl
    rw [one, ih]
    omega

/-- A blanked line has its line feeds where they were. -/
theorem feedBytes_maskLine {content feed : List Char} (clear : '\n' ∉ content)
    (split : splitLast '\n' (content ++ feed) = (content, feed)) :
    feedBytes (maskLine (content ++ feed)) = feedBytes (content ++ feed) := by
  unfold maskLine
  rw [split]
  dsimp only
  split
  · have whole := splitLast_append '\r' content
    have clearLine : '\n' ∉ (splitLast '\r' content).1 := by
      intro member
      apply clear
      rw [← whole]
      exact List.mem_append_left _ member
    have blank : '\n' ∉ List.replicate (byteLength (splitLast '\r' content).1) ' ' := by
      intro member
      exact absurd (List.eq_of_mem_replicate member) (by decide)
    rw [feedBytes_append, feedBytes_append, feedBytes_clear blank, byteLength_spaces,
      ← feedBytes_clear clearLine, ← feedBytes_append, whole, ← feedBytes_append]
  · rfl

/-- Masking leaves every line feed where it is. -/
theorem feedBytes_mask (source : String) :
    feedBytes (maskOversizedLines source).toList = feedBytes source.toList := by
  have lines : ∀ segments, Segments segments →
      feedBytes (segments.map maskLine).flatten = feedBytes segments.flatten := by
    intro segments shape
    induction shape with
    | nil => rfl
    | @last content clear =>
      have alone : splitLast '\n' (content ++ []) = (content, []) := by
        rw [List.append_nil]
        unfold splitLast
        split
        · rename_i c rest turned
          have apart : c ≠ '\n' := by
            intro same
            apply clear
            rw [← List.mem_reverse, turned, same]
            exact List.mem_cons_self
          rw [if_neg apart]
        · rfl
      have masked := feedBytes_maskLine clear alone
      rw [List.append_nil] at masked
      simpa using masked
    | @cons content rest clear later ih =>
      have ends : splitLast '\n' (content ++ ['\n']) = (content, ['\n']) := by
        unfold splitLast
        rw [List.reverse_append, List.reverse_singleton, List.singleton_append]
        simp
      rw [List.map_cons, List.flatten_cons, List.flatten_cons, feedBytes_append, feedBytes_append,
        feedBytes_maskLine clear ends, ih]
  obtain ⟨shape, whole⟩ := segments_splitInclusive source.toList
  unfold maskOversizedLines
  dsimp only
  split
  · rw [String.toList_ofList, lines _ shape, whole]
  · rfl

/-- Masking leaves the lines of a source as they are numbered. -/
theorem lineNumber_mask (source : String) (offset : Nat) :
    lineNumber (maskOversizedLines source) offset = lineNumber source offset :=
  lineNumber_of_feedBytes (feedBytes_mask source) offset

/-- Spans in source order and apart, each the slice of the masked source it names, with the lines of
its first and last byte; they cover the text of every prose block that is not passed over, and hold
no byte of a block that is. -/
structure LawfulSpans (source : String) (blocks : Blocks) (spans : List CandidateSpan) : Prop where
  apart : spans.Pairwise fun earlier later => earlier.charEnd ≤ later.charStart
  slices : ∀ span ∈ spans,
    slice (maskOversizedLines source) span.charStart span.charEnd = some span.text.toList
  placed : ∀ span ∈ spans, span.lineStart = lineNumber source span.charStart ∧
    span.lineEnd = lineNumber source (span.charEnd - 1)
  covers : ∀ range ∈ proseBlocks blocks, textOf (maskOversizedLines source) range = [] ∨
    ∃ span ∈ spans, span.charStart ≤ range.1 ∧
      textEnd (maskOversizedLines source) range ≤ span.charEnd
  clear : ∀ span ∈ spans, ∀ range ∈ excludedBlocks blocks, ∀ offset, span.charStart ≤ offset →
    offset < span.charEnd → ¬(range.1 ≤ offset ∧ offset < range.2)

/-- In an outermost prose block, no prose with text opens after other prose has closed, and no block
that is passed over begins within the text; and its last line has a number of 32 bits. -/
structure PlainProse (source : String) (blocks : Blocks) : Prop where
  alone : ∀ outer ∈ outermostProse blocks, ∀ range ∈ laterProse outer.2,
    textOf (maskOversizedLines source) range = []
  bare : ∀ outer ∈ outermostProse blocks, ∀ range ∈ excludedBlocks outer.2, range.1 < range.2 →
    textEnd (maskOversizedLines source) outer.1 ≤ range.1
  numbered : ∀ outer ∈ outermostProse blocks,
    textOf (maskOversizedLines source) outer.1 ≠ [] →
      lineNumber source (textEnd (maskOversizedLines source) outer.1 - 1) < 2 ^ 32

/-- Whether spans are lawful does not depend on their headings. -/
theorem lawfulSpans_bare (source : String) (blocks : Blocks) (spans : List CandidateSpan) :
    LawfulSpans source blocks (spans.map CandidateSpan.bare) ↔ LawfulSpans source blocks spans := by
  constructor
  · intro lawful
    refine ⟨List.pairwise_map.mp lawful.apart, ?_, ?_, ?_, ?_⟩
    · intro span member
      exact lawful.slices span.bare (List.mem_map_of_mem member)
    · intro span member
      exact lawful.placed span.bare (List.mem_map_of_mem member)
    · intro range prose
      rcases lawful.covers range prose with blank | ⟨_, listed, holds⟩
      · exact Or.inl blank
      · obtain ⟨span, member, rfl⟩ := List.mem_map.mp listed
        exact Or.inr ⟨span, member, holds⟩
    · intro span member
      exact lawful.clear span.bare (List.mem_map_of_mem member)
  · intro lawful
    refine ⟨List.pairwise_map.mpr lawful.apart, ?_, ?_, ?_, ?_⟩
    · intro bare listed
      obtain ⟨span, member, rfl⟩ := List.mem_map.mp listed
      exact lawful.slices span member
    · intro bare listed
      obtain ⟨span, member, rfl⟩ := List.mem_map.mp listed
      exact lawful.placed span member
    · intro range prose
      rcases lawful.covers range prose with blank | ⟨span, member, holds⟩
      · exact Or.inl blank
      · exact Or.inr ⟨span.bare, List.mem_map_of_mem member, holds⟩
    · intro bare listed
      obtain ⟨span, member, rfl⟩ := List.mem_map.mp listed
      exact lawful.clear span member

/-- The spans of some ranges, without headings. -/
def spansOf (source : String) (ranges : List (Nat × Nat)) : List CandidateSpan :=
  ranges.flatMap fun range => spanOf source range []

/-- The spans of ranges are those of the ranges with text. -/
theorem mem_spansOf {source : String} {ranges : List (Nat × Nat)} {span : CandidateSpan} :
    span ∈ spansOf source ranges ↔
      ∃ range ∈ ranges, textOf source range ≠ [] ∧ span = spanAt source range [] := by
  unfold spansOf
  rw [List.mem_flatMap]
  constructor
  · rintro ⟨range, listed, member⟩
    unfold spanOf at member
    split at member
    · cases member
    · rename_i some
      exact ⟨range, listed, some, List.mem_singleton.mp member⟩
  · rintro ⟨range, listed, some, rfl⟩
    refine ⟨range, listed, ?_⟩
    unfold spanOf
    rw [if_neg some]
    exact List.mem_singleton_self _

/-- The spans of ranges are apart where the ranges with text are. -/
theorem pairwise_spansOf {source : String} {ranges : List (Nat × Nat)} :
    (spansOf source ranges).Pairwise (fun earlier later => earlier.charEnd ≤ later.charStart) ↔
      ranges.Pairwise fun earlier later => textOf source earlier ≠ [] →
        textOf source later ≠ [] → textEnd source earlier ≤ later.1 := by
  unfold spansOf
  rw [List.pairwise_flatMap]
  have single : ∀ range ∈ ranges, (spanOf source range []).Pairwise
      fun earlier later => earlier.charEnd ≤ later.charStart := by
    intro range _
    unfold spanOf
    split
    · exact List.Pairwise.nil
    · exact List.pairwise_singleton _ _
  rw [and_iff_right single]
  apply List.Pairwise.iff
  intro earlier later
  constructor
  · intro ordered some also
    refine ordered (spanAt source earlier []) ?_ (spanAt source later []) ?_
    · unfold spanOf
      rw [if_neg some]
      exact List.mem_singleton_self _
    · unfold spanOf
      rw [if_neg also]
      exact List.mem_singleton_self _
  · intro ordered first member second also
    unfold spanOf at member also
    split at member
    · cases member
    · rename_i some
      split at also
      · cases also
      · rename_i more
        rw [List.mem_singleton.mp member, List.mem_singleton.mp also]
        exact ordered some more

/-- The text of a range ends within it. -/
theorem textEnd_within {source : String} {range : Nat × Nat} (forward : range.1 ≤ range.2)
    (cut : CharBoundary source range.1 ∧ CharBoundary source range.2) :
    textEnd source range ≤ range.2 ∧
      slice source range.1 (textEnd source range) = some (textOf source range) := by
  obtain ⟨_, _, _, pieces⟩ := cut_of_boundaries source range forward cut.1 cut.2
  exact ⟨pieces.text.2, pieces.text.1⟩

/-- A range with text ends behind its start. -/
theorem lt_textEnd {source : String} {range : Nat × Nat} (some : textOf source range ≠ []) :
    range.1 < textEnd source range := by
  have length := byteLength_pos some
  unfold textEnd
  omega

section Laws

variable {source : String} {blocks : Blocks} {last : Nat}

/-- The candidates among some blocks are in their range, between boundaries. -/
theorem prose_cut (nested : blocks.Within (CharBoundary (maskOversizedLines source)) 0 last) :
    ∀ range ∈ proseBlocks blocks, range.1 ≤ range.2 ∧
      CharBoundary (maskOversizedLines source) range.1 ∧
        CharBoundary (maskOversizedLines source) range.2 := by
  intro range prose
  obtain ⟨lies, cuts⟩ := nested.shown range prose
  exact ⟨lies.forward, cuts⟩

/-- A candidate with text is in an outermost prose block with text. -/
theorem outer_of_candidate
    (nested : blocks.Within (CharBoundary (maskOversizedLines source)) 0 last)
    {range : Nat × Nat} (listed : range ∈ proseBlocks blocks)
    (some : textOf (maskOversizedLines source) range ≠ []) :
    ∃ outer ∈ outermostProse blocks, textOf (maskOversizedLines source) outer.1 ≠ [] ∧
      outer.1.1 ≤ range.1 ∧ textEnd (maskOversizedLines source) range ≤
        textEnd (maskOversizedLines source) outer.1 := by
  obtain ⟨outer, member, same | inner⟩ := Nesting.shown_outermost range listed
  · rw [same] at some ⊢
    exact ⟨outer, member, some, le_rfl, le_rfl⟩
  · obtain ⟨_, cuts, within⟩ := nested.outermost outer member
    obtain ⟨lies, innerCuts⟩ := within.shown range inner
    obtain ⟨text, ends⟩ := textEnd_le cuts innerCuts lies.after lies.forward lies.before some
    exact ⟨outer, member, text, lies.after, ends⟩

/-- Where the condition holds, the spans are lawful. -/
theorem PlainProse.lawful
    (nested : blocks.Within (CharBoundary (maskOversizedLines source)) 0 last)
    (plain : PlainProse source blocks) :
    LawfulSpans source blocks (spansOf (maskOversizedLines source) (candidateBlocks blocks)) := by
  -- A candidate with text is an outermost block: those reopened in it are blank.
  have outermost : ∀ range ∈ candidateBlocks blocks,
      textOf (maskOversizedLines source) range ≠ [] →
        ∃ outer ∈ outermostProse blocks, range = outer.1 := by
    intro range listed some
    rw [candidateBlocks_eq, List.mem_flatMap] at listed
    obtain ⟨outer, member, here⟩ := listed
    rcases List.mem_cons.mp here with same | reopened
    · exact ⟨outer, member, same⟩
    · have later := (candidateRuns_prose outer.2).2 range reopened
      exact absurd (plain.alone outer member range later) some
  have numbered : ∀ outer ∈ outermostProse blocks,
      textOf (maskOversizedLines source) outer.1 ≠ [] →
        ∀ offset, offset ≤ textEnd (maskOversizedLines source) outer.1 - 1 →
          lineOfOffset (maskOversizedLines source) offset = lineNumber source offset := by
    intro outer member some offset before
    have bound := plain.numbered outer member some
    have fewer : lineNumber source offset ≤
        lineNumber source (textEnd (maskOversizedLines source) outer.1 - 1) := by
      unfold lineNumber
      have sublist : ((encodeChars source.toList).take offset).Sublist
          ((encodeChars source.toList).take
            (textEnd (maskOversizedLines source) outer.1 - 1)) :=
        List.take_sublist_take_left before
      have counted := sublist.count_le 10
      omega
    have masked := lineNumber_mask source offset
    unfold lineOfOffset
    unfold lineNumber at masked fewer bound ⊢
    omega
  refine ⟨?_, ?_, ?_, ?_, ?_⟩
  · rw [pairwise_spansOf, candidateBlocks_eq, List.pairwise_flatMap]
    constructor
    · intro outer member
      have blank : ∀ range ∈ reopenedBlocks outer.2,
          textOf (maskOversizedLines source) range = [] :=
        fun range reopened => plain.alone outer member range
          ((candidateRuns_prose outer.2).2 range reopened)
      refine List.pairwise_cons.mpr ⟨?_, ?_⟩
      · intro range reopened _ some
        exact absurd (blank range reopened) some
      · apply List.pairwise_of_forall_mem_list
        intro _ _ range reopened _ some
        exact absurd (blank range reopened) some
    · have apart : (outermostProse blocks).Pairwise
          fun earlier later => earlier.1.2 ≤ later.1.1 := nested.apart
      refine apart.imp_of_mem ?_
      intro earlier later member also ordered range here other there some more
      have first : range = earlier.1 := by
        rcases List.mem_cons.mp here with same | reopened
        · exact same
        · exact absurd (plain.alone earlier member range
            ((candidateRuns_prose earlier.2).2 range reopened)) some
      have second : other = later.1 := by
        rcases List.mem_cons.mp there with same | reopened
        · exact same
        · exact absurd (plain.alone later also other
            ((candidateRuns_prose later.2).2 other reopened)) more
      obtain ⟨lies, cuts, _⟩ := nested.outermost earlier member
      have ends := (textEnd_within lies.forward cuts).1
      rw [first, second]
      omega
  · intro span listed
    obtain ⟨range, candidate, some, rfl⟩ := mem_spansOf.mp listed
    obtain ⟨forward, cuts⟩ := prose_cut nested range ((candidateRuns_prose blocks).1 range candidate)
    show slice _ range.1 (textEnd _ range) = Option.some (String.ofList _).toList
    rw [String.toList_ofList]
    exact (textEnd_within forward cuts).2
  · intro span listed
    obtain ⟨range, candidate, some, rfl⟩ := mem_spansOf.mp listed
    obtain ⟨outer, member, rfl⟩ := outermost range candidate some
    have starts := lt_textEnd some
    exact ⟨numbered outer member some _ (show outer.1.1 ≤ _ by omega),
      numbered outer member some _ le_rfl⟩
  · intro range prose
    by_cases blank : textOf (maskOversizedLines source) range = []
    · exact Or.inl blank
    · right
      obtain ⟨outer, member, some, starts, ends⟩ := outer_of_candidate nested prose blank
      refine ⟨spanAt (maskOversizedLines source) outer.1 [], ?_, starts, ends⟩
      refine mem_spansOf.mpr ⟨outer.1, ?_, some, rfl⟩
      rw [candidateBlocks_eq, List.mem_flatMap]
      exact ⟨outer, member, List.mem_cons_self⟩
  · intro span listed range excluded offset after before within
    obtain ⟨candidate, inside, some, rfl⟩ := mem_spansOf.mp listed
    obtain ⟨outer, member, rfl⟩ := outermost candidate inside some
    obtain ⟨lies, cuts, _⟩ := nested.outermost outer member
    have ends := (textEnd_within lies.forward cuts).1
    have starts : outer.1.1 ≤ offset := after
    have stops : offset < textEnd (maskOversizedLines source) outer.1 := before
    rcases nested.hidden_apart range excluded outer member with nestedIn | front | behind
    · have clear := plain.bare outer member range nestedIn (by omega)
      omega
    · omega
    · omega

/-- Where the spans are lawful, the condition holds. -/
theorem LawfulSpans.plain
    (nested : blocks.Within (CharBoundary (maskOversizedLines source)) 0 last)
    (lawful : LawfulSpans source blocks
      (spansOf (maskOversizedLines source) (candidateBlocks blocks))) :
    PlainProse source blocks := by
  have spans : ∀ outer ∈ outermostProse blocks,
      textOf (maskOversizedLines source) outer.1 ≠ [] →
        spanAt (maskOversizedLines source) outer.1 [] ∈
          spansOf (maskOversizedLines source) (candidateBlocks blocks) := by
    intro outer member some
    refine mem_spansOf.mpr ⟨outer.1, ?_, some, rfl⟩
    rw [candidateBlocks_eq, List.mem_flatMap]
    exact ⟨outer, member, List.mem_cons_self⟩
  refine ⟨?_, ?_, ?_⟩
  · intro outer member range later
    by_contra some
    obtain ⟨_, cuts, within⟩ := nested.outermost outer member
    obtain ⟨candidate, reopened, holds⟩ := (candidateRuns_cover within).2 range later
    have shown := Nesting.second_shown candidate
      ((candidateRuns_prose outer.2).2 candidate reopened)
    obtain ⟨lies, candidateCuts⟩ := within.shown candidate shown
    have rangeCuts := (within.shown range (Nesting.second_shown range later)).2
    obtain ⟨text, _⟩ := textEnd_le candidateCuts rangeCuts holds.after holds.forward holds.before
      some
    obtain ⟨outerText, ends⟩ := textEnd_le cuts candidateCuts lies.after lies.forward lies.before
      text
    have apart := pairwise_spansOf.mp lawful.apart
    rw [candidateBlocks_eq, List.pairwise_flatMap] at apart
    have ordered := (List.pairwise_cons.mp (apart.1 outer member)).1 candidate reopened outerText
      text
    have starts := lt_textEnd text
    omega
  · intro outer member range excluded forward
    by_contra begins
    obtain ⟨_, _, within⟩ := nested.outermost outer member
    have lies := within.hidden range excluded
    have after := lies.after
    have some : textOf (maskOversizedLines source) outer.1 ≠ [] := by
      intro blank
      apply begins
      unfold textEnd
      rw [blank]
      exact after
    refine lawful.clear _ (spans outer member some) range
      (Nesting.outermost_hidden outer member range excluded) range.1 after ?_ ⟨le_rfl, forward⟩
    show range.1 < textEnd _ outer.1
    omega
  · intro outer member some
    have placed := (lawful.placed _ (spans outer member some)).2
    have shown : lineOfOffset (maskOversizedLines source)
        (textEnd (maskOversizedLines source) outer.1 - 1) =
          lineNumber source (textEnd (maskOversizedLines source) outer.1 - 1) := placed
    unfold lineOfOffset at shown
    omega

end Laws

/-- For every source and every well-nested stream of events, segmentation does not panic, and its
spans are lawful exactly where no outermost prose block holds a second block of prose with text, or
a block that is passed over, within its text, and line numbers fit. -/
theorem segment_candidates_iff (parse : String → List MarkdownEvent) (source : String)
    (blocks : Blocks) (stream : parse (maskOversizedLines source) = blocks.events)
    (nested : blocks.Within (CharBoundary (maskOversizedLines source)) 0
      (maskOversizedLines source).utf8ByteSize) :
    ∃ spans, segmentCandidates parse source = some spans ∧
      (LawfulSpans source blocks spans ↔ PlainProse source blocks) := by
  obtain ⟨last, run, walks⟩ := walk_walks (maskOversizedLines source) nested
    (show ({} : Segmentation).suppressDepth = 0 from rfl) (by intro block none; cases none)
  have adds : last.spans.map CandidateSpan.bare =
      spansOf (maskOversizedLines source) (candidateBlocks blocks) := by
    have spans := walks.2.spans
    rwa [List.map_nil, List.nil_append] at spans
  refine ⟨last.spans, ?_, ?_⟩
  · unfold segmentCandidates
    dsimp only
    rw [stream, run]
    rfl
  · rw [← lawfulSpans_bare, adds]
    exact ⟨fun lawful => lawful.plain nested, fun plain => plain.lawful nested⟩

/-- A list item of two paragraphs. -/
def looseItem : String := "- a\n\n  b\n"

/-- What a parser finds in it. -/
def looseBlocks : Blocks :=
  .block .other 0 9
    (.block .item 0 9
      (.block .paragraph 2 4 (.leaf (.text "a") .nil)
        (.block .paragraph 7 9 (.leaf (.text "b") .nil) .nil))
      .nil)
    .nil

/-- The item has no oversized line. -/
theorem mask_loose : maskOversizedLines looseItem = looseItem := by decide +kernel

/-- The blocks of the item are well nested. -/
theorem loose_nested :
    looseBlocks.Within (CharBoundary (maskOversizedLines looseItem)) 0
      (maskOversizedLines looseItem).utf8ByteSize := by
  rw [mask_loose]
  have boundary : ∀ offset ∈ [0, 2, 4, 7, 9], CharBoundary looseItem offset := by decide +kernel
  have size : looseItem.utf8ByteSize = 9 := by decide +kernel
  rw [size]
  refine ⟨le_rfl, boundary 0 (by decide), boundary 9 (by decide), ?_, le_rfl⟩
  refine ⟨le_rfl, boundary 0 (by decide), boundary 9 (by decide), ?_, le_rfl⟩
  refine ⟨by decide, boundary 2 (by decide), boundary 4 (by decide), ?_, ?_⟩
  · show 2 ≤ 4
    decide
  · refine ⟨by decide, boundary 7 (by decide), boundary 9 (by decide), ?_, le_rfl⟩
    show 7 ≤ 9
    decide

/-- The spans of the item, the second inside the first. -/
theorem loose_spans :
    segmentCandidates (fun _ => looseBlocks.events) looseItem =
      some [⟨"- a\n\n  b", 1, 3, 0, 8, []⟩, ⟨"b", 3, 3, 7, 8, []⟩] := by
  decide +kernel

/-- The law at the item. -/
theorem segment_candidates_iff_loose :
    ∃ spans, segmentCandidates (fun _ => looseBlocks.events) looseItem = some spans ∧
      (LawfulSpans looseItem looseBlocks spans ↔ PlainProse looseItem looseBlocks) :=
  segment_candidates_iff (fun _ => looseBlocks.events) looseItem looseBlocks rfl loose_nested

/-- The second paragraph of a list item is sent twice. -/
theorem loose_item_overlaps :
    ¬ ∀ (parse : String → List MarkdownEvent) (source : String) (blocks : Blocks),
      parse (maskOversizedLines source) = blocks.events →
        blocks.Within (CharBoundary (maskOversizedLines source)) 0
          (maskOversizedLines source).utf8ByteSize →
        ∃ spans, segmentCandidates parse source = some spans ∧
          LawfulSpans source blocks spans := by
  intro always
  obtain ⟨spans, found, lawful⟩ :=
    always (fun _ => looseBlocks.events) looseItem looseBlocks rfl loose_nested
  rw [loose_spans] at found
  have apart := lawful.apart
  rw [← Option.some.inj found] at apart
  have ordered := (List.pairwise_cons.mp apart).1 ⟨"b", 3, 3, 7, 8, []⟩ List.mem_cons_self
  exact absurd ordered (by decide)

end Texo.Extract
