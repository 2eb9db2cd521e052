import Texo.Extract.Markdown
import Texo.Ops.Capture

/-! # Lines found twice

Extraction numbers the lines of a text by its line feeds and keeps some of them; planning evidence
looks a line up again by its number in the raw bytes. Both delimit the lines alike.
-/
namespace Texo.Ops
open Texo.Events Texo.Extract

/-- The bytes of some characters. -/
def charBytes (chars : List Char) : List UInt8 := chars.flatMap String.utf8EncodeChar

/-- As many bytes as the characters are long. -/
theorem length_charBytes (chars : List Char) : (charBytes chars).length = byteLength chars := by
  unfold charBytes byteLength
  rw [List.length_flatMap]
  congr 1
  apply List.map_congr_left
  intro c _
  exact String.length_utf8EncodeChar c

/-- The line feed is a byte of no other character. -/
theorem newline_notMem_charBytes {chars : List Char} (clear : '\n' ∉ chars) :
    10 ∉ charBytes chars := by
  intro member
  obtain ⟨c, inside, encoded⟩ := List.mem_flatMap.mp member
  have same : c = '\n' := by
    unfold String.utf8EncodeChar at encoded
    simp only at encoded
    have value : ∀ number : Nat, (10 : UInt8) = UInt8.ofNat number → number % 256 = 10 := by
      intro number same
      have numbers := congrArg UInt8.toNat same
      simpa [UInt8.toNat_ofNat'] using numbers.symm
    split at encoded
    · rename_i small
      have number := value _ (List.mem_singleton.mp encoded)
      apply Char.ext
      apply UInt32.toNat.inj
      show c.val.toNat = 10
      omega
    · split at encoded
      · simp only [List.mem_cons, List.not_mem_nil, or_false] at encoded
        rcases encoded with first | second
        · have number := value _ first
          omega
        · have number := value _ second
          omega
      · split at encoded
        · simp only [List.mem_cons, List.not_mem_nil, or_false] at encoded
          rcases encoded with first | second | third
          · have number := value _ first
            omega
          · have number := value _ second
            omega
          · have number := value _ third
            omega
        · simp only [List.mem_cons, List.not_mem_nil, or_false] at encoded
          rcases encoded with first | second | third | fourth
          · have number := value _ first
            omega
          · have number := value _ second
            omega
          · have number := value _ third
            omega
          · have number := value _ fourth
            omega
  rw [same] at inside
  exact clear inside

/-- Segments of a text: each but the last ends at its only line feed, the last holds none. -/
inductive Segments : List (List Char) → Prop
  | nil : Segments []
  | last {content : List Char} (clear : '\n' ∉ content) : Segments [content]
  | cons {content : List Char} {rest : List (List Char)} (clear : '\n' ∉ content)
      (later : Segments rest) : Segments ((content ++ ['\n']) :: rest)

/-- Splitting gives segments that make up the text. -/
theorem segments_splitInclusive (chars : List Char) :
    Segments (splitInclusive chars) ∧ (splitInclusive chars).flatten = chars := by
  induction chars with
  | nil => exact ⟨.nil, rfl⟩
  | cons c rest ih =>
    obtain ⟨segments, whole⟩ := ih
    unfold splitInclusive
    by_cases feed : c = '\n'
    · rw [if_pos feed, feed]
      refine ⟨?_, by rw [List.flatten_cons, whole]; rfl⟩
      have empty : '\n' ∉ ([] : List Char) := List.not_mem_nil
      exact .cons empty segments
    · rw [if_neg feed]
      have apart : '\n' ≠ c := Ne.symm feed
      cases split : splitInclusive rest with
      | nil =>
        rw [split] at whole
        refine ⟨.last (by simpa using apart), ?_⟩
        rw [← whole]
        rfl
      | cons segment behind =>
        rw [split] at segments whole
        refine ⟨?_, by rw [← whole]; rfl⟩
        cases segments with
        | last clear => exact .last (by simp [apart, clear])
        | @cons content _ clear later =>
          exact @Segments.cons (c :: content) _ (by simp [apart, clear]) later

/-- Stripping a segment takes the line feed and at most one carriage return before it. -/
theorem stripTerminator_feed (content : List Char) :
    content = stripTerminator (content ++ ['\n']) ∨
      content = stripTerminator (content ++ ['\n']) ++ ['\r'] := by
  unfold stripTerminator
  rw [List.reverse_append, List.reverse_singleton, List.singleton_append]
  cases turned : content.reverse with
  | nil =>
    left
    rw [List.reverse_eq_nil_iff] at turned
    rw [turned]
    rfl
  | cons c rest =>
    have whole : content = rest.reverse ++ [c] := by
      rw [← List.reverse_reverse content, turned, List.reverse_cons]
    by_cases carriage : c = '\r'
    · right
      rw [whole, carriage]
      rfl
    · left
      rw [whole]
      split
      · rename_i other same
        exact absurd (List.cons.inj (List.cons.inj same).2).1 carriage
      · rename_i other _ same
        rw [← (List.cons.inj same).2, List.reverse_cons]
      · rename_i other
        exact (other _ rfl).elim

/-- A segment without a line feed is not stripped. -/
theorem stripTerminator_clear {content : List Char} (clear : '\n' ∉ content) :
    stripTerminator content = content := by
  have turned : '\n' ∉ content.reverse := by simpa using clear
  unfold stripTerminator
  split
  · rename_i same
    rw [same] at turned
    exact absurd List.mem_cons_self turned
  · rename_i same
    rw [same] at turned
    exact absurd List.mem_cons_self turned
  · rfl

/-- The line of a segment at an index and an offset. -/
def lineAt (index offset : Nat) (segment : List Char) : MarkdownLine :=
  ⟨min (index + 1) (2 ^ 32 - 1), String.ofList (stripTerminator segment), offset⟩

/-- All lines of some segments, those extraction drops included. -/
def allLines : Nat → Nat → List (List Char) → List MarkdownLine
  | _, _, [] => []
  | index, offset, segment :: rest =>
    lineAt index offset segment :: allLines (index + 1) (offset + byteLength segment) rest

/-- One segment moves on by one line and its bytes, and its line is kept or dropped. -/
theorem step_spec (parse : LineParse) (segment : List Char) :
    (parse.step segment).index = parse.index + 1 ∧
      (parse.step segment).offset = parse.offset + byteLength segment ∧
      ((parse.step segment).lines = parse.lines ∨
        (parse.step segment).lines = parse.lines ++ [lineAt parse.index parse.offset segment]) := by
  unfold LineParse.step
  simp only
  split
  · exact ⟨rfl, rfl, Or.inl rfl⟩
  · split
    · exact ⟨rfl, rfl, Or.inl rfl⟩
    · split
      · split
        · exact ⟨rfl, rfl, Or.inl rfl⟩
        · exact ⟨rfl, rfl, Or.inl rfl⟩
      · split
        · exact ⟨rfl, rfl, Or.inl rfl⟩
        · split
          · exact ⟨rfl, rfl, Or.inl rfl⟩
          · exact ⟨rfl, rfl, Or.inr rfl⟩

/-- Parsing keeps some of all lines, in order. -/
theorem foldl_step_lines (segments : List (List Char)) (parse : LineParse) :
    ∃ kept, (segments.foldl LineParse.step parse).lines = parse.lines ++ kept ∧
      kept.Sublist (allLines parse.index parse.offset segments) := by
  induction segments generalizing parse with
  | nil => exact ⟨[], (List.append_nil _).symm, List.Sublist.refl _⟩
  | cons segment rest ih =>
    obtain ⟨index, offset, lines⟩ := step_spec parse segment
    obtain ⟨kept, whole, inside⟩ := ih (parse.step segment)
    rw [index, offset] at inside
    rw [List.foldl_cons, whole]
    rcases lines with dropped | kept'
    · exact ⟨kept, by rw [dropped], inside.cons _⟩
    · refine ⟨lineAt parse.index parse.offset segment :: kept, ?_, inside.cons_cons _⟩
      rw [kept', List.append_assoc]
      rfl

/-- The extracted lines are some of all lines. -/
theorem parseLines_sublist (text : String) :
    (parseLines text).Sublist (allLines 0 0 (splitInclusive text.toList)) := by
  obtain ⟨kept, whole, inside⟩ := foldl_step_lines (splitInclusive text.toList) {}
  unfold parseLines
  rw [whole]
  exact inside

/-- Scanning a content without a line feed only moves the offset. -/
theorem scan_content {content : List UInt8} (clear : 10 ∉ content) (first last : Nat)
    (rest : List UInt8) (offset line lineStart : Nat) (rangeStart : Option Nat) :
    lineByteRangeFrom first last (content ++ rest) offset line lineStart rangeStart =
      lineByteRangeFrom first last rest (offset + content.length) line lineStart rangeStart := by
  induction content generalizing offset with
  | nil => rfl
  | cons byte content ih =>
    have apart : byte ≠ 10 := by
      intro same
      exact clear (same ▸ List.mem_cons_self)
    rw [List.cons_append, lineByteRangeFrom, if_neg apart,
      ih (fun member => clear (List.mem_cons_of_mem _ member)), List.length_cons]
    congr 1
    omega

/-- The lines of segments are numbered upwards from their index and start behind their offset, one
behind the other. -/
theorem allLines_after (index offset : Nat) (segments : List (List Char)) :
    ∀ line ∈ allLines index offset segments, min (index + 1) (2 ^ 32 - 1) ≤ line.number ∧
      offset ≤ line.charStart := by
  induction segments generalizing index offset with
  | nil => simp [allLines]
  | cons segment rest ih =>
    intro line member
    rcases List.mem_cons.mp member with rfl | behind
    · exact ⟨Nat.le_refl _, Nat.le_refl _⟩
    · obtain ⟨number, start⟩ := ih _ _ line behind
      omega

/-- Where a line of some segments stands in their bytes, and that scanning for its number finds it
there, with the carriage return of its terminator. -/
theorem line_place {segments : List (List Char)} (split : Segments segments) (index offset : Nat) :
    ∀ line ∈ allLines index offset segments, ∃ before carriage tail,
      charBytes segments.flatten = before ++ asBytes line.text ++ carriage ++ tail ∧
      before.length + offset = line.charStart ∧
      (carriage = [] ∨ carriage = [13] ∧ tail.head? = some 10) ∧
      (index + segments.length < 2 ^ 32 →
        lineByteRangeFrom line.number line.number (charBytes segments.flatten) offset (index + 1)
          offset none =
        some (line.charStart, line.charStart + (asBytes line.text).length + carriage.length)) := by
  induction split generalizing index offset with
  | nil => simp [allLines]
  | @last content clear =>
    intro line member
    have same : line = lineAt index offset content := List.mem_singleton.mp member
    have text : line.text = String.ofList content := by
      rw [same, lineAt, stripTerminator_clear clear]
    have bytes : asBytes line.text = charBytes content := by
      rw [text]
      unfold asBytes
      rw [String.toList_ofList]
      rfl
    rw [bytes, List.flatten_cons, List.flatten_nil, List.append_nil]
    refine ⟨[], [], [], by simp, by rw [same]; simp [lineAt], Or.inl rfl, ?_⟩
    intro few
    have number : line.number = index + 1 := by
      rw [same]
      show min (index + 1) (2 ^ 32 - 1) = index + 1
      simp only [List.length_singleton] at few
      omega
    have scanned := scan_content (newline_notMem_charBytes clear) line.number line.number [] offset
      (index + 1) offset none
    rw [List.append_nil] at scanned
    rw [scanned, lineByteRangeFrom, if_pos number.symm, if_pos number.symm, same]
    rfl
  | @cons content rest clear later ih =>
    intro line member
    have feed : charBytes ((content ++ ['\n']) :: rest).flatten =
        charBytes content ++ 10 :: charBytes rest.flatten := by
      unfold charBytes
      rw [List.flatten_cons, List.append_assoc, List.flatMap_append, List.flatMap_append]
      rfl
    have width : byteLength (content ++ ['\n']) = (charBytes content).length + 1 := by
      rw [← length_charBytes]
      unfold charBytes
      rw [List.flatMap_append, List.length_append]
      rfl
    rw [feed]
    rcases List.mem_cons.mp member with same | behind
    · have text : line.text = String.ofList (stripTerminator (content ++ ['\n'])) := by
        rw [same, lineAt]
      have bytes : asBytes line.text = charBytes (stripTerminator (content ++ ['\n'])) := by
        rw [text]
        unfold asBytes
        rw [String.toList_ofList]
        rfl
      have ends : ∃ carriage, charBytes content = asBytes line.text ++ carriage ∧
          (carriage = [] ∨ carriage = [13]) := by
        rw [bytes]
        rcases stripTerminator_feed content with plain | carriage
        · exact ⟨[], by rw [← plain, List.append_nil], Or.inl rfl⟩
        · refine ⟨[13], ?_, Or.inr rfl⟩
          have encoded := congrArg charBytes carriage
          unfold charBytes at encoded ⊢
          rw [List.flatMap_append] at encoded
          exact encoded
      obtain ⟨carriage, whole, kind⟩ := ends
      refine ⟨[], carriage, 10 :: charBytes rest.flatten, by rw [whole]; rfl, ?_, ?_, ?_⟩
      · rw [same]
        exact Nat.zero_add _
      · rcases kind with none | one
        · exact Or.inl none
        · exact Or.inr ⟨one, rfl⟩
      · intro few
        have number : line.number = index + 1 := by
          rw [same]
          show min (index + 1) (2 ^ 32 - 1) = index + 1
          rw [List.length_cons] at few
          omega
        have start : line.charStart = offset := by
          rw [same]
          rfl
        rw [scan_content (newline_notMem_charBytes clear), lineByteRangeFrom, if_pos rfl,
          if_pos number.symm, if_pos number.symm, start, whole, List.length_append]
        show some _ = some _
        rw [Nat.add_assoc]
    · obtain ⟨before, carriage, tail, whole, place, kind, scanned⟩ :=
        ih (index + 1) (offset + byteLength (content ++ ['\n'])) line behind
      refine ⟨charBytes content ++ 10 :: before, carriage, tail, ?_, ?_, kind, ?_⟩
      · rw [whole]
        simp only [List.append_assoc, List.cons_append]
      · rw [← place, width, List.length_append, List.length_cons]
        omega
      · intro few
        rw [List.length_cons] at few
        have some' : 0 < rest.length := by
          cases rest with
          | nil => cases behind
          | cons segment rest => exact Nat.succ_pos _
        have number := (allLines_after _ _ rest line behind).1
        have apart : index + 1 ≠ line.number := by omega
        have next : saturatingAdd32 (index + 1) 1 = index + 1 + 1 := by
          unfold saturatingAdd32
          omega
        rw [scan_content (newline_notMem_charBytes clear), lineByteRangeFrom, if_pos rfl,
          if_neg apart, if_neg apart, next]
        have aligned : offset + (charBytes content).length + 1 =
            offset + byteLength (content ++ ['\n']) := by
          rw [width, Nat.add_assoc]
        rw [aligned]
        exact scanned (by omega)

/-- Lines of segments end before the next one starts. -/
theorem allLines_apart {segments : List (List Char)} (split : Segments segments)
    (index offset : Nat) : (allLines index offset segments).Pairwise fun line next =>
      line.charStart + (asBytes line.text).length ≤ next.charStart := by
  induction split generalizing index offset with
  | nil => exact List.Pairwise.nil
  | last clear => exact List.pairwise_singleton _ _
  | @cons content rest clear later ih =>
    refine List.pairwise_cons.mpr ⟨?_, ih _ _⟩
    intro next behind
    have start := (allLines_after _ _ rest next behind).2
    have shorter : (asBytes (lineAt index offset (content ++ ['\n'])).text).length ≤
        byteLength (content ++ ['\n']) := by
      have bytes : asBytes (lineAt index offset (content ++ ['\n'])).text =
          charBytes (stripTerminator (content ++ ['\n'])) := by
        unfold lineAt asBytes
        rw [String.toList_ofList]
        rfl
      rw [bytes, ← length_charBytes]
      have wider : ∀ front back : List Char,
          (charBytes front).length ≤ (charBytes (front ++ back)).length := by
        intro front back
        unfold charBytes
        rw [List.flatMap_append, List.length_append]
        exact Nat.le_add_right _ _
      rcases stripTerminator_feed content with plain | carriage
      · rw [← plain]
        exact wider _ _
      · have longer := wider (stripTerminator (content ++ ['\n'])) ['\r']
        rw [← carriage] at longer
        exact longer.trans (wider _ _)
    show offset + (asBytes (lineAt index offset (content ++ ['\n'])).text).length ≤ next.charStart
    omega

/-- Fewer than 2³² lines are numbered strictly upwards. -/
theorem allLines_numbered (index offset : Nat) {segments : List (List Char)}
    (few : index + segments.length < 2 ^ 32) :
    (allLines index offset segments).Pairwise fun line next => line.number < next.number := by
  induction segments generalizing index offset with
  | nil => exact List.Pairwise.nil
  | cons segment rest ih =>
    rw [List.length_cons] at few
    refine List.pairwise_cons.mpr ⟨?_, ih _ _ (by omega)⟩
    intro next behind
    have some' : 0 < rest.length := by
      cases rest with
      | nil => cases behind
      | cons segment rest => exact Nat.succ_pos _
    have number := (allLines_after _ _ rest next behind).1
    show min (index + 1) (2 ^ 32 - 1) < next.number
    omega

/-- The extracted lines are the bytes where they start and do not overlap; and among fewer than
2³² lines, scanning for the number of a line finds it at its start, with at most the carriage return
of its terminator behind, and the numbers are strictly increasing. -/
theorem parseLines_ranges (text : String) :
    (∀ line ∈ parseLines text,
        byteSlice (asBytes text) (line.charStart, line.charStart + (asBytes line.text).length) =
          asBytes line.text) ∧
      (parseLines text).Pairwise (fun line next =>
        line.charStart + (asBytes line.text).length ≤ next.charStart) ∧
      ((splitInclusive text.toList).length < 2 ^ 32 →
        (∀ line ∈ parseLines text, ∃ stop,
          lineByteRange (asBytes text) line.number line.number = some (line.charStart, stop) ∧
          (byteSlice (asBytes text) (line.charStart, stop) = asBytes line.text ∨
            byteSlice (asBytes text) (line.charStart, stop) = asBytes line.text ++ [13] ∧
              (asBytes text)[stop]? = some 10)) ∧
        (parseLines text).Pairwise fun line next => line.number < next.number) := by
  obtain ⟨split, whole⟩ := segments_splitInclusive text.toList
  have inside := parseLines_sublist text
  have bytes : charBytes (splitInclusive text.toList).flatten = asBytes text := by
    rw [whole]
    rfl
  have place := line_place split 0 0
  rw [bytes] at place
  refine ⟨?_, (allLines_apart split 0 0).sublist inside, ?_⟩
  · intro line member
    obtain ⟨before, carriage, tail, parts, start, _⟩ := place line (inside.subset member)
    rw [Nat.add_zero] at start
    unfold byteSlice
    rw [parts, ← start, Nat.add_sub_cancel_left, List.append_assoc, List.append_assoc,
      List.drop_left, List.take_left]
  · intro few
    refine ⟨?_, (allLines_numbered 0 0 (by omega)).sublist inside⟩
    intro line member
    obtain ⟨before, carriage, tail, parts, start, kind, scanned⟩ := place line (inside.subset member)
    rw [Nat.add_zero] at start
    have number := (allLines_after 0 0 _ line (inside.subset member)).1
    have positive : ¬ (line.number = 0 ∨ line.number < line.number) := by omega
    refine ⟨_, by unfold lineByteRange; rw [if_neg positive]; exact scanned (by omega), ?_⟩
    have slice : byteSlice (asBytes text) (line.charStart,
        line.charStart + (asBytes line.text).length + carriage.length) =
          asBytes line.text ++ carriage := by
      unfold byteSlice
      rw [parts, ← start, Nat.add_assoc before.length, Nat.add_sub_cancel_left,
        ← List.length_append, List.append_assoc before, List.append_assoc before, List.drop_left,
        List.take_left]
    rw [slice]
    rcases kind with none | ⟨one, feed⟩
    · rw [none, List.append_nil]
      exact Or.inl rfl
    · refine Or.inr ⟨by rw [one], ?_⟩
      have size : before.length + (asBytes line.text).length + carriage.length =
          (before ++ asBytes line.text ++ carriage).length := by
        rw [List.length_append, List.length_append]
      rw [parts, ← start, size, List.getElem?_append_right (Nat.le_refl _), Nat.sub_self,
        ← List.head?_eq_getElem?]
      exact feed

/-- Line feeds alone are segments of their own. -/
theorem splitInclusive_feeds (count : Nat) :
    splitInclusive (List.replicate count '\n') = List.replicate count ['\n'] := by
  induction count with
  | zero => rfl
  | succ count ih =>
    rw [List.replicate_succ, List.replicate_succ]
    show ['\n'] :: splitInclusive (List.replicate count '\n') = _
    rw [ih]

/-- Of line feeds alone every line is kept. -/
theorem foldl_feeds (count : Nat) (parse : LineParse) (outside : parse.inCodeBlock = false)
    (skips : parse.skippingFrontmatter = false) :
    ((List.replicate count ['\n']).foldl LineParse.step parse).lines =
      parse.lines ++ allLines parse.index parse.offset (List.replicate count ['\n']) := by
  induction count generalizing parse with
  | zero => exact (List.append_nil _).symm
  | succ count ih =>
    have raw : stripTerminator ['\n'] = [] := rfl
    have stepped : parse.step ['\n'] = { parse with
        index := parse.index + 1
        offset := parse.offset + byteLength ['\n']
        lines := parse.lines ++ [lineAt parse.index parse.offset ['\n']] } := by
      unfold LineParse.step
      simp only [raw, skips, outside]
      simp [byteLength, trim, trimStart, trimEndMatches, maxExtractableLineBytes, lineAt, raw]
    rw [List.replicate_succ, List.foldl_cons, ih _ (by rw [stepped]; exact outside)
      (by rw [stepped]; exact skips), stepped]
    show parse.lines ++ [_] ++ allLines _ _ _ = _
    rw [List.append_assoc]
    rfl

/-- Of all lines, those of a first and a second part. -/
theorem allLines_append (index offset : Nat) (first second : List (List Char)) :
    allLines index offset (first ++ second) = allLines index offset first ++
      allLines (index + first.length) (offset + (first.map byteLength).sum) second := by
  induction first generalizing index offset with
  | nil => rfl
  | cons segment rest ih =>
    rw [List.cons_append, allLines, ih]
    show _ :: (_ ++ _) = _ :: (_ ++ _)
    rw [List.length_cons, List.map_cons, List.sum_cons, Nat.add_assoc, Nat.add_assoc,
      Nat.add_comm 1]

/-- As many line feeds as line numbers have room for, and one more, have two lines of one number. -/
theorem feeds_share_number {front : Nat} (full : 2 ^ 32 - 1 ≤ front + 1) :
    ¬ (parseLines (String.ofList (List.replicate (front + 2) '\n'))).Pairwise
      fun line next => line.number < next.number := by
  intro increasing
  unfold parseLines at increasing
  rw [String.toList_ofList, splitInclusive_feeds, foldl_feeds _ _ rfl rfl,
    ← List.replicate_append_replicate, allLines_append] at increasing
  have last := (List.pairwise_append.mp (List.pairwise_append.mp increasing).2.1).2.1
  rw [List.length_replicate] at last
  have pair := (List.pairwise_cons.mp last).1 _ List.mem_cons_self
  have numbers : min (0 + front + 1) (2 ^ 32 - 1) < min (0 + front + 1 + 1) (2 ^ 32 - 1) := pair
  omega

/-- A text of 2³² line feeds has two lines of one number. -/
theorem last_lines_share_number :
    ¬ (parseLines (String.ofList (List.replicate (4294967294 + 2) '\n'))).Pairwise
      fun line next => line.number < next.number :=
  feeds_share_number (by omega)

end Texo.Ops
