import Texo.Extract.CandidateLaws
import Texo.Extract.Prose
import Texo.Foundation.Pieces

/-! # When masking follows the parser

The parser of lines skips a line that is too long, and the segmenter blanks such lines before it
reads a source. The two take a line's end off by rules of their own, so a line can be skipped and
not blanked. They agree exactly where every skipped line is too long without the carriage returns
at its end, or is blanked for the sake of one that is.
-/
namespace Texo.Extract
open Texo.Events Texo.Foundation Texo.Ops

/-- One line of the loop of `mask_oversized_lines`, over its bytes. -/
def maskLineBytes (line : List UInt8) : List UInt8 :=
  let stop := if line.getLast? = some 10 then line.length - 1 else line.length
  let contentEnd := if (line.take stop).getLast? = some 13 then stop - 1 else stop
  if maxExtractableLineBytes < contentEnd then
    List.replicate contentEnd 32 ++ line.drop contentEnd
  else
    line

/-- Some line is too long without the line ends at its end. -/
def hasOversizedLine (source : String) : Bool :=
  (splitInclusive source.toList).any fun line =>
    maxExtractableLineBytes < byteLength (trimEndMatches (fun c => c = '\r' || c = '\n') line)

/-- The bytes that `mask_oversized_lines` takes for its text. -/
def maskOversizedBytes (source : String) : List UInt8 :=
  if hasOversizedLine source then (pieces 10 (asBytes source)).flatMap maskLineBytes
  else asBytes source

/-- `parse_lines` skips a segment as too long. -/
def SkipsLine (segment : List Char) : Prop :=
  maxExtractableLineBytes < byteLength (stripTerminator segment)

instance (segment : List Char) : Decidable (SkipsLine segment) :=
  inferInstanceAs (Decidable (maxExtractableLineBytes < byteLength (stripTerminator segment)))

/-- A segment with spaces for its line where `parse_lines` skips it. -/
def blankSkipped (segment : List Char) : List Char :=
  if SkipsLine segment then
    List.replicate (byteLength (stripTerminator segment)) ' ' ++
      segment.drop (stripTerminator segment).length
  else
    segment

/-- Masking keeps the length of a source and its line feeds, is valid UTF-8 and puts spaces for the
lines that `parse_lines` skips as too long, and for nothing else. -/
structure MasksAsParsed (source : String) : Prop where
  sameLength : byteLength (maskOversizedLines source).toList = byteLength source.toList
  sameFeeds : feedBytes (maskOversizedLines source).toList = feedBytes source.toList
  valid : fromUtf8 (maskOversizedBytes source) = some (maskOversizedLines source)
  lines : (maskOversizedLines source).toList =
    ((splitInclusive source.toList).map blankSkipped).flatten

section Ends

/-- What ends at a character is split there. -/
theorem splitLast_concat (last : Char) (front : List Char) :
    splitLast last (front ++ [last]) = (front, [last]) := by
  unfold splitLast
  rw [List.reverse_append, List.reverse_singleton, List.singleton_append]
  dsimp only
  rw [if_pos rfl, List.reverse_reverse]

/-- What ends otherwise is left whole. -/
theorem splitLast_of_ne {last : Char} {text : List Char} (other : text.getLast? ≠ some last) :
    splitLast last text = (text, []) := by
  unfold splitLast
  split
  · rename_i c rest turned
    have whole : text = rest.reverse ++ [c] := by
      rw [← List.reverse_reverse text, turned, List.reverse_cons]
    have apart : c ≠ last := by
      intro same
      rw [whole, List.getLast?_concat, same] at other
      exact other rfl
    exact if_neg apart
  · rfl

/-- The content of a line and the carriage return at its end, if there is one. -/
theorem content_cases (content : List Char) :
    (∃ front, content = front ++ ['\r'] ∧ splitLast '\r' content = (front, ['\r'])) ∨
      (content.getLast? ≠ some '\r' ∧ splitLast '\r' content = (content, [])) := by
  by_cases carriage : content.getLast? = some '\r'
  · left
    obtain ⟨front, whole⟩ := List.getLast?_eq_some_iff.mp carriage
    refine ⟨front, whole, ?_⟩
    rw [whole]
    exact splitLast_concat '\r' front
  · right
    exact ⟨carriage, splitLast_of_ne carriage⟩

/-- A line with its line feed is stripped of one carriage return. -/
theorem stripTerminator_ended (content : List Char) :
    stripTerminator (content ++ ['\n']) = (splitLast '\r' content).1 := by
  rcases content_cases content with ⟨front, whole, split⟩ | ⟨other, split⟩
  · rw [split, whole]
    unfold stripTerminator
    rw [List.reverse_append, List.reverse_append, List.reverse_singleton, List.reverse_singleton]
    exact List.reverse_reverse front
  · rw [split]
    rcases stripTerminator_feed content with same | carriage
    · exact same.symm
    · rw [carriage, List.getLast?_concat] at other
      exact absurd rfl other

/-- A line that ends at its line feed is no line without one. -/
theorem getLast?_clear {content : List Char} (clear : '\n' ∉ content) :
    content.getLast? ≠ some '\n' := fun last => clear (List.mem_of_getLast? last)

/-- Masking a line with its line feed. -/
theorem maskLine_ended (content : List Char) :
    maskLine (content ++ ['\n']) =
      if maxExtractableLineBytes < byteLength (splitLast '\r' content).1 then
        List.replicate (byteLength (splitLast '\r' content).1) ' ' ++
          (splitLast '\r' content).2 ++ ['\n']
      else content ++ ['\n'] := by
  unfold maskLine
  rw [splitLast_concat]

/-- Masking a last line without a line feed. -/
theorem maskLine_last {content : List Char} (clear : '\n' ∉ content) :
    maskLine content =
      if maxExtractableLineBytes < byteLength (splitLast '\r' content).1 then
        List.replicate (byteLength (splitLast '\r' content).1) ' ' ++ (splitLast '\r' content).2
      else content := by
  unfold maskLine
  rw [splitLast_of_ne (getLast?_clear clear)]
  dsimp only
  rw [List.append_nil]

/-- A line with its line feed is blanked by the loop where the parser skips it. -/
theorem maskLine_eq_ended (content : List Char) :
    maskLine (content ++ ['\n']) = blankSkipped (content ++ ['\n']) := by
  have rest : (content ++ ['\n']).drop (splitLast '\r' content).1.length =
      (splitLast '\r' content).2 ++ ['\n'] := by
    have whole := splitLast_append '\r' content
    generalize splitLast '\r' content = parts at whole
    rw [← whole, List.append_assoc]
    exact List.drop_left' rfl
  have skips : SkipsLine (content ++ ['\n']) ↔
      maxExtractableLineBytes < byteLength (splitLast '\r' content).1 := by
    unfold SkipsLine
    rw [stripTerminator_ended]
  rw [maskLine_ended]
  unfold blankSkipped
  by_cases skipped : SkipsLine (content ++ ['\n'])
  · rw [if_pos skipped, if_pos (skips.mp skipped), stripTerminator_ended, rest, List.append_assoc]
  · rw [if_neg skipped, if_neg fun long => skipped (skips.mpr long)]

/-- A last line that does not end in a carriage return is, too. -/
theorem maskLine_eq_last {content : List Char} (clear : '\n' ∉ content)
    (other : SkipsLine content → content.getLast? ≠ some '\r') :
    maskLine content = blankSkipped content := by
  rw [maskLine_last clear]
  unfold blankSkipped
  by_cases skipped : SkipsLine content
  · have long := skipped
    unfold SkipsLine at long
    rw [stripTerminator_clear clear] at long
    rw [if_pos skipped, splitLast_of_ne (other skipped), stripTerminator_clear clear, if_pos long,
      List.drop_length]
  · rw [if_neg skipped]
    unfold SkipsLine at skipped
    rw [stripTerminator_clear clear] at skipped
    have shorter : byteLength (splitLast '\r' content).1 ≤ byteLength content := by
      conv => rhs; rw [← splitLast_append '\r' content]
      rw [byteLength_append]
      omega
    exact if_neg (by omega)

end Ends

section Bytes

/-- Spaces as bytes. -/
theorem encodeChars_spaces (count : Nat) :
    encodeChars (List.replicate count ' ') = List.replicate count 32 := by
  induction count with
  | zero => rfl
  | succ count ih =>
    have first : encodeChars (List.replicate (count + 1) ' ') =
        32 :: encodeChars (List.replicate count ' ') := rfl
    rw [first, ih, List.replicate_succ]

/-- Bytes one text after the other. -/
theorem encodeChars_append (front back : List Char) :
    encodeChars (front ++ back) = encodeChars front ++ encodeChars back := List.flatMap_append

/-- The bytes of a text end in a carriage return where the text does. -/
theorem getLast?_encodeChars {content : List Char} (other : content.getLast? ≠ some '\r') :
    (encodeChars content).getLast? ≠ some 13 := by
  intro last
  obtain ⟨early, bytes⟩ := List.getLast?_eq_some_iff.mp last
  obtain ⟨front, back, parts, _, behind⟩ :=
    encodeChars_around (show String.utf8EncodeChar '\r' = [13] by decide) bytes
  cases back with
  | nil =>
    rw [parts, List.getLast?_concat] at other
    exact other rfl
  | cons c back =>
    have some := encode_ne_nil c
    exact some (List.append_eq_nil_iff.mp behind).1

/-- The loop over the bytes of a line masks the line: `stop` is behind its content and the carriage
return there. -/
theorem maskLineBytes_content {content : List Char} {feed : List UInt8}
    (stops : (if (encodeChars content ++ feed).getLast? = some 10 then
      (encodeChars content ++ feed).length - 1 else (encodeChars content ++ feed).length) =
        (encodeChars content).length) :
    maskLineBytes (encodeChars content ++ feed) =
      if maxExtractableLineBytes < byteLength (splitLast '\r' content).1 then
        List.replicate (byteLength (splitLast '\r' content).1) 32 ++
          encodeChars (splitLast '\r' content).2 ++ feed
      else encodeChars content ++ feed := by
  unfold maskLineBytes
  dsimp only
  rw [stops, List.take_left' rfl]
  rcases content_cases content with ⟨front, whole, split⟩ | ⟨other, split⟩
  · have bytes : encodeChars content = encodeChars front ++ [13] := by
      rw [whole, encodeChars_append]
      rfl
    have size : (encodeChars content).length - 1 = byteLength front := by
      rw [bytes, List.length_append]
      exact length_charBytes front
    have last : (encodeChars content).getLast? = some 13 := by
      rw [bytes, List.getLast?_concat]
    have rest : (encodeChars content ++ feed).drop (byteLength front) = [13] ++ feed := by
      rw [bytes, List.append_assoc]
      exact List.drop_left' (length_charBytes front)
    rw [if_pos last, size, rest, split, List.append_assoc]
    rfl
  · have size : (encodeChars content).length = byteLength content := length_charBytes content
    rw [if_neg (getLast?_encodeChars other), size, List.drop_left' size, split]
    dsimp only
    rw [show encodeChars [] = [] from rfl, List.append_nil]

/-- The bytes of a line with its line feed. -/
theorem maskLineBytes_ended (content : List Char) :
    maskLineBytes (encodeChars content ++ [10]) = encodeChars (maskLine (content ++ ['\n'])) := by
  rw [maskLineBytes_content, maskLine_ended]
  · split
    · rw [encodeChars_append, encodeChars_append, encodeChars_spaces]
      rfl
    · rw [encodeChars_append]
      rfl
  · rw [List.getLast?_concat, if_pos rfl, List.length_append]
    rfl

/-- The bytes of a last line without a line feed. -/
theorem maskLineBytes_last {content : List Char} (clear : '\n' ∉ content) :
    maskLineBytes (encodeChars content) = encodeChars (maskLine content) := by
  have plain : 10 ∉ encodeChars content := newline_notMem_charBytes clear
  have masked := @maskLineBytes_content content []
  rw [List.append_nil] at masked
  rw [masked, maskLine_last clear]
  · split
    · rw [encodeChars_append, encodeChars_spaces, List.append_nil]
    · rfl
  · rw [if_neg fun last => plain (List.mem_of_getLast? last)]

/-- The loop over the bytes of a source masks its lines. -/
theorem maskLineBytes_lines {segments : List (List Char)} (shape : Segments segments) :
    (pieces 10 (encodeChars segments.flatten)).flatMap maskLineBytes =
      encodeChars (segments.map maskLine).flatten := by
  induction shape with
  | nil => rfl
  | @last content clear =>
    have plain : 10 ∉ encodeChars content := newline_notMem_charBytes clear
    rw [List.flatten_singleton, List.map_singleton, List.flatten_singleton]
    by_cases empty : encodeChars content = []
    · rw [← maskLineBytes_last clear, empty]
      rfl
    · rw [pieces_last plain empty, List.flatMap_singleton, maskLineBytes_last clear]
  | @cons content rest clear _ ih =>
    have plain : 10 ∉ encodeChars content := newline_notMem_charBytes clear
    have bytes : encodeChars ((content ++ ['\n']) :: rest).flatten =
        encodeChars content ++ 10 :: encodeChars rest.flatten := by
      rw [List.flatten_cons, List.append_assoc, encodeChars_append]
      rfl
    rw [bytes, pieces_append plain, List.flatMap_cons, ih, maskLineBytes_ended, List.map_cons,
      List.flatten_cons, encodeChars_append]

/-- The bytes that `mask_oversized_lines` decodes are those of the masked source. -/
theorem fromUtf8_maskOversizedBytes (source : String) :
    fromUtf8 (maskOversizedBytes source) = some (maskOversizedLines source) := by
  obtain ⟨shape, whole⟩ := segments_splitInclusive source.toList
  rw [fromUtf8_eq_some]
  unfold maskOversizedBytes maskOversizedLines hasOversizedLine
  dsimp only
  split
  · have lines := maskLineBytes_lines shape
    rw [whole] at lines
    have text : asBytes (String.ofList ((splitInclusive source.toList).map maskLine).flatten) =
        encodeChars ((splitInclusive source.toList).map maskLine).flatten := by
      unfold asBytes encodeChars
      rw [String.toList_ofList]
    rw [text, ← lines]
    rfl
  · rfl

end Bytes

section Agreement

/-- The line ends at the end of a segment are those at the end of its stripped line. -/
theorem trim_stripTerminator {segments : List (List Char)} (shape : Segments segments) :
    ∀ segment ∈ segments,
      trimEndMatches (fun c => c = '\r' || c = '\n') (stripTerminator segment) =
        trimEndMatches (fun c => c = '\r' || c = '\n') segment := by
  have drops (text : List Char) {c : Char} (ends : (c = '\r' || c = '\n') = true) :
      trimEndMatches (fun c => c = '\r' || c = '\n') (text ++ [c]) =
        trimEndMatches (fun c => c = '\r' || c = '\n') text := by
    unfold trimEndMatches
    rw [List.reverse_append, List.reverse_singleton, List.singleton_append, List.dropWhile_cons,
      if_pos ends]
  induction shape with
  | nil => exact fun _ member => absurd member List.not_mem_nil
  | @last content clear =>
    intro segment member
    rw [List.mem_singleton.mp member, stripTerminator_clear clear]
  | @cons content rest clear _ ih =>
    intro segment member
    cases List.mem_cons.mp member with
    | inl same =>
      rw [same, stripTerminator_ended, drops content (by decide)]
      rcases content_cases content with ⟨front, whole, split⟩ | ⟨_, split⟩
      · rw [split, whole, drops front (by decide)]
      · rw [split]
    | inr later => exact ih segment later

/-- A stripped line has no line feed, and its segment goes on behind it. -/
theorem stripTerminator_segment {segments : List (List Char)} (shape : Segments segments) :
    ∀ segment ∈ segments, '\n' ∉ stripTerminator segment ∧
      ∃ rest, segment = stripTerminator segment ++ rest := by
  induction shape with
  | nil => exact fun _ member => absurd member List.not_mem_nil
  | @last content clear =>
    intro segment member
    rw [List.mem_singleton.mp member, stripTerminator_clear clear]
    exact ⟨clear, [], (List.append_nil content).symm⟩
  | @cons content rest clear _ ih =>
    intro segment member
    cases List.mem_cons.mp member with
    | inl same =>
      have whole := splitLast_append '\r' content
      rw [same, stripTerminator_ended]
      constructor
      · intro feed
        apply clear
        rw [← whole]
        exact List.mem_append_left _ feed
      · refine ⟨(splitLast '\r' content).2 ++ ['\n'], ?_⟩
        rw [← List.append_assoc, whole]
    | inr later => exact ih segment later

/-- A line that is skipped, but not for what it holds besides line ends, has a carriage return. -/
theorem carriage_of_skipped {segments : List (List Char)} (shape : Segments segments)
    {segment : List Char} (member : segment ∈ segments) (skipped : SkipsLine segment)
    (short : ¬maxExtractableLineBytes <
      byteLength (trimEndMatches (fun c => c = '\r' || c = '\n') segment)) :
    '\r' ∈ stripTerminator segment := by
  by_contra clear
  apply short
  have feedless := (stripTerminator_segment shape segment member).1
  have kept : trimEndMatches (fun c => c = '\r' || c = '\n') (stripTerminator segment) =
      stripTerminator segment := by
    unfold trimEndMatches
    cases turned : (stripTerminator segment).reverse with
    | nil => exact (List.reverse_eq_nil_iff.mp turned).symm
    | cons c rest =>
      have inside : c ∈ stripTerminator segment := by
        rw [← List.mem_reverse, turned]
        exact List.mem_cons_self
      have visible : ¬(c = '\r' || c = '\n') = true := by
        intro ends
        rcases Bool.or_eq_true_iff.mp ends with carriage | feed
        · exact clear (of_decide_eq_true carriage ▸ inside)
        · exact feedless (of_decide_eq_true feed ▸ inside)
      rw [List.dropWhile_cons, if_neg visible, ← turned, List.reverse_reverse]
  rw [← trim_stripTerminator shape segment member, kept]
  exact skipped

/-- Lines masked in two ways give one text only where each is masked alike. -/
theorem mask_inj {segments : List (List Char)} (shape : Segments segments)
    {mask : List Char → List Char}
    (ended : ∀ content, '\n' ∉ content → mask (content ++ ['\n']) =
      blankSkipped (content ++ ['\n']))
    (same : (segments.map mask).flatten = (segments.map blankSkipped).flatten) :
    ∀ segment ∈ segments, mask segment = blankSkipped segment := by
  induction shape with
  | nil => exact fun _ member => absurd member List.not_mem_nil
  | @last content clear =>
    intro segment member
    rw [List.mem_singleton.mp member]
    simpa using same
  | @cons content rest clear _ ih =>
    rw [List.map_cons, List.map_cons, List.flatten_cons, List.flatten_cons,
      ended content clear] at same
    intro segment member
    cases List.mem_cons.mp member with
    | inl here =>
      rw [here]
      exact ended content clear
    | inr later => exact ih (List.append_cancel_left same) segment later

/-- Blanking takes carriage returns only away. -/
theorem count_blankSkipped {segments : List (List Char)} (shape : Segments segments)
    {segment : List Char} (member : segment ∈ segments) :
    (blankSkipped segment).count '\r' ≤ segment.count '\r' ∧
      (SkipsLine segment → '\r' ∈ stripTerminator segment →
        (blankSkipped segment).count '\r' < segment.count '\r') := by
  unfold blankSkipped
  by_cases skipped : SkipsLine segment
  · obtain ⟨rest, whole⟩ := (stripTerminator_segment shape segment member).2
    have spaces : (List.replicate (byteLength (stripTerminator segment)) ' ').count '\r' = 0 := by
      rw [List.count_replicate]
      rfl
    rw [if_pos skipped, List.count_append, spaces]
    generalize stripTerminator segment = raw at whole
    have behind : segment.drop raw.length = rest := by
      rw [whole]
      exact List.drop_left' rfl
    have count : segment.count '\r' = raw.count '\r' + rest.count '\r' := by
      rw [whole, List.count_append]
    rw [behind, count]
    refine ⟨by omega, fun _ carriage => ?_⟩
    have positive := List.count_pos_iff.mpr carriage
    omega
  · rw [if_neg skipped]
    exact ⟨Nat.le_refl _, fun skips => absurd skips skipped⟩

/-- Where a line with a carriage return is blanked, the text has fewer of them. -/
theorem count_flatten_lt {segments : List (List Char)} {blank : List Char → List Char}
    (fewer : ∀ segment ∈ segments, (blank segment).count '\r' ≤ segment.count '\r')
    {segment : List Char} (member : segment ∈ segments)
    (less : (blank segment).count '\r' < segment.count '\r') :
    (segments.map blank).flatten.count '\r' < segments.flatten.count '\r' := by
  have all (segments : List (List Char))
      (fewer : ∀ segment ∈ segments, (blank segment).count '\r' ≤ segment.count '\r') :
      (segments.map blank).flatten.count '\r' ≤ segments.flatten.count '\r' := by
    induction segments with
    | nil => exact Nat.le_refl _
    | cons first rest ih =>
      have here := fewer first List.mem_cons_self
      have later := ih fun other inside => fewer other (List.mem_cons_of_mem first inside)
      rw [List.map_cons, List.flatten_cons, List.flatten_cons, List.count_append,
        List.count_append]
      omega
  induction segments with
  | nil => exact absurd member List.not_mem_nil
  | cons first rest ih =>
    have here := fewer first List.mem_cons_self
    have later (other : List Char) (inside : other ∈ rest) :=
      fewer other (List.mem_cons_of_mem first inside)
    rw [List.map_cons, List.flatten_cons, List.flatten_cons, List.count_append,
      List.count_append]
    cases List.mem_cons.mp member with
    | inl same =>
      rw [same] at less
      have behind := all rest later
      omega
    | inr inside =>
      have behind := ih later inside
      omega

/-- Blanked lines of a last line without a line feed are spaces throughout. -/
theorem carriage_notMem_blankSkipped {content : List Char} (clear : '\n' ∉ content)
    (skipped : SkipsLine content) : '\r' ∉ blankSkipped content := by
  unfold blankSkipped
  rw [if_pos skipped, stripTerminator_clear clear, List.drop_length, List.append_nil]
  intro carriage
  exact absurd (List.eq_of_mem_replicate carriage) (by decide)

/-- A last line that ends in a carriage return keeps it when it is masked. -/
theorem carriage_mem_maskLine {content : List Char} (clear : '\n' ∉ content)
    (last : content.getLast? = some '\r') : '\r' ∈ maskLine content := by
  obtain ⟨front, whole⟩ := List.getLast?_eq_some_iff.mp last
  rw [maskLine_last clear]
  split
  · rw [whole, splitLast_concat]
    exact List.mem_append_right _ List.mem_cons_self
  · exact List.mem_of_getLast? last

/-- A segment that ends in a carriage return has no line feed. -/
theorem clear_of_carriage {segments : List (List Char)} (shape : Segments segments)
    {segment : List Char} (member : segment ∈ segments) (last : segment.getLast? = some '\r') :
    '\n' ∉ segment := by
  induction shape with
  | nil => exact absurd member List.not_mem_nil
  | last clear => exact List.mem_singleton.mp member ▸ clear
  | @cons content rest clear _ ih =>
    cases List.mem_cons.mp member with
    | inl same =>
      rw [same, List.getLast?_concat] at last
      cases last
    | inr later => exact ih later

/-- The lines of a text that the loop passes over are masked as the parser skips them where no
skipped line ends in a carriage return. -/
theorem maskLine_eq {segments : List (List Char)} (shape : Segments segments)
    (other : ∀ segment ∈ segments, SkipsLine segment → segment.getLast? ≠ some '\r') :
    ∀ segment ∈ segments, maskLine segment = blankSkipped segment := by
  induction shape with
  | nil => exact fun _ member => absurd member List.not_mem_nil
  | @last content clear =>
    intro segment member
    rw [List.mem_singleton.mp member]
    exact maskLine_eq_last clear (other content List.mem_cons_self)
  | @cons content rest _ _ ih =>
    intro segment member
    cases List.mem_cons.mp member with
    | inl same =>
      rw [same]
      exact maskLine_eq_ended content
    | inr later =>
      exact ih (fun next inside => other next (List.mem_cons_of_mem _ inside)) segment later

end Agreement

/-- Masking blanks just the lines that the parser skips as too long if and only if, where a line is
skipped, it does not end the source with a carriage return, and some line is too long without the
line ends at its end. -/
theorem masksAsParsed_iff (source : String) :
    MasksAsParsed source ↔
      ∀ segment ∈ splitInclusive source.toList, SkipsLine segment →
        segment.getLast? ≠ some '\r' ∧ hasOversizedLine source = true := by
  obtain ⟨shape, whole⟩ := segments_splitInclusive source.toList
  have masked : (maskOversizedLines source).toList =
      if hasOversizedLine source = true then
        ((splitInclusive source.toList).map maskLine).flatten
      else source.toList := by
    unfold maskOversizedLines hasOversizedLine
    dsimp only
    split
    · exact String.toList_ofList
    · rfl
  constructor
  · intro masks segment member skipped
    have lines := masks.lines
    have oversized : hasOversizedLine source = true := by
      by_contra none
      rw [masked, if_neg none] at lines
      have short : ¬maxExtractableLineBytes <
          byteLength (trimEndMatches (fun c => c = '\r' || c = '\n') segment) :=
        fun long => none (List.any_eq_true.mpr ⟨segment, member, decide_eq_true long⟩)
      have less := count_flatten_lt
        (fun other inside => (count_blankSkipped shape inside).1) member
        ((count_blankSkipped shape member).2 skipped
          (carriage_of_skipped shape member skipped short))
      rw [← lines, whole] at less
      exact Nat.lt_irrefl _ less
    refine ⟨?_, oversized⟩
    intro last
    rw [masked, if_pos oversized] at lines
    have same := mask_inj shape (fun content _ => maskLine_eq_ended content) lines segment member
    have clear := clear_of_carriage shape member last
    have kept := carriage_mem_maskLine clear last
    rw [same] at kept
    exact carriage_notMem_blankSkipped clear skipped kept
  · intro agrees
    have feeds := feedBytes_mask source
    have size (chars : List Char) : (feedBytes chars).length = byteLength chars := by
      unfold feedBytes
      rw [List.length_map]
      exact length_charBytes chars
    refine ⟨?_, feeds, fromUtf8_maskOversizedBytes source, ?_⟩
    · rw [← size, ← size, feeds]
    · rw [masked]
      by_cases oversized : hasOversizedLine source = true
      · rw [if_pos oversized]
        have lines := maskLine_eq shape fun segment member skipped =>
          (agrees segment member skipped).1
        rw [List.map_congr_left lines]
      · rw [if_neg oversized]
        have kept : ∀ segment ∈ splitInclusive source.toList, blankSkipped segment = segment := by
          intro segment member
          unfold blankSkipped
          exact if_neg fun skipped => oversized (agrees segment member skipped).2
        rw [List.map_congr_left kept, List.map_id', whole]

/-- Letters of one byte. -/
theorem byteLength_letters (count : Nat) : byteLength (List.replicate count 'a') = count := by
  induction count with
  | zero => rfl
  | succ count ih =>
    have first : byteLength (List.replicate (count + 1) 'a') =
        1 + byteLength (List.replicate count 'a') := rfl
    rw [first, ih]
    omega

/-- A line of 65536 bytes and two carriage returns before its line feed. -/
def carriageLine : String := String.ofList (List.replicate 65536 'a' ++ ['\r', '\r', '\n'])

/-- The parser skips that line, and masking leaves it. -/
theorem carriage_line_unmasked : ¬ MasksAsParsed carriageLine := by
  intro masks
  have clear : '\n' ∉ List.replicate 65536 'a' ++ ['\r', '\r'] := by
    intro member
    rcases List.mem_append.mp member with letter | carriage
    · exact absurd (List.eq_of_mem_replicate letter) (by decide)
    · exact absurd carriage (by decide)
  have segments : splitInclusive carriageLine.toList =
      [(List.replicate 65536 'a' ++ ['\r', '\r']) ++ ['\n']] := by
    unfold carriageLine
    have shape : List.replicate 65536 'a' ++ ['\r', '\r', '\n'] =
        (List.replicate 65536 'a' ++ ['\r', '\r']) ++ '\n' :: [] := by
      rw [List.append_assoc]
      rfl
    rw [String.toList_ofList, shape, splitInclusive_line clear]
    rfl
  have content : List.replicate 65536 'a' ++ ['\r', '\r'] =
      (List.replicate 65536 'a' ++ ['\r']) ++ ['\r'] := by
    rw [List.append_assoc]
    rfl
  have letters : byteLength (List.replicate 65536 'a') = 65536 := byteLength_letters 65536
  have raw : stripTerminator ((List.replicate 65536 'a' ++ ['\r', '\r']) ++ ['\n']) =
      List.replicate 65536 'a' ++ ['\r'] := by
    rw [stripTerminator_ended, content, splitLast_concat]
  have skipped : SkipsLine ((List.replicate 65536 'a' ++ ['\r', '\r']) ++ ['\n']) := by
    have carriage : byteLength ['\r'] = 1 := rfl
    unfold SkipsLine maxExtractableLineBytes
    rw [raw, byteLength_append, letters, carriage]
    omega
  have shape := (segments_splitInclusive carriageLine.toList).1
  rw [segments] at shape
  have trimmed : trimEndMatches (fun c => c = '\r' || c = '\n')
      ((List.replicate 65536 'a' ++ ['\r', '\r']) ++ ['\n']) = List.replicate 65536 'a' := by
    have turned : ((List.replicate 65536 'a' ++ ['\r', '\r']) ++ ['\n']).reverse =
        '\n' :: '\r' :: '\r' :: List.replicate 65536 'a' := by
      rw [List.reverse_append, List.reverse_append, List.reverse_replicate]
      rfl
    unfold trimEndMatches
    rw [turned, List.dropWhile_cons_of_pos (by decide), List.dropWhile_cons_of_pos (by decide),
      List.dropWhile_cons_of_pos (by decide), List.replicate_succ,
      List.dropWhile_cons_of_neg (by decide), ← List.replicate_succ, List.reverse_replicate]
  have short : hasOversizedLine carriageLine = false := by
    unfold hasOversizedLine maxExtractableLineBytes
    rw [segments, List.any_cons, List.any_nil, trimmed, letters]
    rfl
  have kept : (maskOversizedLines carriageLine).toList = carriageLine.toList := by
    unfold maskOversizedLines
    unfold hasOversizedLine at short
    dsimp only
    rw [short]
    rfl
  have less := count_flatten_lt (fun other inside => (count_blankSkipped shape inside).1)
    List.mem_cons_self ((count_blankSkipped shape List.mem_cons_self).2 skipped (by
      rw [raw]
      exact List.mem_append_right _ List.mem_cons_self))
  have lines := masks.lines
  have whole := (segments_splitInclusive carriageLine.toList).2
  rw [kept, segments] at lines
  rw [segments] at whole
  rw [← lines, whole] at less
  exact Nat.lt_irrefl _ less

end Texo.Extract
