import Texo.Extract.Markdown
import Texo.Foundation.CharBoundary

/-! # Prose lines

A text whose lines open neither frontmatter nor a code fence is parsed line by line: each line is
kept unless it is too long, whatever the other lines are.
-/
namespace Texo.Extract
open Texo.Foundation

/-- A line ends at its line feed. -/
theorem splitInclusive_line {content : List Char} (clear : '\n' ∉ content) (rest : List Char) :
    splitInclusive (content ++ '\n' :: rest) = (content ++ ['\n']) :: splitInclusive rest := by
  induction content with
  | nil => rfl
  | cons c content ih =>
    have apart : c ≠ '\n' := fun same => clear (same ▸ List.mem_cons_self)
    have later := ih fun member => clear (List.mem_cons_of_mem c member)
    rw [List.cons_append, splitInclusive, if_neg apart, later]
    rfl

/-- Lines, each with the line feed that ends it. -/
def feedLines (lines : List (List Char)) : List Char := lines.flatMap fun line => line ++ ['\n']

/-- Lines are split as they were put together. -/
theorem splitInclusive_feedLines {lines : List (List Char)}
    (clear : ∀ line ∈ lines, '\n' ∉ line) :
    splitInclusive (feedLines lines) = lines.map (· ++ ['\n']) := by
  induction lines with
  | nil => rfl
  | cons line lines ih =>
    have here := clear line List.mem_cons_self
    have later := ih fun other member => clear other (List.mem_cons_of_mem line member)
    have shape : feedLines (line :: lines) = line ++ '\n' :: feedLines lines := by
      unfold feedLines
      rw [List.flatMap_cons, List.append_assoc]
      rfl
    rw [shape, splitInclusive_line here, later, List.map_cons]

/-- A line without carriage returns is left when its line feed is taken off. -/
theorem stripTerminator_line {line : List Char} (plain : '\r' ∉ line) :
    stripTerminator (line ++ ['\n']) = line := by
  unfold stripTerminator
  rw [List.reverse_append, List.reverse_singleton, List.singleton_append]
  cases turned : line.reverse with
  | nil => exact (List.reverse_eq_nil_iff.mp turned).symm
  | cons c rest =>
    have whole : line = rest.reverse ++ [c] := by
      rw [← List.reverse_reverse line, turned, List.reverse_cons]
    have other : c ≠ '\r' := by
      intro same
      apply plain
      rw [whole, same]
      exact List.mem_append_right _ List.mem_cons_self
    split
    · rename_i carriage
      exact absurd (List.cons.inj (List.cons.inj carriage).2).1 other
    · rename_i same
      rw [whole, ← (List.cons.inj same).2, List.reverse_cons]
    · rename_i _ none
      exact absurd rfl (none _)

/-- A line that opens neither frontmatter nor a code fence. -/
structure ProseLine (line : List Char) : Prop where
  unbroken : '\n' ∉ line
  carriage : '\r' ∉ line
  front : trim line ≠ "---".toList
  fence : "```".toList.isPrefixOf (trimStart line) = false

/-- The text of a line, if it is short enough to be extracted. -/
def extractable (line : List Char) : Option String :=
  if maxExtractableLineBytes < byteLength line then none else some (String.ofList line)

/-- One prose line, outside of frontmatter and code, adds its text. -/
theorem step_prose {parse : LineParse} {line : List Char} (prose : ProseLine line)
    (outside : parse.inCodeBlock = false) (skips : parse.skippingFrontmatter = false) :
    (parse.step (line ++ ['\n'])).inCodeBlock = false ∧
      (parse.step (line ++ ['\n'])).skippingFrontmatter = false ∧
      (parse.step (line ++ ['\n'])).lines.map MarkdownLine.text =
        parse.lines.map MarkdownLine.text ++ (extractable line).toList := by
  unfold LineParse.step extractable
  simp only [stripTerminator_line prose.carriage]
  by_cases long : maxExtractableLineBytes < byteLength line
  · rw [if_pos long, if_pos long]
    exact ⟨outside, skips, (List.append_nil _).symm⟩
  · rw [if_neg long, if_neg long]
    simp only [prose.front, prose.fence, outside, skips]
    simp

/-- Prose lines add their texts one after the other. -/
theorem foldl_step_prose {lines : List (List Char)} (prose : ∀ line ∈ lines, ProseLine line)
    {parse : LineParse} (outside : parse.inCodeBlock = false)
    (skips : parse.skippingFrontmatter = false) :
    ((lines.map (· ++ ['\n'])).foldl LineParse.step parse).lines.map MarkdownLine.text =
      parse.lines.map MarkdownLine.text ++ lines.filterMap extractable := by
  induction lines generalizing parse with
  | nil => exact (List.append_nil _).symm
  | cons line lines ih =>
    obtain ⟨code, front, texts⟩ := step_prose (prose line List.mem_cons_self) outside skips
    have later := ih (fun other member => prose other (List.mem_cons_of_mem line member)) code front
    rw [List.map_cons, List.foldl_cons, later, texts, List.append_assoc]
    congr 1
    cases kept : extractable line with
    | none => rw [List.filterMap_cons_none kept]; exact List.nil_append _
    | some text => rw [List.filterMap_cons_some kept]; rfl

/-- The texts of a parsed prose text are those of its lines. -/
theorem texts_parseLines {lines : List (List Char)} (prose : ∀ line ∈ lines, ProseLine line)
    {text : String} (whole : text.toList = feedLines lines) :
    (parseLines text).map MarkdownLine.text = lines.filterMap extractable := by
  unfold parseLines
  rw [whole, splitInclusive_feedLines fun line member => (prose line member).unbroken,
    foldl_step_prose prose rfl rfl]
  exact List.nil_append _

/-- A line keeps its first visible character when it is trimmed. -/
theorem head_trim {c : Char} (visible : isWhitespace c = false) (rest : List Char) :
    (trim (c :: rest)).head? = some c := by
  unfold trim trimStart trimEndMatches
  rw [List.dropWhile_cons_of_neg (by simp [visible]), List.reverse_cons, List.dropWhile_append]
  split
  · rw [List.dropWhile_cons_of_neg (by simp [visible])]
    rfl
  · rw [List.reverse_append]
    rfl

/-- The character of a code fence. -/
def backtick : Char := Char.ofNat 0x60

/-- A text that begins with a visible character has a word there. -/
theorem splitWhitespace_visible {c : Char} (visible : isWhitespace c = false) (rest : List Char) :
    ∃ word words, splitWhitespace (c :: rest) = (c :: word) :: words := by
  obtain ⟨head, tail, split⟩ := List.exists_cons_of_ne_nil (List.splitOnP_ne_nil isWhitespace rest)
  refine ⟨head, tail.filter fun word => !word.isEmpty, ?_⟩
  unfold splitWhitespace
  rw [List.splitOnP_cons_eq_if_modifyHead, if_neg (by simp [visible]), split, List.modifyHead_cons,
    List.filter_cons_of_pos (by rfl)]

/-- A line that begins with a visible character does not normalize to nothing. -/
theorem normalizeLine_ne_empty {text : String} {c : Char} {rest : List Char}
    (shape : text.toList = c :: rest) (visible : isWhitespace c = false)
    (lowered : isWhitespace c.toLower = false) : normalizeLine text ≠ "" := by
  intro empty
  have head := head_trim visible rest
  cases trimmed : trim (c :: rest) with
  | nil =>
    rw [trimmed] at head
    cases head
  | cons first others =>
    rw [trimmed] at head
    have same : first = c := Option.some.inj head
    obtain ⟨word, words, split⟩ := splitWhitespace_visible lowered (others.map Char.toLower)
    unfold normalizeLine at empty
    rw [shape, trimmed, same, toAsciiLowercase, List.map_cons, split] at empty
    have nothing := congrArg String.toList empty
    rw [String.toList_ofList] at nothing
    cases words with
    | nil => cases nothing
    | cons next words =>
      rw [List.intercalate_cons_cons] at nothing
      cases nothing

/-- A line whose first character is visible and neither a dash nor a backtick is prose. -/
theorem ProseLine.of_head {c : Char} {rest : List Char} (visible : isWhitespace c = false)
    (dash : c ≠ '-') (tick : c ≠ backtick) (unbroken : '\n' ∉ c :: rest)
    (carriage : '\r' ∉ c :: rest) : ProseLine (c :: rest) where
  unbroken := unbroken
  carriage := carriage
  front := by
    intro same
    have head := head_trim visible rest
    rw [same] at head
    exact dash (Option.some.inj head).symm
  fence := by
    unfold trimStart
    rw [List.dropWhile_cons_of_neg (by simp [visible]), Bool.eq_false_iff]
    intro opens
    obtain ⟨behind, whole⟩ := List.isPrefixOf_iff_prefix.mp opens
    have head : "```".toList.head? = some backtick := by decide
    have first := congrArg List.head? whole
    rw [List.head?_append_of_ne_nil _ (by decide), head] at first
    exact tick (Option.some.inj first).symm

/-- An empty line is prose. -/
theorem ProseLine.nil : ProseLine [] := ⟨by simp, by simp, by decide, by decide⟩

/-- The bytes of a text. -/
theorem byteLength_toList (text : String) : byteLength text.toList = text.utf8ByteSize := by
  rw [← length_encodeChars_toList text]
  unfold byteLength encodeChars
  rw [List.length_flatMap]
  congr 1
  apply List.map_congr_left
  intro c _
  exact (String.length_utf8EncodeChar c).symm

end Texo.Extract
