import Texo.Extract.Markdown
import Texo.Extract.Slices
import Texo.Foundation.Nesting

/-! # Prose candidates of a markdown source

The events of a CommonMark parser are walked once. Headings, code, tables, block quotes, HTML and
metadata are passed over, and one slot remembers the paragraph or list item that is open.
-/
namespace Texo.Extract
open Texo.Foundation

/-- The blocks of a markdown source. -/
inductive BlockTag where
  | heading (level : Nat)
  | codeBlock
  | table
  | blockQuote
  | htmlBlock
  | metadataBlock
  | paragraph
  | item
  | other
deriving DecidableEq, Repr

/-- What a block holds besides blocks. -/
inductive Inline where
  | text (text : String)
  | code (text : String)
  | other
deriving DecidableEq, Repr

/-- One event of the parser. -/
abbrev MarkdownEvent := NestingEvent BlockTag Inline

/-- Whether a block is a heading. -/
def BlockTag.isHeading : BlockTag → Bool
  | heading _ => true
  | _ => false

/-- Whether a block is passed over with all its contents, headings apart. -/
def BlockTag.isExcluded : BlockTag → Bool
  | codeBlock => true
  | table => true
  | blockQuote => true
  | htmlBlock => true
  | metadataBlock => true
  | _ => false

/-- Whether a block is passed over with all its contents. -/
def BlockTag.hides (tag : BlockTag) : Bool := tag.isHeading || tag.isExcluded

/-- Whether a block may carry a durable claim: a paragraph or a list item. -/
def BlockTag.isProse : BlockTag → Bool
  | paragraph => true
  | item => true
  | _ => false

/-- A prose block that may carry a durable claim. -/
structure CandidateSpan where
  text : String
  lineStart : Nat
  lineEnd : Nat
  charStart : Nat
  charEnd : Nat
  headingPath : List String
deriving DecidableEq, Repr

/-- One frame of the heading stack. -/
structure HeadingFrame where
  level : Nat
  text : String
deriving DecidableEq, Repr

/-- A text without its last character where that is a given one, and what was taken. -/
def splitLast (last : Char) (text : List Char) : List Char × List Char :=
  match text.reverse with
  | c :: rest => if c = last then (rest.reverse, [c]) else (text, [])
  | [] => (text, [])

/-- One line of `mask_oversized_lines`: its bytes are blanked where they are too many. -/
def maskLine (segment : List Char) : List Char :=
  let (line, feed) := splitLast '\n' segment
  let (content, carriage) := splitLast '\r' line
  if maxExtractableLineBytes < byteLength content then
    List.replicate (byteLength content) ' ' ++ carriage ++ feed
  else
    segment

/-- `mask_oversized_lines`. -/
def maskOversizedLines (source : String) : String :=
  let segments := splitInclusive source.toList
  if segments.any fun line =>
      maxExtractableLineBytes < byteLength (trimEndMatches (fun c => c = '\r' || c = '\n') line) then
    String.ofList (segments.map maskLine).flatten
  else
    source

/-- `line_of_offset`. -/
def lineOfOffset (source : String) (offset : Nat) : Nat :=
  min (((encodeChars source.toList).take offset).count 10 + 1) (2 ^ 32 - 1)

/-- `push_span`, nothing where the slice panics. -/
def pushSpan (spans : List CandidateSpan) (source : String) (start stop : Nat)
    (headings : List HeadingFrame) : Option (List CandidateSpan) :=
  match slice source start stop with
  | none => none
  | some raw =>
    let trimmed := trimEndMatches isBlank raw
    if trimmed = [] then
      some spans
    else
      let charEnd := start + byteLength trimmed
      some (spans ++ [
        { text := String.ofList trimmed
          lineStart := lineOfOffset source start
          lineEnd := lineOfOffset source (charEnd - 1)
          charStart := start
          charEnd := charEnd
          headingPath := headings.map HeadingFrame.text }])

/-- What `segment_candidates` carries from one event to the next. -/
structure Segmentation where
  spans : List CandidateSpan := []
  headings : List HeadingFrame := []
  suppressDepth : Nat := 0
  capturingHeading : Option (Nat × String) := none
  openBlock : Option (Nat × Nat) := none
deriving DecidableEq, Repr

/-- The heading that ends takes its place on the stack. -/
def Segmentation.endHeading (state : Segmentation) : Segmentation :=
  match state.capturingHeading with
  | none => state
  | some (level, text) =>
    { state with
      capturingHeading := none
      headings := (state.headings.reverse.dropWhile fun frame => level ≤ frame.level).reverse ++
        [⟨level, String.ofList (trim text.toList)⟩] }

/-- The text of a heading is captured. -/
def Segmentation.capture (state : Segmentation) (text : String) : Segmentation :=
  { state with
    capturingHeading := state.capturingHeading.map fun heading => (heading.1, heading.2 ++ text) }

/-- One event of `segment_candidates`, nothing where it panics. -/
def Segmentation.step (source : String) (state : Segmentation) :
    MarkdownEvent → Option Segmentation
  | .opens (.heading level) _ _ =>
    some
      { state with
        suppressDepth := state.suppressDepth + 1
        capturingHeading := some (level, "") }
  | .closes (.heading _) =>
    some { state.endHeading with suppressDepth := state.suppressDepth - 1 }
  | .opens tag start stop =>
    if tag.isExcluded then
      some { state with suppressDepth := state.suppressDepth + 1 }
    else if tag.isProse then
      if state.suppressDepth = 0 ∧ state.openBlock = none then
        some { state with openBlock := some (start, stop) }
      else
        some state
    else
      some state
  | .closes tag =>
    if tag.isExcluded then
      some { state with suppressDepth := state.suppressDepth - 1 }
    else if tag.isProse then
      if state.suppressDepth = 0 then
        match state.openBlock with
        | none => some state
        | some (start, stop) =>
          (pushSpan state.spans source start stop state.headings).map fun spans =>
            { state with spans := spans, openBlock := none }
      else
        some state
    else
      some state
  | .leaf (.text text) => some (state.capture text)
  | .leaf (.code text) => some (state.capture text)
  | .leaf .other => some state

/-- `segment_candidates`, with the parser it reads the masked source by. -/
def segmentCandidates (parse : String → List MarkdownEvent) (source : String) :
    Option (List CandidateSpan) :=
  let source := maskOversizedLines source
  ((parse source).foldlM (Segmentation.step source) {}).map Segmentation.spans

end Texo.Extract
