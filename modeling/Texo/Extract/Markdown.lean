import Texo.Events.Ids
import Texo.Extract.Heuristics

/-! # Markdown sources

A markdown file is parsed into its extractable lines. Frontmatter and fenced code are
dropped; the lines that stay keep their number and their byte offset.
-/
namespace Texo.Extract
open Texo.Events

/-- `MAX_EXTRACTABLE_LINE_BYTES`. -/
def maxExtractableLineBytes : Nat := 64 * 1024

/-- One logical line in a markdown document. -/
structure MarkdownLine where
  number : Nat
  text : String
  charStart : Nat
deriving DecidableEq, Repr

/-- Parsed markdown source. -/
structure MarkdownDocument where
  path : String
  bodyHashHex : String
  sourceId : String
  lines : List MarkdownLine
deriving DecidableEq, Repr

/-- `str::split_inclusive` at line feeds. -/
def splitInclusive : List Char → List (List Char)
  | [] => []
  | c :: rest =>
    if c = '\n' then
      [c] :: splitInclusive rest
    else
      match splitInclusive rest with
      | [] => [[c]]
      | segment :: segments => (c :: segment) :: segments

/-- A segment without its line terminator; a carriage return goes only before a line feed. -/
def stripTerminator (segment : List Char) : List Char :=
  match segment.reverse with
  | '\n' :: '\r' :: rest => rest.reverse
  | '\n' :: rest => rest.reverse
  | _ => segment

/-- What `parse_lines` carries from one line to the next. -/
structure LineParse where
  index : Nat := 0
  offset : Nat := 0
  inCodeBlock : Bool := false
  skippingFrontmatter : Bool := false
  frontmatterDone : Bool := false
  lines : List MarkdownLine := []

/-- One segment of `parse_lines`. -/
def LineParse.step (parse : LineParse) (segment : List Char) : LineParse :=
  let raw := stripTerminator segment
  let next := { parse with
    index := parse.index + 1
    offset := parse.offset + byteLength segment }
  if maxExtractableLineBytes < byteLength raw then
    next
  else if !parse.frontmatterDone && parse.index = 0 && trim raw = "---".toList then
    { next with skippingFrontmatter := true }
  else if parse.skippingFrontmatter then
    if trim raw = "---".toList then
      { next with skippingFrontmatter := false, frontmatterDone := true }
    else
      next
  else if "```".toList.isPrefixOf (trimStart raw) then
    { next with inCodeBlock := !parse.inCodeBlock }
  else if parse.inCodeBlock then
    next
  else
    { next with
      lines := parse.lines ++
        [⟨min (parse.index + 1) (2 ^ 32 - 1), String.ofList raw, parse.offset⟩] }

/-- `parse_lines`. -/
def parseLines (text : String) : List MarkdownLine :=
  ((splitInclusive text.toList).foldl LineParse.step {}).lines

/-- What a read of a discovered file gives. -/
inductive FileBody where
  | unreadable (detail : String)
  | notUtf8 (bytes : List UInt8) (detail : String)
  | text (contents : String)
deriving DecidableEq

/-- Source parsing errors. -/
inductive SourceError where
  | io (detail : String)
  | utf8 (detail : String)
  | id (error : IdParseError)
deriving DecidableEq, Repr

/-- `MarkdownDocument::from_bytes`; the source id is derived before the text is decoded. -/
def MarkdownDocument.fromBytes (path bodyHashHex : String) (text : Except SourceError String) :
    Except SourceError MarkdownDocument :=
  match sourceIdFromHash bodyHashHex with
  | .error error => .error (.id error)
  | .ok sourceId =>
    text.map fun contents =>
      { path := path, bodyHashHex := bodyHashHex, sourceId := sourceId.value
        lines := parseLines contents }

/-- `MarkdownDocument::from_path`. -/
def MarkdownDocument.fromPath [Blake3] (path : String) : FileBody → Except SourceError MarkdownDocument
  | .unreadable detail => .error (.io detail)
  | .notUtf8 bytes detail => MarkdownDocument.fromBytes path (Blake3.hex bytes) (.error (.utf8 detail))
  | .text contents => MarkdownDocument.fromBytes path (blake3HashHex contents) (.ok contents)

/-- Code fences are dropped and the lines after them keep their place. -/
example : parseLines "a\n```\nb\n```\nc\n" = [⟨1, "a", 0⟩, ⟨5, "c", 12⟩] := by decide

end Texo.Extract
