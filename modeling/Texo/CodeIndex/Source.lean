import Texo.Git.Accumulator

/-! # Code occurrences and their source context

One occurrence of a symbol in a frozen source, with the bounded text around it. The context
stays on the lines of the occurrence, is at most as long as an evidence excerpt and is cut at
character boundaries.
-/
namespace Texo.CodeIndex
open Texo.Knowledge Texo.Ops Texo.Backup

/-- Closed role of one code-symbol occurrence. -/
inductive CodeOccurrenceRole where
  | definition
  | reference
  | importing
  | write
  | read
  | generated
  | test
  | forwardDefinition
  | implementation
deriving DecidableEq, Repr

/-- The place of a role in the order of its declaration. -/
def CodeOccurrenceRole.rank (role : CodeOccurrenceRole) : Nat := role.ctorIdx

/-- One exact code-symbol occurrence from a disposable code index. -/
structure CodeOccurrence where
  symbol : String
  displayName : String
  roles : List CodeOccurrenceRole
  path : String
  byteRange : Nat × Nat
  lineRange : Nat × Nat
  sourceDigestHex : String
  excerpt : String
  context : String
  contextByteRange : Nat × Nat
  contextLineRange : Nat × Nat
  analyzerFingerprint : String
  analysisQuality : AnalysisQuality
deriving DecidableEq, Repr

/-- `code_occurrence_order`. -/
def codeOccurrenceOrder (left right : CodeOccurrence) : Ordering :=
  (compare left.symbol right.symbol).then <|
  (compare left.path right.path).then <|
  (compare left.byteRange.1 right.byteRange.1).then <|
  (compare left.byteRange.2 right.byteRange.2).then <|
  compare (left.roles.map CodeOccurrenceRole.rank) (right.roles.map CodeOccurrenceRole.rank)

/-- The byte continues a character. -/
def continuesChar (byte : UInt8) : Bool := byte &&& 0xC0 == 0x80

/-- The start moved over bytes that continue a character, as far as it may move. -/
def skipForward (bytes : List UInt8) : Nat → Nat → Nat
  | 0, first => first
  | room + 1, first =>
    if (bytes[first]?).any continuesChar then skipForward bytes room (first + 1) else first

/-- The end moved back over bytes that continue a character, as far as it may move. -/
def skipBackward (bytes : List UInt8) : Nat → Nat → Nat
  | 0, last => last
  | room + 1, last =>
    if (bytes[last]?).any continuesChar then skipBackward bytes room (last - 1) else last

/-- `count_newlines`. -/
def countNewlines (bytes : List UInt8) : Nat := bytes.countP (· == 10)

/-- `byte_line_range`. -/
def byteLineRange (bytes : List UInt8) (first last : Nat) : Nat × Nat :=
  let startLine := saturatingAdd32 1 (min (countNewlines (bytes.take first)) (2 ^ 32 - 1))
  (startLine, saturatingAdd32 startLine
    (min (countNewlines (byteSlice bytes (first, last))) (2 ^ 32 - 1)))

/-- The first byte of the line an offset is on. -/
def lineStartOf (bytes : List UInt8) (offset : Nat) : Nat :=
  match (bytes.take offset).reverse.findIdx? (· == 10) with
  | none => 0
  | some back => offset - back

/-- The end of the line an offset is on. -/
def lineEndOf (bytes : List UInt8) (offset : Nat) : Nat :=
  match (bytes.drop offset).findIdx? (· == 10) with
  | none => bytes.length
  | some ahead => offset + ahead

/-- The range of the context, before it is cut at character boundaries. -/
def contextWindow (bytes : List UInt8) (occurrenceStart occurrenceEnd : Nat) : Nat × Nat :=
  let lineStart := lineStartOf bytes occurrenceStart
  let lineEnd := lineEndOf bytes occurrenceEnd
  let available := maxEvidenceExcerptBytes - (occurrenceEnd - occurrenceStart)
  let before := available / 2
  let first := max (occurrenceStart - before) lineStart
  let last := min (occurrenceEnd + (available - (occurrenceStart - first))) lineEnd
  if last - first < maxEvidenceExcerptBytes then
    (max (last - maxEvidenceExcerptBytes) lineStart, last)
  else
    (first, last)

/-- `source_context`: the bounded text around an occurrence with its byte and line range. -/
def sourceContext (bytes : List UInt8) (occurrenceStart occurrenceEnd : Nat) :
    Option (String × (Nat × Nat) × (Nat × Nat)) :=
  if occurrenceEnd < occurrenceStart ∨ bytes.length < occurrenceEnd then
    none
  else if maxEvidenceExcerptBytes < occurrenceEnd - occurrenceStart then
    none
  else
    let window := contextWindow bytes occurrenceStart occurrenceEnd
    let first := skipForward bytes (occurrenceStart - window.1) window.1
    let last := skipBackward bytes (window.2 - occurrenceEnd) window.2
    (fromUtf8 (byteSlice bytes (first, last))).map fun context =>
      (context, (first, last), byteLineRange bytes first last)

/-- `code_index_path_is_in_scope`. -/
def codeIndexPathIsInScope (path : String) : Bool :=
  let excluded := (components path.toList).any fun
    | .normal name => Git.isOneOf ["dist", "build", "node_modules", ".next", "coverage"]
        (Git.asciiLowercase name)
    | _ => false
  let lockFile := (fileName path.toList).any fun name =>
    Git.isOneOf ["pnpm-lock.yaml", "pnpm-lock.yml"] (Git.asciiLowercase name)
  if excluded || lockFile then
    false
  else if (fileName path.toList).any Git.isWellknownSourceBasename then
    true
  else
    (Git.pathExtension path).any fun found =>
      Git.isOneOf ["rs", "py", "js", "jsx", "ts", "tsx", "go", "java", "kt", "c", "h", "cc", "cpp",
        "hpp", "sh", "toml", "yaml", "yml", "json"] (Git.asciiLowercase found)

/-- `CodeIndexLimits`; the defaults are its `default`, the wall budget in seconds. -/
structure CodeIndexLimits where
  maxScipBytes : Nat := 64 * 1024 * 1024
  maxDocuments : Nat := 20000
  maxOccurrences : Nat := 200000
  analysisBudgetSecs : Nat := 30
deriving DecidableEq, Repr

/-- `ArtifactBuilder`. -/
structure ArtifactBuilder where
  limits : CodeIndexLimits
  occurrences : List CodeOccurrence := []
  sourcesExamined : Nat := 0
  truncated : Bool
  gaps : List CoverageGap
  format : CodeIndexFormat := .lexical
  quality : AnalysisQuality := .lexical
deriving DecidableEq

namespace ArtifactBuilder

/-- `ArtifactBuilder::new`. -/
def new (limits : CodeIndexLimits) (sourceCoverage : KnowledgeCoverage) : ArtifactBuilder where
  limits := limits
  truncated := sourceCoverage.truncated
  gaps := sourceCoverage.gaps

/-- `ArtifactBuilder::gap`. -/
def gap (builder : ArtifactBuilder) (path : Option String) (kind : CoverageGapKind) :
    ArtifactBuilder :=
  if builder.gaps.length < Git.maxGaps then
    if (⟨path, kind⟩ : CoverageGap) ∈ builder.gaps then builder
    else { builder with gaps := builder.gaps ++ [⟨path, kind⟩] }
  else
    { builder with truncated := true }

/-- A budget that ran out: the coverage is truncated and holds a gap. -/
def exhausted (builder : ArtifactBuilder) (path : Option String) : ArtifactBuilder :=
  { builder with truncated := true }.gap path .budgetExceeded

/-- One source more was looked at. -/
def examine (builder : ArtifactBuilder) : ArtifactBuilder :=
  { builder with sourcesExamined := builder.sourcesExamined + 1 }

/-- `ArtifactBuilder::push`: the occurrence is kept while the budget lasts. -/
def push (builder : ArtifactBuilder) (occurrence : CodeOccurrence) : ArtifactBuilder × Bool :=
  if builder.limits.maxOccurrences ≤ builder.occurrences.length then
    (builder.exhausted none, false)
  else
    ({ builder with occurrences := builder.occurrences ++ [occurrence] }, true)

end ArtifactBuilder

end Texo.CodeIndex
