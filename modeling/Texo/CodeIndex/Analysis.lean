import Texo.CodeIndex.Scip

/-! # Built-in analysis and the artifact

Sources that no SCIP document indexed are read by the Rust grammar or for their identifiers, as
far as the wall budget reaches. The artifact holds the sorted occurrences with the coverage; its
identity is drawn from the snapshot, the occurrences and the analyzers.
-/
namespace Texo.CodeIndex
open Texo.Events Texo.Knowledge Texo.Ops Texo.Backup

/-- A node of a syntax tree: its bytes and its zero-based rows. -/
structure SyntaxNode where
  startByte : Nat
  endByte : Nat
  startRow : Nat
  endRow : Nat
deriving DecidableEq, Repr

/-- What the Rust grammar finds in a source: whether its tree has errors, the captures of each
match of the tags query, and whether the match limit was exceeded. -/
structure RustTags where
  hasError : Bool
  found : List (List (String × SyntaxNode))
  exceededMatchLimit : Bool
deriving DecidableEq, Repr

/-- The tools of the index that are not the program's own: the SCIP parser, the encodings and the
text of the tags query. -/
class IndexTools where
  parseScip : List UInt8 → Except String ScipIndex
  encodeOccurrences : List CodeOccurrence → Except String (List UInt8)
  tagsQuery : String

/-- One analysis under its wall budget: which sources it reached too late, and what the grammar
found of a source, or nothing where the parse was cut off. -/
structure AnalysisClock where
  expired : String → Bool
  parseRust : CapturedSource → Except TexoError (Option RustTags)

section
variable [Blake3] [IndexTools]

/-- `rust_analyzer_fingerprint`. -/
def rustAnalyzerFingerprint : String :=
  "tree-sitter:0.26.11:rust:0.24.2:tags-" ++ Blake3.hex (asBytes IndexTools.tagsQuery)

/-- The fingerprint of the lexical reader. -/
def lexicalAnalyzer : String := "texo-lexical:v2"

/-- The role a capture name of the tags query stands for. -/
def captureRole (name : String) : Option CodeOccurrenceRole :=
  if startsWith name "definition." then some .definition
  else if startsWith name "reference." then some .reference
  else none

/-- The role of a match, with the name of the capture that gives it. -/
def matchRole (captures : List (String × SyntaxNode)) : Option (CodeOccurrenceRole × String) :=
  captures.findSome? fun capture => (captureRole capture.1).map fun role => (role, capture.1)

/-- The node a match names. -/
def matchNode (captures : List (String × SyntaxNode)) : Option SyntaxNode :=
  (captures.find? fun capture => capture.1 = "name").map Prod.snd

omit [IndexTools] in
/-- `usize` rows as one-based `u32` lines. -/
def oneBased (row : Nat) : Nat := min (row + 1) (2 ^ 32 - 1)

/-- One match of the loop of `collect_rust_tags`. -/
def rustOccurrence (source : CapturedSource) (captures : List (String × SyntaxNode)) :
    Except TexoError ImportedOccurrence :=
  match matchRole captures, matchNode captures with
  | some (role, kind), some node =>
    match fromUtf8 (byteSlice source.bytes (node.startByte, node.endByte)) with
    | none => .ok (.gap .unsupportedEncoding)
    | some displayName =>
      match sourceContext source.bytes node.startByte node.endByte with
      | none => .ok (.gap .unsupportedEncoding)
      | some (context, contextByteRange, contextLineRange) => do
        let byteRange ← inSource source.path (byteRangeOf (node.startByte, node.endByte))
        let lineRange ← inSource source.path
          (lineRangeOf (oneBased node.startRow) (oneBased node.endRow))
        .ok (.found
          { symbol := "syntax rust " ++ source.path ++ "#" ++ kind ++ ":" ++ displayName ++ "@" ++
              toString node.startByte
            displayName := displayName
            roles := [role]
            path := source.path
            byteRange := byteRange
            lineRange := lineRange
            sourceDigestHex := Blake3.hex source.bytes
            excerpt := displayName
            context := context
            contextByteRange := contextByteRange
            contextLineRange := contextLineRange
            analyzerFingerprint := rustAnalyzerFingerprint
            analysisQuality := .syntactic })
  | _, _ => .ok .skip

/-- The loop of `collect_rust_tags`, over the matches still ahead. -/
def collectRustMatches (source : CapturedSource) :
    List (List (String × SyntaxNode)) → ArtifactBuilder → Except TexoError ArtifactBuilder
  | [], builder => .ok builder
  | captures :: rest, builder => do
    match ← rustOccurrence source captures with
    | .skip => collectRustMatches source rest builder
    | .gap kind => collectRustMatches source rest (builder.gap (some source.path) kind)
    | .found occurrence =>
      let (builder, kept) := builder.push occurrence
      if kept then collectRustMatches source rest builder else .ok builder

/-- `analyze_rust` and `collect_rust_tags`, for a source the grammar read. -/
def collectRustTags (source : CapturedSource) (tags : RustTags) (builder : ArtifactBuilder) :
    Except TexoError ArtifactBuilder := do
  let builder := if tags.hasError then builder.gap (some source.path) .analysisIncomplete else builder
  let builder ← collectRustMatches source tags.found builder
  .ok (if tags.exceededMatchLimit then builder.exhausted (some source.path) else builder)

/-- `identifier_start`. -/
def identifierStart (byte : UInt8) : Bool :=
  byte == 95 || (65 ≤ byte && byte ≤ 90) || (97 ≤ byte && byte ≤ 122)

/-- `identifier_continue`. -/
def identifierContinue (byte : UInt8) : Bool := identifierStart byte || (48 ≤ byte && byte ≤ 57)

/-- The byte ranges of the identifiers of some bytes that stand at an offset. -/
def identifierRanges : Nat → List UInt8 → Nat → List (Nat × Nat)
  | 0, _, _ => []
  | _ + 1, [], _ => []
  | fuel + 1, byte :: rest, offset =>
    if identifierStart byte then
      let after := rest.takeWhile identifierContinue
      let past := offset + 1 + after.length
      (offset, past) :: identifierRanges fuel (rest.drop after.length) past
    else
      identifierRanges fuel rest (offset + 1)

/-- `MAX_LEXICAL_OCCURRENCES_PER_SOURCE`. -/
def maxLexicalOccurrencesPerSource : Nat := 512

/-- The occurrence of an identifier. -/
def lexicalOccurrence (source : CapturedSource) (range : Nat × Nat) (name : String)
    (context : String) (contextByteRange contextLineRange : Nat × Nat) : CodeOccurrence where
  symbol := "lexical " ++ source.path ++ "#" ++ name ++ "@" ++ toString range.1
  displayName := name
  roles := [.reference]
  path := source.path
  byteRange := range
  lineRange := byteLineRange source.bytes range.1 range.2
  sourceDigestHex := Blake3.hex source.bytes
  excerpt := name
  context := context
  contextByteRange := contextByteRange
  contextLineRange := contextLineRange
  analyzerFingerprint := lexicalAnalyzer
  analysisQuality := .lexical

/-- The loop of `analyze_lexical`, over the identifiers still ahead and the names seen. -/
def analyzeIdentifiers (source : CapturedSource) :
    List (Nat × Nat) → List (List Char) → ArtifactBuilder → ArtifactBuilder
  | [], _, builder => builder
  | range :: rest, names, builder =>
    match fromUtf8 (byteSlice source.bytes range) with
    | none => analyzeIdentifiers source rest names builder
    | some name =>
      let lower := Git.asciiLowercase name.toList
      if name.utf8ByteSize < 3 ∨ lower ∈ names then
        analyzeIdentifiers source rest names builder
      else if maxLexicalOccurrencesPerSource < names.length + 1 then
        builder.exhausted (some source.path)
      else
        match sourceContext source.bytes range.1 range.2 with
        | none =>
          analyzeIdentifiers source rest (lower :: names)
            (builder.gap (some source.path) .unsupportedEncoding)
        | some (context, contextByteRange, contextLineRange) =>
          let (builder, kept) := builder.push
            (lexicalOccurrence source range name context contextByteRange contextLineRange)
          if kept then analyzeIdentifiers source rest (lower :: names) builder else builder

/-- `analyze_lexical`. -/
def analyzeLexical (source : CapturedSource) (builder : ArtifactBuilder) : ArtifactBuilder :=
  analyzeIdentifiers source (identifierRanges source.bytes.length source.bytes 0) [] builder

/-- What the built-in analysis has read so far, and which readers it used. -/
structure FallbackRun where
  builder : ArtifactBuilder
  usedSyntax : Bool := false
  usedLexical : Bool := false
deriving DecidableEq

/-- The built-in analysis of one source that is reached in time. -/
def analyzeSource (clock : AnalysisClock) (source : CapturedSource) (run : FallbackRun) :
    Except TexoError FallbackRun :=
  let run := { run with builder := run.builder.examine }
  let lexical (builder : ArtifactBuilder) : FallbackRun :=
    { run with builder := analyzeLexical source builder, usedLexical := true }
  if (fromUtf8 source.bytes).isNone then
    .ok { run with builder := run.builder.gap (some source.path) .unsupportedEncoding }
  else if (Git.pathExtension source.path).any fun found =>
      Git.asciiLowercase found = "rs".toList then do
    match ← clock.parseRust source with
    | some tags =>
      let builder ← collectRustTags source tags run.builder
      .ok { run with builder := builder, usedSyntax := true }
    | none => .ok (lexical (run.builder.gap (some source.path) .analysisIncomplete))
  else
    .ok (lexical run.builder)

/-- The loop of `analyze_fallbacks`, over the sources still ahead. -/
def analyzeSources (clock : AnalysisClock) (indexedPaths : List String) :
    List CapturedSource → FallbackRun → Except TexoError FallbackRun
  | [], run => .ok run
  | source :: rest, run =>
    if source.path ∈ indexedPaths ∨ codeIndexPathIsInScope source.path = false then
      analyzeSources clock indexedPaths rest run
    else if clock.expired source.path then
      .ok { run with builder := run.builder.exhausted none }
    else do
      let run ← analyzeSource clock source run
      analyzeSources clock indexedPaths rest run

/-- The fingerprint of the readers a fallback analysis used. -/
def FallbackRun.fingerprint (run : FallbackRun) : String :=
  match run.usedSyntax, run.usedLexical with
  | true, true => rustAnalyzerFingerprint ++ "+" ++ lexicalAnalyzer
  | true, false => rustAnalyzerFingerprint
  | false, true => lexicalAnalyzer
  | false, false => ""

/-- `analyze_fallbacks`: the builder and the fingerprint of what was used. -/
def analyzeFallbacks (clock : AnalysisClock) (sources : List CapturedSource)
    (indexedPaths : List String) (builder : ArtifactBuilder) :
    Except TexoError (ArtifactBuilder × String) := do
  let run ← analyzeSources clock indexedPaths sources { builder := builder }
  let builder :=
    if run.usedSyntax && run.builder.format = .lexical then
      { run.builder with quality := .syntactic, format := .syntactic }
    else
      run.builder
  .ok (builder, run.fingerprint)

end

end Texo.CodeIndex
