import Texo.CodeIndex.Source

/-! # SCIP import

A parsed SCIP index laid over the sources of a capture. Documents beyond the limit, at unsafe or
missing paths or of other position encodings leave a gap; an occurrence is kept where its range
lies in its source and its text is bounded.
-/
namespace Texo.CodeIndex
open Texo.Events Texo.Knowledge Texo.Ops Texo.Backup

/-- `PositionEncoding`, as far as it is known. -/
inductive PositionEncoding where
  | unspecified
  | utf8CodeUnitOffsetFromLineStart
  | utf16CodeUnitOffsetFromLineStart
  | utf32CodeUnitOffsetFromLineStart
  | unrecognised (value : Int)
deriving DecidableEq, Repr

/-- `Typed_range`. -/
inductive TypedRange where
  | singleLine (line startCharacter endCharacter : Int)
  | multiLine (startLine startCharacter endLine endCharacter : Int)
  | unrecognised
deriving DecidableEq, Repr

/-- `scip::types::Occurrence`. -/
structure ScipOccurrence where
  range : List Int
  typedRange : Option TypedRange
  symbol : String
  symbolRoles : BitVec 32
deriving DecidableEq, Repr

/-- `scip::types::Document`. -/
structure ScipDocument where
  relativePath : String
  positionEncoding : PositionEncoding
  occurrences : List ScipOccurrence
deriving DecidableEq, Repr

/-- `scip::types::Index`: the name and version of its tool and its documents. -/
structure ScipIndex where
  tool : Option (String × String)
  documents : List ScipDocument
deriving DecidableEq, Repr

/-- `scip_analyzer_fingerprint`. -/
def scipAnalyzerFingerprint (index : ScipIndex) : String :=
  let name := index.tool.elim "unknown" Prod.fst
  let version := index.tool.elim "unknown" Prod.snd
  "scip:" ++ name ++ ":" ++ version ++ ":protocol-v0"

/-- `position_is_utf8`. -/
def positionIsUtf8 (document : ScipDocument) : Bool :=
  document.positionEncoding = .utf8CodeUnitOffsetFromLineStart

/-- `ZeroRange`: zero-based lines and characters. -/
structure ZeroRange where
  startLine : Nat
  startCharacter : Nat
  endLine : Nat
  endCharacter : Nat
deriving DecidableEq, Repr

/-- `nonnegative`. -/
def nonnegative (value : Int) : Option Nat := if value < 0 then none else some value.toNat

/-- A range of four numbers, where none is negative. -/
def zeroRange (startLine startCharacter endLine endCharacter : Int) : Option ZeroRange := do
  some
    { startLine := ← nonnegative startLine
      startCharacter := ← nonnegative startCharacter
      endLine := ← nonnegative endLine
      endCharacter := ← nonnegative endCharacter }

/-- `scip_range`. -/
def scipRange (occurrence : ScipOccurrence) : Option ZeroRange :=
  match occurrence.typedRange with
  | some (.singleLine line startCharacter endCharacter) =>
    zeroRange line startCharacter line endCharacter
  | some (.multiLine startLine startCharacter endLine endCharacter) =>
    zeroRange startLine startCharacter endLine endCharacter
  | some .unrecognised => none
  | none =>
    match occurrence.range with
    | [line, first, last] => zeroRange line first line last
    | [startLine, first, endLine, last] => zeroRange startLine first endLine last
    | _ => none

/-- `line_offsets`, of bytes that stand at an offset. -/
def lineOffsetsFrom : List UInt8 → Nat → List Nat
  | [], _ => []
  | byte :: rest, offset =>
    if byte = 10 then (offset + 1) :: lineOffsetsFrom rest (offset + 1)
    else lineOffsetsFrom rest (offset + 1)

/-- `line_offsets`: where each line starts. -/
def lineOffsets (bytes : List UInt8) : List Nat := 0 :: lineOffsetsFrom bytes 0

/-- `resolve_range`: the bytes and the one-based lines of a range. -/
def resolveRange (lines : List Nat) (bytes : List UInt8) (range : ZeroRange) :
    Option ((Nat × Nat) × (Nat × Nat)) := do
  let first := (← lines[range.startLine]?) + range.startCharacter
  let last := (← lines[range.endLine]?) + range.endCharacter
  if last < first ∨ bytes.length < last then
    none
  else
    let byteRange ← (byteRangeOf (first, last)).toOption
    let lineRange ← (lineRangeOf (range.startLine + 1) (range.endLine + 1)).toOption
    some (byteRange, lineRange)

/-- `scip_roles`. -/
def scipRoles (bits : BitVec 32) : List CodeOccurrenceRole :=
  let has (mask : BitVec 32) : Bool := bits &&& mask != 0
  (if has 0x1 then [.definition] else [.reference]) ++
    ([(0x2, .importing), (0x4, .write), (0x8, .read), (0x10, .generated), (0x20, .test),
      (0x40, .forwardDefinition)].filter fun entry : BitVec 32 × CodeOccurrenceRole =>
        has entry.1).map Prod.snd

section
variable [Blake3]

/-- What one SCIP occurrence gives: an occurrence, a gap, or nothing for one without a symbol. -/
inductive ImportedOccurrence where
  | skip
  | gap (kind : CoverageGapKind)
  | found (occurrence : CodeOccurrence)
deriving DecidableEq, Repr

/-- One step of the loop of `import_scip_document`. -/
def importScipOccurrence (document : ScipDocument) (source : CapturedSource) (analyzer : String)
    (occurrence : ScipOccurrence) : ImportedOccurrence :=
  if occurrence.symbol = "" then
    .skip
  else
    match (scipRange occurrence).bind (resolveRange (lineOffsets source.bytes) source.bytes) with
    | none => .gap .analysisIncomplete
    | some (byteRange, lineRange) =>
      match fromUtf8 (byteSlice source.bytes byteRange) with
      | none => .gap .unsupportedEncoding
      | some excerpt =>
        if maxEvidenceExcerptBytes < excerpt.utf8ByteSize then
          .gap .sourceTooLarge
        else
          match sourceContext source.bytes byteRange.1 byteRange.2 with
          | none => .gap .unsupportedEncoding
          | some (context, contextByteRange, contextLineRange) =>
            .found
              { symbol := occurrence.symbol
                displayName := if excerpt = "" then occurrence.symbol else excerpt
                roles := scipRoles occurrence.symbolRoles
                path := document.relativePath
                byteRange := byteRange
                lineRange := lineRange
                sourceDigestHex := Blake3.hex source.bytes
                excerpt := excerpt
                context := context
                contextByteRange := contextByteRange
                contextLineRange := contextLineRange
                analyzerFingerprint := analyzer
                analysisQuality := .precise }

/-- `import_scip_document`, over the occurrences still ahead. -/
def importScipOccurrences (document : ScipDocument) (source : CapturedSource) (analyzer : String) :
    List ScipOccurrence → ArtifactBuilder → ArtifactBuilder
  | [], builder => builder
  | occurrence :: rest, builder =>
    match importScipOccurrence document source analyzer occurrence with
    | .skip => importScipOccurrences document source analyzer rest builder
    | .gap kind =>
      importScipOccurrences document source analyzer rest
        (builder.gap (some document.relativePath) kind)
    | .found found =>
      let (builder, kept) := builder.push found
      if kept then importScipOccurrences document source analyzer rest builder else builder

/-- One document of `import_scip`: the builder after it, and whether its path counts as indexed. -/
def importScipDocument (sources : List CapturedSource) (analyzer : String) (document : ScipDocument)
    (builder : ArtifactBuilder) : ArtifactBuilder × Bool :=
  let missed (builder : ArtifactBuilder) (kind : CoverageGapKind) : ArtifactBuilder × Bool :=
    (builder.gap (some document.relativePath) kind, false)
  if !Git.safeRelativePath document.relativePath then
    missed builder .analysisIncomplete
  else
    let builder := builder.examine
    match sourceAt sources document.relativePath with
    | none => missed builder .missingObject
    | some source =>
      if !positionIsUtf8 document then
        missed builder .unsupportedEncoding
      else if (fromUtf8 source.bytes).isNone then
        missed builder .unsupportedEncoding
      else
        let after := importScipOccurrences document source analyzer document.occurrences builder
        (after, builder.occurrences.length < after.occurrences.length)

/-- `import_scip`: the builder and the paths whose documents gave occurrences. -/
def importScip (index : ScipIndex) (sources : List CapturedSource) (builder : ArtifactBuilder) :
    ArtifactBuilder × List String :=
  let analyzer := scipAnalyzerFingerprint index
  let (after, indexed) := (index.documents.take builder.limits.maxDocuments).foldl
    (fun (builder, indexed) document =>
      let (after, counts) := importScipDocument sources analyzer document builder
      (after, if counts then indexed ++ [document.relativePath] else indexed))
    (builder, [])
  if builder.limits.maxDocuments < index.documents.length then
    (after.exhausted none, indexed)
  else
    (after, indexed)

end

end Texo.CodeIndex
