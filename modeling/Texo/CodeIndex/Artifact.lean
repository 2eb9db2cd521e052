import Texo.CodeIndex.Analysis
import Mathlib.Data.List.Destutter

/-! # The code-index artifact

One build over a capture and the cache file it is kept in. The file stands at the index id, which
the coverage does not enter; reading it back takes the digest of its bytes.
-/
namespace Texo.CodeIndex
open Texo.Events Texo.Knowledge Texo.Ops Texo.Foundation

/-- `ARTIFACT_SCHEMA`. -/
def artifactSchema : String := "texo.code-index.v3"

/-- `CodeIndexArtifact`. -/
structure CodeIndexArtifact where
  schemaName : String
  snapshotId : SourceSnapshotId
  indexId : CodeIndexId
  format : CodeIndexFormat
  analyzerFingerprint : String
  occurrences : List CodeOccurrence
  coverage : KnowledgeCoverage
deriving DecidableEq

/-- `batpak::encoding` of artifacts: what is written reads back. -/
class ArtifactCodec where
  encode : CodeIndexArtifact → Except String (List UInt8)
  decode : List UInt8 → Except String CodeIndexArtifact
  roundTrip : ∀ {artifact bytes}, encode artifact = .ok bytes → decode bytes = .ok artifact

/-- `PreparedCodeIndex`. -/
structure PreparedCodeIndex where
  artifact : CodeIndexArtifact
  artifactDigestHex : String
  bytes : List UInt8
deriving DecidableEq

/-- The cache directory as errors name it. -/
def cachePath : String := ".texo/cache/code-index"

/-- An encoding failure as an error of the cache. -/
def inCache {Value : Type} : Except String Value → Except TexoError Value
  | .error detail => .error (.source cachePath detail)
  | .ok value => .ok value

section
variable [Blake3] [IndexTools]

omit [IndexTools] in
/-- `CodeIndexId::derive`. -/
def codeIndexId (material : String) : CodeIndexId :=
  ⟨"code_index_" ++ cut (blake3HashHex material) 24, startsWith_append _ _⟩

/-- What a build found in a capture. -/
structure Analysis where
  builder : ArtifactBuilder
  analyzerFingerprint : String
  occurrences : List CodeOccurrence
deriving DecidableEq

/-- The SCIP import of `build`: the builder, the indexed paths and the fingerprint. -/
def importScipBytes (capture : GitCapture) (builder : ArtifactBuilder) :
    Option (List UInt8) → Except TexoError (ArtifactBuilder × List String × List String)
  | none => .ok (builder, [], [])
  | some bytes =>
    match IndexTools.parseScip bytes with
    | .error detail => .error (.source "index.scip" detail)
    | .ok index =>
      let (after, indexed) := importScip index capture.sources builder
      let analyzers := [scipAnalyzerFingerprint index]
      if builder.occurrences.length < after.occurrences.length then
        .ok ({ after with format := .scip, quality := .precise }, indexed, analyzers)
      else
        .ok (after, indexed, analyzers)

/-- The analysis of `build`, with its occurrences sorted and freed of repetitions. -/
def analyze (clock : AnalysisClock) (capture : GitCapture) (scipBytes : Option (List UInt8))
    (limits : CodeIndexLimits) : Except TexoError Analysis := do
  let (builder, indexed, imported) ←
    importScipBytes capture (ArtifactBuilder.new limits capture.coverage) scipBytes
  let (builder, fallback) ← analyzeFallbacks clock capture.sources indexed builder
  let parts := imported ++ (if fallback = "" then [] else [fallback])
  let parts := if parts = [] then [lexicalAnalyzer] else parts
  .ok
    { builder := builder
      analyzerFingerprint := "+".intercalate parts
      occurrences := (builder.occurrences.insertionSort fun left right =>
        codeOccurrenceOrder left right ≠ .gt).destutter (· ≠ ·) }

omit [Blake3] [IndexTools] in
/-- The coverage of an analysis. -/
def Analysis.coverage (found : Analysis) : KnowledgeCoverage where
  analysisQuality := found.builder.quality
  sourcesExamined := found.builder.sourcesExamined
  occurrences := found.occurrences.length
  truncated := found.builder.truncated
  gaps := found.builder.gaps

omit [IndexTools] in
/-- The identity of an analysis of a snapshot, from the bytes of its occurrences. -/
def Analysis.indexId (found : Analysis) (snapshotId : SourceSnapshotId)
    (occurrenceMaterial : List UInt8) : CodeIndexId :=
  codeIndexId (artifactSchema ++ "\x1f" ++ snapshotId.value ++ "\x1f" ++
    Blake3.hex occurrenceMaterial ++ "\x1f" ++ found.analyzerFingerprint)

/-- The artifact of an analysis of a snapshot. -/
def Analysis.artifact (found : Analysis) (snapshotId : SourceSnapshotId)
    (occurrenceMaterial : List UInt8) : CodeIndexArtifact where
  schemaName := artifactSchema
  snapshotId := snapshotId
  indexId := found.indexId snapshotId occurrenceMaterial
  format := found.builder.format
  analyzerFingerprint := found.analyzerFingerprint
  occurrences := found.occurrences
  coverage := found.coverage

variable [ArtifactCodec]

/-- `build`. -/
def build (clock : AnalysisClock) (capture : GitCapture) (scipBytes : Option (List UInt8))
    (limits : CodeIndexLimits) : Except TexoError PreparedCodeIndex := do
  let found ← analyze clock capture scipBytes limits
  let occurrenceMaterial ← inCache (IndexTools.encodeOccurrences found.occurrences)
  let artifact := found.artifact capture.snapshotId occurrenceMaterial
  let bytes ← inCache (ArtifactCodec.encode artifact)
  .ok { artifact := artifact, artifactDigestHex := Blake3.hex bytes, bytes := bytes }

omit [IndexTools] in
/-- `load`: the artifact kept at an index id, where its bytes have the expected digest. -/
def load (files : CodeIndexId → Option (List UInt8)) (indexId : CodeIndexId)
    (expectedDigestHex : String) : Except TexoError (Option CodeIndexArtifact) :=
  let path := cachePath ++ "/" ++ indexId.value ++ ".bin"
  match files indexId with
  | none => .ok none
  | some bytes =>
    if Blake3.hex bytes ≠ expectedDigestHex then
      .error (.source path "code-index artifact digest mismatch")
    else
      match ArtifactCodec.decode bytes with
      | .error detail => .error (.decode indexId.value detail)
      | .ok artifact =>
        if artifact.schemaName ≠ artifactSchema then .ok none
        else if artifact.indexId ≠ indexId then
          .error (.source path "code-index artifact identity mismatch")
        else .ok (some artifact)

/-- A prepared index is the encoding of its artifact, of the schema and the captured snapshot. -/
theorem build_spec {clock : AnalysisClock} {capture : GitCapture} {scipBytes : Option (List UInt8)}
    {limits : CodeIndexLimits} {prepared : PreparedCodeIndex}
    (built : build clock capture scipBytes limits = .ok prepared) :
    ArtifactCodec.encode prepared.artifact = .ok prepared.bytes ∧
      prepared.artifactDigestHex = Blake3.hex prepared.bytes ∧
      prepared.artifact.schemaName = artifactSchema ∧
      prepared.artifact.snapshotId = capture.snapshotId := by
  obtain ⟨found, _, built⟩ := bind_eq_ok.mp built
  obtain ⟨material, _, built⟩ := bind_eq_ok.mp built
  obtain ⟨bytes, encoded, built⟩ := bind_eq_ok.mp built
  have written : ArtifactCodec.encode (found.artifact capture.snapshotId material) = .ok bytes := by
    revert encoded
    cases ArtifactCodec.encode (found.artifact capture.snapshotId material) with
    | error detail => exact fun refused => by cases refused
    | ok bytes => exact fun same => congrArg Except.ok (Except.ok.inj same)
  rw [← Except.ok.inj built]
  exact ⟨written, rfl, rfl, rfl⟩

omit [IndexTools] in
/-- A file of the right digest, schema and identity loads. -/
theorem load_kept {files : CodeIndexId → Option (List UInt8)} {indexId : CodeIndexId}
    {bytes : List UInt8} {artifact : CodeIndexArtifact} (held : files indexId = some bytes)
    (decoded : ArtifactCodec.decode bytes = .ok artifact)
    (current : artifact.schemaName = artifactSchema) (own : artifact.indexId = indexId) :
    load files indexId (Blake3.hex bytes) = .ok (some artifact) := by
  unfold load
  rw [held]
  simp only [ne_eq, not_true_eq_false, if_false, decoded, current, own]

omit [IndexTools] in
/-- What a successful load says of the file. -/
theorem load_some {files : CodeIndexId → Option (List UInt8)} {indexId : CodeIndexId}
    {digest : String} {artifact : CodeIndexArtifact}
    (loaded : load files indexId digest = .ok (some artifact)) :
    artifact.indexId = indexId ∧
      ∃ bytes, files indexId = some bytes ∧ Blake3.hex bytes = digest ∧
        ArtifactCodec.decode bytes = .ok artifact := by
  unfold load at loaded
  cases held : files indexId with
  | none =>
    rw [held] at loaded
    cases loaded
  | some bytes =>
    rw [held] at loaded
    simp only at loaded
    split at loaded
    · cases loaded
    · rename_i digested
      have digested : Blake3.hex bytes = digest := of_not_not digested
      split at loaded
      · cases loaded
      · rename_i found decoded
        split at loaded
        · cases loaded
        · split at loaded
          · cases loaded
          · rename_i own
            have own : found.indexId = indexId := of_not_not own
            have same : found = artifact := Option.some.inj (Except.ok.inj loaded)
            rw [← same]
            exact ⟨own, bytes, rfl, digested, decoded⟩

end

end Texo.CodeIndex
