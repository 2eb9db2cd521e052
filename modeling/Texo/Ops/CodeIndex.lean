import Texo.CodeIndex.Artifact
import Texo.Ops.Orderly

/-! # Building a code index

One run of `texo.code.index.build`: the recorded snapshot is captured again, an index registered
for it is reused where nothing was asked for, and else a new artifact is written to the cache and
registered. The registration is keyed by the index id, so the first one of an id stays.
-/
namespace Texo.Ops
open Texo.Events Texo.Knowledge Texo.Store Texo.Claims Texo.Foundation Texo.CodeIndex

/-- `CodeIndexBuildInput`. -/
structure CodeIndexBuildInput where
  snapshotId : Option SourceSnapshotId := none
  scipPath : Option String := none
  observedAtMs : Nat
  maxScipBytes : Option Nat := none
  maxDocuments : Option Nat := none
  maxOccurrences : Option Nat := none
  analysisBudgetSecs : Option Nat := none
deriving DecidableEq

/-- The operation name of a code-index build. -/
def codeIndexBuildOp : String := "texo.code.index.build"

/-- `CodeIndexBuildInput::can_reuse_default`. -/
def CodeIndexBuildInput.canReuseDefault (input : CodeIndexBuildInput) : Bool :=
  input.scipPath.isNone && input.maxScipBytes.isNone && input.maxDocuments.isNone &&
    input.maxOccurrences.isNone && input.analysisBudgetSecs.isNone

/-- `CodeIndexBuildInput::validated_limits`. -/
def CodeIndexBuildInput.validatedLimits (input : CodeIndexBuildInput) :
    Except TexoError CodeIndexLimits := do
  let defaults : CodeIndexLimits := {}
  let limits : CodeIndexLimits :=
    { maxScipBytes := input.maxScipBytes.getD defaults.maxScipBytes
      maxDocuments := input.maxDocuments.getD defaults.maxDocuments
      maxOccurrences := input.maxOccurrences.getD defaults.maxOccurrences
      analysisBudgetSecs := input.analysisBudgetSecs.getD defaults.analysisBudgetSecs }
  require (¬ (limits.maxScipBytes = 0 ∨ 256 * 1024 * 1024 < limits.maxScipBytes ∨
      limits.maxDocuments = 0 ∨ 100000 < limits.maxDocuments ∨ limits.maxOccurrences = 0 ∨
      2000000 < limits.maxOccurrences ∨ limits.analysisBudgetSecs = 0 ∨
      300 < limits.analysisBudgetSecs))
    (.opInput codeIndexBuildOp ("code-index limits must be non-zero and at most 256 MiB, " ++
      "100000 documents, 2000000 occurrences, and 300 seconds"))
  .ok limits

/-- The journal with the cache files of the code index. -/
structure IndexState where
  journal : Journal
  files : CodeIndexId → Option (List UInt8)

/-- One run as the outside gives it: its input, the capture of the repository at that time, the
SCIP file, how far the analysis comes, and where writing fails. -/
structure CodeIndexBuildRun where
  input : CodeIndexBuildInput
  captureGit : RepositoryId → CaptureLimits → Except TexoError GitCapture
  readScip : String → Nat → Except TexoError (List UInt8)
  clock : AnalysisClock
  persistFault : Option TexoError := none
  appendFault : Option TexoError := none

/-- `CodeIndexBuildOutput`. -/
structure CodeIndexBuildOutput where
  workspaceId : String
  snapshotId : SourceSnapshotId
  indexId : CodeIndexId
  format : CodeIndexFormat
  analyzerFingerprint : String
  artifactDigestHex : String
  artifactPath : String
  coverage : KnowledgeCoverage
  alreadyIndexed : Bool
  receipt : Option EventId

/-- `recorded_capture_limits`. -/
def recordedCaptureLimits (recorded : SourceSnapshotRecordedV1) : CaptureLimits where
  maxFiles := recorded.captureMaxFiles
  maxFileBytes := recorded.captureMaxFileBytes
  maxTotalBytes := recorded.captureMaxTotalBytes

/-- The recorded snapshot a run is asked for, or the latest one. -/
def recordedSnapshotFor (store : JournalRead) (workspaceId : String) :
    Option SourceSnapshotId → Except TexoError SourceSnapshotRecordedV1
  | some wanted => do
    match ← sourceSnapshotById store workspaceId wanted with
    | some recorded => .ok recorded
    | none => .error (.snapshot .sourceUnavailable
        "requested source snapshot is not recorded; run `texo index` first")
  | none => do
    match ← latestSourceSnapshot store workspaceId none with
    | some recorded => .ok recorded
    | none => .error (.snapshot .sourceUnavailable
        "run `texo index` to record a Git source snapshot first")

/-- `recorded_source_capture`. -/
def recordedSourceCapture (run : CodeIndexBuildRun) (store : JournalRead) (workspaceId : String) :
    Except TexoError (SourceSnapshotRecordedV1 × GitCapture) := do
  let recorded ← recordedSnapshotFor store workspaceId run.input.snapshotId
  let capture ← run.captureGit recorded.repositoryId (recordedCaptureLimits recorded)
  require (capture.snapshotId = recorded.snapshotId) (.snapshot .sourceUnavailable
    "Git commit/index/worktree changed; run source indexing again before code indexing")
  .ok (recorded, capture)

/-- The bytes of the SCIP file a run names. -/
def CodeIndexBuildRun.scipBytes (run : CodeIndexBuildRun) (limits : CodeIndexLimits) :
    Except TexoError (Option (List UInt8)) :=
  match run.input.scipPath with
  | none => .ok none
  | some path => (run.readScip path limits.maxScipBytes).map some

/-- What a run is going to report: a registered index, or a new one. -/
inductive CodeIndexPlan where
  | reuse (existing : CodeIndexRecordedV1) (artifact : CodeIndexArtifact)
  | fresh (recorded : SourceSnapshotRecordedV1) (prepared : PreparedCodeIndex)

section
variable [Blake3] [IndexTools] [ArtifactCodec]

omit [IndexTools] in
/-- The registered index a run may reuse, with its artifact. -/
def reusableIndex (run : CodeIndexBuildRun) (workspaceId : String) (state : IndexState)
    (snapshotId : SourceSnapshotId) :
    Except TexoError (Option (CodeIndexRecordedV1 × CodeIndexArtifact)) :=
  if run.input.canReuseDefault then do
    match ← latestCodeIndex (readable state.journal) workspaceId none snapshotId with
    | none => .ok none
    | some existing =>
      match ← load state.files existing.indexId existing.artifactDigestHex with
      | none => .ok none
      | some artifact =>
        require (artifact.snapshotId = snapshotId) (.snapshot .sourceUnavailable
          "code-index artifact belongs to a different source snapshot")
        .ok (some (existing, artifact))
  else
    .ok none

/-- The part of a run that reads: what it is going to report. -/
def planCodeIndex (run : CodeIndexBuildRun) (workspaceId : String) (state : IndexState) :
    Except TexoError CodeIndexPlan := do
  let limits ← run.input.validatedLimits
  let (recorded, capture) ← recordedSourceCapture run (readable state.journal) workspaceId
  match ← reusableIndex run workspaceId state recorded.snapshotId with
  | some (existing, artifact) => .ok (.reuse existing artifact)
  | none =>
    let scipBytes ← run.scipBytes limits
    let prepared ← build run.clock capture scipBytes limits
    .ok (.fresh recorded prepared)

omit [Blake3] [IndexTools] [ArtifactCodec] in
/-- The registration of a prepared index. -/
def registrationOf (workspaceId : WorkspaceId) (recorded : SourceSnapshotRecordedV1)
    (prepared : PreparedCodeIndex) (observedAtMs : Nat) : CodeIndexRecordedV1 where
  workspaceId := workspaceId
  snapshotId := recorded.snapshotId
  indexId := prepared.artifact.indexId
  format := prepared.artifact.format
  analyzerFingerprint := prepared.artifact.analyzerFingerprint
  artifactDigestHex := prepared.artifactDigestHex
  coverage := prepared.artifact.coverage
  observedAtMs := observedAtMs

omit [Blake3] [IndexTools] [ArtifactCodec] in
/-- The report of a registration. -/
def reportOf (workspaceId : String) (registered : CodeIndexRecordedV1)
    (artifact : CodeIndexArtifact) (receipt : Option EventId) : CodeIndexBuildOutput where
  workspaceId := workspaceId
  snapshotId := registered.snapshotId
  indexId := registered.indexId
  format := artifact.format
  analyzerFingerprint := artifact.analyzerFingerprint
  artifactDigestHex := registered.artifactDigestHex
  artifactPath := cachePath ++ "/" ++ registered.indexId.value ++ ".bin"
  coverage := artifact.coverage
  alreadyIndexed := receipt.isNone
  receipt := receipt

omit [Blake3] [IndexTools] [ArtifactCodec] in
/-- `persist`: the cache with the bytes of a prepared index at its id. -/
def persist (files : CodeIndexId → Option (List UInt8)) (prepared : PreparedCodeIndex) :
    CodeIndexId → Option (List UInt8) :=
  Function.update files prepared.artifact.indexId (some prepared.bytes)

omit [Blake3] [IndexTools] [ArtifactCodec] in
/-- The part of a run that writes a new index: the file, then its registration. -/
def writeCodeIndex (run : CodeIndexBuildRun) (workspaceId : String) (state : IndexState)
    (recorded : SourceSnapshotRecordedV1) (prepared : PreparedCodeIndex) :
    IndexState × Except TexoError (CodeIndexBuildOutput × CodeIndexArtifact) :=
  match run.persistFault with
  | some fault => (state, .error fault)
  | none =>
    let kept := { state with files := persist state.files prepared }
    match workspaceIdOf workspaceId with
    | .error failure => (kept, .error failure)
    | .ok named =>
      match run.appendFault with
      | some fault => (kept, .error fault)
      | none =>
        let payload := registrationOf named recorded prepared run.input.observedAtMs
        let appended := appendCodeIndexRecorded state.journal payload
        ({ kept with journal := appended.2 },
          .ok (reportOf workspaceId payload prepared.artifact (some appended.1.eventId),
            prepared.artifact))

/-- `code_index_build`: the state a run leaves, and its report with the artifact it stands for. -/
def codeIndexBuild (run : CodeIndexBuildRun) (workspaceId : String) (state : IndexState) :
    IndexState × Except TexoError (CodeIndexBuildOutput × CodeIndexArtifact) :=
  match planCodeIndex run workspaceId state with
  | .error failure => (state, .error failure)
  | .ok (.reuse existing artifact) =>
    (state, .ok (reportOf workspaceId existing artifact none, artifact))
  | .ok (.fresh recorded prepared) => writeCodeIndex run workspaceId state recorded prepared

end

end Texo.Ops
