import Texo.Foundation.CharBoundary
import Texo.Ops.Snapshots

/-! # Evidence from a repository capture

A capture freezes one commit with its worktree. Indexing it draws, for each claim of the view
whose source it holds unchanged, an exact occurrence of the claim's lines, and compares the
capture with the snapshots recorded before. Omissions become coverage gaps.
-/
namespace Texo.Ops
open Texo.Events Texo.Knowledge Texo.Claims Texo.Foundation

/-- Bounds of one capture; the defaults are `CaptureLimits::default`. -/
structure CaptureLimits where
  maxFiles : Nat := 20000
  maxFileBytes : Nat := 4 * 1024 * 1024
  maxTotalBytes : Nat := 128 * 1024 * 1024
deriving DecidableEq, Repr

/-- Source layer that supplied captured bytes. -/
inductive CapturedLayer where
  | committed
  | worktree
deriving DecidableEq, Repr

/-- One exact source captured at a resolved repository state. -/
structure CapturedSource where
  path : String
  bytes : List UInt8
  blobId : Option GitObjectId
  layer : CapturedLayer
deriving DecidableEq

/-- Deterministic capture of one resolved commit plus its frozen worktree. -/
structure GitCapture where
  repositoryId : RepositoryId
  baseCommit : GitObjectId
  baseTree : GitObjectId
  indexDigestHex : String
  overlayDigestHex : String
  snapshotId : SourceSnapshotId
  dirty : Bool
  sources : List CapturedSource
  coverage : KnowledgeCoverage
deriving DecidableEq

/-- Comparison result for two revisions. -/
structure GitComparison where
  relation : TemporalRelation
  gap : Option CoverageGapKind
deriving DecidableEq, Repr

/-- What indexing needs from the repository: its canonical root, the capture of its present
state, and how two commits are ordered. -/
structure GitWorld where
  canonicalRoot : String
  captureGit : RepositoryId → CaptureLimits → Except TexoError GitCapture
  compareCommits : GitObjectId → GitObjectId → Except TexoError GitComparison

/-- Input of one index run. -/
structure KnowledgeIndexInput where
  observedAtMs : Nat
  maxFiles : Option Nat := none
  maxFileBytes : Option Nat := none
  maxTotalBytes : Option Nat := none
deriving DecidableEq, Repr

/-- The operation name of an index run. -/
def knowledgeIndexOp : String := "texo.knowledge.index"

/-- `KnowledgeIndexInput::validated_limits`. -/
def KnowledgeIndexInput.validatedLimits (input : KnowledgeIndexInput) :
    Except TexoError CaptureLimits := do
  let defaults : CaptureLimits := {}
  let limits : CaptureLimits :=
    { maxFiles := input.maxFiles.getD defaults.maxFiles
      maxFileBytes := input.maxFileBytes.getD defaults.maxFileBytes
      maxTotalBytes := input.maxTotalBytes.getD defaults.maxTotalBytes }
  require (¬ (limits.maxFiles = 0 ∨ 100000 < limits.maxFiles ∨ limits.maxFileBytes = 0 ∨
      16 * 1024 * 1024 < limits.maxFileBytes ∨ limits.maxTotalBytes = 0 ∨
      512 * 1024 * 1024 < limits.maxTotalBytes))
    (.opInput knowledgeIndexOp ("capture limits must be non-zero and at most 100000 files, " ++
      "16 MiB per file, and 512 MiB total"))
  .ok limits

/-- `line_byte_range`, on the bytes still ahead: the offset of the next byte, its line, where
that line starts, and where the wanted range starts once its first line has ended. -/
def lineByteRangeFrom (startLine endLine : Nat) :
    List UInt8 → Nat → Nat → Nat → Option Nat → Option (Nat × Nat)
  | [], offset, line, lineStart, rangeStart =>
    let reached := if line = startLine then some lineStart else rangeStart
    if line = endLine then reached.map fun start => (start, offset) else none
  | byte :: ahead, offset, line, lineStart, rangeStart =>
    if byte = 10 then
      let reached := if line = startLine then some lineStart else rangeStart
      if line = endLine then
        reached.map fun start => (start, offset)
      else
        lineByteRangeFrom startLine endLine ahead (offset + 1) (saturatingAdd32 line 1) (offset + 1)
          reached
    else
      lineByteRangeFrom startLine endLine ahead (offset + 1) line lineStart rangeStart

/-- `line_byte_range`. -/
def lineByteRange (bytes : List UInt8) (startLine endLine : Nat) : Option (Nat × Nat) :=
  if startLine = 0 ∨ endLine < startLine then
    none
  else
    lineByteRangeFrom startLine endLine bytes 0 1 0 none

/-- `bytes[start..end]`. -/
def byteSlice (bytes : List UInt8) (range : Nat × Nat) : List UInt8 :=
  (bytes.drop range.1).take (range.2 - range.1)

/-- `str::from_utf8`. -/
def fromUtf8 (bytes : List UInt8) : Option String := String.fromUTF8? ⟨bytes.toArray⟩

/-- Bytes that read as text are the bytes of that text, and no others. -/
theorem fromUtf8_eq_some {bytes : List UInt8} {text : String} :
    fromUtf8 bytes = some text ↔ asBytes text = bytes := by
  have same : asBytes text = text.toByteArray.data.toList := encodeChars_toList text
  unfold fromUtf8 String.fromUTF8?
  rw [same]
  constructor
  · intro read
    split at read
    · cases read
      show bytes.toArray.toList = bytes
      exact List.toList_toArray
    · cases read
  · intro listed
    have array : text.toByteArray = ⟨bytes.toArray⟩ := by
      apply ByteArray.ext
      rw [← listed, Array.toArray_toList]
    rw [← array, dif_pos text.isValidUTF8]
    rfl

/-- `ByteRange::new`. -/
def byteRangeOf (range : Nat × Nat) : Except KnowledgeContractError (Nat × Nat) :=
  if range.2 < range.1 then .error (.reversedRange range.1 range.2) else .ok range

/-- `LineRange::new`. -/
def lineRangeOf (first last : Nat) : Except KnowledgeContractError (Nat × Nat) :=
  if first = 0 ∨ last = 0 ∨ last < first then
    .error (.invalidLineRange first last)
  else
    .ok (first, last)

/-- What `EvidenceOccurrence::validate` reports of an occurrence it refuses. -/
def occurrenceViolation (occurrence : EvidenceOccurrence) : KnowledgeContractError :=
  if isLowerHex occurrence.sourceDigestHex 64 then
    .excerptTooLarge occurrence.excerpt.utf8ByteSize maxEvidenceExcerptBytes
  else
    .invalidDigest "source digest" 64

/-- A contract failure as an error of the source it was found in. -/
def inSource {Value : Type} (path : String) :
    Except KnowledgeContractError Value → Except TexoError Value
  | .error error => .error (.source path (contractMessage error))
  | .ok value => .ok value

/-- `SourceId` of a body digest with its error lifted. -/
def sourceIdOfDigest (digest : String) : Except TexoError SourceId :=
  match sourceIdFromHash digest with
  | .error error => .error (.idParse error)
  | .ok sourceId => .ok sourceId

/-- What planning the evidence of one claim came to. -/
inductive PlannedEvidence where
  | skip
  | gap (omission : CoverageGap)
  | row (occurrence : EvidenceOccurrence) (link : ClaimEvidenceLinkedV1)

/-- Evidence rows and the gaps found while planning them. -/
structure EvidencePlan where
  rows : List (EvidenceOccurrence × ClaimEvidenceLinkedV1) := []
  gaps : List CoverageGap := []

/-- Add what one claim came to. -/
def EvidencePlan.add (plan : EvidencePlan) : PlannedEvidence → EvidencePlan
  | .skip => plan
  | .gap omission => { plan with gaps := plan.gaps ++ [omission] }
  | .row occurrence link => { plan with rows := plan.rows ++ [(occurrence, link)] }

variable [Blake3]

/-- `EvidenceOccurrenceId::derive`. -/
def evidenceOccurrenceId (material : String) : EvidenceOccurrenceId :=
  ⟨"evidence_" ++ cut (blake3HashHex material) 24, startsWith_append _ _⟩

/-- `RepositoryId::derive`. -/
def repositoryId (material : String) : RepositoryId :=
  ⟨"repo_" ++ cut (blake3HashHex material) 24, startsWith_append _ _⟩

/-- The occurrence a claim's lines have in a captured source. -/
def occurrenceOf (card : ClaimCard) (source : CapturedSource) (snapshotId : SourceSnapshotId)
    (byteRange lineRange : Nat × Nat) (excerpt : String) : EvidenceOccurrence where
  occurrenceId := evidenceOccurrenceId ("texo.evidence.occurrence.v1\x1f" ++ snapshotId.value ++
    "\x1f" ++ source.path ++ "\x1f" ++ toString byteRange.1 ++ "\x1f" ++ toString byteRange.2 ++
    "\x1f" ++ card.claimId)
  snapshotId := snapshotId
  sourceKind := match source.layer with
    | .committed => .gitBlob
    | .worktree => .worktreeOverlay
  path := source.path
  byteRange := byteRange
  lineRange := lineRange
  gitBlob := source.blobId
  sourceDigestHex := Blake3.hex source.bytes
  excerpt := excerpt
  analyzerFingerprint := card.extractorKind ++ ":" ++ card.extractorModel ++ ":" ++
    card.promptVersion
  analysisQuality := .syntactic

/-- `plan_claim_evidence_row`, once its excerpt is cut. -/
def evidenceRow (card : ClaimCard) (source : CapturedSource) (snapshotId : SourceSnapshotId)
    (workspaceId : WorkspaceId) (observedAtMs : Nat) (range : Nat × Nat) (excerpt : String) :
    Except TexoError PlannedEvidence := do
  let byteRange ← inSource source.path (byteRangeOf range)
  let lineRange ← inSource source.path (lineRangeOf card.lineStart card.lineEnd)
  let occurrence := occurrenceOf card source snapshotId byteRange lineRange excerpt
  require (occurrence.validate = true)
    (.source source.path (contractMessage (occurrenceViolation occurrence)))
  let claimId ← claimIdOf card.claimId
  .ok (.row occurrence
    { workspaceId := workspaceId
      claimId := claimId
      occurrenceId := occurrence.occurrenceId
      stance := .supports
      method := .deterministic
      observedAtMs := observedAtMs })

/-- `plan_claim_evidence_row`. -/
def planClaimEvidenceRow (card : ClaimCard) (source : Option CapturedSource)
    (snapshotId : SourceSnapshotId) (workspaceId : WorkspaceId) (observedAtMs : Nat) :
    Except TexoError PlannedEvidence :=
  match source with
  | none => .ok .skip
  | some source => do
    let captured ← sourceIdOfDigest (Blake3.hex source.bytes)
    if captured.value ≠ card.sourceId then
      .ok (.gap ⟨some source.path, .analysisIncomplete⟩)
    else
      match lineByteRange source.bytes card.lineStart card.lineEnd with
      | none => .ok (.gap ⟨some source.path, .analysisIncomplete⟩)
      | some range =>
        match fromUtf8 (byteSlice source.bytes range) with
        | none => .ok (.gap ⟨some source.path, .unsupportedEncoding⟩)
        | some excerpt =>
          if maxEvidenceExcerptBytes < excerpt.utf8ByteSize then
            .ok (.gap ⟨some source.path, .sourceTooLarge⟩)
          else
            evidenceRow card source snapshotId workspaceId observedAtMs range excerpt

/-- The captured source at a path; the last one of a path wins. -/
def sourceAt (sources : List CapturedSource) (path : String) : Option CapturedSource :=
  sources.reverse.find? fun source => source.path = path

/-- `plan_claim_evidence`. -/
def planClaimEvidence (view : WorkspaceView) (sources : List CapturedSource)
    (snapshotId : SourceSnapshotId) (observedAtMs : Nat) : Except TexoError EvidencePlan := do
  let workspaceId ← workspaceIdOf view.workspaceId
  view.claims.foldlM (fun plan claim =>
    (planClaimEvidenceRow claim.card (sourceAt sources claim.card.sourcePath) snapshotId workspaceId
      observedAtMs).map plan.add) {}

/-- A row links a claim in the workspace it was planned for. -/
theorem planClaimEvidenceRow_here {card : ClaimCard} {source : Option CapturedSource}
    {snapshotId : SourceSnapshotId} {workspaceId : WorkspaceId} {observedAtMs : Nat}
    {occurrence : EvidenceOccurrence} {link : ClaimEvidenceLinkedV1}
    (planned : planClaimEvidenceRow card source snapshotId workspaceId observedAtMs =
      .ok (.row occurrence link)) : link.workspaceId = workspaceId := by
  unfold planClaimEvidenceRow at planned
  cases source with
  | none => cases planned
  | some source =>
    obtain ⟨captured, _, planned⟩ := bind_eq_ok.mp planned
    split at planned
    · cases planned
    · split at planned
      · cases planned
      · split at planned
        · cases planned
        · split at planned
          · cases planned
          · unfold evidenceRow at planned
            obtain ⟨_, _, planned⟩ := bind_eq_ok.mp planned
            obtain ⟨_, _, planned⟩ := bind_eq_ok.mp planned
            obtain ⟨_, _, planned⟩ := bind_eq_ok.mp planned
            obtain ⟨_, _, planned⟩ := bind_eq_ok.mp planned
            injection Except.ok.inj planned with _ linked
            rw [← linked]

/-- A planned row has a valid occurrence, the one it links. -/
theorem planClaimEvidenceRow_valid {card : ClaimCard} {source : Option CapturedSource}
    {snapshotId : SourceSnapshotId} {workspaceId : WorkspaceId} {observedAtMs : Nat}
    {occurrence : EvidenceOccurrence} {link : ClaimEvidenceLinkedV1}
    (planned : planClaimEvidenceRow card source snapshotId workspaceId observedAtMs =
      .ok (.row occurrence link)) :
    occurrence.validate = true ∧ link.occurrenceId = occurrence.occurrenceId := by
  unfold planClaimEvidenceRow at planned
  cases source with
  | none => cases planned
  | some source =>
    obtain ⟨captured, _, planned⟩ := bind_eq_ok.mp planned
    split at planned
    · cases planned
    · split at planned
      · cases planned
      · split at planned
        · cases planned
        · split at planned
          · cases planned
          · unfold evidenceRow at planned
            obtain ⟨_, _, planned⟩ := bind_eq_ok.mp planned
            obtain ⟨_, _, planned⟩ := bind_eq_ok.mp planned
            obtain ⟨_, valid, planned⟩ := bind_eq_ok.mp planned
            obtain ⟨_, _, planned⟩ := bind_eq_ok.mp planned
            injection Except.ok.inj planned with recorded linked
            rw [← linked, ← recorded]
            exact ⟨require_eq_ok.mp valid, rfl⟩

/-- Every row of a plan was planned for a claim of the view. -/
theorem planClaimEvidence_rows {view : WorkspaceView} {sources : List CapturedSource}
    {snapshotId : SourceSnapshotId} {observedAtMs : Nat} {plan : EvidencePlan}
    (planned : planClaimEvidence view sources snapshotId observedAtMs = .ok plan) :
    ∃ workspaceId, workspaceIdOf view.workspaceId = .ok workspaceId ∧
      ∀ row ∈ plan.rows, ∃ claim ∈ view.claims, planClaimEvidenceRow claim.card
        (sourceAt sources claim.card.sourcePath) snapshotId workspaceId observedAtMs =
          .ok (.row row.1 row.2) := by
  unfold planClaimEvidence at planned
  obtain ⟨workspaceId, named, planned⟩ := bind_eq_ok.mp planned
  refine ⟨workspaceId, named, ?_⟩
  refine foldlM_preserves (fun plan : EvidencePlan =>
    ∀ row ∈ plan.rows, ∃ claim ∈ view.claims, planClaimEvidenceRow claim.card
      (sourceAt sources claim.card.sourcePath) snapshotId workspaceId observedAtMs =
        .ok (.row row.1 row.2)) ?_ planned ?_
  · intro plan claim listed next step kept row member
    cases planned : planClaimEvidenceRow claim.card (sourceAt sources claim.card.sourcePath)
        snapshotId workspaceId observedAtMs with
    | error error =>
      rw [planned] at step
      cases step
    | ok outcome =>
      rw [planned] at step
      rw [← Except.ok.inj step] at member
      cases outcome with
      | skip => exact kept row member
      | gap omission => exact kept row member
      | row occurrence link =>
        rcases List.mem_append.mp member with earlier | last
        · exact kept row earlier
        · rw [List.mem_singleton.mp last]
          exact ⟨claim, listed, planned⟩
  · intro row member
    cases member

/-- Every row of a plan links a claim in the workspace of the view. -/
theorem planClaimEvidence_here {view : WorkspaceView} {sources : List CapturedSource}
    {snapshotId : SourceSnapshotId} {observedAtMs : Nat} {plan : EvidencePlan}
    (planned : planClaimEvidence view sources snapshotId observedAtMs = .ok plan) :
    ∀ row ∈ plan.rows, row.2.workspaceId.value = view.workspaceId := by
  obtain ⟨workspaceId, named, rows⟩ := planClaimEvidence_rows planned
  intro row member
  obtain ⟨claim, _, made⟩ := rows row member
  rw [planClaimEvidenceRow_here made, value_of_workspaceIdOf named]

/-- `MAX_TEMPORAL_SNAPSHOT_COMPARISONS`. -/
def maxTemporalSnapshotComparisons : Nat := 1024

/-- `overlay_aware_comparison`. -/
def GitWorld.overlayAwareComparison (world : GitWorld) (prior : SourceSnapshotRecordedV1)
    (capture : GitCapture) : Except TexoError GitComparison :=
  if prior.baseCommit = capture.baseCommit then
    .ok
      { relation := match prior.dirty, capture.dirty with
          | false, true => .before
          | true, false => .after
          | true, true => .concurrent
          | false, false => .same
        gap := none }
  else
    (world.compareCommits prior.baseCommit capture.baseCommit).map fun comparison =>
      { comparison with
        relation := match comparison.relation with
          | .before => if prior.dirty then .concurrent else .before
          | .after => if capture.dirty then .concurrent else .after
          | other => other }

/-- How a recorded snapshot and a capture are ordered; another repository's is not. -/
def GitWorld.comparison (world : GitWorld) (prior : SourceSnapshotRecordedV1) (capture : GitCapture) :
    Except TexoError GitComparison :=
  if prior.repositoryId = capture.repositoryId then
    world.overlayAwareComparison prior capture
  else
    .ok ⟨.unknown, some .missingObject⟩

/-- Relations of a capture with the snapshots before it, and the gaps met. -/
structure RelationPlan where
  relations : List SourceSnapshotRelationV1 := []
  gaps : List CoverageGap := []

/-- Note a gap that is not noted yet. -/
def RelationPlan.note (plan : RelationPlan) : Option CoverageGapKind → RelationPlan
  | none => plan
  | some kind =>
    if (⟨none, kind⟩ : CoverageGap) ∈ plan.gaps then
      plan
    else
      { plan with gaps := plan.gaps ++ [⟨none, kind⟩] }

/-- One prior snapshot of `plan_snapshot_relations`; an unknown order is never journalled. -/
def GitWorld.relateSnapshot (world : GitWorld) (workspaceId : WorkspaceId) (capture : GitCapture)
    (observedAtMs : Nat) (plan : RelationPlan) (prior : SourceSnapshotRecordedV1) :
    Except TexoError RelationPlan :=
  if prior.snapshotId = capture.snapshotId then
    .ok plan
  else
    (world.comparison prior capture).map fun comparison =>
      let noted := plan.note comparison.gap
      if comparison.relation = .unknown then
        noted
      else
        { noted with
          relations := noted.relations ++
            [{ workspaceId := workspaceId
               repositoryId := capture.repositoryId
               leftSnapshotId := prior.snapshotId
               rightSnapshotId := capture.snapshotId
               leftCommit := prior.baseCommit
               rightCommit := capture.baseCommit
               relation := comparison.relation
               observedAtMs := observedAtMs }] }

/-- `plan_snapshot_relations`. -/
def GitWorld.planSnapshotRelations (world : GitWorld) (workspaceId : WorkspaceId)
    (capture : GitCapture) (previous : List SourceSnapshotRecordedV1) (observedAtMs : Nat) :
    Except TexoError RelationPlan :=
  let skipped := previous.length - maxTemporalSnapshotComparisons
  (previous.drop skipped).foldlM (world.relateSnapshot workspaceId capture observedAtMs)
    { gaps := if 0 < skipped then [⟨none, .budgetExceeded⟩] else [] }

omit [Blake3] in
/-- Every planned relation is in the workspace it is planned for. -/
theorem planSnapshotRelations_here {world : GitWorld} {workspaceId : WorkspaceId}
    {capture : GitCapture} {previous : List SourceSnapshotRecordedV1} {observedAtMs : Nat}
    {plan : RelationPlan}
    (planned : world.planSnapshotRelations workspaceId capture previous observedAtMs = .ok plan) :
    ∀ relation ∈ plan.relations, relation.workspaceId = workspaceId := by
  refine foldlM_preserves (fun plan : RelationPlan =>
    ∀ relation ∈ plan.relations, relation.workspaceId = workspaceId) ?_ planned ?_
  · intro plan prior _ next step kept relation member
    unfold GitWorld.relateSnapshot at step
    split at step
    · rw [← Except.ok.inj step] at member
      exact kept relation member
    · cases compared : world.comparison prior capture with
      | error error =>
        rw [compared] at step
        cases step
      | ok comparison =>
        have noted : (plan.note comparison.gap).relations = plan.relations := by
          unfold RelationPlan.note
          split
          · rfl
          · split <;> rfl
        rw [compared] at step
        rw [← Except.ok.inj step] at member
        simp only at member
        split at member
        · rw [noted] at member
          exact kept relation member
        · rcases List.mem_append.mp member with earlier | last
          · rw [noted] at earlier
            exact kept relation earlier
          · rw [List.mem_singleton.mp last]
  · intro relation member
    cases member

end Texo.Ops
