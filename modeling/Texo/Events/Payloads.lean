import Texo.Events.Machines
import Texo.Knowledge.Contracts

/-! # Versioned event payloads

One structure for each payload the journal carries, with the source's fields, and
one sum of them all. A payload outside the program's own kinds is kept only as its
raw kind.
-/
namespace Texo.Events
open Texo.Knowledge

/-- A source document observation. -/
structure SourceObservedV2 where
  sourceId : String
  workspaceId : String
  sourceKind : String
  path : String
  bodyHashHex : String
  observedAtMs : Nat
deriving DecidableEq, Repr

/-- A claim extracted from a source. -/
structure ClaimRecordedV2 where
  claimId : String
  workspaceId : String
  sourceId : String
  sourcePath : String
  lineStart : Nat
  lineEnd : Nat
  charStart : Nat
  charEnd : Nat
  text : String
  normalizedText : String
  subjectHint : Option String
  predicateHint : Option String
  objectHint : Option String
  confidencePpm : Nat
  extractorKind : String
  extractorModel : String
  promptVersion : String
  observedAtMs : Nat
deriving DecidableEq, Repr

/-- A claim supersession decision. -/
structure ClaimSupersededV2 where
  oldClaimId : String
  newClaimId : String
  workspaceId : String
  reason : String
  decidedBy : String
  observedAtMs : Nat
  transition : TransitionRecordV1
deriving DecidableEq, Repr

/-- An opened conflict between two claims. -/
structure ConflictOpenedV2 where
  conflictId : String
  workspaceId : String
  claimA : String
  claimB : String
  reason : String
  detector : String
  observedAtMs : Nat
  transition : TransitionRecordV1
deriving DecidableEq, Repr

/-- A resolved or ignored conflict. -/
structure ConflictResolvedV2 where
  conflictId : String
  workspaceId : String
  resolution : String
  resolvedBy : String
  observedAtMs : Nat
  transition : TransitionRecordV1
deriving DecidableEq, Repr

/-- Closed relation verdict recorded for a logical pair. -/
inductive SettledRelation where
  | supersedes
  | conflicts
  | duplicate
  | unrelated
deriving DecidableEq, Repr

/-- Closed class of a deferred pair attempt. -/
inductive RelationFailureClass where
  | truncated
  | httpStatus
  | transport
  | deadline
  | parse
  | budgetExhausted
  | temporalConcurrent
  | temporalUnknown
deriving DecidableEq, Repr

/-- Durable completion state for one bounded relation campaign. -/
inductive CampaignPhase where
  | incomplete (nextCandidateCursor : Nat)
  | complete
deriving DecidableEq, Repr

/-- A completed semantic judgment for one logical relation pair. -/
structure RelationJudgedV1 where
  workspaceId : WorkspaceId
  olderClaim : ClaimId
  newerClaim : ClaimId
  relation : SettledRelation
  scorePpm : Nat
  judgeFingerprint : String
  cacheKeyHex : String
  observedAtMs : Nat
deriving DecidableEq

/-- A failed semantic attempt for one logical relation pair. -/
structure RelationDeferredV1 where
  workspaceId : WorkspaceId
  olderClaim : ClaimId
  newerClaim : ClaimId
  failureClass : RelationFailureClass
  attempts : Nat
  observedAtMs : Nat
deriving DecidableEq

/-- Durable progress proof for one workspace relation campaign. -/
structure RelationCampaignCheckpointV1 where
  workspaceId : WorkspaceId
  evaluatedBasisDigestHex : String
  resultBasisDigestHex : String
  candidatePolicyDigestHex : String
  phase : CampaignPhase
  observedAtMs : Nat
deriving DecidableEq

/-- One frozen Git commit plus index and worktree overlay observation. -/
structure SourceSnapshotRecordedV1 where
  workspaceId : WorkspaceId
  repositoryId : RepositoryId
  snapshotId : SourceSnapshotId
  baseCommit : GitObjectId
  baseTree : GitObjectId
  indexDigestHex : String
  overlayDigestHex : String
  dirty : Bool
  coverage : KnowledgeCoverage
  captureMaxFiles : Nat
  captureMaxFileBytes : Nat
  captureMaxTotalBytes : Nat
  observedAtMs : Nat
deriving DecidableEq

/-- One exact bounded occurrence of source evidence. -/
structure EvidenceOccurrenceRecordedV1 where
  workspaceId : WorkspaceId
  occurrence : EvidenceOccurrence
  observedAtMs : Nat
deriving DecidableEq

/-- Durable link from an assertion to exact evidence. -/
structure ClaimEvidenceLinkedV1 where
  workspaceId : WorkspaceId
  claimId : ClaimId
  occurrenceId : EvidenceOccurrenceId
  stance : EvidenceStance
  method : EvidenceLinkMethod
  observedAtMs : Nat
deriving DecidableEq

/-- One replayable Git-ancestry comparison between frozen source snapshots. -/
structure SourceSnapshotRelationV1 where
  workspaceId : WorkspaceId
  repositoryId : RepositoryId
  leftSnapshotId : SourceSnapshotId
  rightSnapshotId : SourceSnapshotId
  leftCommit : GitObjectId
  rightCommit : GitObjectId
  relation : TemporalRelation
  observedAtMs : Nat
deriving DecidableEq

/-- Deterministic policy acceptance of one cached model proposal. -/
structure EvidenceReconciliationAcceptedV1 where
  workspaceId : WorkspaceId
  claimId : ClaimId
  occurrenceId : EvidenceOccurrenceId
  stance : EvidenceStance
  scorePpm : Nat
  judgeFingerprint : String
  cacheKeyHex : String
  policyVersion : String
  observedAtMs : Nat
deriving DecidableEq

/-- Registration of one disposable, content-addressed code index. -/
structure CodeIndexRecordedV1 where
  workspaceId : WorkspaceId
  snapshotId : SourceSnapshotId
  indexId : CodeIndexId
  format : CodeIndexFormat
  analyzerFingerprint : String
  artifactDigestHex : String
  coverage : KnowledgeCoverage
  observedAtMs : Nat
deriving DecidableEq

/-- One journalled payload. -/
inductive Payload where
  | sourceObserved (event : SourceObservedV2)
  | claimRecorded (event : ClaimRecordedV2)
  | claimSuperseded (event : ClaimSupersededV2)
  | conflictOpened (event : ConflictOpenedV2)
  | conflictResolved (event : ConflictResolvedV2)
  | relationJudged (event : RelationJudgedV1)
  | relationDeferred (event : RelationDeferredV1)
  | campaignCheckpoint (event : RelationCampaignCheckpointV1)
  | sourceSnapshotRecorded (event : SourceSnapshotRecordedV1)
  | evidenceOccurrenceRecorded (event : EvidenceOccurrenceRecordedV1)
  | claimEvidenceLinked (event : ClaimEvidenceLinkedV1)
  | sourceSnapshotRelation (event : SourceSnapshotRelationV1)
  | evidenceReconciliationAccepted (event : EvidenceReconciliationAcceptedV1)
  | codeIndexRecorded (event : CodeIndexRecordedV1)
  | foreign (rawKind : Nat)
deriving DecidableEq

/-- `EventPayload::KIND` of each payload. -/
inductive EventKind where
  | sourceObserved
  | claimRecorded
  | claimSuperseded
  | conflictOpened
  | conflictResolved
  | relationJudged
  | relationDeferred
  | campaignCheckpoint
  | sourceSnapshotRecorded
  | evidenceOccurrenceRecorded
  | claimEvidenceLinked
  | sourceSnapshotRelation
  | evidenceReconciliationAccepted
  | codeIndexRecorded
  | foreign (rawKind : Nat)
deriving DecidableEq, Repr

/-- The kind under which a payload is stored. -/
def Payload.kind : Payload → EventKind
  | .sourceObserved _ => .sourceObserved
  | .claimRecorded _ => .claimRecorded
  | .claimSuperseded _ => .claimSuperseded
  | .conflictOpened _ => .conflictOpened
  | .conflictResolved _ => .conflictResolved
  | .relationJudged _ => .relationJudged
  | .relationDeferred _ => .relationDeferred
  | .campaignCheckpoint _ => .campaignCheckpoint
  | .sourceSnapshotRecorded _ => .sourceSnapshotRecorded
  | .evidenceOccurrenceRecorded _ => .evidenceOccurrenceRecorded
  | .claimEvidenceLinked _ => .claimEvidenceLinked
  | .sourceSnapshotRelation _ => .sourceSnapshotRelation
  | .evidenceReconciliationAccepted _ => .evidenceReconciliationAccepted
  | .codeIndexRecorded _ => .codeIndexRecorded
  | .foreign rawKind => .foreign rawKind

end Texo.Events
