import Texo.Events.Ids

/-! # Evidence and snapshot contracts

The closed vocabularies of source evidence: how two source states relate, how
well a source was analysed, what an occurrence says about a claim.
-/
namespace Texo.Knowledge
open Texo.Events

/-- Git object-hash algorithm. -/
inductive GitObjectFormat where
  | sha1
  | sha256
deriving DecidableEq, Repr

/-- Typed Git object identity. -/
structure GitObjectId where
  format : GitObjectFormat
  hex : String
deriving DecidableEq, Repr

/-- Relationship between two source-domain coordinates. -/
inductive TemporalRelation where
  | same
  | before
  | after
  | concurrent
  | unknown
deriving DecidableEq, Repr

/-- `invert`: the relation seen from the other side. -/
def TemporalRelation.invert : TemporalRelation → TemporalRelation
  | .before => .after
  | .after => .before
  | .same => .same
  | .concurrent => .concurrent
  | .unknown => .unknown

@[simp] theorem TemporalRelation.invert_invert (relation : TemporalRelation) :
    relation.invert.invert = relation := by
  cases relation <;> rfl

/-- Quality of code-intelligence evidence. -/
inductive AnalysisQuality where
  | precise
  | syntactic
  | lexical
  | unavailable
deriving DecidableEq, Repr

/-- Durable code-index artifact format. -/
inductive CodeIndexFormat where
  | scip
  | syntactic
  | lexical
deriving DecidableEq, Repr

/-- Evidence source class. -/
inductive EvidenceSourceKind where
  | markdown
  | gitBlob
  | worktreeOverlay
  | scip
  | syntactic
  | lexical
deriving DecidableEq, Repr

/-- How evidence bears on an assertion. -/
inductive EvidenceStance where
  | supports
  | contradicts
  | mentions
deriving DecidableEq, Repr

/-- Mechanism that produced an evidence-to-claim link. -/
inductive EvidenceLinkMethod where
  | deterministic
  | semanticPolicy
deriving DecidableEq, Repr

/-- Closed explanation for a coverage gap. -/
inductive CoverageGapKind where
  | sourceSnapshotUnavailable
  | codeIndexUnavailable
  | budgetExceeded
  | shallowHistory
  | missingObject
  | gitlink
  | symlink
  | lfsPointer
  | unsupportedEncoding
  | sourceTooLarge
  | unsupportedLanguage
  | worktreeConflict
  | analysisIncomplete
  | outOfScope
deriving DecidableEq, Repr

/-- One bounded coverage omission. -/
structure CoverageGap where
  path : Option String
  kind : CoverageGapKind
deriving DecidableEq, Repr

/-- Bounded capture or index coverage and its omissions. -/
structure KnowledgeCoverage where
  analysisQuality : AnalysisQuality
  sourcesExamined : Nat
  occurrences : Nat
  truncated : Bool
  gaps : List CoverageGap
deriving DecidableEq, Repr

/-- Exact bounded evidence occurrence suitable for durable explanation. -/
structure EvidenceOccurrence where
  occurrenceId : EvidenceOccurrenceId
  snapshotId : SourceSnapshotId
  sourceKind : EvidenceSourceKind
  path : String
  byteRange : Nat × Nat
  lineRange : Nat × Nat
  gitBlob : Option GitObjectId
  sourceDigestHex : String
  excerpt : String
  analyzerFingerprint : String
  analysisQuality : AnalysisQuality
deriving DecidableEq

/-- Maximum exact evidence excerpt carried by one durable occurrence. -/
def maxEvidenceExcerptBytes : Nat := 4 * 1024

/-- `is_lower_hex_digest`, `validate_lower_hex`: exactly so many lowercase digits. -/
def isLowerHex (value : String) (length : Nat) : Bool :=
  value.utf8ByteSize = length && value.toList.all fun c => c.isDigit || ('a' ≤ c && c ≤ 'f')

/-- `EvidenceOccurrence::validate`: a lowercase source digest and a bounded excerpt. -/
def EvidenceOccurrence.validate (occurrence : EvidenceOccurrence) : Bool :=
  isLowerHex occurrence.sourceDigestHex 64 &&
    occurrence.excerpt.utf8ByteSize ≤ maxEvidenceExcerptBytes

/-- Policy provenance of a link that a reconciliation accepted. -/
structure ReconciliationProvenance where
  scorePpm : Nat
  judgeFingerprint : String
  cacheKeyHex : String
  policyVersion : String
  observedAtMs : Nat
  acceptanceSequence : Nat
deriving DecidableEq, Repr

/-- One replayed piece of evidence linked to a claim. -/
structure ClaimEvidence where
  claimId : String
  occurrence : EvidenceOccurrence
  stance : EvidenceStance
  method : EvidenceLinkMethod
  occurrenceSequence : Nat
  linkSequence : Nat
  reconciliation : Option ReconciliationProvenance
deriving DecidableEq

end Texo.Knowledge
