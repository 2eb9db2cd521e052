import Mathlib.Data.List.Sort
import Texo.Foundation.PairMap
import Texo.Events.Coordinate
import Texo.Store.Journal

/-! # Evidence and source-order projections

Two replays bounded by a frontier: the evidence linked to each claim, joined after the
whole scan, and the recorded order of frozen source snapshots. Together they give the
policy that orients claim pairs.
-/
namespace Texo.Claims
open Texo.Events Texo.Knowledge Texo.Store Texo.Foundation

/-- Snapshot-bounded evidence view assembled from journal events. -/
structure EvidenceProjection where
  byClaim : Std.ExtTreeMap String (List ClaimEvidence) := ∅
  incomplete : Bool := false

/-- `EvidenceProjection::for_claim`. -/
def EvidenceProjection.forClaim (projection : EvidenceProjection) (claimId : String) :
    List ClaimEvidence :=
  (projection.byClaim[claimId]?).getD []

/-- What an evidence scan has collected. -/
structure EvidenceScan where
  occurrences : Std.ExtTreeMap EvidenceOccurrenceId (EvidenceOccurrence × Nat) := ∅
  reconciliations : PairMap String (EvidenceReconciliationAcceptedV1 × Nat) := ∅
  links : List (ClaimEvidenceLinkedV1 × Nat) := []

/-- One payload of an evidence scan: the last occurrence under an id and the first
acceptance of a pair are kept. -/
def EvidenceScan.note (scan : EvidenceScan) (sequence : Nat) : Payload → EvidenceScan
  | .evidenceOccurrenceRecorded payload =>
    { scan with
      occurrences := scan.occurrences.insert payload.occurrence.occurrenceId
        (payload.occurrence, sequence) }
  | .claimEvidenceLinked payload => { scan with links := scan.links ++ [(payload, sequence)] }
  | .evidenceReconciliationAccepted payload =>
    { scan with
      reconciliations := scan.reconciliations.insertIfNew
        (payload.claimId.value, payload.occurrenceId.value) (payload, sequence) }
  | _ => scan

/-- The kinds an evidence scan reads. -/
def evidenceKind : EventKind → Bool
  | .evidenceOccurrenceRecorded => true
  | .claimEvidenceLinked => true
  | .evidenceReconciliationAccepted => true
  | _ => false

/-- One row of an evidence scan; rows of other kinds are not read. -/
def scanEvidence (store : JournalRead) (scan : EvidenceScan) (entry : Entry) :
    Except TexoError EvidenceScan :=
  if evidenceKind entry.payload.kind then
    (store.readRaw entry).map (scan.note entry.sequence)
  else
    .ok scan

/-- Evidence is listed by path, then by start, then by link. -/
def evidenceLe (left right : ClaimEvidence) : Prop :=
  left.occurrence.path < right.occurrence.path ∨
    (left.occurrence.path = right.occurrence.path ∧
      (left.occurrence.byteRange.1 < right.occurrence.byteRange.1 ∨
        (left.occurrence.byteRange.1 = right.occurrence.byteRange.1 ∧
          left.linkSequence ≤ right.linkSequence)))

instance : DecidableRel evidenceLe := fun left right =>
  inferInstanceAs (Decidable (left.occurrence.path < right.occurrence.path ∨
    (left.occurrence.path = right.occurrence.path ∧
      (left.occurrence.byteRange.1 < right.occurrence.byteRange.1 ∨
        (left.occurrence.byteRange.1 = right.occurrence.byteRange.1 ∧
          left.linkSequence ≤ right.linkSequence)))))

/-- One link of `join`: a link without its occurrence marks the projection incomplete. -/
def joinLink (scan : EvidenceScan) (projection : EvidenceProjection)
    (link : ClaimEvidenceLinkedV1 × Nat) : EvidenceProjection :=
  match scan.occurrences[link.1.occurrenceId]? with
  | none => { projection with incomplete := true }
  | some occurrence =>
    let evidence : ClaimEvidence :=
      { claimId := link.1.claimId.value
        occurrence := occurrence.1
        stance := link.1.stance
        method := link.1.method
        occurrenceSequence := occurrence.2
        linkSequence := link.2
        reconciliation :=
          (scan.reconciliations[(link.1.claimId.value, link.1.occurrenceId.value)]?).map
            fun accepted =>
              { scorePpm := accepted.1.scorePpm
                judgeFingerprint := accepted.1.judgeFingerprint
                cacheKeyHex := accepted.1.cacheKeyHex
                policyVersion := accepted.1.policyVersion
                observedAtMs := accepted.1.observedAtMs
                acceptanceSequence := accepted.2 } }
    { projection with
      byClaim := projection.byClaim.insert link.1.claimId.value
        (projection.forClaim link.1.claimId.value ++ [evidence]) }

/-- `join`. -/
def joinEvidence (scan : EvidenceScan) : EvidenceProjection :=
  let projection := scan.links.foldl (joinLink scan) {}
  { projection with
    byClaim := projection.byClaim.map fun _ (evidence : List ClaimEvidence) =>
      evidence.insertionSort evidenceLe }

/-- `evidence::assemble_through`. -/
def assembleEvidenceThrough (store : JournalRead) (workspaceId : String) (frontier : Nat) :
    Except TexoError EvidenceProjection :=
  ((store.rowsThrough (scopeForWorkspace workspaceId) frontier).foldlM (scanEvidence store) {}).map
    joinEvidence

/-- Snapshot-order facts reconstructed from durable journal events. -/
abbrev TemporalProjection := PairMap String TemporalRelation

/-- `TemporalProjection::insert`: the first fact of a directed pair stays. -/
def insertTemporal (projection : TemporalProjection) (relation : SourceSnapshotRelationV1) :
    TemporalProjection :=
  projection.insertIfNew (relation.leftSnapshotId.value, relation.rightSnapshotId.value)
    relation.relation

/-- One row of a temporal scan. -/
def scanTemporal (store : JournalRead) (projection : TemporalProjection) (entry : Entry) :
    Except TexoError TemporalProjection :=
  if entry.payload.kind = .sourceSnapshotRelation then
    (store.readRaw entry).map fun
      | .sourceSnapshotRelation relation => insertTemporal projection relation
      | _ => projection
  else
    .ok projection

/-- `temporal::assemble_through`. -/
def assembleTemporalThrough (store : JournalRead) (workspaceId : String) (frontier : Nat) :
    Except TexoError TemporalProjection :=
  (store.rowsThrough (scopeForWorkspace workspaceId) frontier).foldlM (scanTemporal store) ∅

/-- `Iterator::max_by_key`: the last of the greatest. -/
def maxByKey {Item : Type} (key : Item → Nat) (items : List Item) : Option Item :=
  items.foldl (fun best item =>
    match best with
    | none => some item
    | some held => if key held ≤ key item then some item else some held) none

/-- The latest deterministic supporting evidence of a claim. -/
def latestSupport (evidence : List ClaimEvidence) : Option ClaimEvidence :=
  maxByKey ClaimEvidence.linkSequence
    (evidence.filter fun item => item.method = .deterministic ∧ item.stance = .supports)

end Texo.Claims
