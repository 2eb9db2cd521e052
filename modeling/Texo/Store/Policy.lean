import Texo.Events.Coordinate
import Texo.Store.Journal

/-! # Typed append policies

Every domain event is appended by the policy of its kind: the policy picks the stream,
derives the idempotency key and refuses what it cannot accept. What a policy commits is
therefore recognisable from the row alone, and a used key names the row it committed.
-/
namespace Texo.Store
open Texo.Events Texo.Knowledge

/-- The part of the operation environment an append reads: the workspace it runs for,
the store, and the identities of the receipts it has noted. -/
structure OpEnv where
  workspaceId : String
  journal : Journal
  receipts : List EventId := []

/-- Rows of one entity stream, `by_entity`. -/
def Journal.byEntity (journal : Journal) (entity : String) : List Entry :=
  journal.entries.filter fun entry => entry.entity = entity

/-- `append_with_key`. -/
def appendWithKey (journal : Journal) (coordinate : Coordinate) (payload : Payload)
    (key : EventId) : Entry × Journal :=
  journal.append (some key) coordinate.scope coordinate.entity payload

/-- `append_typed`: an append without a key. -/
def appendTyped (journal : Journal) (coordinate : Coordinate) (payload : Payload) :
    Entry × Journal :=
  journal.append none coordinate.scope coordinate.entity payload

/-- An input a policy refuses. -/
def refused (detail : String) : TexoError := .opInput "texo.effect.append" detail

/-- `append_claim_recorded`. -/
def appendClaimRecorded (journal : Journal) (payload : ClaimRecordedV2) : Entry × Journal :=
  appendWithKey journal (coordinateForClaim payload.workspaceId payload.claimId)
    (.claimRecorded payload)
    (.forOperation "texo.claim.recorded.v2" [payload.workspaceId, payload.claimId])

/-- `append_claim_superseded`. -/
def appendClaimSuperseded (journal : Journal) (payload : ClaimSupersededV2) : Entry × Journal :=
  appendWithKey journal (coordinateForClaim payload.workspaceId payload.oldClaimId)
    (.claimSuperseded payload)
    (.forOperation "texo.claim.supersede.v2"
      [payload.workspaceId, payload.oldClaimId, payload.newClaimId])

/-- `append_conflict_opened`. -/
def appendConflictOpened (journal : Journal) (payload : ConflictOpenedV2) : Entry × Journal :=
  appendWithKey journal (coordinateForConflict payload.workspaceId payload.conflictId)
    (.conflictOpened payload)
    (.forOperation "texo.conflict.open.v2" [payload.workspaceId, payload.conflictId])

/-- `append_conflict_resolved`: only the two known resolutions are accepted. -/
def appendConflictResolved (journal : Journal) (payload : ConflictResolvedV2) :
    Except TexoError (Entry × Journal) :=
  if payload.resolution = "resolved" ∨ payload.resolution = "ignored" then
    .ok (appendWithKey journal (coordinateForConflict payload.workspaceId payload.conflictId)
      (.conflictResolved payload)
      (.forOperation "texo.conflict.resolve.v2" [payload.workspaceId, payload.conflictId]))
  else
    .error (.statusParse payload.resolution)

/-- `append_source_observed`. -/
def appendSourceObserved (journal : Journal) (payload : SourceObservedV2) : Entry × Journal :=
  appendWithKey journal (coordinateForSource payload.workspaceId payload.sourceId)
    (.sourceObserved payload)
    (.forOperation "texo.source.observed.v2" [payload.workspaceId, payload.bodyHashHex])

/-- `append_source_snapshot_recorded`. -/
def appendSourceSnapshotRecorded (journal : Journal) (payload : SourceSnapshotRecordedV1) :
    Entry × Journal :=
  appendWithKey journal
    (coordinateForSourceSnapshot payload.workspaceId.value payload.snapshotId.value)
    (.sourceSnapshotRecorded payload)
    (.forOperation "texo.source.snapshot.recorded.v1"
      [payload.workspaceId.value, payload.snapshotId.value])

/-- `append_evidence_occurrence_recorded`: an invalid occurrence is refused. -/
def appendEvidenceOccurrenceRecorded (journal : Journal) (payload : EvidenceOccurrenceRecordedV1) :
    Except TexoError (Entry × Journal) :=
  if payload.occurrence.validate then
    .ok (appendWithKey journal
      (coordinateForEvidence payload.workspaceId.value payload.occurrence.occurrenceId.value)
      (.evidenceOccurrenceRecorded payload)
      (.forOperation "texo.evidence.occurrence.recorded.v1"
        [payload.workspaceId.value, payload.occurrence.occurrenceId.value]))
  else
    .error (refused "evidence occurrence is invalid")

/-- `evidence_chain_options`: an append that needs its occurrence recorded before it. -/
def requireOccurrence (journal : Journal) (occurrenceId : EvidenceOccurrenceId) :
    Except TexoError Unit :=
  if (journal.byEntity (entityForEvidence occurrenceId.value)).any
      fun entry => entry.payload.kind = .evidenceOccurrenceRecorded then
    .ok ()
  else
    .error (.missingEntity (entityForEvidence occurrenceId.value))

/-- `append_evidence_reconciliation_accepted`. -/
def appendEvidenceReconciliationAccepted (journal : Journal)
    (payload : EvidenceReconciliationAcceptedV1) : Except TexoError (Entry × Journal) :=
  (requireOccurrence journal payload.occurrenceId).map fun _ =>
    appendWithKey journal (coordinateForClaim payload.workspaceId.value payload.claimId.value)
      (.evidenceReconciliationAccepted payload)
      (.forOperation "texo.evidence.reconciliation.accepted.v1"
        [payload.workspaceId.value, payload.claimId.value, payload.occurrenceId.value,
          payload.judgeFingerprint, payload.policyVersion])

/-- `append_claim_evidence_linked`. -/
def appendClaimEvidenceLinked (journal : Journal) (payload : ClaimEvidenceLinkedV1) :
    Except TexoError (Entry × Journal) :=
  (requireOccurrence journal payload.occurrenceId).map fun _ =>
    appendWithKey journal (coordinateForClaim payload.workspaceId.value payload.claimId.value)
      (.claimEvidenceLinked payload)
      (.forOperation "texo.claim.evidence.linked.v1"
        [payload.workspaceId.value, payload.claimId.value, payload.occurrenceId.value])

/-- `append_code_index_recorded`. -/
def appendCodeIndexRecorded (journal : Journal) (payload : CodeIndexRecordedV1) : Entry × Journal :=
  appendWithKey journal (coordinateForCodeIndex payload.workspaceId.value payload.indexId.value)
    (.codeIndexRecorded payload)
    (.forOperation "texo.code.index.recorded.v1" [payload.workspaceId.value, payload.indexId.value])

/-- `append_source_snapshot_relation`. -/
def appendSourceSnapshotRelation (journal : Journal) (payload : SourceSnapshotRelationV1) :
    Entry × Journal :=
  appendWithKey journal
    (coordinateForSourceRelation payload.workspaceId.value payload.leftSnapshotId.value
      payload.rightSnapshotId.value)
    (.sourceSnapshotRelation payload)
    (.forOperation "texo.source.snapshot.relation.v1"
      [payload.workspaceId.value, payload.leftSnapshotId.value, payload.rightSnapshotId.value])

/-- The latest row of a workspace's campaign stream. -/
def latestCampaignRow (journal : Journal) (workspaceId : String) : Option Entry :=
  (journal.byEntity (entityForRelationCampaign workspaceId)).getLast?

/-- The operation a checkpoint's transition key is derived for. -/
def checkpointTransition : String := "texo.relation.campaign.checkpoint.transition.v1"

/-- The key of a checkpoint that follows a predecessor, or starts the stream. -/
def checkpointKey (payload : RelationCampaignCheckpointV1) : Option EventId → EventId
  | some predecessor =>
    .forTransition checkpointTransition [payload.workspaceId.value] predecessor
      (.campaignCheckpoint payload)
  | none =>
    .forPayload checkpointTransition [payload.workspaceId.value, "root"] (.campaignCheckpoint payload)

/-- `campaign_checkpoint_options`: a retry of the latest checkpoint reuses its identity,
any other checkpoint is keyed by its predecessor. -/
def campaignCheckpointOptions (env : OpEnv) (payload : RelationCampaignCheckpointV1) :
    Except TexoError EventId :=
  let latest := latestCampaignRow env.journal payload.workspaceId.value
  let receiptPredecessor := env.receipts.getLast?
  let latestId := latest.map Entry.eventId
  let fresh := checkpointKey payload (receiptPredecessor.or latestId)
  match latest with
  | none => .ok fresh
  | some entry =>
    if receiptPredecessor.isNone ∨ receiptPredecessor = latestId then
      match entry.payload with
      | .campaignCheckpoint latestPayload =>
        if latestPayload = payload then .ok entry.eventId else .ok fresh
      | _ => .error (.opRuntime "texo.effect.append" "canonical effect payload decoding failed" false)
    else
      .ok fresh

/-- One digest check of a checkpoint. -/
def checkCampaignDigest (name digest : String) : Except TexoError Unit :=
  if isLowerHex digest 64 then
    .ok ()
  else
    .error (refused ("relation campaign " ++ name ++ " digest must be 64 lowercase hex digits"))

/-- `append_relation_campaign_checkpoint`. -/
def appendRelationCampaignCheckpoint (env : OpEnv) (payload : RelationCampaignCheckpointV1) :
    Except TexoError (Entry × Journal) :=
  if payload.workspaceId.value ≠ env.workspaceId then
    .error (refused "relation campaign checkpoint workspace does not match operation workspace")
  else do
    checkCampaignDigest "evaluated basis" payload.evaluatedBasisDigestHex
    checkCampaignDigest "result basis" payload.resultBasisDigestHex
    checkCampaignDigest "candidate policy" payload.candidatePolicyDigestHex
    if payload.phase ≠ .complete ∧
        payload.evaluatedBasisDigestHex ≠ payload.resultBasisDigestHex then
      .error (refused "partial relation campaign checkpoint cannot change the claim basis")
    else do
      let key ← campaignCheckpointOptions env payload
      .ok (appendWithKey env.journal (coordinateForRelationCampaign payload.workspaceId.value)
        (.campaignCheckpoint payload) key)

/-- A raw kind in at least four lowercase hexadecimal digits. -/
def rawKindHex (rawKind : Nat) : String :=
  let digits := Nat.toDigits 16 rawKind
  String.ofList (List.replicate (4 - digits.length) '0' ++ digits)

variable [Blake3]

/-- `append_relation_judged`: the key covers the whole payload. -/
def appendRelationJudged (journal : Journal) (payload : RelationJudgedV1) : Entry × Journal :=
  appendWithKey journal
    (coordinateForRelationPair payload.workspaceId.value
      (relationPairId payload.workspaceId payload.olderClaim payload.newerClaim).value)
    (.relationJudged payload)
    (.forPayload "texo.relation.judged.v1.payload"
      [payload.workspaceId.value, payload.olderClaim.value, payload.newerClaim.value]
      (.relationJudged payload))

/-- `append_relation_deferred`: each attempt is a new row. -/
def appendRelationDeferred (journal : Journal) (payload : RelationDeferredV1) : Entry × Journal :=
  appendTyped journal
    (coordinateForRelationPair payload.workspaceId.value
      (relationPairId payload.workspaceId payload.olderClaim payload.newerClaim).value)
    (.relationDeferred payload)

/-- `policy::append`: the policy of the payload's kind. -/
def policyAppend (env : OpEnv) : Payload → Except TexoError (Entry × Journal)
  | .sourceObserved payload => .ok (appendSourceObserved env.journal payload)
  | .claimRecorded payload => .ok (appendClaimRecorded env.journal payload)
  | .claimSuperseded payload => .ok (appendClaimSuperseded env.journal payload)
  | .conflictOpened payload => .ok (appendConflictOpened env.journal payload)
  | .conflictResolved payload => appendConflictResolved env.journal payload
  | .relationJudged payload => .ok (appendRelationJudged env.journal payload)
  | .relationDeferred payload => .ok (appendRelationDeferred env.journal payload)
  | .campaignCheckpoint payload => appendRelationCampaignCheckpoint env payload
  | .sourceSnapshotRecorded payload => .ok (appendSourceSnapshotRecorded env.journal payload)
  | .evidenceOccurrenceRecorded payload => appendEvidenceOccurrenceRecorded env.journal payload
  | .claimEvidenceLinked payload => appendClaimEvidenceLinked env.journal payload
  | .sourceSnapshotRelation payload => .ok (appendSourceSnapshotRelation env.journal payload)
  | .evidenceReconciliationAccepted payload =>
    appendEvidenceReconciliationAccepted env.journal payload
  | .codeIndexRecorded payload => .ok (appendCodeIndexRecorded env.journal payload)
  | .foreign rawKind =>
    .error (.opRuntime "texo.effect.append"
      ("event kind evt." ++ rawKindHex rawKind ++ " is outside texo domain") false)

/-- `append_domain_event`: append and note the receipt. -/
def OpEnv.append (env : OpEnv) (payload : Payload) : Except TexoError OpEnv :=
  match policyAppend env payload with
  | .error error => .error error
  | .ok (entry, journal) =>
    .ok { env with journal := journal, receipts := env.receipts ++ [entry.eventId] }

/-- Append payloads in order; the first refusal stops. -/
def OpEnv.appendAll (env : OpEnv) (payloads : List Payload) : Except TexoError OpEnv :=
  payloads.foldlM OpEnv.append env

/-- The stream a payload is appended to; foreign payloads have none. -/
def coordinateOf : Payload → Option Coordinate
  | .sourceObserved event => some (coordinateForSource event.workspaceId event.sourceId)
  | .claimRecorded event => some (coordinateForClaim event.workspaceId event.claimId)
  | .claimSuperseded event => some (coordinateForClaim event.workspaceId event.oldClaimId)
  | .conflictOpened event => some (coordinateForConflict event.workspaceId event.conflictId)
  | .conflictResolved event => some (coordinateForConflict event.workspaceId event.conflictId)
  | .relationJudged event =>
    some (coordinateForRelationPair event.workspaceId.value
      (relationPairId event.workspaceId event.olderClaim event.newerClaim).value)
  | .relationDeferred event =>
    some (coordinateForRelationPair event.workspaceId.value
      (relationPairId event.workspaceId event.olderClaim event.newerClaim).value)
  | .campaignCheckpoint event => some (coordinateForRelationCampaign event.workspaceId.value)
  | .sourceSnapshotRecorded event =>
    some (coordinateForSourceSnapshot event.workspaceId.value event.snapshotId.value)
  | .evidenceOccurrenceRecorded event =>
    some (coordinateForEvidence event.workspaceId.value event.occurrence.occurrenceId.value)
  | .claimEvidenceLinked event =>
    some (coordinateForClaim event.workspaceId.value event.claimId.value)
  | .sourceSnapshotRelation event =>
    some (coordinateForSourceRelation event.workspaceId.value event.leftSnapshotId.value
      event.rightSnapshotId.value)
  | .evidenceReconciliationAccepted event =>
    some (coordinateForClaim event.workspaceId.value event.claimId.value)
  | .codeIndexRecorded event =>
    some (coordinateForCodeIndex event.workspaceId.value event.indexId.value)
  | .foreign _ => none

/-- The operation under whose keys payloads of a kind are committed. -/
def domainOperation : EventKind → Option String
  | .sourceObserved => some "texo.source.observed.v2"
  | .claimRecorded => some "texo.claim.recorded.v2"
  | .claimSuperseded => some "texo.claim.supersede.v2"
  | .conflictOpened => some "texo.conflict.open.v2"
  | .conflictResolved => some "texo.conflict.resolve.v2"
  | .relationJudged => some "texo.relation.judged.v1.payload"
  | .relationDeferred => none
  | .campaignCheckpoint => some checkpointTransition
  | .sourceSnapshotRecorded => some "texo.source.snapshot.recorded.v1"
  | .evidenceOccurrenceRecorded => some "texo.evidence.occurrence.recorded.v1"
  | .claimEvidenceLinked => some "texo.claim.evidence.linked.v1"
  | .sourceSnapshotRelation => some "texo.source.snapshot.relation.v1"
  | .evidenceReconciliationAccepted => some "texo.evidence.reconciliation.accepted.v1"
  | .codeIndexRecorded => some "texo.code.index.recorded.v1"
  | .foreign _ => none

/-- The operation an identity is derived for. -/
def operationOf : EventId → Option String
  | .unkeyed _ => none
  | .forOperation operation _ => some operation
  | .forPayload operation _ _ => some operation
  | .forTransition operation _ _ _ => some operation

/-- The identities a payload can be committed under; a foreign payload never has one of
an operation of this model. -/
def Admissible : Payload → EventId → Prop
  | .sourceObserved event, id =>
    id = .forOperation "texo.source.observed.v2" [event.workspaceId, event.bodyHashHex]
  | .claimRecorded event, id =>
    id = .forOperation "texo.claim.recorded.v2" [event.workspaceId, event.claimId]
  | .claimSuperseded event, id =>
    id = .forOperation "texo.claim.supersede.v2"
      [event.workspaceId, event.oldClaimId, event.newClaimId]
  | .conflictOpened event, id =>
    id = .forOperation "texo.conflict.open.v2" [event.workspaceId, event.conflictId]
  | .conflictResolved event, id =>
    id = .forOperation "texo.conflict.resolve.v2" [event.workspaceId, event.conflictId]
  | .relationJudged event, id =>
    id = .forPayload "texo.relation.judged.v1.payload"
      [event.workspaceId.value, event.olderClaim.value, event.newerClaim.value] (.relationJudged event)
  | .relationDeferred _, id => ∃ ordinal, id = .unkeyed ordinal
  | .campaignCheckpoint event, id => ∃ predecessor, id = checkpointKey event predecessor
  | .sourceSnapshotRecorded event, id =>
    id = .forOperation "texo.source.snapshot.recorded.v1"
      [event.workspaceId.value, event.snapshotId.value]
  | .evidenceOccurrenceRecorded event, id =>
    id = .forOperation "texo.evidence.occurrence.recorded.v1"
      [event.workspaceId.value, event.occurrence.occurrenceId.value]
  | .claimEvidenceLinked event, id =>
    id = .forOperation "texo.claim.evidence.linked.v1"
      [event.workspaceId.value, event.claimId.value, event.occurrenceId.value]
  | .sourceSnapshotRelation event, id =>
    id = .forOperation "texo.source.snapshot.relation.v1"
      [event.workspaceId.value, event.leftSnapshotId.value, event.rightSnapshotId.value]
  | .evidenceReconciliationAccepted event, id =>
    id = .forOperation "texo.evidence.reconciliation.accepted.v1"
      [event.workspaceId.value, event.claimId.value, event.occurrenceId.value,
        event.judgeFingerprint, event.policyVersion]
  | .codeIndexRecorded event, id =>
    id = .forOperation "texo.code.index.recorded.v1" [event.workspaceId.value, event.indexId.value]
  | .foreign _, id => ∀ kind, domainOperation kind ≠ none → operationOf id ≠ domainOperation kind

omit [Blake3] in
/-- A keyed payload is committed under its own operation. -/
theorem operationOf_admissible {payload : Payload} {id : EventId} (admissible : Admissible payload id)
    (keyed : domainOperation payload.kind ≠ none) : operationOf id = domainOperation payload.kind := by
  cases payload with
  | relationDeferred event => exact absurd rfl keyed
  | foreign rawKind => exact absurd rfl keyed
  | campaignCheckpoint event =>
    obtain ⟨predecessor, rfl⟩ := admissible
    cases predecessor <;> rfl
  | _ => rw [show id = _ from admissible]; rfl

omit [Blake3] in
/-- Each operation commits payloads of one kind. -/
theorem domainOperation_injective {a b : EventKind} (keyed : domainOperation a ≠ none)
    (same : domainOperation a = domainOperation b) : a = b := by
  cases a <;> cases b <;>
    first
      | rfl
      | exact absurd rfl keyed
      | simp [domainOperation, checkpointTransition] at same

omit [Blake3] in
/-- Payloads that share an identity are of one kind. -/
theorem kind_of_admissible {payload other : Payload} {id : EventId}
    (admissible : Admissible payload id) (keyed : domainOperation payload.kind ≠ none)
    (otherAdmissible : Admissible other id) : other.kind = payload.kind := by
  have named := operationOf_admissible admissible keyed
  by_cases otherKeyed : domainOperation other.kind = none
  · cases other with
    | relationDeferred event =>
      obtain ⟨ordinal, rfl⟩ := otherAdmissible
      exact absurd named.symm keyed
    | foreign rawKind => exact absurd named (otherAdmissible payload.kind keyed)
    | _ => simp [domainOperation, Payload.kind] at otherKeyed
  · have otherNamed := operationOf_admissible otherAdmissible otherKeyed
    exact domainOperation_injective otherKeyed (otherNamed.symm.trans named)

/-- A row lies where its payload's policy puts it, under an identity of that policy. Rows of
foreign payloads may lie anywhere. -/
structure Conforms (entry : Entry) : Prop where
  placed : ∀ coordinate, coordinateOf entry.payload = some coordinate →
    coordinate = ⟨entry.entity, entry.scope⟩
  admissible : Admissible entry.payload entry.eventId

/-- Every row was committed by its policy. -/
def Journal.Conforming (journal : Journal) : Prop := ∀ entry ∈ journal.entries, Conforms entry

/-- The empty journal conforms. -/
theorem Journal.conforming_empty : Journal.empty.Conforming := by
  intro entry member
  cases member

omit [Blake3] in
/-- Rows under one identity are one row. -/
theorem Journal.eq_of_eventId {journal : Journal} {a b : Entry} (aIn : a ∈ journal.entries)
    (bIn : b ∈ journal.entries) (same : a.eventId = b.eventId) : a = b :=
  List.inj_on_of_nodup_map journal.distinct aIn bIn same

omit [Blake3] in
/-- A checkpoint is keyed by some predecessor, or reuses the identity of an equal one. -/
theorem campaignCheckpointOptions_cases {env : OpEnv} {payload : RelationCampaignCheckpointV1}
    {key : EventId} (chosen : campaignCheckpointOptions env payload = .ok key) :
    (∃ predecessor, key = checkpointKey payload predecessor) ∨
      ∃ row ∈ env.journal.entries, row.eventId = key ∧ row.payload = .campaignCheckpoint payload := by
  unfold campaignCheckpointOptions at chosen
  simp only at chosen
  cases latest : latestCampaignRow env.journal payload.workspaceId.value with
  | none =>
    rw [latest] at chosen
    exact Or.inl ⟨_, (Except.ok.inj chosen).symm⟩
  | some row =>
    rw [latest] at chosen
    simp only at chosen
    split at chosen
    · split at chosen
      · rename_i stored held
        split at chosen
        · rename_i same
          right
          have member : row ∈ env.journal.byEntity
              (entityForRelationCampaign payload.workspaceId.value) := List.mem_of_getLast? latest
          refine ⟨row, (List.mem_filter.mp member).1, Except.ok.inj chosen, ?_⟩
          rw [held, same]
        · exact Or.inl ⟨_, (Except.ok.inj chosen).symm⟩
      · cases chosen
    · exact Or.inl ⟨_, (Except.ok.inj chosen).symm⟩

omit [Blake3] in
/-- A checkpoint that was appended passed every check, under a chosen key. -/
theorem appendRelationCampaignCheckpoint_ok {env : OpEnv} {payload : RelationCampaignCheckpointV1}
    {result : Entry × Journal}
    (appended : appendRelationCampaignCheckpoint env payload = .ok result) :
    payload.workspaceId.value = env.workspaceId ∧
      ∃ key, campaignCheckpointOptions env payload = .ok key ∧
        appendWithKey env.journal (coordinateForRelationCampaign payload.workspaceId.value)
          (.campaignCheckpoint payload) key = result := by
  unfold appendRelationCampaignCheckpoint at appended
  split at appended
  · cases appended
  · rename_i here
    refine ⟨not_not.mp here, ?_⟩
    cases first : checkCampaignDigest "evaluated basis" payload.evaluatedBasisDigestHex with
    | error error => simp [first, bind, Except.bind] at appended
    | ok _ =>
      cases second : checkCampaignDigest "result basis" payload.resultBasisDigestHex with
      | error error => simp [first, second, bind, Except.bind] at appended
      | ok _ =>
        cases third : checkCampaignDigest "candidate policy" payload.candidatePolicyDigestHex with
        | error error => simp [first, second, third, bind, Except.bind] at appended
        | ok _ =>
          simp only [first, second, third, bind, Except.bind] at appended
          split at appended
          · cases appended
          · cases chosen : campaignCheckpointOptions env payload with
            | error error => simp [chosen] at appended
            | ok key =>
              simp only [chosen] at appended
              exact ⟨key, rfl, Except.ok.inj appended⟩

/-- What a policy can do: commit its payload as one new row at its place, or, in a journal
that already has a row under an identity of the payload, return that row. -/
theorem policyAppend_cases {env : OpEnv} {payload : Payload} {entry : Entry} {journal : Journal}
    (appended : policyAppend env payload = .ok (entry, journal)) :
    (entry ∈ env.journal.entries ∧ journal = env.journal ∧
      (Admissible payload entry.eventId ∨ entry.payload = payload)) ∨
    (journal.entries = env.journal.entries ++ [entry] ∧ entry.payload = payload ∧
      coordinateOf payload = some ⟨entry.entity, entry.scope⟩ ∧
      Admissible payload entry.eventId) := by
  have keyed : ∀ (coordinate : Coordinate) (key : EventId), coordinateOf payload = some coordinate →
      Admissible payload key → appendWithKey env.journal coordinate payload key = (entry, journal) →
      (entry ∈ env.journal.entries ∧ journal = env.journal ∧
        (Admissible payload entry.eventId ∨ entry.payload = payload)) ∨
      (journal.entries = env.journal.entries ++ [entry] ∧ entry.payload = payload ∧
        coordinateOf payload = some ⟨entry.entity, entry.scope⟩ ∧
        Admissible payload entry.eventId) := by
    intro coordinate key placed admissible run
    rw [appendWithKey] at run
    rcases env.journal.append_cases (some key) coordinate.scope coordinate.entity payload with
      ⟨original, member, used, same⟩ | ⟨_, row, grown⟩
    · rw [run] at same
      obtain ⟨rfl, rfl⟩ := Prod.mk.inj same
      refine Or.inl ⟨member, rfl, Or.inl ?_⟩
      rw [used]
      exact admissible
    · rw [run] at row grown
      simp only at row grown
      rw [← row] at grown
      refine Or.inr ⟨grown, ?_, ?_, ?_⟩
      · rw [row]
      · rw [row]
        exact placed
      · rw [row]
        exact admissible
  cases payload with
  | sourceObserved event =>
    exact keyed _ _ rfl rfl (Except.ok.inj appended)
  | claimRecorded event => exact keyed _ _ rfl rfl (Except.ok.inj appended)
  | claimSuperseded event => exact keyed _ _ rfl rfl (Except.ok.inj appended)
  | conflictOpened event => exact keyed _ _ rfl rfl (Except.ok.inj appended)
  | conflictResolved event =>
    simp only [policyAppend, appendConflictResolved] at appended
    split at appended
    · exact keyed _ _ rfl rfl (Except.ok.inj appended)
    · cases appended
  | relationJudged event => exact keyed _ _ rfl rfl (Except.ok.inj appended)
  | relationDeferred event =>
    have run : appendTyped env.journal _ _ = (entry, journal) := Except.ok.inj appended
    rw [appendTyped] at run
    have grown := env.journal.append_unkeyed (scopeForWorkspace event.workspaceId.value)
      (entityForRelationPair
        (relationPairId event.workspaceId event.olderClaim event.newerClaim).value)
      (.relationDeferred event)
    rcases env.journal.append_cases none (scopeForWorkspace event.workspaceId.value)
      (entityForRelationPair
        (relationPairId event.workspaceId event.olderClaim event.newerClaim).value)
      (.relationDeferred event) with ⟨original, member, used, same⟩ | ⟨_, row, _⟩
    · rw [same] at grown
      have longer := congrArg List.length grown
      simp at longer
    · have there : env.journal.append none (scopeForWorkspace event.workspaceId.value)
          (entityForRelationPair
            (relationPairId event.workspaceId event.olderClaim event.newerClaim).value)
          (.relationDeferred event) = (entry, journal) := run
      rw [there] at row grown
      simp only at row grown
      refine Or.inr ⟨?_, by rw [row], by rw [row]; rfl, ?_⟩
      · rw [grown, row]
        rfl
      · rw [row]
        exact ⟨_, rfl⟩
  | campaignCheckpoint event =>
    obtain ⟨_, key, chosen, run⟩ := appendRelationCampaignCheckpoint_ok appended
    rcases campaignCheckpointOptions_cases chosen with admissible | ⟨row, stored, used, payload⟩
    · exact keyed _ key rfl admissible run
    · rw [appendWithKey] at run
      rcases env.journal.append_cases (some key) (scopeForWorkspace event.workspaceId.value)
        (entityForRelationCampaign event.workspaceId.value) (.campaignCheckpoint event) with
        ⟨original, member, same, unchanged⟩ | ⟨absent, _, _⟩
      · have there : env.journal.append (some key) (scopeForWorkspace event.workspaceId.value)
            (entityForRelationCampaign event.workspaceId.value) (.campaignCheckpoint event) =
            (entry, journal) := run
        rw [there] at unchanged
        obtain ⟨rfl, rfl⟩ := Prod.mk.inj unchanged
        have one : entry = row := Journal.eq_of_eventId member stored (by rw [same, used]; rfl)
        exact Or.inl ⟨member, rfl, Or.inr (by rw [one, payload])⟩
      · exact (absent row stored used).elim
  | sourceSnapshotRecorded event => exact keyed _ _ rfl rfl (Except.ok.inj appended)
  | evidenceOccurrenceRecorded event =>
    simp only [policyAppend, appendEvidenceOccurrenceRecorded] at appended
    split at appended
    · exact keyed _ _ rfl rfl (Except.ok.inj appended)
    · cases appended
  | claimEvidenceLinked event =>
    simp only [policyAppend, appendClaimEvidenceLinked] at appended
    cases required : requireOccurrence env.journal event.occurrenceId with
    | error error =>
      rw [required] at appended
      cases appended
    | ok _ =>
      rw [required] at appended
      exact keyed _ _ rfl rfl (Except.ok.inj appended)
  | sourceSnapshotRelation event => exact keyed _ _ rfl rfl (Except.ok.inj appended)
  | evidenceReconciliationAccepted event =>
    simp only [policyAppend, appendEvidenceReconciliationAccepted] at appended
    cases required : requireOccurrence env.journal event.occurrenceId with
    | error error =>
      rw [required] at appended
      cases appended
    | ok _ =>
      rw [required] at appended
      exact keyed _ _ rfl rfl (Except.ok.inj appended)
  | codeIndexRecorded event => exact keyed _ _ rfl rfl (Except.ok.inj appended)
  | foreign rawKind => cases appended

/-- What one append does: a conforming new row with the payload, or no row when one is
there under an identity of the payload. -/
theorem OpEnv.append_cases {env next : OpEnv} {payload : Payload}
    (appended : env.append payload = .ok next) :
    next.workspaceId = env.workspaceId ∧
      ((∃ entry ∈ env.journal.entries, next.journal = env.journal ∧
          (Admissible payload entry.eventId ∨ entry.payload = payload)) ∨
        ∃ entry, next.journal.entries = env.journal.entries ++ [entry] ∧
          entry.payload = payload ∧ Conforms entry) := by
  unfold OpEnv.append at appended
  cases run : policyAppend env payload with
  | error error =>
    rw [run] at appended
    cases appended
  | ok result =>
    obtain ⟨entry, journal⟩ := result
    rw [run] at appended
    have same := Except.ok.inj appended
    subst same
    refine ⟨rfl, ?_⟩
    rcases policyAppend_cases run with ⟨member, unchanged, why⟩ | ⟨grown, carries, placed, named⟩
    · exact Or.inl ⟨entry, member, unchanged, why⟩
    · refine Or.inr ⟨entry, grown, carries, ?_, ?_⟩
      · intro coordinate lies
        rw [carries, placed] at lies
        exact (Option.some.inj lies).symm
      · rw [carries]
        exact named

/-- Appending only extends, and keeps the journal conforming. -/
theorem OpEnv.append_conforming {env next : OpEnv} {payload : Payload}
    (appended : env.append payload = .ok next) (conforming : env.journal.Conforming) :
    env.journal.Extends next.journal ∧ next.journal.Conforming := by
  obtain ⟨_, ⟨_, _, unchanged, _⟩ | ⟨entry, grown, _, conforms⟩⟩ := OpEnv.append_cases appended
  · rw [unchanged]
    exact ⟨Journal.Extends.refl _, conforming⟩
  · refine ⟨⟨_, grown.symm⟩, ?_⟩
    intro row member
    rw [grown] at member
    rcases List.mem_append.mp member with early | late
    · exact conforming row early
    · rw [List.mem_singleton.mp late]
      exact conforms

/-- What one append does to a region: nothing, or one conforming row with the payload under an
identity no row had. -/
theorem OpEnv.append_region {env next : OpEnv} {payload : Payload}
    (appended : env.append payload = .ok next) (scope : String) :
    next.journal.region scope = env.journal.region scope ∨
      ∃ row, next.journal.region scope = env.journal.region scope ++ [row] ∧
        row.payload = payload ∧ Conforms row ∧
        ∀ other ∈ env.journal.entries, other.eventId ≠ row.eventId := by
  obtain ⟨_, ⟨_, _, unchanged, _⟩ | ⟨row, grown, carries, conforms⟩⟩ := OpEnv.append_cases appended
  · left
    rw [unchanged]
  · by_cases here : row.scope = scope
    · refine Or.inr ⟨row, ?_, carries, conforms, ?_⟩
      · simp [Journal.region, grown, here]
      · intro other member same
        have nodup := next.journal.distinct
        rw [grown, List.map_append, List.map_singleton] at nodup
        exact (List.nodup_append.mp nodup).2.2 _ (List.mem_map_of_mem member) _ (by simp) same
    · left
      simp [Journal.region, grown, here]

/-- Something the rows of a scope can tell: its payloads lie in the scope, and a payload under
the identity of one that tells it tells it too. -/
structure Statement (scope : String) where
  tells : Payload → Prop
  placed : ∀ payload, tells payload → ∃ entity, coordinateOf payload = some ⟨entity, scope⟩
  keyed : ∀ payload, tells payload → domainOperation payload.kind ≠ none
  stable : ∀ payload other id, tells payload → Admissible payload id → Admissible other id →
    other.kind = payload.kind → tells other

/-- Some row of a scope tells it. -/
def Journal.Notes (journal : Journal) {scope : String} (statement : Statement scope) : Prop :=
  ∃ row ∈ journal.region scope, statement.tells row.payload

/-- A continuation tells no less. -/
theorem Journal.Extends.notes {earlier later : Journal} (grown : earlier.Extends later)
    {scope : String} {statement : Statement scope} (noted : earlier.Notes statement) :
    later.Notes statement := by
  obtain ⟨row, member, tells⟩ := noted
  exact ⟨row, (grown.region scope).subset member, tells⟩

/-- The step law of statements: an append adds what its payload tells and nothing else. -/
theorem OpEnv.append_notes {env next : OpEnv} {payload : Payload}
    (appended : env.append payload = .ok next) (conforming : env.journal.Conforming)
    {scope : String} (statement : Statement scope) :
    next.journal.Notes statement ↔ env.journal.Notes statement ∨ statement.tells payload := by
  obtain ⟨_, ⟨entry, member, unchanged, why⟩ | ⟨entry, grown, carries, conforms⟩⟩ :=
    OpEnv.append_cases appended
  · rw [unchanged]
    refine ⟨Or.inl, ?_⟩
    rintro (noted | tells)
    · exact noted
    · have there : statement.tells entry.payload := by
        rcases why with named | carries
        · have own := (conforming entry member).admissible
          have kind := kind_of_admissible named (statement.keyed payload tells) own
          exact statement.stable payload entry.payload entry.eventId tells named own kind
        · rwa [carries]
      obtain ⟨entity, lies⟩ := statement.placed entry.payload there
      have inScope := congrArg Coordinate.scope ((conforming entry member).placed _ lies)
      exact ⟨entry, Journal.mem_region.mpr ⟨member, inScope.symm⟩, there⟩
  · constructor
    · rintro ⟨row, member, tells⟩
      obtain ⟨inside, inScope⟩ := Journal.mem_region.mp member
      rw [grown] at inside
      rcases List.mem_append.mp inside with early | late
      · exact Or.inl ⟨row, Journal.mem_region.mpr ⟨early, inScope⟩, tells⟩
      · rw [List.mem_singleton.mp late, carries] at tells
        exact Or.inr tells
    · rintro (noted | tells)
      · have longer : env.journal.Extends next.journal := ⟨_, grown.symm⟩
        exact longer.notes noted
      · obtain ⟨entity, lies⟩ := statement.placed payload tells
        rw [← carries] at lies tells
        have inScope := congrArg Coordinate.scope (conforms.placed _ lies)
        refine ⟨entry, Journal.mem_region.mpr ⟨?_, inScope.symm⟩, tells⟩
        rw [grown]
        simp

/-- The run law of appends. -/
theorem OpEnv.appendAll_spec {env next : OpEnv} {payloads : List Payload}
    (appended : env.appendAll payloads = .ok next) (conforming : env.journal.Conforming) :
    next.workspaceId = env.workspaceId ∧ env.journal.Extends next.journal ∧
      next.journal.Conforming ∧
      ∀ {scope : String} (statement : Statement scope), next.journal.Notes statement ↔
        env.journal.Notes statement ∨ ∃ payload ∈ payloads, statement.tells payload := by
  induction payloads generalizing env with
  | nil =>
    have same : env = next := Except.ok.inj appended
    subst same
    exact ⟨rfl, Journal.Extends.refl _, conforming, fun statement => by simp⟩
  | cons payload rest ih =>
    rw [OpEnv.appendAll, List.foldlM_cons] at appended
    cases first : env.append payload with
    | error error => simp [first, bind, Except.bind] at appended
    | ok middle =>
      simp only [first, bind, Except.bind] at appended
      obtain ⟨grown, still⟩ := OpEnv.append_conforming first conforming
      obtain ⟨workspace, more, last, notes⟩ := ih appended still
      refine ⟨workspace.trans (OpEnv.append_cases first).1, grown.trans more, last, ?_⟩
      intro scope statement
      rw [notes statement, OpEnv.append_notes first conforming statement]
      simp [or_assoc]

/-- A pair of claims was judged. -/
def judgedStatement (event : RelationJudgedV1) :
    Statement (scopeForWorkspace event.workspaceId.value) where
  tells := fun payload => payload = .relationJudged event
  placed := by
    rintro payload rfl
    exact ⟨_, rfl⟩
  keyed := by
    rintro payload rfl
    simp [domainOperation, Payload.kind]
  stable := by
    rintro payload other id rfl named own kind
    have key : id = _ := named
    cases other with
    | relationJudged other =>
      rw [key] at own
      simp only [Admissible, EventId.forPayload.injEq] at own
      rw [own.2.2]
    | _ => cases kind

/-- A claim was recorded. -/
def recordedStatement (workspaceId claimId : String) : Statement (scopeForWorkspace workspaceId) where
  tells := fun payload => ∃ event, payload = .claimRecorded event ∧
    event.workspaceId = workspaceId ∧ event.claimId = claimId
  placed := by
    rintro payload ⟨event, rfl, rfl, _⟩
    exact ⟨_, rfl⟩
  keyed := by
    rintro payload ⟨event, rfl, _⟩
    simp [domainOperation, Payload.kind]
  stable := by
    rintro payload other id ⟨event, rfl, rfl, rfl⟩ named own kind
    have key : id = _ := named
    cases other with
    | claimRecorded other =>
      rw [key] at own
      simp only [Admissible, EventId.forOperation.injEq, List.cons.injEq] at own
      exact ⟨other, rfl, own.2.1.symm, own.2.2.1.symm⟩
    | _ => cases kind

/-- A claim was superseded. -/
def supersededStatement (workspaceId oldClaimId : String) :
    Statement (scopeForWorkspace workspaceId) where
  tells := fun payload => ∃ event, payload = .claimSuperseded event ∧
    event.workspaceId = workspaceId ∧ event.oldClaimId = oldClaimId
  placed := by
    rintro payload ⟨event, rfl, rfl, _⟩
    exact ⟨_, rfl⟩
  keyed := by
    rintro payload ⟨event, rfl, _⟩
    simp [domainOperation, Payload.kind]
  stable := by
    rintro payload other id ⟨event, rfl, rfl, rfl⟩ named own kind
    have key : id = _ := named
    cases other with
    | claimSuperseded other =>
      rw [key] at own
      simp only [Admissible, EventId.forOperation.injEq, List.cons.injEq] at own
      exact ⟨other, rfl, own.2.1.symm, own.2.2.1.symm⟩
    | _ => cases kind

end Texo.Store
