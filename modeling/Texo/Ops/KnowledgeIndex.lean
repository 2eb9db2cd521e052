import Texo.Ingest.Orderly
import Texo.Ops.Capture

/-! # Indexing a repository

An index run captures the repository, records the capture as a source snapshot with the evidence
it holds for the claims of the view and its order among earlier snapshots, and then retires the
claims that the freshly linked ones replace explicitly.
-/
namespace Texo.Ops
open Texo.Events Texo.Knowledge Texo.Store Texo.Claims Texo.Semantics Texo.Foundation Texo.Ingest

/-- Output of one index run. -/
structure KnowledgeIndexOutput where
  workspaceId : String
  snapshotId : SourceSnapshotId
  baseCommit : GitObjectId
  dirty : Bool
  sourcesCaptured : Nat
  evidenceRecorded : Nat
  claimsLinked : Nat
  relationsRecorded : Nat
  supersessionsApplied : Nat
  supersessionsHeld : Nat
  heldSupersessions : List HeldExplicitSupersession
  alreadyIndexed : Bool
  coverage : KnowledgeCoverage
  receipts : List EventId
deriving DecidableEq

/-- Bound on the coverage gaps an index run carries. -/
def maxCoverageGaps : Nat := 256

/-- Add a gap found while planning evidence; past the bound the coverage is truncated. -/
def addPlannedGap (coverage : KnowledgeCoverage) (gap : CoverageGap) : KnowledgeCoverage :=
  if coverage.gaps.length < maxCoverageGaps then
    { coverage with gaps := coverage.gaps ++ [gap] }
  else
    { coverage with truncated := true }

/-- Add a gap found while comparing snapshots, unless it is known or past the bound. -/
def addRelationGap (coverage : KnowledgeCoverage) (gap : CoverageGap) : KnowledgeCoverage :=
  if coverage.gaps.length < maxCoverageGaps ∧ gap ∉ coverage.gaps then
    { coverage with gaps := coverage.gaps ++ [gap] }
  else
    coverage

/-- The coverage of a capture once its evidence and its relations are planned. -/
def indexCoverage (captured : KnowledgeCoverage) (evidence : EvidencePlan) (relations : RelationPlan) :
    KnowledgeCoverage :=
  let gapped := evidence.gaps.foldl addPlannedGap captured
  let analysed :=
    { gapped with
      analysisQuality := if evidence.rows.isEmpty then gapped.analysisQuality else .syntactic
      occurrences := evidence.rows.length }
  relations.gaps.foldl addRelationGap analysed

/-- What an index run has read and planned before it appends. -/
structure IndexPlan where
  view : WorkspaceView
  capture : GitCapture
  snapshot : SourceSnapshotRecordedV1
  rows : List (EvidenceOccurrence × ClaimEvidenceLinkedV1)
  relations : List SourceSnapshotRelationV1
  alreadyIndexed : Bool

/-- `append_knowledge_plan`: the events of a plan, in order. -/
def IndexPlan.events (plan : IndexPlan) : List Payload :=
  .sourceSnapshotRecorded plan.snapshot ::
    (plan.rows.flatMap fun row =>
      [.evidenceOccurrenceRecorded
        { workspaceId := plan.snapshot.workspaceId
          occurrence := row.1
          observedAtMs := plan.snapshot.observedAtMs },
       .claimEvidenceLinked row.2]) ++
    plan.relations.map .sourceSnapshotRelation

/-- The claims a plan links. -/
def IndexPlan.claimIds (plan : IndexPlan) : List ClaimId := plan.rows.map fun row => row.2.claimId

variable [Blake3]

/-- `repository_id_for_index`. -/
def repositoryIdForIndex (world : GitWorld) (workspaceId : String)
    (previous : List SourceSnapshotRecordedV1) : RepositoryId :=
  match previous.getLast? with
  | none => repositoryId ("texo.repository.v1\x1f" ++ workspaceId ++ "\x1f" ++ world.canonicalRoot)
  | some snapshot => snapshot.repositoryId

/-- `knowledge_index` up to its appends. -/
def prepareIndex (world : GitWorld) (workspaceId : String) (input : KnowledgeIndexInput)
    (journal : Journal) : Except TexoError IndexPlan := do
  let limits ← input.validatedLimits
  let store := readable journal
  let view ← assembleCurrentView store workspaceId
  let workspace ← workspaceIdOf workspaceId
  let previous ← sourceSnapshotsThrough store workspaceId (some view.frontier)
  let capture ← world.captureGit (repositoryIdForIndex world workspaceId previous) limits
  let latest ← latestSourceSnapshot store workspaceId (some view.frontier)
  let evidence ← planClaimEvidence view capture.sources capture.snapshotId input.observedAtMs
  let relations ← world.planSnapshotRelations workspace capture previous input.observedAtMs
  .ok
    { view := view
      capture := capture
      snapshot :=
        { workspaceId := workspace
          repositoryId := capture.repositoryId
          snapshotId := capture.snapshotId
          baseCommit := capture.baseCommit
          baseTree := capture.baseTree
          indexDigestHex := capture.indexDigestHex
          overlayDigestHex := capture.overlayDigestHex
          dirty := capture.dirty
          coverage := indexCoverage capture.coverage evidence relations
          captureMaxFiles := limits.maxFiles
          captureMaxFileBytes := limits.maxFileBytes
          captureMaxTotalBytes := limits.maxTotalBytes
          observedAtMs := input.observedAtMs }
      rows := evidence.rows
      relations := relations.relations
      alreadyIndexed := (latest.map SourceSnapshotRecordedV1.snapshotId) = some capture.snapshotId }

/-- The sequences receipts were committed under. -/
def receiptSequences (journal : Journal) (receipts : List EventId) : List Nat :=
  receipts.filterMap fun receipt => (journal.find? receipt).map Entry.sequence

/-- The frontier through which the evidence of an index run is read: the last of its receipts. -/
def evidenceFrontier (journal : Journal) (receipts : List EventId) (frontier : Nat) : Nat :=
  (receiptSequences journal receipts).max?.getD frontier

/-- `settle_indexed_explicit_supersessions`, the inference. -/
def inferIndexSupersessions (env : OpEnv) (plan : IndexPlan) (observedAtMs : Nat) :
    Except TexoError ExplicitSupersessionOutcome :=
  (workspaceTemporalPolicyThrough (readable env.journal) env.workspaceId plan.view
    (evidenceFrontier env.journal env.receipts plan.view.frontier)).map fun temporal =>
      inferIndexedSupersessions plan.view plan.claimIds observedAtMs temporal

/-- The output of a finished index run. -/
def finishIndexOutput (workspaceId : String) (plan : IndexPlan)
    (outcome : ExplicitSupersessionOutcome) (receipts : List EventId) : KnowledgeIndexOutput where
  workspaceId := workspaceId
  snapshotId := plan.capture.snapshotId
  baseCommit := plan.capture.baseCommit
  dirty := plan.capture.dirty
  sourcesCaptured := plan.capture.sources.length
  evidenceRecorded := plan.rows.length
  claimsLinked := plan.rows.length
  relationsRecorded := plan.relations.length
  supersessionsApplied := outcome.applied.length
  supersessionsHeld := outcome.held.length
  heldSupersessions := outcome.held
  alreadyIndexed := plan.alreadyIndexed
  coverage := plan.snapshot.coverage
  receipts := receipts

/-- `append_knowledge_plan` and `settle_indexed_explicit_supersessions` of a plan, in a store that
accepts `fuse` appends. -/
def executeIndexPlan (fuse : Nat) (env : OpEnv) (plan : IndexPlan) (observedAtMs : Nat) :
    Except (Failure OpEnv) (KnowledgeIndexOutput × OpEnv) :=
  match appendWithin fuse env plan.events with
  | .error failure => .error failure
  | .ok (left, appended) =>
    match inferIndexSupersessions appended plan observedAtMs with
    | .error error => .error ⟨error, { appended with receipts := [] }⟩
    | .ok outcome =>
      match appendWithin left { appended with receipts := [] }
          (outcome.applied.map .claimSuperseded) with
      | .error failure => .error failure
      | .ok (_, settled) =>
        .ok (finishIndexOutput env.workspaceId plan outcome (appended.receipts ++ settled.receipts),
          { settled with receipts := [] })

/-- `knowledge_index` in a workspace whose store accepts `fuse` appends. -/
def knowledgeIndex (fuse : Nat) (world : GitWorld) (workspaceId : String)
    (input : KnowledgeIndexInput) (journal : Journal) :
    Except (Failure Journal) (KnowledgeIndexOutput × Journal) :=
  match prepareIndex world workspaceId input journal with
  | .error error => .error ⟨error, journal⟩
  | .ok plan =>
    match executeIndexPlan fuse { workspaceId := workspaceId, journal := journal } plan
        input.observedAtMs with
    | .error failure => .error ⟨failure.error, failure.left.journal⟩
    | .ok (output, settled) => .ok (output, settled.journal)

/-- What a prepared index run has read, and that everything it plans is in its workspace. -/
structure PreparesIndex (world : GitWorld) (workspaceId : String) (input : KnowledgeIndexInput)
    (journal : Journal) (plan : IndexPlan) : Prop where
  view : plan.view = viewOf workspaceId journal
  snapshot : plan.snapshot.workspaceId.value = workspaceId
  captured : plan.snapshot.snapshotId = plan.capture.snapshotId
  rows : ∀ row ∈ plan.rows, row.2.workspaceId.value = workspaceId
  relations : ∀ relation ∈ plan.relations, relation.workspaceId.value = workspaceId

/-- `prepare` reads, and appends nothing. -/
theorem prepareIndex_prepares {world : GitWorld} {workspaceId : String} {input : KnowledgeIndexInput}
    {journal : Journal} {plan : IndexPlan}
    (done : prepareIndex world workspaceId input journal = .ok plan) :
    PreparesIndex world workspaceId input journal plan := by
  unfold prepareIndex at done
  obtain ⟨limits, _, done⟩ := bind_eq_ok.mp done
  obtain ⟨view, assembled, done⟩ := bind_eq_ok.mp done
  rw [assembleCurrentView_readable] at assembled
  have shown : viewOf workspaceId journal = view := Except.ok.inj assembled
  obtain ⟨workspace, named, done⟩ := bind_eq_ok.mp done
  obtain ⟨previous, _, done⟩ := bind_eq_ok.mp done
  obtain ⟨capture, _, done⟩ := bind_eq_ok.mp done
  obtain ⟨latest, _, done⟩ := bind_eq_ok.mp done
  obtain ⟨evidence, linked, done⟩ := bind_eq_ok.mp done
  obtain ⟨relations, related, done⟩ := bind_eq_ok.mp done
  have here := value_of_workspaceIdOf named
  rw [← Except.ok.inj done]
  refine ⟨shown.symm, here, rfl, ?_, ?_⟩
  · intro row member
    rw [planClaimEvidence_here linked row member, ← shown]
    rfl
  · intro relation member
    rw [planSnapshotRelations_here related relation member, here]

omit [Blake3] in
/-- What an index plan appends is about no claim and no conflict. -/
theorem IndexPlan.inert {plan : IndexPlan} {payload : Payload} (member : payload ∈ plan.events) :
    lifecycleEntity payload = none := by
  unfold IndexPlan.events at member
  rcases List.mem_append.mp member with first | relation
  · rcases List.mem_cons.mp first with rfl | linked
    · rfl
    · obtain ⟨row, _, inner⟩ := List.mem_flatMap.mp linked
      rcases List.mem_cons.mp inner with rfl | last
      · rfl
      · rw [List.mem_singleton.mp last]
        rfl
  · obtain ⟨related, _, rfl⟩ := List.mem_map.mp relation
    rfl

/-- What an index plan appends lies in its workspace. -/
theorem PreparesIndex.here {world : GitWorld} {workspaceId : String} {input : KnowledgeIndexInput}
    {journal : Journal} {plan : IndexPlan}
    (prepares : PreparesIndex world workspaceId input journal plan) {payload : Payload}
    (member : payload ∈ plan.events) : InWorkspace workspaceId payload := by
  unfold IndexPlan.events at member
  rcases List.mem_append.mp member with first | relation
  · rcases List.mem_cons.mp first with rfl | linked
    · rw [← prepares.snapshot]
      exact inWorkspace_of_coordinate rfl
    · obtain ⟨row, held, inner⟩ := List.mem_flatMap.mp linked
      rcases List.mem_cons.mp inner with rfl | last
      · rw [← prepares.snapshot]
        exact inWorkspace_of_coordinate rfl
      · rw [List.mem_singleton.mp last, ← prepares.rows row held]
        exact inWorkspace_of_coordinate rfl
  · obtain ⟨related, held, rfl⟩ := List.mem_map.mp relation
    rw [← prepares.relations related held]
    exact inWorkspace_of_coordinate rfl

/-- The claims of an orderly view that an index run links are of its workspace. -/
theorem indexedCandidates_here {journal : Journal} {workspaceId : String}
    (orderly : Orderly journal workspaceId) (claimIds : List ClaimId) :
    ∀ new ∈ (viewOf workspaceId journal).claims.filterMap (indexedCandidate claimIds),
      new.workspaceId = workspaceId := by
  intro new member
  obtain ⟨claim, listed, made⟩ := List.mem_filterMap.mp member
  unfold indexedCandidate at made
  split at made
  · cases made
  · split at made
    · rw [← Option.some.inj made]
      have card := List.mem_map_of_mem (f := ClaimView.card) listed
      exact (orderly.lawful.claim orderly.conforming card).2.2.2.1
    · cases made

/-- Executing an index plan keeps the workspace orderly, wherever it stops. -/
theorem executeIndexPlan_orderly (fuse : Nat) {world : GitWorld} {env : OpEnv}
    {input : KnowledgeIndexInput} {plan : IndexPlan} (orderly : Orderly env.journal env.workspaceId)
    (prepares : PreparesIndex world env.workspaceId input env.journal plan) :
    Orderly (stateAfter (executeIndexPlan fuse env plan input.observedAtMs)).journal
      env.workspaceId := by
  unfold executeIndexPlan
  rcases appendWithin_cases fuse env plan.events with
    ⟨left, appended, run, all⟩ | ⟨failure, done, rest, run, split, all⟩
  · obtain ⟨appendedOrderly, keeps⟩ := orderly.inertAll all (fun _ member => prepares.here member)
      fun _ member => IndexPlan.inert member
    rw [run]
    simp only
    cases inferred : inferIndexSupersessions appended plan input.observedAtMs with
    | error error => exact appendedOrderly
    | ok outcome =>
      have settled : Orderly (stateAfter (appendWithin left { appended with receipts := [] }
          (outcome.applied.map .claimSuperseded))).journal env.workspaceId := by
        unfold inferIndexSupersessions at inferred
        cases policy : workspaceTemporalPolicyThrough (readable appended.journal)
            appended.workspaceId plan.view
            (evidenceFrontier appended.journal appended.receipts plan.view.frontier) with
        | error error =>
          rw [policy] at inferred
          cases inferred
        | ok temporal =>
          rw [policy] at inferred
          rw [← Except.ok.inj inferred, prepares.view]
          have here := indexedCandidates_here orderly plan.claimIds
          have cleared : Orderly ({ appended with receipts := [] } : OpEnv).journal
              env.workspaceId := appendedOrderly
          refine cleared.appendWithin left ?_ (nodup_closing_applied _ _ _ _)
          intro payload member
          obtain ⟨event, applied, rfl⟩ := List.mem_map.mp member
          exact keeps _ (legal_applied orderly here applied)
      simp only
      revert settled
      cases appendWithin left { appended with receipts := [] }
          (outcome.applied.map .claimSuperseded) with
      | error failure => exact id
      | ok pair => exact id
  · rw [run]
    refine (orderly.inertAll all ?_ ?_).1
    · intro payload member
      exact prepares.here (by rw [split]; exact List.mem_append_left rest member)
    · intro payload member
      have planned : payload ∈ plan.events := by
        rw [split]
        exact List.mem_append_left rest member
      exact IndexPlan.inert planned

/-- An index run keeps an orderly workspace orderly. -/
theorem knowledgeIndex_orderly (fuse : Nat) (world : GitWorld) {workspaceId : String}
    (input : KnowledgeIndexInput) {journal : Journal} (orderly : Orderly journal workspaceId) :
    Orderly (stateAfter (knowledgeIndex fuse world workspaceId input journal)) workspaceId := by
  unfold knowledgeIndex
  cases planned : prepareIndex world workspaceId input journal with
  | error error => exact orderly
  | ok plan =>
    have kept : Orderly (stateAfter (executeIndexPlan fuse
        { workspaceId := workspaceId, journal := journal } plan input.observedAtMs)).journal
        workspaceId := by
      exact executeIndexPlan_orderly fuse
        (show Orderly ({ workspaceId := workspaceId, journal := journal } : OpEnv).journal
          workspaceId from orderly) (prepareIndex_prepares planned)
    simp only
    revert kept
    cases executeIndexPlan fuse { workspaceId := workspaceId, journal := journal } plan
        input.observedAtMs with
    | error failure => exact id
    | ok pair => exact id

end Texo.Ops
