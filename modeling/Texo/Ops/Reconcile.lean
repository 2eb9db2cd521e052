import Texo.Ops.Orderly

/-! # Reconciliation of claims with code

`texo.knowledge.reconcile`: candidate pairs of a claim and a code occurrence are judged
outside the program, a closed policy accepts or rejects each verdict, and every accepted
proposal is appended as its occurrence, its acceptance and its link, in this order.
-/
namespace Texo.Ops
open Texo.Events Texo.Knowledge Texo.Store Texo.Claims Texo.Semantics Texo.Foundation Texo.Ingest

/-- `POLICY_VERSION`. -/
def policyVersion : String := "evidence-reconcile-v1"

/-- `ReconcileCandidate`. -/
structure ReconcileCandidate where
  claimId : ClaimId
  claimText : String
  occurrence : EvidenceOccurrence
  codePrompt : String
deriving DecidableEq

/-- `CachedCandidateProposal`: a candidate, its verdict and the cache identity of that. -/
structure CachedCandidateProposal where
  candidate : ReconcileCandidate
  verdict : RelationVerdict
  cacheKeyHex : String
deriving DecidableEq

/-- `ReconcileBackendOutput`. -/
structure ReconcileBackendOutput where
  proposals : List CachedCandidateProposal
  unresolved : List ReconcileCandidate
  judgeFingerprint : String
deriving DecidableEq

/-- `KnowledgeReconcileInput`. -/
structure KnowledgeReconcileInput where
  observedAtMs : Nat
  maxPerClaim : Option Nat := none
  maxCandidates : Option Nat := none
  minScorePpm : Option Nat := none
  budgetSecs : Option Nat := none
  concurrency : Option Nat := none
deriving DecidableEq, Repr

/-- `ReconcileLimits`. -/
structure ReconcileLimits where
  perClaim : Nat := 4
  total : Nat := 256
  minScorePpm : Nat := 700000
deriving DecidableEq, Repr

/-- The name of the operation. -/
def reconcileOp : String := "texo.knowledge.reconcile"

/-- `KnowledgeReconcileInput::validated`: the limits, the budget and the concurrency. -/
def KnowledgeReconcileInput.validated (input : KnowledgeReconcileInput) :
    Except TexoError (ReconcileLimits × Nat × Nat) :=
  let defaults : ReconcileLimits := {}
  let limits : ReconcileLimits := {
    perClaim := input.maxPerClaim.getD defaults.perClaim
    total := input.maxCandidates.getD defaults.total
    minScorePpm := input.minScorePpm.getD defaults.minScorePpm
  }
  let budgetSecs := input.budgetSecs.getD 900
  let concurrency := input.concurrency.getD 4
  if (1 ≤ limits.perClaim ∧ limits.perClaim ≤ 16) ∧ (1 ≤ limits.total ∧ limits.total ≤ 1024) ∧
      limits.minScorePpm ≤ 1000000 ∧ (1 ≤ budgetSecs ∧ budgetSecs ≤ 3600) ∧
      (1 ≤ concurrency ∧ concurrency ≤ 16) then
    .ok (limits, budgetSecs, concurrency)
  else
    .error (.opInput reconcileOp ("reconcile limits require 1..=16 candidates per claim, " ++
      "1..=1024 total, score <=1000000 ppm, budget 1..=3600 seconds, and concurrency 1..=16"))

/-- What a reconciliation takes from outside the model: the candidates it plans from the code
index of a snapshot, or why there are none, and what its judge makes of those not linked yet. -/
structure ReconcileWorld where
  planned : WorkspaceView → SourceSnapshotId → ReconcileLimits →
    Except TexoError (List ReconcileCandidate)
  evaluate : List ReconcileCandidate → Nat → Nat → Except TexoError ReconcileBackendOutput

/-- `accept_proposal`: the closed policy. -/
def acceptProposal (verdict : RelationVerdict) (minScorePpm : Nat) :
    Option (EvidenceStance × Nat) :=
  if verdict.scorePpm < minScorePpm then none
  else
    match verdict.relation with
    | .duplicate => some (.supports, verdict.scorePpm)
    | .supersedes => some (.contradicts, verdict.scorePpm)
    | .conflict => some (.contradicts, verdict.scorePpm)
    | .unrelated => none

/-- What the appends of a run share: its workspace, its time, its floor and its judge. -/
structure ReconcileTerms where
  workspaceId : WorkspaceId
  observedAtMs : Nat
  minScorePpm : Nat
  judgeFingerprint : String
deriving DecidableEq

/-- The acceptance that `append_events` appends. -/
def ReconcileTerms.acceptance (terms : ReconcileTerms) (proposed : CachedCandidateProposal)
    (stance : EvidenceStance) (scorePpm : Nat) : EvidenceReconciliationAcceptedV1 where
  workspaceId := terms.workspaceId
  claimId := proposed.candidate.claimId
  occurrenceId := proposed.candidate.occurrence.occurrenceId
  stance := stance
  scorePpm := scorePpm
  judgeFingerprint := terms.judgeFingerprint
  cacheKeyHex := proposed.cacheKeyHex
  policyVersion := policyVersion
  observedAtMs := terms.observedAtMs

/-- The link that `append_events` appends. -/
def ReconcileTerms.link (terms : ReconcileTerms) (candidate : ReconcileCandidate)
    (stance : EvidenceStance) : ClaimEvidenceLinkedV1 where
  workspaceId := terms.workspaceId
  claimId := candidate.claimId
  occurrenceId := candidate.occurrence.occurrenceId
  stance := stance
  method := .semanticPolicy
  observedAtMs := terms.observedAtMs

/-- The three events of `append_events`. -/
def ReconcileTerms.chain (terms : ReconcileTerms) (proposed : CachedCandidateProposal)
    (stance : EvidenceStance) (scorePpm : Nat) : List Payload :=
  [ .evidenceOccurrenceRecorded
      ⟨terms.workspaceId, proposed.candidate.occurrence, terms.observedAtMs⟩,
    .evidenceReconciliationAccepted (terms.acceptance proposed stance scorePpm),
    .claimEvidenceLinked (terms.link proposed.candidate stance) ]

/-- `ReconcileAcceptedRow`. -/
structure ReconcileAcceptedRow where
  claimId : String
  occurrenceId : String
  stance : EvidenceStance
  scorePpm : Nat
  codeRef : String
  cacheKeyHex : String
deriving DecidableEq

/-- The row reported for an accepted proposal. -/
def acceptedRow (proposed : CachedCandidateProposal) (stance : EvidenceStance) (scorePpm : Nat) :
    ReconcileAcceptedRow where
  claimId := proposed.candidate.claimId.value
  occurrenceId := proposed.candidate.occurrence.occurrenceId.value
  stance := stance
  scorePpm := scorePpm
  codeRef := proposed.candidate.occurrence.path ++ ":" ++
    toString proposed.candidate.occurrence.lineRange.1
  cacheKeyHex := proposed.cacheKeyHex

section
variable [Blake3]

/-- `append_proposals`, while the store takes `fuse` more appends: the accepted rows, the
count of rejections and the environment. -/
def appendProposals (terms : ReconcileTerms) : Nat → OpEnv → List CachedCandidateProposal →
    Except (Failure OpEnv) ((List ReconcileAcceptedRow × Nat) × OpEnv)
  | _, env, [] => .ok (([], 0), env)
  | fuse, env, proposed :: rest =>
    match acceptProposal proposed.verdict terms.minScorePpm with
    | none =>
      match appendProposals terms fuse env rest with
      | .error failure => .error failure
      | .ok ((accepted, rejected), last) => .ok ((accepted, rejected + 1), last)
    | some (stance, scorePpm) =>
      if proposed.candidate.occurrence.validate then
        match appendWithin fuse env (terms.chain proposed stance scorePpm) with
        | .error failure => .error failure
        | .ok (left, next) =>
          match appendProposals terms left next rest with
          | .error failure => .error failure
          | .ok ((accepted, rejected), last) =>
            .ok ((acceptedRow proposed stance scorePpm :: accepted, rejected), last)
      else
        .error ⟨.opInput reconcileOp "evidence occurrence is invalid", env⟩

end

/-- `KnowledgeReconcileOutput`, less the coverage of the code index it read. -/
structure KnowledgeReconcileOutput where
  snapshotId : SourceSnapshotId
  candidatesConsidered : Nat
  alreadyLinked : Nat
  accepted : List ReconcileAcceptedRow
  rejected : Nat
  unresolved : List ReconcileCandidate
  receipts : List EventId
deriving DecidableEq

/-- What a run of `knowledge_reconcile` has read and asked before its first append. -/
structure ReconcilePlan where
  snapshotId : SourceSnapshotId
  candidatesConsidered : Nat
  alreadyLinked : Nat
  terms : ReconcileTerms
  backend : ReconcileBackendOutput

/-- The pair of a candidate has evidence. -/
def linkedIn (evidence : EvidenceProjection) (candidate : ReconcileCandidate) : Bool :=
  (evidence.forClaim candidate.claimId.value).any fun item =>
    item.occurrence.occurrenceId = candidate.occurrence.occurrenceId

/-- `knowledge_reconcile` up to its first append. -/
def prepareReconcile (world : ReconcileWorld) (workspaceId : String)
    (input : KnowledgeReconcileInput) (journal : Journal) : Except TexoError ReconcilePlan := do
  let (limits, budgetSecs, concurrency) ← input.validated
  let view := viewOf workspaceId journal
  let latest ← latestSourceSnapshot (readable journal) workspaceId (some view.frontier)
  let snapshot ← latest.elim
    (.error (.opInput reconcileOp "no source snapshot exists; run `texo index` first")) .ok
  let candidates ← world.planned view snapshot.snapshotId limits
  let evidence ← assembleEvidenceThrough (readable journal) workspaceId view.frontier
  let remaining := candidates.filter fun candidate => !linkedIn evidence candidate
  let backend ← world.evaluate remaining budgetSecs concurrency
  let workspaceId ← workspaceIdOf view.workspaceId
  pure {
    snapshotId := snapshot.snapshotId
    candidatesConsidered := candidates.length
    alreadyLinked := candidates.length - remaining.length
    terms := ⟨workspaceId, input.observedAtMs, limits.minScorePpm, backend.judgeFingerprint⟩
    backend := backend
  }

section
variable [Blake3]

/-- `knowledge_reconcile`, while the store takes `fuse` more appends. -/
def knowledgeReconcile (fuse : Nat) (world : ReconcileWorld) (workspaceId : String)
    (input : KnowledgeReconcileInput) (journal : Journal) :
    Except (Failure OpEnv) (KnowledgeReconcileOutput × OpEnv) :=
  let env : OpEnv := { workspaceId := workspaceId, journal := journal }
  match prepareReconcile world workspaceId input journal with
  | .error error => .error ⟨error, env⟩
  | .ok plan =>
    match appendProposals plan.terms fuse env plan.backend.proposals with
    | .error failure => .error failure
    | .ok ((accepted, rejected), last) =>
      .ok ({
        snapshotId := plan.snapshotId
        candidatesConsidered := plan.candidatesConsidered
        alreadyLinked := plan.alreadyLinked
        accepted := accepted
        rejected := rejected
        unresolved := plan.backend.unresolved
        receipts := last.receipts
      }, last)

/-- A planned run leaves what its appends leave. -/
theorem knowledgeReconcile_after {fuse : Nat} {world : ReconcileWorld} {workspaceId : String}
    {input : KnowledgeReconcileInput} {journal : Journal} {plan : ReconcilePlan}
    (prepared : prepareReconcile world workspaceId input journal = .ok plan) :
    stateAfter (knowledgeReconcile fuse world workspaceId input journal) =
      stateAfter (appendProposals plan.terms fuse { workspaceId := workspaceId, journal := journal }
        plan.backend.proposals) := by
  unfold knowledgeReconcile
  simp only [prepared]
  cases appendProposals plan.terms fuse { workspaceId := workspaceId, journal := journal }
      plan.backend.proposals with
  | error failure => rfl
  | ok result => rfl

/-- A run that cannot be planned leaves the journal as it was. -/
theorem knowledgeReconcile_unprepared {fuse : Nat} {world : ReconcileWorld} {workspaceId : String}
    {input : KnowledgeReconcileInput} {journal : Journal} {error : TexoError}
    (failed : prepareReconcile world workspaceId input journal = .error error) :
    stateAfter (knowledgeReconcile fuse world workspaceId input journal) =
      { workspaceId := workspaceId, journal := journal } := by
  unfold knowledgeReconcile
  simp only [failed]
  rfl

omit [Blake3] in
/-- A plan is for the workspace it was made in. -/
theorem prepareReconcile_here {world : ReconcileWorld} {workspaceId : String}
    {input : KnowledgeReconcileInput} {journal : Journal} {plan : ReconcilePlan}
    (prepared : prepareReconcile world workspaceId input journal = .ok plan) :
    plan.terms.workspaceId.value = workspaceId := by
  unfold prepareReconcile at prepared
  obtain ⟨_, _, prepared⟩ := bind_eq_ok.mp prepared
  obtain ⟨_, _, prepared⟩ := bind_eq_ok.mp prepared
  obtain ⟨_, _, prepared⟩ := bind_eq_ok.mp prepared
  obtain ⟨_, _, prepared⟩ := bind_eq_ok.mp prepared
  obtain ⟨_, _, prepared⟩ := bind_eq_ok.mp prepared
  obtain ⟨_, _, prepared⟩ := bind_eq_ok.mp prepared
  obtain ⟨own, named, prepared⟩ := bind_eq_ok.mp prepared
  rw [← Except.ok.inj prepared]
  exact value_of_workspaceIdOf named

/-- The events a run appends when nothing stops it: the chains of the accepted proposals, up
to the first whose occurrence is invalid. -/
def ReconcileTerms.events (terms : ReconcileTerms) : List CachedCandidateProposal → List Payload
  | [] => []
  | proposed :: rest =>
    match acceptProposal proposed.verdict terms.minScorePpm with
    | none => terms.events rest
    | some (stance, scorePpm) =>
      if proposed.candidate.occurrence.validate then
        terms.chain proposed stance scorePpm ++ terms.events rest
      else []

/-- A run stopped by its fuse has appended as many payloads as the fuse allowed. -/
theorem appendWithin_take (fuse : Nat) {env next : OpEnv} {payloads : List Payload}
    (appended : env.appendAll payloads = .ok next) :
    env.appendAll (payloads.take fuse) = .ok (stateAfter (appendWithin fuse env payloads)) ∧
      (fuse < payloads.length → ∃ failure, appendWithin fuse env payloads = .error failure) := by
  induction payloads generalizing fuse env with
  | nil => exact ⟨by simp [appendWithin, stateAfter, OpEnv.appendAll, pure, Except.pure], by simp⟩
  | cons payload rest ih =>
    rw [OpEnv.appendAll, List.foldlM_cons] at appended
    obtain ⟨middle, first, later⟩ := bind_eq_ok.mp appended
    cases fuse with
    | zero => exact ⟨rfl, fun _ => ⟨_, rfl⟩⟩
    | succ fuse =>
      obtain ⟨taken, short⟩ := ih fuse later
      have same : appendWithin (fuse + 1) env (payload :: rest) = appendWithin fuse middle rest := by
        simp only [appendWithin, first]
      rw [same]
      refine ⟨?_, fun less => short (by simpa using less)⟩
      rw [List.take_succ_cons, OpEnv.appendAll, List.foldlM_cons, first]
      exact taken

end

end Texo.Ops
