import Texo.Ingest.Run
import Texo.Relate.Authority
import Texo.Relate.Publication

/-! # Running a relate pass

A pass reads the view, the settled verdicts and the latest checkpoint of its campaign, asks the
backends about one page of candidate pairs, and publishes what came of it. A campaign that is
complete for the view's basis and the policy is left alone, unless a pair is to be judged anew.
-/
namespace Texo.Relate
open Texo.Events Texo.Knowledge Texo.Foundation Texo.Store Texo.Claims Texo.Semantics Texo.Ops
  Texo.Ingest

/-- Options of one pass; the default is `RelatePassOptions::best_effort`. -/
structure RelatePassOptions where
  strict : Bool := false
  candidatePairBudget : Nat := defaultCandidatePairBudget
  candidateCursor : Option Nat := none
  rejudgePair : Option (ClaimId × ClaimId) := none

/-- Input of one relate run. -/
structure RelateRunInput where
  observedAtMs : Nat
  strict : Bool := false
  maxCandidatePairs : Option Nat := none
  candidateCursor : Option Nat := none
  rejudgePair : Option (List String) := none
deriving DecidableEq, Repr

/-- The operation name of a relate run. -/
def relateOp : String := "texo.relate.run"

/-- The pair a request names, of exactly two claim ids. -/
def requestedPair : Option (List String) → Except TexoError (Option (ClaimId × ClaimId))
  | none => .ok none
  | some [older, newer] => do
    let older ← claimIdOf older
    let newer ← claimIdOf newer
    .ok (some (older, newer))
  | some _ => .error (.opInput relateOp "rejudge_pair must contain exactly two claim ids")

/-- `RelateRunInput::validated_options`. -/
def RelateRunInput.validatedOptions (input : RelateRunInput) : Except TexoError RelatePassOptions := do
  let candidatePairBudget := input.maxCandidatePairs.getD defaultCandidatePairBudget
  require (candidatePairBudget ≠ 0)
    (.opInput relateOp "max_candidate_pairs must be greater than zero")
  let rejudgePair ← requestedPair input.rejudgePair
  .ok
    { strict := input.strict
      candidatePairBudget := candidatePairBudget
      candidateCursor := input.candidateCursor
      rejudgePair := rejudgePair }

/-- Typed completion of a pass. -/
inductive RelateCompletion where
  | complete
  | incomplete
deriving DecidableEq, Repr

/-- One supersession a pass reports. -/
structure RelateSupersessionRow where
  oldClaimId : String
  newClaimId : String
  reason : String
  cacheKey : String
deriving DecidableEq, Repr

/-- One conflict a pass reports. -/
structure RelateConflictRow where
  conflictId : String
  claimA : String
  claimB : String
  reason : String
  cacheKey : String
deriving DecidableEq, Repr

/-- The pair a pass judged anew. -/
structure RejudgedPairRow where
  olderClaim : String
  newerClaim : String
  priorRelation : ClaimRelation
  freshRelation : ClaimRelation
  scorePpm : Nat
  judgeFingerprint : String
  cacheKey : String
deriving DecidableEq, Repr

/-- Output of one pass. -/
structure RelateRunOutput where
  outcome : RelateCompletion := .complete
  claimsRelated : Nat
  supersessions : List RelateSupersessionRow := []
  conflicts : List RelateConflictRow := []
  unresolved : List UnresolvedPair := []
  held : List HeldDecision := []
  warnings : List String := []
  authorityWarnings : List AuthorityWarning := []
  candidatePairs : Nat := 0
  candidatePairBudget : Nat
  nextCandidateCursor : Option Nat := none
  rejudgedPair : Option RejudgedPairRow := none
  receipts : List EventId := []
deriving DecidableEq

/-- What a prepared pass is to do. -/
inductive CampaignExecution where
  | noopComplete
  | rejudgeComplete
  | run (cursor : Nat)
deriving DecidableEq, Repr

/-- `campaign_execution`. -/
def campaignExecution : CampaignStart → Bool → CampaignExecution
  | .alreadyComplete, false => .noopComplete
  | .alreadyComplete, true => .rejudgeComplete
  | .run cursor, _ => .run cursor

/-- What a pass has read before it acts. -/
structure PreparedRelatePass where
  strict : Bool
  candidatePairBudget : Nat
  rejudgePair : Option (ClaimId × ClaimId)
  view : WorkspaceView
  claims : List Semantics.ClaimView
  temporal : RelateTemporalPolicy
  workspaceId : WorkspaceId
  evaluatedBasis : CampaignBasis
  execution : CampaignExecution

/-- Where a prepared pass starts. -/
def PreparedRelatePass.candidateCursor (prepared : PreparedRelatePass) : Nat :=
  match prepared.execution with
  | .run cursor => cursor
  | .noopComplete => 0
  | .rejudgeComplete => 0

/-- The settled orientation of a requested pair, with its verdict. -/
def priorJudgment (verdicts : SettledMap) (requested : ClaimId × ClaimId) :
    Option ((ClaimId × ClaimId) × RelationVerdict) :=
  match verdicts[requested]? with
  | some verdict => some (requested, verdict)
  | none => (verdicts[(requested.2, requested.1)]?).map fun verdict =>
      ((requested.2, requested.1), verdict)

/-- A pair judged anew: the row reported and the event appended. -/
structure Rejudged where
  row : RejudgedPairRow
  event : RelationJudgedV1

/-- What `relate_with_backends` and the settled verdicts say, with the pair judged anew. -/
structure EvaluatedRelatePass where
  related : SemanticRelateOutput
  authorityWarnings : List AuthorityWarning
  rejudgedPair : Option RejudgedPairRow

/-- `empty_relate_output`. -/
def emptyRelateOutput (prepared : PreparedRelatePass) : RelateRunOutput where
  claimsRelated := prepared.claims.length
  candidatePairBudget := prepared.candidatePairBudget

/-- The warnings of an incomplete pass; a complete one has none. -/
def relateWarnings (strict : Bool) (unresolved : List UnresolvedPair) (cursor : Nat) : List String :=
  (if unresolved.isEmpty then [] else
    ["semantic settlement is incomplete; unresolved pairs remain authoritative gaps"]) ++
  ["candidate page is incomplete; resume deterministically from candidate cursor " ++
    toString cursor] ++
  if strict then ["strict settlement withheld all derived authority until completion"] else []

variable {Score : Type}

/-- `rejudge_authoritative_pair`, up to its append. -/
def rejudgeAuthoritativePair (op : String) (world : RelateWorld Score)
    (prepared : PreparedRelatePass) (verdicts : SettledMap) (requested : ClaimId × ClaimId)
    (observedAtMs : Nat) : Except TexoError Rejudged :=
  match priorJudgment verdicts requested with
  | none =>
    .error (.opInput op ("rejudge pair " ++ requested.1.value ++ " " ++ requested.2.value ++
      " has no journal-authoritative judgment"))
  | some ((older, newer), prior) =>
    match claimById prepared.claims older with
    | none =>
      .error (.opInput op ("rejudge older claim " ++ older.value ++
        " is not current semantic input"))
    | some oldView =>
      match claimById prepared.claims newer with
      | none =>
        .error (.opInput op ("rejudge newer claim " ++ newer.value ++
          " is not current semantic input"))
      | some newView => do
        let fresh ← world.freshJudgment oldView.text newView.text
        let cacheKey := world.cacheKey oldView.text newView.text
        .ok
          { row :=
              { olderClaim := older.value
                newerClaim := newer.value
                priorRelation := prior.relation
                freshRelation := fresh.relation
                scorePpm := fresh.scorePpm
                judgeFingerprint := world.judgeFingerprint
                cacheKey := cacheKey }
            event :=
              { workspaceId := prepared.workspaceId
                olderClaim := older
                newerClaim := newer
                relation := fresh.relation.toSettled
                scorePpm := fresh.scorePpm
                judgeFingerprint := world.judgeFingerprint
                cacheKeyHex := cacheKey
                observedAtMs := observedAtMs } }

variable [Blake3]

/-- `prepare_relate_pass`. -/
def prepareRelatePass (world : RelateWorld Score) (env : OpEnv) (options : RelatePassOptions) :
    Except TexoError PreparedRelatePass := do
  let store := readable env.journal
  let view ← assembleCurrentView store env.workspaceId
  let claims ← semanticClaimsFromView store env.workspaceId view
  let temporal ← workspaceTemporalPolicy store env.workspaceId view
  let workspaceId ← workspaceIdOf view.workspaceId
  let evaluatedBasis := CampaignBasis.fromView view temporal
  let latest ← latestCheckpoint store view
  let start ← resolveStart latest evaluatedBasis.digest world.policy.digest options.candidateCursor
  .ok
    { strict := options.strict
      candidatePairBudget := options.candidatePairBudget
      rejudgePair := options.rejudgePair
      view := view
      claims := claims
      temporal := temporal
      workspaceId := workspaceId
      evaluatedBasis := evaluatedBasis
      execution := campaignExecution start options.rejudgePair.isSome }

/-- The checkpoint of a prepared pass, with the basis and the phase it leaves behind. -/
def checkpointOf (world : RelateWorld Score) (prepared : PreparedRelatePass) (result : CampaignBasis)
    (phase : CampaignPhase) (observedAtMs : Nat) : RelationCampaignCheckpointV1 where
  workspaceId := prepared.workspaceId
  evaluatedBasisDigestHex := prepared.evaluatedBasis.digest
  resultBasisDigestHex := result.digest
  candidatePolicyDigestHex := world.policy.digest
  phase := phase
  observedAtMs := observedAtMs

/-- `take_receipts` at the end of an operation. -/
def takeReceipts (env : OpEnv) : List EventId × OpEnv := (env.receipts, { env with receipts := [] })

/-- The rejudge step of a pass: without a request nothing happens. -/
def rejudgeRequested (fuse : Nat) (op : String) (world : RelateWorld Score) (env : OpEnv)
    (observedAtMs : Nat) (prepared : PreparedRelatePass) :
    Except (Failure OpEnv) (Option RejudgedPairRow × Nat × OpEnv) :=
  match prepared.rejudgePair with
  | none => .ok (none, fuse, env)
  | some requested =>
    match authoritativeSettlements (readable env.journal) env.workspaceId none with
    | .error error => .error ⟨error, env⟩
    | .ok authority =>
      match rejudgeAuthoritativePair op world prepared authority.verdicts requested observedAtMs with
      | .error error => .error ⟨error, env⟩
      | .ok rejudged =>
        match appendWithin fuse env [.relationJudged rejudged.event] with
        | .error failure => .error failure
        | .ok (left, judged) => .ok (some rejudged.row, left, judged)

/-- `complete_trivial_campaign`. -/
def completeTrivialCampaign (fuse : Nat) (world : RelateWorld Score) (env : OpEnv)
    (observedAtMs : Nat) (prepared : PreparedRelatePass) :
    Except (Failure OpEnv) (RelateRunOutput × OpEnv) :=
  match appendWithin fuse env [.campaignCheckpoint
      (checkpointOf world prepared prepared.evaluatedBasis .complete observedAtMs)] with
  | .error failure => .error failure
  | .ok (_, checked) =>
    .ok ({ emptyRelateOutput prepared with receipts := checked.receipts }, (takeReceipts checked).2)

/-- `rejudge_completed_campaign`. -/
def rejudgeCompletedCampaign (fuse : Nat) (op : String) (world : RelateWorld Score) (env : OpEnv)
    (observedAtMs : Nat) (prepared : PreparedRelatePass) :
    Except (Failure OpEnv) (RelateRunOutput × OpEnv) :=
  match rejudgeRequested fuse op world env observedAtMs prepared with
  | .error failure => .error failure
  | .ok (row, left, judged) =>
    match authoritativeSettlements (readable judged.journal) judged.workspaceId none with
    | .error error => .error ⟨error, judged⟩
    | .ok authority =>
      match appendWithin left judged [.campaignCheckpoint
          (checkpointOf world prepared prepared.evaluatedBasis .complete observedAtMs)] with
      | .error failure => .error failure
      | .ok (_, checked) =>
        .ok
          ({ emptyRelateOutput prepared with
              authorityWarnings := authority.warnings
              rejudgedPair := row
              receipts := checked.receipts }, (takeReceipts checked).2)

/-- `evaluate_relate_pass`. -/
def evaluateRelatePass (fuse : Nat) (op : String) (world : RelateWorld Score) (env : OpEnv)
    (observedAtMs : Nat) (prepared : PreparedRelatePass) :
    Except (Failure OpEnv) (EvaluatedRelatePass × Nat × OpEnv) :=
  match rejudgeRequested fuse op world env observedAtMs prepared with
  | .error failure => .error failure
  | .ok (row, left, judged) =>
    match authoritativeSettlements (readable judged.journal) judged.workspaceId none with
    | .error error => .error ⟨error, judged⟩
    | .ok authority =>
      match relateWithBackends world prepared.claims authority.verdicts prepared.temporal
          prepared.candidatePairBudget prepared.candidateCursor with
      | .error error => .error ⟨error, judged⟩
      | .ok related =>
        .ok
          ({ related :=
              { related with
                cacheKeys := authority.cacheKeys.toList.foldl
                  (fun keys known => keys.insert known.1 known.2) related.cacheKeys }
             authorityWarnings := authority.warnings
             rejudgedPair := row }, left, judged)

/-- `finish_relate_output`. -/
def finishRelateOutput (prepared : PreparedRelatePass) (evaluated : EvaluatedRelatePass)
    (receipts : List EventId) : RelateRunOutput :=
  let related := evaluated.related
  let publication := relatePublication related.outcome
  let output : RelateRunOutput :=
    { claimsRelated := prepared.claims.length
      supersessions := publication.supersessions.map fun edge =>
        ⟨edge.oldClaim.value, edge.newClaim.value, edge.reason,
          cacheKeyOf related.cacheKeys edge.oldClaim edge.newClaim⟩
      conflicts := (newConflicts prepared.view publication.conflicts).map fun entry =>
        ⟨entry.conflictId.value, entry.claimA.value, entry.claimB.value, entry.reason,
          cacheKeyOf related.cacheKeys entry.claimA entry.claimB⟩
      authorityWarnings := evaluated.authorityWarnings
      candidatePairBudget := prepared.candidatePairBudget
      rejudgedPair := evaluated.rejudgedPair
      receipts := receipts }
  match related.outcome with
  | .complete complete =>
    { output with
      held := complete.held
      candidatePairs := complete.candidatePairs
      candidatePairBudget := complete.candidatePairBudget }
  | .incomplete unfinished =>
    { output with
      outcome := .incomplete
      unresolved := unfinished.unresolved
      held := unfinished.held
      warnings := relateWarnings prepared.strict unfinished.unresolved
        unfinished.nextCandidateCursor
      candidatePairs := unfinished.candidatePairs
      candidatePairBudget := unfinished.candidatePairBudget
      nextCandidateCursor := some unfinished.nextCandidateCursor }

/-- The checkpoint a publication ends with. -/
def publishedCheckpoint (world : RelateWorld Score) (prepared : PreparedRelatePass)
    (related : SemanticRelateOutput) (observedAtMs : Nat) : RelationCampaignCheckpointV1 :=
  checkpointOf world prepared (resultBasis prepared.evaluatedBasis prepared.view related.outcome)
    (resultPhase related.outcome) observedAtMs

/-- `publish_relate_pass`. -/
def publishRelatePass (fuse : Nat) (world : RelateWorld Score) (env : OpEnv) (observedAtMs : Nat)
    (prepared : PreparedRelatePass) (evaluated : EvaluatedRelatePass) :
    Except (Failure OpEnv) (RelateRunOutput × OpEnv) :=
  match appendWithin fuse env
      (publishedEvents prepared.workspaceId prepared.view evaluated.related observedAtMs ++
        [.campaignCheckpoint
          (publishedCheckpoint world prepared evaluated.related observedAtMs)]) with
  | .error failure => .error failure
  | .ok (_, published) =>
    .ok (finishRelateOutput prepared evaluated published.receipts, (takeReceipts published).2)

/-- `run_relate_pass`, in a store that accepts `fuse` appends. -/
def runRelatePass (fuse : Nat) (op : String) (world : RelateWorld Score) (env : OpEnv)
    (observedAtMs : Nat) (options : RelatePassOptions) :
    Except (Failure OpEnv) (RelateRunOutput × OpEnv) :=
  match prepareRelatePass world env options with
  | .error error => .error ⟨error, env⟩
  | .ok prepared =>
    match prepared.execution with
    | .noopComplete =>
      .ok ({ emptyRelateOutput prepared with receipts := env.receipts }, (takeReceipts env).2)
    | .rejudgeComplete => rejudgeCompletedCampaign fuse op world env observedAtMs prepared
    | .run _ =>
      if prepared.rejudgePair.isSome ∧ prepared.claims.length < 2 then
        .error ⟨.opInput op
          "rejudge pair is no longer present in the current semantic claim set", env⟩
      else if prepared.claims.length < 2 then
        completeTrivialCampaign fuse world env observedAtMs prepared
      else
        match evaluateRelatePass fuse op world env observedAtMs prepared with
        | .error failure => .error failure
        | .ok (evaluated, left, judged) =>
          publishRelatePass left world judged observedAtMs prepared evaluated

/-- `relate_run` in a workspace whose store accepts `fuse` appends. -/
def relateRun (fuse : Nat) (world : RelateWorld Score) (workspaceId : String)
    (input : RelateRunInput) (journal : Journal) :
    Except (Failure Journal) (RelateRunOutput × Journal) :=
  match input.validatedOptions with
  | .error error => .error ⟨error, journal⟩
  | .ok options =>
    match runRelatePass fuse relateOp world { workspaceId := workspaceId, journal := journal }
        input.observedAtMs options with
    | .error failure => .error ⟨failure.error, failure.left.journal⟩
    | .ok (output, settled) => .ok (output, settled.journal)

end Texo.Relate
