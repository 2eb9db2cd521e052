import Texo.Ingest.Plan
import Texo.Relate.Campaign
import Texo.Semantics.Runtime

/-! # The claims a relate pass sees, and its backends

A relate pass takes the current claims of a view in journal order and puts their pairs to the
configured backends. A backend answers slot by slot: what it says about one slot need not be
what it says about another with the same two texts.
-/
namespace Texo.Relate
open Texo.Events Texo.Knowledge Texo.Foundation Texo.Store Texo.Claims Texo.Semantics Texo.Ops

/-- The claim a recording names by its entity, `strip_prefix("claim:")`. -/
def recordedClaim (entry : Entry) : Option String :=
  if entry.payload.kind = .claimRecorded ∧ startsWith entry.entity "claim:" then
    some (String.ofList (entry.entity.toList.drop "claim:".toList.length))
  else
    none

/-- One row of `claim_record_receipts`; the first recording of a claim stays. -/
def noteReceipt (receipts : Std.ExtTreeMap String Nat) (entry : Entry) :
    Std.ExtTreeMap String Nat :=
  match recordedClaim entry with
  | none => receipts
  | some claimId =>
    if receipts.contains claimId then receipts else receipts.insert claimId entry.sequence

/-- `claim_record_receipts`, with the sequence of each receipt. -/
def claimRecordReceipts (store : JournalRead) (workspaceId : String) : Std.ExtTreeMap String Nat :=
  (store.journal.region (scopeForWorkspace workspaceId)).foldl noteReceipt ∅

/-- One claim of `semantic_claims_from_view`. -/
def semanticClaim (receipts : Std.ExtTreeMap String Nat) (claim : Claims.ClaimView) :
    Except TexoError Semantics.ClaimView := do
  let claimId ← claimIdOf claim.card.claimId
  let _ ← Ingest.sourceIdOf claim.card.sourceId
  match receipts[claim.card.claimId]? with
  | none => .error (.missingEntity (entityForClaim claim.card.claimId))
  | some sequence => do
    let _ ← claim.supersedes.mapM claimIdOf
    let _ ← claim.card.supersededBy.toList.mapM claimIdOf
    .ok
      { claimId := claimId
        sourcePath := claim.card.sourcePath
        lineStart := claim.card.lineStart
        text := claim.card.text
        normalizedText := claim.card.normalizedText
        subjectHint := claim.card.subjectHint.getD ""
        sequence := sequence }

/-- Claims are related in journal order, then by id. -/
def relateLe (left right : Semantics.ClaimView) : Prop :=
  left.sequence < right.sequence ∨
    (left.sequence = right.sequence ∧ left.claimId.value ≤ right.claimId.value)

instance : DecidableRel relateLe := fun left right =>
  inferInstanceAs (Decidable (left.sequence < right.sequence ∨
    (left.sequence = right.sequence ∧ left.claimId.value ≤ right.claimId.value)))

/-- `semantic_claims_from_view`. -/
def semanticClaimsFromView (store : JournalRead) (workspaceId : String) (view : WorkspaceView) :
    Except TexoError (List Semantics.ClaimView) := do
  let receipts := claimRecordReceipts store workspaceId
  let claims ← (view.claims.filter eligible).mapM (semanticClaim receipts)
  .ok (claims.insertionSort relateLe)

/-- What a relate pass needs from outside the program: the candidate policy with the reading of
its threshold bits, whether the backends could be built, the embedder, the judge and the
deadline at each slot, the provenance of its verdicts, and the judge with its cache evicted. -/
structure RelateWorld (Score : Type) where
  policy : CandidatePolicy
  scoreOfBits : UInt32 → Score
  opened : Except TexoError Unit
  embedder : Embedder Score
  judge : Nat → Judge
  expired : Nat → Bool
  judgeFingerprint : String
  cacheKey : String → String → String
  freshJudgment : String → String → Except TexoError RelationVerdict

/-- The thresholds of a world's policy. -/
def RelateWorld.thresholds {Score : Type} (world : RelateWorld Score) : RelateThresholds Score where
  cluster := world.scoreOfBits world.policy.clusterBits
  prefilter := world.scoreOfBits world.policy.prefilterBits

/-- `SemanticRelateOutput`. -/
structure SemanticRelateOutput where
  outcome : RelateOutcome
  cacheKeys : PairMap String String
  judgeFingerprint : String

/-- The claim under an id; a repeated id names its last claim. -/
def claimById (claims : List Semantics.ClaimView) (claimId : ClaimId) : Option Semantics.ClaimView :=
  claims.reverse.find? fun claim => claim.claimId = claimId

/-- `relate_cache_keys`. -/
def relateCacheKeys (cacheKey : String → String → String) (claims : List Semantics.ClaimView)
    (outcome : RelateOutcome) : PairMap String String :=
  outcome.judgments.foldl (fun keys judgment =>
    match claimById claims judgment.olderClaim, claimById claims judgment.newerClaim with
    | some old, some new =>
      keys.insert (judgment.olderClaim.value, judgment.newerClaim.value) (cacheKey old.text new.text)
    | _, _ => keys) ∅

variable [Blake3] {Score : Type}

/-- The verdicts of a page, each acquired from the backend at its own slot. -/
def RelateWorld.acquire (world : RelateWorld Score) (claims : List Semantics.ClaimView)
    (settled : SettledMap) (pending : List PendingPair) : List (PendingPair × PairOutcome) :=
  pending.map fun pair =>
    (pair, (acquireSequential claims (world.judge pair.cursor) settled world.expired pair).outcome)

/-- The outcome of one pass. -/
def RelateWorld.outcome (world : RelateWorld Score) (claims : List Semantics.ClaimView)
    (settled : SettledMap) (temporal : RelateTemporalPolicy)
    (candidatePairBudget candidateCursor : Nat) : Except TexoError RelateOutcome :=
  match preparePairs claims world.embedder world.thresholds settled temporal candidatePairBudget
      candidateCursor with
  | .error error => .error error
  | .ok none => .ok .default
  | .ok (some prepared) =>
    .ok (finishPage claims temporal (world.acquire claims settled prepared.pending)
      { settled := settled
        claimClusters := prepared.claimClusters
        examinedPairs := prepared.examinedPairs
        candidatePairBudget := candidatePairBudget
        nextCursor := prepared.nextCursor })

/-- `relate_with_backends`. -/
def relateWithBackends (world : RelateWorld Score) (claims : List Semantics.ClaimView)
    (settled : SettledMap) (temporal : RelateTemporalPolicy)
    (candidatePairBudget candidateCursor : Nat) : Except TexoError SemanticRelateOutput := do
  let _ ← world.opened
  let outcome ← world.outcome claims settled temporal candidatePairBudget candidateCursor
  .ok
    { outcome := outcome
      cacheKeys := relateCacheKeys world.cacheKey claims outcome
      judgeFingerprint := world.judgeFingerprint }

end Texo.Relate
