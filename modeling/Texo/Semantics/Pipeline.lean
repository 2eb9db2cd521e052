import Mathlib.Data.List.Sort
import Texo.Error
import Texo.Events.Payloads
import Texo.Foundation.PairMap

/-! # The semantic pipeline's data

Claims as the pure pipeline sees them, the two injected backends, the source-order
policy that orients a pair, and the complete-or-partial result of one pass.
-/
namespace Texo.Semantics
open Texo.Events Texo.Knowledge Texo.Foundation

/-- Replay claim projection consumed by the pure semantic pipeline. -/
structure ClaimView where
  claimId : ClaimId
  sourcePath : String := ""
  lineStart : Nat := 0
  text : String := ""
  normalizedText : String := ""
  subjectHint : String := ""
  sequence : Nat := 0
deriving DecidableEq

instance : Inhabited ClaimView := ⟨{ claimId := ⟨"claim_", Eq.refl true⟩ }⟩

/-- `&claims[idx]`. -/
def claimAt (claims : List ClaimView) (idx : Nat) : ClaimView := claims.getD idx default

/-- `embedding_text`: the normalized text, or the raw text when it is empty. -/
def embeddingText (view : ClaimView) : String :=
  if view.normalizedText = "" then view.text else view.normalizedText

/-- `sequence_rank`. -/
def sequenceRank (view : ClaimView) : Nat := view.sequence

/-- The embedding backend with the similarity of its vectors: `embed_batch`,
`cosine_similarity` and the floating-point `>=`. -/
structure Embedder (Score : Type) where
  embedBatch : List String → Except TexoError (List (List Score))
  cosineSimilarity : List Score → List Score → Score
  atLeast : Score → Score → Bool

/-- How a newer claim relates to an older one. -/
inductive ClaimRelation where
  | supersedes
  | conflict
  | duplicate
  | unrelated
deriving DecidableEq, Repr

/-- One verdict of the judge; its score in parts per million. -/
structure RelationVerdict where
  relation : ClaimRelation
  scorePpm : Nat
deriving DecidableEq, Repr

/-- `From<ClaimRelation> for SettledRelation`. -/
def ClaimRelation.toSettled : ClaimRelation → SettledRelation
  | .supersedes => .supersedes
  | .conflict => .conflicts
  | .duplicate => .duplicate
  | .unrelated => .unrelated

/-- `From<SettledRelation> for ClaimRelation`. -/
def ClaimRelation.ofSettled : SettledRelation → ClaimRelation
  | .supersedes => .supersedes
  | .conflicts => .conflict
  | .duplicate => .duplicate
  | .unrelated => .unrelated

/-- A relation reads back from its journaled form. -/
@[simp] theorem ClaimRelation.ofSettled_toSettled (relation : ClaimRelation) :
    ClaimRelation.ofSettled relation.toSettled = relation := by
  cases relation <;> rfl

/-- Sanitized pair-level failure evidence. -/
structure PairFailureView where
  failureClass : RelationFailureClass
  endpoint : Option String := none
  status : Option Nat := none
  attempts : Nat := 0
deriving DecidableEq, Repr

/-- The judge: how the newer text relates to the older one, or why it cannot say. -/
abbrev Judge := String → String → Except PairFailureView RelationVerdict

/-- Candidate gates of one pass. -/
structure RelateThresholds (Score : Type) where
  cluster : Score
  prefilter : Score

/-- Journal-authoritative verdicts by ordered pair. -/
abbrev SettledMap := PairMap ClaimId RelationVerdict

instance : Std.TransCmp (@Foundation.comparePair ClaimId _) := inferInstance

/-- Frozen source-order evidence used to orient semantic claim pairs. -/
structure RelateTemporalPolicy where
  claimSnapshots : Std.ExtTreeMap String String := ∅
  snapshotRelations : PairMap String TemporalRelation := ∅

/-- `RelateTemporalPolicy::bind_claim`: the last binding of a claim stays. -/
def RelateTemporalPolicy.bindClaim (policy : RelateTemporalPolicy) (claimId : ClaimId)
    (snapshotId : SourceSnapshotId) : RelateTemporalPolicy :=
  { policy with claimSnapshots := policy.claimSnapshots.insert claimId.value snapshotId.value }

/-- `RelateTemporalPolicy::insert_relation_ids`: the first fact of a pair stays. -/
def RelateTemporalPolicy.insertRelationIds (policy : RelateTemporalPolicy) (left right : String)
    (relation : TemporalRelation) : RelateTemporalPolicy :=
  if policy.snapshotRelations.contains (left, right) then
    policy
  else
    { policy with snapshotRelations := policy.snapshotRelations.insert (left, right) relation }

/-- `RelateTemporalPolicy::compare_claims`. -/
def RelateTemporalPolicy.compareClaims (policy : RelateTemporalPolicy) (left right : ClaimId) :
    Option TemporalRelation :=
  match policy.claimSnapshots[left.value]?, policy.claimSnapshots[right.value]? with
  | none, none => none
  | some left, some right =>
    if left = right then
      some .same
    else
      match policy.snapshotRelations[(left, right)]? with
      | some relation => some relation
      | none =>
        match policy.snapshotRelations[(right, left)]? with
        | some relation => some relation.invert
        | none => some .unknown
  | some _, none => some .unknown
  | none, some _ => some .unknown

/-- A derived decision withheld because required pair evidence was absent. -/
inductive HeldDecision where
  | supersession (oldClaim newClaim : ClaimId) (reason : String)
  | conflict (conflictId : ConflictId) (claimA claimB : ClaimId) (reason : String)
deriving DecidableEq

/-- One candidate pair whose verdict remains absent. -/
structure UnresolvedPair where
  oldClaim : ClaimId
  newClaim : ClaimId
  oldRef : String
  newRef : String
  failure : PairFailureView
deriving DecidableEq

/-- One successful logical-pair judgment. -/
structure PairJudgment where
  olderClaim : ClaimId
  newerClaim : ClaimId
  verdict : RelationVerdict
  reusedAuthority : Bool
deriving DecidableEq

/-- `(old_claim, new_claim, reason)`. -/
structure SupersessionEdge where
  oldClaim : ClaimId
  newClaim : ClaimId
  reason : String
deriving DecidableEq

/-- Conflict entry derived by the semantic pipeline; its status is open. -/
structure ConflictEntry where
  conflictId : ConflictId
  claimA : ClaimId
  claimB : ClaimId
  subjectHint : String
  reason : String
deriving DecidableEq

/-- Both relations the semantic pipeline derives, in a single pass. -/
structure RelatedClaims where
  supersessions : List SupersessionEdge := []
  conflicts : List ConflictEntry := []
  judgments : List PairJudgment := []
deriving DecidableEq

/-- A completed semantic pass; derived edges exist only here. -/
structure CompleteRelateOutcome where
  related : RelatedClaims := {}
  held : List HeldDecision := []
  candidatePairs : Nat := 0
  candidatePairBudget : Nat := 0
deriving DecidableEq

/-- An incomplete semantic pass. -/
structure PartialRelateOutcome where
  judgments : List PairJudgment
  unresolved : List UnresolvedPair
  held : List HeldDecision
  candidatePairs : Nat
  candidatePairBudget : Nat
  nextCandidateCursor : Nat
deriving DecidableEq

/-- Typed complete-or-partial semantic pipeline result. -/
inductive RelateOutcome where
  | complete (outcome : CompleteRelateOutcome)
  | incomplete (outcome : PartialRelateOutcome)
deriving DecidableEq

/-- `DEFAULT_CANDIDATE_PAIR_BUDGET`. -/
def defaultCandidatePairBudget : Nat := 4096

/-- `RelateOutcome::default`: what a pass over fewer than two claims returns. -/
def RelateOutcome.default : RelateOutcome :=
  .complete { candidatePairBudget := defaultCandidatePairBudget }

/-- `RelateOutcome::judgments`. -/
def RelateOutcome.judgments : RelateOutcome → List PairJudgment
  | .complete outcome => outcome.related.judgments
  | .incomplete outcome => outcome.judgments

end Texo.Semantics
