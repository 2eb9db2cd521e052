import Texo.Semantics.Reduction

/-! # One relate pass

A pass prepares one page, acquires its verdicts in order on the calling thread and
finishes the page. The questions put to the judge are kept beside the outcome.
-/
namespace Texo.Semantics
open Texo.Events Texo.Knowledge Texo.Foundation

/-- `ParallelRelateOptions` for one sequential worker; `expired` says at which slots
the wall budget has run out. -/
structure RelateOptions where
  temporal : RelateTemporalPolicy := {}
  expired : Nat → Bool := fun _ => false
  candidatePairBudget : Nat
  candidateCursor : Nat

/-- One pass with the pairs it asked the judge about. -/
structure RelatePass where
  outcome : RelateOutcome
  asked : List (ClaimId × ClaimId)

variable [Blake3] {Score : Type}

/-- The verdicts of a page, acquired in pending order. -/
def acquirePage (claims : List ClaimView) (judge : Judge) (settled : SettledMap)
    (expired : Nat → Bool) (pending : List PendingPair) : List (PendingPair × Acquired) :=
  pending.map fun pair => (pair, acquireSequential claims judge settled expired pair)

/-- `relate_claims_settled_parallel_temporal` with a concurrency of one. -/
def relateClaimsSettled (claims : List ClaimView) (embedder : Embedder Score) (judge : Judge)
    (thresholds : RelateThresholds Score) (settled : SettledMap) (options : RelateOptions) :
    Except TexoError RelatePass :=
  match preparePairs claims embedder thresholds settled options.temporal
      options.candidatePairBudget options.candidateCursor with
  | .error error => .error error
  | .ok none => .ok { outcome := .default, asked := [] }
  | .ok (some prepared) =>
    let acquired := acquirePage claims judge settled options.expired prepared.pending
    .ok
      { outcome := finishPage claims options.temporal
          (acquired.map fun pair => (pair.1, pair.2.outcome))
          { settled := settled
            claimClusters := prepared.claimClusters
            examinedPairs := prepared.examinedPairs
            candidatePairBudget := options.candidatePairBudget
            nextCursor := prepared.nextCursor }
        asked := (acquired.filter fun pair => pair.2.asked).map fun pair =>
          (pair.1.older, pair.1.newer) }

end Texo.Semantics
