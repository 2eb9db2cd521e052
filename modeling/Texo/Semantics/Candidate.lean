import Texo.Foundation.PairOrder
import Texo.Semantics.Pipeline

/-! # Candidate pairs of one page

A pass walks a bounded slice of the global pair order. A slot whose claims clear
the similarity floor and differ in text becomes a pending pair, oriented oldest to
newest; a pair the source order cannot orient carries its failure with it.
-/
namespace Texo.Semantics
open Texo.Events Texo.Knowledge Texo.Foundation

/-- A candidate pair that survived the bounded page, cosine floor, and
duplicate-text check, ordered oldest to newest. -/
structure PendingPair where
  oldIdx : Nat
  newIdx : Nat
  older : ClaimId
  newer : ClaimId
  temporalFailure : Option RelationFailureClass
  cursor : Nat
deriving DecidableEq

/-- The pending pairs of one page. -/
structure PreparedPairs where
  pending : List PendingPair
  examinedPairs : Nat
  nextCursor : Option Nat
  claimClusters : List Nat

/-- Verdict-acquisition result for one pending pair. -/
inductive PairOutcome where
  | judged (verdict : RelationVerdict) (reusedAuthority : Bool)
  | failed (failure : PairFailureView)
deriving DecidableEq

/-- `budget_exhausted`. -/
def budgetExhausted : PairFailureView := { failureClass := .budgetExhausted }

/-- `pair_count`. -/
def pairCount (length : Nat) : Nat := length * (length - 1) / 2

/-- `seek_pair` from one cluster on: skip whole clusters, then whole rows. -/
def seekPairFrom : Nat → List (List Nat) → Nat → Option (Nat × Nat × Nat)
  | _, [], _ => none
  | clusterIdx, cluster :: rest, offset =>
    if pairCount cluster.length ≤ offset then
      seekPairFrom (clusterIdx + 1) rest (offset - pairCount cluster.length)
    else
      (seekRow (cluster.length - 1) 0 offset).map fun pair => (clusterIdx, pair.1, pair.2)

/-- `seek_pair`: the slot at a global offset. -/
def seekPair (clusters : List (List Nat)) (offset : Nat) : Option (Nat × Nat × Nat) :=
  seekPairFrom 0 clusters offset

/-- `next_pair`: the slot after a given one. -/
def nextPair (clusters : List (List Nat)) (slot : Nat × Nat × Nat) : Option (Nat × Nat × Nat) :=
  match nextRow (clusters.getD slot.1 []).length slot.2.1 slot.2.2 with
  | some pair => some (slot.1, pair.1, pair.2)
  | none =>
    ((clusters.zipIdx.drop (slot.1 + 1)).find? fun row => 2 ≤ row.1.length).map fun row =>
      (row.2, 0, 1)

/-- `order_pair`'s fallback: journal observation order, the index as a tiebreak. -/
def sequenceOrder (claims : List ClaimView) (left right : Nat) : Nat × Nat :=
  if sequenceRank (claimAt claims left) < sequenceRank (claimAt claims right) ∨
      (sequenceRank (claimAt claims left) = sequenceRank (claimAt claims right) ∧ left ≤ right) then
    (left, right)
  else
    (right, left)

/-- `order_pair`: a settled orientation first, then source order, then journal order. -/
def orderPair (claims : List ClaimView) (left right : Nat) (settled : SettledMap)
    (temporal : RelateTemporalPolicy) : (Nat × Nat) × Option RelationFailureClass :=
  let leftId := (claimAt claims left).claimId
  let rightId := (claimAt claims right).claimId
  if settled.contains (leftId, rightId) then
    ((left, right), none)
  else if settled.contains (rightId, leftId) then
    ((right, left), none)
  else
    match temporal.compareClaims leftId rightId with
    | none => (sequenceOrder claims left right, none)
    | some .same => (sequenceOrder claims left right, none)
    | some .before => ((left, right), none)
    | some .after => ((right, left), none)
    | some .concurrent => (sequenceOrder claims left right, some .temporalConcurrent)
    | some .unknown => (sequenceOrder claims left right, some .temporalUnknown)

variable {Score : Type}

/-- The candidate of one slot, or nothing when a gate stops it. -/
def candidateAt (claims : List ClaimView) (embedder : Embedder Score)
    (embeddings : List (List Score)) (floor : Score) (settled : SettledMap)
    (temporal : RelateTemporalPolicy) (clusters : List (List Nat)) (ordinal : Nat)
    (slot : Nat × Nat × Nat) : Option PendingPair :=
  let cluster := clusters.getD slot.1 []
  let i := cluster.getD slot.2.1 0
  let j := cluster.getD slot.2.2 0
  if embedder.atLeast (embedder.cosineSimilarity (embeddings.getD i []) (embeddings.getD j []))
      floor then
    let ordered := orderPair claims i j settled temporal
    let old := claimAt claims ordered.1.1
    let new := claimAt claims ordered.1.2
    if old.normalizedText ≠ new.normalizedText then
      some
        { oldIdx := ordered.1.1
          newIdx := ordered.1.2
          older := old.claimId
          newer := new.claimId
          temporalFailure := ordered.2
          cursor := ordinal }
    else
      none
  else
    none

/-- `prepare_pairs`: embed the claims and enumerate one hard-bounded page. -/
def preparePairs (claims : List ClaimView) (embedder : Embedder Score)
    (thresholds : RelateThresholds Score) (settled : SettledMap) (temporal : RelateTemporalPolicy)
    (candidatePairBudget candidateCursor : Nat) : Except TexoError (Option PreparedPairs) :=
  if claims.length < 2 then
    .ok none
  else
    match embedder.embedBatch (claims.map embeddingText) with
    | .error error => .error error
    | .ok embeddings =>
      let clusters := [List.range claims.length]
      let totalPairs := (clusters.map fun cluster => pairCount cluster.length).sum
      let start := min candidateCursor totalPairs
      let stop := min (start + candidatePairBudget) totalPairs
      .ok (some
        { pending := (walk (nextPair clusters) (stop - start) start (seekPair clusters start)).filterMap
            fun slot => candidateAt claims embedder embeddings thresholds.prefilter settled temporal
              clusters slot.1 slot.2
          examinedPairs := stop - start
          nextCursor := if stop < totalPairs then some stop else none
          claimClusters := List.replicate claims.length 0 })

/-- The result of acquiring one verdict, with the question put to the judge. -/
structure Acquired where
  outcome : PairOutcome
  asked : Bool

/-- `acquire_sequential`: journal authority first, then the source-order failure, then
the wall budget, then a live judge call on the raw texts. -/
def acquireSequential (claims : List ClaimView) (judge : Judge) (settled : SettledMap)
    (expired : Nat → Bool) (pair : PendingPair) : Acquired :=
  match settled[(pair.older, pair.newer)]? with
  | some verdict => ⟨.judged verdict true, false⟩
  | none =>
    match pair.temporalFailure with
    | some failureClass => ⟨.failed { failureClass := failureClass }, false⟩
    | none =>
      if expired pair.cursor then
        ⟨.failed budgetExhausted, false⟩
      else
        match judge (claimAt claims pair.oldIdx).text (claimAt claims pair.newIdx).text with
        | .ok verdict => ⟨.judged verdict false, true⟩
        | .error failure => ⟨.failed failure, true⟩

end Texo.Semantics
