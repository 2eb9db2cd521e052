import Texo.Foundation.UnorderedPairs
import Texo.Relate.Decided
import Texo.Relate.Pass
import Texo.Semantics.Edges
import Texo.Semantics.Passes

/-! # Pairs judged for the first time

A pass reuses the verdict of every pair that is settled in either orientation. The verdicts it
reports as fresh are those of other pairs, each in the one orientation its slot has.
-/
namespace Texo.Relate
open Texo.Events Texo.Knowledge Texo.Foundation Texo.Store Texo.Claims Texo.Semantics Texo.Ops
  Texo.Ingest

/-- The claims of a slot, oriented as if no verdict were settled. -/
def firstKey (claims : List Semantics.ClaimView) (temporal : RelateTemporalPolicy)
    (pair : Nat × Nat) : ClaimId × ClaimId :=
  let ordered := (orderPair claims pair.1 pair.2 ∅ temporal).1
  ((claimAt claims ordered.1).claimId, (claimAt claims ordered.2).claimId)

/-- The pairs that some judgments settle for the first time. -/
def freshKeys (judgments : List PairJudgment) : List (ClaimId × ClaimId) :=
  (judgments.filter fun judgment => !judgment.reusedAuthority).map PairJudgment.key

/-- A pair that is judged for the first time: no verdict is settled for it either way. -/
structure FirstJudged (claims : List Semantics.ClaimView) (settled : SettledMap)
    (temporal : RelateTemporalPolicy) (key : ClaimId × ClaimId) : Prop where
  slot : ∃ pair : Nat × Nat, pair.1 < pair.2 ∧ pair.2 < claims.length ∧
    key = firstKey claims temporal pair
  unsettled : key ∉ settled
  unturned : key.swap ∉ settled

/-- The key of a slot names its two claims, one way or the other. -/
theorem firstKey_cases (claims : List Semantics.ClaimView) (temporal : RelateTemporalPolicy)
    (pair : Nat × Nat) :
    firstKey claims temporal pair =
        ((claimAt claims pair.1).claimId, (claimAt claims pair.2).claimId) ∨
      firstKey claims temporal pair =
        ((claimAt claims pair.2).claimId, (claimAt claims pair.1).claimId) := by
  unfold firstKey
  rcases orderPair_cases claims pair.1 pair.2 ∅ temporal with forward | backward
  · left
    rw [forward]
  · right
    rw [backward]

/-- Pairs judged for the first time over distinct claims are listed one way. -/
theorem oneWay_firstJudged {claims : List Semantics.ClaimView} {settled : SettledMap}
    {temporal : RelateTemporalPolicy} (distinct : (claims.map Semantics.ClaimView.claimId).Nodup)
    {keys : List (ClaimId × ClaimId)}
    (first : ∀ key ∈ keys, FirstJudged claims settled temporal key) : OneWay keys := by
  intro key member turned
  obtain ⟨pair, less, below, here⟩ := (first key member).slot
  obtain ⟨other, less', below', there⟩ := (first key.swap turned).slot
  have same : ∀ {i j : Nat}, i < claims.length → j < claims.length →
      (claimAt claims i).claimId = (claimAt claims j).claimId → i = j :=
    fun first second ids => claimAt_injective distinct first second ids
  have swapped : firstKey claims temporal other = (firstKey claims temporal pair).swap := by
    rw [← there, here]
  have slots : pair = other := by
    rcases firstKey_cases claims temporal pair with forward | backward
    · rcases firstKey_cases claims temporal other with straight | turned
      · rw [forward, straight] at swapped
        obtain ⟨left, right⟩ := Prod.mk.inj swapped
        have one := same (by omega) (by omega) left
        have two := same (by omega) (by omega) right
        omega
      · rw [forward, turned] at swapped
        obtain ⟨left, right⟩ := Prod.mk.inj swapped
        exact Prod.ext (same (by omega) (by omega) right.symm)
          (same (by omega) (by omega) left.symm)
    · rcases firstKey_cases claims temporal other with straight | turned
      · rw [backward, straight] at swapped
        obtain ⟨left, right⟩ := Prod.mk.inj swapped
        exact Prod.ext (same (by omega) (by omega) left.symm)
          (same (by omega) (by omega) right.symm)
      · rw [backward, turned] at swapped
        obtain ⟨left, right⟩ := Prod.mk.inj swapped
        have one := same (by omega) (by omega) left
        have two := same (by omega) (by omega) right
        omega
  rw [← slots] at swapped
  have ids : (claimAt claims pair.1).claimId = (claimAt claims pair.2).claimId := by
    rcases firstKey_cases claims temporal pair with forward | backward
    · rw [forward] at swapped
      exact (Prod.mk.inj swapped).1
    · rw [backward] at swapped
      exact (Prod.mk.inj swapped).2
  have equal := same (by omega) (by omega) ids
  omega

variable {Score : Type}

/-- A fresh verdict of a page is that of a pair nothing has settled. -/
theorem RelateInputs.fresh_firstJudged (inputs : RelateInputs Score) {judge : Judge}
    {settled : SettledMap} {temporal : RelateTemporalPolicy} {expired : Nat → Bool}
    {cursor budget : Nat} {pending : PendingPair} {verdict : RelationVerdict}
    (listed : pending ∈ inputs.pagePending settled temporal cursor budget)
    (judged : (acquireSequential inputs.claims judge settled expired pending).outcome =
      .judged verdict false) :
    FirstJudged inputs.claims settled temporal (pending.older, pending.newer) := by
  obtain ⟨ordinal, pair, _, _, slot, _, rfl⟩ := mem_pagePending.mp listed
  have unsettled : ¬inputs.SettledIn settled pair := by
    intro held
    obtain ⟨_, _, reused⟩ := acquire_settled judge temporal expired ordinal held
    rw [reused] at judged
    cases judged
  obtain ⟨_, less, below⟩ := RelateInputs.slot?_bounds slot
  have key : ((inputs.pendingAt settled temporal ordinal pair).older,
      (inputs.pendingAt settled temporal ordinal pair).newer) = inputs.freshKey temporal pair := by
    rw [pendingAt_unsettled temporal ordinal unsettled]
  rw [key]
  obtain ⟨straight, turned⟩ := not_or.mp unsettled
  refine ⟨⟨pair, less, below, rfl⟩, ?_, ?_⟩
  · rcases freshKey_cases inputs temporal pair with forward | backward
    · rw [forward]
      exact straight
    · rw [backward]
      exact turned
  · rcases freshKey_cases inputs temporal pair with forward | backward
    · rw [forward]
      exact turned
    · rw [backward]
      exact straight

variable [Blake3]

/-- The fresh judgments of an outcome are those its page acquired. -/
theorem freshKeys_finishPage {claims : List Semantics.ClaimView} {temporal : RelateTemporalPolicy}
    {acquired : List (PendingPair × PairOutcome)} {page : PageCompletion}
    {key : ClaimId × ClaimId}
    (member : key ∈ freshKeys (finishPage claims temporal acquired page).judgments) :
    key ∈ freshKeys (acquired.filterMap judgmentOf) := by
  cases finished : finishPage claims temporal acquired page with
  | incomplete outcome =>
    obtain ⟨cursor, shape⟩ := finishPage_incomplete finished
    rw [finished] at member
    have judgments : outcome.judgments = acquired.filterMap judgmentOf := by
      rw [shape, ← judgments_reduceOutcomes claims temporal]
      rfl
    rw [← judgments]
    exact member
  | complete outcome =>
    have related := (finishPage_complete finished).1
    rw [finished] at member
    have judgments : (RelateOutcome.complete outcome).judgments =
        (pageAuthority claims temporal acquired page).filterMap judgmentOf := by
      show outcome.related.judgments = _
      rw [related, judgments_reduceOutcomes]
    rw [judgments] at member
    obtain ⟨judgment, listed, rfl⟩ := List.mem_map.mp member
    obtain ⟨inside, fresh⟩ := List.mem_filter.mp listed
    obtain ⟨_, _, _, flagged⟩ := mem_authoritative_judgments.mp inside
    rw [flagged] at fresh
    have among : judgment.key ∈
        ((reduceOutcomes claims temporal acquired).related.judgments.filter
          fun judgment => !judgment.reusedAuthority).map fun judgment =>
            (judgment.olderClaim, judgment.newerClaim) := by
      rw [Bool.not_eq_true', decide_eq_false_iff_not, not_not] at fresh
      exact fresh
    rw [judgments_reduceOutcomes] at among
    exact among

/-- The fresh judgments of a pass are of pairs nothing has settled. -/
theorem RelateWorld.outcome_fresh {world : RelateWorld Score}
    {claims : List Semantics.ClaimView} {settled : SettledMap} {temporal : RelateTemporalPolicy}
    {budget cursor : Nat} {outcome : Semantics.RelateOutcome}
    (answered : world.outcome claims settled temporal budget cursor = .ok outcome) :
    ∀ key ∈ freshKeys outcome.judgments, FirstJudged claims settled temporal key := by
  intro key member
  unfold RelateWorld.outcome at answered
  by_cases few : claims.length < 2
  · have nothing : preparePairs claims world.embedder world.thresholds settled temporal budget
        cursor = .ok none := by
      unfold preparePairs
      rw [if_pos few]
    rw [nothing] at answered
    rw [← Except.ok.inj answered] at member
    cases member
  · cases embedded : world.embedder.embedBatch (claims.map embeddingText) with
    | error error =>
      have failed : preparePairs claims world.embedder world.thresholds settled temporal budget
          cursor = .error error := by
        unfold preparePairs
        rw [if_neg few, embedded]
      rw [failed] at answered
      cases answered
    | ok embeddings =>
      let inputs : RelateInputs Score :=
        ⟨claims, world.embedder, world.thresholds, embeddings, embedded⟩
      have prepared := preparePairs_eq inputs settled temporal budget cursor
        (show 2 ≤ claims.length by omega)
      rw [show preparePairs claims world.embedder world.thresholds settled temporal budget cursor =
        _ from prepared] at answered
      rw [← Except.ok.inj answered] at member
      obtain ⟨judgment, listed, rfl⟩ := List.mem_map.mp (freshKeys_finishPage member)
      obtain ⟨inside, fresh⟩ := List.mem_filter.mp listed
      obtain ⟨pair, acquired, made⟩ := List.mem_filterMap.mp inside
      obtain ⟨pending, waits, rfl⟩ := List.mem_map.mp acquired
      unfold judgmentOf at made
      dsimp only at made
      split at made
      · rename_i verdict reused judged
        rw [← Option.some.inj made] at fresh ⊢
        have new : reused = false := by simpa using fresh
        rw [new] at judged
        exact RelateInputs.fresh_firstJudged inputs waits judged
      · cases made

end Texo.Relate
