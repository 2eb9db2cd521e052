import Texo.Semantics.Slots

/-! # What one relate pass settles

A slot a pass examines is settled beforehand, freshly judged, or failed; the cursor a
pass returns never lies beyond a failed slot. Together: every candidate slot between
the cursor a pass started at and the one it returned carries a verdict.
-/
namespace Texo.Semantics
open Texo.Events Texo.Knowledge Texo.Foundation

/-- The judgment of an acquired pair, when it has one. -/
def judgmentOf (acquired : PendingPair × PairOutcome) : Option PairJudgment :=
  match acquired.2 with
  | .judged verdict reusedAuthority =>
    some ⟨acquired.1.older, acquired.1.newer, verdict, reusedAuthority⟩
  | .failed _ => none

/-- One acquired pair adds at most its own judgment. -/
theorem judgments_collectPair (claims : List ClaimView) (temporal : RelateTemporalPolicy)
    (reduction : PairReduction) (acquired : PendingPair × PairOutcome) :
    (collectPair claims temporal reduction acquired).judgments =
      reduction.judgments ++ (judgmentOf acquired).toList := by
  obtain ⟨pair, outcome⟩ := acquired
  cases outcome with
  | failed failure => simp [collectPair, judgmentOf]
  | judged verdict reusedAuthority =>
    obtain ⟨relation, score⟩ := verdict
    cases relation with
    | supersedes =>
      simp only [collectPair, judgmentOf, PairReduction.noteWinner]
      split
      · rfl
      · split <;> rfl
    | conflict => rfl
    | duplicate => rfl
    | unrelated => rfl

/-- The judgments of a reduction are those of its pairs, in order. -/
theorem judgments_reduceOutcomes [Blake3] (claims : List ClaimView)
    (temporal : RelateTemporalPolicy) (acquired : List (PendingPair × PairOutcome)) :
    (reduceOutcomes claims temporal acquired).related.judgments =
      acquired.filterMap judgmentOf := by
  have folded : ∀ (pairs : List (PendingPair × PairOutcome)) (reduction : PairReduction),
      (pairs.foldl (collectPair claims temporal) reduction).judgments =
        reduction.judgments ++ pairs.filterMap judgmentOf := by
    intro pairs
    induction pairs with
    | nil => intro reduction; simp
    | cons pair pairs ih =>
      intro reduction
      rw [List.foldl_cons, ih, judgments_collectPair, List.append_assoc]
      cases judged : judgmentOf pair with
      | none => simp [judged]
      | some judgment => simp [judged]
  show (collectPairReduction claims temporal acquired).judgments = _
  rw [collectPairReduction, folded]
  rfl

/-- The key a judgment is settled under. -/
def PairJudgment.key (judgment : PairJudgment) : ClaimId × ClaimId :=
  (judgment.olderClaim, judgment.newerClaim)

/-- Inserting judgments keeps what was settled and adds their keys. -/
theorem mem_foldl_insertJudgment {judgments : List PairJudgment} {settled : SettledMap}
    {key : ClaimId × ClaimId} :
    key ∈ judgments.foldl insertJudgment settled ↔
      key ∈ settled ∨ ∃ judgment ∈ judgments, judgment.key = key := by
  induction judgments generalizing settled with
  | nil => simp
  | cons judgment judgments ih =>
    rw [List.foldl_cons, ih, insertJudgment, Std.ExtTreeMap.mem_insert,
      Std.LawfulEqCmp.compare_eq_iff_eq]
    simp only [List.exists_mem_cons_iff, PairJudgment.key]
    constructor
    · rintro ((same | held) | later)
      · exact Or.inr (Or.inl same)
      · exact Or.inl held
      · exact Or.inr (Or.inr later)
    · rintro (held | same | later)
      · exact Or.inl (Or.inr held)
      · exact Or.inl (Or.inl same)
      · exact Or.inr later

/-- Every claim id of the list is indexed. -/
theorem indexById_isSome {claims : List ClaimView} {view : ClaimView} (member : view ∈ claims) :
    ∃ idx, (indexById claims)[view.claimId.value]? = some idx := by
  have folded : ∀ (rows : List (ClaimView × Nat)) (byId : Std.ExtTreeMap String Nat),
      (view.claimId.value ∈ byId ∨ ∃ row ∈ rows, row.1 = view) →
        view.claimId.value ∈
          rows.foldl (fun byId row => byId.insert row.1.claimId.value row.2) byId := by
    intro rows
    induction rows with
    | nil =>
      rintro byId (held | ⟨row, absent, _⟩)
      · exact held
      · cases absent
    | cons row rows ih =>
      rintro byId (held | ⟨other, member, same⟩)
      · apply ih
        left
        exact Std.ExtTreeMap.mem_insert.mpr (Or.inr held)
      · rcases List.mem_cons.mp member with rfl | later
        · apply ih
          left
          rw [← same]
          exact Std.ExtTreeMap.mem_insert_self
        · exact ih _ (Or.inr ⟨other, later, same⟩)
  obtain ⟨idx, lookup⟩ := List.mem_iff_getElem?.mp member
  have indexed : view.claimId.value ∈ indexById claims :=
    folded _ _ (Or.inr ⟨(view, idx), List.mk_mem_zipIdx_iff_getElem?.mpr lookup, rfl⟩)
  exact Option.isSome_iff_exists.mp (Std.ExtTreeMap.isSome_getElem?_iff_mem.mpr indexed)

/-- The judgments a complete reduction reports are the authority restricted to the
claims at hand, each flagged by whether it is fresh. -/
theorem mem_authoritative_judgments {claims : List ClaimView} {authority : SettledMap}
    {fresh : List (ClaimId × ClaimId)} {clusters : List Nat} {judgment : PairJudgment} :
    judgment ∈ (authoritativePairs claims authority fresh clusters).filterMap judgmentOf ↔
      authority[judgment.key]? = some judgment.verdict ∧
        judgment.olderClaim.value ∈ indexById claims ∧
        judgment.newerClaim.value ∈ indexById claims ∧
        judgment.reusedAuthority = decide (judgment.key ∉ fresh) := by
  simp only [List.mem_filterMap, authoritativePairs, List.mem_map, List.mem_insertionSort]
  constructor
  · rintro ⟨_, ⟨row, ⟨⟨key, verdict⟩, stored, rowed⟩, rfl⟩, judged⟩
    have settledAt := Std.ExtTreeMap.mem_toList_iff_getElem?_eq_some.mp stored
    simp only [authorityRow] at rowed
    split at rowed
    · rename_i oldIdx newIdx oldFound newFound
      simp only [Option.some.injEq] at rowed
      subst rowed
      simp only [judgmentOf, Option.some.injEq] at judged
      subst judged
      refine ⟨settledAt, ?_, ?_, rfl⟩
      · exact Std.ExtTreeMap.isSome_getElem?_iff_mem.mp (by rw [oldFound]; rfl)
      · exact Std.ExtTreeMap.isSome_getElem?_iff_mem.mp (by rw [newFound]; rfl)
    · cases rowed
  · rintro ⟨stored, oldIn, newIn, flagged⟩
    obtain ⟨oldIdx, oldFound⟩ :=
      Option.isSome_iff_exists.mp (Std.ExtTreeMap.isSome_getElem?_iff_mem.mpr oldIn)
    obtain ⟨newIdx, newFound⟩ :=
      Option.isSome_iff_exists.mp (Std.ExtTreeMap.isSome_getElem?_iff_mem.mpr newIn)
    have rowed : authorityRow claims fresh clusters (judgment.key, judgment.verdict) =
        some
          { key := (clusters.getD (min oldIdx newIdx) 0, min oldIdx newIdx, max oldIdx newIdx)
            pair :=
              { oldIdx := oldIdx
                newIdx := newIdx
                older := judgment.olderClaim
                newer := judgment.newerClaim
                temporalFailure := none
                cursor := 0 }
            outcome := .judged judgment.verdict (judgment.key ∉ fresh) } := by
      simp only [authorityRow, PairJudgment.key, oldFound, newFound]
    refine ⟨_, ⟨_, ⟨_, Std.ExtTreeMap.mem_toList_iff_getElem?_eq_some.mpr stored, rowed⟩, rfl⟩, ?_⟩
    simp only [judgmentOf, Option.some.injEq]
    rw [← flagged]

variable {Score : Type}

/-- The orientation of a pair no verdict has settled, and why it has none. -/
def RelateInputs.oriented (inputs : RelateInputs Score) (temporal : RelateTemporalPolicy)
    (pair : Nat × Nat) : (Nat × Nat) × Option RelationFailureClass :=
  orderPair inputs.claims pair.1 pair.2 ∅ temporal

/-- The key an unsettled pair is judged under. -/
def RelateInputs.freshKey (inputs : RelateInputs Score) (temporal : RelateTemporalPolicy)
    (pair : Nat × Nat) : ClaimId × ClaimId :=
  (inputs.idAt (inputs.oriented temporal pair).1.1, inputs.idAt (inputs.oriented temporal pair).1.2)

/-- What an unsettled pair answers: the failure of a pair that the source order leaves
concurrent or unknown, else the judge on the oriented texts. -/
def RelateInputs.ask (inputs : RelateInputs Score) (judge : Judge)
    (temporal : RelateTemporalPolicy) (pair : Nat × Nat) :
    Except PairFailureView RelationVerdict :=
  match (inputs.oriented temporal pair).2 with
  | some failureClass => .error { failureClass := failureClass }
  | none =>
    judge (claimAt inputs.claims (inputs.oriented temporal pair).1.1).text
      (claimAt inputs.claims (inputs.oriented temporal pair).1.2).text

/-- An unsettled pair is oriented as if nothing were settled. -/
theorem orderPair_unsettled {inputs : RelateInputs Score} {settled : SettledMap}
    {pair : Nat × Nat} (temporal : RelateTemporalPolicy)
    (unsettled : ¬ inputs.SettledIn settled pair) :
    orderPair inputs.claims pair.1 pair.2 settled temporal = inputs.oriented temporal pair := by
  have sides := not_or.mp unsettled
  simp only [RelateInputs.idAt] at sides
  have forward : settled.contains ((claimAt inputs.claims pair.1).claimId,
      (claimAt inputs.claims pair.2).claimId) = false := by
    rw [← Bool.not_eq_true, Std.ExtTreeMap.contains_iff_mem]
    exact sides.1
  have backward : settled.contains ((claimAt inputs.claims pair.2).claimId,
      (claimAt inputs.claims pair.1).claimId) = false := by
    rw [← Bool.not_eq_true, Std.ExtTreeMap.contains_iff_mem]
    exact sides.2
  simp only [RelateInputs.oriented, orderPair, forward, backward, Std.ExtTreeMap.contains_empty]

/-- A settled pair is oriented the way its verdict is. -/
theorem orderPair_settled {inputs : RelateInputs Score} {settled : SettledMap}
    {pair : Nat × Nat} (temporal : RelateTemporalPolicy)
    (held : inputs.SettledIn settled pair) :
    ∃ ordered : Nat × Nat, orderPair inputs.claims pair.1 pair.2 settled temporal = (ordered, none) ∧
      (inputs.idAt ordered.1, inputs.idAt ordered.2) ∈ settled := by
  by_cases forward : (inputs.idAt pair.1, inputs.idAt pair.2) ∈ settled
  · refine ⟨(pair.1, pair.2), ?_, forward⟩
    rw [← Std.ExtTreeMap.contains_iff_mem] at forward
    simp only [RelateInputs.idAt] at forward
    simp only [orderPair, forward, if_true]
  · have backward := held.resolve_left forward
    refine ⟨(pair.2, pair.1), ?_, backward⟩
    rw [← Std.ExtTreeMap.contains_iff_mem] at forward backward
    simp only [RelateInputs.idAt] at forward backward
    simp only [orderPair, forward, backward, if_true, Bool.false_eq_true, if_false]

/-- A settled pair reuses its verdict and asks nothing. -/
theorem acquire_settled {inputs : RelateInputs Score} {settled : SettledMap} {pair : Nat × Nat}
    (judge : Judge) (temporal : RelateTemporalPolicy) (expired : Nat → Bool) (ordinal : Nat)
    (held : inputs.SettledIn settled pair) :
    ∃ verdict, settled[((inputs.pendingAt settled temporal ordinal pair).older,
        (inputs.pendingAt settled temporal ordinal pair).newer)]? = some verdict ∧
      acquireSequential inputs.claims judge settled expired
        (inputs.pendingAt settled temporal ordinal pair) = ⟨.judged verdict true, false⟩ := by
  obtain ⟨ordered, oriented, member⟩ := orderPair_settled temporal held
  obtain ⟨verdict, lookup⟩ :=
    Option.isSome_iff_exists.mp (Std.ExtTreeMap.isSome_getElem?_iff_mem.mpr member)
  have found : settled[((inputs.pendingAt settled temporal ordinal pair).older,
      (inputs.pendingAt settled temporal ordinal pair).newer)]? = some verdict := by
    simp only [RelateInputs.pendingAt, oriented]
    exact lookup
  exact ⟨verdict, found, by rw [acquireSequential, found]⟩

/-- The pending pair of an unsettled slot. -/
theorem pendingAt_unsettled {inputs : RelateInputs Score} {settled : SettledMap}
    {pair : Nat × Nat} (temporal : RelateTemporalPolicy) (ordinal : Nat)
    (unsettled : ¬ inputs.SettledIn settled pair) :
    inputs.pendingAt settled temporal ordinal pair =
      { oldIdx := (inputs.oriented temporal pair).1.1
        newIdx := (inputs.oriented temporal pair).1.2
        older := (inputs.freshKey temporal pair).1
        newer := (inputs.freshKey temporal pair).2
        temporalFailure := (inputs.oriented temporal pair).2
        cursor := ordinal } := by
  rw [RelateInputs.pendingAt, orderPair_unsettled temporal unsettled]
  rfl

/-- The key of a pair in either orientation. -/
theorem freshKey_cases (inputs : RelateInputs Score) (temporal : RelateTemporalPolicy)
    (pair : Nat × Nat) :
    inputs.freshKey temporal pair = (inputs.idAt pair.1, inputs.idAt pair.2) ∨
      inputs.freshKey temporal pair = (inputs.idAt pair.2, inputs.idAt pair.1) := by
  rcases orderPair_cases inputs.claims pair.1 pair.2 ∅ temporal with forward | backward
  · left
    rw [RelateInputs.freshKey, RelateInputs.oriented, forward]
  · right
    rw [RelateInputs.freshKey, RelateInputs.oriented, backward]

/-- The key of an unsettled pair carries no verdict. -/
theorem freshKey_unsettled {inputs : RelateInputs Score} {settled : SettledMap}
    {pair : Nat × Nat} (temporal : RelateTemporalPolicy)
    (unsettled : ¬ inputs.SettledIn settled pair) :
    settled[inputs.freshKey temporal pair]? = none := by
  have sides := not_or.mp unsettled
  rcases freshKey_cases inputs temporal pair with forward | backward
  · rw [forward]
    exact Std.ExtTreeMap.getElem?_eq_none sides.1
  · rw [backward]
    exact Std.ExtTreeMap.getElem?_eq_none sides.2

/-- An unsettled pair is judged afresh or failed, as its answer says. -/
theorem acquire_unsettled {inputs : RelateInputs Score} {settled : SettledMap} {pair : Nat × Nat}
    (judge : Judge) (temporal : RelateTemporalPolicy) (expired : Nat → Bool) (ordinal : Nat)
    (unsettled : ¬ inputs.SettledIn settled pair) (inTime : expired ordinal = false) :
    acquireSequential inputs.claims judge settled expired
        (inputs.pendingAt settled temporal ordinal pair) =
      match inputs.ask judge temporal pair with
      | .ok verdict => ⟨.judged verdict false, true⟩
      | .error failure => ⟨.failed failure, (inputs.oriented temporal pair).2.isNone⟩ := by
  have absent := freshKey_unsettled temporal unsettled
  rw [pendingAt_unsettled temporal ordinal unsettled, acquireSequential]
  simp only [Prod.mk.eta, absent, RelateInputs.ask]
  cases order : (inputs.oriented temporal pair).2 with
  | some failureClass => rfl
  | none =>
    cases judge (claimAt inputs.claims (inputs.oriented temporal pair).1.1).text
        (claimAt inputs.claims (inputs.oriented temporal pair).1.2).text with
    | ok verdict => simp [inTime]
    | error failure => simp [inTime]

/-- Out of time, an unsettled pair fails and asks nothing. -/
theorem acquire_expired {inputs : RelateInputs Score} {settled : SettledMap} {pair : Nat × Nat}
    (judge : Judge) (temporal : RelateTemporalPolicy) {expired : Nat → Bool} {ordinal : Nat}
    (unsettled : ¬ inputs.SettledIn settled pair) (late : expired ordinal = true) :
    ∃ failure, acquireSequential inputs.claims judge settled expired
      (inputs.pendingAt settled temporal ordinal pair) = ⟨.failed failure, false⟩ := by
  have absent := freshKey_unsettled temporal unsettled
  rw [pendingAt_unsettled temporal ordinal unsettled, acquireSequential]
  simp only [Prod.mk.eta, absent]
  cases (inputs.oriented temporal pair).2 with
  | some failureClass => exact ⟨_, rfl⟩
  | none => exact ⟨budgetExhausted, by simp [late]⟩

/-- The acquired pairs of a page. -/
def RelateInputs.pageAcquired (inputs : RelateInputs Score) (judge : Judge)
    (settled : SettledMap) (options : RelateOptions) : List (PendingPair × PairOutcome) :=
  (inputs.pagePending settled options.temporal options.candidateCursor
    options.candidatePairBudget).map fun pending =>
      (pending, (acquireSequential inputs.claims judge settled options.expired pending).outcome)

/-- A pair has been dealt with: it was settled before, or is now freshly judged. -/
def RelateInputs.Decided (inputs : RelateInputs Score) (settled : SettledMap)
    (judgments : List PairJudgment) (pair : Nat × Nat) : Prop :=
  inputs.SettledIn settled pair ∨
    ∃ judgment ∈ judgments, judgment.reusedAuthority = false ∧
      (judgment.key = (inputs.idAt pair.1, inputs.idAt pair.2) ∨
        judgment.key = (inputs.idAt pair.2, inputs.idAt pair.1))

/-- Inserting the judgments settles what they decide. -/
theorem RelateInputs.Decided.settledIn {inputs : RelateInputs Score} {settled : SettledMap}
    {judgments : List PairJudgment} {pair : Nat × Nat}
    (decided : inputs.Decided settled judgments pair) :
    inputs.SettledIn (judgments.foldl insertJudgment settled) pair := by
  rcases decided with held | ⟨judgment, member, _, forward | backward⟩
  · exact held.imp (fun one => mem_foldl_insertJudgment.mpr (Or.inl one))
      fun other => mem_foldl_insertJudgment.mpr (Or.inl other)
  · exact Or.inl (mem_foldl_insertJudgment.mpr (Or.inr ⟨judgment, member, forward⟩))
  · exact Or.inr (mem_foldl_insertJudgment.mpr (Or.inr ⟨judgment, member, backward⟩))

/-- The slot law of a page: a candidate it examines is dealt with, or failed for a
reason of its own. -/
theorem page_slot {inputs : RelateInputs Score} (judge : Judge) (settled : SettledMap)
    (options : RelateOptions) {ordinal : Nat} {pair : Nat × Nat}
    (atLeast : inputs.pageStart options.candidateCursor ≤ ordinal)
    (below : ordinal < inputs.pageStop options.candidateCursor options.candidatePairBudget)
    (slot : inputs.slot? ordinal = some pair) (candidate : inputs.candidate pair = true) :
    inputs.Decided settled ((inputs.pageAcquired judge settled options).filterMap judgmentOf) pair ∨
      (ordinal ∈ failedCursors (inputs.pageAcquired judge settled options) ∧
        (options.expired ordinal = true ∨
          ∃ failure, inputs.ask judge options.temporal pair = .error failure)) := by
  by_cases held : inputs.SettledIn settled pair
  · exact Or.inl (Or.inl held)
  have pending : inputs.pendingAt settled options.temporal ordinal pair ∈
      inputs.pagePending settled options.temporal options.candidateCursor
        options.candidatePairBudget :=
    mem_pagePending.mpr ⟨ordinal, pair, atLeast, below, slot, candidate, rfl⟩
  have acquired : (inputs.pendingAt settled options.temporal ordinal pair,
      (acquireSequential inputs.claims judge settled options.expired
        (inputs.pendingAt settled options.temporal ordinal pair)).outcome) ∈
      inputs.pageAcquired judge settled options := List.mem_map.mpr ⟨_, pending, rfl⟩
  have failed : ∀ failure, (acquireSequential inputs.claims judge settled options.expired
      (inputs.pendingAt settled options.temporal ordinal pair)).outcome = .failed failure →
      ordinal ∈ failedCursors (inputs.pageAcquired judge settled options) := by
    intro failure outcome
    rw [failedCursors, List.mem_filterMap]
    exact ⟨_, acquired, by rw [outcome]; rfl⟩
  by_cases late : options.expired ordinal = true
  · obtain ⟨failure, outcome⟩ := acquire_expired judge options.temporal held late
    exact Or.inr ⟨failed failure (by rw [outcome]), Or.inl late⟩
  rw [Bool.not_eq_true] at late
  have outcome := acquire_unsettled judge options.temporal options.expired ordinal held late
  cases answer : inputs.ask judge options.temporal pair with
  | error failure =>
    rw [answer] at outcome
    exact Or.inr ⟨failed failure (by rw [outcome]), Or.inr ⟨failure, rfl⟩⟩
  | ok verdict =>
    rw [answer] at outcome
    rw [outcome, pendingAt_unsettled options.temporal ordinal held] at acquired
    left
    right
    refine ⟨_, List.mem_filterMap.mpr ⟨_, acquired, rfl⟩, rfl, ?_⟩
    exact freshKey_cases inputs options.temporal pair

/-- Whatever fails in a page is one of its slots. -/
theorem failedCursors_bounds {inputs : RelateInputs Score} {judge : Judge} {settled : SettledMap}
    {options : RelateOptions} {cursor : Nat}
    (failed : cursor ∈ failedCursors (inputs.pageAcquired judge settled options)) :
    inputs.pageStart options.candidateCursor ≤ cursor ∧
      cursor < inputs.pageStop options.candidateCursor options.candidatePairBudget ∧
      ∃ pair, inputs.slot? cursor = some pair ∧ inputs.candidate pair = true ∧
        ¬ inputs.SettledIn settled pair ∧
        (options.expired cursor = true ∨
          ∃ failure, inputs.ask judge options.temporal pair = .error failure) := by
  rw [failedCursors, List.mem_filterMap] at failed
  obtain ⟨_, acquired, taken⟩ := failed
  obtain ⟨_, pending, rfl⟩ := List.mem_map.mp acquired
  obtain ⟨ordinal, pair, atLeast, below, slot, candidate, rfl⟩ := mem_pagePending.mp pending
  have unsettled : ¬ inputs.SettledIn settled pair := by
    intro held
    obtain ⟨verdict, _, outcome⟩ :=
      acquire_settled judge options.temporal options.expired ordinal held
    rw [outcome] at taken
    cases taken
  have same : ordinal = cursor := by
    split at taken
    · exact Option.some.inj taken
    · cases taken
  subst same
  refine ⟨atLeast, below, pair, slot, candidate, unsettled, ?_⟩
  by_cases late : options.expired ordinal = true
  · exact Or.inl late
  · rw [Bool.not_eq_true] at late
    have outcome := acquire_unsettled judge options.temporal options.expired ordinal unsettled late
    cases answer : inputs.ask judge options.temporal pair with
    | error failure => exact Or.inr ⟨failure, rfl⟩
    | ok verdict =>
      rw [answer] at outcome
      rw [outcome] at taken
      cases taken

/-- The cursor an incomplete pass asks to be resumed at. -/
def RelateOutcome.nextCursor : RelateOutcome → Option Nat
  | .complete _ => none
  | .incomplete outcome => some outcome.nextCandidateCursor

/-- A freshly judged pair of the page is reported fresh by the whole reduction. -/
theorem RelateInputs.Decided.authoritative {inputs : RelateInputs Score} {settled : SettledMap}
    {judgments : List PairJudgment} {pair : Nat × Nat}
    (decided : inputs.Decided settled judgments pair)
    (inside : pair.1 < inputs.claims.length ∧ pair.2 < inputs.claims.length) (clusters : List Nat) :
    inputs.Decided settled
      ((authoritativePairs inputs.claims (judgments.foldl insertJudgment settled)
        ((judgments.filter fun judgment => !judgment.reusedAuthority).map PairJudgment.key)
        clusters).filterMap judgmentOf) pair := by
  rcases decided with held | ⟨judgment, member, fresh, key⟩
  · exact Or.inl held
  · right
    have indexed : ∀ idx, idx < inputs.claims.length →
        (inputs.idAt idx).value ∈ indexById inputs.claims := by
      intro idx below
      have found : claimAt inputs.claims idx = inputs.claims[idx] := by
        simp [claimAt, List.getD_eq_getElem?_getD, below]
      have member : claimAt inputs.claims idx ∈ inputs.claims := by
        rw [found]
        exact List.getElem_mem below
      obtain ⟨at_, lookup⟩ := indexById_isSome member
      exact Std.ExtTreeMap.isSome_getElem?_iff_mem.mp (Option.isSome_iff_exists.mpr ⟨at_, lookup⟩)
    have stored : judgment.key ∈ judgments.foldl insertJudgment settled :=
      mem_foldl_insertJudgment.mpr (Or.inr ⟨judgment, member, rfl⟩)
    obtain ⟨verdict, lookup⟩ :=
      Option.isSome_iff_exists.mp (Std.ExtTreeMap.isSome_getElem?_iff_mem.mpr stored)
    have listed : judgment.key ∈ (judgments.filter fun judgment =>
        !judgment.reusedAuthority).map PairJudgment.key :=
      List.mem_map.mpr ⟨judgment, List.mem_filter.mpr ⟨member, by simp [fresh]⟩, rfl⟩
    refine ⟨⟨judgment.key.1, judgment.key.2, verdict, false⟩,
      mem_authoritative_judgments.mpr ⟨lookup, ?_, ?_, ?_⟩, rfl, key⟩
    · rcases key with forward | backward
      · rw [forward]
        exact indexed _ inside.1
      · rw [backward]
        exact indexed _ inside.2
    · rcases key with forward | backward
      · rw [forward]
        exact indexed _ inside.2
      · rw [backward]
        exact indexed _ inside.1
    · symm
      rw [decide_eq_false_iff_not, not_not]
      exact listed

/-- What a page of these inputs knows besides its pairs. -/
def RelateInputs.pageCompletion (inputs : RelateInputs Score) (settled : SettledMap)
    (options : RelateOptions) : PageCompletion where
  settled := settled
  claimClusters := List.replicate inputs.claims.length 0
  examinedPairs := inputs.pageStop options.candidateCursor options.candidatePairBudget -
    inputs.pageStart options.candidateCursor
  candidatePairBudget := options.candidatePairBudget
  nextCursor :=
    if inputs.pageStop options.candidateCursor options.candidatePairBudget < inputs.total then
      some (inputs.pageStop options.candidateCursor options.candidatePairBudget)
    else none

/-- The keys a page asks the judge about, in order. -/
def RelateInputs.pageAsked (inputs : RelateInputs Score) (judge : Judge) (settled : SettledMap)
    (options : RelateOptions) : List (ClaimId × ClaimId) :=
  ((inputs.pagePending settled options.temporal options.candidateCursor
    options.candidatePairBudget).filter fun pending =>
      (acquireSequential inputs.claims judge settled options.expired pending).asked).map
    fun pending => (pending.older, pending.newer)

/-- A page that leaves slots behind names the first of them. -/
theorem pageCompletion_nextCursor {inputs : RelateInputs Score} {settled : SettledMap}
    {options : RelateOptions} {next : Nat} :
    (inputs.pageCompletion settled options).nextCursor = some next ↔
      next < inputs.total ∧
        next = inputs.pageStop options.candidateCursor options.candidatePairBudget := by
  simp only [RelateInputs.pageCompletion]
  by_cases more : inputs.pageStop options.candidateCursor options.candidatePairBudget < inputs.total
  · rw [if_pos more, Option.some.injEq]
    omega
  · rw [if_neg more]
    constructor
    · intro absurd_
      cases absurd_
    · omega

/-- The slots after a page all lie beyond the cursor it names. -/
theorem pageStop_of_nextCursor_none {inputs : RelateInputs Score} {settled : SettledMap}
    {options : RelateOptions} (last : (inputs.pageCompletion settled options).nextCursor = none) :
    inputs.pageStop options.candidateCursor options.candidatePairBudget = inputs.total := by
  by_cases more : inputs.pageStop options.candidateCursor options.candidatePairBudget < inputs.total
  · have named : (inputs.pageCompletion settled options).nextCursor = some _ :=
      pageCompletion_nextCursor.mpr ⟨more, rfl⟩
    rw [last] at named
    cases named
  · simp only [RelateInputs.pageStop] at more ⊢
    omega

variable [Blake3]

/-- An incomplete page reports its own judgments, and resumes at the earliest failed
pair or at the page end. -/
theorem finishPage_incomplete {claims : List ClaimView} {temporal : RelateTemporalPolicy}
    {acquired : List (PendingPair × PairOutcome)} {page : PageCompletion} {next : Nat}
    (resumes : (finishPage claims temporal acquired page).nextCursor = some next) :
    (finishPage claims temporal acquired page).judgments = acquired.filterMap judgmentOf ∧
      (next ∈ failedCursors acquired ∨ page.nextCursor = some next) ∧
      (∀ cursor ∈ failedCursors acquired, next ≤ cursor) ∧
      (∀ cursor, page.nextCursor = some cursor → next ≤ cursor) := by
  rw [finishPage] at resumes ⊢
  cases resume : ((failedCursors acquired).min?.toList ++ page.nextCursor.toList).min? with
  | none =>
    simp only [resume] at resumes
    cases resumes
  | some cursor =>
    simp only [resume] at resumes ⊢
    have same : cursor = next := Option.some.inj resumes
    subst same
    obtain ⟨member, least⟩ := List.min?_eq_some_iff.mp resume
    have bounded : ∀ failed ∈ failedCursors acquired, cursor ≤ failed := by
      intro failed inside
      cases earliest : (failedCursors acquired).min? with
      | none =>
        rw [List.min?_eq_none_iff] at earliest
        rw [earliest] at inside
        cases inside
      | some first =>
        have atMost := (List.min?_eq_some_iff.mp earliest).2 failed inside
        have lower := least first (by simp [earliest])
        omega
    refine ⟨judgments_reduceOutcomes claims temporal acquired, ?_, bounded, ?_⟩
    · rcases List.mem_append.mp member with failed | stop
      · left
        exact List.min?_mem (Option.mem_toList.mp failed)
      · right
        exact Option.mem_toList.mp stop
    · intro stop more
      exact least stop (by simp [more])

/-- A completed page failed nowhere, ends the order, and reports its whole authority. -/
theorem finishPage_complete {claims : List ClaimView} {temporal : RelateTemporalPolicy}
    {acquired : List (PendingPair × PairOutcome)} {page : PageCompletion}
    (done : (finishPage claims temporal acquired page).nextCursor = none) :
    failedCursors acquired = [] ∧ page.nextCursor = none ∧
      (finishPage claims temporal acquired page).judgments =
        (authoritativePairs claims
          ((acquired.filterMap judgmentOf).foldl insertJudgment page.settled)
          (((acquired.filterMap judgmentOf).filter fun judgment =>
            !judgment.reusedAuthority).map PairJudgment.key)
          page.claimClusters).filterMap judgmentOf := by
  rw [finishPage] at done ⊢
  cases resume : ((failedCursors acquired).min?.toList ++ page.nextCursor.toList).min? with
  | some cursor =>
    simp only [resume] at done
    cases done
  | none =>
    rw [List.min?_eq_none_iff, List.append_eq_nil_iff, Option.toList_eq_nil_iff,
      Option.toList_eq_nil_iff, List.min?_eq_none_iff] at resume
    refine ⟨resume.1, resume.2, ?_⟩
    simp only [RelateOutcome.judgments, judgments_reduceOutcomes]
    rfl

/-- The outcome of a page of these inputs. -/
def RelateInputs.pageOutcome (inputs : RelateInputs Score) (judge : Judge)
    (settled : SettledMap) (options : RelateOptions) : RelateOutcome :=
  finishPage inputs.claims options.temporal (inputs.pageAcquired judge settled options)
    (inputs.pageCompletion settled options)

/-- A pass over at least two claims is the page it prepares. -/
theorem relateClaimsSettled_eq (inputs : RelateInputs Score) (judge : Judge)
    (settled : SettledMap) (options : RelateOptions) (several : 2 ≤ inputs.claims.length) :
    relateClaimsSettled inputs.claims inputs.embedder judge inputs.thresholds settled options =
      .ok
        { outcome := inputs.pageOutcome judge settled options
          asked := inputs.pageAsked judge settled options } := by
  have prepared := preparePairs_eq inputs settled options.temporal options.candidatePairBudget
    options.candidateCursor several
  rw [relateClaimsSettled, prepared]
  simp only [acquirePage, List.map_map, List.filter_map]
  rfl

/-- A pass over fewer claims has nothing to do. -/
theorem relateClaimsSettled_few {inputs : RelateInputs Score} (judge : Judge)
    (settled : SettledMap) (options : RelateOptions) (few : inputs.claims.length < 2) :
    relateClaimsSettled inputs.claims inputs.embedder judge inputs.thresholds settled options =
      .ok { outcome := .default, asked := [] } := by
  rw [relateClaimsSettled, preparePairs, if_pos few]

/-- Where a page resumes: at its end, or at a slot inside it that failed. -/
theorem pageOutcome_resumes {inputs : RelateInputs Score} {judge : Judge} {settled : SettledMap}
    {options : RelateOptions} {next : Nat}
    (resume : (inputs.pageOutcome judge settled options).nextCursor = some next) :
    inputs.pageStart options.candidateCursor ≤ next ∧ next < inputs.total ∧
      (next = inputs.pageStop options.candidateCursor options.candidatePairBudget ∨
        next < inputs.pageStop options.candidateCursor options.candidatePairBudget ∧
          ∃ pair, inputs.slot? next = some pair ∧ inputs.candidate pair = true ∧
            ¬ inputs.SettledIn settled pair ∧ (options.expired next = true ∨
              ∃ failure, inputs.ask judge options.temporal pair = .error failure)) := by
  obtain ⟨_, source, _, _⟩ := finishPage_incomplete resume
  have stop : inputs.pageStart options.candidateCursor ≤
      inputs.pageStop options.candidateCursor options.candidatePairBudget := by
    simp only [RelateInputs.pageStop, RelateInputs.pageStart]
    omega
  rcases source with failed | last
  · obtain ⟨atLeast, below, pair, slot, why⟩ := failedCursors_bounds failed
    exact ⟨atLeast, (RelateInputs.slot?_bounds slot).1, Or.inr ⟨below, pair, slot, why⟩⟩
  · obtain ⟨below, same⟩ := pageCompletion_nextCursor.mp last
    exact ⟨by omega, below, Or.inl same⟩

/-- What a page decides, its outcome reports. -/
theorem pageOutcome_reports {inputs : RelateInputs Score} {judge : Judge} {settled : SettledMap}
    {options : RelateOptions} {ordinal : Nat} {pair : Nat × Nat}
    (slot : inputs.slot? ordinal = some pair)
    (decided : inputs.Decided settled
      ((inputs.pageAcquired judge settled options).filterMap judgmentOf) pair) :
    inputs.Decided settled (inputs.pageOutcome judge settled options).judgments pair := by
  cases resume : (inputs.pageOutcome judge settled options).nextCursor with
  | some next =>
    rw [RelateInputs.pageOutcome, (finishPage_incomplete resume).1]
    exact decided
  | none =>
    obtain ⟨_, less, below⟩ := RelateInputs.slot?_bounds slot
    rw [RelateInputs.pageOutcome, (finishPage_complete resume).2.2]
    exact decided.authoritative ⟨by omega, below⟩ _

/-- Every candidate slot before the cursor a page resumes at is dealt with. -/
theorem pageOutcome_passes {inputs : RelateInputs Score} {judge : Judge} {settled : SettledMap}
    {options : RelateOptions} {ordinal : Nat} {pair : Nat × Nat}
    (slot : inputs.slot? ordinal = some pair) (candidate : inputs.candidate pair = true)
    (atLeast : inputs.pageStart options.candidateCursor ≤ ordinal)
    (before : ∀ next, (inputs.pageOutcome judge settled options).nextCursor = some next →
      ordinal < next) :
    inputs.Decided settled (inputs.pageOutcome judge settled options).judgments pair := by
  apply pageOutcome_reports slot
  have bounds := RelateInputs.slot?_bounds slot
  cases resume : (inputs.pageOutcome judge settled options).nextCursor with
  | some next =>
    have earlier := before next resume
    obtain ⟨_, _, leastFailed, leastStop⟩ := finishPage_incomplete resume
    have below : ordinal <
        inputs.pageStop options.candidateCursor options.candidatePairBudget := by
      cases last : (inputs.pageCompletion settled options).nextCursor with
      | none =>
        have stop := pageStop_of_nextCursor_none last
        omega
      | some stop =>
        have reach := leastStop stop last
        have named := pageCompletion_nextCursor.mp last
        omega
    rcases page_slot judge settled options atLeast below slot candidate with decided | failed
    · exact decided
    · have bound := leastFailed _ failed.1
      omega
  | none =>
    obtain ⟨noFailure, noStop, _⟩ := finishPage_complete resume
    have stop := pageStop_of_nextCursor_none noStop
    have below : ordinal <
        inputs.pageStop options.candidateCursor options.candidatePairBudget := by omega
    rcases page_slot judge settled options atLeast below slot candidate with decided | failed
    · exact decided
    · rw [noFailure] at failed
      cases failed.1

/-- Every candidate slot of a page that can be judged in time is dealt with. -/
theorem pageOutcome_answers {inputs : RelateInputs Score} {judge : Judge} {settled : SettledMap}
    {options : RelateOptions} {ordinal : Nat} {pair : Nat × Nat} {verdict : RelationVerdict}
    (slot : inputs.slot? ordinal = some pair) (candidate : inputs.candidate pair = true)
    (atLeast : inputs.pageStart options.candidateCursor ≤ ordinal)
    (below : ordinal < inputs.pageStop options.candidateCursor options.candidatePairBudget)
    (inTime : options.expired ordinal = false)
    (answer : inputs.ask judge options.temporal pair = .ok verdict) :
    inputs.Decided settled (inputs.pageOutcome judge settled options).judgments pair := by
  apply pageOutcome_reports slot
  rcases page_slot judge settled options atLeast below slot candidate with decided | failed
  · exact decided
  · rcases failed.2 with late | ⟨failure, refused⟩
    · rw [inTime] at late
      cases late
    · rw [answer] at refused
      cases refused

end Texo.Semantics
