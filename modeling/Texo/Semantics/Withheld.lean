import Texo.Semantics.Successors

/-! # What a reduction withholds

A reduction leaves every verdict it was given somewhere: a supersession has a winner, a conflict
has an entry, and each of these is published, held, or dropped because one of its sides is
superseded. What a doubt touches is held.
-/
namespace Texo.Semantics
open Texo.Events Texo.Knowledge Texo.Foundation

/-- What a reduction keeps of the pairs it has folded so far. -/
structure PairReduction.Covers (reduction : PairReduction)
    (pairs : List (PendingPair × PairOutcome)) : Prop where
  superseded : ∀ pair ∈ pairs, ∀ scorePpm reused, pair.2 = .judged ⟨.supersedes, scorePpm⟩ reused →
    pair.1.oldIdx ∈ reduction.winners
  conflicting : ∀ pair ∈ pairs, ∀ scorePpm reused, pair.2 = .judged ⟨.conflict, scorePpm⟩ reused →
    (min pair.1.oldIdx pair.1.newIdx, max pair.1.oldIdx pair.1.newIdx) ∈ reduction.conflictPairs
  judged : ∀ pair ∈ pairs, ∀ verdict reused, pair.2 = .judged verdict reused →
    ⟨pair.1.older, pair.1.newer, verdict, reused⟩ ∈ reduction.judgments

/-- Noting a winner keeps the old claims that have one and adds its own. -/
theorem mem_noteWinner {reduction : PairReduction} {claims : List ClaimView}
    {temporal : RelateTemporalPolicy} {oldIdx newIdx idx : Nat}
    (known : idx ∈ reduction.winners ∨ idx = oldIdx) :
    idx ∈ (reduction.noteWinner claims temporal oldIdx newIdx).winners := by
  have inserted : idx ∈ reduction.winners.insert oldIdx newIdx := by
    rw [Std.ExtTreeMap.mem_insert]
    rcases known with earlier | own
    · exact Or.inr earlier
    · exact Or.inl (Std.LawfulEqCmp.compare_eq_iff_eq.mpr own.symm)
  unfold PairReduction.noteWinner
  cases found : reduction.winners[oldIdx]? with
  | none => exact inserted
  | some current =>
    have kept : idx ∈ reduction.winners := by
      rcases known with earlier | own
      · exact earlier
      · rw [own]
        exact Std.ExtTreeMap.isSome_getElem?_iff_mem.mp (by rw [found]; rfl)
    simp only
    cases compareSuccessors claims current newIdx temporal with
    | candidate => exact inserted
    | current => exact kept
    | ambiguous =>
      show idx ∈ if laterInSequence claims current newIdx then
        reduction.winners.insert oldIdx newIdx else reduction.winners
      by_cases later : laterInSequence claims current newIdx = true
      · rw [if_pos later]
        exact inserted
      · rw [if_neg later]
        exact kept

/-- Noting a winner changes nothing but the winners and the ambiguous ones. -/
theorem noteWinner_rest (reduction : PairReduction) (claims : List ClaimView)
    (temporal : RelateTemporalPolicy) (oldIdx newIdx : Nat) :
    (reduction.noteWinner claims temporal oldIdx newIdx).conflictPairs = reduction.conflictPairs ∧
      (reduction.noteWinner claims temporal oldIdx newIdx).judgments = reduction.judgments ∧
      (reduction.noteWinner claims temporal oldIdx newIdx).unresolved = reduction.unresolved := by
  unfold PairReduction.noteWinner
  cases reduction.winners[oldIdx]? with
  | none => exact ⟨rfl, rfl, rfl⟩
  | some current =>
    simp only
    cases compareSuccessors claims current newIdx temporal with
    | candidate => exact ⟨rfl, rfl, rfl⟩
    | current => exact ⟨rfl, rfl, rfl⟩
    | ambiguous => exact ⟨rfl, rfl, rfl⟩

/-- The step law of a reduction's coverage. -/
theorem PairReduction.Covers.collectPair {reduction : PairReduction}
    {pairs : List (PendingPair × PairOutcome)} (covers : reduction.Covers pairs)
    (claims : List ClaimView) (temporal : RelateTemporalPolicy)
    (pair : PendingPair × PairOutcome) :
    (Semantics.collectPair claims temporal reduction pair).Covers (pairs ++ [pair]) := by
  obtain ⟨pending, outcome⟩ := pair
  have extended : ∀ {P : PendingPair × PairOutcome → Prop}, (∀ other ∈ pairs, P other) →
      P (pending, outcome) → ∀ other ∈ pairs ++ [(pending, outcome)], P other := by
    intro P earlier own other member
    rcases List.mem_append.mp member with old | last
    · exact earlier other old
    · rw [List.mem_singleton.mp last]
      exact own
  cases outcome with
  | failed failure =>
    exact ⟨extended covers.superseded (fun _ _ same => by cases same),
      extended covers.conflicting (fun _ _ same => by cases same),
      extended covers.judged (fun _ _ same => by cases same)⟩
  | judged verdict reused =>
    have judged : ∀ other ∈ pairs ++ [(pending, PairOutcome.judged verdict reused)],
        ∀ given known, other.2 = .judged given known →
          (⟨other.1.older, other.1.newer, given, known⟩ : PairJudgment) ∈
            reduction.judgments ++ [⟨pending.older, pending.newer, verdict, reused⟩] := by
      apply extended
      · intro other member given known same
        exact List.mem_append_left _ (covers.judged other member given known same)
      · intro given known same
        obtain ⟨rfl, rfl⟩ := PairOutcome.judged.inj same
        exact List.mem_append_right _ (List.mem_singleton.mpr rfl)
    obtain ⟨relation, score⟩ := verdict
    cases relation with
    | supersedes =>
      obtain ⟨conflicts, judgments, _⟩ := noteWinner_rest
        { reduction with judgments := reduction.judgments ++
            [⟨pending.older, pending.newer, ⟨.supersedes, score⟩, reused⟩] }
        claims temporal pending.oldIdx pending.newIdx
      refine ⟨extended ?_ ?_, extended ?_ (fun _ _ same => by cases same), ?_⟩
      · intro other member scorePpm known same
        exact mem_noteWinner (Or.inl (covers.superseded other member scorePpm known same))
      · intro _ _ _
        exact mem_noteWinner (Or.inr rfl)
      · intro other member scorePpm known same
        show _ ∈ (PairReduction.noteWinner _ _ _ _ _).conflictPairs
        rw [conflicts]
        exact covers.conflicting other member scorePpm known same
      · intro other member given known same
        show _ ∈ (PairReduction.noteWinner _ _ _ _ _).judgments
        rw [judgments]
        exact judged other member given known same
    | conflict =>
      refine ⟨extended covers.superseded (fun _ _ same => by cases same), extended ?_ ?_, judged⟩
      · intro other member scorePpm known same
        exact List.mem_append_left _ (covers.conflicting other member scorePpm known same)
      · intro _ _ _
        exact List.mem_append_right _ (List.mem_singleton.mpr rfl)
    | duplicate =>
      exact ⟨extended covers.superseded (fun _ _ same => by cases same),
        extended covers.conflicting (fun _ _ same => by cases same), judged⟩
    | unrelated =>
      exact ⟨extended covers.superseded (fun _ _ same => by cases same),
        extended covers.conflicting (fun _ _ same => by cases same), judged⟩

/-- A reduction covers the pairs it was given. -/
theorem covers_collectPairReduction (claims : List ClaimView) (temporal : RelateTemporalPolicy)
    (acquired : List (PendingPair × PairOutcome)) :
    (collectPairReduction claims temporal acquired).Covers acquired := by
  induction acquired using List.reverseRecOn with
  | nil => exact ⟨by simp, by simp, by simp⟩
  | append_singleton earlier pair ih =>
    unfold collectPairReduction at ih ⊢
    rw [List.foldl_append]
    exact ih.collectPair claims temporal pair

/-- The claims a doubt touches: those of an unresolved pair, and those whose winner is
ambiguous. -/
def PairReduction.tainted (reduction : PairReduction) (claims : List ClaimView) : List ClaimId :=
  (reduction.unresolved.flatMap fun pair => [pair.oldClaim, pair.newClaim]) ++
    reduction.ambiguousWinners.map fun idx => (claimAt claims idx).claimId

/-- The decision a held winner becomes. -/
def heldWinner (claims : List ClaimView) (winner : Nat × Nat) : HeldDecision :=
  .supersession (claimAt claims winner.1).claimId (claimAt claims winner.2).claimId
    (supersessionReason (claimAt claims winner.2))

/-- The winners whose stale claim a doubt touches are held. -/
theorem held_reduceSupersessions (claims : List ClaimView) (winners : Std.ExtTreeMap Nat Nat)
    (tainted : List ClaimId) :
    (reduceSupersessions claims winners tainted).held =
      (winners.toList.filter fun winner => (claimAt claims winner.1).claimId ∈ tainted).map
        (heldWinner claims) := by
  have folded : ∀ (rest : List (Nat × Nat)) (reduced : ReducedSupersessions),
      (rest.foldl (reduceWinner claims tainted) reduced).held = reduced.held ++
        (rest.filter fun winner => (claimAt claims winner.1).claimId ∈ tainted).map
          (heldWinner claims) := by
    intro rest
    induction rest with
    | nil => simp
    | cons winner rest ih =>
      intro reduced
      rw [List.foldl_cons, ih]
      unfold reduceWinner
      by_cases held : (claimAt claims winner.1).claimId ∈ tainted
      · simp [held, heldWinner, List.append_assoc]
      · simp [held]
  exact folded winners.toList {}

/-- Every winner is published or held. -/
theorem winner_decided {claims : List ClaimView} {winners : Std.ExtTreeMap Nat Nat}
    (tainted : List ClaimId) {old new : Nat} (won : winners[old]? = some new) :
    winnerEdge claims (old, new) ∈ (reduceSupersessions claims winners tainted).supersessions ∨
      heldWinner claims (old, new) ∈ (reduceSupersessions claims winners tainted).held := by
  have listed : (old, new) ∈ winners.toList :=
    Std.ExtTreeMap.mem_toList_iff_getElem?_eq_some.mpr won
  by_cases doubted : (claimAt claims old).claimId ∈ tainted
  · right
    rw [held_reduceSupersessions]
    exact List.mem_map_of_mem (List.mem_filter.mpr ⟨listed, by simpa using doubted⟩)
  · left
    rw [(reduceSupersessions_perm claims winners tainted).1.mem_iff]
    exact List.mem_map_of_mem (List.mem_filter.mpr ⟨listed, by simpa using doubted⟩)

/-- What no doubt touches alone is superseded, and every superseded claim has its edge. -/
theorem mem_superseded {claims : List ClaimView} {winners : Std.ExtTreeMap Nat Nat}
    {tainted : List ClaimId} {claim : ClaimId} :
    claim ∈ (reduceSupersessions claims winners tainted).superseded ↔
      ∃ edge ∈ (reduceSupersessions claims winners tainted).supersessions,
        edge.oldClaim = claim := by
  obtain ⟨edges, olds⟩ := reduceSupersessions_perm claims winners tainted
  rw [olds, List.mem_map]
  constructor
  · rintro ⟨winner, kept, same⟩
    exact ⟨winnerEdge claims winner, edges.mem_iff.mpr (List.mem_map_of_mem kept), same⟩
  · rintro ⟨edge, member, same⟩
    obtain ⟨winner, kept, rfl⟩ := List.mem_map.mp (edges.mem_iff.mp member)
    exact ⟨winner, kept, same⟩

/-- No edge retires a claim that a doubt touches. -/
theorem notMem_tainted_of_edge {claims : List ClaimView} {winners : Std.ExtTreeMap Nat Nat}
    {tainted : List ClaimId} {edge : SupersessionEdge}
    (member : edge ∈ (reduceSupersessions claims winners tainted).supersessions) :
    edge.oldClaim ∉ tainted := by
  obtain ⟨winner, kept, rfl⟩ :=
    List.mem_map.mp ((reduceSupersessions_perm claims winners tainted).1.mem_iff.mp member)
  have clear : (claimAt claims winner.1).claimId ∉ tainted := by
    simpa using (List.mem_filter.mp kept).2
  exact clear

variable [Blake3]

/-- The decision a held conflict becomes. -/
def heldConflict (entry : ConflictEntry) : HeldDecision :=
  .conflict entry.conflictId entry.claimA entry.claimB entry.reason

/-- Where the conflicts folded so far have gone. -/
structure ReducedConflicts.Decides (reduced : ReducedConflicts) (claims : List ClaimView)
    (pairs : List (Nat × Nat)) (tainted superseded : List ClaimId) : Prop where
  untouched : ∀ entry ∈ reduced.conflicts, entry.claimA ∉ tainted ∧ entry.claimB ∉ tainted
  noticed : ∀ pair ∈ pairs, (conflictEntry claims pair).conflictId ∈ reduced.seen
  decided : ∀ conflictId ∈ reduced.seen, ∃ pair ∈ pairs,
    (conflictEntry claims pair).conflictId = conflictId ∧
      (conflictEntry claims pair ∈ reduced.conflicts ∨
        heldConflict (conflictEntry claims pair) ∈ reduced.held ∨
        (conflictEntry claims pair).claimA ∈ superseded ∨
        (conflictEntry claims pair).claimB ∈ superseded)
  held : ∀ decision ∈ reduced.held, ∃ pair ∈ pairs,
    decision = heldConflict (conflictEntry claims pair)

/-- The step law of decided conflicts. -/
theorem ReducedConflicts.Decides.reduceConflict {reduced : ReducedConflicts}
    {claims : List ClaimView} {pairs : List (Nat × Nat)} {tainted superseded : List ClaimId}
    (decides : reduced.Decides claims pairs tainted superseded) (pair : Nat × Nat) :
    (Semantics.reduceConflict claims tainted superseded reduced pair).Decides claims
      (pairs ++ [pair]) tainted superseded := by
  have widened : ∀ {P : Nat × Nat → Prop}, (∃ other ∈ pairs, P other) →
      ∃ other ∈ pairs ++ [pair], P other := by
    rintro P ⟨other, member, holds⟩
    exact ⟨other, List.mem_append_left _ member, holds⟩
  have own : pair ∈ pairs ++ [pair] := List.mem_append_right _ (List.mem_singleton.mpr rfl)
  have noticed : ∀ seen : List ConflictId, (∀ conflictId ∈ reduced.seen, conflictId ∈ seen) →
      (conflictEntry claims pair).conflictId ∈ seen →
      ∀ other ∈ pairs ++ [pair], (conflictEntry claims other).conflictId ∈ seen := by
    intro seen kept here other member
    rcases List.mem_append.mp member with earlier | last
    · exact kept _ (decides.noticed other earlier)
    · rw [List.mem_singleton.mp last]
      exact here
  unfold Semantics.reduceConflict
  simp only
  by_cases repeated : (conflictEntry claims pair).conflictId ∈ reduced.seen
  · rw [if_pos repeated]
    exact ⟨decides.untouched, noticed reduced.seen (fun _ member => member) repeated,
      fun conflictId member => widened (decides.decided conflictId member),
      fun decision member => widened (decides.held decision member)⟩
  rw [if_neg repeated]
  have noted := noticed (reduced.seen ++ [(conflictEntry claims pair).conflictId])
    (fun _ member => List.mem_append_left _ member)
    (List.mem_append_right _ (List.mem_singleton.mpr rfl))
  by_cases doubted : (conflictEntry claims pair).claimA ∈ tainted ∨
      (conflictEntry claims pair).claimB ∈ tainted
  · rw [if_pos doubted]
    refine ⟨decides.untouched, noted, ?_, ?_⟩
    · intro conflictId member
      rcases List.mem_append.mp member with earlier | last
      · obtain ⟨other, inside, same, outcome⟩ := decides.decided conflictId earlier
        refine ⟨other, List.mem_append_left _ inside, same, ?_⟩
        exact outcome.imp_right fun rest => rest.imp_left fun held => List.mem_append_left _ held
      · refine ⟨pair, own, (List.mem_singleton.mp last).symm, Or.inr (Or.inl ?_)⟩
        exact List.mem_append_right _ (List.mem_singleton.mpr rfl)
    · intro decision member
      rcases List.mem_append.mp member with earlier | last
      · exact widened (decides.held decision earlier)
      · exact ⟨pair, own, List.mem_singleton.mp last⟩
  rw [if_neg doubted]
  by_cases current : (conflictEntry claims pair).claimA ∉ superseded ∧
      (conflictEntry claims pair).claimB ∉ superseded
  · rw [if_pos current]
    refine ⟨?_, noted, ?_, fun decision member => widened (decides.held decision member)⟩
    · intro entry member
      rcases List.mem_append.mp member with earlier | last
      · exact decides.untouched entry earlier
      · rw [List.mem_singleton.mp last]
        exact not_or.mp doubted
    · intro conflictId member
      rcases List.mem_append.mp member with earlier | last
      · obtain ⟨other, inside, same, outcome⟩ := decides.decided conflictId earlier
        exact ⟨other, List.mem_append_left _ inside, same,
          outcome.imp_left fun kept => List.mem_append_left _ kept⟩
      · refine ⟨pair, own, (List.mem_singleton.mp last).symm, Or.inl ?_⟩
        exact List.mem_append_right _ (List.mem_singleton.mpr rfl)
  · rw [if_neg current]
    refine ⟨decides.untouched, noted, ?_, fun decision member =>
      widened (decides.held decision member)⟩
    intro conflictId member
    rcases List.mem_append.mp member with earlier | last
    · exact widened (decides.decided conflictId earlier)
    · refine ⟨pair, own, (List.mem_singleton.mp last).symm, Or.inr (Or.inr ?_)⟩
      by_cases first : (conflictEntry claims pair).claimA ∈ superseded
      · exact Or.inl first
      · by_cases second : (conflictEntry claims pair).claimB ∈ superseded
        · exact Or.inr second
        · exact absurd ⟨first, second⟩ current

/-- Where the conflicts of a reduction go. -/
theorem reduceConflicts_decides (claims : List ClaimView) (pairs : List (Nat × Nat))
    (tainted superseded : List ClaimId) :
    (reduceConflicts claims pairs tainted superseded).Decides claims pairs tainted superseded := by
  have folded : (pairs.foldl (reduceConflict claims tainted superseded) {}).Decides claims pairs
      tainted superseded := by
    induction pairs using List.reverseRecOn with
    | nil => exact ⟨by simp, by simp, by simp, by simp⟩
    | append_singleton earlier pair ih =>
      rw [List.foldl_append]
      exact ih.reduceConflict pair
  have sorted := List.perm_insertionSort
    (fun x y : ConflictEntry => x.conflictId.value ≤ y.conflictId.value)
    (pairs.foldl (reduceConflict claims tainted superseded) {}).conflicts
  refine ⟨fun entry member => folded.untouched entry (sorted.mem_iff.mp member), folded.noticed, ?_,
    folded.held⟩
  intro conflictId member
  obtain ⟨pair, inside, same, outcome⟩ := folded.decided conflictId member
  exact ⟨pair, inside, same, outcome.imp_left fun kept => sorted.mem_iff.mpr kept⟩

end Texo.Semantics
