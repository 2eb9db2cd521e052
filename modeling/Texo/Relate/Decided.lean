import Texo.Relate.Publication
import Texo.Semantics.Withheld

/-! # What a finished page publishes and what it holds

A completing page retires each claim once, opens each conflict once, and leaves alone every claim
that one of its doubts touches. A page to be resumed publishes nothing and holds what it decided.
-/
namespace Texo.Relate
open Texo.Events Texo.Knowledge Texo.Foundation Texo.Semantics

/-- No decision retires a claim or brings it into a conflict. -/
def RelatedClaims.Spares (related : RelatedClaims) (claim : ClaimId) : Prop :=
  (∀ edge ∈ related.supersessions, edge.oldClaim ≠ claim) ∧
    ∀ entry ∈ related.conflicts, entry.claimA ≠ claim ∧ entry.claimB ≠ claim

/-- The decisions of a complete outcome, beside the reduction they are drawn from. -/
structure CompleteOutcome (outcome : CompleteRelateOutcome) (claims : List ClaimView)
    (reduction : PairReduction) : Prop where
  retiresOnce : (outcome.related.supersessions.map SupersessionEdge.oldClaim).Nodup
  opensOnce : (outcome.related.conflicts.map ConflictEntry.conflictId).Nodup
  apart : ∀ edge ∈ outcome.related.supersessions, ∀ entry ∈ outcome.related.conflicts,
    entry.claimA ≠ edge.oldClaim ∧ entry.claimB ≠ edge.oldClaim
  held : ∀ old new reason, HeldDecision.supersession old new reason ∈ outcome.held →
    RelatedClaims.Spares outcome.related old
  doubted : ∀ claim ∈ reduction.tainted claims, RelatedClaims.Spares outcome.related claim

/-- Authoritative pairs are told apart by their old claims as by the positions of these. -/
theorem authoritativePairs_named {claims : List ClaimView} {authority : SettledMap}
    {fresh : List (ClaimId × ClaimId)} {claimClusters : List Nat}
    {pair : PendingPair × PairOutcome}
    (member : pair ∈ authoritativePairs claims authority fresh claimClusters) :
    (indexById claims)[pair.1.older.value]? = some pair.1.oldIdx ∧
      (indexById claims)[pair.1.newer.value]? = some pair.1.newIdx ∧
      ∃ verdict, authority[(pair.1.older, pair.1.newer)]? = some verdict ∧
        pair.2 = .judged verdict ((pair.1.older, pair.1.newer) ∉ fresh) := by
  obtain ⟨row, sorted, rfl⟩ := List.mem_map.mp member
  obtain ⟨verdict, listed, made⟩ := List.mem_filterMap.mp ((List.mem_insertionSort _).mp sorted)
  unfold authorityRow at made
  split at made
  · rename_i oldIdx newIdx old new
    rw [← Option.some.inj made]
    exact ⟨old, new, verdict.2, Std.ExtTreeMap.mem_toList_iff_getElem?_eq_some.mp listed, rfl⟩
  · cases made

/-- A winner drawn from authoritative pairs stands at the position its claim's id names. -/
theorem winner_named {claims : List ClaimView} {authority : SettledMap}
    {fresh : List (ClaimId × ClaimId)} {claimClusters : List Nat} {temporal : RelateTemporalPolicy}
    {old new : Nat} (won : (collectPairReduction claims temporal
      (authoritativePairs claims authority fresh claimClusters)).winners[old]? = some new) :
    (indexById claims)[(claimAt claims old).claimId.value]? = some old := by
  obtain ⟨pair, member, here, _⟩ := judged_collectPairReduction claims temporal _ old new won
  have named := (authoritativePairs_named member).1
  rw [here] at named
  rw [indexById_claim named]
  exact named

/-- Winners whose claims' ids name their positions retire each claim once. -/
theorem nodup_retired {claims : List ClaimView} {winners : Std.ExtTreeMap Nat Nat}
    (named : ∀ old new, winners[old]? = some new →
      (indexById claims)[(claimAt claims old).claimId.value]? = some old)
    (tainted : List ClaimId) :
    ((reduceSupersessions claims winners tainted).supersessions.map
      SupersessionEdge.oldClaim).Nodup := by
  apply nodup_oldClaim
  intro old old' won won' same
  apply Option.some.inj
  rw [← named old _ (Std.ExtTreeMap.getElem?_eq_some_getElem won),
    ← named old' _ (Std.ExtTreeMap.getElem?_eq_some_getElem won'), same]

variable [Blake3]

/-- The pairs a completing page reduces: all that is settled, with what the page judged. -/
def pageAuthority (claims : List ClaimView) (temporal : RelateTemporalPolicy)
    (acquired : List (PendingPair × PairOutcome)) (page : PageCompletion) :
    List (PendingPair × PairOutcome) :=
  let judgments := (reduceOutcomes claims temporal acquired).related.judgments
  authoritativePairs claims (judgments.foldl insertJudgment page.settled)
    ((judgments.filter fun judgment => !judgment.reusedAuthority).map fun judgment =>
      (judgment.olderClaim, judgment.newerClaim)) page.claimClusters

/-- A completing page answers with the reduction of its whole authority. -/
theorem finishPage_complete {claims : List ClaimView} {temporal : RelateTemporalPolicy}
    {acquired : List (PendingPair × PairOutcome)} {page : PageCompletion}
    {outcome : CompleteRelateOutcome}
    (finished : finishPage claims temporal acquired page = .complete outcome) :
    outcome.related =
        (reduceOutcomes claims temporal (pageAuthority claims temporal acquired page)).related ∧
      outcome.held =
        (reduceOutcomes claims temporal (pageAuthority claims temporal acquired page)).held := by
  unfold finishPage at finished
  simp only at finished
  split at finished
  · cases finished
  · rw [← RelateOutcome.complete.inj finished]
    exact ⟨rfl, rfl⟩

/-- A page to be resumed answers with the reduction of its own pairs. -/
theorem finishPage_incomplete {claims : List ClaimView} {temporal : RelateTemporalPolicy}
    {acquired : List (PendingPair × PairOutcome)} {page : PageCompletion}
    {outcome : PartialRelateOutcome}
    (finished : finishPage claims temporal acquired page = .incomplete outcome) :
    ∃ cursor, outcome = partialOutcome (reduceOutcomes claims temporal acquired)
      page.examinedPairs page.candidatePairBudget cursor := by
  unfold finishPage at finished
  simp only at finished
  split at finished
  · rename_i cursor _
    exact ⟨cursor, (RelateOutcome.incomplete.inj finished).symm⟩
  · cases finished

/-- What a reduction of whole authority decides, and what it leaves alone. -/
theorem reduceOutcomes_complete {claims : List ClaimView} {temporal : RelateTemporalPolicy}
    {acquired : List (PendingPair × PairOutcome)}
    (named : ∀ old new, (collectPairReduction claims temporal acquired).winners[old]? = some new →
      (indexById claims)[(claimAt claims old).claimId.value]? = some old)
    (outcome : CompleteRelateOutcome)
    (related : outcome.related = (reduceOutcomes claims temporal acquired).related)
    (held : outcome.held = (reduceOutcomes claims temporal acquired).held) :
    CompleteOutcome outcome claims (collectPairReduction claims temporal acquired) := by
  let reduction := collectPairReduction claims temporal acquired
  let tainted := reduction.tainted claims
  let supersessions := reduceSupersessions claims reduction.winners tainted
  have conflicts : outcome.related.conflicts = (reduceConflicts claims reduction.conflictPairs
      tainted supersessions.superseded).conflicts := by rw [related]; rfl
  have edges : outcome.related.supersessions = supersessions.supersessions := by rw [related]; rfl
  have holds : outcome.held = supersessions.held ++ (reduceConflicts claims reduction.conflictPairs
      tainted supersessions.superseded).held := by rw [held]; rfl
  obtain ⟨opensOnce, kept⟩ := reduceConflicts_kept claims reduction.conflictPairs tainted
    supersessions.superseded
  have decides := reduceConflicts_decides claims reduction.conflictPairs tainted
    supersessions.superseded
  have doubted : ∀ claim ∈ tainted, RelatedClaims.Spares outcome.related claim := by
    intro claim touched
    constructor
    · intro edge member same
      rw [edges] at member
      exact notMem_tainted_of_edge member (same ▸ touched)
    · intro entry member
      rw [conflicts] at member
      obtain ⟨left, right⟩ := decides.untouched entry member
      exact ⟨fun same => left (same ▸ touched), fun same => right (same ▸ touched)⟩
  refine ⟨?_, ?_, ?_, ?_, doubted⟩
  · rw [edges]
    exact nodup_retired named tainted
  · rw [conflicts]
    exact opensOnce
  · intro edge member entry entryMember
    rw [edges] at member
    rw [conflicts] at entryMember
    have retired : edge.oldClaim ∈ supersessions.superseded := mem_superseded.mpr ⟨edge, member, rfl⟩
    obtain ⟨_, left, right⟩ := kept entry entryMember
    exact ⟨fun same => left (same ▸ retired), fun same => right (same ▸ retired)⟩
  · intro old new reason member
    apply doubted
    rw [holds] at member
    rcases List.mem_append.mp member with winner | conflict
    · have among : HeldDecision.supersession old new reason ∈ (reduction.winners.toList.filter
          fun winner => (claimAt claims winner.1).claimId ∈ tainted).map (heldWinner claims) := by
        rw [← held_reduceSupersessions]
        exact winner
      obtain ⟨winner, listed, same⟩ := List.mem_map.mp among
      have touched : (claimAt claims winner.1).claimId ∈ tainted := by
        simpa using (List.mem_filter.mp listed).2
      unfold heldWinner at same
      rw [← (HeldDecision.supersession.inj same).1]
      exact touched
    · obtain ⟨pair, _, same⟩ := decides.held _ conflict
      cases same

/-- What an incomplete outcome holds of the verdicts its page reached. -/
structure IncompleteOutcome (outcome : PartialRelateOutcome) (claims : List ClaimView)
    (temporal : RelateTemporalPolicy) (acquired : List (PendingPair × PairOutcome)) : Prop where
  publishesNothing : relatePublication (.incomplete outcome) = {}
  judged : ∀ pair ∈ acquired, ∀ verdict reused, pair.2 = .judged verdict reused →
    ⟨pair.1.older, pair.1.newer, verdict, reused⟩ ∈ outcome.judgments
  winners : ∀ old new,
    (collectPairReduction claims temporal acquired).winners[old]? = some new →
      heldWinner claims (old, new) ∈ outcome.held
  superseded : ∀ pair ∈ acquired, ∀ scorePpm reused,
    pair.2 = .judged ⟨.supersedes, scorePpm⟩ reused →
      ∃ new, heldWinner claims (pair.1.oldIdx, new) ∈ outcome.held
  conflicting : ∀ pair ∈ acquired, ∀ scorePpm reused,
    pair.2 = .judged ⟨.conflict, scorePpm⟩ reused →
      ∃ entry : ConflictEntry, entry.conflictId = (conflictEntry claims
          (min pair.1.oldIdx pair.1.newIdx, max pair.1.oldIdx pair.1.newIdx)).conflictId ∧
        (∃ sides ∈ (collectPairReduction claims temporal acquired).conflictPairs,
          entry = conflictEntry claims sides) ∧
        (heldConflict entry ∈ outcome.held ∨
          ∃ edge ∈ (reduceOutcomes claims temporal acquired).related.supersessions,
            edge.oldClaim = entry.claimA ∨ edge.oldClaim = entry.claimB)

/-- A page to be resumed holds every decision it reached, but for the conflicts of a claim it
would retire. -/
theorem partialOutcome_holds (claims : List ClaimView) (temporal : RelateTemporalPolicy)
    (acquired : List (PendingPair × PairOutcome)) (examinedPairs budget cursor : Nat) :
    IncompleteOutcome (partialOutcome (reduceOutcomes claims temporal acquired) examinedPairs budget
      cursor) claims temporal acquired := by
  let reduction := collectPairReduction claims temporal acquired
  let tainted := reduction.tainted claims
  let supersessions := reduceSupersessions claims reduction.winners tainted
  let conflicts := reduceConflicts claims reduction.conflictPairs tainted supersessions.superseded
  let outcome := partialOutcome (reduceOutcomes claims temporal acquired) examinedPairs budget cursor
  have holds : outcome.held = supersessions.held ++ conflicts.held ++
      (supersessions.supersessions.map fun edge =>
        HeldDecision.supersession edge.oldClaim edge.newClaim edge.reason) ++
      conflicts.conflicts.map heldConflict := rfl
  have covers := covers_collectPairReduction claims temporal acquired
  have winners : ∀ old new, reduction.winners[old]? = some new →
      heldWinner claims (old, new) ∈ outcome.held := by
    intro old new won
    rw [holds]
    rcases winner_decided tainted won with edge | held
    · exact List.mem_append_left _ (List.mem_append_right _
        (List.mem_map_of_mem (f := fun edge : SupersessionEdge =>
          HeldDecision.supersession edge.oldClaim edge.newClaim edge.reason) edge))
    · exact List.mem_append_left _ (List.mem_append_left _ (List.mem_append_left _ held))
  refine ⟨rfl, covers.judged, winners, ?_, ?_⟩
  · intro pair member scorePpm reused answer
    have won := covers.superseded pair member scorePpm reused answer
    obtain ⟨new, found⟩ :=
      Option.isSome_iff_exists.mp (Std.ExtTreeMap.isSome_getElem?_iff_mem.mpr won)
    exact ⟨new, winners _ _ found⟩
  · intro pair member scorePpm reused answer
    have decides := reduceConflicts_decides claims reduction.conflictPairs tainted
      supersessions.superseded
    obtain ⟨sides, inside, same, went⟩ := decides.decided _
      (decides.noticed _ (covers.conflicting pair member scorePpm reused answer))
    refine ⟨conflictEntry claims sides, same, ⟨sides, inside, rfl⟩, ?_⟩
    have provisional : ∀ claim, claim ∈ supersessions.superseded →
        ∃ edge ∈ supersessions.supersessions, edge.oldClaim = claim :=
      fun claim retired => mem_superseded.mp retired
    rcases went with kept | held | first | second
    · left
      show heldConflict _ ∈ outcome.held
      rw [holds]
      exact List.mem_append_right _ (List.mem_map_of_mem kept)
    · left
      show heldConflict _ ∈ outcome.held
      rw [holds]
      exact List.mem_append_left _ (List.mem_append_left _ (List.mem_append_right _ held))
    · right
      obtain ⟨edge, retires, old⟩ := provisional _ first
      exact ⟨edge, retires, Or.inl old⟩
    · right
      obtain ⟨edge, retires, old⟩ := provisional _ second
      exact ⟨edge, retires, Or.inr old⟩

end Texo.Relate
