import Texo.Semantics.Passes

/-! # Decisions depend on verdicts alone

Whether a verdict was reused or is fresh changes a judgment's flag and nothing else: the
edges, conflicts and held decisions of a reduction are the same.
-/
namespace Texo.Semantics
open Texo.Events Texo.Knowledge Texo.Foundation

/-- An outcome with its reuse flag cleared. -/
def PairOutcome.forgetReuse : PairOutcome → PairOutcome
  | .judged verdict _ => .judged verdict false
  | .failed failure => .failed failure

/-- A judgment with its reuse flag cleared. -/
def PairJudgment.forgetReuse (judgment : PairJudgment) : PairJudgment :=
  { judgment with reusedAuthority := false }

/-- A pair reduction with the reuse flags of its judgments cleared. -/
def PairReduction.forgetReuse (reduction : PairReduction) : PairReduction :=
  { reduction with judgments := reduction.judgments.map PairJudgment.forgetReuse }

/-- Noting a winner does not read the judgments. -/
theorem forgetReuse_noteWinner (reduction : PairReduction) (claims : List ClaimView)
    (temporal : RelateTemporalPolicy) (oldIdx newIdx : Nat) :
    (reduction.noteWinner claims temporal oldIdx newIdx).forgetReuse =
      reduction.forgetReuse.noteWinner claims temporal oldIdx newIdx := by
  unfold PairReduction.noteWinner
  simp only [PairReduction.forgetReuse]
  split
  · rfl
  · split <;> rfl

/-- Reducing one pair commutes with clearing flags. -/
theorem forgetReuse_collectPair (claims : List ClaimView) (temporal : RelateTemporalPolicy)
    (reduction : PairReduction) (acquired : PendingPair × PairOutcome) :
    (collectPair claims temporal reduction acquired).forgetReuse =
      collectPair claims temporal reduction.forgetReuse (acquired.1, acquired.2.forgetReuse) := by
  obtain ⟨pair, outcome⟩ := acquired
  cases outcome with
  | failed failure => rfl
  | judged verdict reusedAuthority =>
    obtain ⟨relation, score⟩ := verdict
    have appended : ({ reduction with judgments := reduction.judgments ++
        [⟨pair.older, pair.newer, ⟨relation, score⟩, reusedAuthority⟩] } :
          PairReduction).forgetReuse =
        { reduction.forgetReuse with judgments := reduction.forgetReuse.judgments ++
          [⟨pair.older, pair.newer, ⟨relation, score⟩, false⟩] } := by
      simp [PairReduction.forgetReuse, PairJudgment.forgetReuse]
    cases relation with
    | supersedes =>
      simp only [collectPair, PairOutcome.forgetReuse]
      rw [forgetReuse_noteWinner, appended]
    | conflict =>
      simp [collectPair, PairOutcome.forgetReuse, PairReduction.forgetReuse,
        PairJudgment.forgetReuse]
    | duplicate => exact appended
    | unrelated => exact appended

/-- Reducing a page commutes with clearing flags. -/
theorem forgetReuse_collectPairReduction (claims : List ClaimView)
    (temporal : RelateTemporalPolicy) (acquired : List (PendingPair × PairOutcome)) :
    (collectPairReduction claims temporal acquired).forgetReuse =
      collectPairReduction claims temporal
        (acquired.map fun pair => (pair.1, pair.2.forgetReuse)) := by
  have folded : ∀ (pairs : List (PendingPair × PairOutcome)) (reduction : PairReduction),
      (pairs.foldl (collectPair claims temporal) reduction).forgetReuse =
        (pairs.map fun pair => (pair.1, pair.2.forgetReuse)).foldl (collectPair claims temporal)
          reduction.forgetReuse := by
    intro pairs
    induction pairs with
    | nil => intro reduction; rfl
    | cons pair pairs ih =>
      intro reduction
      rw [List.foldl_cons, ih, forgetReuse_collectPair, List.map_cons, List.foldl_cons]
  exact folded acquired {}

section

variable [Blake3]

/-- Two reductions decide alike: the same edges, conflicts, unresolved pairs and held
decisions, and the same verdict for every pair they judge. -/
structure SameDecisions (a b : ReducedOutcome) : Prop where
  supersessions : a.related.supersessions = b.related.supersessions
  conflicts : a.related.conflicts = b.related.conflicts
  verdicts : a.related.judgments.map PairJudgment.forgetReuse =
    b.related.judgments.map PairJudgment.forgetReuse
  unresolved : a.unresolved = b.unresolved
  held : a.held = b.held

/-- Pairs that differ in their reuse flags alone are decided alike. -/
theorem sameDecisions_of_forgetReuse (claims : List ClaimView) (temporal : RelateTemporalPolicy)
    {a b : List (PendingPair × PairOutcome)}
    (same : (a.map fun pair => (pair.1, pair.2.forgetReuse)) =
      b.map fun pair => (pair.1, pair.2.forgetReuse)) :
    SameDecisions (reduceOutcomes claims temporal a) (reduceOutcomes claims temporal b) := by
  have reduced : (collectPairReduction claims temporal a).forgetReuse =
      (collectPairReduction claims temporal b).forgetReuse := by
    rw [forgetReuse_collectPairReduction, same, ← forgetReuse_collectPairReduction]
  have winners : (collectPairReduction claims temporal a).winners =
      (collectPairReduction claims temporal b).winners := by
    show (collectPairReduction claims temporal a).forgetReuse.winners = _
    rw [reduced]
    rfl
  have ambiguous : (collectPairReduction claims temporal a).ambiguousWinners =
      (collectPairReduction claims temporal b).ambiguousWinners := by
    show (collectPairReduction claims temporal a).forgetReuse.ambiguousWinners = _
    rw [reduced]
    rfl
  have conflictPairs : (collectPairReduction claims temporal a).conflictPairs =
      (collectPairReduction claims temporal b).conflictPairs := by
    show (collectPairReduction claims temporal a).forgetReuse.conflictPairs = _
    rw [reduced]
    rfl
  have unresolved : (collectPairReduction claims temporal a).unresolved =
      (collectPairReduction claims temporal b).unresolved := by
    show (collectPairReduction claims temporal a).forgetReuse.unresolved = _
    rw [reduced]
    rfl
  have judgments : (collectPairReduction claims temporal a).judgments.map
      PairJudgment.forgetReuse = (collectPairReduction claims temporal b).judgments.map
        PairJudgment.forgetReuse := by
    show (collectPairReduction claims temporal a).forgetReuse.judgments = _
    rw [reduced]
    rfl
  constructor
  · simp only [reduceOutcomes, winners, ambiguous, unresolved]
  · simp only [reduceOutcomes, winners, ambiguous, unresolved, conflictPairs]
  · exact judgments
  · exact unresolved
  · simp only [reduceOutcomes, winners, ambiguous, unresolved, conflictPairs]

end

/-- Which verdicts of an authority are fresh decides nothing. -/
theorem forgetReuse_authoritativePairs (claims : List ClaimView) (authority : SettledMap)
    (fresh other : List (ClaimId × ClaimId)) (clusters : List Nat) :
    ((authoritativePairs claims authority fresh clusters).map fun pair =>
        (pair.1, pair.2.forgetReuse)) =
      (authoritativePairs claims authority other clusters).map fun pair =>
        (pair.1, pair.2.forgetReuse) := by
  let forgotten (row : AuthorityRow) : AuthorityRow :=
    { row with outcome := row.outcome.forgetReuse }
  have sorted : ∀ rows : List AuthorityRow,
      (rows.insertionSort rowLe).map forgotten = (rows.map forgotten).insertionSort rowLe :=
    fun rows => List.map_insertionSort rowLe rowLe forgotten rows fun _ _ _ _ => Iff.rfl
  have rows : ∀ listed : List (ClaimId × ClaimId),
      (authority.toList.filterMap (authorityRow claims listed clusters)).map forgotten =
        authority.toList.filterMap fun entry =>
          (authorityRow claims [] clusters entry).map forgotten := by
    intro listed
    rw [List.map_filterMap]
    apply List.filterMap_congr
    intro entry _
    unfold authorityRow
    split <;> rfl
  have shape : ∀ listed : List (ClaimId × ClaimId),
      ((authoritativePairs claims authority listed clusters).map fun pair =>
          (pair.1, pair.2.forgetReuse)) =
        ((authority.toList.filterMap fun entry =>
          (authorityRow claims [] clusters entry).map forgotten).insertionSort rowLe).map
            fun row => (row.pair, row.outcome) := by
    intro listed
    rw [← rows listed, ← sorted, authoritativePairs, List.map_map, List.map_map]
    rfl
  rw [shape fresh, shape other]

end Texo.Semantics
