import Texo.Semantics.Candidate

/-! # Decision reduction

Acquired verdicts fold into one winner per stale claim and one entry per conflict.
Any unresolved pair or ambiguous winner taints its claims, and a decision about a
tainted claim is held. A page that must be resumed publishes nothing; a completing
page reduces the whole accumulated authority.
-/
namespace Texo.Semantics
open Texo.Events Texo.Knowledge Texo.Foundation

/-- How a candidate successor compares with the current one. -/
inductive SuccessorOrder where
  | current
  | candidate
  | ambiguous
deriving DecidableEq

/-- The later of two claims in journal order, the index as a tiebreak. -/
def laterInSequence (claims : List ClaimView) (current candidate : Nat) : Bool :=
  sequenceRank (claimAt claims current) < sequenceRank (claimAt claims candidate) ||
    (sequenceRank (claimAt claims current) = sequenceRank (claimAt claims candidate) &&
      current < candidate)

/-- `compare_successors`. -/
def compareSuccessors (claims : List ClaimView) (current candidate : Nat)
    (temporal : RelateTemporalPolicy) : SuccessorOrder :=
  match temporal.compareClaims (claimAt claims current).claimId
      (claimAt claims candidate).claimId with
  | none => if laterInSequence claims current candidate then .candidate else .current
  | some .same => if laterInSequence claims current candidate then .candidate else .current
  | some .before => .candidate
  | some .after => .current
  | some .concurrent => .ambiguous
  | some .unknown => .ambiguous

/-- The pair-by-pair part of a reduction. -/
structure PairReduction where
  winners : Std.ExtTreeMap Nat Nat := ∅
  ambiguousWinners : List Nat := []
  conflictPairs : List (Nat × Nat) := []
  judgments : List PairJudgment := []
  unresolved : List UnresolvedPair := []

/-- `unresolved_pair`. -/
def unresolvedPair (older newer : ClaimId) (oldView newView : ClaimView)
    (failure : PairFailureView) : UnresolvedPair where
  oldClaim := older
  newClaim := newer
  oldRef := oldView.sourcePath ++ ":" ++ toString oldView.lineStart
  newRef := newView.sourcePath ++ ":" ++ toString newView.lineStart
  failure := failure

/-- One supersession verdict: the newest successor wins, and an incomparable rival
marks the old claim ambiguous. -/
def PairReduction.noteWinner (reduction : PairReduction) (claims : List ClaimView)
    (temporal : RelateTemporalPolicy) (oldIdx newIdx : Nat) : PairReduction :=
  match reduction.winners[oldIdx]? with
  | none => { reduction with winners := reduction.winners.insert oldIdx newIdx }
  | some current =>
    match compareSuccessors claims current newIdx temporal with
    | .candidate => { reduction with winners := reduction.winners.insert oldIdx newIdx }
    | .current => reduction
    | .ambiguous =>
      { reduction with
        ambiguousWinners := reduction.ambiguousWinners ++ [oldIdx]
        winners := if laterInSequence claims current newIdx then
          reduction.winners.insert oldIdx newIdx else reduction.winners }

/-- One acquired pair of `collect_pair_reduction`. -/
def collectPair (claims : List ClaimView) (temporal : RelateTemporalPolicy)
    (reduction : PairReduction) (acquired : PendingPair × PairOutcome) : PairReduction :=
  let pair := acquired.1
  match acquired.2 with
  | .failed failure =>
    { reduction with
      unresolved := reduction.unresolved ++ [unresolvedPair pair.older pair.newer
        (claimAt claims pair.oldIdx) (claimAt claims pair.newIdx) failure] }
  | .judged verdict reusedAuthority =>
    let judged := { reduction with
      judgments := reduction.judgments ++ 
        [⟨pair.older, pair.newer, verdict, reusedAuthority⟩] }
    match verdict.relation with
    | .supersedes => judged.noteWinner claims temporal pair.oldIdx pair.newIdx
    | .conflict =>
      { judged with
        conflictPairs := judged.conflictPairs ++
          [(min pair.oldIdx pair.newIdx, max pair.oldIdx pair.newIdx)] }
    | .duplicate => judged
    | .unrelated => judged

/-- `collect_pair_reduction`. -/
def collectPairReduction (claims : List ClaimView) (temporal : RelateTemporalPolicy)
    (acquired : List (PendingPair × PairOutcome)) : PairReduction :=
  acquired.foldl (collectPair claims temporal) {}

/-- The reason a supersession edge carries. -/
def supersessionReason (newView : ClaimView) : String :=
  "superseded by " ++ newView.sourcePath ++ ":" ++ toString newView.lineStart

/-- Edges are published by old claim, then by new claim. -/
def edgeLe (a b : SupersessionEdge) : Prop :=
  a.oldClaim.value < b.oldClaim.value ∨
    (a.oldClaim.value = b.oldClaim.value ∧ a.newClaim.value ≤ b.newClaim.value)

instance : DecidableRel edgeLe := fun a b =>
  inferInstanceAs (Decidable (a.oldClaim.value < b.oldClaim.value ∨
    (a.oldClaim.value = b.oldClaim.value ∧ a.newClaim.value ≤ b.newClaim.value)))

/-- The edges drawn from winners, in old-claim index order, with those held. -/
structure ReducedSupersessions where
  superseded : List ClaimId := []
  supersessions : List SupersessionEdge := []
  held : List HeldDecision := []

/-- One winner of `reduce_supersessions`. -/
def reduceWinner (claims : List ClaimView) (tainted : List ClaimId)
    (reduced : ReducedSupersessions) (winner : Nat × Nat) : ReducedSupersessions :=
  let old := claimAt claims winner.1
  let new := claimAt claims winner.2
  if old.claimId ∈ tainted then
    { reduced with
      held := reduced.held ++ [.supersession old.claimId new.claimId (supersessionReason new)] }
  else
    { reduced with
      superseded := reduced.superseded ++ [old.claimId]
      supersessions := reduced.supersessions ++
        [⟨old.claimId, new.claimId, supersessionReason new⟩] }

/-- `reduce_supersessions`. -/
def reduceSupersessions (claims : List ClaimView) (winners : Std.ExtTreeMap Nat Nat)
    (tainted : List ClaimId) : ReducedSupersessions :=
  let reduced := winners.toList.foldl (reduceWinner claims tainted) {}
  { reduced with supersessions := reduced.supersessions.insertionSort edgeLe }

/-- The conflicts kept so far, those held, and the ids already seen. -/
structure ReducedConflicts where
  conflicts : List ConflictEntry := []
  held : List HeldDecision := []
  seen : List ConflictId := []

variable [Blake3]

/-- The entry of one conflicting index pair. -/
def conflictEntry (claims : List ClaimView) (pair : Nat × Nat) : ConflictEntry :=
  let a := claimAt claims pair.1
  let b := claimAt claims pair.2
  { conflictId := conflictIdFromPair a.claimId b.claimId
    claimA := a.claimId
    claimB := b.claimId
    subjectHint := a.subjectHint
    reason := "contradictory current claims: \"" ++ a.text ++ "\" vs \"" ++ b.text ++ "\"" }

/-- One conflicting pair of `reduce_conflicts`. -/
def reduceConflict (claims : List ClaimView) (tainted superseded : List ClaimId)
    (reduced : ReducedConflicts) (pair : Nat × Nat) : ReducedConflicts :=
  let entry := conflictEntry claims pair
  if entry.conflictId ∈ reduced.seen then
    reduced
  else
    let noted := { reduced with seen := reduced.seen ++ [entry.conflictId] }
    if entry.claimA ∈ tainted ∨ entry.claimB ∈ tainted then
      { noted with
        held := noted.held ++ [.conflict entry.conflictId entry.claimA entry.claimB entry.reason] }
    else if entry.claimA ∉ superseded ∧ entry.claimB ∉ superseded then
      { noted with conflicts := noted.conflicts ++ [entry] }
    else
      noted

/-- `reduce_conflicts`. -/
def reduceConflicts (claims : List ClaimView) (conflictPairs : List (Nat × Nat))
    (tainted superseded : List ClaimId) : ReducedConflicts :=
  let reduced := conflictPairs.foldl (reduceConflict claims tainted superseded) {}
  { reduced with
    conflicts := reduced.conflicts.insertionSort fun x y => x.conflictId.value ≤ y.conflictId.value }

/-- The decisions of one reduction. -/
structure ReducedOutcome where
  related : RelatedClaims
  unresolved : List UnresolvedPair
  held : List HeldDecision

/-- `reduce_outcomes`. -/
def reduceOutcomes (claims : List ClaimView) (temporal : RelateTemporalPolicy)
    (acquired : List (PendingPair × PairOutcome)) : ReducedOutcome :=
  let reduction := collectPairReduction claims temporal acquired
  let tainted := (reduction.unresolved.flatMap fun pair => [pair.oldClaim, pair.newClaim]) ++
    reduction.ambiguousWinners.map fun idx => (claimAt claims idx).claimId
  let supersessions := reduceSupersessions claims reduction.winners tainted
  let conflicts := reduceConflicts claims reduction.conflictPairs tainted supersessions.superseded
  { related :=
      { supersessions := supersessions.supersessions
        conflicts := conflicts.conflicts
        judgments := reduction.judgments }
    unresolved := reduction.unresolved
    held := supersessions.held ++ conflicts.held }

/-- What a page knows besides its pairs. -/
structure PageCompletion where
  settled : SettledMap
  claimClusters : List Nat
  examinedPairs : Nat
  candidatePairBudget : Nat
  nextCursor : Option Nat

/-- `partial_outcome`: every derived edge of an incomplete page is held. -/
def partialOutcome (reduction : ReducedOutcome)
    (candidatePairs candidatePairBudget nextCandidateCursor : Nat) : PartialRelateOutcome where
  judgments := reduction.related.judgments
  unresolved := reduction.unresolved
  held := reduction.held ++
    (reduction.related.supersessions.map fun edge =>
      HeldDecision.supersession edge.oldClaim edge.newClaim edge.reason) ++
    (reduction.related.conflicts.map fun entry =>
      HeldDecision.conflict entry.conflictId entry.claimA entry.claimB entry.reason)
  candidatePairs := candidatePairs
  candidatePairBudget := candidatePairBudget
  nextCandidateCursor := nextCandidateCursor

/-- The index of each claim id; a repeated id keeps its last index. -/
def indexById (claims : List ClaimView) : Std.ExtTreeMap String Nat :=
  claims.zipIdx.foldl (fun byId row => byId.insert row.1.claimId.value row.2) ∅

/-- One authority row: its sort key, its pair and its reused verdict. -/
structure AuthorityRow where
  key : Nat × Nat × Nat
  pair : PendingPair
  outcome : PairOutcome

/-- Rows are reduced by cluster, then by lower index, then by higher index. -/
def rowLe (a b : AuthorityRow) : Prop :=
  a.key.1 < b.key.1 ∨ (a.key.1 = b.key.1 ∧
    (a.key.2.1 < b.key.2.1 ∨ (a.key.2.1 = b.key.2.1 ∧ a.key.2.2 ≤ b.key.2.2)))

instance : DecidableRel rowLe := fun a b =>
  inferInstanceAs (Decidable (a.key.1 < b.key.1 ∨ (a.key.1 = b.key.1 ∧
    (a.key.2.1 < b.key.2.1 ∨ (a.key.2.1 = b.key.2.1 ∧ a.key.2.2 ≤ b.key.2.2)))))

/-- The row of one authoritative verdict, when both its claims are related here. -/
def authorityRow (claims : List ClaimView) (fresh : List (ClaimId × ClaimId))
    (claimClusters : List Nat) (verdict : (ClaimId × ClaimId) × RelationVerdict) :
    Option AuthorityRow :=
  match (indexById claims)[verdict.1.1.value]?, (indexById claims)[verdict.1.2.value]? with
  | some oldIdx, some newIdx =>
    some
      { key := (claimClusters.getD (min oldIdx newIdx) 0, min oldIdx newIdx, max oldIdx newIdx)
        pair :=
          { oldIdx := oldIdx
            newIdx := newIdx
            older := verdict.1.1
            newer := verdict.1.2
            temporalFailure := none
            cursor := 0 }
        outcome := .judged verdict.2 (verdict.1 ∉ fresh) }
  | _, _ => none

/-- `authoritative_pairs`. -/
def authoritativePairs (claims : List ClaimView) (authority : SettledMap)
    (fresh : List (ClaimId × ClaimId)) (claimClusters : List Nat) :
    List (PendingPair × PairOutcome) :=
  ((authority.toList.filterMap (authorityRow claims fresh claimClusters)).insertionSort rowLe).map
    fun row => (row.pair, row.outcome)

/-- Insert one judgment into a verdict map. -/
def insertJudgment (settled : SettledMap) (judgment : PairJudgment) : SettledMap :=
  settled.insert (judgment.olderClaim, judgment.newerClaim) judgment.verdict

/-- A failed outcome must be retried at its own slot. -/
def PairOutcome.isFailed : PairOutcome → Bool
  | .failed _ => true
  | .judged _ _ => false

/-- The cursors of the failed pairs of a page. -/
def failedCursors (acquired : List (PendingPair × PairOutcome)) : List Nat :=
  acquired.filterMap fun pair => if pair.2.isFailed then some pair.1.cursor else none

/-- `finish_page`: resume at the earliest failed pair or the page end, whichever comes
first; without either, reduce the whole authority. -/
def finishPage (claims : List ClaimView) (temporal : RelateTemporalPolicy)
    (acquired : List (PendingPair × PairOutcome)) (page : PageCompletion) : RelateOutcome :=
  let resume := ((failedCursors acquired).min?.toList ++ page.nextCursor.toList).min?
  let pageReduction := reduceOutcomes claims temporal acquired
  match resume with
  | some nextCandidateCursor =>
    .incomplete (partialOutcome pageReduction page.examinedPairs page.candidatePairBudget
      nextCandidateCursor)
  | none =>
    let fresh := (pageReduction.related.judgments.filter fun judgment =>
      !judgment.reusedAuthority).map fun judgment => (judgment.olderClaim, judgment.newerClaim)
    let authority := pageReduction.related.judgments.foldl insertJudgment page.settled
    let complete := reduceOutcomes claims temporal
      (authoritativePairs claims authority fresh page.claimClusters)
    .complete
      { related := complete.related
        held := complete.held
        candidatePairs := complete.related.judgments.length
        candidatePairBudget := page.candidatePairBudget }

end Texo.Semantics
