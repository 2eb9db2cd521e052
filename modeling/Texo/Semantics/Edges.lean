import Texo.Semantics.Reduction

/-! # What a reduction may decide

Whatever verdicts a reduction is given about pairs of the claims it relates, it supersedes each
of these claims at most once, names each conflict at most once, and brings no claim into conflict
that it supersedes.
-/
namespace Texo.Semantics
open Texo.Events Texo.Knowledge Texo.Foundation

/-- The index pairs of a reduction lie among its claims. -/
structure PairReduction.Drawn (reduction : PairReduction) (length : Nat) : Prop where
  winners : ∀ old new, reduction.winners[old]? = some new → old < length ∧ new < length
  conflicts : ∀ pair ∈ reduction.conflictPairs, pair.1 < length ∧ pair.2 < length

/-- Noting a winner keeps the winners among the claims. -/
theorem PairReduction.Drawn.noteWinner {reduction : PairReduction} {length : Nat}
    (drawn : reduction.Drawn length) (claims : List ClaimView) (temporal : RelateTemporalPolicy)
    {oldIdx newIdx : Nat} (old : oldIdx < length) (new : newIdx < length) :
    (reduction.noteWinner claims temporal oldIdx newIdx).Drawn length := by
  have inserted : ∀ start winner, (reduction.winners.insert oldIdx newIdx)[start]? = some winner →
      start < length ∧ winner < length := by
    intro start winner found
    rw [Std.ExtTreeMap.getElem?_insert] at found
    split at found
    · rename_i same
      have here : oldIdx = start := Std.LawfulEqCmp.eq_of_compare same
      rw [← here, ← Option.some.inj found]
      exact ⟨old, new⟩
    · exact drawn.winners start winner found
  unfold PairReduction.noteWinner
  split
  · exact ⟨inserted, drawn.conflicts⟩
  · split
    · exact ⟨inserted, drawn.conflicts⟩
    · exact drawn
    · refine ⟨?_, drawn.conflicts⟩
      intro start winner found
      simp only at found
      split at found
      · exact inserted start winner found
      · exact drawn.winners start winner found

/-- The step law of a reduction's index pairs. -/
theorem PairReduction.Drawn.collectPair {reduction : PairReduction} {length : Nat}
    (drawn : reduction.Drawn length) (claims : List ClaimView) (temporal : RelateTemporalPolicy)
    {acquired : PendingPair × PairOutcome} (old : acquired.1.oldIdx < length)
    (new : acquired.1.newIdx < length) :
    (Semantics.collectPair claims temporal reduction acquired).Drawn length := by
  obtain ⟨pair, outcome⟩ := acquired
  cases outcome with
  | failed failure => exact ⟨drawn.winners, drawn.conflicts⟩
  | judged verdict reusedAuthority =>
    have judged : PairReduction.Drawn
        { reduction with judgments := reduction.judgments ++
            [⟨pair.older, pair.newer, verdict, reusedAuthority⟩] } length :=
      ⟨drawn.winners, drawn.conflicts⟩
    obtain ⟨relation, scorePpm⟩ := verdict
    cases relation with
    | supersedes => exact judged.noteWinner claims temporal old new
    | conflict =>
      refine ⟨drawn.winners, ?_⟩
      intro other member
      rcases List.mem_append.mp member with earlier | last
      · exact drawn.conflicts other earlier
      · rw [List.mem_singleton.mp last]
        have lower : pair.oldIdx < length := old
        have upper : pair.newIdx < length := new
        constructor
        · show min pair.oldIdx pair.newIdx < length
          omega
        · show max pair.oldIdx pair.newIdx < length
          omega
    | duplicate => exact judged
    | unrelated => exact judged

/-- Acquired pairs among the claims give a reduction among the claims. -/
theorem drawn_collectPairReduction {claims : List ClaimView} {length : Nat}
    (temporal : RelateTemporalPolicy) {acquired : List (PendingPair × PairOutcome)}
    (inRange : ∀ pair ∈ acquired, pair.1.oldIdx < length ∧ pair.1.newIdx < length) :
    (collectPairReduction claims temporal acquired).Drawn length := by
  have start : PairReduction.Drawn {} length := ⟨by simp, by simp⟩
  unfold collectPairReduction
  generalize ({} : PairReduction) = reduction at start
  induction acquired generalizing reduction with
  | nil => exact start
  | cons pair rest ih =>
    obtain ⟨old, new⟩ := inRange pair (by simp)
    exact ih (fun other member => inRange other (by simp [member])) _
      (start.collectPair claims temporal old new)

/-- The edge a winner becomes. -/
def winnerEdge (claims : List ClaimView) (winner : Nat × Nat) : SupersessionEdge :=
  ⟨(claimAt claims winner.1).claimId, (claimAt claims winner.2).claimId,
    supersessionReason (claimAt claims winner.2)⟩

/-- The winners whose stale claim no doubt touches. -/
def clearWinners (claims : List ClaimView) (tainted : List ClaimId) (winners : List (Nat × Nat)) :
    List (Nat × Nat) :=
  winners.filter fun winner => (claimAt claims winner.1).claimId ∉ tainted

/-- Winners are reduced to their edges, one by one. -/
theorem foldl_reduceWinner (claims : List ClaimView) (tainted : List ClaimId)
    (winners : List (Nat × Nat)) (reduced : ReducedSupersessions) :
    (winners.foldl (reduceWinner claims tainted) reduced).supersessions =
        reduced.supersessions ++ (clearWinners claims tainted winners).map (winnerEdge claims) ∧
      (winners.foldl (reduceWinner claims tainted) reduced).superseded =
        reduced.superseded ++ (clearWinners claims tainted winners).map fun winner =>
          (claimAt claims winner.1).claimId := by
  induction winners generalizing reduced with
  | nil => simp [clearWinners]
  | cons winner rest ih =>
    rw [List.foldl_cons]
    obtain ⟨edges, olds⟩ := ih (reduceWinner claims tainted reduced winner)
    rw [edges, olds]
    unfold reduceWinner clearWinners
    by_cases held : (claimAt claims winner.1).claimId ∈ tainted
    · simp [held]
    · simp [held, winnerEdge, List.append_assoc]

/-- The superseded claims of a reduction are those its edges retire. -/
theorem reduceSupersessions_perm (claims : List ClaimView) (winners : Std.ExtTreeMap Nat Nat)
    (tainted : List ClaimId) :
    (reduceSupersessions claims winners tainted).supersessions.Perm
        ((clearWinners claims tainted winners.toList).map (winnerEdge claims)) ∧
      (reduceSupersessions claims winners tainted).superseded =
        (clearWinners claims tainted winners.toList).map fun winner =>
          (claimAt claims winner.1).claimId := by
  obtain ⟨edges, olds⟩ := foldl_reduceWinner claims tainted winners.toList {}
  constructor
  · refine (List.perm_insertionSort edgeLe _).trans ?_
    rw [edges]
    simp
  · exact olds

/-- Claims with distinct ids are told apart by them. -/
theorem claimAt_injective {claims : List ClaimView}
    (distinct : (claims.map ClaimView.claimId).Nodup) {i j : Nat} (left : i < claims.length)
    (right : j < claims.length)
    (same : (claimAt claims i).claimId = (claimAt claims j).claimId) : i = j := by
  have found : ∀ k, ∀ below : k < claims.length, (claimAt claims k).claimId =
      (claims.map ClaimView.claimId).get ⟨k, by rw [List.length_map]; exact below⟩ := by
    intro k below
    simp [claimAt, List.getD_eq_getElem?_getD, below]
  rw [found i left, found j right] at same
  exact (List.Nodup.getElem_inj_iff distinct).mp same

/-- A claim by its index is one of the claims. -/
theorem claimAt_mem {claims : List ClaimView} {idx : Nat} (below : idx < claims.length) :
    claimAt claims idx ∈ claims := by
  have found : claimAt claims idx = claims.get ⟨idx, below⟩ := by
    simp [claimAt, List.getD_eq_getElem?_getD, below]
  rw [found]
  exact List.get_mem claims ⟨idx, below⟩

/-- Where the claims that have winners have their own ids, each is superseded at most once. -/
theorem nodup_oldClaim {claims : List ClaimView} {winners : Std.ExtTreeMap Nat Nat}
    (apart : ∀ old old', old ∈ winners → old' ∈ winners →
      (claimAt claims old).claimId = (claimAt claims old').claimId → old = old')
    (tainted : List ClaimId) :
    ((reduceSupersessions claims winners tainted).supersessions.map
      SupersessionEdge.oldClaim).Nodup := by
  obtain ⟨edges, _⟩ := reduceSupersessions_perm claims winners tainted
  rw [(edges.map SupersessionEdge.oldClaim).nodup_iff, List.map_map]
  have keys : ((clearWinners claims tainted winners.toList).map Prod.fst).Nodup := by
    have all : (winners.toList.map Prod.fst).Nodup := by
      rw [Std.ExtTreeMap.map_fst_toList_eq_keys]
      exact winners.nodup_keys
    exact (List.filter_sublist.map Prod.fst).nodup all
  have won : ∀ winner ∈ clearWinners claims tainted winners.toList, winner.1 ∈ winners := by
    intro winner member
    have listed : (winner.1, winner.2) ∈ winners.toList := (List.mem_filter.mp member).1
    have held := Std.ExtTreeMap.mem_toList_iff_getElem?_eq_some.mp listed
    exact Std.ExtTreeMap.mem_iff_isSome_getElem?.mpr (by rw [held]; rfl)
  refine List.Nodup.map_on ?_ (List.Nodup.of_map _ keys)
  intro a aIn b bIn same
  have index := apart a.1 b.1 (won a aIn) (won b bIn) same
  exact List.inj_on_of_nodup_map keys aIn bIn index

/-- Each claim is superseded at most once. -/
theorem nodup_superseded {claims : List ClaimView}
    (distinct : (claims.map ClaimView.claimId).Nodup) {winners : Std.ExtTreeMap Nat Nat}
    (inRange : ∀ old new, winners[old]? = some new → old < claims.length ∧ new < claims.length)
    (tainted : List ClaimId) :
    ((reduceSupersessions claims winners tainted).supersessions.map
      SupersessionEdge.oldClaim).Nodup := by
  apply nodup_oldClaim
  intro old old' won won' same
  exact claimAt_injective distinct (inRange old _ (Std.ExtTreeMap.getElem?_eq_some_getElem won)).1
    (inRange old' _ (Std.ExtTreeMap.getElem?_eq_some_getElem won')).1 same

/-- An edge of a reduction lies among its claims, and its old claim counts as superseded. -/
theorem mem_reduceSupersessions {claims : List ClaimView} {winners : Std.ExtTreeMap Nat Nat}
    (inRange : ∀ old new, winners[old]? = some new → old < claims.length ∧ new < claims.length)
    {tainted : List ClaimId} {edge : SupersessionEdge}
    (member : edge ∈ (reduceSupersessions claims winners tainted).supersessions) :
    (∃ old ∈ claims, edge.oldClaim = old.claimId) ∧ (∃ new ∈ claims, edge.newClaim = new.claimId) ∧
      edge.oldClaim ∈ (reduceSupersessions claims winners tainted).superseded := by
  obtain ⟨edges, olds⟩ := reduceSupersessions_perm claims winners tainted
  obtain ⟨winner, kept, rfl⟩ := List.mem_map.mp (edges.mem_iff.mp member)
  have listed : (winner.1, winner.2) ∈ winners.toList := (List.mem_filter.mp kept).1
  obtain ⟨old, new⟩ := inRange _ _ (Std.ExtTreeMap.mem_toList_iff_getElem?_eq_some.mp listed)
  refine ⟨⟨_, claimAt_mem old, rfl⟩, ⟨_, claimAt_mem new, rfl⟩, ?_⟩
  rw [olds]
  exact List.mem_map.mpr ⟨winner, kept, rfl⟩

variable [Blake3]

/-- What a reduction of conflicts has kept so far. -/
structure ReducedConflicts.Kept (reduced : ReducedConflicts) (claims : List ClaimView)
    (pairs : List (Nat × Nat)) (superseded : List ClaimId) : Prop where
  distinct : (reduced.conflicts.map ConflictEntry.conflictId).Nodup
  seen : ∀ entry ∈ reduced.conflicts, entry.conflictId ∈ reduced.seen
  drawn : ∀ entry ∈ reduced.conflicts, ∃ pair ∈ pairs, entry = conflictEntry claims pair
  unretired : ∀ entry ∈ reduced.conflicts, entry.claimA ∉ superseded ∧ entry.claimB ∉ superseded

/-- The step law of kept conflicts. -/
theorem ReducedConflicts.Kept.reduceConflict {reduced : ReducedConflicts} {claims : List ClaimView}
    {pairs : List (Nat × Nat)} {superseded : List ClaimId}
    (kept : reduced.Kept claims pairs superseded) (tainted : List ClaimId) {pair : Nat × Nat}
    (member : pair ∈ pairs) :
    (Semantics.reduceConflict claims tainted superseded reduced pair).Kept claims pairs
      superseded := by
  have noted : (({ reduced with
      seen := reduced.seen ++ [(conflictEntry claims pair).conflictId] } : ReducedConflicts).Kept
        claims pairs superseded) :=
    ⟨kept.distinct, fun entry inside => List.mem_append_left _ (kept.seen entry inside), kept.drawn,
      kept.unretired⟩
  unfold Semantics.reduceConflict
  simp only
  split
  · exact kept
  · rename_i fresh
    split
    · exact ⟨noted.distinct, noted.seen, noted.drawn, noted.unretired⟩
    · split
      · rename_i current
        have extended : ∀ {P : ConflictEntry → Prop}, (∀ entry ∈ reduced.conflicts, P entry) →
            P (conflictEntry claims pair) →
            ∀ entry ∈ reduced.conflicts ++ [conflictEntry claims pair], P entry := by
          intro P earlier own entry inside
          rcases List.mem_append.mp inside with old | last
          · exact earlier entry old
          · rw [List.mem_singleton.mp last]
            exact own
        refine ⟨?_, ?_, ?_, ?_⟩
        · show ((reduced.conflicts ++ [conflictEntry claims pair]).map
            ConflictEntry.conflictId).Nodup
          rw [List.map_append, List.map_singleton]
          refine List.Nodup.append kept.distinct (List.nodup_singleton _) ?_
          intro conflictId old last
          obtain ⟨entry, inside, rfl⟩ := List.mem_map.mp old
          rw [List.mem_singleton] at last
          exact fresh (last ▸ kept.seen entry inside)
        · exact extended noted.seen (by simp)
        · exact extended kept.drawn ⟨pair, member, rfl⟩
        · exact extended kept.unretired current
      · exact noted

/-- The conflicts a reduction keeps. -/
theorem reduceConflicts_kept (claims : List ClaimView) (pairs : List (Nat × Nat))
    (tainted superseded : List ClaimId) :
    ((reduceConflicts claims pairs tainted superseded).conflicts.map
        ConflictEntry.conflictId).Nodup ∧
      ∀ entry ∈ (reduceConflicts claims pairs tainted superseded).conflicts,
        (∃ pair ∈ pairs, entry = conflictEntry claims pair) ∧
          entry.claimA ∉ superseded ∧ entry.claimB ∉ superseded := by
  have kept : ∀ rest : List (Nat × Nat), (∀ pair ∈ rest, pair ∈ pairs) →
      ∀ reduced : ReducedConflicts, reduced.Kept claims pairs superseded →
      (rest.foldl (reduceConflict claims tainted superseded) reduced).Kept claims pairs
        superseded := by
    intro rest
    induction rest with
    | nil => exact fun _ _ kept => kept
    | cons pair rest ih =>
      intro among reduced kept
      exact ih (fun other member => among other (by simp [member])) _
        (kept.reduceConflict tainted (among pair (by simp)))
  have start : ReducedConflicts.Kept {} claims pairs superseded :=
    ⟨by simp, by simp, by simp, by simp⟩
  have done := kept pairs (fun _ member => member) {} start
  have sorted := List.perm_insertionSort
    (fun x y : ConflictEntry => x.conflictId.value ≤ y.conflictId.value)
    (pairs.foldl (reduceConflict claims tainted superseded) {}).conflicts
  constructor
  · exact (sorted.map ConflictEntry.conflictId).nodup_iff.mpr done.distinct
  · intro entry member
    have inside := sorted.mem_iff.mp member
    exact ⟨done.drawn entry inside, done.unretired entry inside⟩

omit [Blake3] in
/-- The index of a claim id is one of a claim. -/
theorem indexById_lt {claims : List ClaimView} {claimId : String} {idx : Nat}
    (found : (indexById claims)[claimId]? = some idx) : idx < claims.length := by
  have below : ∀ rows : List (ClaimView × Nat), (∀ row ∈ rows, row.2 < claims.length) →
      ∀ byId : Std.ExtTreeMap String Nat,
        (∀ (key : String) (value : Nat), byId[key]? = some value → value < claims.length) →
        ∀ (key : String) (value : Nat), (rows.foldl (fun byId row =>
          byId.insert row.1.claimId.value row.2) byId)[key]? = some value →
          value < claims.length := by
    intro rows
    induction rows with
    | nil => exact fun _ _ known => known
    | cons row rest ih =>
      intro bounded byId known
      refine ih (fun other member => bounded other (by simp [member])) _ ?_
      intro key value present
      rw [Std.ExtTreeMap.getElem?_insert] at present
      split at present
      · rw [← Option.some.inj present]
        exact bounded row (by simp)
      · exact known key value present
  refine below claims.zipIdx ?_ ∅ (by simp) claimId idx found
  intro row member
  have indexed := List.snd_lt_add_of_mem_zipIdx member
  omega

omit [Blake3] in
/-- Authoritative pairs lie among the claims. -/
theorem authoritativePairs_inRange {claims : List ClaimView} {authority : SettledMap}
    {fresh : List (ClaimId × ClaimId)} {claimClusters : List Nat} {pair : PendingPair × PairOutcome}
    (member : pair ∈ authoritativePairs claims authority fresh claimClusters) :
    pair.1.oldIdx < claims.length ∧ pair.1.newIdx < claims.length := by
  obtain ⟨row, sorted, rfl⟩ := List.mem_map.mp member
  obtain ⟨verdict, _, made⟩ := List.mem_filterMap.mp ((List.mem_insertionSort _).mp sorted)
  unfold authorityRow at made
  split at made
  · rename_i oldIdx newIdx old new
    rw [← Option.some.inj made]
    exact ⟨indexById_lt old, indexById_lt new⟩
  · cases made

/-- What the decisions of a complete pass over some claims are like. -/
structure RelatedClaims.Among (related : RelatedClaims) (claims : List ClaimView) : Prop where
  retiresOnce : (related.supersessions.map SupersessionEdge.oldClaim).Nodup
  retires : ∀ edge ∈ related.supersessions, ∃ old ∈ claims, edge.oldClaim = old.claimId
  replaces : ∀ edge ∈ related.supersessions, ∃ new ∈ claims, edge.newClaim = new.claimId
  opensOnce : (related.conflicts.map ConflictEntry.conflictId).Nodup
  opens : ∀ entry ∈ related.conflicts, ∃ a ∈ claims, ∃ b ∈ claims,
    entry.claimA = a.claimId ∧ entry.claimB = b.claimId ∧
      entry.conflictId = conflictIdFromPair a.claimId b.claimId
  apart : ∀ entry ∈ related.conflicts, ∀ edge ∈ related.supersessions,
    entry.claimA ≠ edge.oldClaim ∧ entry.claimB ≠ edge.oldClaim

/-- The decisions of a reduction of pairs among the claims. -/
theorem reduceOutcomes_among {claims : List ClaimView}
    (distinct : (claims.map ClaimView.claimId).Nodup) (temporal : RelateTemporalPolicy)
    {acquired : List (PendingPair × PairOutcome)}
    (inRange : ∀ pair ∈ acquired, pair.1.oldIdx < claims.length ∧ pair.1.newIdx < claims.length) :
    (reduceOutcomes claims temporal acquired).related.Among claims := by
  have drawn : (collectPairReduction claims temporal acquired).Drawn claims.length :=
    drawn_collectPairReduction temporal inRange
  unfold reduceOutcomes
  simp only
  generalize collectPairReduction claims temporal acquired = reduction at drawn
  generalize (reduction.unresolved.flatMap fun pair => [pair.oldClaim, pair.newClaim]) ++
    reduction.ambiguousWinners.map (fun idx => (claimAt claims idx).claimId) = tainted
  obtain ⟨opensOnce, kept⟩ := reduceConflicts_kept claims reduction.conflictPairs tainted
    (reduceSupersessions claims reduction.winners tainted).superseded
  have edges : ∀ edge ∈ (reduceSupersessions claims reduction.winners tainted).supersessions,
      (∃ old ∈ claims, edge.oldClaim = old.claimId) ∧
        (∃ new ∈ claims, edge.newClaim = new.claimId) ∧
        edge.oldClaim ∈ (reduceSupersessions claims reduction.winners tainted).superseded :=
    fun edge member => mem_reduceSupersessions drawn.winners member
  refine ⟨nodup_superseded distinct drawn.winners tainted, fun edge member => (edges edge member).1,
    fun edge member => (edges edge member).2.1, opensOnce, ?_, ?_⟩
  · intro entry member
    obtain ⟨⟨pair, conflicting, rfl⟩, _⟩ := kept entry member
    obtain ⟨lower, upper⟩ := drawn.conflicts pair conflicting
    exact ⟨_, claimAt_mem lower, _, claimAt_mem upper, rfl, rfl, rfl⟩
  · intro entry member edge edgeMember
    obtain ⟨_, left, right⟩ := kept entry member
    have retired := (edges edge edgeMember).2.2
    exact ⟨fun same => left (same ▸ retired), fun same => right (same ▸ retired)⟩

/-- The decisions of a complete page. -/
theorem finishPage_among {claims : List ClaimView}
    (distinct : (claims.map ClaimView.claimId).Nodup) {temporal : RelateTemporalPolicy}
    {acquired : List (PendingPair × PairOutcome)} {page : PageCompletion}
    {outcome : CompleteRelateOutcome}
    (finished : finishPage claims temporal acquired page = .complete outcome) :
    outcome.related.Among claims := by
  unfold finishPage at finished
  simp only at finished
  split at finished
  · cases finished
  · rw [← RelateOutcome.complete.inj finished]
    exact reduceOutcomes_among distinct temporal fun pair member => authoritativePairs_inRange member

end Texo.Semantics
