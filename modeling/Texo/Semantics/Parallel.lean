import Texo.Foundation.WorkerPool
import Texo.Semantics.Runtime

/-! # Parallel acquisition

The parallel pass keeps settled and temporally failed pairs aside, joins pairs with equal
texts into one job, runs one job per group on a worker pool in any order, and hands each
answer back to every pair of its group.
-/
namespace Texo.Semantics
open Texo.Events Texo.Knowledge Texo.Foundation

/-- The key pairs are joined under: the raw texts of both claims. -/
def pairTexts (claims : List ClaimView) (pair : PendingPair) : String × String :=
  ((claimAt claims pair.oldIdx).text, (claimAt claims pair.newIdx).text)

/-- The slots filled so far and the groups of those that need the judge. -/
structure PairGroups where
  outcomes : List (Option PairOutcome)
  groups : PairMap String (List Nat) := ∅

/-- `groups.entry(texts).or_default().push(idx)`. -/
def joinGroup (groups : PairMap String (List Nat)) (texts : String × String) (idx : Nat) :
    PairMap String (List Nat) :=
  groups.insert texts ((groups[texts]?).getD [] ++ [idx])

/-- One pending pair of `acquire_parallel`: answered from the journal, refused by source
order, or left to its group. -/
def groupPair (claims : List ClaimView) (settled : SettledMap) (grouped : PairGroups)
    (row : PendingPair × Nat) : PairGroups :=
  match settled[(row.1.older, row.1.newer)]? with
  | some verdict =>
    { grouped with outcomes := grouped.outcomes.set row.2 (some (.judged verdict true)) }
  | none =>
    match row.1.temporalFailure with
    | some failureClass =>
      let failure : PairOutcome := .failed { failureClass := failureClass }
      { grouped with outcomes := grouped.outcomes.set row.2 (some failure) }
    | none =>
      { grouped with groups := joinGroup grouped.groups (pairTexts claims row.1) row.2 }

/-- The groups of a page. -/
def groupPairs (claims : List ClaimView) (settled : SettledMap) (pending : List PendingPair) :
    PairGroups :=
  pending.zipIdx.foldl (groupPair claims settled)
    { outcomes := List.replicate pending.length none }

/-- The job of each group: its first pair, in pending order. -/
def representatives (groups : PairMap String (List Nat)) : List Nat :=
  (groups.toList.map fun group => group.2.headD 0).insertionSort (· ≤ ·)

/-- What a worker answers for a pair. -/
def judgeOutcome (claims : List ClaimView) (judge : Judge) (expired : Nat → Bool)
    (pair : PendingPair) : PairOutcome :=
  if expired pair.cursor then
    .failed budgetExhausted
  else
    match judge (claimAt claims pair.oldIdx).text (claimAt claims pair.newIdx).text with
    | .ok verdict => .judged verdict false
    | .error failure => .failed failure

/-- One job of `run_parallel_jobs`. -/
def jobOutcome (claims : List ClaimView) (judge : Judge) (expired : Nat → Bool)
    (pending : List PendingPair) (idx : Nat) : PairOutcome :=
  match pending[idx]? with
  | some pair => judgeOutcome claims judge expired pair
  | none => .failed budgetExhausted

/-- Collected answers by job. -/
abbrev JobResults := Std.ExtTreeMap Nat PairOutcome

/-- `result_rx.iter().collect()`. -/
def collectResults (rows : List (Nat × PairOutcome)) : JobResults :=
  rows.foldl (fun results row => results.insert row.1 row.2) ∅

/-- Hand one group's answer to all its pairs. -/
def fanOut (state : JobResults × List (Option PairOutcome)) (members : List Nat) :
    JobResults × List (Option PairOutcome) :=
  let outcome := (state.1[members.headD 0]?).getD (.failed budgetExhausted)
  (state.1.erase (members.headD 0),
    members.foldl (fun outcomes idx => outcomes.set idx (some outcome)) state.2)

/-- `acquire_parallel`, given what the worker pool collected. -/
def acquireParallel (grouped : PairGroups) (results : JobResults) : List (Option PairOutcome) :=
  ((grouped.groups.toList.map Prod.snd).foldl fanOut (results, grouped.outcomes)).2

variable [Blake3] {Score : Type}

/-- `relate_claims_settled_parallel_temporal` with any concurrency, its workers following a
schedule; nothing when the schedule does not end the pool. -/
def relateClaimsParallel (claims : List ClaimView) (embedder : Embedder Score) (judge : Judge)
    (thresholds : RelateThresholds Score) (settled : SettledMap) (options : RelateOptions)
    (concurrency : Nat) (schedule : List PoolMove) : Option (Except TexoError RelateOutcome) :=
  match preparePairs claims embedder thresholds settled options.temporal
      options.candidatePairBudget options.candidateCursor with
  | .error error => some (.error error)
  | .ok none => some (.ok .default)
  | .ok (some prepared) =>
    let page : PageCompletion :=
      { settled := settled
        claimClusters := prepared.claimClusters
        examinedPairs := prepared.examinedPairs
        candidatePairBudget := options.candidatePairBudget
        nextCursor := prepared.nextCursor }
    if concurrency ≤ 1 then
      let acquired := acquirePage claims judge settled options.expired prepared.pending
      some (.ok (finishPage claims options.temporal
        (acquired.map fun pair => (pair.1, pair.2.outcome)) page))
    else
      let grouped := groupPairs claims settled prepared.pending
      let pool : Pool Nat PairOutcome := { waiting := representatives grouped.groups }
      match pool.run (jobOutcome claims judge options.expired prepared.pending) concurrency
          schedule with
      | none => none
      | some final =>
        if final.finished then
          let outcomes := (acquireParallel grouped (collectResults final.results)).map fun slot =>
            slot.getD (.failed budgetExhausted)
          some (.ok (finishPage claims options.temporal (prepared.pending.zip outcomes) page))
        else
          none

omit [Blake3]

/-- What a pair that needs no judge is answered with. -/
def readyOutcome (settled : SettledMap) (pair : PendingPair) : Option PairOutcome :=
  match settled[(pair.older, pair.newer)]? with
  | some verdict => some (.judged verdict true)
  | none => pair.temporalFailure.map fun failureClass => .failed { failureClass := failureClass }

/-- What the judge answers on two texts. -/
def answerOf (judge : Judge) (texts : String × String) : PairOutcome :=
  match judge texts.1 texts.2 with
  | .ok verdict => .judged verdict false
  | .error failure => .failed failure

/-- Sequential acquisition under an unlimited budget asks the judge about exactly the pairs
that need it. -/
theorem acquireSequential_unlimited (claims : List ClaimView) (judge : Judge) (settled : SettledMap)
    (pair : PendingPair) :
    (acquireSequential claims judge settled (fun _ => false) pair).outcome =
      (readyOutcome settled pair).getD (answerOf judge (pairTexts claims pair)) := by
  unfold acquireSequential readyOutcome answerOf pairTexts
  cases settled[(pair.older, pair.newer)]? with
  | some verdict => rfl
  | none =>
    cases pair.temporalFailure with
    | some failureClass => rfl
    | none =>
      cases judge (claimAt claims pair.oldIdx).text (claimAt claims pair.newIdx).text with
      | ok verdict => rfl
      | error failure => rfl

/-- A pair is answered at once or joins the group of its texts. -/
theorem groupPair_eq (claims : List ClaimView) (settled : SettledMap) (grouped : PairGroups)
    (pair : PendingPair) (idx : Nat) :
    groupPair claims settled grouped (pair, idx) =
      match readyOutcome settled pair with
      | some outcome => { grouped with outcomes := grouped.outcomes.set idx (some outcome) }
      | none =>
        { grouped with groups := joinGroup grouped.groups (pairTexts claims pair) idx } := by
  unfold groupPair readyOutcome
  cases settled[(pair.older, pair.newer)]? with
  | some verdict => rfl
  | none =>
    cases pair.temporalFailure with
    | some failureClass => rfl
    | none => rfl

/-- What the first `count` pairs left: those ready are answered, the others wait in the group
of their texts, and every group holds only such pairs. -/
structure Grouped (claims : List ClaimView) (settled : SettledMap) (pending : List PendingPair)
    (count : Nat) (grouped : PairGroups) : Prop where
  size : grouped.outcomes.length = pending.length
  ready : ∀ idx pair outcome, idx < count → pending[idx]? = some pair →
    readyOutcome settled pair = some outcome → grouped.outcomes[idx]? = some (some outcome)
  joined : ∀ idx pair, idx < count → pending[idx]? = some pair → readyOutcome settled pair = none →
    ∃ members, grouped.groups[pairTexts claims pair]? = some members ∧ idx ∈ members
  members : ∀ texts members, grouped.groups[texts]? = some members → members ≠ [] ∧
    ∀ idx ∈ members, ∃ pair, pending[idx]? = some pair ∧ readyOutcome settled pair = none ∧
      pairTexts claims pair = texts

/-- One more pair is placed. -/
theorem Grouped.next {claims : List ClaimView} {settled : SettledMap} {pending : List PendingPair}
    {count : Nat} {grouped : PairGroups} (before : Grouped claims settled pending count grouped)
    {pair : PendingPair} (here : pending[count]? = some pair) :
    Grouped claims settled pending (count + 1) (groupPair claims settled grouped (pair, count)) := by
  have inside : count < pending.length := (List.getElem?_eq_some_iff.mp here).1
  rw [groupPair_eq]
  cases answered : readyOutcome settled pair with
  | some outcome =>
    constructor
    · simpa using before.size
    · intro idx other found below there ready
      by_cases last : count = idx
      · have same : pair = other := by
          rw [← last, here] at there
          exact Option.some.inj there
        rw [same] at answered
        rw [answered] at ready
        rw [← last, List.getElem?_set_self (by rw [before.size]; exact inside), Option.some.inj ready]
      · rw [List.getElem?_set_ne last]
        have earlier : idx < count := by omega
        exact before.ready idx other found earlier there ready
    · intro idx other below there unready
      have earlier : idx < count := by
        by_contra beyond
        have last : idx = count := by omega
        rw [last, here] at there
        rw [← Option.some.inj there, answered] at unready
        cases unready
      exact before.joined idx other earlier there unready
    · exact before.members
  | none =>
    constructor
    · exact before.size
    · intro idx other found below there ready
      have earlier : idx < count := by
        by_contra beyond
        have last : idx = count := by omega
        rw [last, here] at there
        rw [← Option.some.inj there, answered] at ready
        cases ready
      exact before.ready idx other found earlier there ready
    · intro idx other below there unready
      show ∃ members, (joinGroup grouped.groups (pairTexts claims pair) count)[pairTexts claims
        other]? = some members ∧ idx ∈ members
      rw [joinGroup, Std.ExtTreeMap.getElem?_insert]
      by_cases last : idx = count
      · have same : pair = other := by
          rw [last, here] at there
          exact Option.some.inj there
        rw [if_pos (by rw [same]; exact Std.ReflCmp.compare_self)]
        exact ⟨_, rfl, by simp [last]⟩
      · have earlier : idx < count := by omega
        obtain ⟨members, found, member⟩ := before.joined idx other earlier there unready
        split
        · rename_i same
          rw [Std.LawfulEqCmp.eq_of_compare same, found]
          exact ⟨_, rfl, by simp [member]⟩
        · exact ⟨members, found, member⟩
    · intro texts members found
      have stored : (joinGroup grouped.groups (pairTexts claims pair) count)[texts]? =
          some members := found
      rw [joinGroup, Std.ExtTreeMap.getElem?_insert] at stored
      split at stored
      · rename_i same
        have key : pairTexts claims pair = texts := Std.LawfulEqCmp.eq_of_compare same
        rw [← Option.some.inj stored]
        constructor
        · simp
        · intro idx member
          rcases List.mem_append.mp member with old | last
          · cases had : grouped.groups[pairTexts claims pair]? with
            | none => simp [had] at old
            | some earlier =>
              rw [had] at old
              rw [← key]
              exact (before.members _ earlier had).2 idx old
          · have same : idx = count := by simpa using last
            exact ⟨pair, same ▸ here, answered, key⟩
      · exact before.members texts members stored

/-- All pairs of a page are placed. -/
theorem grouped_groupPairs (claims : List ClaimView) (settled : SettledMap)
    (pending : List PendingPair) :
    Grouped claims settled pending pending.length (groupPairs claims settled pending) := by
  have run : ∀ (rest : List PendingPair) (count : Nat) (grouped : PairGroups),
      pending.drop count = rest → Grouped claims settled pending count grouped →
      Grouped claims settled pending (count + rest.length)
        ((rest.zipIdx count).foldl (groupPair claims settled) grouped) := by
    intro rest
    induction rest with
    | nil =>
      intro count grouped _ before
      exact before
    | cons pair rest ih =>
      intro count grouped split before
      have here : pending[count]? = some pair := by
        rw [← List.head?_drop, split]
        rfl
      have tail : pending.drop (count + 1) = rest := by
        rw [← List.tail_drop, split]
        rfl
      have placed := ih (count + 1) _ tail (before.next here)
      rw [List.zipIdx_cons, List.foldl_cons, List.length_cons]
      have sum : count + 1 + rest.length = count + (rest.length + 1) := by omega
      rw [← sum]
      exact placed
  have start : Grouped claims settled pending 0 { outcomes := List.replicate pending.length none } := by
    constructor
    · simp
    · intro idx _ _ below
      omega
    · intro idx _ below
      omega
    · intro texts members found
      simp at found
  have placed := run pending 0 _ rfl start
  simpa [groupPairs] using placed

/-- Writing one answer to several slots. -/
theorem getElem?_foldl_set {Slot : Type} (members : List Nat) (slots : List Slot) (value : Slot)
    (idx : Nat) :
    (members.foldl (fun slots idx => slots.set idx value) slots)[idx]? =
      if idx ∈ members ∧ idx < slots.length then some value else slots[idx]? := by
  induction members generalizing slots with
  | nil => simp
  | cons member rest ih =>
    rw [List.foldl_cons, ih, List.length_set]
    by_cases later : idx ∈ rest ∧ idx < slots.length
    · rw [if_pos later, if_pos ⟨List.mem_cons_of_mem _ later.1, later.2⟩]
    · rw [if_neg later]
      by_cases here : member = idx
      · by_cases inside : idx < slots.length
        · rw [if_pos ⟨by simp [here], inside⟩, here, List.getElem?_set_self inside]
        · rw [if_neg (fun both => inside both.2), List.getElem?_eq_none (by simpa using inside),
            List.getElem?_eq_none (by omega)]
      · rw [List.getElem?_set_ne here, if_neg]
        intro both
        rcases List.mem_cons.mp both.1 with same | there
        · exact here same.symm
        · exact later ⟨there, both.2⟩

/-- Writing answers keeps the slots. -/
theorem length_foldl_set {Slot : Type} (members : List Nat) (slots : List Slot) (value : Slot) :
    (members.foldl (fun slots idx => slots.set idx value) slots).length = slots.length := by
  induction members generalizing slots with
  | nil => rfl
  | cons member rest ih => rw [List.foldl_cons, ih, List.length_set]

/-- Collected answers, read back by job. -/
theorem collectResults_eq {work : Nat → PairOutcome} {rows : List (Nat × PairOutcome)}
    (answers : ∀ row ∈ rows, row.2 = work row.1) (job : Nat) :
    (collectResults rows)[job]? = if job ∈ rows.map Prod.fst then some (work job) else none := by
  have fold : ∀ results : JobResults,
      (rows.foldl (fun results row => results.insert row.1 row.2) results)[job]? =
        if job ∈ rows.map Prod.fst then some (work job) else results[job]? := by
    induction rows with
    | nil => simp
    | cons row rest ih =>
      intro results
      rw [List.foldl_cons, ih fun other member => answers other (by simp [member])]
      by_cases later : job ∈ rest.map Prod.fst
      · rw [if_pos later, if_pos (by simp at later ⊢; exact Or.inr later)]
      · rw [if_neg later, Std.ExtTreeMap.getElem?_insert]
        by_cases here : row.1 = job
        · rw [if_pos (by rw [here]; exact Std.ReflCmp.compare_self), if_pos (by simp [here]),
            answers row (by simp), here]
        · rw [if_neg (fun same => here (Std.LawfulEqCmp.eq_of_compare same)), if_neg]
          intro member
          rcases List.mem_cons.mp member with same | there
          · exact here same.symm
          · exact later there
  rw [collectResults, fold]
  simp

/-- The groups of a page, each with the texts of all its pairs. -/
def Uniform (claims : List ClaimView) (pending : List PendingPair)
    (group : (String × String) × List Nat) : Prop :=
  group.2 ≠ [] ∧
    ∀ idx ∈ group.2, ∃ pair, pending[idx]? = some pair ∧ pairTexts claims pair = group.1

/-- The first pair of a group has the group's texts. -/
theorem Uniform.head {claims : List ClaimView} {pending : List PendingPair}
    {group : (String × String) × List Nat} (uniform : Uniform claims pending group) :
    ∃ pair, pending[group.2.headD 0]? = some pair ∧ pairTexts claims pair = group.1 := by
  obtain ⟨nonempty, all⟩ := uniform
  cases members : group.2 with
  | nil => exact absurd members nonempty
  | cons first rest =>
    apply all
    rw [members]
    exact List.mem_cons_self

/-- Handing out the groups one after the other: each pair of a group gets the answer to its own
texts, every other slot stays as it was. -/
theorem foldl_fanOut {claims : List ClaimView} {judge : Judge} {pending : List PendingPair}
    {groups : List ((String × String) × List Nat)} {results : JobResults}
    {slots : List (Option PairOutcome)}
    (distinct : groups.Pairwise fun a b => a.1 ≠ b.1)
    (uniform : ∀ group ∈ groups, Uniform claims pending group)
    (collected : ∀ group ∈ groups, results[group.2.headD 0]? = some (answerOf judge group.1))
    (size : slots.length = pending.length) :
    let handed := ((groups.map Prod.snd).foldl fanOut (results, slots)).2
    handed.length = pending.length ∧
      ∀ idx, ((∀ group ∈ groups, idx ∉ group.2) → handed[idx]? = slots[idx]?) ∧
        ∀ pair, pending[idx]? = some pair → (∃ group ∈ groups, idx ∈ group.2) →
          handed[idx]? = some (some (answerOf judge (pairTexts claims pair))) := by
  induction groups generalizing results slots with
  | nil =>
    refine ⟨size, fun idx => ⟨fun _ => rfl, ?_⟩⟩
    intro pair _ some
    simp at some
  | cons group rest ih =>
    obtain ⟨apart, later⟩ := List.pairwise_cons.mp distinct
    have own := uniform group (by simp)
    have answered : (results[group.2.headD 0]?).getD (.failed budgetExhausted) =
        answerOf judge group.1 := by
      rw [collected group (by simp)]
      rfl
    have kept : ∀ other ∈ rest,
        (results.erase (group.2.headD 0))[other.2.headD 0]? = some (answerOf judge other.1) := by
      intro other member
      rw [Std.ExtTreeMap.getElem?_erase, if_neg]
      · exact collected other (by simp [member])
      · intro same
        have heads : group.2.headD 0 = other.2.headD 0 := Std.LawfulEqCmp.eq_of_compare same
        obtain ⟨pair, here, texts⟩ := own.head
        obtain ⟨pair', here', texts'⟩ := (uniform other (by simp [member])).head
        rw [heads, here'] at here
        rw [Option.some.inj here, texts] at texts'
        exact apart other member texts'
    have filled : (group.2.foldl (fun slots idx => slots.set idx
        (some (answerOf judge group.1))) slots).length = pending.length := by
      rw [length_foldl_set, size]
    obtain ⟨long, handed⟩ := ih later (fun other member => uniform other (by simp [member])) kept
      filled
    have first : fanOut (results, slots) group.2 = (results.erase (group.2.headD 0),
        group.2.foldl (fun slots idx => slots.set idx (some (answerOf judge group.1))) slots) := by
      rw [fanOut, answered]
    rw [List.map_cons, List.foldl_cons, first]
    refine ⟨long, fun idx => ⟨?_, ?_⟩⟩
    · intro outside
      rw [(handed idx).1 fun other member => outside other (by simp [member]), getElem?_foldl_set,
        if_neg fun both => outside group (by simp) both.1]
    · intro pair here some
      by_cases again : ∃ other ∈ rest, idx ∈ other.2
      · exact (handed idx).2 pair here again
      · have outside : ∀ other ∈ rest, idx ∉ other.2 := fun other member inside =>
          again ⟨other, member, inside⟩
        obtain ⟨other, member, inside⟩ := some
        have same : other = group := by
          rcases List.mem_cons.mp member with first | there
          · exact first
          · exact absurd inside (outside other there)
        rw [same] at inside
        obtain ⟨pair', here', texts⟩ := own.2 idx inside
        rw [here] at here'
        have bound : idx < slots.length := by
          rw [size]
          exact (List.getElem?_eq_some_iff.mp here).1
        rw [(handed idx).1 outside, getElem?_foldl_set, if_pos ⟨inside, bound⟩,
          Option.some.inj here', texts]

/-- The groups of a page are distinct and uniform. -/
theorem Grouped.groups {claims : List ClaimView} {settled : SettledMap}
    {pending : List PendingPair} {count : Nat} {grouped : PairGroups}
    (placed : Grouped claims settled pending count grouped) :
    (grouped.groups.toList.Pairwise fun a b => a.1 ≠ b.1) ∧
      ∀ group ∈ grouped.groups.toList, Uniform claims pending group := by
  constructor
  · apply List.Pairwise.imp _ Std.ExtTreeMap.distinct_keys_toList
    intro a b distinct same
    rw [same] at distinct
    exact distinct Std.ReflCmp.compare_self
  · intro group member
    have found := Std.ExtTreeMap.mem_toList_iff_getElem?_eq_some.mp member
    obtain ⟨nonempty, all⟩ := placed.members _ _ found
    refine ⟨nonempty, fun idx inside => ?_⟩
    obtain ⟨pair, here, _, texts⟩ := all idx inside
    exact ⟨pair, here, texts⟩

/-- Whatever order the jobs finished in, every pending pair gets its sequential outcome. -/
theorem acquireParallel_eq (claims : List ClaimView) (judge : Judge) (settled : SettledMap)
    (pending : List PendingPair) {rows : List (Nat × PairOutcome)}
    (jobs : (rows.map Prod.fst).Perm
      (representatives (groupPairs claims settled pending).groups))
    (answers : ∀ row ∈ rows, row.2 = jobOutcome claims judge (fun _ => false) pending row.1) :
    (acquireParallel (groupPairs claims settled pending) (collectResults rows)).map
        (fun slot => slot.getD (.failed budgetExhausted)) =
      pending.map fun pair => (acquireSequential claims judge settled (fun _ => false) pair).outcome := by
  have placed := grouped_groupPairs claims settled pending
  obtain ⟨distinct, uniform⟩ := placed.groups
  have collected : ∀ group ∈ (groupPairs claims settled pending).groups.toList,
      (collectResults rows)[group.2.headD 0]? = some (answerOf judge group.1) := by
    intro group member
    obtain ⟨pair, here, texts⟩ := (uniform group member).head
    have job : group.2.headD 0 ∈ rows.map Prod.fst := by
      apply jobs.mem_iff.mpr
      rw [representatives, List.mem_insertionSort]
      exact List.mem_map.mpr ⟨group, member, rfl⟩
    have work : jobOutcome claims judge (fun _ => false) pending (group.2.headD 0) =
        answerOf judge group.1 := by
      rw [jobOutcome, here, ← texts]
      rfl
    rw [collectResults_eq answers, if_pos job, work]
  obtain ⟨long, handed⟩ := foldl_fanOut distinct uniform collected placed.size
  have slots : ∀ (idx : Nat) (pair : PendingPair), pending[idx]? = some pair →
      (acquireParallel (groupPairs claims settled pending) (collectResults rows))[idx]? =
        some (some (acquireSequential claims judge settled (fun _ => false) pair).outcome) := by
    intro idx pair here
    have inside : idx < pending.length := (List.getElem?_eq_some_iff.mp here).1
    rw [acquireSequential_unlimited]
    cases ready : readyOutcome settled pair with
    | some outcome =>
      have untouched : ∀ group ∈ (groupPairs claims settled pending).groups.toList,
          idx ∉ group.2 := by
        intro group member inside
        have found := Std.ExtTreeMap.mem_toList_iff_getElem?_eq_some.mp member
        obtain ⟨other, there, unready, _⟩ := (placed.members _ _ found).2 idx inside
        rw [here] at there
        rw [← Option.some.inj there, ready] at unready
        cases unready
      rw [acquireParallel, (handed idx).1 untouched]
      exact placed.ready idx pair outcome inside here ready
    | none =>
      obtain ⟨members, found, member⟩ := placed.joined idx pair inside here ready
      have listed := Std.ExtTreeMap.mem_toList_iff_getElem?_eq_some.mpr found
      exact (handed idx).2 pair here ⟨_, listed, member⟩
  apply List.ext_getElem?
  intro idx
  rw [List.getElem?_map, List.getElem?_map]
  cases here : pending[idx]? with
  | some pair =>
    rw [slots idx pair here]
    rfl
  | none =>
    have beyond : pending.length ≤ idx := List.getElem?_eq_none_iff.mp here
    rw [List.getElem?_eq_none (by rw [acquireParallel, long]; exact beyond)]
    rfl

variable [Blake3] {Score : Type}

end Texo.Semantics
