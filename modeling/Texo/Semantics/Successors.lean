import Texo.Foundation.Chains
import Texo.Semantics.PagedRelate
import Texo.Semantics.Parallel

/-! # Chains of supersessions

A complete pass draws its edges from verdicts oriented by an earlier settlement, by source
order or by journal order. Where the settled supersessions follow the order the pass itself
would use, that order is strict and no chain of edges closes.
-/
namespace Texo.Semantics
open Texo.Events Texo.Knowledge Texo.Foundation

/-- Turning a pair around inverts its comparison. -/
def RelateTemporalPolicy.Antisymmetric (temporal : RelateTemporalPolicy) : Prop :=
  ∀ left right, temporal.compareClaims right left =
    (temporal.compareClaims left right).map TemporalRelation.invert

/-- What is before a claim is before whatever that claim is before. -/
def RelateTemporalPolicy.Transitive (temporal : RelateTemporalPolicy) : Prop :=
  ∀ first second third, temporal.compareClaims first second = some .before →
    temporal.compareClaims second third = some .before →
      temporal.compareClaims first third = some .before

/-- Claims of the same revision compare alike with every third claim. -/
def RelateTemporalPolicy.Exchangeable (temporal : RelateTemporalPolicy) : Prop :=
  ∀ left right third, temporal.compareClaims left right = some .same →
    temporal.compareClaims left third = temporal.compareClaims right third

/-- The second claim is the later one: source order puts it after the first, or does not tell
them apart and the journal does. -/
def Precedes (claims : List ClaimView) (temporal : RelateTemporalPolicy) (old new : Nat) : Prop :=
  compareSuccessors claims old new temporal = .candidate

/-- When a claim precedes another. -/
theorem precedes_iff {claims : List ClaimView} {temporal : RelateTemporalPolicy} {old new : Nat} :
    Precedes claims temporal old new ↔
      temporal.compareClaims (claimAt claims old).claimId (claimAt claims new).claimId =
          some .before ∨
        (temporal.compareClaims (claimAt claims old).claimId (claimAt claims new).claimId = none ∨
            temporal.compareClaims (claimAt claims old).claimId (claimAt claims new).claimId =
              some .same) ∧
          laterInSequence claims old new = true := by
  unfold Precedes compareSuccessors
  cases temporal.compareClaims (claimAt claims old).claimId (claimAt claims new).claimId with
  | none => simp
  | some relation =>
    cases relation with
    | same => simp
    | before => simp
    | after => simp
    | concurrent => simp
    | unknown => simp

/-- Journal order, with the index as a tiebreak. -/
theorem laterInSequence_iff {claims : List ClaimView} {old new : Nat} :
    laterInSequence claims old new = true ↔
      sequenceRank (claimAt claims old) < sequenceRank (claimAt claims new) ∨
        (sequenceRank (claimAt claims old) = sequenceRank (claimAt claims new) ∧ old < new) := by
  simp [laterInSequence]

/-- Journal order is transitive. -/
theorem laterInSequence_trans {claims : List ClaimView} {first second third : Nat}
    (early : laterInSequence claims first second = true)
    (late : laterInSequence claims second third = true) :
    laterInSequence claims first third = true := by
  rw [laterInSequence_iff] at early late ⊢
  omega

/-- A claim with a binding is never compared as one without evidence. -/
theorem compareClaims_none {temporal : RelateTemporalPolicy} {left right : ClaimId} :
    temporal.compareClaims left right = none ↔
      temporal.claimSnapshots[left.value]? = none ∧ temporal.claimSnapshots[right.value]? = none := by
  unfold RelateTemporalPolicy.compareClaims
  cases temporal.claimSnapshots[left.value]? with
  | none =>
    cases temporal.claimSnapshots[right.value]? with
    | none => simp
    | some right => simp
  | some left =>
    cases temporal.claimSnapshots[right.value]? with
    | none => simp
    | some right =>
      simp only [reduceCtorEq, and_self, iff_false]
      split
      · exact Option.some_ne_none _
      · split
        · exact Option.some_ne_none _
        · split
          · exact Option.some_ne_none _
          · exact Option.some_ne_none _

/-- A claim without a binding is not ordered by evidence. -/
theorem compareClaims_unbound {temporal : RelateTemporalPolicy} {left right : ClaimId}
    (unbound : temporal.claimSnapshots[left.value]? = none ∨
      temporal.claimSnapshots[right.value]? = none) :
    temporal.compareClaims left right = none ∨ temporal.compareClaims left right = some .unknown := by
  unfold RelateTemporalPolicy.compareClaims
  rcases unbound with absent | absent
  · rw [absent]
    cases temporal.claimSnapshots[right.value]? with
    | none => exact Or.inl rfl
    | some snapshot => exact Or.inr rfl
  · rw [absent]
    cases temporal.claimSnapshots[left.value]? with
    | none => exact Or.inl rfl
    | some snapshot => exact Or.inr rfl

/-- A claim is never before itself. -/
theorem compareClaims_self (temporal : RelateTemporalPolicy) (claim : ClaimId) :
    temporal.compareClaims claim claim = none ∨ temporal.compareClaims claim claim = some .same := by
  unfold RelateTemporalPolicy.compareClaims
  cases temporal.claimSnapshots[claim.value]? with
  | none => exact Or.inl rfl
  | some snapshot => simp

/-- No claim precedes itself. -/
theorem precedes_irrefl (claims : List ClaimView) (temporal : RelateTemporalPolicy) (idx : Nat) :
    ¬ Precedes claims temporal idx idx := by
  intro closed
  rcases precedes_iff.mp closed with before | ⟨_, later⟩
  · rcases compareClaims_self temporal (claimAt claims idx).claimId with none | same
    · rw [none] at before
      cases before
    · rw [same] at before
      cases before
  · rw [laterInSequence_iff] at later
    omega

/-- Preceding is transitive: both steps compare by evidence, or neither claim has any. -/
theorem precedes_trans {claims : List ClaimView} {temporal : RelateTemporalPolicy}
    (antisymmetric : temporal.Antisymmetric) (transitive : temporal.Transitive)
    (exchangeable : temporal.Exchangeable) {first second third : Nat}
    (early : Precedes claims temporal first second)
    (late : Precedes claims temporal second third) : Precedes claims temporal first third := by
  -- Before a claim that is the same as a third one is before the third one.
  have turned : ∀ a b c, temporal.compareClaims a b = some .before →
      temporal.compareClaims b c = some .same → temporal.compareClaims a c = some .before := by
    intro a b c before same
    have back : temporal.compareClaims b a = some .after := by
      rw [antisymmetric a b, before]
      rfl
    rw [exchangeable b c a same] at back
    rw [antisymmetric c a, back]
    rfl
  rw [precedes_iff] at early late ⊢
  generalize (claimAt claims first).claimId = a at early ⊢
  generalize (claimAt claims second).claimId = b at early late
  generalize (claimAt claims third).claimId = c at late ⊢
  rcases early with before | ⟨none | same, earlier⟩
  · rcases late with beforeNext | ⟨none | same, _⟩
    · exact Or.inl (transitive a b c before beforeNext)
    · have unbound := compareClaims_none.mp none
      rcases compareClaims_unbound (Or.inr unbound.1) with free | unknown
      · rw [free] at before
        cases before
      · rw [unknown] at before
        cases before
    · exact Or.inl (turned a b c before same)
  · have unbound := compareClaims_none.mp none
    rcases late with beforeNext | ⟨noneNext | same, later⟩
    · rcases compareClaims_unbound (Or.inl unbound.2) with free | unknown
      · rw [free] at beforeNext
        cases beforeNext
      · rw [unknown] at beforeNext
        cases beforeNext
    · have free : temporal.compareClaims a c = Option.none :=
        compareClaims_none.mpr ⟨unbound.1, (compareClaims_none.mp noneNext).2⟩
      exact Or.inr ⟨Or.inl free, laterInSequence_trans earlier later⟩
    · rcases compareClaims_unbound (Or.inl unbound.2) with free | unknown
      · rw [free] at same
        cases same
      · rw [unknown] at same
        cases same
  · have alike := exchangeable a b c same
    rcases late with beforeNext | ⟨noneNext | sameNext, later⟩
    · exact Or.inl (alike.trans beforeNext)
    · exact Or.inr ⟨Or.inl (alike.trans noneNext), laterInSequence_trans earlier later⟩
    · exact Or.inr ⟨Or.inr (alike.trans sameNext), laterInSequence_trans earlier later⟩

/-- An unsettled pair that source order can orient is oriented oldest to newest. -/
theorem precedes_orderPair {claims : List ClaimView} {temporal : RelateTemporalPolicy}
    (antisymmetric : temporal.Antisymmetric) {left right : Nat} (distinct : left ≠ right)
    (ordered : (orderPair claims left right ∅ temporal).2 = none) :
    Precedes claims temporal (orderPair claims left right ∅ temporal).1.1
      (orderPair claims left right ∅ temporal).1.2 := by
  have turned := antisymmetric (claimAt claims left).claimId (claimAt claims right).claimId
  have sequence : (temporal.compareClaims (claimAt claims left).claimId
        (claimAt claims right).claimId = none ∨
      temporal.compareClaims (claimAt claims left).claimId (claimAt claims right).claimId =
        some .same) →
      Precedes claims temporal (sequenceOrder claims left right).1
        (sequenceOrder claims left right).2 := by
    intro undecided
    rw [precedes_iff]
    right
    unfold sequenceOrder
    split
    · rename_i forward
      refine ⟨undecided, ?_⟩
      rw [laterInSequence_iff]
      dsimp only
      omega
    · rename_i backward
      constructor
      · rcases undecided with none | same
        · left
          rw [turned, none]
          rfl
        · right
          rw [turned, same]
          rfl
      · rw [laterInSequence_iff]
        dsimp only
        omega
  unfold orderPair at ordered ⊢
  simp only [Std.ExtTreeMap.contains_empty, Bool.false_eq_true, if_false] at ordered ⊢
  cases compared : temporal.compareClaims (claimAt claims left).claimId
      (claimAt claims right).claimId with
  | none => exact sequence (Or.inl compared)
  | some relation =>
    cases relation with
    | same => exact sequence (Or.inr compared)
    | before => exact precedes_iff.mpr (Or.inl compared)
    | after =>
      apply precedes_iff.mpr
      left
      show temporal.compareClaims (claimAt claims right).claimId (claimAt claims left).claimId = _
      rw [turned, compared]
      rfl
    | concurrent =>
      rw [compared] at ordered
      cases ordered
    | unknown =>
      rw [compared] at ordered
      cases ordered

/-- A verdict of a page is one already settled, or one on a pair that source order orients. -/
def Oriented (settled : SettledMap) (acquired : PendingPair × PairOutcome) : Prop :=
  ∀ verdict reused, acquired.2 = .judged verdict reused →
    settled[(acquired.1.older, acquired.1.newer)]? = some verdict ∨
      (settled[(acquired.1.older, acquired.1.newer)]? = none ∧ acquired.1.temporalFailure = none)

/-- A winner was judged to supersede the claim it is the winner of. -/
def PairReduction.Judged (reduction : PairReduction) (acquired : List (PendingPair × PairOutcome)) :
    Prop :=
  ∀ old new, reduction.winners[old]? = some new →
    ∃ pair ∈ acquired, pair.1.oldIdx = old ∧ pair.1.newIdx = new ∧
      ∃ verdict reused, pair.2 = .judged verdict reused ∧ verdict.relation = .supersedes

/-- Noting a judged winner keeps every winner judged. -/
theorem PairReduction.Judged.noteWinner {reduction : PairReduction}
    {acquired : List (PendingPair × PairOutcome)} (judged : reduction.Judged acquired)
    (claims : List ClaimView) (temporal : RelateTemporalPolicy)
    {pair : PendingPair × PairOutcome} (member : pair ∈ acquired) {verdict : RelationVerdict}
    {reused : Bool} (answer : pair.2 = .judged verdict reused)
    (supersedes : verdict.relation = .supersedes) :
    (reduction.noteWinner claims temporal pair.1.oldIdx pair.1.newIdx).Judged acquired := by
  have inserted : ∀ old new,
      (reduction.winners.insert pair.1.oldIdx pair.1.newIdx)[old]? = some new →
        ∃ pair ∈ acquired, pair.1.oldIdx = old ∧ pair.1.newIdx = new ∧
          ∃ verdict reused, pair.2 = .judged verdict reused ∧ verdict.relation = .supersedes := by
    intro old new found
    rw [Std.ExtTreeMap.getElem?_insert] at found
    split at found
    · rename_i same
      have here : pair.1.oldIdx = old := Std.LawfulEqCmp.eq_of_compare same
      exact ⟨pair, member, here, Option.some.inj found, verdict, reused, answer, supersedes⟩
    · exact judged old new found
  unfold PairReduction.noteWinner
  split
  · exact inserted
  · split
    · exact inserted
    · exact judged
    · intro old new found
      dsimp only at found
      split at found
      · exact inserted old new found
      · exact judged old new found

/-- The winners of a reduction were judged. -/
theorem judged_collectPairReduction (claims : List ClaimView) (temporal : RelateTemporalPolicy)
    (acquired : List (PendingPair × PairOutcome)) :
    (collectPairReduction claims temporal acquired).Judged acquired := by
  have folded : ∀ rest : List (PendingPair × PairOutcome), (∀ pair ∈ rest, pair ∈ acquired) →
      ∀ reduction : PairReduction, reduction.Judged acquired →
        (rest.foldl (collectPair claims temporal) reduction).Judged acquired := by
    intro rest
    induction rest with
    | nil => exact fun _ _ judged => judged
    | cons pair rest ih =>
      intro among reduction judged
      apply ih (fun other member => among other (List.mem_cons_of_mem _ member))
      have member := among pair List.mem_cons_self
      obtain ⟨pending, outcome⟩ := pair
      cases outcome with
      | failed failure => exact judged
      | judged verdict reused =>
        obtain ⟨relation, score⟩ := verdict
        have noted : PairReduction.Judged
            { reduction with judgments := reduction.judgments ++
                [⟨pending.older, pending.newer, ⟨relation, score⟩, reused⟩] } acquired := judged
        cases relation with
        | supersedes => exact noted.noteWinner claims temporal member rfl rfl
        | conflict => exact judged
        | duplicate => exact judged
        | unrelated => exact judged
  have start : PairReduction.Judged {} acquired := by
    intro old new found
    simp at found
  exact folded acquired (fun _ member => member) {} start

/-- The index found for an id is that of a claim with the id. -/
theorem indexById_claim {claims : List ClaimView} {claimId : String} {idx : Nat}
    (found : (indexById claims)[claimId]? = some idx) :
    (claimAt claims idx).claimId.value = claimId := by
  have named : ∀ rows : List (ClaimView × Nat),
      (∀ row ∈ rows, (claimAt claims row.2).claimId.value = row.1.claimId.value) →
      ∀ byId : Std.ExtTreeMap String Nat,
        (∀ (key : String) (value : Nat), byId[key]? = some value →
          (claimAt claims value).claimId.value = key) →
        ∀ (key : String) (value : Nat), (rows.foldl (fun byId row =>
          byId.insert row.1.claimId.value row.2) byId)[key]? = some value →
          (claimAt claims value).claimId.value = key := by
    intro rows
    induction rows with
    | nil => exact fun _ _ known => known
    | cons row rest ih =>
      intro indexed byId known
      refine ih (fun other member => indexed other (List.mem_cons_of_mem _ member)) _ ?_
      intro key value present
      rw [Std.ExtTreeMap.getElem?_insert] at present
      split at present
      · rename_i same
        rw [← Option.some.inj present, indexed row List.mem_cons_self]
        exact Std.LawfulEqCmp.eq_of_compare same
      · exact known key value present
  refine named claims.zipIdx ?_ ∅ (by simp) claimId idx found
  intro row member
  have lookup : claims[row.2]? = some row.1 := List.mk_mem_zipIdx_iff_getElem?.mp member
  rw [claimAt, List.getD_eq_getElem?_getD, lookup]
  rfl

/-- A settled verdict after a page is one settled before it or one of its judgments. -/
theorem getElem?_foldl_insertJudgment {judgments : List PairJudgment} {settled : SettledMap}
    {key : ClaimId × ClaimId} {verdict : RelationVerdict}
    (found : (judgments.foldl insertJudgment settled)[key]? = some verdict) :
    settled[key]? = some verdict ∨
      ∃ judgment ∈ judgments, judgment.key = key ∧ judgment.verdict = verdict := by
  induction judgments generalizing settled with
  | nil => exact Or.inl found
  | cons judgment rest ih =>
    rw [List.foldl_cons] at found
    rcases ih found with held | ⟨other, member, same⟩
    · rw [insertJudgment, Std.ExtTreeMap.getElem?_insert] at held
      split at held
      · rename_i same
        exact Or.inr ⟨judgment, List.mem_cons_self, Std.LawfulEqCmp.eq_of_compare same,
          Option.some.inj held⟩
      · exact Or.inl held
    · exact Or.inr ⟨other, List.mem_cons_of_mem _ member, same⟩

/-- The settled supersessions between these claims follow the order of the pass. -/
def SettledInOrder (claims : List ClaimView) (temporal : RelateTemporalPolicy)
    (settled : SettledMap) : Prop :=
  ∀ old new, old < claims.length → new < claims.length → ∀ verdict,
    settled[((claimAt claims old).claimId, (claimAt claims new).claimId)]? = some verdict →
      verdict.relation = .supersedes → Precedes claims temporal old new

section
variable {Score : Type}

/-- A freshly judged slot is oriented oldest to newest. -/
theorem precedes_pendingAt {inputs : RelateInputs Score} {settled : SettledMap}
    {temporal : RelateTemporalPolicy} (antisymmetric : temporal.Antisymmetric) {ordinal : Nat}
    {pair : Nat × Nat} (less : pair.1 < pair.2)
    (fresh : settled[((inputs.pendingAt settled temporal ordinal pair).older,
      (inputs.pendingAt settled temporal ordinal pair).newer)]? = none)
    (ordered : (inputs.pendingAt settled temporal ordinal pair).temporalFailure = none) :
    Precedes inputs.claims temporal (inputs.pendingAt settled temporal ordinal pair).oldIdx
      (inputs.pendingAt settled temporal ordinal pair).newIdx := by
  have unsettled : ¬ inputs.SettledIn settled pair := by
    intro held
    obtain ⟨verdict, found, _⟩ :=
      acquire_settled (fun _ _ => .error budgetExhausted) temporal (fun _ => false) ordinal held
    rw [fresh] at found
    cases found
  rw [pendingAt_unsettled temporal ordinal unsettled] at ordered ⊢
  exact precedes_orderPair antisymmetric (Nat.ne_of_lt less) ordered

/-- The pending pairs of a page are slots of the pair order, its verdicts oriented. -/
def RelateInputs.Acquires (inputs : RelateInputs Score) (settled : SettledMap)
    (temporal : RelateTemporalPolicy) (acquired : List (PendingPair × PairOutcome)) : Prop :=
  ∀ row ∈ acquired, Oriented settled row ∧ ∃ ordinal pair, pair.1 < pair.2 ∧
    pair.2 < inputs.claims.length ∧ row.1 = inputs.pendingAt settled temporal ordinal pair

/-- What a page has judged to supersede, it has judged oldest to newest. -/
theorem authority_precedes {inputs : RelateInputs Score} (distinct : inputs.Distinct)
    {settled : SettledMap} {temporal : RelateTemporalPolicy}
    (antisymmetric : temporal.Antisymmetric)
    (inOrder : SettledInOrder inputs.claims temporal settled)
    {acquired : List (PendingPair × PairOutcome)}
    (page : inputs.Acquires settled temporal acquired) {old new : Nat}
    (oldBelow : old < inputs.claims.length) (newBelow : new < inputs.claims.length)
    {verdict : RelationVerdict} (supersedes : verdict.relation = .supersedes)
    (found : ((acquired.filterMap judgmentOf).foldl insertJudgment
      settled)[(inputs.idAt old, inputs.idAt new)]? = some verdict) :
    Precedes inputs.claims temporal old new := by
  rcases getElem?_foldl_insertJudgment found with held | ⟨judgment, member, key, same⟩
  · exact inOrder old new oldBelow newBelow verdict held supersedes
  · obtain ⟨⟨pending, outcome⟩, acquiredHere, judged⟩ := List.mem_filterMap.mp member
    cases outcome with
    | failed failure => cases judged
    | judged answer reused =>
      have named : judgment = ⟨pending.older, pending.newer, answer, reused⟩ :=
        (Option.some.inj judged).symm
      rw [named] at key same
      dsimp only [PairJudgment.key] at key same
      obtain ⟨oriented, ordinal, pair, less, below, slot⟩ := page _ acquiredHere
      rcases oriented answer reused rfl with held | ⟨fresh, ordered⟩
      · dsimp only at held
        rw [key, same] at held
        exact inOrder old new oldBelow newBelow verdict held supersedes
      · dsimp only at slot fresh ordered
        rw [slot] at fresh ordered key
        have precedes := precedes_pendingAt antisymmetric less fresh ordered
        have bounds : (inputs.pendingAt settled temporal ordinal pair).oldIdx < inputs.claims.length ∧
            (inputs.pendingAt settled temporal ordinal pair).newIdx < inputs.claims.length := by
          simp only [RelateInputs.pendingAt]
          rcases orderPair_cases inputs.claims pair.1 pair.2 settled temporal with forward | backward
          · rw [forward]
            omega
          · rw [backward]
            omega
        have ids := Prod.mk.inj key
        have olds := distinct.injective bounds.1 oldBelow ids.1
        have news := distinct.injective bounds.2 newBelow ids.2
        rw [olds, news] at precedes
        exact precedes

variable [Blake3]

/-- An edge of a complete page leads from a claim to one it precedes. -/
theorem finishPage_precedes (inputs : RelateInputs Score) (distinct : inputs.Distinct)
    {settled : SettledMap} {temporal : RelateTemporalPolicy}
    (antisymmetric : temporal.Antisymmetric)
    (inOrder : SettledInOrder inputs.claims temporal settled)
    {acquired : List (PendingPair × PairOutcome)}
    (acquires : inputs.Acquires settled temporal acquired) {page : PageCompletion}
    (here : page.settled = settled) {outcome : CompleteRelateOutcome}
    (finished : finishPage inputs.claims temporal acquired page = .complete outcome)
    {edge : SupersessionEdge} (member : edge ∈ outcome.related.supersessions) :
    ∃ old new, old < inputs.claims.length ∧ new < inputs.claims.length ∧
      edge.oldClaim = inputs.idAt old ∧ edge.newClaim = inputs.idAt new ∧
      Precedes inputs.claims temporal old new := by
  unfold finishPage at finished
  simp only [judgments_reduceOutcomes, here] at finished
  split at finished
  · cases finished
  · rw [← RelateOutcome.complete.inj finished] at member
    simp only [reduceOutcomes] at member
    obtain ⟨edges, _⟩ := reduceSupersessions_perm inputs.claims _ _
    obtain ⟨winner, kept, rfl⟩ := List.mem_map.mp (edges.mem_iff.mp member)
    have listed : (winner.1, winner.2) ∈ _ := (List.mem_filter.mp kept).1
    have won := Std.ExtTreeMap.mem_toList_iff_getElem?_eq_some.mp listed
    obtain ⟨pair, paired, oldHere, newHere, verdict, reused, answer, supersedes⟩ :=
      judged_collectPairReduction _ _ _ _ _ won
    obtain ⟨row, sorted, rfl⟩ := List.mem_map.mp paired
    obtain ⟨⟨key, settledVerdict⟩, stored, made⟩ :=
      List.mem_filterMap.mp ((List.mem_insertionSort _).mp sorted)
    have held := Std.ExtTreeMap.mem_toList_iff_getElem?_eq_some.mp stored
    unfold authorityRow at made
    split at made
    · rename_i oldIdx newIdx oldFound newFound
      rw [← Option.some.inj made] at oldHere newHere answer
      dsimp only at oldHere newHere answer
      injection answer with verdictHere _
      have oldNamed : inputs.idAt oldIdx = key.1 := Branded.ext (indexById_claim oldFound)
      have newNamed : inputs.idAt newIdx = key.2 := Branded.ext (indexById_claim newFound)
      have keyed : (inputs.idAt oldIdx, inputs.idAt newIdx) = key := Prod.ext oldNamed newNamed
      rw [← keyed, verdictHere] at held
      rw [winnerEdge, ← oldHere, ← newHere]
      exact ⟨oldIdx, newIdx, indexById_lt oldFound, indexById_lt newFound, rfl, rfl,
        authority_precedes distinct antisymmetric inOrder acquires (indexById_lt oldFound)
          (indexById_lt newFound) supersedes held⟩
    · cases made

/-- One pair succeeds another along the edges of an outcome. -/
def CompleteRelateOutcome.Succeeded (outcome : CompleteRelateOutcome) (old new : ClaimId) : Prop :=
  ∃ edge ∈ outcome.related.supersessions, edge.oldClaim = old ∧ edge.newClaim = new

omit [Blake3] in
/-- The chain law: edges that lead from claims to ones they precede close no chain. -/
theorem acyclic_of_precedes {claims : List ClaimView}
    (distinct : (claims.map ClaimView.claimId).Nodup) {temporal : RelateTemporalPolicy}
    (antisymmetric : temporal.Antisymmetric) (transitive : temporal.Transitive)
    (exchangeable : temporal.Exchangeable) {edge : ClaimId → ClaimId → Prop}
    (precedes : ∀ old new, edge old new → ∃ i j, i < claims.length ∧ j < claims.length ∧
      old = (claimAt claims i).claimId ∧ new = (claimAt claims j).claimId ∧
        Precedes claims temporal i j) : Acyclic edge := by
  have chained : ∀ old new, Relation.TransGen edge old new → ∃ i j, i < claims.length ∧
      j < claims.length ∧ old = (claimAt claims i).claimId ∧ new = (claimAt claims j).claimId ∧
        Precedes claims temporal i j := by
    intro old new chain
    induction chain with
    | single taken => exact precedes _ _ taken
    | tail _ taken ih =>
      obtain ⟨i, j, iBelow, jBelow, oldHere, middle, early⟩ := ih
      obtain ⟨j', k, jBelow', kBelow, middle', newHere, late⟩ := precedes _ _ taken
      have same : j = j' := claimAt_injective distinct jBelow jBelow' (middle.symm.trans middle')
      rw [← same] at late
      exact ⟨i, k, iBelow, kBelow, oldHere, newHere,
        precedes_trans antisymmetric transitive exchangeable early late⟩
  intro node closed
  obtain ⟨i, j, iBelow, jBelow, start, stop, precedes⟩ := chained node node closed
  have same : i = j := claimAt_injective distinct iBelow jBelow (start.symm.trans stop)
  rw [same] at precedes
  exact precedes_irrefl claims temporal j precedes

omit [Blake3] in
/-- Sequential acquisition orients its verdicts. -/
theorem oriented_acquireSequential (claims : List ClaimView) (judge : Judge) (settled : SettledMap)
    (expired : Nat → Bool) (pair : PendingPair) :
    Oriented settled (pair, (acquireSequential claims judge settled expired pair).outcome) := by
  intro verdict reused judged
  dsimp only at judged ⊢
  unfold acquireSequential at judged
  cases held : settled[(pair.older, pair.newer)]? with
  | some known =>
    rw [held] at judged
    injection judged with same _
    exact Or.inl (congrArg some same)
  | none =>
    rw [held] at judged
    cases failure : pair.temporalFailure with
    | some failureClass =>
      rw [failure] at judged
      cases judged
    | none => exact Or.inr ⟨rfl, rfl⟩

omit [Blake3] in
/-- Handing out answers leaves the slots of no group as they were. -/
theorem foldl_fanOut_outside {groups : List (List Nat)} {results : JobResults}
    {slots : List (Option PairOutcome)} {idx : Nat} (outside : ∀ members ∈ groups, idx ∉ members) :
    (groups.foldl fanOut (results, slots)).2[idx]? = slots[idx]? := by
  induction groups generalizing results slots with
  | nil => rfl
  | cons members rest ih =>
    rw [List.foldl_cons]
    have later : ∀ others ∈ rest, idx ∉ others := fun others member =>
      outside others (List.mem_cons_of_mem _ member)
    refine (ih later).trans ?_
    rw [getElem?_foldl_set, if_neg fun both => outside members List.mem_cons_self both.1]

omit [Blake3] in
/-- Parallel acquisition orients its verdicts, whatever its workers answer. -/
theorem oriented_acquireParallel (claims : List ClaimView) (settled : SettledMap)
    (pending : List PendingPair) (results : JobResults) {row : PendingPair × PairOutcome}
    (member : row ∈ pending.zip ((acquireParallel (groupPairs claims settled pending) results).map
      fun slot => slot.getD (.failed budgetExhausted))) : Oriented settled row := by
  intro verdict reused judged
  obtain ⟨idx, lookup⟩ := List.mem_iff_getElem?.mp member
  obtain ⟨here, outcome⟩ := List.getElem?_zip_eq_some.mp lookup
  have inside : idx < pending.length := (List.getElem?_eq_some_iff.mp here).1
  have placed := grouped_groupPairs claims settled pending
  cases ready : readyOutcome settled row.1 with
  | none =>
    right
    unfold readyOutcome at ready
    cases held : settled[(row.1.older, row.1.newer)]? with
    | some known => simp [held] at ready
    | none =>
      rw [held] at ready
      exact ⟨rfl, Option.map_eq_none_iff.mp ready⟩
  | some answer =>
    have untouched : ∀ members ∈ (groupPairs claims settled pending).groups.toList.map Prod.snd,
        idx ∉ members := by
      intro members listed inGroup
      obtain ⟨group, grouped, rfl⟩ := List.mem_map.mp listed
      have found := Std.ExtTreeMap.mem_toList_iff_getElem?_eq_some.mp grouped
      obtain ⟨other, there, unready, _⟩ := (placed.members _ _ found).2 idx inGroup
      rw [here] at there
      rw [← Option.some.inj there, ready] at unready
      cases unready
    have slot : (acquireParallel (groupPairs claims settled pending) results)[idx]? =
        some (some answer) := by
      rw [acquireParallel, foldl_fanOut_outside untouched]
      exact placed.ready idx row.1 answer inside here ready
    rw [List.getElem?_map, slot] at outcome
    have answered : answer = .judged verdict reused := (Option.some.inj outcome).trans judged
    left
    unfold readyOutcome at ready
    cases held : settled[(row.1.older, row.1.newer)]? with
    | some known =>
      rw [held, answered] at ready
      injection Option.some.inj ready with same _
      exact congrArg some same
    | none =>
      rw [held, answered] at ready
      obtain ⟨_, _, failed⟩ := Option.map_eq_some_iff.mp ready
      cases failed

/-- An edge of a complete outcome leads from a claim to one it precedes, at any concurrency and
on any schedule. -/
theorem succeeded_precedes {claims : List ClaimView} {embedder : Embedder Score} {judge : Judge}
    {thresholds : RelateThresholds Score} {settled : SettledMap} {options : RelateOptions}
    {concurrency : Nat} {schedule : List PoolMove}
    (distinct : (claims.map ClaimView.claimId).Nodup)
    (antisymmetric : options.temporal.Antisymmetric)
    (inOrder : SettledInOrder claims options.temporal settled) {outcome : CompleteRelateOutcome}
    (related : relateClaimsParallel claims embedder judge thresholds settled options concurrency
      schedule = some (.ok (.complete outcome))) {old new : ClaimId}
    (succeeded : outcome.Succeeded old new) :
    ∃ i j, i < claims.length ∧ j < claims.length ∧ old = (claimAt claims i).claimId ∧
      new = (claimAt claims j).claimId ∧ Precedes claims options.temporal i j := by
  obtain ⟨edge, member, rfl, rfl⟩ := succeeded
  unfold relateClaimsParallel at related
  cases prepared : preparePairs claims embedder thresholds settled options.temporal
      options.candidatePairBudget options.candidateCursor with
  | error error =>
    rw [prepared] at related
    cases related
  | ok page =>
    cases page with
    | none =>
      rw [prepared] at related
      injection related with same
      rw [← RelateOutcome.complete.inj (Except.ok.inj same)] at member
      cases member
    | some page =>
      by_cases few : claims.length < 2
      · rw [preparePairs, if_pos few] at prepared
        cases prepared
      cases embedded : embedder.embedBatch (claims.map embeddingText) with
      | error error =>
        rw [preparePairs, if_neg few, embedded] at prepared
        cases prepared
      | ok embeddings =>
        let inputs : RelateInputs Score := ⟨claims, embedder, thresholds, embeddings, embedded⟩
        have several : 2 ≤ inputs.claims.length := Nat.le_of_not_lt few
        have pages := preparePairs_eq inputs settled options.temporal options.candidatePairBudget
          options.candidateCursor several
        have same := Option.some.inj (Except.ok.inj (prepared.symm.trans pages))
        have slots : ∀ pair ∈ page.pending, ∃ ordinal slot, slot.1 < slot.2 ∧
            slot.2 < inputs.claims.length ∧
            pair = inputs.pendingAt settled options.temporal ordinal slot := by
          intro pair pending
          rw [same] at pending
          obtain ⟨ordinal, slot, _, _, found, _, made⟩ := mem_pagePending.mp pending
          have bounds := RelateInputs.slot?_bounds found
          exact ⟨ordinal, slot, bounds.2.1, bounds.2.2, made⟩
        rw [prepared] at related
        dsimp only at related
        split at related
        · have acquires : inputs.Acquires settled options.temporal
              ((acquirePage claims judge settled options.expired page.pending).map
                fun pair => (pair.1, pair.2.outcome)) := by
            intro row listed
            rw [acquirePage, List.map_map] at listed
            obtain ⟨pair, pending, rfl⟩ := List.mem_map.mp listed
            exact ⟨oriented_acquireSequential claims judge settled options.expired pair,
              slots pair pending⟩
          exact finishPage_precedes inputs distinct antisymmetric inOrder acquires rfl
            (Except.ok.inj (Option.some.inj related)) member
        · split at related
          · cases related
          · rename_i final _
            split at related
            · have acquires : inputs.Acquires settled options.temporal
                  (page.pending.zip ((acquireParallel (groupPairs claims settled page.pending)
                    (collectResults final.results)).map
                      fun slot => slot.getD (.failed budgetExhausted))) := by
                intro row listed
                exact ⟨oriented_acquireParallel claims settled page.pending _ listed,
                  slots row.1 (List.of_mem_zip listed).1⟩
              exact finishPage_precedes inputs distinct antisymmetric inOrder acquires
                rfl (Except.ok.inj (Option.some.inj related)) member
            · cases related

/-- Supersessions never close a chain. When the claims have distinct ids, source order is an
order in which claims of one revision are exchangeable, and the settled supersessions follow
it, then in every complete outcome, at any concurrency and on any schedule, no chain of edges
closes, and every non-empty set of claims has one that no edge leads from into the set. -/
theorem related_chains_open (claims : List ClaimView) (embedder : Embedder Score) (judge : Judge)
    (thresholds : RelateThresholds Score) (settled : SettledMap) (options : RelateOptions)
    (concurrency : Nat) (schedule : List PoolMove)
    (distinct : (claims.map ClaimView.claimId).Nodup)
    (antisymmetric : options.temporal.Antisymmetric) (transitive : options.temporal.Transitive)
    (exchangeable : options.temporal.Exchangeable)
    (inOrder : SettledInOrder claims options.temporal settled) {outcome : CompleteRelateOutcome}
    (related : relateClaimsParallel claims embedder judge thresholds settled options concurrency
      schedule = some (.ok (.complete outcome))) :
    Acyclic outcome.Succeeded ∧
      ∀ group : Set ClaimId, group.Nonempty →
        ∃ claim ∈ group, ∀ other ∈ group, ¬ outcome.Succeeded claim other := by
  have precedes : ∀ old new, outcome.Succeeded old new → ∃ i j, i < claims.length ∧
      j < claims.length ∧ old = (claimAt claims i).claimId ∧ new = (claimAt claims j).claimId ∧
        Precedes claims options.temporal i j :=
    fun old new succeeded => succeeded_precedes distinct antisymmetric inOrder related succeeded
  have acyclic := acyclic_of_precedes distinct antisymmetric transitive exchangeable precedes
  refine ⟨acyclic, fun group inhabited => ?_⟩
  have lands : ∀ old new, outcome.Succeeded old new → new ∈ claims.map ClaimView.claimId := by
    intro old new succeeded
    obtain ⟨_, j, _, below, _, newHere, _⟩ := precedes old new succeeded
    rw [newHere]
    exact List.mem_map_of_mem (claimAt_mem below)
  exact acyclic.exists_last lands inhabited

end

/-- A judge to whom every newer text supersedes. -/
def alwaysSupersedes : Judge := fun _ _ => .ok ⟨.supersedes, 900000⟩

/-- The options of a pass whose page holds every slot. -/
def wholePage (temporal : RelateTemporalPolicy) : RelateOptions where
  temporal := temporal
  candidatePairBudget := 100
  candidateCursor := 0

/-- Facts that no pair has in both directions are antisymmetric. -/
theorem RelateTemporalPolicy.antisymmetric_of_directed {temporal : RelateTemporalPolicy}
    (directed : ∀ left right, (left, right) ∈ temporal.snapshotRelations →
      (right, left) ∉ temporal.snapshotRelations) : temporal.Antisymmetric := by
  intro left right
  unfold RelateTemporalPolicy.compareClaims
  cases temporal.claimSnapshots[left.value]? with
  | none =>
    cases temporal.claimSnapshots[right.value]? with
    | none => rfl
    | some snapshot => rfl
  | some left =>
    cases temporal.claimSnapshots[right.value]? with
    | none => rfl
    | some right =>
      dsimp only
      by_cases same : left = right
      · rw [if_pos same, if_pos same.symm]
        rfl
      · rw [if_neg same, if_neg fun other => same other.symm]
        cases forward : temporal.snapshotRelations[(left, right)]? with
        | some relation =>
          have held : (left, right) ∈ temporal.snapshotRelations :=
            Std.ExtTreeMap.isSome_getElem?_iff_mem.mp (by rw [forward]; rfl)
          rw [Std.ExtTreeMap.getElem?_eq_none (directed left right held)]
          rfl
        | none =>
          cases temporal.snapshotRelations[(right, left)]? with
          | none => rfl
          | some relation => simp

/-- A claim before another is bound to a revision recorded as before the other's. -/
theorem compareClaims_before {temporal : RelateTemporalPolicy} {left right : ClaimId}
    (before : temporal.compareClaims left right = some .before) :
    ∃ early late, temporal.claimSnapshots[left.value]? = some early ∧
      temporal.claimSnapshots[right.value]? = some late ∧
        (temporal.snapshotRelations[(early, late)]? = some .before ∨
          temporal.snapshotRelations[(late, early)]? = some .after) := by
  unfold RelateTemporalPolicy.compareClaims at before
  cases early : temporal.claimSnapshots[left.value]? with
  | none =>
    cases late : temporal.claimSnapshots[right.value]? with
    | none => simp [early, late] at before
    | some snapshot => simp [early, late] at before
  | some first =>
    cases late : temporal.claimSnapshots[right.value]? with
    | none => simp [early, late] at before
    | some second =>
      refine ⟨first, second, rfl, rfl, ?_⟩
      simp only [early, late] at before
      split at before
      · cases before
      · cases forward : temporal.snapshotRelations[(first, second)]? with
        | some relation =>
          rw [forward] at before
          exact Or.inl before
        | none =>
          rw [forward] at before
          cases backward : temporal.snapshotRelations[(second, first)]? with
          | some relation =>
            rw [backward] at before
            right
            cases relation with
            | after => rfl
            | before => cases before
            | same => cases before
            | concurrent => cases before
            | unknown => cases before
          | none =>
            rw [backward] at before
            cases before

/-- The edges of a complete answer. -/
def answeredEdges : Option (Except TexoError RelateOutcome) → Option (List (ClaimId × ClaimId))
  | some (.ok (.complete outcome)) =>
    some (outcome.related.supersessions.map fun edge => (edge.oldClaim, edge.newClaim))
  | _ => none

/-- The edges of an answer are those of its complete outcome. -/
theorem complete_of_answeredEdges {answer : Option (Except TexoError RelateOutcome)}
    {edges : List (ClaimId × ClaimId)} (answered : answeredEdges answer = some edges) :
    ∃ outcome, answer = some (.ok (.complete outcome)) ∧
      ∀ edge ∈ edges, outcome.Succeeded edge.1 edge.2 := by
  unfold answeredEdges at answered
  split at answered
  · rename_i outcome
    refine ⟨outcome, rfl, ?_⟩
    intro edge member
    rw [← Option.some.inj answered] at member
    obtain ⟨source, listed, rfl⟩ := List.mem_map.mp member
    exact ⟨source, listed, rfl, rfl⟩
  · cases answered

/-- Without evidence no two claims are compared. -/
theorem compareClaims_empty (left right : ClaimId) :
    ({} : RelateTemporalPolicy).compareClaims left right = none :=
  compareClaims_none.mpr ⟨by simp, by simp⟩

/-- The chain law on three claims without evidence or settled verdicts. -/
theorem related_chains_open_three :
    let _ := decimalDigest
    ∃ outcome, relateClaimsParallel threeClaims nearEmbedder alwaysSupersedes ⟨1, 1⟩ ∅
        (wholePage {}) 1 [] = some (.ok (.complete outcome)) ∧
      Acyclic outcome.Succeeded ∧ ∀ group : Set ClaimId, group.Nonempty →
        ∃ claim ∈ group, ∀ other ∈ group, ¬ outcome.Succeeded claim other := by
  let _ := decimalDigest
  have evaluated : answeredEdges (relateClaimsParallel threeClaims nearEmbedder alwaysSupersedes
      ⟨1, 1⟩ ∅ (wholePage {}) 1 []) =
        some [(⟨"claim_a", by decide⟩, ⟨"claim_c", by decide⟩),
          (⟨"claim_b", by decide⟩, ⟨"claim_c", by decide⟩)] := by decide +kernel
  obtain ⟨outcome, related, _⟩ := complete_of_answeredEdges evaluated
  refine ⟨outcome, related, related_chains_open threeClaims nearEmbedder alwaysSupersedes ⟨1, 1⟩ ∅
    (wholePage {}) 1 [] (by decide) ?_ ?_ ?_ ?_ related⟩
  · intro left right
    rw [wholePage, compareClaims_empty, compareClaims_empty]
    rfl
  · intro first second third before
    rw [wholePage, compareClaims_empty] at before
    cases before
  · intro left right third same
    rw [wholePage, compareClaims_empty] at same
    cases same
  · intro old new _ _ verdict held
    simp at held

/-- Three settled supersessions around a ring, one orientation to each pair. -/
def ringSettled : SettledMap :=
  ((∅ : SettledMap).insert
    (⟨"claim_a", Eq.refl true⟩, ⟨"claim_b", Eq.refl true⟩) ⟨.supersedes, 1⟩).insert
    (⟨"claim_b", Eq.refl true⟩, ⟨"claim_c", Eq.refl true⟩) ⟨.supersedes, 1⟩ |>.insert
    (⟨"claim_c", Eq.refl true⟩, ⟨"claim_a", Eq.refl true⟩) ⟨.supersedes, 1⟩

/-- No pair of the ring is settled in both directions. -/
theorem ringSettled_oriented {old new : ClaimId} (settled : (old, new) ∈ ringSettled) :
    (new, old) ∉ ringSettled := by
  have keys : ∀ pair, pair ∈ ringSettled → (pair.1.value, pair.2.value) ∈
      [("claim_a", "claim_b"), ("claim_b", "claim_c"), ("claim_c", "claim_a")] := by
    intro pair member
    simp only [ringSettled, Std.ExtTreeMap.mem_insert, Std.LawfulEqCmp.compare_eq_iff_eq] at member
    rcases member with third | second | first | none
    · rw [← third]
      decide
    · rw [← second]
      decide
    · rw [← first]
      decide
    · simp at none
  intro turned
  have directed : ∀ pair ∈ [("claim_a", "claim_b"), ("claim_b", "claim_c"), ("claim_c", "claim_a")],
      (pair.2, pair.1) ∉ [("claim_a", "claim_b"), ("claim_b", "claim_c"), ("claim_c", "claim_a")] := by
    decide
  exact directed _ (keys _ settled) (keys _ turned)

/-- Two claims that share an id. -/
def twinClaims : List ClaimView :=
  [ { claimId := ⟨"claim_a", Eq.refl true⟩, text := "a", normalizedText := "a", sequence := 1 },
    { claimId := ⟨"claim_a", Eq.refl true⟩, text := "b", normalizedText := "b", sequence := 2 } ]

/-- Four claims of two texts, each bound to a revision of its own. -/
def revisedClaims : List ClaimView :=
  [ { claimId := ⟨"claim_a", Eq.refl true⟩, text := "x", normalizedText := "x", sequence := 1 },
    { claimId := ⟨"claim_b", Eq.refl true⟩, text := "y", normalizedText := "y", sequence := 2 },
    { claimId := ⟨"claim_c", Eq.refl true⟩, text := "x", normalizedText := "x", sequence := 3 },
    { claimId := ⟨"claim_d", Eq.refl true⟩, text := "y", normalizedText := "y", sequence := 4 } ]

/-- Two pairs of same revisions, each pair with one revision before one of the other pair. -/
def revisionPolicy : RelateTemporalPolicy where
  claimSnapshots := (((∅ : Std.ExtTreeMap String String).insert "claim_a" "s").insert "claim_b"
    "t").insert "claim_c" "u" |>.insert "claim_d" "v"
  snapshotRelations := (((∅ : PairMap String TemporalRelation).insert ("s", "t") .same).insert
    ("t", "u") .before).insert ("u", "v") .same |>.insert ("v", "s") .before

/-- The facts of the revision policy, looked up. -/
theorem revisionPolicy_fact {pair : String × String} {relation : TemporalRelation}
    (found : revisionPolicy.snapshotRelations[pair]? = some relation) :
    (pair, relation) ∈ [(("s", "t"), TemporalRelation.same), (("t", "u"), .before),
      (("u", "v"), .same), (("v", "s"), .before)] := by
  simp only [revisionPolicy, Std.ExtTreeMap.getElem?_insert,
    Std.LawfulEqCmp.compare_eq_iff_eq] at found
  split at found
  · rename_i same
    rw [← same, ← Option.some.inj found]
    decide
  · split at found
    · rename_i same
      rw [← same, ← Option.some.inj found]
      decide
    · split at found
      · rename_i same
        rw [← same, ← Option.some.inj found]
        decide
      · split at found
        · rename_i same
          rw [← same, ← Option.some.inj found]
          decide
        · simp at found

/-- The revision policy is antisymmetric, and nothing is before what is before something. -/
theorem revisionPolicy_ordered : revisionPolicy.Antisymmetric ∧ revisionPolicy.Transitive := by
  have listed : ∀ pair, pair ∈ revisionPolicy.snapshotRelations →
      pair ∈ [("s", "t"), ("t", "u"), ("u", "v"), ("v", "s")] := by
    intro pair member
    obtain ⟨relation, found⟩ :=
      Option.isSome_iff_exists.mp (Std.ExtTreeMap.isSome_getElem?_iff_mem.mpr member)
    exact List.mem_map_of_mem (f := Prod.fst) (revisionPolicy_fact found)
  constructor
  · apply RelateTemporalPolicy.antisymmetric_of_directed
    intro left right forward backward
    have directed : ∀ pair ∈ [("s", "t"), ("t", "u"), ("u", "v"), ("v", "s")],
        (pair.2, pair.1) ∉ [("s", "t"), ("t", "u"), ("u", "v"), ("v", "s")] := by decide
    exact directed _ (listed _ forward) (listed _ backward)
  · have steps : ∀ left right, revisionPolicy.compareClaims left right = some .before →
        ∃ early late, revisionPolicy.claimSnapshots[left.value]? = some early ∧
          revisionPolicy.claimSnapshots[right.value]? = some late ∧
            (early, late) ∈ [("t", "u"), ("v", "s")] := by
      intro left right before
      obtain ⟨early, late, bound, boundNext, fact⟩ := compareClaims_before before
      refine ⟨early, late, bound, boundNext, ?_⟩
      rcases fact with forward | backward
      · have fact := revisionPolicy_fact forward
        simp at fact
        simpa using fact
      · have fact := revisionPolicy_fact backward
        simp at fact
    intro first second third before beforeNext
    obtain ⟨_, middle, _, here, one⟩ := steps first second before
    obtain ⟨middle', _, here', _, other⟩ := steps second third beforeNext
    rw [here] at here'
    rw [← Option.some.inj here'] at other
    have apart : ∀ one ∈ [("t", "u"), ("v", "s")], ∀ other ∈ [("t", "u"), ("v", "s")],
        one.2 ≠ other.1 := by decide
    exact absurd rfl (apart _ one _ other)

/-- Chains that close: around settled verdicts of one orientation each, along claims that
share an id, and through revisions that are the same as one another but not exchangeable. -/
theorem closed_chains_of_edges :
    let _ := decimalDigest
    ((∀ old new, (old, new) ∈ ringSettled → (new, old) ∉ ringSettled) ∧
        ∃ outcome, relateClaimsParallel threeClaims nearEmbedder alwaysSupersedes ⟨1, 1⟩ ringSettled
          (wholePage {}) 1 [] = some (.ok (.complete outcome)) ∧ ¬ Acyclic outcome.Succeeded) ∧
      (∃ outcome, relateClaimsParallel twinClaims nearEmbedder alwaysSupersedes ⟨1, 1⟩ ∅
          (wholePage {}) 1 [] = some (.ok (.complete outcome)) ∧ ¬ Acyclic outcome.Succeeded) ∧
      (revisionPolicy.Antisymmetric ∧ revisionPolicy.Transitive ∧
        ∃ outcome, relateClaimsParallel revisedClaims nearEmbedder alwaysSupersedes ⟨1, 1⟩ ∅
          (wholePage revisionPolicy) 1 [] = some (.ok (.complete outcome)) ∧
            ¬ Acyclic outcome.Succeeded) := by
  let _ := decimalDigest
  refine ⟨⟨fun _ _ => ringSettled_oriented, ?_⟩, ?_, revisionPolicy_ordered.1, revisionPolicy_ordered.2, ?_⟩
  · have evaluated : answeredEdges (relateClaimsParallel threeClaims nearEmbedder alwaysSupersedes
        ⟨1, 1⟩ ringSettled (wholePage {}) 1 []) =
          some [(⟨"claim_a", by decide⟩, ⟨"claim_b", by decide⟩),
            (⟨"claim_b", by decide⟩, ⟨"claim_c", by decide⟩),
            (⟨"claim_c", by decide⟩, ⟨"claim_a", by decide⟩)] := by decide +kernel
    obtain ⟨outcome, related, edges⟩ := complete_of_answeredEdges evaluated
    simp only [List.forall_mem_cons] at edges
    exact ⟨outcome, related, fun acyclic =>
      acyclic _ (.tail (.tail (.single edges.1) edges.2.1) edges.2.2.1)⟩
  · have evaluated : answeredEdges (relateClaimsParallel twinClaims nearEmbedder alwaysSupersedes
        ⟨1, 1⟩ ∅ (wholePage {}) 1 []) =
          some [(⟨"claim_a", by decide⟩, ⟨"claim_a", by decide⟩)] := by decide +kernel
    obtain ⟨outcome, related, edges⟩ := complete_of_answeredEdges evaluated
    simp only [List.forall_mem_cons] at edges
    exact ⟨outcome, related, fun acyclic => acyclic _ (.single edges.1)⟩
  · have evaluated : answeredEdges (relateClaimsParallel revisedClaims nearEmbedder
        alwaysSupersedes ⟨1, 1⟩ ∅ (wholePage revisionPolicy) 1 []) =
          some [(⟨"claim_a", by decide⟩, ⟨"claim_b", by decide⟩),
            (⟨"claim_b", by decide⟩, ⟨"claim_c", by decide⟩),
            (⟨"claim_c", by decide⟩, ⟨"claim_d", by decide⟩),
            (⟨"claim_d", by decide⟩, ⟨"claim_a", by decide⟩)] := by decide +kernel
    obtain ⟨outcome, related, edges⟩ := complete_of_answeredEdges evaluated
    simp only [List.forall_mem_cons] at edges
    exact ⟨outcome, related, fun acyclic =>
      acyclic _ (.tail (.tail (.tail (.single edges.1) edges.2.1) edges.2.2.1) edges.2.2.2.1)⟩

end Texo.Semantics
