import Texo.Relate.Decided
import Texo.Relate.Pass

/-! # The provenance of what a pass publishes

The keys of a pass are kept under the two claims of each judgment, the older one first, and the
journalled keys replace those of the cache. A supersession is looked up the way it was judged. A
conflict is looked up by the positions of its claims, and finds the key of a judgment that turns
them around only by chance.
-/
namespace Texo.Relate
open Texo.Events Texo.Knowledge Texo.Foundation Texo.Store Texo.Claims Texo.Semantics Texo.Ops

/-- Every settled verdict has its key, and there are no other keys. -/
def SettlementAuthority.Keyed (authority : SettlementAuthority) : Prop :=
  ∀ older newer : ClaimId,
    (older, newer) ∈ authority.verdicts ↔ (older.value, newer.value) ∈ authority.cacheKeys

/-- Settling a card keeps verdicts and keys together. -/
theorem SettlementAuthority.Keyed.settle {authority next : SettlementAuthority}
    (keyed : authority.Keyed) {card : SettlementCard} (step : authority.settle card = .ok next) :
    next.Keyed := by
  unfold SettlementAuthority.settle at step
  split at step
  · rw [← Except.ok.inj step]
    by_cases none : card.deferrals = []
    · rw [if_pos none]
      exact keyed
    · rw [if_neg none]
      exact keyed
  · obtain ⟨settledOlder, _, step⟩ := bind_eq_ok.mp step
    obtain ⟨settledNewer, _, step⟩ := bind_eq_ok.mp step
    rw [← Except.ok.inj step]
    intro older newer
    show (older, newer) ∈ authority.verdicts.insert (settledOlder, settledNewer) _ ↔
      (older.value, newer.value) ∈ authority.cacheKeys.insert
        (settledOlder.value, settledNewer.value) _
    rw [Std.ExtTreeMap.mem_insert, Std.ExtTreeMap.mem_insert, Std.LawfulEqCmp.compare_eq_iff_eq,
      Std.LawfulEqCmp.compare_eq_iff_eq, keyed older newer]
    have named : (settledOlder, settledNewer) = (older, newer) ↔
        (settledOlder.value, settledNewer.value) = (older.value, newer.value) := by
      constructor
      · intro same
        rw [(Prod.mk.inj same).1, (Prod.mk.inj same).2]
      · intro same
        rw [Branded.ext (Prod.mk.inj same).1, Branded.ext (Prod.mk.inj same).2]
    rw [named]

/-- The authority read off a journal is keyed. -/
theorem authoritativeSettlements_keyed {store : JournalRead} {workspaceId : String}
    {frontier : Option Nat} {authority : SettlementAuthority}
    (read : authoritativeSettlements store workspaceId frontier = .ok authority) :
    authority.Keyed := by
  refine foldlM_preserves SettlementAuthority.Keyed ?_ read ?_
  · intro earlier entity _ next step keyed
    obtain ⟨card, _, settles⟩ := bind_eq_ok.mp step
    exact keyed.settle settles
  · intro older newer
    simp

/-- The claim of a known position is found under its id. -/
theorem claimById_of_index {claims : List Semantics.ClaimView} {claimId : ClaimId} {idx : Nat}
    (found : (indexById claims)[claimId.value]? = some idx) :
    ∃ claim, claimById claims claimId = some claim := by
  have named := indexById_claim found
  have listed := claimAt_mem (indexById_lt found)
  cases lookup : claimById claims claimId with
  | some claim => exact ⟨claim, rfl⟩
  | none =>
    have absent := List.find?_eq_none.mp lookup _ (List.mem_reverse.mpr listed)
    have same : (claimAt claims idx).claimId = claimId := Branded.ext named
    exact absurd same (by simpa using absent)

/-- The cache key of a judgment made now. -/
def freshKey (cacheKey : String → String → String) (claims : List Semantics.ClaimView)
    (older newer : ClaimId) : String :=
  match claimById claims older, claimById claims newer with
  | some old, some new => cacheKey old.text new.text
  | _, _ => ""

/-- The keys of judgments are those of their pairs, and every judgment of known claims has one. -/
theorem relateCacheKeys_spec (cacheKey : String → String → String)
    (claims : List Semantics.ClaimView) (outcome : RelateOutcome) :
    (∀ (older newer : ClaimId) (key : String),
      (relateCacheKeys cacheKey claims outcome)[(older.value, newer.value)]? = some key →
        key = freshKey cacheKey claims older newer ∧
          ∃ judgment ∈ outcome.judgments, judgment.olderClaim = older ∧
          judgment.newerClaim = newer) ∧
      ∀ judgment ∈ outcome.judgments, ∀ old new,
        claimById claims judgment.olderClaim = some old →
          claimById claims judgment.newerClaim = some new →
            (judgment.olderClaim.value, judgment.newerClaim.value) ∈
              relateCacheKeys cacheKey claims outcome := by
  unfold relateCacheKeys
  induction outcome.judgments using List.reverseRecOn with
  | nil => exact ⟨by simp, by simp⟩
  | append_singleton earlier judgment ih =>
    rw [List.foldl_append, List.foldl_cons, List.foldl_nil]
    obtain ⟨values, present⟩ := ih
    have widened : ∀ {P : PairJudgment → Prop}, (∃ other ∈ earlier, P other) →
        ∃ other ∈ earlier ++ [judgment], P other := by
      rintro P ⟨other, member, holds⟩
      exact ⟨other, List.mem_append_left _ member, holds⟩
    cases foundOld : claimById claims judgment.olderClaim with
    | none =>
      refine ⟨fun older newer key found => ⟨(values older newer key found).1,
        widened (values older newer key found).2⟩, ?_⟩
      intro other member old new oldKnown newKnown
      rcases List.mem_append.mp member with before | last
      · exact present other before old new oldKnown newKnown
      · rw [List.mem_singleton.mp last, foundOld] at oldKnown
        cases oldKnown
    | some oldView =>
      cases foundNew : claimById claims judgment.newerClaim with
      | none =>
        refine ⟨fun older newer key found => ⟨(values older newer key found).1,
          widened (values older newer key found).2⟩, ?_⟩
        intro other member old new oldKnown newKnown
        rcases List.mem_append.mp member with before | last
        · exact present other before old new oldKnown newKnown
        · rw [List.mem_singleton.mp last, foundNew] at newKnown
          cases newKnown
      | some newView =>
        constructor
        · intro older newer key found
          simp only at found
          rw [Std.ExtTreeMap.getElem?_insert] at found
          split at found
          · rename_i same
            have named := Prod.mk.inj (Std.LawfulEqCmp.eq_of_compare same)
            have old : judgment.olderClaim = older := Branded.ext named.1
            have new : judgment.newerClaim = newer := Branded.ext named.2
            refine ⟨?_, judgment, List.mem_append_right _ (List.mem_singleton.mpr rfl), old, new⟩
            rw [← Option.some.inj found, freshKey, ← old, ← new, foundOld, foundNew]
          · exact ⟨(values older newer key found).1, widened (values older newer key found).2⟩
        · intro other member old new oldKnown newKnown
          simp only
          rw [Std.ExtTreeMap.mem_insert, Std.LawfulEqCmp.compare_eq_iff_eq]
          rcases List.mem_append.mp member with before | last
          · exact Or.inr (present other before old new oldKnown newKnown)
          · rw [List.mem_singleton.mp last]
            exact Or.inl rfl

/-- The keys of a pass with the journalled ones laid over them. -/
def overlaidKeys (journalled keys : PairMap String String) : PairMap String String :=
  journalled.toList.foldl (fun keys known => keys.insert known.1 known.2) keys

/-- A journalled key replaces that of the pass; the others stay. -/
theorem getElem?_overlaidKeys (journalled keys : PairMap String String) (pair : String × String) :
    (overlaidKeys journalled keys)[pair]? = (journalled[pair]?).or keys[pair]? := by
  have folded : ∀ (known : List ((String × String) × String)) (start : PairMap String String),
      (∀ first ∈ known, ∀ second ∈ known, first.1 = second.1 → first = second) →
      (known.foldl (fun keys known => keys.insert known.1 known.2) start)[pair]? =
        ((known.find? fun row => row.1 = pair).map Prod.snd).or start[pair]? := by
    intro known
    induction known using List.reverseRecOn with
    | nil => intro start _; simp
    | append_singleton earlier row ih =>
      intro start apart
      rw [List.foldl_append, List.foldl_cons, List.foldl_nil, Std.ExtTreeMap.getElem?_insert,
        List.find?_append, ih start fun first firstIn second secondIn =>
          apart first (List.mem_append_left _ firstIn) second (List.mem_append_left _ secondIn)]
      by_cases own : row.1 = pair
      · rw [if_pos (Std.LawfulEqCmp.compare_eq_iff_eq.mpr own)]
        cases before : earlier.find? fun row => row.1 = pair with
        | none => simp [own]
        | some other =>
          have member := List.mem_of_find?_eq_some before
          have key : other.1 = pair := by simpa using List.find?_some before
          have same : other = row := apart other (List.mem_append_left _ member) row
            (List.mem_append_right _ (List.mem_singleton.mpr rfl)) (key.trans own.symm)
          simp [same]
      · rw [if_neg fun same => own (Std.LawfulEqCmp.eq_of_compare same)]
        simp [own]
  have apart : ∀ first ∈ journalled.toList, ∀ second ∈ journalled.toList,
      first.1 = second.1 → first = second := by
    intro first firstIn second secondIn same
    have one := Std.ExtTreeMap.mem_toList_iff_getElem?_eq_some.mp
      (show (first.1, first.2) ∈ journalled.toList from firstIn)
    have two := Std.ExtTreeMap.mem_toList_iff_getElem?_eq_some.mp
      (show (second.1, second.2) ∈ journalled.toList from secondIn)
    rw [same, two] at one
    exact Prod.ext same (Option.some.inj one).symm
  rw [overlaidKeys, folded journalled.toList keys apart]
  congr 1
  cases held : journalled[pair]? with
  | none =>
    have absent : (journalled.toList.find? fun row => row.1 = pair) = none := by
      apply List.find?_eq_none.mpr
      intro row member same
      have key : row.1 = pair := by simpa using same
      have found := Std.ExtTreeMap.mem_toList_iff_getElem?_eq_some.mp
        (show (row.1, row.2) ∈ journalled.toList from member)
      rw [key, held] at found
      cases found
    rw [absent]
    rfl
  | some key =>
    have member := Std.ExtTreeMap.mem_toList_iff_getElem?_eq_some.mpr held
    cases found : journalled.toList.find? fun row => row.1 = pair with
    | none =>
      have absent := List.find?_eq_none.mp found _ member
      simp at absent
    | some row =>
      have inside := List.mem_of_find?_eq_some found
      have same : row.1 = pair := by simpa using List.find?_some found
      rw [apart row inside (pair, key) member same]
      rfl

/-- A slot's verdict is reused exactly where the journal has settled its pair. -/
theorem acquireSequential_reused {claims : List Semantics.ClaimView} {judge : Judge}
    {settled : SettledMap} {expired : Nat → Bool} {pair : PendingPair} {verdict : RelationVerdict}
    {reused : Bool}
    (answer : (acquireSequential claims judge settled expired pair).outcome =
      .judged verdict reused) : reused = true ↔ (pair.older, pair.newer) ∈ settled := by
  rw [← Std.ExtTreeMap.isSome_getElem?_iff_mem]
  unfold acquireSequential at answer
  cases held : settled[(pair.older, pair.newer)]? with
  | some settledVerdict =>
    simp only [held, PairOutcome.judged.injEq] at answer
    simp [← answer.2]
  | none =>
    simp only [held] at answer
    cases failure : pair.temporalFailure with
    | some failureClass =>
      rw [failure] at answer
      cases answer
    | none =>
      simp only [failure] at answer
      by_cases late : expired pair.cursor = true
      · rw [if_pos late] at answer
        cases answer
      · rw [if_neg late] at answer
        cases judged : judge (claimAt claims pair.oldIdx).text (claimAt claims pair.newIdx).text with
        | error failure =>
          rw [judged] at answer
          cases answer
        | ok fresh =>
          rw [judged] at answer
          simp only [PairOutcome.judged.injEq] at answer
          simp [← answer.2]

/-- A conflicting pair was judged a conflict, by the positions of its claims. -/
theorem conflictPairs_judged (claims : List Semantics.ClaimView) (temporal : RelateTemporalPolicy)
    (acquired : List (PendingPair × PairOutcome)) :
    ∀ sides ∈ (collectPairReduction claims temporal acquired).conflictPairs, ∃ pair ∈ acquired,
      sides = (min pair.1.oldIdx pair.1.newIdx, max pair.1.oldIdx pair.1.newIdx) ∧
        ∃ scorePpm reused, pair.2 = .judged ⟨.conflict, scorePpm⟩ reused := by
  induction acquired using List.reverseRecOn with
  | nil => intro sides member; cases member
  | append_singleton earlier pair ih =>
    intro sides member
    obtain ⟨pending, outcome⟩ := pair
    have widened : sides ∈ (collectPairReduction claims temporal earlier).conflictPairs →
        ∃ pair ∈ earlier ++ [(pending, outcome)],
          sides = (min pair.1.oldIdx pair.1.newIdx, max pair.1.oldIdx pair.1.newIdx) ∧
            ∃ scorePpm reused, pair.2 = .judged ⟨.conflict, scorePpm⟩ reused := by
      intro before
      obtain ⟨pair, inside, holds⟩ := ih sides before
      exact ⟨pair, List.mem_append_left _ inside, holds⟩
    unfold collectPairReduction at member
    rw [List.foldl_append, List.foldl_cons, List.foldl_nil] at member
    cases outcome with
    | failed failure => exact widened member
    | judged verdict reused =>
      obtain ⟨relation, score⟩ := verdict
      cases relation with
      | supersedes =>
        have kept := (noteWinner_rest
          { earlier.foldl (collectPair claims temporal) {} with
            judgments := (earlier.foldl (collectPair claims temporal) {}).judgments ++
              [⟨pending.older, pending.newer, ⟨.supersedes, score⟩, reused⟩] }
          claims temporal pending.oldIdx pending.newIdx).1
        apply widened
        have inside : sides ∈ (PairReduction.noteWinner _ claims temporal pending.oldIdx
          pending.newIdx).conflictPairs := member
        rw [kept] at inside
        exact inside
      | conflict =>
        rcases List.mem_append.mp member with before | last
        · exact widened before
        · exact ⟨(pending, .judged ⟨.conflict, score⟩ reused),
            List.mem_append_right _ (List.mem_singleton.mpr rfl), List.mem_singleton.mp last, score,
            reused, rfl⟩
      | duplicate => exact widened member
      | unrelated => exact widened member

/-- The key of a judgment: the journalled one where it is settled, else that of the cache. -/
def judgmentKey (cacheKey : String → String → String) (claims : List Semantics.ClaimView)
    (authority : SettlementAuthority) (judgment : PairJudgment) : String :=
  if judgment.reusedAuthority then
    cacheKeyOf authority.cacheKeys judgment.olderClaim judgment.newerClaim
  else
    freshKey cacheKey claims judgment.olderClaim judgment.newerClaim

/-- What the keys of a complete pass say: the key of each judgment stands under its claims, and
where known claims have a key they have a judgment. -/
structure KeysOf (keys : PairMap String String) (keyOf : PairJudgment → String)
    (claims : List Semantics.ClaimView) (judgments : List PairJudgment) : Prop where
  stands : ∀ judgment ∈ judgments,
    cacheKeyOf keys judgment.olderClaim judgment.newerClaim = keyOf judgment
  judged : ∀ older newer : ClaimId, (older.value, newer.value) ∈ keys →
    (indexById claims)[older.value]?.isSome → (indexById claims)[newer.value]?.isSome →
      ∃ judgment ∈ judgments, judgment.olderClaim = older ∧ judgment.newerClaim = newer

/-- A judgment of one kind on two claims, the first of them the older one. -/
def Judges (judgments : List PairJudgment) (relation : ClaimRelation) (older newer : ClaimId)
    (judgment : PairJudgment) : Prop :=
  judgment ∈ judgments ∧ judgment.verdict.relation = relation ∧ judgment.olderClaim = older ∧
    judgment.newerClaim = newer

/-- A conflict is kept under the order its judgment gives the claims, or finds the key of that
judgment nevertheless: with another judgment of the pair, or empty as the key nothing has. -/
def KeyInOrder (judgments : List PairJudgment) (keyOf : PairJudgment → String)
    (entry : ConflictEntry) : Prop :=
  (∃ judgment, Judges judgments .conflict entry.claimA entry.claimB judgment) ∨
    ∃ judgment, Judges judgments .conflict entry.claimB entry.claimA judgment ∧
      ((∃ other ∈ judgments, other.olderClaim = entry.claimA ∧ other.newerClaim = entry.claimB ∧
          keyOf other = keyOf judgment) ∨
        ((∀ other ∈ judgments, ¬ (other.olderClaim = entry.claimA ∧
          other.newerClaim = entry.claimB)) ∧ keyOf judgment = ""))

/-- The key found for a conflict is that of a conflict judgment of its claims exactly where that
judgment has them in order, or its key is found by chance. -/
theorem conflict_key_iff {keys : PairMap String String} {keyOf : PairJudgment → String}
    {claims : List Semantics.ClaimView} {judgments : List PairJudgment}
    (known : KeysOf keys keyOf claims judgments) {entry : ConflictEntry}
    (knownA : (indexById claims)[entry.claimA.value]?.isSome)
    (knownB : (indexById claims)[entry.claimB.value]?.isSome) :
    (∃ judgment, (Judges judgments .conflict entry.claimA entry.claimB judgment ∨
        Judges judgments .conflict entry.claimB entry.claimA judgment) ∧
      cacheKeyOf keys entry.claimA entry.claimB = keyOf judgment) ↔
      KeyInOrder judgments keyOf entry := by
  have found : ∀ other ∈ judgments, other.olderClaim = entry.claimA →
      other.newerClaim = entry.claimB → cacheKeyOf keys entry.claimA entry.claimB = keyOf other := by
    intro other member older newer
    rw [← older, ← newer]
    exact known.stands other member
  have nothing : (∀ other ∈ judgments, ¬ (other.olderClaim = entry.claimA ∧
      other.newerClaim = entry.claimB)) → cacheKeyOf keys entry.claimA entry.claimB = "" := by
    intro none
    have absent : (entry.claimA.value, entry.claimB.value) ∉ keys := by
      intro member
      obtain ⟨other, inside, older, newer⟩ := known.judged _ _ member knownA knownB
      exact none other inside ⟨older, newer⟩
    unfold cacheKeyOf
    rw [Std.ExtTreeMap.getElem?_eq_none absent]
    rfl
  constructor
  · rintro ⟨judgment, forward | backward, key⟩
    · exact Or.inl ⟨judgment, forward⟩
    · refine Or.inr ⟨judgment, backward, ?_⟩
      by_cases some : ∃ other ∈ judgments, other.olderClaim = entry.claimA ∧
          other.newerClaim = entry.claimB
      · obtain ⟨other, member, older, newer⟩ := some
        exact Or.inl ⟨other, member, older, newer, (found other member older newer).symm.trans key⟩
      · have none : ∀ other ∈ judgments, ¬ (other.olderClaim = entry.claimA ∧
            other.newerClaim = entry.claimB) :=
          fun other member both => some ⟨other, member, both⟩
        exact Or.inr ⟨none, key.symm.trans (nothing none)⟩
  · rintro (⟨judgment, forward⟩ | ⟨judgment, backward,
      ⟨other, member, older, newer, key⟩ | ⟨none, empty⟩⟩)
    · exact ⟨judgment, Or.inl forward, found judgment forward.1 forward.2.2.1 forward.2.2.2⟩
    · exact ⟨judgment, Or.inr backward, (found other member older newer).trans key⟩
    · exact ⟨judgment, Or.inr backward, (nothing none).trans empty.symm⟩

section
variable {Score : Type} [Blake3]

/-- The judgments of a complete pass over a keyed authority: both claims are known, the settled
ones are exactly those of the authority, and every settled pair of known claims is among them. -/
theorem complete_judgments {world : RelateWorld Score} {claims : List Semantics.ClaimView}
    {settled : SettledMap} {temporal : RelateTemporalPolicy} {budget cursor : Nat}
    {outcome : CompleteRelateOutcome}
    (related : world.outcome claims settled temporal budget cursor = .ok (.complete outcome)) :
    outcome.related = {} ∨ ∃ pairs, outcome.related = (reduceOutcomes claims temporal pairs).related ∧
      (∀ pair ∈ pairs, (indexById claims)[pair.1.older.value]? = some pair.1.oldIdx ∧
        (indexById claims)[pair.1.newer.value]? = some pair.1.newIdx ∧
        ∃ verdict reused, pair.2 = .judged verdict reused ∧
          (reused = true ↔ (pair.1.older, pair.1.newer) ∈ settled)) ∧
      ∀ older newer : ClaimId, (older, newer) ∈ settled →
        (indexById claims)[older.value]?.isSome → (indexById claims)[newer.value]?.isSome →
          ∃ pair ∈ pairs, pair.1.older = older ∧ pair.1.newer = newer := by
  unfold RelateWorld.outcome at related
  split at related
  · cases related
  · left
    rw [← RelateOutcome.complete.inj (Except.ok.inj related)]
  · rename_i prepared _
    right
    have finished := Except.ok.inj related
    obtain ⟨same, _⟩ := finishPage_complete finished
    refine ⟨_, same, ?_, ?_⟩
    · intro pair member
      obtain ⟨old, new, verdict, held, answer⟩ := authoritativePairs_named member
      refine ⟨old, new, verdict, _, answer, ?_⟩
      rw [decide_eq_true_eq]
      have acquiredHere : ∀ judgment ∈ (reduceOutcomes claims temporal
          (world.acquire claims settled prepared.pending)).related.judgments,
            (judgment.reusedAuthority = true ↔ judgment.key ∈ settled) := by
        intro judgment listed
        rw [judgments_reduceOutcomes] at listed
        obtain ⟨⟨pending, result⟩, acquired, judged⟩ := List.mem_filterMap.mp listed
        obtain ⟨slot, _, made⟩ := List.mem_map.mp acquired
        obtain ⟨rfl, answered⟩ := Prod.mk.inj made
        cases result with
        | failed failure => cases judged
        | judged verdict reused =>
          rw [← Option.some.inj judged]
          exact acquireSequential_reused answered
      constructor
      · intro stale
        rcases getElem?_foldl_insertJudgment held with earlier | ⟨judgment, listed, key, _⟩
        · exact Std.ExtTreeMap.isSome_getElem?_iff_mem.mp (by rw [earlier]; rfl)
        · rw [← key]
          apply (acquiredHere judgment listed).mp
          by_contra notReused
          refine stale ?_
          rw [← key]
          exact List.mem_map_of_mem (f := PairJudgment.key)
            (List.mem_filter.mpr ⟨listed, by simpa using notReused⟩)
      · intro known fresh
        obtain ⟨judgment, listed, key⟩ := List.mem_map.mp fresh
        obtain ⟨inside, notReused⟩ := List.mem_filter.mp listed
        have reused := (acquiredHere judgment inside).mpr (by
          show (judgment.olderClaim, judgment.newerClaim) ∈ settled
          rw [key]
          exact known)
        rw [reused] at notReused
        cases notReused
    · intro older newer known oldKnown newKnown
      obtain ⟨oldIdx, old⟩ := Option.isSome_iff_exists.mp oldKnown
      obtain ⟨newIdx, new⟩ := Option.isSome_iff_exists.mp newKnown
      have kept : (older, newer) ∈ ((reduceOutcomes claims temporal
          (world.acquire claims settled prepared.pending)).related.judgments.foldl insertJudgment
            settled) := mem_foldl_insertJudgment.mpr (Or.inl known)
      obtain ⟨verdict, held⟩ :=
        Option.isSome_iff_exists.mp (Std.ExtTreeMap.isSome_getElem?_iff_mem.mpr kept)
      have listed := Std.ExtTreeMap.mem_toList_iff_getElem?_eq_some.mpr held
      obtain ⟨row, made, oldHere, newHere⟩ : ∃ row, authorityRow claims
          (((reduceOutcomes claims temporal
            (world.acquire claims settled prepared.pending)).related.judgments.filter fun judgment =>
              !judgment.reusedAuthority).map fun judgment =>
                (judgment.olderClaim, judgment.newerClaim))
          prepared.claimClusters ((older, newer), verdict) = some row ∧
            row.pair.older = older ∧ row.pair.newer = newer := by
        unfold authorityRow
        rw [old, new]
        exact ⟨_, rfl, rfl, rfl⟩
      refine ⟨(row.pair, row.outcome), ?_, oldHere, newHere⟩
      exact List.mem_map_of_mem (f := fun row : AuthorityRow => (row.pair, row.outcome))
        ((List.mem_insertionSort _).mpr (List.mem_filterMap.mpr ⟨_, listed, made⟩))

/-- The keys a complete pass leaves, if it decides anything. -/
theorem keysOf_complete {world : RelateWorld Score} {claims : List Semantics.ClaimView}
    {authority : SettlementAuthority} (keyed : authority.Keyed) {temporal : RelateTemporalPolicy}
    {budget cursor : Nat} {outcome : CompleteRelateOutcome}
    (related : world.outcome claims authority.verdicts temporal budget cursor =
      .ok (.complete outcome)) :
    outcome.related = {} ∨
      KeysOf (overlaidKeys authority.cacheKeys
          (relateCacheKeys world.cacheKey claims (.complete outcome)))
        (judgmentKey world.cacheKey claims authority) claims outcome.related.judgments := by
  obtain ⟨values, present⟩ := relateCacheKeys_spec world.cacheKey claims (.complete outcome)
  refine (complete_judgments related).imp_right ?_
  rintro ⟨pairs, same, pairsKnown, settledPairs⟩
  have listed : outcome.related.judgments = pairs.filterMap judgmentOf := by
    rw [same, judgments_reduceOutcomes]
  constructor
  · intro judgment member
    rw [listed] at member
    obtain ⟨⟨pending, result⟩, acquired, judged⟩ := List.mem_filterMap.mp member
    obtain ⟨old, new, verdict, reused, answer, settledHere⟩ := pairsKnown _ acquired
    obtain rfl : result = .judged verdict reused := answer
    obtain rfl : judgment = ⟨pending.older, pending.newer, verdict, reused⟩ :=
      (Option.some.inj judged).symm
    unfold cacheKeyOf judgmentKey
    rw [getElem?_overlaidKeys]
    cases reused with
    | true =>
      -- A settled judgment has a journalled key, which replaces that of the cache.
      have journalled := (keyed _ _).mp (settledHere.mp rfl)
      obtain ⟨key, held⟩ :=
        Option.isSome_iff_exists.mp (Std.ExtTreeMap.isSome_getElem?_iff_mem.mpr journalled)
      rw [held, if_pos rfl, cacheKeyOf, held]
      rfl
    | false =>
      have absent : authority.cacheKeys[(pending.older.value, pending.newer.value)]? = none := by
        apply Std.ExtTreeMap.getElem?_eq_none
        intro journalled
        have reused := settledHere.mpr ((keyed _ _).mpr journalled)
        cases reused
      obtain ⟨oldView, oldFound⟩ := claimById_of_index old
      obtain ⟨newView, newFound⟩ := claimById_of_index new
      have here := present ⟨pending.older, pending.newer, verdict, false⟩
        (by
          show _ ∈ outcome.related.judgments
          rw [listed]
          exact member) oldView newView oldFound newFound
      obtain ⟨key, held⟩ :=
        Option.isSome_iff_exists.mp (Std.ExtTreeMap.isSome_getElem?_iff_mem.mpr here)
      rw [absent, if_neg Bool.false_ne_true, Option.none_or, held]
      exact (values _ _ _ held).1
  · intro older newer member oldKnown newKnown
    have found := Std.ExtTreeMap.isSome_getElem?_iff_mem.mpr member
    rw [getElem?_overlaidKeys] at found
    cases journalled : authority.cacheKeys[(older.value, newer.value)]? with
    | some key =>
      have settledHere := (keyed older newer).mpr
        (Std.ExtTreeMap.isSome_getElem?_iff_mem.mp (by rw [journalled]; rfl))
      obtain ⟨⟨pending, result⟩, inside, oldHere, newHere⟩ :=
        settledPairs older newer settledHere oldKnown newKnown
      obtain ⟨_, _, verdict, reused, answer, _⟩ := pairsKnown _ inside
      obtain rfl : result = .judged verdict reused := answer
      refine ⟨⟨pending.older, pending.newer, verdict, reused⟩, ?_, oldHere, newHere⟩
      rw [listed]
      exact List.mem_filterMap.mpr ⟨_, inside, rfl⟩
    | none =>
      rw [journalled, Option.none_or] at found
      obtain ⟨key, held⟩ := Option.isSome_iff_exists.mp found
      exact (values older newer key held).2

/-- The events and rows of supersessions carry the key of the judgment of their claims. -/
structure SupersessionsCarry (events : List Payload) (rows : List RelateSupersessionRow)
    (judgments : List PairJudgment) (keyOf : PairJudgment → String) : Prop where
  events : ∀ event, Payload.claimSuperseded event ∈ events → ∃ old new judgment,
    event.oldClaimId = old.value ∧ event.newClaimId = new.value ∧
      Judges judgments .supersedes old new judgment ∧
      event.transition.causes = [⟨0, "relate:" ++ keyOf judgment⟩]
  rows : ∀ row ∈ rows, ∃ old new judgment, row.oldClaimId = old.value ∧ row.newClaimId = new.value ∧
    Judges judgments .supersedes old new judgment ∧ row.cacheKey = keyOf judgment

/-- The events and rows of conflicts carry the key of a conflict judgment of their claims, whichever
of the two is the older one. -/
structure ConflictsCarry (events : List Payload) (rows : List RelateConflictRow)
    (judgments : List PairJudgment) (keyOf : PairJudgment → String) : Prop where
  events : ∀ event, Payload.conflictOpened event ∈ events → ∃ a b judgment,
    event.claimA = a.value ∧ event.claimB = b.value ∧
      (Judges judgments .conflict a b judgment ∨ Judges judgments .conflict b a judgment) ∧
      event.transition.causes = [⟨0, "relate:" ++ keyOf judgment⟩]
  rows : ∀ row ∈ rows, ∃ a b judgment, row.claimA = a.value ∧ row.claimB = b.value ∧
    (Judges judgments .conflict a b judgment ∨ Judges judgments .conflict b a judgment) ∧
      row.cacheKey = keyOf judgment

/-- The judgment of an edge, and the positions of a conflict's claims. -/
theorem complete_sides {world : RelateWorld Score} {claims : List Semantics.ClaimView}
    {settled : SettledMap} {temporal : RelateTemporalPolicy} {budget cursor : Nat}
    {outcome : CompleteRelateOutcome}
    (related : world.outcome claims settled temporal budget cursor = .ok (.complete outcome)) :
    (∀ edge ∈ outcome.related.supersessions, ∃ judgment,
        Judges outcome.related.judgments .supersedes edge.oldClaim edge.newClaim judgment) ∧
      ∀ entry ∈ outcome.related.conflicts, (indexById claims)[entry.claimA.value]?.isSome ∧
        (indexById claims)[entry.claimB.value]?.isSome := by
  rcases complete_judgments related with none | ⟨pairs, same, pairsKnown, _⟩
  · constructor
    · intro edge member
      rw [none] at member
      cases member
    · intro entry member
      rw [none] at member
      cases member
  · have covers := covers_collectPairReduction claims temporal pairs
    constructor
    · intro edge member
      rw [same] at member ⊢
      obtain ⟨edges, _⟩ := reduceSupersessions_perm claims
        (collectPairReduction claims temporal pairs).winners
        ((collectPairReduction claims temporal pairs).tainted claims)
      obtain ⟨winner, kept, rfl⟩ := List.mem_map.mp (edges.mem_iff.mp member)
      have won := Std.ExtTreeMap.mem_toList_iff_getElem?_eq_some.mp
        (show (winner.1, winner.2) ∈ _ from (List.mem_filter.mp kept).1)
      obtain ⟨pair, inside, oldHere, newHere, verdict, reused, answer, supersedes⟩ :=
        judged_collectPairReduction claims temporal pairs _ _ won
      obtain ⟨old, new, _⟩ := pairsKnown pair inside
      have oldNamed : pair.1.older = (claimAt claims winner.1).claimId := by
        rw [← oldHere]
        exact Branded.ext (indexById_claim old).symm
      have newNamed : pair.1.newer = (claimAt claims winner.2).claimId := by
        rw [← newHere]
        exact Branded.ext (indexById_claim new).symm
      exact ⟨_, covers.judged pair inside verdict reused answer, supersedes, oldNamed, newNamed⟩
    · intro entry member
      rw [same] at member
      obtain ⟨_, kept⟩ := reduceConflicts_kept claims
        (collectPairReduction claims temporal pairs).conflictPairs
        ((collectPairReduction claims temporal pairs).tainted claims)
        (reduceSupersessions claims (collectPairReduction claims temporal pairs).winners
          ((collectPairReduction claims temporal pairs).tainted claims)).superseded
      obtain ⟨⟨sides, conflicting, rfl⟩, _⟩ := kept entry member
      obtain ⟨pair, inside, rfl, _⟩ := conflictPairs_judged claims temporal pairs sides conflicting
      obtain ⟨old, new, _⟩ := pairsKnown pair inside
      have known : ∀ idx, idx = pair.1.oldIdx ∨ idx = pair.1.newIdx →
          (indexById claims)[(claimAt claims idx).claimId.value]?.isSome := by
        intro idx side
        rcases side with rfl | rfl
        · rw [indexById_claim old, old]
          rfl
        · rw [indexById_claim new, new]
          rfl
      constructor
      · apply known
        show min pair.1.oldIdx pair.1.newIdx = _ ∨ min pair.1.oldIdx pair.1.newIdx = _
        omega
      · apply known
        show max pair.1.oldIdx pair.1.newIdx = _ ∨ max pair.1.oldIdx pair.1.newIdx = _
        omega

/-- What a pass evaluates: the outcome over the settled authority, with its keys overlaid. -/
theorem evaluateRelatePass_spec {fuse : Nat} {op : String} {world : RelateWorld Score} {env : OpEnv}
    {observedAtMs : Nat} {prepared : PreparedRelatePass} {evaluated : EvaluatedRelatePass}
    {left : Nat} {judged : OpEnv}
    (evaluates : evaluateRelatePass fuse op world env observedAtMs prepared =
      .ok (evaluated, left, judged)) :
    ∃ authority, authoritativeSettlements (readable judged.journal) judged.workspaceId none =
        .ok authority ∧
      world.outcome prepared.claims authority.verdicts prepared.temporal
        prepared.candidatePairBudget prepared.candidateCursor = .ok evaluated.related.outcome ∧
      evaluated.related.cacheKeys = overlaidKeys authority.cacheKeys
        (relateCacheKeys world.cacheKey prepared.claims evaluated.related.outcome) := by
  unfold evaluateRelatePass at evaluates
  cases requested : rejudgeRequested fuse op world env observedAtMs prepared with
  | error failure =>
    rw [requested] at evaluates
    cases evaluates
  | ok outcome =>
    obtain ⟨row, spent, after⟩ := outcome
    rw [requested] at evaluates
    simp only at evaluates
    cases read : authoritativeSettlements (readable after.journal) after.workspaceId none with
    | error error =>
      rw [read] at evaluates
      cases evaluates
    | ok authority =>
      rw [read] at evaluates
      simp only at evaluates
      cases answered : relateWithBackends world prepared.claims authority.verdicts prepared.temporal
          prepared.candidatePairBudget prepared.candidateCursor with
      | error error =>
        rw [answered] at evaluates
        cases evaluates
      | ok related =>
        rw [answered] at evaluates
        obtain ⟨first, rest⟩ := Prod.mk.inj (Except.ok.inj evaluates)
        obtain ⟨_, rfl⟩ := Prod.mk.inj rest
        obtain ⟨_, _, answered⟩ := bind_eq_ok.mp answered
        obtain ⟨outcome, ran, answered⟩ := bind_eq_ok.mp answered
        rw [← first, ← Except.ok.inj answered]
        exact ⟨authority, read, ran, rfl⟩

/-- The events and rows of a complete pass carry the keys of the judgments that decided them: those
of supersessions always, and those of conflicts exactly where each conflict is judged in the order
of its claims' positions or finds the key of its judgment by chance. -/
theorem published_keys_iff {fuse : Nat} {op : String} {world : RelateWorld Score} {env : OpEnv}
    {observedAtMs : Nat} {prepared : PreparedRelatePass} {evaluated : EvaluatedRelatePass}
    {left : Nat} {judged : OpEnv} {outcome : CompleteRelateOutcome}
    (evaluates : evaluateRelatePass fuse op world env observedAtMs prepared =
      .ok (evaluated, left, judged))
    (complete : evaluated.related.outcome = .complete outcome) (receipts : List EventId) :
    ∃ authority, authoritativeSettlements (readable judged.journal) judged.workspaceId none =
        .ok authority ∧
      SupersessionsCarry
        (publishedEvents prepared.workspaceId prepared.view evaluated.related observedAtMs)
        (finishRelateOutput prepared evaluated receipts).supersessions outcome.related.judgments
        (judgmentKey world.cacheKey prepared.claims authority) ∧
      (ConflictsCarry
          (publishedEvents prepared.workspaceId prepared.view evaluated.related observedAtMs)
          (finishRelateOutput prepared evaluated receipts).conflicts outcome.related.judgments
          (judgmentKey world.cacheKey prepared.claims authority) ↔
        ∀ entry ∈ newConflicts prepared.view outcome.related.conflicts,
          KeyInOrder outcome.related.judgments
            (judgmentKey world.cacheKey prepared.claims authority) entry) := by
  obtain ⟨authority, read, ran, keys⟩ := evaluateRelatePass_spec evaluates
  rw [complete] at ran keys
  obtain ⟨edgesJudged, sides⟩ := complete_sides ran
  have keyed := authoritativeSettlements_keyed read
  have known : ∀ entry ∈ outcome.related.conflicts, (∃ judgment,
      (Judges outcome.related.judgments .conflict entry.claimA entry.claimB judgment ∨
        Judges outcome.related.judgments .conflict entry.claimB entry.claimA judgment) ∧
      cacheKeyOf evaluated.related.cacheKeys entry.claimA entry.claimB =
        judgmentKey world.cacheKey prepared.claims authority judgment) ↔
      KeyInOrder outcome.related.judgments (judgmentKey world.cacheKey prepared.claims authority)
        entry := by
    intro entry member
    rcases keysOf_complete keyed ran with none | keysOf
    · rw [none] at member
      cases member
    · rw [keys]
      exact conflict_key_iff keysOf (sides entry member).1 (sides entry member).2
  have publishes : relatePublication evaluated.related.outcome =
      { supersessions := outcome.related.supersessions, conflicts := outcome.related.conflicts } := by
    rw [complete]
    rfl
  have supersessionRows : (finishRelateOutput prepared evaluated receipts).supersessions =
      outcome.related.supersessions.map fun edge =>
        ⟨edge.oldClaim.value, edge.newClaim.value, edge.reason,
          cacheKeyOf evaluated.related.cacheKeys edge.oldClaim edge.newClaim⟩ := by
    unfold finishRelateOutput
    simp only [complete]
    rfl
  have conflictRows : (finishRelateOutput prepared evaluated receipts).conflicts =
      (newConflicts prepared.view outcome.related.conflicts).map fun entry =>
        ⟨entry.conflictId.value, entry.claimA.value, entry.claimB.value, entry.reason,
          cacheKeyOf evaluated.related.cacheKeys entry.claimA entry.claimB⟩ := by
    unfold finishRelateOutput
    simp only [complete]
    rfl
  have edgeKey : ∀ edge ∈ outcome.related.supersessions, ∃ judgment,
      Judges outcome.related.judgments .supersedes edge.oldClaim edge.newClaim judgment ∧
        cacheKeyOf evaluated.related.cacheKeys edge.oldClaim edge.newClaim =
          judgmentKey world.cacheKey prepared.claims authority judgment := by
    intro edge member
    obtain ⟨judgment, judges⟩ := edgesJudged edge member
    refine ⟨judgment, judges, ?_⟩
    rcases keysOf_complete keyed ran with none | keysOf
    · rw [none] at member
      cases member
    · rw [keys, ← judges.2.2.1, ← judges.2.2.2]
      exact keysOf.stands judgment judges.1
  refine ⟨authority, read, ⟨?_, ?_⟩, ?_, ?_⟩
  · intro event member
    have listed : ∃ edge ∈ outcome.related.supersessions, event =
        relateSuperseded prepared.view.workspaceId evaluated.related.cacheKeys observedAtMs edge := by
      unfold publishedEvents at member
      rw [publishes] at member
      simpa [eq_comm] using member
    obtain ⟨edge, inside, rfl⟩ := listed
    obtain ⟨judgment, judges, key⟩ := edgeKey edge inside
    refine ⟨edge.oldClaim, edge.newClaim, judgment, rfl, rfl, judges, ?_⟩
    rw [← key]
    rfl
  · intro row member
    rw [supersessionRows] at member
    obtain ⟨edge, inside, rfl⟩ := List.mem_map.mp member
    obtain ⟨judgment, judges, key⟩ := edgeKey edge inside
    exact ⟨edge.oldClaim, edge.newClaim, judgment, rfl, rfl, judges, key⟩
  · intro carry entry member
    have row := carry.rows _ (by
      rw [conflictRows]
      exact List.mem_map_of_mem member)
    obtain ⟨a, b, judgment, nameA, nameB, judges, key⟩ := row
    have sameA : a = entry.claimA := Branded.ext nameA.symm
    have sameB : b = entry.claimB := Branded.ext nameB.symm
    rw [sameA, sameB] at judges
    exact (known entry (List.mem_filter.mp member).1).mp ⟨judgment, judges, key⟩
  · intro inOrder
    have carried : ∀ entry ∈ newConflicts prepared.view outcome.related.conflicts, ∃ judgment,
        (Judges outcome.related.judgments .conflict entry.claimA entry.claimB judgment ∨
          Judges outcome.related.judgments .conflict entry.claimB entry.claimA judgment) ∧
        cacheKeyOf evaluated.related.cacheKeys entry.claimA entry.claimB =
          judgmentKey world.cacheKey prepared.claims authority judgment :=
      fun entry member => (known entry (List.mem_filter.mp member).1).mpr (inOrder entry member)
    constructor
    · intro event member
      have listed : ∃ entry ∈ newConflicts prepared.view outcome.related.conflicts, event =
          relateOpened prepared.view.workspaceId evaluated.related.cacheKeys observedAtMs entry := by
        unfold publishedEvents at member
        rw [publishes] at member
        simpa [eq_comm] using member
      obtain ⟨entry, inside, rfl⟩ := listed
      obtain ⟨judgment, judges, key⟩ := carried entry inside
      refine ⟨entry.claimA, entry.claimB, judgment, rfl, rfl, judges, ?_⟩
      rw [← key]
      rfl
    · intro row member
      rw [conflictRows] at member
      obtain ⟨entry, inside, rfl⟩ := List.mem_map.mp member
      obtain ⟨judgment, judges, key⟩ := carried entry inside
      exact ⟨entry.claimA, entry.claimB, judgment, rfl, rfl, judges, key⟩

end

/-- Two claims whose journal order is not that of their revisions. -/
def turnedClaims : List Semantics.ClaimView :=
  [ { claimId := ⟨"claim_x", Eq.refl true⟩, text := "x", normalizedText := "x", sequence := 1 },
    { claimId := ⟨"claim_y", Eq.refl true⟩, text := "y", normalizedText := "y", sequence := 2 } ]

/-- The revision of the second claim is before that of the first. -/
def turnedPolicy : RelateTemporalPolicy where
  claimSnapshots := ((∅ : Std.ExtTreeMap String String).insert "claim_x" "t").insert "claim_y" "s"
  snapshotRelations := (∅ : PairMap String TemporalRelation).insert ("s", "t") .before

/-- A world in which any two claims are near and in conflict. -/
def conflictWorld : RelateWorld Nat where
  policy := ⟨0, 0, "provider", "base", "model"⟩
  scoreOfBits _ := 1
  opened := .ok ()
  embedder := nearEmbedder
  judge _ _ _ := .ok ⟨.conflict, 900000⟩
  expired _ := false
  judgeFingerprint := "judge"
  cacheKey older newer := older ++ ">" ++ newer
  freshJudgment _ _ := .ok ⟨.conflict, 900000⟩

/-- A pass prepared over the two claims. -/
def turnedPass : PreparedRelatePass where
  strict := false
  candidatePairBudget := 100
  rejudgePair := none
  view :=
    { workspaceId := "workspace_demo"
      frontier := 0
      freshness := .fresh
      claims := []
      conflicts := []
      sources := [] }
  claims := turnedClaims
  temporal := turnedPolicy
  workspaceId := ⟨"workspace_demo", Eq.refl true⟩
  evaluatedBasis := ⟨∅, ""⟩
  execution := .run 0

/-- The evaluation of the prepared pass over an empty journal. -/
def turnedEvaluation : Except (Failure OpEnv) (EvaluatedRelatePass × Nat × OpEnv) :=
  @evaluateRelatePass Nat decimalDigest 0 relateOp conflictWorld
    { workspaceId := "workspace_demo", journal := Journal.empty } 1 turnedPass

/-- The keys of the conflict rows of an evaluation, beside those of its judgments. -/
def shownKeys (evaluation : EvaluatedRelatePass × Nat × OpEnv) :
    Option (List String × List String) :=
  match evaluation.1.related.outcome with
  | .complete outcome =>
    (authoritativeSettlements (readable evaluation.2.2.journal) evaluation.2.2.workspaceId
      none).toOption.map fun authority =>
        (((finishRelateOutput turnedPass evaluation.1 []).conflicts.map RelateConflictRow.cacheKey),
          outcome.related.judgments.map
            (judgmentKey conflictWorld.cacheKey turnedPass.claims authority))
  | .incomplete _ => none

/-- The conflict's row finds no key, and its only judgment has one. -/
theorem turnedEvaluation_shown :
    (turnedEvaluation.toOption.bind shownKeys) = some ([""], ["y>x"]) := by decide +kernel

/-- What the evaluation comes to. -/
theorem turnedEvaluation_complete :
    ∃ evaluated left judged outcome authority,
      turnedEvaluation = .ok (evaluated, left, judged) ∧
      evaluated.related.outcome = .complete outcome ∧
      authoritativeSettlements (readable judged.journal) judged.workspaceId none = .ok authority ∧
      (finishRelateOutput turnedPass evaluated []).conflicts.map RelateConflictRow.cacheKey = [""] ∧
      outcome.related.judgments.map
        (judgmentKey conflictWorld.cacheKey turnedPass.claims authority) = ["y>x"] := by
  obtain ⟨⟨evaluated, left, judged⟩, evaluates, shown⟩ :=
    Option.bind_eq_some_iff.mp turnedEvaluation_shown
  unfold shownKeys at shown
  cases answered : evaluated.related.outcome with
  | incomplete outcome => simp [answered] at shown
  | complete outcome =>
    simp only [answered] at shown
    obtain ⟨authority, read, told⟩ := Option.map_eq_some_iff.mp shown
    obtain ⟨rows, keys⟩ := Prod.mk.inj told
    cases ran : turnedEvaluation with
    | error failure =>
      rw [ran] at evaluates
      cases evaluates
    | ok answer =>
      rw [ran] at evaluates
      cases settled : authoritativeSettlements (readable judged.journal) judged.workspaceId none with
      | error error =>
        rw [settled] at read
        cases read
      | ok found =>
        rw [settled] at read
        refine ⟨evaluated, left, judged, outcome, authority, ?_, answered, ?_, rows, keys⟩
        · exact congrArg Except.ok (Option.some.inj evaluates)
        · rw [settled]
          exact congrArg Except.ok (Option.some.inj read)

/-- A conflict whose judgment turns its claims around is published without its key. -/
theorem turned_conflict_unkeyed :
    let _ := decimalDigest
    ∃ evaluated left judged outcome authority,
      evaluateRelatePass 0 relateOp conflictWorld
          { workspaceId := "workspace_demo", journal := Journal.empty } 1 turnedPass =
        .ok (evaluated, left, judged) ∧
      evaluated.related.outcome = .complete outcome ∧
      authoritativeSettlements (readable judged.journal) judged.workspaceId none = .ok authority ∧
      ¬ ConflictsCarry
          (publishedEvents turnedPass.workspaceId turnedPass.view evaluated.related 1)
          (finishRelateOutput turnedPass evaluated []).conflicts outcome.related.judgments
          (judgmentKey conflictWorld.cacheKey turnedPass.claims authority) := by
  let _ := decimalDigest
  obtain ⟨evaluated, left, judged, outcome, authority, evaluates, complete, read, rows, keys⟩ :=
    turnedEvaluation_complete
  refine ⟨evaluated, left, judged, outcome, authority, evaluates, complete, read, ?_⟩
  intro carry
  have unkeyed : "" ∈ (finishRelateOutput turnedPass evaluated []).conflicts.map
      RelateConflictRow.cacheKey := by
    rw [rows]
    decide
  obtain ⟨row, member, empty⟩ := List.mem_map.mp unkeyed
  obtain ⟨_, _, judgment, _, _, judges, key⟩ := carry.rows row member
  have inside : judgment ∈ outcome.related.judgments := judges.elim (·.1) (·.1)
  have listed := List.mem_map_of_mem
    (f := judgmentKey conflictWorld.cacheKey turnedPass.claims authority) inside
  rw [keys, ← key, empty] at listed
  exact absurd listed (by decide)

/-- The law of published keys for that pass. -/
theorem published_keys_iff_turned :
    let _ := decimalDigest
    ∃ evaluated left judged outcome authority,
      evaluateRelatePass 0 relateOp conflictWorld
          { workspaceId := "workspace_demo", journal := Journal.empty } 1 turnedPass =
        .ok (evaluated, left, judged) ∧
      evaluated.related.outcome = .complete outcome ∧
      authoritativeSettlements (readable judged.journal) judged.workspaceId none = .ok authority ∧
      SupersessionsCarry
        (publishedEvents turnedPass.workspaceId turnedPass.view evaluated.related 1)
        (finishRelateOutput turnedPass evaluated []).supersessions outcome.related.judgments
        (judgmentKey conflictWorld.cacheKey turnedPass.claims authority) ∧
      (ConflictsCarry
          (publishedEvents turnedPass.workspaceId turnedPass.view evaluated.related 1)
          (finishRelateOutput turnedPass evaluated []).conflicts outcome.related.judgments
          (judgmentKey conflictWorld.cacheKey turnedPass.claims authority) ↔
        ∀ entry ∈ newConflicts turnedPass.view outcome.related.conflicts,
          KeyInOrder outcome.related.judgments
            (judgmentKey conflictWorld.cacheKey turnedPass.claims authority) entry) := by
  let _ := decimalDigest
  obtain ⟨evaluated, left, judged, outcome, _, evaluates, complete, _⟩ := turnedEvaluation_complete
  obtain ⟨authority, read, supersessions, conflicts⟩ := published_keys_iff evaluates complete []
  exact ⟨evaluated, left, judged, outcome, authority, evaluates, complete, read, supersessions,
    conflicts⟩

end Texo.Relate
