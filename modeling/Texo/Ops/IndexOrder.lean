import Mathlib.Order.Bounds.Basic
import Texo.Ingest.Succession
import Texo.Ingest.SessionEnd
import Texo.Ops.Runs

/-! # The source order an index run reads

An index run reads the evidence through the last of its own receipts. Where it commits anything
new, that is the whole journal. Where everything it appends was committed before, the receipts
are the old ones, and what other runs recorded after them is left out of the order.
-/
namespace Texo.Ops
open Texo.Events Texo.Knowledge Texo.Store Texo.Claims Texo.Semantics Texo.Foundation Texo.Ingest

section
variable [Blake3]

/-- A payload of this kind has one identity. -/
def Keyed (payload : Payload) : Prop :=
  ∀ one other, Admissible payload one → Admissible payload other → one = other

/-- The payload was committed: some row has an identity of it. -/
def Committed (journal : Journal) (payload : Payload) : Prop :=
  ∃ row ∈ journal.entries, Admissible payload row.eventId

omit [Blake3] in
/-- The payloads of an index plan have one identity each. -/
theorem IndexPlan.keyed {plan : IndexPlan} {payload : Payload} (member : payload ∈ plan.events) :
    Keyed payload := by
  intro one other first second
  unfold IndexPlan.events at member
  rcases List.mem_append.mp member with planned | relation
  · rcases List.mem_cons.mp planned with rfl | linked
    · exact first.trans second.symm
    · obtain ⟨row, _, inner⟩ := List.mem_flatMap.mp linked
      rcases List.mem_cons.mp inner with rfl | last
      · exact first.trans second.symm
      · rw [List.mem_singleton.mp last] at first second
        exact first.trans second.symm
  · obtain ⟨related, _, rfl⟩ := List.mem_map.mp relation
    exact first.trans second.symm

/-- One append and its receipt: the row of an identity used before, or the one new row. -/
theorem append_receipt {env next : OpEnv} {payload : Payload}
    (appended : env.append payload = .ok next) (conforming : env.journal.Conforming) :
    ∃ receipt, next.receipts = env.receipts ++ [receipt] ∧ Admissible payload receipt ∧
      ((next.journal = env.journal ∧ ∃ row ∈ env.journal.entries, row.eventId = receipt) ∨
        ∃ row, next.journal.entries = env.journal.entries ++ [row] ∧ row.eventId = receipt ∧
          ∀ other ∈ env.journal.entries, other.eventId ≠ receipt) := by
  unfold OpEnv.append at appended
  cases run : policyAppend env payload with
  | error error =>
    rw [run] at appended
    cases appended
  | ok result =>
    obtain ⟨entry, journal⟩ := result
    rw [run] at appended
    have same := Except.ok.inj appended
    subst same
    rcases policyAppend_cases run with ⟨member, unchanged, why⟩ | ⟨grown, carries, placed, named⟩
    · refine ⟨entry.eventId, rfl, ?_, Or.inl ⟨unchanged, entry, member, rfl⟩⟩
      rcases why with admissible | carries
      · exact admissible
      · rw [← carries]
        exact (conforming entry member).admissible
    · refine ⟨entry.eventId, rfl, named, Or.inr ⟨entry, grown, rfl, ?_⟩⟩
      intro other member same
      have nodup := journal.distinct
      rw [grown, List.map_append, List.map_singleton] at nodup
      exact (List.nodup_append.mp nodup).2.2 _ (List.mem_map_of_mem member) _ (by simp) same

/-- The receipts of a run of appends: an identity of each payload, each with its row. Either
nothing was new, or the last row of the journal is one of them. -/
theorem appendAll_receipts {env next : OpEnv} {payloads : List Payload}
    (appended : env.appendAll payloads = .ok next) (conforming : env.journal.Conforming)
    (keyed : ∀ payload ∈ payloads, Keyed payload) :
    ∃ receipts, next.receipts = env.receipts ++ receipts ∧
      List.Forall₂ Admissible payloads receipts ∧
      ((next.journal = env.journal ∧ ∀ payload ∈ payloads, Committed env.journal payload) ∨
        ((∃ payload ∈ payloads, ¬ Committed env.journal payload) ∧
          ∃ row, next.journal.entries.getLast? = some row ∧ row.eventId ∈ receipts)) := by
  induction payloads generalizing env with
  | nil =>
    have same : env = next := Except.ok.inj appended
    subst same
    exact ⟨[], by simp, List.Forall₂.nil, Or.inl ⟨rfl, by simp⟩⟩
  | cons payload rest ih =>
    rw [OpEnv.appendAll, List.foldlM_cons] at appended
    obtain ⟨middle, first, later⟩ := bind_eq_ok.mp appended
    have middleConforming := (OpEnv.append_conforming first conforming).2
    obtain ⟨receipt, noted, admissible, outcome⟩ := append_receipt first conforming
    obtain ⟨receipts, more, named, rows⟩ := ih later middleConforming fun other member =>
      keyed other (List.mem_cons_of_mem _ member)
    refine ⟨receipt :: receipts, ?_, List.Forall₂.cons admissible named, ?_⟩
    · rw [more, noted, List.append_assoc]
      rfl
    · rcases outcome with ⟨unchanged, row, member, used⟩ | ⟨row, grown, used, fresh⟩
      · rw [unchanged] at rows
        rcases rows with ⟨still, all⟩ | ⟨⟨other, member, new⟩, last, final, noted⟩
        · left
          refine ⟨still, fun other inside => ?_⟩
          rcases List.mem_cons.mp inside with rfl | inside
          · exact ⟨row, member, used.symm ▸ admissible⟩
          · exact all other inside
        · right
          exact ⟨⟨other, List.mem_cons_of_mem _ member, new⟩, last, final,
            List.mem_cons_of_mem _ noted⟩
      · right
        refine ⟨⟨payload, List.mem_cons_self, ?_⟩, ?_⟩
        · intro committed
          obtain ⟨other, member, also⟩ := committed
          exact fresh other member (keyed payload List.mem_cons_self _ _ also admissible)
        · rcases rows with ⟨still, _⟩ | ⟨_, last, final, noted⟩
          · refine ⟨row, ?_, ?_⟩
            · rw [still, grown, List.getLast?_append_of_ne_nil _ (List.cons_ne_nil _ _)]
              rfl
            · rw [used]
              exact List.mem_cons_self
          · exact ⟨last, final, List.mem_cons_of_mem _ noted⟩

omit [Blake3] in
/-- A row is found under its identity. -/
theorem find?_of_mem {journal : Journal} {row : Entry} (member : row ∈ journal.entries) :
    journal.find? row.eventId = some row := by
  cases found : journal.find? row.eventId with
  | none => exact absurd rfl (Journal.find?_none found row member)
  | some other =>
    obtain ⟨inside, same⟩ := Journal.find?_some found
    rw [Journal.eq_of_eventId inside member same]

omit [Blake3] in
/-- The sequences of receipts are those of their rows. -/
theorem mem_receiptSequences {journal : Journal} {receipts : List EventId} {sequence : Nat} :
    sequence ∈ receiptSequences journal receipts ↔
      ∃ row ∈ journal.entries, row.eventId ∈ receipts ∧ row.sequence = sequence := by
  unfold receiptSequences
  rw [List.mem_filterMap]
  constructor
  · intro ⟨receipt, member, located⟩
    obtain ⟨row, found, same⟩ := Option.map_eq_some_iff.mp located
    obtain ⟨inside, named⟩ := Journal.find?_some found
    exact ⟨row, inside, named.symm ▸ member, same⟩
  · intro ⟨row, inside, member, same⟩
    exact ⟨row.eventId, member, by rw [find?_of_mem inside, Option.map_some, same]⟩

omit [Blake3] in
/-- The evidence frontier of some receipts with a row is the greatest of their sequences. -/
theorem evidenceFrontier_greatest {journal : Journal} {receipts : List EventId} (frontier : Nat)
    {row : Entry} (member : row ∈ journal.entries) (noted : row.eventId ∈ receipts) :
    IsGreatest {sequence | sequence ∈ receiptSequences journal receipts}
      (evidenceFrontier journal receipts frontier) := by
  have listed : row.sequence ∈ receiptSequences journal receipts :=
    mem_receiptSequences.mpr ⟨row, member, noted, rfl⟩
  unfold evidenceFrontier
  cases greatest : (receiptSequences journal receipts).max? with
  | none =>
    rw [List.max?_eq_none_iff.mp greatest] at listed
    cases listed
  | some top =>
    obtain ⟨inside, above⟩ := List.max?_eq_some_iff.mp greatest
    exact ⟨inside, fun sequence also => above sequence also⟩

omit [Blake3] in
/-- With the last row among the receipts, the evidence is read through the whole journal. -/
theorem rowsThrough_evidenceFrontier {journal : Journal} {receipts : List EventId} (frontier : Nat)
    {row : Entry} (final : journal.entries.getLast? = some row) (noted : row.eventId ∈ receipts)
    (workspaceId : String) :
    (readable journal).rowsThrough (scopeForWorkspace workspaceId)
      (evidenceFrontier journal receipts frontier) = workspaceRows journal workspaceId := by
  have greatest := evidenceFrontier_greatest frontier (List.mem_of_getLast? final) noted
  have above : row.sequence ≤ evidenceFrontier journal receipts frontier :=
    greatest.2 (mem_receiptSequences.mpr ⟨row, List.mem_of_getLast? final, noted, rfl⟩)
  rw [rowsThrough_readable, List.takeWhile_eq_self_iff]
  intro entry member
  have below := journal.ordered.le_getLast final (Journal.mem_region.mp member).1
  exact decide_eq_true (Nat.le_trans below above)

/-- Every occurrence of a prepared plan is valid, and its link names it. -/
theorem prepareIndex_valid {world : GitWorld} {workspaceId : String} {input : KnowledgeIndexInput}
    {journal : Journal} {plan : IndexPlan}
    (prepared : prepareIndex world workspaceId input journal = .ok plan) :
    ∀ row ∈ plan.rows, row.1.validate = true ∧ row.2.occurrenceId = row.1.occurrenceId := by
  unfold prepareIndex at prepared
  obtain ⟨_, _, prepared⟩ := bind_eq_ok.mp prepared
  obtain ⟨_, _, prepared⟩ := bind_eq_ok.mp prepared
  obtain ⟨_, _, prepared⟩ := bind_eq_ok.mp prepared
  obtain ⟨_, _, prepared⟩ := bind_eq_ok.mp prepared
  obtain ⟨_, _, prepared⟩ := bind_eq_ok.mp prepared
  obtain ⟨_, _, prepared⟩ := bind_eq_ok.mp prepared
  obtain ⟨evidence, planned, prepared⟩ := bind_eq_ok.mp prepared
  obtain ⟨_, _, prepared⟩ := bind_eq_ok.mp prepared
  obtain ⟨_, _, rows⟩ := planClaimEvidence_rows planned
  intro row member
  rw [← Except.ok.inj prepared] at member
  obtain ⟨claim, _, made⟩ := rows row member
  exact planClaimEvidenceRow_valid made

/-- A committed occurrence satisfies what later rows require of it. -/
theorem requireOccurrence_committed {journal : Journal} (conforming : journal.Conforming)
    (event : EvidenceOccurrenceRecordedV1)
    (committed : Committed journal (.evidenceOccurrenceRecorded event)) :
    requireOccurrence journal event.occurrence.occurrenceId = .ok () := by
  obtain ⟨row, member, admissible⟩ := committed
  have own := (conforming row member).admissible
  have kind : row.payload.kind = .evidenceOccurrenceRecorded :=
    kind_of_admissible admissible (by simp [domainOperation, Payload.kind]) own
  cases stored : row.payload with
  | evidenceOccurrenceRecorded recorded =>
    rw [stored] at own
    have same : row.eventId = _ := admissible
    rw [show row.eventId = _ from own] at same
    injection same with _ parts
    injection parts with _ parts
    injection parts with occurrence _
    have placed := (conforming row member).placed _ (by rw [stored]; rfl)
    have there : row.entity = entityForEvidence event.occurrence.occurrenceId.value := by
      rw [← occurrence]
      exact (congrArg Coordinate.entity placed).symm
    have found : (journal.byEntity (entityForEvidence event.occurrence.occurrenceId.value)).any
        (fun entry => entry.payload.kind = .evidenceOccurrenceRecorded) = true := by
      rw [List.any_eq_true]
      exact ⟨row, List.mem_filter.mpr ⟨member, decide_eq_true there⟩, decide_eq_true kind⟩
    rw [requireOccurrence, if_pos found]
  | _ =>
    rw [stored] at kind
    cases kind

/-- A plan whose events are all committed is appended without a new row. -/
theorem appendAll_committed {world : GitWorld} {workspaceId : String} {input : KnowledgeIndexInput}
    {journal : Journal} {plan : IndexPlan} (conforming : journal.Conforming)
    (prepared : prepareIndex world workspaceId input journal = .ok plan)
    (committed : ∀ payload ∈ plan.events, Committed journal payload) (env : OpEnv)
    (here : env.journal = journal) :
    ∃ appended, env.appendAll plan.events = .ok appended := by
  have valid := prepareIndex_valid prepared
  have accepted : ∀ payload ∈ plan.events, ∀ env : OpEnv, env.journal = journal →
      ∃ next, env.append payload = .ok next := by
    intro payload member env here
    unfold OpEnv.append
    have linkable : ∀ row ∈ plan.rows, requireOccurrence journal row.2.occurrenceId = .ok () := by
      intro row listed
      rw [(valid row listed).2]
      refine requireOccurrence_committed conforming
        ⟨plan.snapshot.workspaceId, row.1, plan.snapshot.observedAtMs⟩ (committed _ ?_)
      apply List.mem_append_left
      refine List.mem_cons_of_mem _ (List.mem_flatMap.mpr ⟨row, listed, ?_⟩)
      exact List.mem_cons_self
    unfold IndexPlan.events at member
    rcases List.mem_append.mp member with planned | relation
    · rcases List.mem_cons.mp planned with rfl | linked
      · exact ⟨_, rfl⟩
      · obtain ⟨row, listed, inner⟩ := List.mem_flatMap.mp linked
        rcases List.mem_cons.mp inner with rfl | last
        · rw [policyAppend, appendEvidenceOccurrenceRecorded, if_pos (valid row listed).1]
          exact ⟨_, rfl⟩
        · rw [List.mem_singleton.mp last, policyAppend, appendClaimEvidenceLinked, here,
            linkable row listed]
          exact ⟨_, rfl⟩
    · obtain ⟨related, _, rfl⟩ := List.mem_map.mp relation
      exact ⟨_, rfl⟩
  have run : ∀ payloads : List Payload, (∀ payload ∈ payloads, payload ∈ plan.events) →
      ∀ env : OpEnv, env.journal = journal → ∃ appended, env.appendAll payloads = .ok appended := by
    intro payloads
    induction payloads with
    | nil => exact fun _ env _ => ⟨env, rfl⟩
    | cons payload rest ih =>
      intro among env here
      have inside := among payload List.mem_cons_self
      obtain ⟨next, first⟩ := accepted payload inside env here
      have still : next.journal = journal := by
        obtain ⟨receipt, _, admissible, ⟨unchanged, _⟩ | ⟨_, _, _, fresh⟩⟩ :=
          append_receipt first (here.symm ▸ conforming)
        · exact unchanged.trans here
        · obtain ⟨row, member, also⟩ := committed payload inside
          exact absurd (IndexPlan.keyed inside _ _ also admissible) (fresh row (here.symm ▸ member))
      obtain ⟨appended, later⟩ := ih (fun other member =>
        among other (List.mem_cons_of_mem _ member)) next still
      refine ⟨appended, ?_⟩
      rw [OpEnv.appendAll, List.foldlM_cons, first]
      exact later
  exact run plan.events (fun _ member => member) env here

/-- A supersession says nothing about source order. -/
theorem order_supersession {env next : OpEnv} {event : ClaimSupersededV2}
    (appended : env.append (.claimSuperseded event) = .ok next) (workspaceId : String) :
    evidenceOf (workspaceRows next.journal workspaceId) =
        evidenceOf (workspaceRows env.journal workspaceId) ∧
      Ops.orderOf (workspaceRows next.journal workspaceId) =
        Ops.orderOf (workspaceRows env.journal workspaceId) := by
  unfold workspaceRows
  rcases OpEnv.append_region appended (scopeForWorkspace workspaceId) with
    same | ⟨row, grown, carries, _, _⟩
  · rw [same]
    exact ⟨rfl, rfl⟩
  · rw [grown]
    simp only [evidenceOf, Ops.orderOf, List.foldl_append, List.foldl_cons, List.foldl_nil]
    unfold noteEvidence noteOrder
    rw [carries]
    exact ⟨rfl, rfl⟩

/-- Supersessions leave the evidence and the source order of the journal. -/
theorem order_supersessions {env next : OpEnv} {events : List ClaimSupersededV2}
    (appended : env.appendAll (events.map .claimSuperseded) = .ok next) (workspaceId : String) :
    evidenceOf (workspaceRows next.journal workspaceId) =
        evidenceOf (workspaceRows env.journal workspaceId) ∧
      Ops.orderOf (workspaceRows next.journal workspaceId) =
        Ops.orderOf (workspaceRows env.journal workspaceId) := by
  induction events generalizing env with
  | nil =>
    have same : env = next := Except.ok.inj appended
    subst same
    exact ⟨rfl, rfl⟩
  | cons event rest ih =>
    rw [List.map_cons, OpEnv.appendAll, List.foldlM_cons] at appended
    obtain ⟨middle, first, later⟩ := bind_eq_ok.mp appended
    obtain ⟨evidence, order⟩ := order_supersession first workspaceId
    obtain ⟨moreEvidence, moreOrder⟩ := ih later
    exact ⟨moreEvidence.trans evidence, moreOrder.trans order⟩

omit [Blake3] in
/-- Policies of a view read from journals of the same evidence and order compare alike. -/
theorem compareClaims_same {journal other : Journal} {workspaceId : String} {view : WorkspaceView}
    {frontier later : Nat} {temporal whole : RelateTemporalPolicy}
    (read : workspaceTemporalPolicyThrough (readable journal) workspaceId view frontier =
      .ok temporal)
    (reread : workspaceTemporalPolicyThrough (readable other) workspaceId view later = .ok whole)
    (evidence : evidenceOf ((readable other).rowsThrough (scopeForWorkspace workspaceId) later) =
      evidenceOf ((readable journal).rowsThrough (scopeForWorkspace workspaceId) frontier))
    (order : Ops.orderOf ((readable other).rowsThrough (scopeForWorkspace workspaceId) later) =
      Ops.orderOf ((readable journal).rowsThrough (scopeForWorkspace workspaceId) frontier))
    (left right : ClaimId) : whole.compareClaims left right = temporal.compareClaims left right := by
  rw [workspaceTemporalPolicyThrough_spec read, workspaceTemporalPolicyThrough_spec reread]
  unfold supportOf orderFacts
  rw [evidence, order]

/-- Source order lets one claim replace another. -/
def Allows (temporal : RelateTemporalPolicy) (old new : ClaimId) : Prop :=
  temporal.compareClaims old new = none ∨ temporal.compareClaims old new = some .same ∨
    temporal.compareClaims old new = some .before

omit [Blake3] in
/-- What source order allows is not held back. -/
theorem allows_iff {temporal : RelateTemporalPolicy} {old new : ClaimId} :
    Allows temporal old new ↔ holdReason temporal old new = none := by
  unfold Allows holdReason
  cases temporal.compareClaims old new with
  | none => simp [holdOfOrder]
  | some relation =>
    cases relation with
    | same => simp [holdOfOrder]
    | before => simp [holdOfOrder]
    | after => simp [holdOfOrder]
    | concurrent => simp [holdOfOrder]
    | unknown => simp [holdOfOrder]

/-- An index run over a journal gets as far as appending a supersession, to the journal as it
stands then. -/
def IndexApplies (world : GitWorld) (workspaceId : String) (input : KnowledgeIndexInput)
    (journal : Journal) (plan : IndexPlan) (event : ClaimSupersededV2) (before : Journal) : Prop :=
  prepareIndex world workspaceId input journal = .ok plan ∧
    ∃ appended outcome done rest settled,
      ({ workspaceId := workspaceId, journal := journal } : OpEnv).appendAll plan.events =
          .ok appended ∧
        inferIndexSupersessions appended plan input.observedAtMs = .ok outcome ∧
        outcome.applied = done ++ event :: rest ∧
        ({ appended with receipts := [] } : OpEnv).appendAll (done.map .claimSuperseded) =
          .ok settled ∧
        settled.journal = before

omit [Blake3] in
/-- Supersessions are appended without being refused. -/
theorem retirements_appendable (retired : List ClaimSupersededV2) :
    ∀ payload ∈ retired.map Payload.claimSuperseded, Appendable payload := by
  intro payload inside
  obtain ⟨event, _, rfl⟩ := List.mem_map.mp inside
  trivial

/-- Every supersession of a finished index run was appended by it. -/
theorem knowledgeIndex_applies {fuse : Nat} {world : GitWorld} {workspaceId : String}
    {input : KnowledgeIndexInput} {journal after : Journal} {output : KnowledgeIndexOutput}
    (finished : knowledgeIndex fuse world workspaceId input journal = .ok (output, after)) :
    ∃ plan, ∃ outcome : ExplicitSupersessionOutcome,
      output.supersessionsApplied = outcome.applied.length ∧
      output.heldSupersessions = outcome.held ∧ ∀ event ∈ outcome.applied, ∃ before,
        IndexApplies world workspaceId input journal plan event before := by
  unfold knowledgeIndex at finished
  cases prepared : prepareIndex world workspaceId input journal with
  | error error => simp [prepared] at finished
  | ok plan =>
    simp only [prepared] at finished
    unfold executeIndexPlan at finished
    rcases appendWithin_cases fuse { workspaceId := workspaceId, journal := journal } plan.events with
      ⟨left, appended, run, all⟩ | ⟨failure, done, rest, run, split, all⟩
    · simp only [run] at finished
      cases inferred : inferIndexSupersessions appended plan input.observedAtMs with
      | error error => simp [inferred] at finished
      | ok outcome =>
        simp only [inferred] at finished
        rcases appendWithin_cases left { appended with receipts := [] }
          (outcome.applied.map .claimSuperseded) with
          ⟨last, settled, ran, more⟩ | ⟨failure, done, rest, ran, split, more⟩
        · simp only [ran] at finished
          refine ⟨plan, outcome, ?_, ?_, ?_⟩
          · rw [← (Prod.mk.inj (Except.ok.inj finished)).1]
            rfl
          · rw [← (Prod.mk.inj (Except.ok.inj finished)).1]
            rfl
          · intro event member
            obtain ⟨done, rest, split⟩ := List.append_of_mem member
            obtain ⟨reached, before⟩ :=
              appendAll_total (retirements_appendable done) { appended with receipts := [] }
            exact ⟨reached.journal, prepared, appended, outcome, done, rest, reached, all, inferred,
              split, before, rfl⟩
        · simp [ran] at finished
    · simp [run] at finished

/-- The sequences a plan was committed under. -/
def planSequences (journal : Journal) (plan : IndexPlan) : Set Nat :=
  {sequence | ∃ payload ∈ plan.events, ∃ row ∈ journal.entries,
    Admissible payload row.eventId ∧ row.sequence = sequence}

/-- Where an index run repeats: if every event of its plan is committed already, then whatever
replacement the source order through the last of their rows allows, the source order through
the whole journal allows as well. -/
def RepeatsInOrder (world : GitWorld) (workspaceId : String) (input : KnowledgeIndexInput)
    (journal : Journal) : Prop :=
  ∀ plan, prepareIndex world workspaceId input journal = .ok plan →
    (∀ payload ∈ plan.events, Committed journal payload) →
    ∀ frontier, IsGreatest (planSequences journal plan) frontier →
    ∀ temporal whole,
      workspaceTemporalPolicyThrough (readable journal) workspaceId plan.view frontier =
          .ok temporal →
      workspaceTemporalPolicyThrough (readable journal) workspaceId plan.view plan.view.frontier =
          .ok whole →
      ∀ old new, Retires plan.view temporal
          (plan.view.claims.filterMap (indexedCandidate plan.claimIds)) old new →
        Allows whole old new.claimId

omit [Blake3] in
/-- Related lists have a partner for each member. -/
theorem forall₂_mem {Left Right : Type} {related : Left → Right → Prop} {lefts : List Left}
    {rights : List Right} (pairs : List.Forall₂ related lefts rights) :
    (∀ left ∈ lefts, ∃ right ∈ rights, related left right) ∧
      ∀ right ∈ rights, ∃ left ∈ lefts, related left right := by
  induction pairs with
  | nil => simp
  | cons first _ ih =>
    simp only [List.mem_cons, forall_eq_or_imp]
    refine ⟨⟨⟨_, Or.inl rfl, first⟩, ?_⟩, ⟨_, Or.inl rfl, first⟩, ?_⟩
    · intro left member
      obtain ⟨right, inside, pair⟩ := ih.1 left member
      exact ⟨right, Or.inr inside, pair⟩
    · intro right member
      obtain ⟨left, inside, pair⟩ := ih.2 right member
      exact ⟨left, Or.inr inside, pair⟩

omit [Blake3] in
/-- The sequences of a plan's receipts are those it was committed under. -/
theorem planSequences_receipts {journal : Journal} {plan : IndexPlan} {receipts : List EventId}
    (named : List.Forall₂ Admissible plan.events receipts) :
    {sequence | sequence ∈ receiptSequences journal receipts} = planSequences journal plan := by
  obtain ⟨receiptOf, payloadOf⟩ := forall₂_mem named
  ext sequence
  constructor
  · intro member
    obtain ⟨row, inside, noted, same⟩ := mem_receiptSequences.mp member
    obtain ⟨payload, planned, admissible⟩ := payloadOf _ noted
    exact ⟨payload, planned, row, inside, admissible, same⟩
  · intro ⟨payload, planned, row, inside, admissible, same⟩
    obtain ⟨receipt, noted, also⟩ := receiptOf payload planned
    refine mem_receiptSequences.mpr ⟨row, inside, ?_, same⟩
    rw [IndexPlan.keyed planned _ _ admissible also]
    exact noted

/-- The policy an index run decides by. -/
theorem inferIndexSupersessions_ok {env : OpEnv} {plan : IndexPlan} {observedAtMs : Nat}
    {outcome : ExplicitSupersessionOutcome}
    (inferred : inferIndexSupersessions env plan observedAtMs = .ok outcome) :
    ∃ temporal, workspaceTemporalPolicyThrough (readable env.journal) env.workspaceId plan.view
        (evidenceFrontier env.journal env.receipts plan.view.frontier) = .ok temporal ∧
      outcome = inferIndexedSupersessions plan.view plan.claimIds observedAtMs temporal := by
  unfold inferIndexSupersessions at inferred
  cases read : workspaceTemporalPolicyThrough (readable env.journal) env.workspaceId plan.view
      (evidenceFrontier env.journal env.receipts plan.view.frontier) with
  | error error =>
    rw [read] at inferred
    cases inferred
  | ok temporal =>
    rw [read] at inferred
    exact ⟨temporal, rfl, (Except.ok.inj inferred).symm⟩

/-- The order law of index runs. Every supersession an index run applies is allowed by the source
order of the whole journal as it stands when it is appended, exactly when the run repeats in
order. -/
theorem index_order_iff (world : GitWorld) (workspaceId : String) (input : KnowledgeIndexInput)
    {journal : Journal} (conforming : journal.Conforming) :
    (∀ plan event before (old new : ClaimId),
      IndexApplies world workspaceId input journal plan event before →
      event.oldClaimId = old.value → event.newClaimId = new.value →
        ∃ whole, workspaceTemporalPolicyThrough (readable before) workspaceId plan.view
          (viewOf workspaceId before).frontier = .ok whole ∧ Allows whole old new) ↔
      RepeatsInOrder world workspaceId input journal := by
  constructor
  · intro allowed plan prepared committed frontier greatest temporal whole read reread old new
      retires
    obtain ⟨appended, all⟩ := appendAll_committed conforming prepared committed
      { workspaceId := workspaceId, journal := journal } rfl
    obtain ⟨receipts, noted, named, rows⟩ := appendAll_receipts all conforming
      fun payload member => IndexPlan.keyed member
    have home := (OpEnv.appendAll_spec all conforming).1
    have unchanged : appended.journal = journal := by
      rcases rows with ⟨unchanged, _⟩ | ⟨⟨payload, member, new⟩, _⟩
      · exact unchanged
      · exact absurd (committed payload member) new
    have planned : (.sourceSnapshotRecorded plan.snapshot) ∈ plan.events := List.mem_cons_self
    obtain ⟨row, member, admissible⟩ := committed _ planned
    obtain ⟨receipt, inside, also⟩ := (forall₂_mem named).1 _ planned
    have held : row.eventId ∈ receipts := IndexPlan.keyed planned _ _ admissible also ▸ inside
    have top := evidenceFrontier_greatest plan.view.frontier member held
    rw [planSequences_receipts named] at top
    have there : evidenceFrontier journal receipts plan.view.frontier = frontier :=
      top.unique greatest
    have inferred : inferIndexSupersessions appended plan input.observedAtMs =
        .ok (inferIndexedSupersessions plan.view plan.claimIds input.observedAtMs temporal) := by
      unfold inferIndexSupersessions
      rw [noted, unchanged, home]
      show Except.map _ (workspaceTemporalPolicyThrough (readable journal) workspaceId plan.view
        (evidenceFrontier journal ([] ++ receipts) plan.view.frontier)) = _
      rw [List.nil_append, there, read]
      rfl
    have applied : supersededEvent input.observedAtMs ⟨old, new⟩ ∈
        (inferIndexedSupersessions plan.view plan.claimIds input.observedAtMs temporal).applied :=
      mem_applied_retires.mpr ⟨old, new, retires, rfl⟩
    obtain ⟨done, rest, split⟩ := List.append_of_mem applied
    obtain ⟨settled, before⟩ :=
      appendAll_total (retirements_appendable done) { appended with receipts := [] }
    obtain ⟨final, reread', allows⟩ := allowed plan _ settled.journal old new.claimId
      ⟨prepared, appended, _, done, rest, settled, all, inferred, split, before, rfl⟩ rfl rfl
    obtain ⟨evidence, order⟩ := order_supersessions before workspaceId
    have seen : plan.view = viewOf workspaceId journal := (prepareIndex_prepares prepared).view
    have same : final.compareClaims old new.claimId = whole.compareClaims old new.claimId := by
      apply compareClaims_same reread reread'
      · rw [seen, rowsThrough_frontier, rowsThrough_frontier, evidence]
        exact congrArg (fun journal => evidenceOf (workspaceRows journal workspaceId)) unchanged
      · rw [seen, rowsThrough_frontier, rowsThrough_frontier, order]
        exact congrArg (fun journal => Ops.orderOf (workspaceRows journal workspaceId)) unchanged
    unfold Allows at allows ⊢
    rw [same] at allows
    exact allows
  · intro repeats plan event before old new applies oldHere newHere
    obtain ⟨prepared, appended, outcome, done, rest, settled, all, inferred, split, ran, rfl⟩ := applies
    obtain ⟨receipts, noted, named, rows⟩ := appendAll_receipts all conforming
      fun payload member => IndexPlan.keyed member
    have home := (OpEnv.appendAll_spec all conforming).1
    obtain ⟨temporal, read, rfl⟩ := inferIndexSupersessions_ok inferred
    have applied : event ∈
        (inferIndexedSupersessions plan.view plan.claimIds input.observedAtMs temporal).applied := by
      rw [split]
      exact List.mem_append_right _ List.mem_cons_self
    obtain ⟨claimId, candidate, retires, made⟩ := mem_applied_retires.mp applied
    rw [made] at oldHere newHere
    have oldSame : claimId = old := Branded.ext oldHere
    have newSame : candidate.claimId = new := Branded.ext newHere
    rw [home] at read
    obtain ⟨final, reread⟩ := workspaceTemporalPolicyThrough_exists settled.journal read
      (viewOf workspaceId settled.journal).frontier
    refine ⟨final, reread, ?_⟩
    obtain ⟨evidence, order⟩ := order_supersessions ran workspaceId
    rw [noted] at read
    rcases rows with ⟨unchanged, committed⟩ | ⟨_, last, finalRow, held⟩
    · have unchanged : appended.journal = journal := unchanged
      rw [unchanged] at read
      obtain ⟨whole, rereadWhole⟩ := workspaceTemporalPolicyThrough_exists journal read
        plan.view.frontier
      have planned : (.sourceSnapshotRecorded plan.snapshot) ∈ plan.events := List.mem_cons_self
      obtain ⟨row, member, admissible⟩ := committed _ planned
      obtain ⟨receipt, inside, also⟩ := (forall₂_mem named).1 _ planned
      have held : row.eventId ∈ receipts := IndexPlan.keyed planned _ _ admissible also ▸ inside
      have top := evidenceFrontier_greatest plan.view.frontier member held
      rw [planSequences_receipts named] at top
      have allows := repeats plan prepared committed _ top temporal whole read rereadWhole
        claimId candidate retires
      have seen : plan.view = viewOf workspaceId journal := (prepareIndex_prepares prepared).view
      have same : final.compareClaims old new = whole.compareClaims old new := by
        apply compareClaims_same rereadWhole reread
        · rw [seen, rowsThrough_frontier, rowsThrough_frontier, evidence]
          exact congrArg (fun journal => evidenceOf (workspaceRows journal workspaceId)) unchanged
        · rw [seen, rowsThrough_frontier, rowsThrough_frontier, order]
          exact congrArg (fun journal => Ops.orderOf (workspaceRows journal workspaceId)) unchanged
      rw [oldSame, newSame] at allows
      unfold Allows at allows ⊢
      rw [same]
      exact allows
    · have through := rowsThrough_evidenceFrontier plan.view.frontier finalRow
        (List.mem_append_right [] held) workspaceId
      have same : final.compareClaims old new = temporal.compareClaims old new := by
        apply compareClaims_same read reread
        · rw [through, rowsThrough_frontier, evidence]
        · rw [through, rowsThrough_frontier, order]
      have allows := allows_iff.mpr retires.2
      rw [oldSame, newSame] at allows
      unfold Allows at allows ⊢
      rw [same]
      exact allows

/-- The store after some appends to the demonstration workspace, or as it was when one of them is
refused. -/
def appendedAfter (journal : Journal) (payloads : List Payload) : Journal :=
  match ({ workspaceId := "demo", journal := journal } : OpEnv).appendAll payloads with
  | .error _ => journal
  | .ok env => env.journal

/-- Appends keep a store conforming. -/
theorem appendedAfter_conforming {journal : Journal} (conforming : journal.Conforming)
    (payloads : List Payload) : (appendedAfter journal payloads).Conforming := by
  unfold appendedAfter
  split
  · exact conforming
  · rename_i env all
    exact (OpEnv.appendAll_spec all conforming).2.2.1

/-- What an index run of the demonstration workspace appends before its supersessions. -/
def plannedEvents (world : GitWorld) (journal : Journal) : List Payload :=
  match prepareIndex world "demo" ⟨1, none, none, none⟩ journal with
  | .error _ => []
  | .ok plan => plan.events

/-- The first supersession of an index run, with its plan and the store it is appended to. -/
def firstApplied (world : GitWorld) (workspaceId : String) (input : KnowledgeIndexInput)
    (journal : Journal) : Option (IndexPlan × ClaimSupersededV2 × Journal) :=
  match prepareIndex world workspaceId input journal with
  | .error _ => none
  | .ok plan =>
    match ({ workspaceId := workspaceId, journal := journal } : OpEnv).appendAll plan.events with
    | .error _ => none
    | .ok appended =>
      match inferIndexSupersessions appended plan input.observedAtMs with
      | .error _ => none
      | .ok outcome => outcome.applied.head?.map fun event => (plan, event, appended.journal)

/-- An index run applies its first supersession. -/
theorem firstApplied_applies {world : GitWorld} {workspaceId : String} {input : KnowledgeIndexInput}
    {journal before : Journal} {plan : IndexPlan} {event : ClaimSupersededV2}
    (first : firstApplied world workspaceId input journal = some (plan, event, before)) :
    IndexApplies world workspaceId input journal plan event before := by
  unfold firstApplied at first
  cases prepared : prepareIndex world workspaceId input journal with
  | error error => simp [prepared] at first
  | ok planned =>
    cases all : ({ workspaceId := workspaceId, journal := journal } : OpEnv).appendAll
        planned.events with
    | error error => simp [prepared, all] at first
    | ok appended =>
      cases inferred : inferIndexSupersessions appended planned input.observedAtMs with
      | error error => simp [prepared, all, inferred] at first
      | ok outcome =>
        simp only [prepared, all, inferred] at first
        obtain ⟨head, found, same⟩ := Option.map_eq_some_iff.mp first
        obtain ⟨rfl, rest⟩ := Prod.mk.inj same
        obtain ⟨rfl, rfl⟩ := Prod.mk.inj rest
        obtain ⟨tail, split⟩ : ∃ tail, outcome.applied = head :: tail := by
          cases applied : outcome.applied with
          | nil =>
            rw [applied] at found
            cases found
          | cons other tail =>
            rw [applied] at found
            exact ⟨tail, by rw [Option.some.inj found]⟩
        exact ⟨prepared, appended, outcome, [], tail, { appended with receipts := [] }, all, inferred,
          split, rfl, rfl⟩

/-- A claim of the demonstration workspace on the one line of a file. -/
def repeatClaim (claimId path text : String) : ClaimRecordedV2 where
  claimId := claimId
  workspaceId := "demo"
  sourceId := "src_" ++ cut (blake3HashHex text) 12
  sourcePath := path
  lineStart := 1
  lineEnd := 1
  charStart := 0
  charEnd := 0
  text := text
  normalizedText := text
  subjectHint := some "target"
  predicateHint := none
  objectHint := none
  confidencePpm := 0
  extractorKind := "heuristic"
  extractorModel := ""
  promptVersion := ""
  observedAtMs := 1

/-- A store with a claim and another with replacement wording. -/
def repeatStart : Journal :=
  appendedAfter Journal.empty
    [.claimRecorded (repeatClaim "claim_old" "a" "ships friday"),
      .claimRecorded (repeatClaim "claim_new" "b" "now ships tuesday")]

/-- A repository state of some files, in no known order with any other. -/
def repeatState (snapshotId : SourceSnapshotId) (files : List (String × String)) : GitWorld where
  canonicalRoot := "/demo"
  captureGit repositoryId _ := .ok
    { repositoryId := repositoryId
      baseCommit := ⟨.sha1, snapshotId.value⟩
      baseTree := ⟨.sha1, "t0"⟩
      indexDigestHex := "00"
      overlayDigestHex := "00"
      snapshotId := snapshotId
      dirty := false
      sources := files.map fun file => ⟨file.1, asBytes file.2, none, .committed⟩
      coverage := demoSnapshot.coverage }
  compareCommits _ _ := .ok ⟨.unknown, none⟩

/-- The state with both files. -/
def repeatFirst : GitWorld :=
  repeatState ⟨"snapshot_0", Eq.refl true⟩ [("a", "ships friday"), ("b", "now ships tuesday")]

/-- Another state, without the second file. -/
def repeatSecond : GitWorld := repeatState ⟨"snapshot_1", Eq.refl true⟩ [("a", "ships friday")]

/-- The store after indexing the first state by a run that stopped before its supersession. -/
def repeatStopped : Journal := appendedAfter repeatStart (plannedEvents repeatFirst repeatStart)

/-- The store after the second state was indexed as well. -/
def repeatJournal : Journal := appendedAfter repeatStopped (plannedEvents repeatSecond repeatStopped)

/-- The store conforms. -/
theorem repeatJournal_conforming : repeatJournal.Conforming := by
  unfold repeatJournal
  apply appendedAfter_conforming
  unfold repeatStopped
  apply appendedAfter_conforming
  unfold repeatStart
  exact appendedAfter_conforming Journal.conforming_empty _

end

/-- What indexing the first state again applies, and how the source order of the whole journal
compares its claims. -/
theorem repeatJournal_applies :
    let _ := numeralDigest
    (firstApplied repeatFirst "demo" ⟨2, none, none, none⟩ repeatJournal).map
      (fun row => (row.2.1.oldClaimId, row.2.1.newClaimId,
        (workspaceTemporalPolicyThrough (readable row.2.2) "demo" row.1.view
          (viewOf "demo" row.2.2).frontier).toOption.map fun whole =>
            whole.compareClaims ⟨"claim_old", by decide⟩ ⟨"claim_new", by decide⟩)) =
      some ("claim_old", "claim_new", some (some .unknown)) := by
  decide +kernel

/-- Indexing the first state again applies a supersession between claims that the source order of
the whole journal leaves unknown. -/
theorem repeated_index_reads_old_order :
    let _ := numeralDigest
    ∃ plan event before, ∃ old new : ClaimId,
      IndexApplies repeatFirst "demo" ⟨2, none, none, none⟩ repeatJournal plan event before ∧
        event.oldClaimId = old.value ∧ event.newClaimId = new.value ∧
        ¬ ∃ whole, workspaceTemporalPolicyThrough (readable before) "demo" plan.view
          (viewOf "demo" before).frontier = .ok whole ∧ Allows whole old new := by
  let _ := numeralDigest
  have evaluated := repeatJournal_applies
  obtain ⟨⟨plan, event, before⟩, first, told⟩ := Option.map_eq_some_iff.mp evaluated
  obtain ⟨oldHere, told⟩ := Prod.mk.inj told
  obtain ⟨newHere, told⟩ := Prod.mk.inj told
  obtain ⟨whole, read, compared⟩ := Option.map_eq_some_iff.mp told
  refine ⟨plan, event, before, ⟨"claim_old", by decide⟩, ⟨"claim_new", by decide⟩,
    firstApplied_applies first, oldHere, newHere, ?_⟩
  intro ⟨other, reread, allows⟩
  rw [reread] at read
  have same : other = whole := Option.some.inj read
  unfold Allows at allows
  rw [same, compared] at allows
  simp at allows

/-- The order law on that store. -/
theorem index_order_repeated :
    let _ := numeralDigest
    (∀ plan event before (old new : ClaimId),
      IndexApplies repeatFirst "demo" ⟨2, none, none, none⟩ repeatJournal plan event before →
      event.oldClaimId = old.value → event.newClaimId = new.value →
        ∃ whole, workspaceTemporalPolicyThrough (readable before) "demo" plan.view
          (viewOf "demo" before).frontier = .ok whole ∧ Allows whole old new) ↔
      RepeatsInOrder repeatFirst "demo" ⟨2, none, none, none⟩ repeatJournal :=
  let _ := numeralDigest
  index_order_iff repeatFirst "demo" ⟨2, none, none, none⟩ repeatJournal_conforming

end Texo.Ops
