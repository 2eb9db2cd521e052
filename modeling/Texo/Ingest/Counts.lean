import Texo.Ingest.Orderly
import Texo.Ingest.Retry
import Texo.Store.Growth

/-! # The counts an ingest reports

An ingest counts its appends. The store counts only what was new: a body hash, a claim id or a
supersession that a row already carries adds nothing. The reported counts are the growth of the
journal exactly where, of each kind, as many different new ones are offered as were counted.
-/
namespace Texo.Ingest
open Texo.Events Texo.Store Texo.Claims Texo.Semantics Texo.Ops Texo.Foundation

/-- The reported counts are the growth of the journal, for each kind and in total. -/
structure ReportsGrowth (output : IngestRunOutput) (before after : Journal) : Prop where
  sources : before.countOf .sourceObserved + output.sourcesObserved = after.countOf .sourceObserved
  claims : before.countOf .claimRecorded + output.claimsRecorded = after.countOf .claimRecorded
  superseded : before.countOf .claimSuperseded + output.claimsSuperseded =
    after.countOf .claimSuperseded
  total : before.entries.length + output.eventsAppended = after.entries.length

section
variable [Blake3]

/-- A body was observed. -/
def observedStatement (workspaceId bodyHash : String) :
    Statement (scopeForWorkspace workspaceId) where
  tells := fun payload => ∃ event, payload = .sourceObserved event ∧
    event.workspaceId = workspaceId ∧ event.bodyHashHex = bodyHash
  placed := by
    rintro payload ⟨event, rfl, rfl, _⟩
    exact ⟨_, rfl⟩
  keyed := by
    rintro payload ⟨event, rfl, _⟩
    simp [domainOperation, Payload.kind]
  stable := by
    rintro payload other id ⟨event, rfl, rfl, rfl⟩ named own kind
    have key : id = _ := named
    cases other with
    | sourceObserved other =>
      rw [key] at own
      simp only [Admissible, EventId.forOperation.injEq, List.cons.injEq] at own
      exact ⟨other, rfl, own.2.1.symm, own.2.2.1.symm⟩
    | _ => cases kind

/-- A claim was superseded by another one. -/
def replacedStatement (workspaceId : String) (pair : String × String) :
    Statement (scopeForWorkspace workspaceId) where
  tells := fun payload => ∃ event, payload = .claimSuperseded event ∧
    event.workspaceId = workspaceId ∧ (event.oldClaimId, event.newClaimId) = pair
  placed := by
    rintro payload ⟨event, rfl, rfl, _⟩
    exact ⟨_, rfl⟩
  keyed := by
    rintro payload ⟨event, rfl, _⟩
    simp [domainOperation, Payload.kind]
  stable := by
    rintro payload other id ⟨event, rfl, rfl, rfl⟩ named own kind
    have key : id = _ := named
    cases other with
    | claimSuperseded other =>
      rw [key] at own
      simp only [Admissible, EventId.forOperation.injEq, List.cons.injEq] at own
      exact ⟨other, rfl, own.2.1.symm, by rw [own.2.2.1, own.2.2.2.1]⟩
    | _ => cases kind

/-- The bodies a workspace has observed. -/
def observedRegister (workspaceId : String) : Register .sourceObserved String where
  scope := scopeForWorkspace workspaceId
  statement := observedStatement workspaceId
  key := fun bodyHash => .forOperation "texo.source.observed.v2" [workspaceId, bodyHash]
  injective := by
    intro one other same
    simpa using same
  named := by
    rintro label payload id ⟨event, rfl, rfl, rfl⟩
    exact Iff.rfl
  ofKind := by
    rintro label payload ⟨event, rfl, _⟩
    rfl

/-- The claims a workspace has recorded. -/
def recordedRegister (workspaceId : String) : Register .claimRecorded String where
  scope := scopeForWorkspace workspaceId
  statement := recordedStatement workspaceId
  key := fun claimId => .forOperation "texo.claim.recorded.v2" [workspaceId, claimId]
  injective := by
    intro one other same
    simpa using same
  named := by
    rintro label payload id ⟨event, rfl, rfl, rfl⟩
    exact Iff.rfl
  ofKind := by
    rintro label payload ⟨event, rfl, _⟩
    rfl

/-- The supersessions of a workspace. -/
def replacedRegister (workspaceId : String) : Register .claimSuperseded (String × String) where
  scope := scopeForWorkspace workspaceId
  statement := replacedStatement workspaceId
  key := fun pair => .forOperation "texo.claim.supersede.v2" [workspaceId, pair.1, pair.2]
  injective := by
    intro one other same
    simpa [Prod.ext_iff] using same
  named := by
    rintro label payload id ⟨event, rfl, rfl, rfl⟩
    exact Iff.rfl
  ofKind := by
    rintro label payload ⟨event, rfl, _⟩
    rfl

/-- What an inference behind an ingest can be: nothing where semantics leave supersession to the
relate pass, otherwise the inference from the new claims on the view. -/
theorem inferIngestSupersessions_cases {config : WorkspaceConfig} {journal : Journal}
    {workspaceId : String} {plan : SourcePlan} {view : WorkspaceView} {observedAtMs : Nat}
    {inference : ExplicitSupersessionOutcome}
    (inferred : inferIngestSupersessions config journal workspaceId plan view observedAtMs =
      .ok inference) :
    (config.semanticsEnabled = true ∧ inference = ⟨[], []⟩) ∨
      (config.semanticsEnabled = false ∧ ∃ temporal candidates,
        workspaceTemporalPolicy (readable journal) workspaceId view = .ok temporal ∧
        plan.newClaims.mapM candidateOf = .ok candidates ∧
        inference = inferExplicitSupersessions view candidates observedAtMs temporal) := by
  unfold inferIngestSupersessions at inferred
  by_cases semantics : config.semanticsEnabled = true
  · rw [if_pos semantics] at inferred
    exact Or.inl ⟨semantics, (Except.ok.inj inferred).symm⟩
  · rw [if_neg semantics] at inferred
    obtain ⟨temporal, policy, drawn⟩ := bind_eq_ok.mp inferred
    unfold inferSupersessions at drawn
    cases made : plan.newClaims.mapM candidateOf with
    | error error =>
      rw [made] at drawn
      cases drawn
    | ok candidates =>
      rw [made] at drawn
      exact Or.inr ⟨by simpa using semantics, temporal, candidates, policy, rfl,
        (Except.ok.inj drawn).symm⟩

/-- What a successful ingest reports: the numbers of what it decided to append. -/
theorem ingestRun_reports {fuse : Nat} {config : WorkspaceConfig} {world : SourceWorld}
    {workspaceId : String} {strict : Bool} {observedAtMs : Nat} {journal after : Journal}
    {output : IngestRunOutput} (conforming : journal.Conforming)
    (ran : ingestRun fuse config world workspaceId ⟨false, strict, observedAtMs⟩ journal =
      .ok (output, after)) :
    ∃ plan appended inference settled,
      Decides config world workspaceId observedAtMs journal plan appended inference ∧
      OpEnv.appendAll { workspaceId := workspaceId, journal := journal }
        (plan.events ++ inference.applied.map .claimSuperseded) = .ok settled ∧
      after = settled.journal ∧
      output.sourcesObserved = saturatingU32 plan.sources.length ∧
      output.claimsRecorded = saturatingU32 plan.newClaims.length ∧
      output.claimsSuperseded = saturatingU32 inference.applied.length ∧
      output.eventsAppended = saturatingAdd (saturatingAdd output.sourcesObserved
        output.claimsRecorded) output.claimsSuperseded := by
  unfold ingestRun at ran
  simp only [assembleCurrentView_readable] at ran
  cases planned : planSources ingestOp config world workspaceId observedAtMs
      (viewOf workspaceId journal) with
  | error error => simp [planned] at ran
  | ok plan =>
    simp only [planned] at ran
    cases tolerated : rejectFailedIngestPlan world plan ⟨false, strict, observedAtMs⟩ with
    | error error => simp [tolerated] at ran
    | ok _ =>
      simp only [tolerated, executeIngestPlan, Bool.false_eq_true, if_false] at ran
      rcases appendWithin_cases fuse { workspaceId := workspaceId, journal := journal }
        plan.events with ⟨left, appended, run, all⟩ | ⟨failure, _, _, run, _, _⟩
      · have named := (OpEnv.appendAll_spec all conforming).1
        simp only at named
        simp only [run, assembleCurrentView_readable, named] at ran
        cases inferred : inferIngestSupersessions config appended.journal workspaceId plan
            (viewOf workspaceId appended.journal) observedAtMs with
        | error error => simp [inferred] at ran
        | ok inference =>
          simp only [inferred] at ran
          rcases appendWithin_cases left appended (inference.applied.map .claimSuperseded) with
            ⟨last, settled, run, more⟩ | ⟨failure, _, _, run, _, _⟩
          · rw [run] at ran
            obtain ⟨rfl, rfl⟩ := Prod.mk.inj (Except.ok.inj ran)
            refine ⟨plan, appended, inference, settled, ⟨planned, all, inferred⟩, ?_, rfl, rfl, rfl,
              rfl, rfl⟩
            rw [OpEnv.appendAll, List.foldlM_append]
            exact bind_eq_ok.mpr ⟨appended, all, more⟩
          · rw [run] at ran
            cases ran
      · rw [run] at ran
        cases ran

namespace FileIngest

/-- The body hashes of the files the journal has not observed. -/
def awaitedHashes (ingest : FileIngest) (journal : Journal) : List String :=
  (ingest.world.unobserved (viewOf ingest.workspaceId journal)).map fun document =>
    document.2.bodyHashHex

/-- The ids of the claims these files hold, each as often as they hold it. -/
def awaitedIds (ingest : FileIngest) (journal : Journal) : List String :=
  (ingest.world.unobserved (viewOf ingest.workspaceId journal)).flatMap
    (offeredIds ingestOp ingest.config ingest.world ingest.workspaceId)

/-- An awaited claim replaces a claim that is current or awaited itself, semantics leave that to
ingest, and the evidence in the journal does not hold it back. -/
def Replaces (ingest : FileIngest) (observedAtMs : Nat) (journal : Journal)
    (pair : String × String) : Prop :=
  ingest.config.semanticsEnabled = false ∧ ∃ candidates proposed,
    (ingest.awaitedClaims observedAtMs journal).mapM candidateOf = .ok candidates ∧
    replacementOf (workspaceRows journal ingest.workspaceId)
      (ingest.awaitedClaims observedAtMs journal) candidates pair.1 = some proposed ∧
    proposed.new.claimId.value = pair.2 ∧
    holdOfOrder (evidenceOrder (workspaceRows journal ingest.workspaceId) pair.1
      proposed.new.claimId.value) = none

/-- The supersessions the awaited claims make explicit. -/
def replacements (ingest : FileIngest) (observedAtMs : Nat) (journal : Journal) :
    Set (String × String) :=
  {pair | ingest.Replaces observedAtMs journal pair}

/-- Of each kind, as many different new ones are offered as an ingest counts. -/
structure CountsOnce (ingest : FileIngest) (observedAtMs : Nat) (journal : Journal) : Prop where
  sources : ({hash | hash ∈ ingest.awaitedHashes journal} \
    (observedRegister ingest.workspaceId).noted journal).ncard =
    saturatingU32 (ingest.awaitedHashes journal).length
  claims : ({claimId | claimId ∈ ingest.awaitedIds journal} \
    (recordedRegister ingest.workspaceId).noted journal).ncard =
    saturatingU32 (ingest.awaitedIds journal).length
  superseded : (ingest.replacements observedAtMs journal \
    (replacedRegister ingest.workspaceId).noted journal).ncard =
    saturatingU32 (ingest.replacements observedAtMs journal).ncard

end FileIngest

/-- An ingest supersedes what its files replace. -/
theorem applied_iff {ingest : FileIngest} {observedAtMs : Nat} {journal : Journal} {plan : SourcePlan}
    {appended : OpEnv} {inference : ExplicitSupersessionOutcome} (conforming : journal.Conforming)
    (decides : Decides ingest.config ingest.world ingest.workspaceId observedAtMs journal plan
      appended inference) (pair : String × String) :
    (∃ event ∈ inference.applied, (event.oldClaimId, event.newClaimId) = pair) ↔
      ingest.Replaces observedAtMs journal pair := by
  obtain ⟨planned, recorded, inferred⟩ := decides
  obtain ⟨_, here, awaited⟩ := newClaims_ids planned
  have same : ingest.awaitedClaims observedAtMs journal = plan.newClaims := awaited.symm
  rcases inferIngestSupersessions_cases inferred with
    ⟨semantics, rfl⟩ | ⟨disabled, temporal, candidates, policy, made, rfl⟩
  · simp [FileIngest.Replaces, semantics]
  · obtain ⟨deciding, order⟩ :=
      decided_after_plan here recorded conforming policy made pair.1
    unfold FileIngest.Replaces
    rw [same, made]
    constructor
    · rintro ⟨event, applied, rfl⟩
      obtain ⟨proposed, decides, settled⟩ := Option.map_eq_some_iff.mp (mem_applied.mp applied)
      have free := order proposed decides
      unfold settledBy at settled
      cases reason : holdReason temporal proposed.oldClaimId proposed.new.claimId with
      | some reason => simp [‹holdReason _ _ _ = _›] at settled
      | none =>
        rw [reason] at settled free
        have drawn : supersededEvent observedAtMs proposed = event := Sum.inl.inj settled
        refine ⟨disabled, candidates, proposed, rfl, ?_, ?_, free.symm⟩
        · rw [← deciding]
          exact decides
        · rw [← drawn]
          rfl
    · rintro ⟨_, candidates', proposed, made', replaced, named, free⟩
      cases made'
      rw [← deciding] at replaced
      have old := decidingProposal_named replaced
      have reason := order proposed replaced
      rw [free] at reason
      refine ⟨supersededEvent observedAtMs proposed, mem_applied.mpr ?_, ?_⟩
      · show (decidingProposal _ _ proposed.oldClaimId.value).map _ = _
        rw [old, replaced]
        simp [settledBy, reason]
      · exact Prod.ext old named

/-- What an ingest supersedes lies in its workspace. -/
theorem applied_here {config : WorkspaceConfig} {world : SourceWorld} {workspaceId : String}
    {observedAtMs : Nat} {journal : Journal} {plan : SourcePlan} {appended : OpEnv}
    {inference : ExplicitSupersessionOutcome}
    (decides : Decides config world workspaceId observedAtMs journal plan appended inference) :
    ∀ event ∈ inference.applied, event.workspaceId = workspaceId := by
  intro event applied
  have here := (newClaims_ids decides.planned).2.1
  rcases inferIngestSupersessions_cases decides.inferred with
    ⟨_, rfl⟩ | ⟨_, temporal, candidates, _, made, rfl⟩
  · cases applied
  · obtain ⟨candidate, among, same⟩ := workspaceId_of_applied applied
    rw [same]
    exact candidates_here made here candidate among

/-- An ingest supersedes a claim once. -/
theorem nodup_applied_pairs {config : WorkspaceConfig} {world : SourceWorld} {workspaceId : String}
    {observedAtMs : Nat} {journal : Journal} {plan : SourcePlan} {appended : OpEnv}
    {inference : ExplicitSupersessionOutcome}
    (decides : Decides config world workspaceId observedAtMs journal plan appended inference) :
    (inference.applied.map fun event => (event.oldClaimId, event.newClaimId)).Nodup := by
  rcases inferIngestSupersessions_cases decides.inferred with
    ⟨_, rfl⟩ | ⟨_, temporal, candidates, _, _, rfl⟩
  · exact List.nodup_nil
  · have olds := nodup_applied_sorted (viewOf workspaceId appended.journal) candidates observedAtMs
      temporal
    apply List.Nodup.of_map Prod.fst
    rw [List.map_map]
    exact olds

/-- The supersessions of an ingest are as many as its files replace. -/
theorem length_applied {ingest : FileIngest} {observedAtMs : Nat} {journal : Journal}
    {plan : SourcePlan} {appended : OpEnv} {inference : ExplicitSupersessionOutcome}
    (conforming : journal.Conforming)
    (decides : Decides ingest.config ingest.world ingest.workspaceId observedAtMs journal plan
      appended inference) :
    (ingest.replacements observedAtMs journal).ncard = inference.applied.length := by
  let pairs := inference.applied.map fun event => (event.oldClaimId, event.newClaimId)
  have same : ingest.replacements observedAtMs journal = (pairs.toFinset : Set (String × String)) := by
    ext pair
    rw [Finset.mem_coe, List.mem_toFinset, List.mem_map]
    exact (applied_iff conforming decides pair).symm
  rw [same, Set.ncard_coe_finset, List.toFinset_card_of_nodup (nodup_applied_pairs decides),
    List.length_map]

/-- The observations of a plan are those of the awaited files. -/
theorem planned_hashes {ingest : FileIngest} {observedAtMs : Nat} {journal : Journal}
    {plan : SourcePlan}
    (planned : planOn ingest.config ingest.world ingest.workspaceId observedAtMs journal = .ok plan) :
    plan.sources.map (fun source => source.observed.bodyHashHex) = ingest.awaitedHashes journal := by
  have matched := planSources_spec planned
  unfold FileIngest.awaitedHashes
  generalize plan.sources = sources at matched ⊢
  generalize ingest.world.unobserved _ = documents at matched ⊢
  induction matched with
  | nil => rfl
  | cons first rest ih =>
    rw [List.map_cons, List.map_cons, ih, first.observed]
    rfl

omit [Blake3] in
/-- The events of an ingest: its observations, its claims and its supersessions. -/
theorem mem_ingestEvents {plan : SourcePlan} {applied : List ClaimSupersededV2} {payload : Payload} :
    payload ∈ plan.events ++ applied.map .claimSuperseded ↔
      (∃ source ∈ plan.sources, payload = .sourceObserved source.observed) ∨
      (∃ claim ∈ plan.newClaims, payload = .claimRecorded claim) ∨
      ∃ event ∈ applied, payload = .claimSuperseded event := by
  constructor
  · intro member
    rcases List.mem_append.mp member with planned | last
    · obtain ⟨source, inside, inner⟩ := List.mem_flatMap.mp planned
      rcases List.mem_cons.mp inner with own | later
      · exact Or.inl ⟨source, inside, own⟩
      · obtain ⟨claim, held, same⟩ := List.mem_map.mp later
        exact Or.inr (Or.inl ⟨claim, List.mem_flatMap.mpr ⟨source, inside, held⟩, same.symm⟩)
    · obtain ⟨event, inside, same⟩ := List.mem_map.mp last
      exact Or.inr (Or.inr ⟨event, inside, same.symm⟩)
  · rintro (⟨source, inside, rfl⟩ | ⟨claim, held, rfl⟩ | ⟨event, inside, rfl⟩)
    · exact List.mem_append_left _ (List.mem_flatMap.mpr ⟨source, inside, List.mem_cons_self⟩)
    · obtain ⟨source, inside, own⟩ := List.mem_flatMap.mp held
      exact List.mem_append_left _ (List.mem_flatMap.mpr
        ⟨source, inside, List.mem_cons_of_mem _ (List.mem_map_of_mem own)⟩)
    · exact List.mem_append_right _ (List.mem_map_of_mem inside)

/-- What the events of an ingest observe. -/
theorem told_observed {plan : SourcePlan} {applied : List ClaimSupersededV2} {workspaceId : String}
    (observed : ∀ source ∈ plan.sources, source.observed.workspaceId = workspaceId) :
    (observedRegister workspaceId).told (plan.events ++ applied.map .claimSuperseded) =
      {hash | hash ∈ plan.sources.map fun source => source.observed.bodyHashHex} := by
  ext hash
  constructor
  · rintro ⟨payload, member, event, rfl, _, named⟩
    rcases mem_ingestEvents.mp member with ⟨source, inside, same⟩ | ⟨_, _, same⟩ | ⟨_, _, same⟩
    · rw [← named, Payload.sourceObserved.inj same]
      exact List.mem_map_of_mem (f := fun source => source.observed.bodyHashHex) inside
    · cases same
    · cases same
  · intro member
    obtain ⟨source, inside, named⟩ := List.mem_map.mp member
    exact ⟨_, mem_ingestEvents.mpr (Or.inl ⟨source, inside, rfl⟩), _, rfl, observed source inside,
      named⟩

/-- What the events of an ingest record. -/
theorem told_recorded {plan : SourcePlan} {applied : List ClaimSupersededV2} {workspaceId : String}
    (here : ∀ claim ∈ plan.newClaims, claim.workspaceId = workspaceId) :
    (recordedRegister workspaceId).told (plan.events ++ applied.map .claimSuperseded) =
      {claimId | claimId ∈ plan.newClaims.map ClaimRecordedV2.claimId} := by
  ext claimId
  constructor
  · rintro ⟨payload, member, event, rfl, _, named⟩
    rcases mem_ingestEvents.mp member with ⟨_, _, same⟩ | ⟨claim, held, same⟩ | ⟨_, _, same⟩
    · cases same
    · rw [← named, Payload.claimRecorded.inj same]
      exact List.mem_map_of_mem held
    · cases same
  · intro member
    obtain ⟨claim, held, named⟩ := List.mem_map.mp member
    exact ⟨_, mem_ingestEvents.mpr (Or.inr (Or.inl ⟨claim, held, rfl⟩)), _, rfl, here claim held,
      named⟩

/-- What the events of an ingest replace. -/
theorem told_replaced {plan : SourcePlan} {applied : List ClaimSupersededV2} {workspaceId : String}
    (here : ∀ event ∈ applied, event.workspaceId = workspaceId) :
    (replacedRegister workspaceId).told (plan.events ++ applied.map .claimSuperseded) =
      {pair | ∃ event ∈ applied, (event.oldClaimId, event.newClaimId) = pair} := by
  ext pair
  constructor
  · rintro ⟨payload, member, event, rfl, _, named⟩
    rcases mem_ingestEvents.mp member with ⟨_, _, same⟩ | ⟨_, _, same⟩ | ⟨other, inside, same⟩
    · cases same
    · cases same
    · cases same
      exact ⟨event, inside, named⟩
  · rintro ⟨event, inside, named⟩
    exact ⟨_, mem_ingestEvents.mpr (Or.inr (Or.inr ⟨event, inside, rfl⟩)), event, rfl,
      here event inside, named⟩

/-- The kinds of events an ingest appends. -/
def ingestKinds : List EventKind := [.sourceObserved, .claimRecorded, .claimSuperseded]

omit [Blake3] in
/-- An ingest appends nothing of another kind. -/
theorem kind_of_ingestEvent {plan : SourcePlan} {applied : List ClaimSupersededV2} {payload : Payload}
    (member : payload ∈ plan.events ++ applied.map .claimSuperseded) :
    payload.kind ∈ ingestKinds := by
  rcases mem_ingestEvents.mp member with ⟨_, _, rfl⟩ | ⟨_, _, rfl⟩ | ⟨_, _, rfl⟩ <;>
    simp [ingestKinds, Payload.kind]

omit [Blake3] in
/-- Rows of these kinds are counted kind by kind. -/
theorem length_of_ingestKinds {rows : List Entry} (kinds : ∀ row ∈ rows,
    row.payload.kind ∈ ingestKinds) :
    rows.length = (rows.countP fun row => row.payload.kind = .sourceObserved) +
      (rows.countP fun row => row.payload.kind = .claimRecorded) +
      rows.countP fun row => row.payload.kind = .claimSuperseded := by
  induction rows with
  | nil => rfl
  | cons row rest ih =>
    have later := ih fun other member => kinds other (List.mem_cons_of_mem _ member)
    have first := kinds row List.mem_cons_self
    simp only [ingestKinds, List.mem_cons, List.not_mem_nil, or_false] at first
    simp only [List.countP_cons, List.length_cons]
    rcases first with kind | kind | kind <;> simp [kind] <;> omega

/-- An ingest that reports success reports the growth of the journal exactly where, of each kind,
as many different new ones are offered as it counts. -/
theorem counts_true_iff {ingest : FileIngest} {fuse observedAtMs : Nat} {strict : Bool}
    {journal after : Journal} {output : IngestRunOutput} (conforming : journal.Conforming)
    (ran : ingest.run fuse strict observedAtMs journal = .ok (output, after)) :
    ReportsGrowth output journal after ↔ ingest.CountsOnce observedAtMs journal := by
  obtain ⟨plan, appended, inference, settled, decides, all, rfl, sources, claims, superseded, total⟩ :=
    ingestRun_reports conforming ran
  obtain ⟨observed, here⟩ := plan_here decides.planned
  have hashes := planned_hashes decides.planned
  have ids : plan.newClaims.map ClaimRecordedV2.claimId = ingest.awaitedIds journal :=
    (newClaims_ids decides.planned).1
  obtain ⟨rows, grown, carried⟩ := OpEnv.appendAll_rows all
  simp only at grown
  have split : ∀ kind, settled.journal.countOf kind = journal.countOf kind +
      rows.countP fun row => row.payload.kind = kind := by
    intro kind
    show settled.journal.entries.countP _ = journal.entries.countP _ + _
    rw [grown, List.countP_append]
  have observedGrowth := (observedRegister ingest.workspaceId).appendAll_countOf all conforming
    (by
      intro payload member kind
      rcases mem_ingestEvents.mp member with ⟨source, inside, rfl⟩ | ⟨_, _, rfl⟩ | ⟨_, _, rfl⟩
      · exact ⟨_, _, rfl, observed source inside, rfl⟩
      · cases kind
      · cases kind)
    (by simp [domainOperation])
  have recordedGrowth := (recordedRegister ingest.workspaceId).appendAll_countOf all conforming
    (by
      intro payload member kind
      rcases mem_ingestEvents.mp member with ⟨_, _, rfl⟩ | ⟨claim, held, rfl⟩ | ⟨_, _, rfl⟩
      · cases kind
      · exact ⟨_, _, rfl, here claim held, rfl⟩
      · cases kind)
    (by simp [domainOperation])
  have replacedGrowth := (replacedRegister ingest.workspaceId).appendAll_countOf all conforming
    (by
      intro payload member kind
      rcases mem_ingestEvents.mp member with ⟨_, _, rfl⟩ | ⟨_, _, rfl⟩ | ⟨event, inside, rfl⟩
      · cases kind
      · cases kind
      · exact ⟨_, _, rfl, applied_here decides event inside, rfl⟩)
    (by simp [domainOperation])
  have replaced : (replacedRegister ingest.workspaceId).told
      (plan.events ++ inference.applied.map .claimSuperseded) =
      ingest.replacements observedAtMs journal := by
    rw [told_replaced (applied_here decides)]
    ext pair
    exact applied_iff conforming decides pair
  rw [told_observed observed, hashes] at observedGrowth
  rw [told_recorded here, ids] at recordedGrowth
  rw [replaced] at replacedGrowth
  simp only at observedGrowth recordedGrowth replacedGrowth
  have sourceCount : plan.sources.length = (ingest.awaitedHashes journal).length := by
    rw [← hashes, List.length_map]
  have claimCount : plan.newClaims.length = (ingest.awaitedIds journal).length := by
    rw [← ids, List.length_map]
  rw [sourceCount] at sources
  rw [claimCount] at claims
  rw [← length_applied conforming decides] at superseded
  have sum : settled.journal.entries.length = journal.entries.length +
      (rows.countP fun row => row.payload.kind = .sourceObserved) +
      (rows.countP fun row => row.payload.kind = .claimRecorded) +
      rows.countP fun row => row.payload.kind = .claimSuperseded := by
    rw [grown, List.length_append,
      length_of_ingestKinds fun row member => kind_of_ingestEvent (carried row member)]
    omega
  have bounded : ∀ value, saturatingU32 value ≤ 2 ^ 32 - 1 := fun value => Nat.min_le_right _ _
  have exact : output.eventsAppended =
      output.sourcesObserved + output.claimsRecorded + output.claimsSuperseded := by
    have first := bounded (ingest.awaitedHashes journal).length
    have second := bounded (ingest.awaitedIds journal).length
    have third := bounded (ingest.replacements observedAtMs journal).ncard
    rw [← sources] at first
    rw [← claims] at second
    rw [← superseded] at third
    rw [total]
    unfold saturatingAdd
    omega
  have observedSplit := split .sourceObserved
  have recordedSplit := split .claimRecorded
  have replacedSplit := split .claimSuperseded
  constructor
  · intro reports
    have first := reports.sources
    have second := reports.claims
    have third := reports.superseded
    exact ⟨by omega, by omega, by omega⟩
  · intro once
    have first := once.sources
    have second := once.claims
    have third := once.superseded
    exact ⟨by omega, by omega, by omega, by omega⟩

end

/-- The counts of the file with two claim lines, on its first run. -/
theorem counts_true_iff_two_lines :
    let _ := tailDigest
    ∃ output after, twoLineIngest.run 9 false 5 Journal.empty = .ok (output, after) ∧
      output.claimsRecorded = 2 ∧
      (ReportsGrowth output Journal.empty after ↔ twoLineIngest.CountsOnce 5 Journal.empty) := by
  intro digest
  have shown : (twoLineIngest.run 9 false 5 Journal.empty).toOption.map
      (fun result => result.1.claimsRecorded) = some 2 := by
    decide +kernel
  obtain ⟨⟨output, after⟩, ran, count⟩ := Option.map_eq_some_iff.mp shown
  cases run : twoLineIngest.run 9 false 5 Journal.empty with
  | error failure =>
    rw [run] at ran
    cases ran
  | ok result =>
    rw [run] at ran
    cases ran
    exact ⟨output, after, rfl, count, counts_true_iff Journal.conforming_empty run⟩

/-- One output line of an extractor command. -/
def repeatedLine : CmdClaimLine where
  lineStart := 1
  text := "Alpha is slow."
  normalizedText := "alpha is slow"
  subjectHint := some "alpha"
  predicateHint := none
  objectHint := none
  confidencePpm := 900000
  charStart := none
  charEnd := none
  extractorModel := none
  promptVersion := none

/-- One file whose extractor command prints the same line twice. -/
def repeatingIngest : FileIngest where
  config := { extractorCmd := some "extract" }
  world :=
    { inputPath := "/w"
      discovery := .ok { files := [⟨"/w/a.md", "a.md", .text "Alpha is slow."⟩] }
      runExtractor := fun _ _ => .lines [.claim repeatedLine, .claim repeatedLine]
      rowsJson := fun _ => "[]" }
  workspaceId := "demo"

/-- Two lines with one claim id are counted twice and recorded once. -/
theorem repeated_line_counted_twice :
    let _ := tailDigest
    ∃ output after, repeatingIngest.run 9 false 5 Journal.empty = .ok (output, after) ∧
      output.claimsRecorded = 2 ∧ after.countOf .claimRecorded = 1 ∧
      output.eventsAppended = 3 ∧ after.entries.length = 2 ∧
      ¬ ReportsGrowth output Journal.empty after := by
  intro digest
  have shown : (repeatingIngest.run 9 false 5 Journal.empty).toOption.map
      (fun result => (result.1.claimsRecorded, result.2.countOf .claimRecorded,
        result.1.eventsAppended, result.2.entries.length)) = some (2, 1, 3, 2) := by
    decide +kernel
  obtain ⟨⟨output, after⟩, ran, counts⟩ := Option.map_eq_some_iff.mp shown
  cases run : repeatingIngest.run 9 false 5 Journal.empty with
  | error failure =>
    rw [run] at ran
    cases ran
  | ok result =>
    rw [run] at ran
    cases ran
    simp only [Prod.mk.injEq] at counts
    obtain ⟨claims, recorded, events, rows⟩ := counts
    refine ⟨output, after, rfl, claims, recorded, events, rows, ?_⟩
    intro reports
    have same := reports.claims
    have start : Journal.empty.countOf .claimRecorded = 0 := rfl
    omega

end Texo.Ingest
