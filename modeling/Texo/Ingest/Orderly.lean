import Texo.Ingest.Replacement
import Texo.Ops.Orderly

/-! # An ingest keeps its workspace orderly

An ingest records claims and retires current ones, each once. Recording is legal anywhere, and
what an inference retires is current in the view it was drawn on.
-/
namespace Texo.Ingest
open Texo.Events Texo.Store Texo.Claims Texo.Semantics Texo.Foundation Texo.Ops

variable [Blake3]

/-- What an ingest appends of its sources is legal anywhere. -/
theorem legal_ingestPayload {journal : Journal} {workspaceId : String} {plan : SourcePlan}
    (observed : ∀ source ∈ plan.sources, source.observed.workspaceId = workspaceId)
    (here : ∀ claim ∈ plan.newClaims, claim.workspaceId = workspaceId) {payload : Payload}
    (member : payload ∈ plan.events) : Legal journal workspaceId payload := by
  obtain ⟨source, planned, inner⟩ := List.mem_flatMap.mp member
  rcases List.mem_cons.mp inner with rfl | later
  · rw [← observed source planned]
    exact legal_inert (inWorkspace_of_coordinate rfl) rfl
  · obtain ⟨claim, held, rfl⟩ := List.mem_map.mp later
    exact legal_recorded journal (here claim (List.mem_flatMap.mpr ⟨source, planned, held⟩))

omit [Blake3] in
/-- The events of a plan close nothing. -/
theorem filterMap_closing_events (plan : SourcePlan) : plan.events.filterMap closing = [] := by
  apply List.filterMap_eq_nil_iff.mpr
  intro payload member
  obtain ⟨source, _, inner⟩ := List.mem_flatMap.mp member
  rcases List.mem_cons.mp inner with rfl | later
  · rfl
  · obtain ⟨claim, _, rfl⟩ := List.mem_map.mp later
    rfl

/-- What an inference on a view retires is current in it. -/
theorem legal_applied {journal : Journal} {workspaceId : String}
    (orderly : Orderly journal workspaceId) {candidates : List ReplacementCandidate}
    (here : ∀ new ∈ candidates, new.workspaceId = workspaceId) {observedAtMs : Nat}
    {temporal : RelateTemporalPolicy} {event : ClaimSupersededV2}
    (applied : event ∈ (inferExplicitSupersessions (viewOf workspaceId journal) candidates
      observedAtMs temporal).applied) : Legal journal workspaceId (.claimSuperseded event) := by
  obtain ⟨made, decides, settled⟩ := Option.map_eq_some_iff.mp (mem_applied.mp applied)
  have retired : event = supersededEvent observedAtMs made := by
    unfold settledBy at settled
    split at settled
    · cases settled
    · exact (Sum.inl.inj settled).symm
  have proposed := List.mem_of_find?_eq_some decides
  obtain ⟨new, member, among⟩ := List.mem_flatMap.mp proposed
  split at among
  · obtain ⟨old, subject, offer⟩ := List.mem_filterMap.mp among
    obtain ⟨drawn, parsed, current, _, _⟩ := proposal_some.mp offer
    have listed : old ∈ (viewOf workspaceId journal).claims := List.mem_of_mem_filter subject
    rw [retired]
    refine orderly.superseded ?_ ⟨rfl, rfl⟩ (List.mem_map_of_mem listed) current ?_
    · show made.new.workspaceId = workspaceId
      rw [drawn]
      exact here new member
    · exact Branded.value_of_tryFrom parsed
  · cases among

/-- What an inference retires, it retires once. -/
theorem nodup_closing_applied (view : WorkspaceView) (candidates : List ReplacementCandidate)
    (observedAtMs : Nat) (temporal : RelateTemporalPolicy) :
    (((inferExplicitSupersessions view candidates observedAtMs temporal).applied.map
      Payload.claimSuperseded).filterMap closing).Nodup := by
  have closed : ((inferExplicitSupersessions view candidates observedAtMs temporal).applied.map
      Payload.claimSuperseded).filterMap closing =
      ((inferExplicitSupersessions view candidates observedAtMs temporal).applied.map
        ClaimSupersededV2.oldClaimId).map entityForClaim := by
    simp [List.filterMap_map, Function.comp_def, closing]
  rw [closed]
  exact (nodup_applied_sorted view candidates observedAtMs temporal).map entityForClaim_injective

omit [Blake3] in
/-- Candidates drawn from claims of a workspace are of that workspace. -/
theorem candidates_here {newClaims : List ClaimRecordedV2} {candidates : List ReplacementCandidate}
    (drawn : newClaims.mapM candidateOf = .ok candidates) {workspaceId : String}
    (here : ∀ claim ∈ newClaims, claim.workspaceId = workspaceId) :
    ∀ new ∈ candidates, new.workspaceId = workspaceId := by
  intro new member
  obtain ⟨claim, inside, made⟩ := mem_of_mapM drawn member
  unfold candidateOf at made
  cases parsed : claimIdOf claim.claimId with
  | error error =>
    rw [parsed] at made
    cases made
  | ok claimId =>
    rw [parsed] at made
    rw [← Except.ok.inj made]
    exact here claim inside

/-- A plan made for a workspace observes and records there. -/
theorem plan_here {op : String} {config : WorkspaceConfig} {world : SourceWorld}
    {workspaceId : String} {observedAtMs : Nat} {view : WorkspaceView} {plan : SourcePlan}
    (planned : planSources op config world workspaceId observedAtMs view = .ok plan) :
    (∀ source ∈ plan.sources, source.observed.workspaceId = workspaceId) ∧
      ∀ claim ∈ plan.newClaims, claim.workspaceId = workspaceId := by
  refine ⟨?_, (newClaims_ids planned).2.1⟩
  intro source member
  obtain ⟨document, _, observed⟩ := planned_observation planned member
  rw [observed]
  rfl

/-- Executing a plan keeps the workspace orderly, wherever it stops. -/
theorem executeIngestPlan_orderly (fuse : Nat) (config : WorkspaceConfig) {env : OpEnv}
    {plan : SourcePlan} (input : IngestRunInput) (orderly : Orderly env.journal env.workspaceId)
    (observed : ∀ source ∈ plan.sources, source.observed.workspaceId = env.workspaceId)
    (here : ∀ claim ∈ plan.newClaims, claim.workspaceId = env.workspaceId) :
    Orderly (stateAfter (executeIngestPlan fuse config env plan input)).journal
      env.workspaceId := by
  have recorded : Orderly (stateAfter (appendWithin fuse env plan.events)).journal
      env.workspaceId := by
    refine orderly.appendWithin fuse (fun payload member => legal_ingestPayload observed here member) ?_
    rw [filterMap_closing_events]
    exact List.nodup_nil
  unfold executeIngestPlan
  simp only
  split
  · exact orderly
  · rcases appendWithin_cases fuse env plan.events with
      ⟨left, appended, run, all⟩ | ⟨failure, done, rest, run, split, all⟩
    · have named := (OpEnv.appendAll_spec all orderly.conforming).1
      rw [run] at recorded ⊢
      have appendedOrderly : Orderly appended.journal env.workspaceId := recorded
      simp only [assembleCurrentView_readable, named]
      cases inferred : inferIngestSupersessions config appended.journal env.workspaceId plan
          (viewOf env.workspaceId appended.journal) input.observedAtMs with
      | error error => exact appendedOrderly
      | ok inference =>
        have settled : Orderly (stateAfter (appendWithin left appended
            (inference.applied.map .claimSuperseded))).journal env.workspaceId := by
          unfold inferIngestSupersessions at inferred
          split at inferred
          · rw [← Except.ok.inj inferred]
            exact appendedOrderly.appendWithin left (fun _ member => by cases member) List.nodup_nil
          · obtain ⟨temporal, _, drawn⟩ := bind_eq_ok.mp inferred
            unfold inferSupersessions at drawn
            cases parsed : plan.newClaims.mapM candidateOf with
            | error error =>
              rw [parsed] at drawn
              cases drawn
            | ok candidates =>
              rw [parsed] at drawn
              rw [← Except.ok.inj drawn]
              refine appendedOrderly.appendWithin left ?_ (nodup_closing_applied _ _ _ _)
              intro payload member
              obtain ⟨event, applied, rfl⟩ := List.mem_map.mp member
              exact legal_applied appendedOrderly (candidates_here parsed here) applied
        simp only
        revert settled
        cases appendWithin left appended (inference.applied.map .claimSuperseded) with
        | error failure => exact id
        | ok pair => exact id
    · rw [run] at recorded ⊢
      exact recorded

/-- An ingest keeps an orderly workspace orderly. -/
theorem ingestRun_orderly (fuse : Nat) (config : WorkspaceConfig) (world : SourceWorld)
    {workspaceId : String} (input : IngestRunInput) {journal : Journal}
    (orderly : Orderly journal workspaceId) :
    Orderly (stateAfter (ingestRun fuse config world workspaceId input journal)) workspaceId := by
  unfold ingestRun
  simp only [assembleCurrentView_readable]
  cases planned : planSources ingestOp config world workspaceId input.observedAtMs
      (viewOf workspaceId journal) with
  | error error => exact orderly
  | ok plan =>
    simp only
    cases rejectFailedIngestPlan world plan input with
    | error error => exact orderly
    | ok done =>
      obtain ⟨observed, here⟩ := plan_here planned
      have kept : Orderly (stateAfter (executeIngestPlan fuse config
          { workspaceId := workspaceId, journal := journal } plan input)).journal workspaceId :=
        executeIngestPlan_orderly fuse config input orderly observed here
      simp only
      revert kept
      cases executeIngestPlan fuse config { workspaceId := workspaceId, journal := journal } plan
          input with
      | error failure => exact id
      | ok pair => exact id

end Texo.Ingest
