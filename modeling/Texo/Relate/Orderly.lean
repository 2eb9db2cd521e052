import Texo.Ops.Orderly
import Texo.Relate.Pass
import Texo.Semantics.Edges

/-! # A relate pass keeps its workspace orderly

A pass relates current claims only, and a complete pass retires each of them at most once. What
it publishes is therefore legal for the view it was decided on, whatever its backends say.
-/
namespace Texo.Relate
open Texo.Events Texo.Knowledge Texo.Foundation Texo.Store Texo.Claims Texo.Semantics Texo.Ops
  Texo.Ingest

/-- A claim a pass relates shows the card it was read from. -/
structure Shows (claim : Claims.ClaimView) (related : Semantics.ClaimView) : Prop where
  named : related.claimId.value = claim.card.claimId
  text : related.text = claim.card.text
  normalized : related.normalizedText = claim.card.normalizedText

/-- What `semantic_claims_from_view` makes of one claim. -/
theorem semanticClaim_shows {receipts : Std.ExtTreeMap String Nat} {claim : Claims.ClaimView}
    {related : Semantics.ClaimView} (made : semanticClaim receipts claim = .ok related) :
    Shows claim related := by
  unfold semanticClaim at made
  obtain ⟨claimId, parsed, made⟩ := bind_eq_ok.mp made
  obtain ⟨_, _, made⟩ := bind_eq_ok.mp made
  split at made
  · cases made
  · obtain ⟨_, _, made⟩ := bind_eq_ok.mp made
    obtain ⟨_, _, made⟩ := bind_eq_ok.mp made
    rw [← Except.ok.inj made]
    exact ⟨value_of_claimIdOf parsed, rfl, rfl⟩

/-- The claims of a pass are the current claims of its view. -/
theorem semanticClaimsFromView_spec {store : JournalRead} {workspaceId : String}
    {view : WorkspaceView} {claims : List Semantics.ClaimView}
    (read : semanticClaimsFromView store workspaceId view = .ok claims) :
    (claims.map fun claim => claim.claimId.value).Perm
        ((view.claims.filter eligible).map fun claim => claim.card.claimId) ∧
      ∀ related ∈ claims, ∃ claim ∈ view.claims, eligible claim = true ∧ Shows claim related := by
  unfold semanticClaimsFromView at read
  obtain ⟨listed, mapped, sorted⟩ := bind_eq_ok.mp read
  have done : listed.insertionSort relateLe = claims := Except.ok.inj sorted
  have order := List.perm_insertionSort relateLe listed
  rw [done] at order
  constructor
  · refine (order.map fun claim => claim.claimId.value).trans ?_
    rw [map_of_mapM mapped fun claim _ related made => (semanticClaim_shows made).named]
  · intro related member
    obtain ⟨claim, inside, made⟩ := mem_of_mapM mapped (order.mem_iff.mp member)
    obtain ⟨among, current⟩ := List.mem_filter.mp inside
    exact ⟨claim, among, current, semanticClaim_shows made⟩

variable [Blake3] {Score : Type}

/-- The claims of a pass over an orderly workspace have distinct ids. -/
theorem nodup_semanticClaims {journal : Journal} {workspaceId : String}
    (orderly : Orderly journal workspaceId) {claims : List Semantics.ClaimView}
    (read : semanticClaimsFromView (readable journal) workspaceId (viewOf workspaceId journal) =
      .ok claims) : (claims.map Semantics.ClaimView.claimId).Nodup := by
  have distinct := orderly.lawful.distinct orderly.conforming
  have kept : ((viewOf workspaceId journal).claims.filter eligible).map
      (fun claim => claim.card.claimId) |>.Nodup :=
    distinct.sublist (List.filter_sublist.map _)
  apply List.Nodup.of_map Branded.value
  rw [List.map_map]
  exact (semanticClaimsFromView_spec read).1.nodup_iff.mpr kept

/-- A current claim of an orderly workspace is in its first phase. -/
theorem phase_of_eligible {journal : Journal} {workspaceId : String}
    (orderly : Orderly journal workspaceId) {claim : Claims.ClaimView}
    (listed : claim ∈ (viewOf workspaceId journal).claims) (current : eligible claim = true) :
    claim.card.phase = 1 := by
  have status := status_claimViews listed
  have standing : claim.status = .current := of_decide_eq_true current
  rcases orderly.lawful.claim_phase orderly.conforming (List.mem_map_of_mem listed) with
    first | retired
  · exact first
  · rw [standing, claimStatus, if_pos retired] at status
    cases status

/-- The supersessions and conflicts of a complete pass are about its claims. -/
theorem RelateWorld.outcome_among {world : RelateWorld Score} {claims : List Semantics.ClaimView}
    {settled : SettledMap} {temporal : RelateTemporalPolicy}
    {candidatePairBudget candidateCursor : Nat} {outcome : RelateOutcome}
    (distinct : (claims.map Semantics.ClaimView.claimId).Nodup)
    (answered : world.outcome claims settled temporal candidatePairBudget candidateCursor =
      .ok outcome) : (relatePublication outcome).Among claims := by
  have empty : RelatedClaims.Among {} claims :=
    ⟨by simp, by simp, by simp, by simp, by simp, by simp⟩
  cases outcome with
  | incomplete unfinished => exact empty
  | complete complete =>
    unfold RelateWorld.outcome at answered
    split at answered
    · cases answered
    · rw [← RelateOutcome.complete.inj (Except.ok.inj answered)]
      exact empty
    · have among := finishPage_among distinct (Except.ok.inj answered)
      exact ⟨among.retiresOnce, among.retires, among.replaces, among.opensOnce, among.opens,
        among.apart⟩

/-- The entities a publication closes: those of the claims it retires. -/
theorem filterMap_closing_publishedEvents (workspaceId : WorkspaceId) (view : WorkspaceView)
    (related : SemanticRelateOutput) (observedAtMs : Nat) :
    (publishedEvents workspaceId view related observedAtMs).filterMap closing =
      (relatePublication related.outcome).supersessions.map fun edge =>
        entityForClaim edge.oldClaim.value := by
  have judged : ((relationJudgments workspaceId related observedAtMs).map
      Payload.relationJudged).filterMap closing = [] := by
    simp [List.filterMap_map, Function.comp_def, closing]
  have deferred : ((relationDeferrals workspaceId (unresolvedOf related.outcome) observedAtMs).map
      Payload.relationDeferred).filterMap closing = [] := by
    simp [List.filterMap_map, Function.comp_def, closing]
  have opened : ((newConflicts view (relatePublication related.outcome).conflicts).map fun entry =>
      Payload.conflictOpened
        (relateOpened view.workspaceId related.cacheKeys observedAtMs entry)).filterMap closing =
      [] := by
    simp [List.filterMap_map, Function.comp_def, closing]
  unfold publishedEvents
  rw [List.filterMap_append, List.filterMap_append, List.filterMap_append, judged, deferred, opened]
  simp [List.filterMap_map, Function.comp_def, closing, relateSuperseded]

/-- What a pass publishes is legal for the view it was decided on. -/
theorem legal_publishedEvents {journal : Journal} {workspaceId : WorkspaceId}
    (orderly : Orderly journal workspaceId.value) {claims : List Semantics.ClaimView}
    (read : semanticClaimsFromView (readable journal) workspaceId.value
      (viewOf workspaceId.value journal) = .ok claims) {related : SemanticRelateOutput}
    (among : (relatePublication related.outcome).Among claims) (observedAtMs : Nat) :
    (∀ payload ∈ publishedEvents workspaceId (viewOf workspaceId.value journal) related observedAtMs,
        Legal journal workspaceId.value payload) ∧
      ((publishedEvents workspaceId (viewOf workspaceId.value journal) related
        observedAtMs).filterMap closing).Nodup := by
  constructor
  · intro payload member
    unfold publishedEvents at member
    rcases List.mem_append.mp member with earlier | conflict
    · rcases List.mem_append.mp earlier with verdicts | supersession
      · rcases List.mem_append.mp verdicts with judgment | deferral
        · obtain ⟨event, inside, rfl⟩ := List.mem_map.mp judgment
          obtain ⟨_, _, rfl⟩ := List.mem_map.mp inside
          exact legal_inert (inWorkspace_of_coordinate rfl) rfl
        · obtain ⟨event, inside, rfl⟩ := List.mem_map.mp deferral
          obtain ⟨_, _, rfl⟩ := List.mem_map.mp inside
          exact legal_inert (inWorkspace_of_coordinate rfl) rfl
      · obtain ⟨edge, inside, rfl⟩ := List.mem_map.mp supersession
        obtain ⟨old, related, named⟩ := among.retires edge inside
        obtain ⟨claim, listed, current, shows⟩ := (semanticClaimsFromView_spec read).2 old related
        refine orderly.superseded rfl ⟨rfl, rfl⟩ (List.mem_map_of_mem listed)
          (phase_of_eligible orderly listed current) ?_
        show edge.oldClaim.value = claim.card.claimId
        rw [named, shows.named]
    · obtain ⟨entry, _, rfl⟩ := List.mem_map.mp conflict
      exact legal_opened journal rfl ⟨rfl, rfl⟩
  · rw [filterMap_closing_publishedEvents]
    have olds := among.retiresOnce
    have same : (relatePublication related.outcome).supersessions.map
        (fun edge => entityForClaim edge.oldClaim.value) =
        ((relatePublication related.outcome).supersessions.map SupersessionEdge.oldClaim).map
          fun claimId => entityForClaim claimId.value := by
      rw [List.map_map]
      rfl
    rw [same]
    refine olds.map ?_
    intro a b entities
    exact Branded.ext (entityForClaim_injective entities)

/-- What a pass has prepared, read off the workspace. -/
structure Prepares (world : RelateWorld Score) (env : OpEnv) (options : RelatePassOptions)
    (prepared : PreparedRelatePass) : Prop where
  view : prepared.view = viewOf env.workspaceId env.journal
  claims : semanticClaimsFromView (readable env.journal) env.workspaceId
    (viewOf env.workspaceId env.journal) = .ok prepared.claims
  temporal : workspaceTemporalPolicy (readable env.journal) env.workspaceId
    (viewOf env.workspaceId env.journal) = .ok prepared.temporal
  named : prepared.workspaceId.value = env.workspaceId
  basis : prepared.evaluatedBasis =
    CampaignBasis.fromView (viewOf env.workspaceId env.journal) prepared.temporal
  requested : prepared.rejudgePair = options.rejudgePair
  started : ∃ latest start,
    latestCheckpoint (readable env.journal) (viewOf env.workspaceId env.journal) = .ok latest ∧
      resolveStart latest prepared.evaluatedBasis.digest world.policy.digest
        options.candidateCursor = .ok start ∧
      prepared.execution = campaignExecution start options.rejudgePair.isSome

/-- `prepare_relate_pass` reads, and appends nothing. -/
theorem prepareRelatePass_prepares {world : RelateWorld Score} {env : OpEnv}
    {options : RelatePassOptions} {prepared : PreparedRelatePass}
    (done : prepareRelatePass world env options = .ok prepared) :
    Prepares world env options prepared := by
  unfold prepareRelatePass at done
  obtain ⟨view, assembled, done⟩ := bind_eq_ok.mp done
  rw [assembleCurrentView_readable] at assembled
  have shown : viewOf env.workspaceId env.journal = view := Except.ok.inj assembled
  rw [← shown] at done
  obtain ⟨claims, read, done⟩ := bind_eq_ok.mp done
  obtain ⟨temporal, ordered, done⟩ := bind_eq_ok.mp done
  obtain ⟨workspaceId, named, done⟩ := bind_eq_ok.mp done
  obtain ⟨latest, found, done⟩ := bind_eq_ok.mp done
  obtain ⟨start, started, done⟩ := bind_eq_ok.mp done
  rw [← Except.ok.inj done]
  exact ⟨rfl, read, ordered, value_of_workspaceIdOf named, rfl, rfl, latest, start, found, started,
    rfl⟩

omit [Blake3] in
/-- A pair judged anew is judged in the workspace of the pass. -/
theorem workspace_rejudged {op : String} {world : RelateWorld Score} {prepared : PreparedRelatePass}
    {verdicts : SettledMap} {requested : ClaimId × ClaimId} {observedAtMs : Nat}
    {rejudged : Rejudged}
    (judged : rejudgeAuthoritativePair op world prepared verdicts requested observedAtMs =
      .ok rejudged) : rejudged.event.workspaceId = prepared.workspaceId := by
  unfold rejudgeAuthoritativePair at judged
  split at judged
  · cases judged
  · split at judged
    · cases judged
    · split at judged
      · cases judged
      · obtain ⟨fresh, _, made⟩ := bind_eq_ok.mp judged
        rw [← Except.ok.inj made]

/-- The rejudge step keeps the workspace orderly, and what is legal in it legal. -/
theorem rejudgeRequested_orderly (fuse : Nat) (op : String) (world : RelateWorld Score)
    (observedAtMs : Nat) {env : OpEnv} {prepared : PreparedRelatePass}
    (orderly : Orderly env.journal env.workspaceId)
    (named : prepared.workspaceId.value = env.workspaceId) :
    match rejudgeRequested fuse op world env observedAtMs prepared with
    | .error failure => Orderly failure.left.journal env.workspaceId
    | .ok (_, _, judged) => Orderly judged.journal env.workspaceId ∧
        judged.workspaceId = env.workspaceId ∧
        ∀ payload, Legal env.journal env.workspaceId payload →
          Legal judged.journal env.workspaceId payload := by
  unfold rejudgeRequested
  cases prepared.rejudgePair with
  | none => exact ⟨orderly, rfl, fun _ legal => legal⟩
  | some requested =>
    simp only
    cases authoritativeSettlements (readable env.journal) env.workspaceId none with
    | error error => exact orderly
    | ok authority =>
      simp only
      cases judgedAnew : rejudgeAuthoritativePair op world prepared authority.verdicts requested
          observedAtMs with
      | error error => exact orderly
      | ok rejudged =>
        have inside := workspace_rejudged judgedAnew
        have here : InWorkspace env.workspaceId (.relationJudged rejudged.event) := by
          rw [← named, ← inside]
          exact inWorkspace_of_coordinate rfl
        simp only
        rcases appendWithin_cases fuse env [.relationJudged rejudged.event] with
          ⟨left, next, run, all⟩ | ⟨failure, done, rest, run, split, all⟩
        · simp only [run]
          rw [OpEnv.appendAll, List.foldlM_cons] at all
          obtain ⟨middle, first, last⟩ := bind_eq_ok.mp all
          have same : middle = next := Except.ok.inj last
          rw [same] at first
          exact ⟨orderly.append first (legal_inert here rfl), (OpEnv.append_cases first).1,
            fun payload legal => orderly.inert first here rfl legal⟩
        · simp only [run]
          refine orderly.appendAll all ?_ ?_
          · intro payload member
            have among : payload ∈ [Payload.relationJudged rejudged.event] := by
              rw [split]
              exact List.mem_append_left rest member
            rw [List.mem_singleton.mp among]
            exact legal_inert here rfl
          · have none : ([Payload.relationJudged rejudged.event]).filterMap closing = [] := rfl
            rw [split, List.filterMap_append] at none
            rw [(List.append_eq_nil_iff.mp none).1]
            exact List.nodup_nil

/-- A checkpoint of the workspace is legal. -/
theorem legal_checkpoint {world : RelateWorld Score} {prepared : PreparedRelatePass}
    {result : CampaignBasis} {phase : CampaignPhase} {observedAtMs : Nat} {journal : Journal}
    {workspaceId : String} (named : prepared.workspaceId.value = workspaceId) :
    Legal journal workspaceId
      (.campaignCheckpoint (checkpointOf world prepared result phase observedAtMs)) := by
  rw [← named]
  exact legal_inert (inWorkspace_of_coordinate rfl) rfl

/-- Appending a checkpoint alone keeps the workspace orderly. -/
theorem checkpoint_orderly {world : RelateWorld Score} {prepared : PreparedRelatePass}
    {result : CampaignBasis} {phase : CampaignPhase} {observedAtMs : Nat} {env : OpEnv}
    {workspaceId : String} (orderly : Orderly env.journal workspaceId)
    (named : prepared.workspaceId.value = workspaceId) (fuse : Nat) :
    Orderly (stateAfter (appendWithin fuse env [.campaignCheckpoint
      (checkpointOf world prepared result phase observedAtMs)])).journal workspaceId := by
  refine orderly.appendWithin fuse ?_ List.nodup_nil
  intro payload member
  rw [List.mem_singleton.mp member]
  exact legal_checkpoint named

/-- Completing a campaign without pairs keeps the workspace orderly. -/
theorem completeTrivialCampaign_orderly (fuse : Nat) (world : RelateWorld Score)
    (observedAtMs : Nat) {env : OpEnv} {prepared : PreparedRelatePass} {workspaceId : String}
    (orderly : Orderly env.journal workspaceId)
    (named : prepared.workspaceId.value = workspaceId) :
    Orderly (stateAfter (completeTrivialCampaign fuse world env observedAtMs prepared)).journal
      workspaceId := by
  have checked : Orderly (stateAfter (appendWithin fuse env [.campaignCheckpoint
      (checkpointOf world prepared prepared.evaluatedBasis .complete observedAtMs)])).journal
      workspaceId := checkpoint_orderly orderly named fuse
  unfold completeTrivialCampaign
  revert checked
  cases appendWithin fuse env [.campaignCheckpoint
    (checkpointOf world prepared prepared.evaluatedBasis .complete observedAtMs)] with
  | error failure => exact id
  | ok pair => exact id

/-- Judging a pair of a complete campaign anew keeps the workspace orderly. -/
theorem rejudgeCompletedCampaign_orderly (fuse : Nat) (op : String) (world : RelateWorld Score)
    (observedAtMs : Nat) {env : OpEnv} {prepared : PreparedRelatePass}
    (orderly : Orderly env.journal env.workspaceId)
    (named : prepared.workspaceId.value = env.workspaceId) :
    Orderly (stateAfter (rejudgeCompletedCampaign fuse op world env observedAtMs prepared)).journal
      env.workspaceId := by
  have rejudging := rejudgeRequested_orderly fuse op world observedAtMs orderly named
  unfold rejudgeCompletedCampaign
  cases step : rejudgeRequested fuse op world env observedAtMs prepared with
  | error failure =>
    rw [step] at rejudging
    exact rejudging
  | ok done =>
    obtain ⟨row, left, judged⟩ := done
    rw [step] at rejudging
    obtain ⟨judgedOrderly, _, _⟩ := rejudging
    simp only
    cases authoritativeSettlements (readable judged.journal) judged.workspaceId none with
    | error error => exact judgedOrderly
    | ok authority =>
      have checked : Orderly (stateAfter (appendWithin left judged [.campaignCheckpoint
          (checkpointOf world prepared prepared.evaluatedBasis .complete observedAtMs)])).journal
          env.workspaceId := checkpoint_orderly judgedOrderly named left
      simp only
      revert checked
      cases appendWithin left judged [.campaignCheckpoint
        (checkpointOf world prepared prepared.evaluatedBasis .complete observedAtMs)] with
      | error failure => exact id
      | ok pair => exact id

/-- Evaluating a pass keeps the workspace orderly, and what is legal in it legal; what it decides
is about the claims of the pass. -/
theorem evaluateRelatePass_orderly (fuse : Nat) (op : String) (world : RelateWorld Score)
    (observedAtMs : Nat) {env : OpEnv} {prepared : PreparedRelatePass}
    (orderly : Orderly env.journal env.workspaceId)
    (named : prepared.workspaceId.value = env.workspaceId)
    (distinct : (prepared.claims.map Semantics.ClaimView.claimId).Nodup) :
    match evaluateRelatePass fuse op world env observedAtMs prepared with
    | .error failure => Orderly failure.left.journal env.workspaceId
    | .ok (evaluated, _, judged) => Orderly judged.journal env.workspaceId ∧
        (∀ payload, Legal env.journal env.workspaceId payload →
          Legal judged.journal env.workspaceId payload) ∧
        (relatePublication evaluated.related.outcome).Among prepared.claims := by
  have rejudging := rejudgeRequested_orderly fuse op world observedAtMs orderly named
  unfold evaluateRelatePass
  cases step : rejudgeRequested fuse op world env observedAtMs prepared with
  | error failure =>
    rw [step] at rejudging
    exact rejudging
  | ok done =>
    obtain ⟨row, left, judged⟩ := done
    rw [step] at rejudging
    obtain ⟨judgedOrderly, _, keeps⟩ := rejudging
    simp only
    cases authoritativeSettlements (readable judged.journal) judged.workspaceId none with
    | error error => exact judgedOrderly
    | ok authority =>
      simp only
      cases answered : relateWithBackends world prepared.claims authority.verdicts prepared.temporal
          prepared.candidatePairBudget prepared.candidateCursor with
      | error error => exact judgedOrderly
      | ok related =>
        refine ⟨judgedOrderly, keeps, ?_⟩
        unfold relateWithBackends at answered
        obtain ⟨_, _, answered⟩ := bind_eq_ok.mp answered
        obtain ⟨outcome, decided, made⟩ := bind_eq_ok.mp answered
        rw [← Except.ok.inj made]
        exact RelateWorld.outcome_among distinct decided

/-- Publishing a pass keeps the workspace orderly. -/
theorem publishRelatePass_orderly (fuse : Nat) (world : RelateWorld Score) (observedAtMs : Nat)
    {env judged : OpEnv} {options : RelatePassOptions} {prepared : PreparedRelatePass}
    {evaluated : EvaluatedRelatePass} (orderly : Orderly env.journal env.workspaceId)
    (prepares : Prepares world env options prepared)
    (judgedOrderly : Orderly judged.journal env.workspaceId)
    (keeps : ∀ payload, Legal env.journal env.workspaceId payload →
      Legal judged.journal env.workspaceId payload)
    (among : (relatePublication evaluated.related.outcome).Among prepared.claims) :
    Orderly (stateAfter (publishRelatePass fuse world judged observedAtMs prepared
      evaluated)).journal env.workspaceId := by
  have view := prepares.view
  have read := prepares.claims
  rw [← prepares.named] at orderly keeps view read
  obtain ⟨legal, apart⟩ := legal_publishedEvents orderly read among observedAtMs
  rw [← view] at legal apart
  rw [← prepares.named] at judgedOrderly ⊢
  have published : Orderly (stateAfter (appendWithin fuse judged
      (publishedEvents prepared.workspaceId prepared.view evaluated.related observedAtMs ++
        [.campaignCheckpoint (publishedCheckpoint world prepared evaluated.related
          observedAtMs)]))).journal prepared.workspaceId.value := by
    refine judgedOrderly.appendWithin fuse ?_ ?_
    · intro payload member
      rcases List.mem_append.mp member with event | checkpoint
      · exact keeps payload (legal payload event)
      · rw [List.mem_singleton.mp checkpoint]
        exact legal_checkpoint rfl
    · have checkpoint : ([Payload.campaignCheckpoint (publishedCheckpoint world prepared
          evaluated.related observedAtMs)]).filterMap closing = [] := rfl
      rw [List.filterMap_append, checkpoint, List.append_nil]
      exact apart
  unfold publishRelatePass
  revert published
  cases appendWithin fuse judged (publishedEvents prepared.workspaceId prepared.view
      evaluated.related observedAtMs ++ [.campaignCheckpoint
        (publishedCheckpoint world prepared evaluated.related observedAtMs)]) with
  | error failure => exact id
  | ok pair => exact id

/-- The run law of relate passes: whatever a pass does, the workspace stays orderly. -/
theorem runRelatePass_orderly (fuse : Nat) (op : String) (world : RelateWorld Score) {env : OpEnv}
    (orderly : Orderly env.journal env.workspaceId) (observedAtMs : Nat)
    (options : RelatePassOptions) :
    Orderly (stateAfter (runRelatePass fuse op world env observedAtMs options)).journal
      env.workspaceId := by
  unfold runRelatePass
  cases done : prepareRelatePass world env options with
  | error error => exact orderly
  | ok prepared =>
    have prepares := prepareRelatePass_prepares done
    have distinct := nodup_semanticClaims orderly prepares.claims
    have evaluating := evaluateRelatePass_orderly fuse op world observedAtMs orderly prepares.named
      distinct
    simp only
    cases prepared.execution with
    | noopComplete => exact orderly
    | rejudgeComplete =>
      exact rejudgeCompletedCampaign_orderly fuse op world observedAtMs orderly prepares.named
    | run cursor =>
      simp only
      split
      · exact orderly
      · split
        · exact completeTrivialCampaign_orderly fuse world observedAtMs orderly prepares.named
        · cases step : evaluateRelatePass fuse op world env observedAtMs prepared with
          | error failure =>
            rw [step] at evaluating
            exact evaluating
          | ok done =>
            obtain ⟨evaluated, left, judged⟩ := done
            rw [step] at evaluating
            obtain ⟨judgedOrderly, keeps, among⟩ := evaluating
            exact publishRelatePass_orderly left world observedAtMs orderly prepares judgedOrderly
              keeps among

/-- A relate run keeps an orderly workspace orderly. -/
theorem relateRun_orderly (fuse : Nat) (world : RelateWorld Score) {workspaceId : String}
    (input : RelateRunInput) {journal : Journal} (orderly : Orderly journal workspaceId) :
    Orderly (stateAfter (relateRun fuse world workspaceId input journal)) workspaceId := by
  unfold relateRun
  cases input.validatedOptions with
  | error error => exact orderly
  | ok options =>
    have ran : Orderly (stateAfter (runRelatePass fuse relateOp world
        { workspaceId := workspaceId, journal := journal } input.observedAtMs options)).journal
        workspaceId := runRelatePass_orderly fuse relateOp world orderly input.observedAtMs options
    simp only
    revert ran
    cases runRelatePass fuse relateOp world { workspaceId := workspaceId, journal := journal }
        input.observedAtMs options with
    | error failure => exact id
    | ok pair => exact id

end Texo.Relate
