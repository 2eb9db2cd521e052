import Texo.Relate.Basis
import Texo.Relate.Checkpoints

/-! # Where the next pass resumes

A pass that succeeds leaves a checkpoint with the basis it predicts. The prediction always holds,
so the next pass under the same policy resumes where the checkpoint says whenever it finds that
checkpoint; a pass that only repeats earlier events can leave an older one as the latest.
-/
namespace Texo.Relate
open Texo.Events Texo.Knowledge Texo.Foundation Texo.Store Texo.Claims Texo.Semantics Texo.Ops
  Texo.Ingest

section Starts

/-- The phase of the latest checkpoint, where it names the basis and the policy of another. -/
def standingPhase (latest : Option RelationCampaignCheckpointV1)
    (payload : RelationCampaignCheckpointV1) : Option CampaignPhase :=
  (latest.filter fun checkpoint => RelationCampaignCheckpointV1.names checkpoint
    payload.resultBasisDigestHex payload.candidatePolicyDigestHex).map
      RelationCampaignCheckpointV1.phase

/-- The latest checkpoint stands for the basis, policy and phase of another; a campaign without a
checkpoint stands at its first pair. -/
def StandsFor (latest : Option RelationCampaignCheckpointV1)
    (payload : RelationCampaignCheckpointV1) : Prop :=
  standingPhase latest payload = some payload.phase ∨
    (payload.phase = .incomplete 0 ∧ standingPhase latest payload = none)

/-- Where a pass starts in a phase. -/
def startOf : CampaignPhase → CampaignStart
  | .complete => .alreadyComplete
  | .incomplete next => .run next

/-- The cursors a pass may ask for in a phase. -/
def Admits : CampaignPhase → Option Nat → Prop
  | .complete, _ => True
  | .incomplete next, requested => requested = none ∨ requested = some 0 ∨ requested = some next

/-- A checkpoint stands for itself. -/
theorem standsFor_self (payload : RelationCampaignCheckpointV1) :
    StandsFor (some payload) payload := by
  left
  unfold standingPhase RelationCampaignCheckpointV1.names
  simp

/-- A pass starts where the standing checkpoint says. -/
theorem resolveStart_of_standsFor {latest : Option RelationCampaignCheckpointV1}
    {payload : RelationCampaignCheckpointV1} (stands : StandsFor latest payload)
    {requested : Option Nat} (admitted : Admits payload.phase requested) :
    resolveStart latest payload.resultBasisDigestHex payload.candidatePolicyDigestHex requested =
      .ok (startOf payload.phase) := by
  unfold StandsFor standingPhase at stands
  unfold resolveStart
  rcases stands with found | ⟨first, absent⟩
  · rw [found]
    cases phase : payload.phase with
    | complete => rfl
    | incomplete next =>
      rw [phase] at admitted
      rcases admitted with rfl | rfl | rfl
      · rfl
      · rfl
      · exact if_pos (Or.inr rfl)
  · rw [absent, first]
    rw [first] at admitted
    rcases admitted with rfl | rfl | rfl
    · rfl
    · rfl
    · rfl

/-- A pass without a cursor starts in a phase only where a checkpoint stands for it. -/
theorem standsFor_of_resolveStart {latest : Option RelationCampaignCheckpointV1}
    {payload : RelationCampaignCheckpointV1} {start : CampaignStart}
    (resolved : resolveStart latest payload.resultBasisDigestHex payload.candidatePolicyDigestHex
      none = .ok start) (same : start = startOf payload.phase) : StandsFor latest payload := by
  rw [same] at resolved
  unfold StandsFor
  have unfolded : standingPhase latest payload =
      (latest.filter fun checkpoint => RelationCampaignCheckpointV1.names checkpoint
        payload.resultBasisDigestHex payload.candidatePolicyDigestHex).map
          RelationCampaignCheckpointV1.phase := rfl
  unfold resolveStart at resolved
  rw [← unfolded] at resolved
  cases found : standingPhase latest payload with
  | none =>
    rw [found] at resolved
    right
    cases phase : payload.phase with
    | complete =>
      rw [phase] at resolved
      cases resolved
    | incomplete next =>
      rw [phase] at resolved
      cases resolved
      exact ⟨rfl, rfl⟩
  | some standing =>
    rw [found] at resolved
    left
    cases standing with
    | complete =>
      cases phase : payload.phase with
      | complete => rfl
      | incomplete next =>
        rw [phase] at resolved
        cases resolved
    | incomplete other =>
      cases phase : payload.phase with
      | complete =>
        rw [phase] at resolved
        cases resolved
      | incomplete next =>
        rw [phase] at resolved
        cases resolved
        rfl

/-- A campaign start tells the execution apart where no pair is to be judged anew. -/
theorem campaignExecution_injective {one two : CampaignStart}
    (same : campaignExecution one false = campaignExecution two false) : one = two := by
  cases one with
  | alreadyComplete =>
    cases two with
    | alreadyComplete => rfl
    | run cursor => cases same
  | run cursor =>
    cases two with
    | alreadyComplete => cases same
    | run other =>
      cases same
      rfl

end Starts

section Published

variable [Blake3] {Score : Type}

/-- Appends that all succeed are those appends. -/
theorem appendAll_of_appendWithin {fuse left : Nat} {env next : OpEnv}
    {payloads : List Payload} (ran : appendWithin fuse env payloads = .ok (left, next)) :
    env.appendAll payloads = .ok next := by
  rcases appendWithin_cases fuse env payloads with ⟨_, reached, run, all⟩ | ⟨_, _, _, run, _, _⟩
  · rw [run] at ran
    rw [← (Prod.mk.inj (Except.ok.inj ran)).2]
    exact all
  · rw [run] at ran
    cases ran

/-- The rejudge step appends judgments of the workspace. -/
theorem rejudgeRequested_appends {fuse left : Nat} {op : String} {world : RelateWorld Score}
    {env judged : OpEnv} {observedAtMs : Nat} {prepared : PreparedRelatePass}
    {row : Option RejudgedPairRow}
    (done : rejudgeRequested fuse op world env observedAtMs prepared = .ok (row, left, judged)) :
    ∃ events : List RelationJudgedV1,
      env.appendAll (events.map Payload.relationJudged) = .ok judged ∧
        ∀ event ∈ events, event.workspaceId = prepared.workspaceId := by
  unfold rejudgeRequested at done
  split at done
  · obtain ⟨_, _, rfl⟩ := Except.ok.inj done
    exact ⟨[], rfl, by simp⟩
  · split at done
    · cases done
    · split at done
      · cases done
      · rename_i rejudged anew
        split at done
        · cases done
        · rename_i left' judged' appended
          have same : judged' = judged :=
            (Prod.mk.inj (Prod.mk.inj (Except.ok.inj done)).2).2
          refine ⟨[rejudged.event], ?_, ?_⟩
          · rw [← same]
            exact appendAll_of_appendWithin appended
          · intro event member
            rw [List.mem_singleton.mp member]
            exact workspace_rejudged anew

/-- Evaluating a pass appends no more than its rejudge step. -/
theorem evaluateRelatePass_appends {fuse left : Nat} {op : String} {world : RelateWorld Score}
    {env judged : OpEnv} {observedAtMs : Nat} {prepared : PreparedRelatePass}
    {evaluated : EvaluatedRelatePass}
    (done : evaluateRelatePass fuse op world env observedAtMs prepared =
      .ok (evaluated, left, judged)) :
    ∃ events : List RelationJudgedV1,
      env.appendAll (events.map Payload.relationJudged) = .ok judged ∧
        ∀ event ∈ events, event.workspaceId = prepared.workspaceId := by
  unfold evaluateRelatePass at done
  split at done
  · cases done
  · rename_i row left' judged' rejudged
    split at done
    · cases done
    · split at done
      · cases done
      · have same : judged' = judged := (Prod.mk.inj (Prod.mk.inj (Except.ok.inj done)).2).2
        rw [← same]
        exact rejudgeRequested_appends rejudged

/-- What a publication withdraws: the claims it retires, and those of the conflicts it opens. -/
theorem flatMap_withdrawn_publishedEvents (workspaceId : WorkspaceId) (view : WorkspaceView)
    (related : SemanticRelateOutput) (observedAtMs : Nat) :
    (publishedEvents workspaceId view related observedAtMs).flatMap withdrawn =
      ((relatePublication related.outcome).supersessions.map fun edge => edge.oldClaim.value) ++
        (newConflicts view (relatePublication related.outcome).conflicts).flatMap fun entry =>
          [entry.claimA.value, entry.claimB.value] := by
  have judged : ((relationJudgments workspaceId related observedAtMs).map
      Payload.relationJudged).flatMap withdrawn = [] := by
    simp [List.flatMap_map, withdrawn]
  have deferred : ((relationDeferrals workspaceId (unresolvedOf related.outcome) observedAtMs).map
      Payload.relationDeferred).flatMap withdrawn = [] := by
    simp [List.flatMap_map, withdrawn]
  unfold publishedEvents
  rw [List.flatMap_append, List.flatMap_append, List.flatMap_append, judged, deferred]
  simp only [List.nil_append, List.flatMap_map, withdrawn, relateSuperseded, relateOpened]
  rw [← List.map_eq_flatMap]

/-- The basis a pass leaves is the basis it read, with what it publishes withdrawn. -/
theorem resultBasis_withdraw (basis : CampaignBasis) (workspaceId : WorkspaceId)
    (view : WorkspaceView) (related : SemanticRelateOutput) (observedAtMs : Nat) :
    resultBasis basis view related.outcome =
      { basis with
        claims := ((publishedEvents workspaceId view related observedAtMs).flatMap
          withdrawn).foldl withdraw basis.claims } := by
  rw [flatMap_withdrawn_publishedEvents]
  cases related.outcome with
  | incomplete unfinished => rfl
  | complete complete =>
    unfold resultBasis CampaignBasis.afterPublication relatePublication
    dsimp only
    rw [List.foldl_append, List.foldl_map, List.foldl_flatMap]
    rfl

/-- The entities a publication is about: the claims it retires, then the conflicts it opens. -/
theorem filterMap_about_publishedEvents (workspaceId : WorkspaceId) (view : WorkspaceView)
    (related : SemanticRelateOutput) (observedAtMs : Nat) :
    (publishedEvents workspaceId view related observedAtMs).filterMap lifecycleEntity =
      ((relatePublication related.outcome).supersessions.map fun edge =>
        entityForClaim edge.oldClaim.value) ++
        (newConflicts view (relatePublication related.outcome).conflicts).map fun entry =>
          entityForConflict entry.conflictId.value := by
  have judged : ((relationJudgments workspaceId related observedAtMs).map
      Payload.relationJudged).filterMap lifecycleEntity = [] := by
    simp [List.filterMap_map, Function.comp_def, lifecycleEntity]
  have deferred : ((relationDeferrals workspaceId (unresolvedOf related.outcome) observedAtMs).map
      Payload.relationDeferred).filterMap lifecycleEntity = [] := by
    simp [List.filterMap_map, Function.comp_def, lifecycleEntity]
  unfold publishedEvents
  rw [List.filterMap_append, List.filterMap_append, List.filterMap_append, judged, deferred]
  simp [List.filterMap_map, Function.comp_def, lifecycleEntity, relateSuperseded, relateOpened]

/-- A publication is about each claim and each conflict once. -/
theorem nodup_about_publishedEvents {claims : List Semantics.ClaimView} {workspaceId : WorkspaceId}
    {view : WorkspaceView} {related : SemanticRelateOutput}
    (among : (relatePublication related.outcome).Among claims) (observedAtMs : Nat) :
    ((publishedEvents workspaceId view related observedAtMs).filterMap lifecycleEntity).Nodup := by
  rw [filterMap_about_publishedEvents]
  have olds : ((relatePublication related.outcome).supersessions.map fun edge =>
      entityForClaim edge.oldClaim.value).Nodup := by
    have split : ((relatePublication related.outcome).supersessions.map fun edge =>
        entityForClaim edge.oldClaim.value) =
        ((relatePublication related.outcome).supersessions.map SupersessionEdge.oldClaim).map
          fun claimId => entityForClaim claimId.value := by
      rw [List.map_map]
      rfl
    rw [split]
    exact among.retiresOnce.map fun a b same => Branded.ext (entityForClaim_injective same)
  have opened : ((newConflicts view (relatePublication related.outcome).conflicts).map fun entry =>
      entityForConflict entry.conflictId.value).Nodup := by
    have split : ((newConflicts view (relatePublication related.outcome).conflicts).map fun entry =>
        entityForConflict entry.conflictId.value) =
        ((newConflicts view (relatePublication related.outcome).conflicts).map
          ConflictEntry.conflictId).map fun conflictId => entityForConflict conflictId.value := by
      rw [List.map_map]
      rfl
    rw [split]
    refine List.Nodup.map (fun a b same => Branded.ext (entityForConflict_injective same)) ?_
    exact among.opensOnce.sublist (List.filter_sublist.map _)
  refine List.Nodup.append olds opened ?_
  rw [List.disjoint_left]
  intro entity retired disputed
  obtain ⟨_, _, claims⟩ := List.mem_map.mp retired
  obtain ⟨_, _, conflicts⟩ := List.mem_map.mp disputed
  have families := congrArg CardFamily.of (claims.trans conflicts.symm)
  simp at families

/-- What a publication retires is in its first phase, and what it opens has not begun. -/
theorem withdraws_publishedEvents {journal : Journal} {workspaceId : WorkspaceId}
    (orderly : Orderly journal workspaceId.value) {claims : List Semantics.ClaimView}
    (read : semanticClaimsFromView (readable journal) workspaceId.value
      (viewOf workspaceId.value journal) = .ok claims) {related : SemanticRelateOutput}
    (among : (relatePublication related.outcome).Among claims) (observedAtMs : Nat) :
    ∀ payload ∈ publishedEvents workspaceId (viewOf workspaceId.value journal) related observedAtMs,
      Quiet payload ∧ Withdraws (workspaceRows journal workspaceId.value) payload := by
  intro payload member
  unfold publishedEvents at member
  rcases List.mem_append.mp member with earlier | conflict
  · rcases List.mem_append.mp earlier with verdicts | supersession
    · rcases List.mem_append.mp verdicts with judgment | deferral
      · obtain ⟨event, _, rfl⟩ := List.mem_map.mp judgment
        exact ⟨⟨rfl, by simp [Payload.kind], by simp [Payload.kind]⟩, trivial⟩
      · obtain ⟨event, _, rfl⟩ := List.mem_map.mp deferral
        exact ⟨⟨rfl, by simp [Payload.kind], by simp [Payload.kind]⟩, trivial⟩
    · obtain ⟨edge, inside, rfl⟩ := List.mem_map.mp supersession
      refine ⟨⟨rfl, by simp [Payload.kind], by simp [Payload.kind]⟩, ?_⟩
      obtain ⟨old, related, named⟩ := among.retires edge inside
      obtain ⟨claim, listed, current, shows⟩ := (semanticClaimsFromView_spec read).2 old related
      have reached := (orderly.lawful.claim orderly.conforming (List.mem_map_of_mem listed)).1
      show phaseOf (streamOf (workspaceRows journal workspaceId.value)
        (entityForClaim edge.oldClaim.value)) = some 1
      rw [named, shows.named]
      exact reached.trans (congrArg some (phase_of_eligible orderly listed current))
  · obtain ⟨entry, inside, rfl⟩ := List.mem_map.mp conflict
    refine ⟨⟨rfl, by simp [Payload.kind], by simp [Payload.kind]⟩, ?_⟩
    have absent := of_decide_eq_true (List.mem_filter.mp inside).2
    have opened : entry.conflictId.value ∈ existingConflicts (viewOf workspaceId.value journal) ↔
        streamOf (workspaceRows journal workspaceId.value)
          (entityForConflict entry.conflictId.value) ≠ [] :=
      orderly.lawful.opened_iff orderly.conforming
    show streamOf (workspaceRows journal workspaceId.value)
      (entityForConflict entry.conflictId.value) = []
    by_contra begun
    exact absent (opened.mpr begun)

/-- What a publication withdraws has been recorded. -/
theorem recorded_publishedEvents {journal : Journal} {workspaceId : WorkspaceId}
    (orderly : Orderly journal workspaceId.value) {claims : List Semantics.ClaimView}
    (read : semanticClaimsFromView (readable journal) workspaceId.value
      (viewOf workspaceId.value journal) = .ok claims) {related : SemanticRelateOutput}
    (among : (relatePublication related.outcome).Among claims) (observedAtMs : Nat) :
    ∀ claimId ∈ (publishedEvents workspaceId (viewOf workspaceId.value journal) related
        observedAtMs).flatMap withdrawn,
      streamOf (workspaceRows journal workspaceId.value) (entityForClaim claimId) ≠ [] := by
  have begun : ∀ related ∈ claims, streamOf (workspaceRows journal workspaceId.value)
      (entityForClaim related.claimId.value) ≠ [] := by
    intro related member
    obtain ⟨claim, listed, _, shows⟩ := (semanticClaimsFromView_spec read).2 related member
    rw [shows.named]
    have known : claim.card.claimId ∈ (viewOf workspaceId.value journal).claims.map
        (fun claim => claim.card.claimId) := List.mem_map.mpr ⟨claim, listed, rfl⟩
    exact (orderly.lawful.listed_iff orderly.conforming).mp known
  intro claimId member
  rw [flatMap_withdrawn_publishedEvents] at member
  rcases List.mem_append.mp member with retired | disputed
  · obtain ⟨edge, inside, rfl⟩ := List.mem_map.mp retired
    obtain ⟨old, related, named⟩ := among.retires edge inside
    rw [named]
    exact begun old related
  · obtain ⟨entry, inside, named⟩ := List.mem_flatMap.mp disputed
    obtain ⟨a, first, b, second, left, right, _⟩ := among.opens entry (List.mem_filter.mp inside).1
    rcases List.mem_cons.mp named with same | same
    · rw [same, left]
      exact begun a first
    · rw [List.mem_singleton.mp same, right]
      exact begun b second

end Published

section Stage

variable [Blake3] {Score : Type}

/-- Nothing is withdrawn between an orderly store and itself. -/
theorem Succession.refl {journal : Journal} {workspaceId : String}
    (orderly : Orderly journal workspaceId) : Succession journal journal workspaceId [] where
  before := orderly
  after := orderly
  quiet := ⟨[], by simp, by simp⟩
  withdrawal := Withdrawal.refl _
  recorded := by simp

/-- What a pass appends before its checkpoint: judgments made anew, then its publication. -/
theorem succession_of_publication {env stage : OpEnv} {workspaceId : WorkspaceId}
    (orderly : Orderly env.journal workspaceId.value) {events : List RelationJudgedV1}
    (own : ∀ event ∈ events, event.workspaceId = workspaceId) {payloads : List Payload}
    (appended : env.appendAll (events.map Payload.relationJudged ++ payloads) = .ok stage)
    (legal : ∀ payload ∈ payloads, Legal env.journal workspaceId.value payload)
    (withdraws : ∀ payload ∈ payloads, Quiet payload ∧
      Withdraws (workspaceRows env.journal workspaceId.value) payload)
    (apart : (payloads.filterMap lifecycleEntity).Nodup)
    (recorded : ∀ claimId ∈ payloads.flatMap withdrawn,
      streamOf (workspaceRows env.journal workspaceId.value) (entityForClaim claimId) ≠ []) :
    Succession env.journal stage.journal workspaceId.value (payloads.flatMap withdrawn) := by
  have gone : (events.map Payload.relationJudged ++ payloads).flatMap withdrawn =
      payloads.flatMap withdrawn := by
    rw [List.flatMap_append, List.flatMap_map]
    simp [withdrawn]
  have about : (events.map Payload.relationJudged ++ payloads).filterMap lifecycleEntity =
      payloads.filterMap lifecycleEntity := by
    rw [List.filterMap_append, List.filterMap_map]
    simp [Function.comp_def, lifecycleEntity]
  have each : ∀ payload ∈ events.map Payload.relationJudged ++ payloads,
      Legal env.journal workspaceId.value payload ∧ Quiet payload ∧
        Withdraws (workspaceRows env.journal workspaceId.value) payload := by
    intro payload member
    rcases List.mem_append.mp member with anew | published
    · obtain ⟨event, inside, rfl⟩ := List.mem_map.mp anew
      have here : InWorkspace workspaceId.value (.relationJudged event) := by
        rw [← own event inside]
        exact inWorkspace_of_coordinate rfl
      exact ⟨legal_inert here rfl, ⟨rfl, by simp [Payload.kind], by simp [Payload.kind]⟩, trivial⟩
    · exact ⟨legal payload published, withdraws payload published⟩
  rw [← gone]
  refine succession_of_appendAll orderly appended (fun payload member => (each payload member).1)
    (fun payload member => (each payload member).2.2) ?_
    (fun payload member => (each payload member).2.1) ?_
  · rw [about]
    exact apart
  · rw [gone]
    exact recorded

/-- A checkpoint of the workspace withdraws nothing. -/
theorem succession_of_checkpoint {stage settled : OpEnv} {payload : RelationCampaignCheckpointV1}
    (orderly : Orderly stage.journal payload.workspaceId.value)
    (appended : stage.append (.campaignCheckpoint payload) = .ok settled) :
    Succession stage.journal settled.journal payload.workspaceId.value [] := by
  have alone : stage.appendAll [.campaignCheckpoint payload] = .ok settled := by
    rw [OpEnv.appendAll, List.foldlM_cons, appended]
    rfl
  refine succession_of_appendAll orderly alone ?_ ?_ List.nodup_nil ?_ ?_
  · intro other member
    rw [List.mem_singleton.mp member]
    exact legal_inert (inWorkspace_of_coordinate rfl) rfl
  · intro other member
    rw [List.mem_singleton.mp member]
    trivial
  · intro other member
    rw [List.mem_singleton.mp member]
    exact ⟨rfl, by simp [Payload.kind], by simp [Payload.kind]⟩
  · intro claimId member
    cases member

/-- The checkpoint a pass leads to, and the claims withdrawn on the way to it. -/
structure LeadsTo (world : RelateWorld Score) (env : OpEnv) (options : RelatePassOptions)
    (observedAtMs : Nat) (stage : OpEnv) (payload : RelationCampaignCheckpointV1)
    (prepared : PreparedRelatePass) (gone : List String) : Prop where
  prepares : Prepares world env options prepared
  succession : Succession env.journal stage.journal env.workspaceId gone
  checkpoint : payload = checkpointOf world prepared
    { prepared.evaluatedBasis with
      claims := gone.foldl withdraw prepared.evaluatedBasis.claims } payload.phase observedAtMs
  unfinished : ∀ next, payload.phase = .incomplete next → gone = []

/-- A pass that reaches its checkpoint has withdrawn exactly what the checkpoint's basis says. -/
theorem checkpointStage_leads {fuse : Nat} {op : String} {world : RelateWorld Score}
    {env stage : OpEnv} {observedAtMs : Nat} {options : RelatePassOptions}
    {payload : RelationCampaignCheckpointV1} (orderly : Orderly env.journal env.workspaceId)
    (staged : checkpointStage fuse op world env observedAtMs options = some (stage, payload)) :
    ∃ prepared gone, LeadsTo world env options observedAtMs stage payload prepared gone := by
  unfold checkpointStage at staged
  cases done : prepareRelatePass world env options with
  | error error =>
    rw [done] at staged
    cases staged
  | ok prepared =>
    have prepares := prepareRelatePass_prepares done
    have named := prepares.named
    have here : Orderly env.journal prepared.workspaceId.value := by
      rw [named]
      exact orderly
    rw [done] at staged
    dsimp only at staged
    refine ⟨prepared, ?_⟩
    split at staged
    · cases staged
    · split at staged
      · cases staged
      · -- A complete campaign is left with a pair judged anew.
        rename_i judged rejudged
        obtain ⟨rfl, rfl⟩ := Prod.mk.inj (Option.some.inj staged)
        obtain ⟨events, appended, own⟩ := rejudgeRequested_appends rejudged
        have alone : env.appendAll (events.map Payload.relationJudged ++ []) = .ok judged := by
          rw [List.append_nil]
          exact appended
        have succession := succession_of_publication here own alone (by simp) (by simp)
          List.nodup_nil (by simp)
        rw [named] at succession
        exact ⟨[], prepares, succession, rfl, fun _ _ => rfl⟩
    · split at staged
      · obtain ⟨rfl, rfl⟩ := Prod.mk.inj (Option.some.inj staged)
        exact ⟨[], prepares, Succession.refl orderly, rfl, fun _ _ => rfl⟩
      · split at staged
        · cases staged
        · rename_i evaluated left judged evaluating
          have decided := evaluateRelatePass_orderly fuse op world observedAtMs orderly named
            (nodup_semanticClaims orderly prepares.claims)
          rw [evaluating] at decided
          obtain ⟨_, _, among⟩ := decided
          split at staged
          · cases staged
          · rename_i published appended
            obtain ⟨same, holds⟩ := Prod.mk.inj (Option.some.inj staged)
            rw [same] at appended
            obtain ⟨events, anew, own⟩ := evaluateRelatePass_appends evaluating
            have view := prepares.view
            have read := prepares.claims
            rw [← named] at view read
            have all : env.appendAll (events.map Payload.relationJudged ++
                publishedEvents prepared.workspaceId prepared.view evaluated.related
                  observedAtMs) = .ok stage := by
              rw [OpEnv.appendAll, List.foldlM_append]
              exact bind_eq_ok.mpr ⟨judged, anew, appendAll_of_appendWithin appended⟩
            rw [view] at all
            obtain ⟨legal, _⟩ := legal_publishedEvents here read among observedAtMs
            have succession := succession_of_publication here own all legal
              (withdraws_publishedEvents here read among observedAtMs)
              (nodup_about_publishedEvents among observedAtMs)
              (recorded_publishedEvents here read among observedAtMs)
            rw [← view, named] at succession
            refine ⟨_, prepares, succession, ?_, ?_⟩
            · rw [← holds]
              unfold publishedCheckpoint
              rw [resultBasis_withdraw _ prepared.workspaceId _ _ observedAtMs]
              rfl
            · intro next unfinished
              rw [← holds] at unfinished
              rw [flatMap_withdrawn_publishedEvents]
              cases outcome : evaluated.related.outcome with
              | complete complete =>
                have phase : resultPhase evaluated.related.outcome = .incomplete next := unfinished
                rw [outcome] at phase
                cases phase
              | incomplete unfinished => rfl

/-- Once the checkpoint is appended, the basis it tells is the basis of the view that is assembled
anew. -/
theorem LeadsTo.basis {world : RelateWorld Score} {env stage settled : OpEnv}
    {options : RelatePassOptions} {observedAtMs : Nat} {payload : RelationCampaignCheckpointV1}
    {prepared : PreparedRelatePass} {gone : List String}
    (leads : LeadsTo world env options observedAtMs stage payload prepared gone)
    (appended : stage.append (.campaignCheckpoint payload) = .ok settled) :
    Succession env.journal settled.journal env.workspaceId gone ∧
      CampaignBasis.fromView (viewOf env.workspaceId settled.journal) prepared.temporal =
        { prepared.evaluatedBasis with
          claims := gone.foldl withdraw prepared.evaluatedBasis.claims } := by
  have here : payload.workspaceId.value = env.workspaceId := by
    rw [leads.checkpoint]
    exact leads.prepares.named
  have last : Succession stage.journal settled.journal env.workspaceId [] := by
    rw [← here]
    apply succession_of_checkpoint _ appended
    rw [here]
    exact leads.succession.after
  have whole := leads.succession.trans last
  rw [List.append_nil] at whole
  refine ⟨whole, ?_⟩
  have claims := claims_of_withdrawal whole.before whole.after whole.withdrawal whole.recorded
    prepared.temporal prepared.temporal
  rw [← leads.prepares.basis] at claims
  have identity : (CampaignBasis.fromView (viewOf env.workspaceId settled.journal)
      prepared.temporal).temporalIdentityDigestHex =
      prepared.evaluatedBasis.temporalIdentityDigestHex := by
    rw [leads.prepares.basis]
    rfl
  rw [← claims]
  dsimp only
  rw [← identity]

end Stage

section Latest

/-- A stream that ends with a checkpoint has it as the last. -/
theorem lastCheckpoint_of_latest {journal : Journal} {workspaceId : String} {row : Entry}
    {payload : RelationCampaignCheckpointV1}
    (latest : latestCampaignRow journal workspaceId = some row)
    (carries : row.payload = .campaignCheckpoint payload) :
    lastCheckpoint journal workspaceId = some payload := by
  obtain ⟨front, split⟩ := List.getLast?_eq_some_iff.mp latest
  unfold lastCheckpoint
  rw [split, List.foldl_append, List.foldl_cons, List.foldl_nil, carries]
  rfl

/-- The checkpoint is appended, or the latest one stands for it already. -/
def Lands (stage : OpEnv) (payload : RelationCampaignCheckpointV1) : Prop :=
  stage.journal.Unused (checkpointKey payload (predecessorOf stage payload.workspaceId.value)) ∨
    StandsFor (lastCheckpoint stage.journal payload.workspaceId.value) payload

/-- A checkpoint that was appended stands exactly where it lands. -/
theorem standsFor_settled [Blake3] {stage settled : OpEnv} {payload : RelationCampaignCheckpointV1}
    (appended : stage.append (.campaignCheckpoint payload) = .ok settled) :
    StandsFor (lastCheckpoint settled.journal payload.workspaceId.value) payload ↔
      Lands stage payload := by
  unfold OpEnv.append at appended
  cases ran : policyAppend stage (.campaignCheckpoint payload) with
  | error error =>
    rw [ran] at appended
    cases appended
  | ok result =>
    obtain ⟨entry, journal⟩ := result
    rw [ran] at appended
    obtain rfl := Except.ok.inj appended
    obtain ⟨_, key, chosen, made⟩ := appendRelationCampaignCheckpoint_ok ran
    dsimp only
    by_cases retries : RetriesLatest stage payload
    · -- The latest checkpoint is the same, and nothing is appended.
      obtain ⟨row, latest, carries, behind⟩ := retries
      have own := standsFor_self payload
      rw [← lastCheckpoint_of_latest latest carries] at own
      have reused : key = row.eventId := by
        rw [options_of_retries latest carries behind] at chosen
        exact (Except.ok.inj chosen).symm
      rw [reused] at made
      have kept : (row, stage.journal) = (entry, journal) :=
        (append_used (mem_of_latestCampaignRow latest) _ _ _).symm.trans made
      rw [← (Prod.mk.inj kept).2]
      exact iff_of_true own (Or.inr own)
    · have keyed := options_of_not_retries retries chosen
      rcases stage.journal.append_cases (some key) (scopeForWorkspace payload.workspaceId.value)
          (entityForRelationCampaign payload.workspaceId.value) (.campaignCheckpoint payload) with
        ⟨original, member, used, same⟩ | ⟨unused, row, grown⟩
      · have kept : (original, stage.journal) = (entry, journal) := same.symm.trans made
        rw [← (Prod.mk.inj kept).2]
        refine (or_iff_right ?_).symm
        intro free
        exact free original member (used.trans keyed)
      · have made' : stage.journal.append (some key)
            (scopeForWorkspace payload.workspaceId.value)
            (entityForRelationCampaign payload.workspaceId.value) (.campaignCheckpoint payload) =
            (entry, journal) := made
        rw [made'] at row grown
        dsimp only at row grown
        have entries : journal.entries = stage.journal.entries ++ [entry] := by rw [grown, row]
        have latest : lastCheckpoint journal payload.workspaceId.value = some payload :=
          lastCheckpoint_append entries (by rw [row]) (by rw [row])
        rw [latest]
        refine iff_of_true (standsFor_self payload) (Or.inl ?_)
        rw [← keyed]
        exact unused

end Latest

section Resumes

variable [Blake3] {Score : Type}

/-- The next pass under the same policy goes on where a checkpoint left the campaign. -/
structure Resumes (world : RelateWorld Score) (before after : OpEnv)
    (payload : RelationCampaignCheckpointV1) : Prop where
  /-- The basis of the view assembled anew is the one the checkpoint tells. -/
  basis : ∃ temporal, workspaceTemporalPolicy (readable after.journal) before.workspaceId
      (viewOf before.workspaceId after.journal) = .ok temporal ∧
    (CampaignBasis.fromView (viewOf before.workspaceId after.journal) temporal).digest =
      payload.resultBasisDigestHex
  /-- An unfinished pass leaves the basis as it was. -/
  unchanged : ∀ next, payload.phase = .incomplete next → ∀ temporal,
    workspaceTemporalPolicy (readable before.journal) before.workspaceId
        (viewOf before.workspaceId before.journal) = .ok temporal →
      CampaignBasis.fromView (viewOf before.workspaceId after.journal) temporal =
        CampaignBasis.fromView (viewOf before.workspaceId before.journal) temporal
  /-- The next pass is prepared, and starts in the phase of the checkpoint. -/
  starts : ∀ (again : RelateWorld Score) (options : RelatePassOptions),
    again.policy = world.policy → Admits payload.phase options.candidateCursor →
      ∃ ready, prepareRelatePass again
          { workspaceId := before.workspaceId, journal := after.journal } options = .ok ready ∧
        ready.execution = campaignExecution (startOf payload.phase) options.rejudgePair.isSome
  /-- After a complete pass the next one appends nothing, unless a pair is to be judged anew. -/
  complete : payload.phase = .complete → ∀ (again : RelateWorld Score)
    (options : RelatePassOptions) (fuse : Nat) (op : String) (observedAtMs : Nat),
    again.policy = world.policy → options.rejudgePair = none →
      ∃ output, runRelatePass fuse op again
        { workspaceId := before.workspaceId, journal := after.journal } observedAtMs options =
          .ok (output, { workspaceId := before.workspaceId, journal := after.journal })

/-- A pass that finds its campaign complete appends nothing. -/
theorem runRelatePass_noop {fuse : Nat} {op : String} {world : RelateWorld Score} {env : OpEnv}
    {observedAtMs : Nat} {options : RelatePassOptions} {ready : PreparedRelatePass}
    (done : prepareRelatePass world env options = .ok ready)
    (complete : ready.execution = .noopComplete) :
    ∃ output, runRelatePass fuse op world env observedAtMs options =
      .ok (output, (takeReceipts env).2) := by
  unfold runRelatePass
  rw [done]
  dsimp only
  rw [complete]
  exact ⟨_, rfl⟩

/-- After a pass has appended its checkpoint, the next one resumes exactly where the latest
checkpoint stands for it. -/
theorem LeadsTo.resumes_iff {world : RelateWorld Score} {env stage settled : OpEnv}
    {options : RelatePassOptions} {observedAtMs : Nat} {payload : RelationCampaignCheckpointV1}
    {prepared : PreparedRelatePass} {gone : List String}
    (leads : LeadsTo world env options observedAtMs stage payload prepared gone)
    (appended : stage.append (.campaignCheckpoint payload) = .ok settled) :
    Resumes world env settled payload ↔
      StandsFor (lastCheckpoint settled.journal env.workspaceId) payload := by
  obtain ⟨succession, basis⟩ := leads.basis appended
  have temporal := succession.temporal leads.prepares.temporal
  have policy : payload.candidatePolicyDigestHex = world.policy.digest := by
    rw [leads.checkpoint]
    rfl
  have digest : (CampaignBasis.fromView (viewOf env.workspaceId settled.journal)
      prepared.temporal).digest = payload.resultBasisDigestHex := by
    rw [basis, leads.checkpoint]
    rfl
  constructor
  · intro resumes
    have admitted : Admits payload.phase ({} : RelatePassOptions).candidateCursor := by
      cases payload.phase with
      | complete => trivial
      | incomplete next => exact Or.inl rfl
    obtain ⟨ready, done, executes⟩ := resumes.starts world {} rfl admitted
    obtain ⟨start, resolved, started⟩ := succession.started leads.prepares done
    rw [digest, ← policy] at resolved
    rw [started] at executes
    exact standsFor_of_resolveStart resolved (campaignExecution_injective executes)
  · intro stands
    have starts : ∀ (again : RelateWorld Score) (later : RelatePassOptions),
        again.policy = world.policy → Admits payload.phase later.candidateCursor →
          ∃ ready, prepareRelatePass again
              { workspaceId := env.workspaceId, journal := settled.journal } later = .ok ready ∧
            ready.execution = campaignExecution (startOf payload.phase)
              later.rejudgePair.isSome := by
      intro again later same admitted
      apply succession.prepare leads.prepares again later
      rw [digest, same, ← policy]
      exact resolveStart_of_standsFor stands admitted
    refine ⟨⟨_, temporal, digest⟩, ?_, starts, ?_⟩
    · intro next unfinished other ordered
      rw [leads.prepares.temporal] at ordered
      rw [← Except.ok.inj ordered, basis, leads.unfinished next unfinished, ← leads.prepares.basis]
      rfl
    · intro complete again later fuse op observedAtMs same plain
      have admitted : Admits payload.phase later.candidateCursor := by
        rw [complete]
        trivial
      obtain ⟨ready, done, executes⟩ := starts again later same admitted
      rw [complete, plain] at executes
      exact runRelatePass_noop done executes

/-- What an output tells of the phase its pass has left. -/
def tells (output : RelateRunOutput) : CampaignPhase → Prop
  | .complete => output.outcome = .complete ∧ output.nextCandidateCursor = none
  | .incomplete next => output.outcome = .incomplete ∧ output.nextCandidateCursor = some next

omit [Blake3] in
/-- The output of a published pass tells its phase. -/
theorem finishRelateOutput_tells (prepared : PreparedRelatePass) (evaluated : EvaluatedRelatePass)
    (receipts : List EventId) :
    tells (finishRelateOutput prepared evaluated receipts)
      (resultPhase evaluated.related.outcome) := by
  unfold finishRelateOutput
  dsimp only
  cases outcome : evaluated.related.outcome with
  | complete complete => exact ⟨rfl, rfl⟩
  | incomplete unfinished => exact ⟨rfl, rfl⟩

/-- A pass that succeeds tells the phase of its checkpoint. -/
theorem runRelatePass_tells {fuse : Nat} {op : String} {world : RelateWorld Score}
    {env after stage : OpEnv} {observedAtMs : Nat} {options : RelatePassOptions}
    {output : RelateRunOutput} {payload : RelationCampaignCheckpointV1}
    (ran : runRelatePass fuse op world env observedAtMs options = .ok (output, after))
    (staged : checkpointStage fuse op world env observedAtMs options = some (stage, payload)) :
    tells output payload.phase := by
  unfold runRelatePass at ran
  unfold checkpointStage at staged
  cases done : prepareRelatePass world env options with
  | error error =>
    rw [done] at staged
    cases staged
  | ok prepared =>
    rw [done] at ran staged
    dsimp only at ran staged
    cases kind : prepared.execution with
    | noopComplete =>
      rw [kind] at staged
      cases staged
    | rejudgeComplete =>
      rw [kind] at ran staged
      dsimp only at ran staged
      unfold rejudgeCompletedCampaign at ran
      split at staged
      · cases staged
      · rename_i judged rejudged
        rw [rejudged] at ran
        dsimp only at ran
        split at ran
        · cases ran
        · split at ran
          · cases ran
          · rw [← (Prod.mk.inj (Except.ok.inj ran)).1,
              ← (Prod.mk.inj (Option.some.inj staged)).2]
            exact ⟨rfl, rfl⟩
    | run cursor =>
      rw [kind] at ran staged
      dsimp only at ran staged
      split at ran
      · cases ran
      · split at ran
        · rename_i few
          rw [if_pos few] at staged
          unfold completeTrivialCampaign at ran
          split at ran
          · cases ran
          · rw [← (Prod.mk.inj (Except.ok.inj ran)).1,
              ← (Prod.mk.inj (Option.some.inj staged)).2]
            exact ⟨rfl, rfl⟩
        · rename_i several
          rw [if_neg several] at staged
          split at staged
          · cases staged
          · rename_i evaluated left judged evaluating
            rw [evaluating] at ran
            dsimp only at ran
            split at staged
            · cases staged
            · unfold publishRelatePass at ran
              split at ran
              · cases ran
              · rw [← (Prod.mk.inj (Except.ok.inj ran)).1,
                  ← (Prod.mk.inj (Option.some.inj staged)).2]
                exact finishRelateOutput_tells prepared evaluated _

/-- Appending what is legal keeps the workspace orderly, whether or not its policy accepts it. -/
theorem CampaignStep.append_orderly {journal : Journal} {workspaceId : String}
    {payload : Payload} (orderly : Orderly journal workspaceId)
    (legal : Legal journal workspaceId payload) (receipts : List EventId) :
    Orderly ((CampaignStep.append workspaceId receipts payload : CampaignStep Score).run journal)
      workspaceId := by
  unfold CampaignStep.run
  dsimp only
  cases appended : OpEnv.append
      { workspaceId := workspaceId, journal := journal, receipts := receipts } payload with
  | error error => exact orderly
  | ok next =>
    exact Orderly.append orderly appended legal

/-- Two claims of one source are recorded. -/
def twoRecorded : List (CampaignStep Nat) :=
  [.append "demo" [] (.claimRecorded (plainClaim "claim_a")),
    .append "demo" [] (.claimRecorded (plainClaim "claim_b"))]

/-- The workspace of two recorded claims is orderly. -/
theorem orderly_twoRecorded : Orderly (historyOf twoRecorded) "demo" := by
  have recorded : ∀ (journal : Journal) (claimId : String), Orderly journal "demo" →
      Orderly ((CampaignStep.append "demo" [] (.claimRecorded (plainClaim claimId)) :
        CampaignStep Nat).run journal) "demo" := by
    intro journal claimId orderly
    have legal : Legal journal "demo" (.claimRecorded (plainClaim claimId)) :=
      legal_recorded journal rfl
    exact CampaignStep.append_orderly orderly legal []
  exact recorded _ "claim_b" (recorded _ "claim_a" (orderly_empty "demo"))

end Resumes

end Texo.Relate
