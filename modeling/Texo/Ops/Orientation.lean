import Texo.Ops.Additions
import Texo.Ops.Verdicts
import Texo.Relate.FreshPairs

/-! # Judgments keep their orientation

The order of two claims is found anew by every pass, from what is settled, from temporal evidence
and from the journal. A pair that is judged once is settled, and every later judgment of it is in
the same order, with the first verdict the authoritative one.
-/
namespace Texo.Ops
open Texo.Events Texo.Knowledge Texo.Store Texo.Claims Texo.Semantics Texo.Foundation Texo.Ingest
  Texo.Relate Texo.Sessions

/-- A payload judges no pair outside a list. -/
def Judges (pairs : List (ClaimId × ClaimId)) (payload : Payload) : Prop :=
  ∀ pair, judgedPair payload = some pair → pair ∈ pairs

/-- Rows that judge some pairs leave no others judged than were before. -/
theorem GrowsBy.judged {pairs : List (ClaimId × ClaimId)} {earlier later : Journal}
    (grown : GrowsBy (Judges pairs) earlier later) :
    ∀ pair ∈ judgedPairs later.entries, pair ∈ judgedPairs earlier.entries ++ pairs := by
  obtain ⟨rows, entries, among⟩ := grown
  intro pair member
  unfold judgedPairs at member
  rw [entries, List.filterMap_append] at member
  rcases List.mem_append.mp member with before | added
  · exact List.mem_append_left _ before
  · obtain ⟨row, inside, about⟩ := List.mem_filterMap.mp added
    exact List.mem_append_right _ (among row inside pair about)

section Orientation

variable [Blake3]

/-- Pairs apart in more rows are apart in fewer. -/
theorem PairsApart.earlier {allowed : Payload → Prop} {workspaceId : String}
    {earlier later : Journal} (grown : GrowsBy allowed earlier later)
    (apart : PairsApart workspaceId later.entries) : PairsApart workspaceId earlier.entries := by
  obtain ⟨rows, entries, _⟩ := grown
  have kept : ∀ pair, pair ∈ deferredPairs earlier.entries ++ judgedPairs earlier.entries →
      pair ∈ deferredPairs later.entries ++ judgedPairs later.entries := by
    intro pair member
    unfold deferredPairs judgedPairs at member ⊢
    rw [entries, List.filterMap_append, List.filterMap_append]
    rcases List.mem_append.mp member with deferred | judged
    · exact List.mem_append_left _ (List.mem_append_left _ deferred)
    · exact List.mem_append_right _ (List.mem_append_left _ judged)
  intro pair member other also same
  exact apart pair (kept pair member) other (kept other also) same

/-- The journal grows, and where no two pairs share a stream it keeps its pairs judged one way. -/
structure KeepsOrientation (workspaceId : String) (earlier later : Journal) : Prop where
  grows : GrowsBy (fun _ => True) earlier later
  oneWay : PairsApart workspaceId later.entries → OneWay (judgedPairs earlier.entries) →
    OneWay (judgedPairs later.entries)

/-- An unchanged journal keeps its orientation. -/
theorem KeepsOrientation.refl (workspaceId : String) (journal : Journal) :
    KeepsOrientation workspaceId journal journal :=
  ⟨GrowsBy.refl _ _, fun _ oneWay => oneWay⟩

/-- One step after another keeps the orientation. -/
theorem KeepsOrientation.trans {workspaceId : String} {earlier middle later : Journal}
    (first : KeepsOrientation workspaceId earlier middle)
    (second : KeepsOrientation workspaceId middle later) :
    KeepsOrientation workspaceId earlier later :=
  ⟨first.grows.trans second.grows, fun apart oneWay =>
    second.oneWay apart (first.oneWay (apart.earlier second.grows) oneWay)⟩

/-- Rows that judge some pairs keep the orientation, where these pairs with those before are
listed one way. -/
theorem keepsOrientation_of_judges {workspaceId : String} {earlier later : Journal}
    {pairs : List (ClaimId × ClaimId)}
    (grown : GrowsBy (fun payload => PairsApart workspaceId earlier.entries →
      Judges pairs payload) earlier later)
    (oneWay : PairsApart workspaceId earlier.entries → OneWay (judgedPairs earlier.entries) →
      OneWay (judgedPairs earlier.entries ++ pairs)) :
    KeepsOrientation workspaceId earlier later := by
  refine ⟨grown.mono fun _ _ => trivial, ?_⟩
  intro apart before
  have here := apart.earlier grown
  have judges : GrowsBy (Judges pairs) earlier later := grown.mono fun _ allowed => allowed here
  exact (oneWay here before).subset judges.judged

/-- Rows without judgments keep the orientation. -/
theorem keepsOrientation_of_unjudging {workspaceId : String} {earlier later : Journal}
    (grown : GrowsBy Unjudging earlier later) : KeepsOrientation workspaceId earlier later := by
  refine ⟨grown.mono fun _ _ => trivial, ?_⟩
  intro _ before
  have judges : GrowsBy (Judges []) earlier later := by
    refine grown.mono ?_
    intro payload none pair about
    rw [none] at about
    cases about
  refine before.subset ?_
  simpa using judges.judged

variable {Score : Type}

/-- A checkpoint keeps the orientation. -/
theorem checkpoint_keeps (fuse : Nat) (env : OpEnv) (workspaceId : String)
    (payload : RelationCampaignCheckpointV1) :
    KeepsOrientation workspaceId env.journal
      (stateAfter (appendWithin fuse env [.campaignCheckpoint payload])).journal := by
  refine keepsOrientation_of_unjudging (appendWithin_grows fuse env ?_)
  intro other member
  rw [List.mem_singleton.mp member]
  rfl

omit [Blake3] in
/-- A pair judged anew is one the authority has settled, in its settled order. -/
theorem rejudgeAuthoritativePair_settled {op : String} {world : RelateWorld Score}
    {prepared : PreparedRelatePass} {verdicts : SettledMap} {requested : ClaimId × ClaimId}
    {observedAtMs : Nat} {rejudged : Rejudged}
    (done : rejudgeAuthoritativePair op world prepared verdicts requested observedAtMs =
      .ok rejudged) :
    ∃ verdict,
      verdicts[(rejudged.event.olderClaim, rejudged.event.newerClaim)]? = some verdict := by
  unfold rejudgeAuthoritativePair at done
  cases prior : priorJudgment verdicts requested with
  | none =>
    rw [prior] at done
    cases done
  | some settled =>
    rw [prior] at done
    have held : verdicts[settled.1]? = some settled.2 := by
      unfold priorJudgment at prior
      cases straight : verdicts[requested]? with
      | some verdict =>
        rw [straight] at prior
        rw [← Option.some.inj prior]
        exact straight
      | none =>
        rw [straight] at prior
        obtain ⟨verdict, turned, made⟩ := Option.map_eq_some_iff.mp prior
        rw [← made]
        exact turned
    dsimp only at done
    split at done
    · cases done
    · split at done
      · cases done
      · obtain ⟨fresh, _, made⟩ := bind_eq_ok.mp done
        rw [← Except.ok.inj made]
        exact ⟨settled.2, held⟩

/-- Judging a pair anew keeps the orientation: the pair is judged already, the same way. -/
theorem rejudgeRequested_keeps (fuse : Nat) (op : String) (world : RelateWorld Score)
    (observedAtMs : Nat) {env : OpEnv} (prepared : PreparedRelatePass)
    (orderly : Orderly env.journal env.workspaceId) :
    match rejudgeRequested fuse op world env observedAtMs prepared with
    | .error failure => KeepsOrientation env.workspaceId env.journal failure.left.journal
    | .ok (_, _, judged) => KeepsOrientation env.workspaceId env.journal judged.journal := by
  unfold rejudgeRequested
  cases prepared.rejudgePair with
  | none => exact KeepsOrientation.refl _ _
  | some requested =>
    dsimp only
    cases read : authoritativeSettlements (readable env.journal) env.workspaceId none with
    | error error => exact KeepsOrientation.refl _ _
    | ok authority =>
      dsimp only
      cases anew : rejudgeAuthoritativePair op world prepared authority.verdicts requested
          observedAtMs with
      | error error => exact KeepsOrientation.refl _ _
      | ok rejudged =>
        have known : ∀ payload ∈ [Payload.relationJudged rejudged.event],
            PairsApart env.workspaceId env.journal.entries →
              Judges (judgedPairs env.journal.entries) payload := by
          intro payload member apart pair about
          rw [List.mem_singleton.mp member] at about
          obtain ⟨verdict, held⟩ := rejudgeAuthoritativePair_settled anew
          obtain ⟨first, settles, verdicts⟩ := authoritativeSettlements_first orderly apart
          rw [read] at settles
          rw [Except.ok.inj settles, verdicts] at held
          rw [← Option.some.inj about]
          exact mem_judgedPairs_of_firstVerdict held
        have kept : KeepsOrientation env.workspaceId env.journal
            (stateAfter (appendWithin fuse env [.relationJudged rejudged.event])).journal := by
          refine keepsOrientation_of_judges (appendWithin_grows fuse env known) ?_
          intro _ before
          refine before.subset ?_
          intro pair member
          exact (List.mem_append.mp member).elim id id
        dsimp only
        revert kept
        cases appendWithin fuse env [.relationJudged rejudged.event] with
        | error failure => exact id
        | ok pair => exact id

/-- The pairs a publication judges are those of its fresh judgments. -/
theorem judges_publishedEvents (workspaceId : WorkspaceId) (view : WorkspaceView)
    (related : SemanticRelateOutput) (observedAtMs : Nat) :
    ∀ payload ∈ publishedEvents workspaceId view related observedAtMs,
      Judges (freshKeys related.outcome.judgments) payload := by
  intro payload member pair about
  unfold publishedEvents at member
  rcases List.mem_append.mp member with earlier | conflict
  · rcases List.mem_append.mp earlier with verdicts | supersession
    · rcases List.mem_append.mp verdicts with judgment | deferral
      · obtain ⟨event, inside, rfl⟩ := List.mem_map.mp judgment
        obtain ⟨fresh, listed, rfl⟩ := List.mem_map.mp inside
        rw [← Option.some.inj about]
        exact List.mem_map_of_mem listed
      · obtain ⟨event, _, rfl⟩ := List.mem_map.mp deferral
        cases about
    · obtain ⟨edge, _, rfl⟩ := List.mem_map.mp supersession
      cases about
  · obtain ⟨entry, _, rfl⟩ := List.mem_map.mp conflict
    cases about

/-- What a pass has evaluated: its verdicts are those of a page over settled authority. -/
theorem evaluateRelatePass_fresh (fuse : Nat) (op : String) (world : RelateWorld Score)
    (observedAtMs : Nat) {env : OpEnv} {prepared : PreparedRelatePass}
    (orderly : Orderly env.journal env.workspaceId)
    (named : prepared.workspaceId.value = env.workspaceId) :
    match evaluateRelatePass fuse op world env observedAtMs prepared with
    | .error failure => KeepsOrientation env.workspaceId env.journal failure.left.journal
    | .ok (evaluated, _, judged) =>
        KeepsOrientation env.workspaceId env.journal judged.journal ∧
        Orderly judged.journal env.workspaceId ∧
        ∃ authority, authoritativeSettlements (readable judged.journal) env.workspaceId none =
            .ok authority ∧
          ∀ key ∈ freshKeys evaluated.related.outcome.judgments,
            FirstJudged prepared.claims authority.verdicts prepared.temporal key := by
  have rejudging := rejudgeRequested_keeps fuse op world observedAtMs prepared orderly
  have kept := rejudgeRequested_orderly fuse op world observedAtMs orderly named
  unfold evaluateRelatePass
  cases step : rejudgeRequested fuse op world env observedAtMs prepared with
  | error failure =>
    rw [step] at rejudging
    exact rejudging
  | ok done =>
    obtain ⟨row, left, judged⟩ := done
    rw [step] at rejudging kept
    obtain ⟨judgedOrderly, same, _⟩ := kept
    dsimp only at rejudging judgedOrderly same ⊢
    rw [same]
    cases read : authoritativeSettlements (readable judged.journal) env.workspaceId none with
    | error error => exact rejudging
    | ok authority =>
      dsimp only
      cases answered : relateWithBackends world prepared.claims authority.verdicts prepared.temporal
          prepared.candidatePairBudget prepared.candidateCursor with
      | error error => exact rejudging
      | ok related =>
        refine ⟨rejudging, judgedOrderly, authority, read, ?_⟩
        unfold relateWithBackends at answered
        obtain ⟨_, _, answered⟩ := bind_eq_ok.mp answered
        obtain ⟨outcome, decided, made⟩ := bind_eq_ok.mp answered
        rw [← Except.ok.inj made]
        exact RelateWorld.outcome_fresh decided

/-- Publishing pairs that are judged for the first time keeps the orientation. -/
theorem publishRelatePass_keeps (fuse : Nat) (world : RelateWorld Score) (observedAtMs : Nat)
    {judged : OpEnv} {prepared : PreparedRelatePass} {evaluated : EvaluatedRelatePass}
    {workspaceId : String} (orderly : Orderly judged.journal workspaceId)
    (distinct : (prepared.claims.map Semantics.ClaimView.claimId).Nodup)
    {authority : SettlementAuthority}
    (read : authoritativeSettlements (readable judged.journal) workspaceId none = .ok authority)
    (first : ∀ key ∈ freshKeys evaluated.related.outcome.judgments,
      FirstJudged prepared.claims authority.verdicts prepared.temporal key) :
    KeepsOrientation workspaceId judged.journal
      (stateAfter (publishRelatePass fuse world judged observedAtMs prepared
        evaluated)).journal := by
  have published : KeepsOrientation workspaceId judged.journal
      (stateAfter (appendWithin fuse judged
        (publishedEvents prepared.workspaceId prepared.view evaluated.related observedAtMs ++
          [.campaignCheckpoint (publishedCheckpoint world prepared evaluated.related
            observedAtMs)]))).journal := by
    have judges : ∀ payload ∈ publishedEvents prepared.workspaceId prepared.view evaluated.related
        observedAtMs ++ [.campaignCheckpoint (publishedCheckpoint world prepared evaluated.related
          observedAtMs)],
        PairsApart workspaceId judged.journal.entries →
          Judges (freshKeys evaluated.related.outcome.judgments) payload := by
      intro payload member _
      rcases List.mem_append.mp member with event | checkpoint
      · exact judges_publishedEvents _ _ _ _ payload event
      · rw [List.mem_singleton.mp checkpoint]
        intro pair about
        cases about
    refine keepsOrientation_of_judges (appendWithin_grows fuse judged judges) ?_
    intro apart before
    refine before.append (oneWay_firstJudged distinct first) ?_
    intro key member turned
    obtain ⟨settled, settles, verdicts⟩ := authoritativeSettlements_first orderly apart
    rw [read] at settles
    have unturned := (first key member).unturned
    rw [Except.ok.inj settles, ← Std.ExtTreeMap.isSome_getElem?_iff_mem, verdicts] at unturned
    exact unturned (firstVerdict_isSome turned)
  unfold publishRelatePass
  revert published
  cases appendWithin fuse judged (publishedEvents prepared.workspaceId prepared.view
      evaluated.related observedAtMs ++ [.campaignCheckpoint
        (publishedCheckpoint world prepared evaluated.related observedAtMs)]) with
  | error failure => exact id
  | ok pair => exact id

/-- The run law of relate passes: wherever a pass stops, it keeps the orientation. -/
theorem runRelatePass_keeps (fuse : Nat) (op : String) (world : RelateWorld Score) {env : OpEnv}
    (orderly : Orderly env.journal env.workspaceId) (observedAtMs : Nat)
    (options : RelatePassOptions) :
    KeepsOrientation env.workspaceId env.journal
      (stateAfter (runRelatePass fuse op world env observedAtMs options)).journal := by
  unfold runRelatePass
  cases done : prepareRelatePass world env options with
  | error error => exact KeepsOrientation.refl _ _
  | ok prepared =>
    have prepares := prepareRelatePass_prepares done
    have distinct := nodup_semanticClaims orderly prepares.claims
    dsimp only
    cases prepared.execution with
    | noopComplete => exact KeepsOrientation.refl _ _
    | rejudgeComplete =>
      have rejudging := rejudgeRequested_keeps fuse op world observedAtMs prepared orderly
      dsimp only
      unfold rejudgeCompletedCampaign
      revert rejudging
      cases rejudgeRequested fuse op world env observedAtMs prepared with
      | error failure => exact id
      | ok step =>
        intro kept
        dsimp only at kept ⊢
        cases authoritativeSettlements (readable step.2.2.journal) step.2.2.workspaceId none with
        | error error => exact kept
        | ok authority =>
          have checked := checkpoint_keeps step.2.1 step.2.2 env.workspaceId
            (checkpointOf world prepared prepared.evaluatedBasis .complete observedAtMs)
          dsimp only
          revert checked
          cases appendWithin step.2.1 step.2.2 [.campaignCheckpoint
            (checkpointOf world prepared prepared.evaluatedBasis .complete observedAtMs)] with
          | error failure => exact kept.trans
          | ok pair => exact kept.trans
    | run cursor =>
      dsimp only
      split
      · exact KeepsOrientation.refl _ _
      · split
        · have checked := checkpoint_keeps fuse env env.workspaceId
            (checkpointOf world prepared prepared.evaluatedBasis .complete observedAtMs)
          unfold completeTrivialCampaign
          revert checked
          cases appendWithin fuse env [.campaignCheckpoint
            (checkpointOf world prepared prepared.evaluatedBasis .complete observedAtMs)] with
          | error failure => exact id
          | ok pair => exact id
        · have evaluating := evaluateRelatePass_fresh fuse op world observedAtMs orderly
            prepares.named
          cases step : evaluateRelatePass fuse op world env observedAtMs prepared with
          | error failure =>
            rw [step] at evaluating
            exact evaluating
          | ok evaluated =>
            rw [step] at evaluating
            obtain ⟨kept, judgedOrderly, authority, read, first⟩ := evaluating
            exact kept.trans (publishRelatePass_keeps evaluated.2.1 world observedAtMs
              judgedOrderly distinct read first)

/-- A relate run keeps the orientation. -/
theorem relateRun_keeps (fuse : Nat) (world : RelateWorld Score) {workspaceId : String}
    (input : RelateRunInput) {journal : Journal} (orderly : Orderly journal workspaceId) :
    KeepsOrientation workspaceId journal
      (stateAfter (relateRun fuse world workspaceId input journal)) := by
  unfold relateRun
  cases input.validatedOptions with
  | error error => exact KeepsOrientation.refl _ _
  | ok options =>
    have start : Orderly ({ workspaceId := workspaceId, journal := journal } : OpEnv).journal
        workspaceId := orderly
    have ran := runRelatePass_keeps fuse relateOp world start input.observedAtMs options
    dsimp only
    revert ran
    cases runRelatePass fuse relateOp world { workspaceId := workspaceId, journal := journal }
        input.observedAtMs options with
    | error failure => exact id
    | ok pair => exact id

/-- A session end keeps the orientation. -/
theorem agentSessionEndReport_keeps (fuse : Nat) (config : WorkspaceConfig) (world : SessionWorld)
    (role : Except TexoError (Option (RelateWorld Score))) {workspaceId : String}
    (turnStore : List TurnEntry) (input : AgentSessionEndInput) {journal : Journal}
    (orderly : Orderly journal workspaceId) :
    KeepsOrientation workspaceId journal
      (stateAfter (agentSessionEndReport fuse config world role workspaceId turnStore input
        journal)) := by
  unfold agentSessionEndReport
  cases validateSessionInput sessionEndOp input.sessionId with
  | error error => exact KeepsOrientation.refl _ _
  | ok _ =>
    dsimp only
    cases prepared : prepareSessionEnd config world workspaceId turnStore input journal with
    | error error => exact KeepsOrientation.refl _ _
    | ok context =>
      obtain ⟨legal, apart⟩ := prepareSessionEnd_legal orderly prepared
      have start : Orderly ({ workspaceId := workspaceId, journal := journal } : OpEnv).journal
          workspaceId := orderly
      have ordered := start.appendWithin fuse legal apart
      have unjudging : ∀ payload ∈ context.events, Unjudging payload := by
        intro payload member
        rcases List.mem_append.mp member with planned | applied
        · exact unjudging_planEvents context.plan payload planned
        · exact unjudging_superseded context.supersessions.applied payload applied
      have grown : KeepsOrientation workspaceId journal (stateAfter (appendWithin fuse
          { workspaceId := workspaceId, journal := journal } context.events)).journal :=
        keepsOrientation_of_unjudging (appendWithin_grows fuse
          { workspaceId := workspaceId, journal := journal } unjudging)
      dsimp only [appendSessionIngest]
      rcases appendWithin_cases fuse { workspaceId := workspaceId, journal := journal }
        context.events with ⟨left, appended, run, all⟩ | ⟨failure, done, rest, run, split, all⟩
      · have named : appended.workspaceId = workspaceId :=
          (OpEnv.appendAll_spec all orderly.conforming).1
        rw [run] at ordered grown ⊢
        have keptOrderly : Orderly appended.journal workspaceId := ordered
        have kept : KeepsOrientation workspaceId journal appended.journal := grown
        dsimp only
        cases role with
        | error error => exact kept
        | ok configured =>
          cases configured with
          | none => exact kept
          | some relating =>
            have there : Orderly ({ appended with receipts := [] } : OpEnv).journal
                ({ appended with receipts := [] } : OpEnv).workspaceId := by
              rw [named]
              exact keptOrderly
            have related := runRelatePass_keeps left sessionEndOp relating there input.observedAtMs
              {}
            dsimp only [named] at related
            unfold runSessionRelate
            dsimp only
            rw [named] at related ⊢
            revert related
            cases runRelatePass left sessionEndOp relating
                { workspaceId := workspaceId, journal := appended.journal, receipts := [] }
                input.observedAtMs {} with
            | error failure => exact kept.trans
            | ok pair => exact kept.trans
      · rw [run] at grown ⊢
        exact grown

/-- The step law of operations: each keeps the orientation. -/
theorem Operation.run_keeps (operation : Operation Score) (fuse : Nat) {workspaceId : String}
    {journal : Journal} (orderly : Orderly journal workspaceId) :
    KeepsOrientation workspaceId journal (operation.run fuse workspaceId journal) := by
  cases operation with
  | ingest config world input =>
    exact keepsOrientation_of_unjudging (ingestRun_grows fuse config world workspaceId input journal)
  | supersede input =>
    exact keepsOrientation_of_unjudging (claimSupersede_grows fuse workspaceId input journal)
  | commit input =>
    exact keepsOrientation_of_unjudging (conflictsCommit_grows fuse workspaceId input journal)
  | resolve input =>
    exact keepsOrientation_of_unjudging (conflictResolve_grows fuse workspaceId input journal)
  | index world input =>
    exact keepsOrientation_of_unjudging (knowledgeIndex_grows fuse world workspaceId input journal)
  | relate world input => exact relateRun_keeps fuse world input orderly
  | sessionEnd config world role turnStore input =>
    exact agentSessionEndReport_keeps fuse config world role turnStore input orderly

/-- The run law of operations: they keep the orientation. -/
theorem runOperations_keeps (operations : List (Nat × Operation Score)) {workspaceId : String}
    {journal : Journal} (orderly : Orderly journal workspaceId) :
    KeepsOrientation workspaceId journal (runOperations workspaceId operations journal) := by
  induction operations generalizing journal with
  | nil => exact KeepsOrientation.refl _ _
  | cons step rest ih =>
    exact (step.2.run_keeps step.1 orderly).trans (ih (step.2.run_orderly step.1 orderly))

/-- After any operations, however far each of them came, no pair is judged in both orders. What the
authority has settled then stays settled, in its order and with its verdict, after any more. -/
theorem verdicts_never_turn (workspaceId : String) (operations more : List (Nat × Operation Score))
    (apart : PairsApart workspaceId
      (runOperations workspaceId (operations ++ more) Journal.empty).entries) :
    OneWay (judgedPairs
        (runOperations workspaceId (operations ++ more) Journal.empty).entries) ∧
      ∃ before after,
        authoritativeSettlements
            (readable (runOperations workspaceId operations Journal.empty)) workspaceId none =
          .ok before ∧
        authoritativeSettlements
            (readable (runOperations workspaceId (operations ++ more) Journal.empty)) workspaceId
            none = .ok after ∧
        (∀ pair ∈ judgedPairs (runOperations workspaceId operations Journal.empty).entries,
          pair ∈ before.verdicts) ∧
        ∀ (pair : ClaimId × ClaimId) (verdict : RelationVerdict),
          before.verdicts[pair]? = some verdict →
            after.verdicts[pair]? = some verdict ∧ after.verdicts[pair.swap]? = none := by
  have orderly := runOperations_orderly operations (orderly_empty workspaceId)
  have ends := runOperations_orderly (operations ++ more) (orderly_empty workspaceId)
  have runs : runOperations workspaceId (operations ++ more) Journal.empty =
      runOperations workspaceId more (runOperations workspaceId operations Journal.empty) :=
    List.foldl_append
  have later := runOperations_keeps more orderly
  rw [← runs] at later
  have whole := runOperations_keeps (operations ++ more) (orderly_empty workspaceId)
  have oneWay := whole.oneWay apart (by intro pair member; cases member)
  obtain ⟨before, settled, first⟩ :=
    authoritativeSettlements_first orderly (apart.earlier later.grows)
  obtain ⟨after, settles, last⟩ := authoritativeSettlements_first ends apart
  refine ⟨oneWay, before, after, settled, settles, ?_, ?_⟩
  · intro pair judged
    rw [← Std.ExtTreeMap.isSome_getElem?_iff_mem, first]
    exact firstVerdict_isSome judged
  · intro pair verdict held
    rw [first] at held
    obtain ⟨rows, entries, _⟩ := later.grows
    have kept : firstVerdict
        (runOperations workspaceId (operations ++ more) Journal.empty).entries pair =
          some verdict := by
      rw [entries]
      exact firstVerdict_append rows held
    refine ⟨(last pair).trans kept, ?_⟩
    rw [last]
    exact firstVerdict_none (oneWay pair (mem_judgedPairs_of_firstVerdict kept))

/-- One pair is apart from no other. -/
theorem pairsApart_of_single {workspaceId : String} {rows : List Entry}
    (single : (deferredPairs rows ++ judgedPairs rows).length = 1) :
    PairsApart workspaceId rows := by
  obtain ⟨only, listed⟩ := List.length_eq_one_iff.mp single
  intro pair member other also _
  rw [listed] at member also
  rw [List.mem_singleton.mp member, List.mem_singleton.mp also]

end Orientation

/-- Two claims are ingested and their pair is judged. -/
def judgedOperations : List (Nat × Operation Nat) :=
  [(9, .ingest {} twoFiles { dryRun := false, observedAtMs := 1 }),
    (9, .relate (unrelatedWorld "A") { observedAtMs := 2 })]

/-- The repository shows that the second claim is older, and another model relates them. -/
def reversingOperations : List (Nat × Operation Nat) :=
  [(9, .index (laterState ⟨"snapshot_0", Eq.refl true⟩ [("b.md", "Beta is fast.")])
      ⟨3, none, none, none⟩),
    (9, .index (laterState ⟨"snapshot_1", Eq.refl true⟩ [("a.md", "Alpha is slow.")])
      ⟨4, none, none, none⟩),
    (9, .relate (unrelatedWorld "B") { observedAtMs := 5 })]

/-- The pair is judged once. -/
theorem reversed_single :
    let _ := numeralDigest
    (deferredPairs (runOperations "demo" (judgedOperations ++ reversingOperations)
        Journal.empty).entries ++
      judgedPairs (runOperations "demo" (judgedOperations ++ reversingOperations)
        Journal.empty).entries).length = 1 := by
  decide +kernel

/-- The judged pair, before and after its claims change places. -/
theorem verdicts_never_turn_reversed :
    let _ := numeralDigest
    OneWay (judgedPairs (runOperations "demo" (judgedOperations ++ reversingOperations)
        Journal.empty).entries) ∧
      ∃ before after,
        authoritativeSettlements
            (readable (runOperations "demo" judgedOperations Journal.empty)) "demo" none =
          .ok before ∧
        authoritativeSettlements
            (readable (runOperations "demo" (judgedOperations ++ reversingOperations)
              Journal.empty)) "demo" none = .ok after ∧
        (∀ pair ∈ judgedPairs (runOperations "demo" judgedOperations Journal.empty).entries,
          pair ∈ before.verdicts) ∧
        ∀ (pair : ClaimId × ClaimId) (verdict : RelationVerdict),
          before.verdicts[pair]? = some verdict →
            after.verdicts[pair]? = some verdict ∧ after.verdicts[pair.swap]? = none := by
  intro _
  exact verdicts_never_turn "demo" judgedOperations reversingOperations
    (pairsApart_of_single reversed_single)

end Texo.Ops
