import Texo.Ingest.Schedule

/-! # Serial and concurrent session ends

Served one after the other, two session ends lead every claim to the stream of a schedule, and
so they do served side by side. Where they do not meet, the two come to the same.
-/
namespace Texo.Ingest
open Texo.Events Texo.Extract Texo.Knowledge Texo.Store Texo.Claims Texo.Semantics Texo.Ops
  Texo.Foundation Texo.Sessions

section
variable [Blake3]

/-- Such an append looks at the journal only. -/
theorem append_sameJournal {env env' next : OpEnv} {payload : Payload} (kind : Appendable payload)
    (journal : env'.journal = env.journal) (appended : env.append payload = .ok next) :
    ∃ next', env'.append payload = .ok next' ∧ next'.journal = next.journal := by
  have same : policyAppend env' payload = policyAppend env payload := by
    cases payload with
    | sourceObserved event => simp only [policyAppend, journal]
    | claimRecorded event => simp only [policyAppend, journal]
    | claimSuperseded event => simp only [policyAppend, journal]
    | _ => exact kind.elim
  unfold OpEnv.append at appended ⊢
  rw [same]
  cases run : policyAppend env payload with
  | error error =>
    rw [run] at appended
    cases appended
  | ok result =>
    rw [run] at appended
    rw [← Except.ok.inj appended]
    exact ⟨_, rfl, rfl⟩

/-- Such appends look at the journal only. -/
theorem appendAll_sameJournal {env env' next : OpEnv} {payloads : List Payload}
    (kinds : ∀ payload ∈ payloads, Appendable payload) (journal : env'.journal = env.journal)
    (appended : env.appendAll payloads = .ok next) :
    ∃ next', env'.appendAll payloads = .ok next' ∧ next'.journal = next.journal := by
  induction payloads generalizing env env' with
  | nil =>
    have same : env = next := Except.ok.inj appended
    rw [← same]
    exact ⟨env', rfl, journal⟩
  | cons payload rest ih =>
    rw [OpEnv.appendAll, List.foldlM_cons] at appended
    obtain ⟨middle, now, later⟩ := bind_eq_ok.mp appended
    obtain ⟨middle', now', journal'⟩ := append_sameJournal (kinds payload (by simp)) journal now
    obtain ⟨next', later', last⟩ :=
      ih (fun other member => kinds other (by simp [member])) journal' later
    refine ⟨next', ?_, last⟩
    rw [OpEnv.appendAll, List.foldlM_cons]
    exact bind_eq_ok.mpr ⟨middle', now', later'⟩

/-- Appends to a journal and the journal they leave. -/
def Appends (workspaceId : String) (journal : Journal) (payloads : List Payload)
    (later : Journal) : Prop :=
  ∃ env, OpEnv.appendAll { workspaceId := workspaceId, journal := journal } payloads = .ok env ∧
    env.journal = later

theorem Appends.nil (workspaceId : String) (journal : Journal) :
    Appends workspaceId journal [] journal := ⟨_, rfl, rfl⟩

/-- Appends behind appends. -/
theorem Appends.append {workspaceId : String} {journal middle later : Journal}
    {payloads more : List Payload} (first : Appends workspaceId journal payloads middle)
    (second : Appends workspaceId middle more later) (kinds : ∀ payload ∈ more, Appendable payload) :
    Appends workspaceId journal (payloads ++ more) later := by
  obtain ⟨env, appended, rfl⟩ := first
  obtain ⟨last, behind, rfl⟩ := second
  have again : ∃ next, env.appendAll more = .ok next ∧ next.journal = last.journal := by
    refine appendAll_sameJournal kinds ?_ behind
    rfl
  obtain ⟨last', behind', same⟩ := again
  refine ⟨last', ?_, same⟩
  rw [OpEnv.appendAll, List.foldlM_append]
  exact bind_eq_ok.mpr ⟨env, appended, behind'⟩

/-- One append. -/
theorem Appends.single {workspaceId : String} {journal : Journal} {payload : Payload} {next : OpEnv}
    (appended : OpEnv.append { workspaceId := workspaceId, journal := journal } payload = .ok next) :
    Appends workspaceId journal [payload] next.journal := by
  refine ⟨next, ?_, rfl⟩
  rw [OpEnv.appendAll, List.foldlM_cons]
  exact bind_eq_ok.mpr ⟨next, appended, rfl⟩

namespace SessionEnds

/-- Preparing a session end goes through the same moves: its view, its plan, its inference. -/
theorem prepareSessionEnd_moves (ends : SessionEnds) (side : Side) (journal : Journal)
    (valid : validateSessionInput sessionEndOp (ends.request side).sessionId = .ok ()) :
    (prepareSessionEnd ends.config ends.world ends.workspaceId ends.turnStore (ends.request side)
        journal).map SessionEndContext.events = (do
      let view ← ends.openView side journal
      let plan ← ends.planTranscript side view
      ends.inferTranscript side journal view plan) := by
  unfold prepareSessionEnd openView planTranscript inferTranscript transcript turns
  rw [valid]
  by_cases empty : readSessionTurns ends.turnStore (ends.request side).sessionId = []
  · simp [empty, require, Except.map, bind, Except.bind]
  · have some : (readSessionTurns ends.turnStore (ends.request side).sessionId).isEmpty = false := by
      simpa using empty
    simp only [some, Bool.false_eq_true, if_false, assembleCurrentView_readable]
    cases ends.world.written with
    | error detail => simp [empty, require, Except.map, bind, Except.bind]
    | ok done =>
      simp only [empty, ne_eq, not_false_eq_true, require, if_true, bind, Except.bind, Except.map]
      cases planSources sessionEndOp ends.config
          (ends.world.transcript (sessionDocPath ends.world.root (ends.request side).sessionId)
            (ends.request side).sessionId
            (readSessionTurns ends.turnStore (ends.request side).sessionId))
          ends.workspaceId (ends.request side).observedAtMs (viewOf ends.workspaceId journal) with
      | error error => rfl
      | ok plan =>
        by_cases skipped : plan.skipped = []
        · simp only [skipped, if_true]
          cases workspaceTemporalPolicy (readable journal) ends.workspaceId
              (viewOf ends.workspaceId journal) with
          | error error => rfl
          | ok temporal =>
            simp only
            cases inferSupersessions (viewOf ends.workspaceId journal) plan.newClaims
                (ends.request side).observedAtMs temporal with
            | error error => rfl
            | ok inference => rfl
        · simp only [skipped, if_false]

/-- Served alone, a session end appends its events. -/
theorem alone_spec (ends : SessionEnds) (side : Side) {journal : Journal}
    (conforming : journal.Conforming) (grounded : Grounded journal ends.workspaceId) :
    ∃ env : OpEnv,
      OpEnv.appendAll { workspaceId := ends.workspaceId, journal := journal }
        (ends.events side journal) = .ok env ∧
      ends.alone side journal = env.journal := by
  have kinds : ∀ payload ∈ ends.events side journal, Appendable payload := fun payload member =>
    (ends.events_kind side conforming grounded member).1
  obtain ⟨env, appended⟩ := appendAll_total kinds
    { workspaceId := ends.workspaceId, journal := journal }
  refine ⟨env, appended, ?_⟩
  have idle : ends.events side journal = [] → env.journal = journal := by
    intro nothing
    rw [nothing] at appended
    rw [← Except.ok.inj appended]
  unfold alone agentSessionEnd
  cases valid : validateSessionInput sessionEndOp (ends.request side).sessionId with
  | error error =>
    apply (idle _).symm
    simp [events, openView, valid, bind, Except.bind]
  | ok done =>
    have moves := ends.prepareSessionEnd_moves side journal valid
    simp only
    cases prepared : prepareSessionEnd ends.config ends.world ends.workspaceId ends.turnStore
        (ends.request side) journal with
    | error error =>
      apply (idle _).symm
      rw [prepared] at moves
      rw [events, ← moves]
      rfl
    | ok context =>
      have whole : ends.events side journal = context.events := by
        rw [prepared] at moves
        rw [events, ← moves]
        rfl
      rw [whole] at appended ⊢
      simp only [appendSessionIngest, appendWithin_room (Nat.le_refl _) appended]
      rfl

/-- The recordings of a session end's events are its claims. -/
theorem recordings_events_spec (ends : SessionEnds) (side : Side) {journal : Journal}
    (conforming : journal.Conforming) (grounded : Grounded journal ends.workspaceId) :
    recordings (ends.events side journal) = ends.claims side journal := by
  obtain ⟨applied, whole, _, _⟩ := ends.events_spec side conforming grounded
  have none : recordings (applied.map Payload.claimSuperseded) = [] := by
    unfold recordings
    rw [List.filterMap_map]
    exact List.filterMap_eq_nil_iff.mpr fun event _ => rfl
  unfold recordings at none
  rw [whole, recordings, List.filterMap_append, none, List.append_nil]
  rfl

/-- Served one after the other, two session ends follow a schedule. -/
theorem serial_schedule (ends : SessionEnds) (first : Side) {journal : Journal}
    (conforming : journal.Conforming) (grounded : Grounded journal ends.workspaceId)
    (apart : ends.Apart journal) :
    ∃ trace seen, ends.Schedule journal first trace seen ∧
      recordings (seen.map Prod.snd) = ends.claims first journal ∧
      Appends ends.workspaceId journal (trace.map Prod.snd)
        (ends.alone first.other (ends.alone first journal)) := by
  obtain ⟨middle, appended, served⟩ := ends.alone_spec first conforming grounded
  obtain ⟨still, kept, _, _⟩ := after_events conforming grounded apart (fun _ member => member)
    appended
  obtain ⟨env, later, last⟩ := ends.alone_spec first.other still kept
  have kinds : ∀ payload ∈ ends.events first.other middle.journal, Appendable payload :=
    fun payload member => (ends.events_kind first.other still kept member).1
  have whole : ∀ items : List Payload, ∀ side : Side, (items.map (Prod.mk side)).map Prod.snd =
      items := by
    intro items side
    simp
  refine ⟨(ends.events first journal).map (Prod.mk first) ++
      (ends.events first.other middle.journal).map (Prod.mk first.other),
    (ends.events first journal).map (Prod.mk first), ⟨⟨_, rfl⟩, ?_, ?_, middle, ?_, ?_⟩, ?_, ?_⟩
  · exact doneBy_other (side_other_ne first).symm _
  · rw [doneBy_append, doneBy_own, doneBy_other (side_other_ne first), List.append_nil]
  · rw [whole]
    exact appended
  · rw [doneBy_append, doneBy_own, doneBy_other (side_other_ne first).symm, List.nil_append]
  · rw [whole, ends.recordings_events_spec first conforming grounded]
  · rw [List.map_append, whole, whole, served, last]
    exact Appends.append ⟨middle, appended, rfl⟩ ⟨env, later, rfl⟩ kinds

/-- What a claim ends as depends on what the second session end retires of it. -/
theorem settledStream_congr {ends : SessionEnds} {first : Side} {journal : Journal}
    {known known' : List ClaimRecordedV2} {claimId : String}
    (same : ends.retires first.other journal known claimId =
      ends.retires first.other journal known' claimId) :
    ends.settledStream journal first known claimId =
      ends.settledStream journal first known' claimId := by
  unfold settledStream retirings
  rw [same]

/-- Two session ends that retire nothing of each other's claims may come in either order. -/
theorem settledStream_swap {ends : SessionEnds} {first : Side} {journal : Journal}
    (apart : ends.Apart journal) (unentangled : ends.Unentangled journal)
    {early : List ClaimRecordedV2} {claimId : String}
    (second : ends.retires first.other journal early claimId =
      ends.retires first.other journal [] claimId)
    (own : ends.retires first journal (ends.claims first.other journal) claimId =
      ends.retires first journal [] claimId) :
    ends.settledStream journal first early claimId =
      ends.settledStream journal first.other (ends.claims first.other journal) claimId := by
  have retired : ends.retirings first journal [] claimId ++
      ends.retirings first.other journal early claimId =
      ends.retirings first.other journal [] claimId ++
        ends.retirings first journal (ends.claims first.other journal) claimId := by
    unfold retirings
    rw [second, own]
    cases found : ends.retires first journal [] claimId with
    | none => simp
    | some made =>
      rw [unentangled.once_other first (by rw [found]; rfl)]
      simp
  have recorded : (ends.base first journal).filter (records claimId) ++
      (ends.base first.other journal).filter (records claimId) =
      (ends.base first.other journal).filter (records claimId) ++
        (ends.base first journal).filter (records claimId) := by
    rcases base_either apart first claimId with none | none <;> simp [none]
  rw [settledStream, settledStream, side_other_other, retired, recorded]

/-- A schedule leads every claim to where one of the serial orders leads it. -/
theorem Schedule.serializes {ends : SessionEnds} {journal : Journal} {first : Side}
    {trace seen : List (Side × Payload)} (schedule : ends.Schedule journal first trace seen)
    (conforming : journal.Conforming) (grounded : Grounded journal ends.workspaceId)
    (apart : ends.Apart journal) (unentangled : ends.Unentangled journal) {later : Journal}
    (appended : Appends ends.workspaceId journal (trace.map Prod.snd) later) :
    ∃ side : Side, ∀ claimId,
      claimCardAt (workspaceRows later ends.workspaceId) claimId =
        claimCardAt (workspaceRows (ends.alone side.other (ends.alone side journal))
          ends.workspaceId) claimId := by
  have serial : ∀ side claimId, streamOf (workspaceRows
      (ends.alone side.other (ends.alone side journal)) ends.workspaceId) (entityForClaim claimId) =
      ends.settledStream journal side (ends.claims side journal) claimId := by
    intro side claimId
    obtain ⟨serialTrace, serialSeen, scheduled, known, env, run, last⟩ :=
      ends.serial_schedule side conforming grounded apart
    rw [← last, ← known]
    exact scheduled.stream conforming grounded apart unentangled run claimId
  obtain ⟨env, run, rfl⟩ := appended
  have stream := schedule.stream conforming grounded apart unentangled run
  obtain ⟨tail, split⟩ := schedule.earlier
  have whole : ends.claims first journal = recordings (seen.map Prod.snd) ++
      recordings (doneBy first tail) := by
    rw [← ends.recordings_events_spec first conforming grounded, ← schedule.own, ← split,
      doneBy_append, schedule.seen_own, recordings, List.filterMap_append]
    rfl
  rcases retires_either apart unentangled whole with alike | ⟨second, own⟩
  · refine ⟨first, fun claimId => claimCardAt_stream ?_⟩
    rw [stream, serial, settledStream_congr (alike claimId)]
  · refine ⟨first.other, fun claimId => claimCardAt_stream ?_⟩
    rw [stream, serial, settledStream_swap apart unentangled (second claimId) (own claimId)]

/-- An inference reads the source order up to its view, whatever is appended behind. -/
theorem inferTranscript_grown (ends : SessionEnds) (side : Side) {shown later : Journal}
    (grown : shown.Extends later) (plan : SourcePlan) :
    ends.inferTranscript side later (viewOf ends.workspaceId shown) plan =
      ends.inferTranscript side shown (viewOf ends.workspaceId shown) plan := by
  have bound : (viewOf ends.workspaceId shown).frontier ≤ shown.lastSequence :=
    frontierOf_region_le shown (scopeForWorkspace ends.workspaceId)
  have policy : workspaceTemporalPolicy (readable later) ends.workspaceId
      (viewOf ends.workspaceId shown) =
      workspaceTemporalPolicy (readable shown) ends.workspaceId (viewOf ends.workspaceId shown) :=
    workspaceTemporalPolicyThrough_grown grown bound (viewOf ends.workspaceId shown)
  unfold inferTranscript
  rw [policy]

/-- Where a session end stands, by the journal it was served and what it has done. -/
def Stands (ends : SessionEnds) (side : Side) (shown : Journal) (done : List Payload) :
    EndStage → Prop
  | .waiting => done = []
  | .viewed view => done = [] ∧ ends.openView side shown = .ok view
  | .planned view plan =>
    done = [] ∧ ends.openView side shown = .ok view ∧ ends.planTranscript side view = .ok plan
  | .appending rest => ends.events side shown = done ++ rest
  | .failed _ => done = [] ∧ ends.events side shown = []

/-- The step law of a session end under way: it appends nothing or its next event. -/
theorem step_stands {ends : SessionEnds} {side : Side} {state state' : EndsState} {shown : Journal}
    {done : List Payload} (moved : ends.step state side = some state')
    (begun : state.stage side ≠ .waiting)
    (stands : ends.Stands side shown done (state.stage side))
    (grown : shown.Extends state.journal)
    (kinds : ∀ payload ∈ ends.events side shown, Appendable payload) :
    state'.stage side.other = state.stage side.other ∧ state'.stage side ≠ .waiting ∧
      ∃ more, (∀ payload ∈ more, Appendable payload) ∧
        Appends ends.workspaceId state.journal more state'.journal ∧
        ends.Stands side shown (done ++ more) (state'.stage side) := by
  have apart := side_other_ne side
  have none : ∀ payload ∈ ([] : List Payload), Appendable payload := by simp
  unfold step at moved
  cases stage : state.stage side with
  | waiting => exact absurd stage begun
  | viewed view =>
    rw [stage] at moved stands
    obtain ⟨rfl, opened⟩ := stands
    simp only at moved
    cases planned : ends.planTranscript side view with
    | error error =>
      rw [planned] at moved
      rw [← Option.some.inj moved]
      refine ⟨EndsState.stage_put_other _ apart _, by simp, [], none, Appends.nil _ _, ?_⟩
      rw [EndsState.stage_put]
      refine ⟨rfl, ?_⟩
      simp [events, opened, planned, bind, Except.bind]
    | ok plan =>
      rw [planned] at moved
      rw [← Option.some.inj moved]
      refine ⟨EndsState.stage_put_other _ apart _, by simp, [], none, Appends.nil _ _, ?_⟩
      rw [EndsState.stage_put]
      exact ⟨rfl, opened, planned⟩
  | planned view plan =>
    rw [stage] at moved stands
    obtain ⟨rfl, opened, planned⟩ := stands
    simp only at moved
    have current : view = viewOf ends.workspaceId shown := by
      rcases ends.openView_eq side shown with ⟨error, failed⟩ | answered
      · rw [failed shown] at opened
        cases opened
      · rw [answered] at opened
        exact (Except.ok.inj opened).symm
    have inferred : ends.inferTranscript side state.journal view plan =
        ends.inferTranscript side shown view plan := by
      rw [current]
      exact ends.inferTranscript_grown side grown plan
    rw [inferred] at moved
    cases drawn : ends.inferTranscript side shown view plan with
    | error error =>
      rw [drawn] at moved
      rw [← Option.some.inj moved]
      refine ⟨EndsState.stage_put_other _ apart _, by simp, [], none, Appends.nil _ _, ?_⟩
      rw [EndsState.stage_put]
      refine ⟨rfl, ?_⟩
      simp [events, opened, planned, drawn, bind, Except.bind]
    | ok drawnEvents =>
      rw [drawn] at moved
      rw [← Option.some.inj moved]
      refine ⟨EndsState.stage_put_other _ apart _, by simp, [], none, Appends.nil _ _, ?_⟩
      rw [EndsState.stage_put]
      show ends.events side shown = [] ++ [] ++ drawnEvents
      simp [events, opened, planned, drawn, bind, Except.bind]
  | appending rest =>
    rw [stage] at moved stands
    cases rest with
    | nil => cases moved
    | cons payload rest =>
      have whole : ends.events side shown = done ++ payload :: rest := stands
      have kind : Appendable payload := kinds payload (by rw [whole]; simp)
      obtain ⟨next, appended⟩ := append_total kind
        { workspaceId := ends.workspaceId, journal := state.journal }
      simp only [appended] at moved
      rw [← Option.some.inj moved]
      refine ⟨EndsState.stage_put_other _ apart _, ?_, [payload], by simpa using kind,
        Appends.single appended, ?_⟩
      · show (state.put side (.appending rest)).stage side ≠ .waiting
        simp
      · show ends.Stands side shown (done ++ [payload])
          ((state.put side (.appending rest)).stage side)
        rw [EndsState.stage_put]
        show ends.events side shown = done ++ [payload] ++ rest
        rw [whole, List.append_assoc]
        rfl
  | failed error =>
    rw [stage] at moved
    cases moved

/-- A session end is served its view. -/
theorem step_waiting {ends : SessionEnds} {side : Side} {state state' : EndsState}
    (moved : ends.step state side = some state') (waiting : state.stage side = .waiting) :
    state'.journal = state.journal ∧ state'.stage side.other = state.stage side.other ∧
      state'.stage side ≠ .waiting ∧ ends.Stands side state.journal [] (state'.stage side) := by
  have apart := side_other_ne side
  unfold step at moved
  rw [waiting] at moved
  simp only at moved
  cases opened : ends.openView side state.journal with
  | error error =>
    rw [opened] at moved
    rw [← Option.some.inj moved]
    refine ⟨rfl, EndsState.stage_put_other _ apart _, by simp, ?_⟩
    rw [EndsState.stage_put]
    refine ⟨rfl, ?_⟩
    simp [events, opened, bind, Except.bind]
  | ok view =>
    rw [opened] at moved
    rw [← Option.some.inj moved]
    refine ⟨rfl, EndsState.stage_put_other _ apart _, by simp, ?_⟩
    rw [EndsState.stage_put]
    exact ⟨rfl, opened⟩

/-- What a session end has done is among its events. -/
theorem Stands.members {ends : SessionEnds} {side : Side} {shown : Journal} {done : List Payload}
    {stage : EndStage} (stands : ends.Stands side shown done stage) :
    ∀ payload ∈ done, payload ∈ ends.events side shown := by
  have idle : done = [] → ∀ payload ∈ done, payload ∈ ends.events side shown := by
    intro empty payload member
    rw [empty] at member
    cases member
  cases stage with
  | waiting => exact idle stands
  | viewed view => exact idle stands.1
  | planned view plan => exact idle stands.1
  | appending rest =>
    intro payload member
    rw [(stands : ends.events side shown = done ++ rest)]
    exact List.mem_append_left _ member
  | failed error => exact idle stands.1

/-- Two session ends under way. The first was served its view on the journal they started from,
the other behind some of its appends. -/
structure Progress (ends : SessionEnds) (journal : Journal) (first : Side)
    (trace seen : List (Side × Payload)) (state : EndsState) : Prop where
  appended : Appends ends.workspaceId journal (trace.map Prod.snd) state.journal
  begun : state.stage first ≠ .waiting
  own : ends.Stands first journal (doneBy first trace) (state.stage first)
  earlier : seen <+: trace
  unserved : doneBy first.other seen = []
  other : ∃ shown, Appends ends.workspaceId journal (seen.map Prod.snd) shown ∧
    shown.Extends state.journal ∧
    ends.Stands first.other shown (doneBy first.other trace) (state.stage first.other)

/-- The journal under way is sound, and so is the one the other was served. -/
theorem Progress.sound {ends : SessionEnds} {journal : Journal} {first : Side}
    {trace seen : List (Side × Payload)} {state : EndsState}
    (progress : ends.Progress journal first trace seen state) (conforming : journal.Conforming)
    (grounded : Grounded journal ends.workspaceId) (apart : ends.Apart journal) :
    journal.Extends state.journal ∧ state.journal.Conforming ∧
      ∀ shown, Appends ends.workspaceId journal (seen.map Prod.snd) shown →
        shown.Conforming ∧ Grounded shown ends.workspaceId := by
  obtain ⟨env, run, same⟩ := progress.appended
  obtain ⟨_, grown, still, _⟩ := OpEnv.appendAll_spec run conforming
  refine ⟨same ▸ grown, same ▸ still, ?_⟩
  intro shown appended
  obtain ⟨served, behind, rfl⟩ := appended
  have members : ∀ payload ∈ seen.map Prod.snd, payload ∈ ends.events first journal := by
    intro payload member
    obtain ⟨⟨side, _⟩, listed, rfl⟩ := List.mem_map.mp member
    rcases side_cases first side with rfl | rfl
    · exact progress.own.members _ (mem_doneBy.mpr (progress.earlier.mem listed))
    · have impossible := mem_doneBy.mpr listed
      rw [progress.unserved] at impossible
      cases impossible
  obtain ⟨sound, kept, _, _⟩ := after_events conforming grounded apart members behind
  exact ⟨sound, kept⟩

/-- The step law of two session ends under way. -/
theorem Progress.step {ends : SessionEnds} {journal : Journal} {first side : Side}
    {trace seen : List (Side × Payload)} {state state' : EndsState}
    (progress : ends.Progress journal first trace seen state) (conforming : journal.Conforming)
    (grounded : Grounded journal ends.workspaceId) (apart : ends.Apart journal)
    (moved : ends.step state side = some state') :
    ∃ trace' seen', ends.Progress journal first trace' seen' state' := by
  obtain ⟨grown, still, served⟩ := progress.sound conforming grounded apart
  have growing : ∀ more, Appends ends.workspaceId state.journal more state'.journal →
      state.journal.Extends state'.journal := by
    intro more appended
    obtain ⟨env, run, same⟩ := appended
    exact same ▸ (OpEnv.appendAll_spec run still).2.1
  obtain ⟨shown, behind, shownGrown, stands⟩ := progress.other
  rcases side_cases first side with rfl | rfl
  · obtain ⟨unmoved, begun, more, kinds, appended, after⟩ := step_stands moved progress.begun
      progress.own grown fun payload member => (ends.events_kind _ conforming grounded member).1
    refine ⟨trace ++ more.map (Prod.mk side), seen, ?_, begun, ?_, ?_, progress.unserved, shown,
      behind, shownGrown.trans (growing more appended), ?_⟩
    · rw [List.map_append, List.map_map]
      have same : more.map (Prod.snd ∘ Prod.mk side) = more := by simp [Function.comp_def]
      rw [same]
      exact progress.appended.append appended kinds
    · rw [doneBy_append, doneBy_own]
      exact after
    · exact progress.earlier.trans (List.prefix_append _ _)
    · rw [doneBy_append, doneBy_other (side_other_ne side).symm, List.append_nil, unmoved]
      exact stands
  · by_cases waiting : state.stage first.other = .waiting
    · obtain ⟨unchanged, unmoved, _, after⟩ := step_waiting moved waiting
      rw [side_other_other] at unmoved
      rw [waiting] at stands
      refine ⟨trace, trace, ?_, ?_, ?_, List.prefix_rfl, stands, state.journal, progress.appended,
        ?_, ?_⟩
      · rw [unchanged]
        exact progress.appended
      · rw [unmoved]
        exact progress.begun
      · rw [unmoved]
        exact progress.own
      · rw [unchanged]
        exact Journal.Extends.refl _
      · rw [(stands : doneBy first.other trace = [])]
        exact after
    · obtain ⟨sound, kept⟩ := served shown behind
      obtain ⟨unmoved, _, more, kinds, appended, after⟩ := step_stands moved waiting stands
        shownGrown fun payload member => (ends.events_kind _ sound kept member).1
      rw [side_other_other] at unmoved
      refine ⟨trace ++ more.map (Prod.mk first.other), seen, ?_, ?_, ?_, ?_, progress.unserved,
        shown, behind, shownGrown.trans (growing more appended), ?_⟩
      · rw [List.map_append, List.map_map]
        have same : more.map (Prod.snd ∘ Prod.mk first.other) = more := by simp [Function.comp_def]
        rw [same]
        exact progress.appended.append appended kinds
      · rw [unmoved]
        exact progress.begun
      · rw [doneBy_append, doneBy_other (side_other_ne first), List.append_nil, unmoved]
        exact progress.own
      · exact progress.earlier.trans (List.prefix_append _ _)
      · rw [doneBy_append, doneBy_own]
        exact after

/-- The run law of two session ends under way. -/
theorem Progress.run {ends : SessionEnds} {journal : Journal} {first : Side}
    {trace seen : List (Side × Payload)} {state final : EndsState}
    (progress : ends.Progress journal first trace seen state) (conforming : journal.Conforming)
    (grounded : Grounded journal ends.workspaceId) (apart : ends.Apart journal)
    {moves : List Side} (ran : ends.run state moves = some final) :
    ∃ trace' seen', ends.Progress journal first trace' seen' final := by
  induction moves generalizing state trace seen with
  | nil =>
    have same : state = final := Option.some.inj ran
    rw [← same]
    exact ⟨trace, seen, progress⟩
  | cons side rest ih =>
    rw [SessionEnds.run, List.foldlM_cons] at ran
    obtain ⟨middle, moved, later⟩ := Option.bind_eq_some_iff.mp ran
    obtain ⟨trace', seen', after⟩ := progress.step conforming grounded apart moved
    exact ih after later

/-- Served to the end, two session ends under way have followed a schedule. -/
theorem Progress.schedule {ends : SessionEnds} {journal : Journal} {first : Side}
    {trace seen : List (Side × Payload)} {state : EndsState}
    (progress : ends.Progress journal first trace seen state) (served : state.Served) :
    ends.Schedule journal first trace seen := by
  have whole : ∀ {side shown done}, ends.Stands side shown done (state.stage side) →
      done = ends.events side shown := by
    intro side shown done stands
    rcases served side with finished | ⟨error, failed⟩
    · rw [finished] at stands
      have events : ends.events side shown = done ++ [] := stands
      rw [events, List.append_nil]
    · rw [failed] at stands
      rw [stands.1, stands.2]
  obtain ⟨shown, ⟨env, run, rfl⟩, _, stands⟩ := progress.other
  exact ⟨progress.earlier, progress.unserved, whole progress.own, env, run, whole stands⟩

end SessionEnds

open SessionEnds

/-- In every run of two session ends that do not meet, over a journal of the operations, the
claim cards come out as those of one of the two serial orders. -/
theorem concurrent_session_ends_serializable (ends : SessionEnds) (journal : Journal)
    (conforming : journal.Conforming) (grounded : Grounded journal ends.workspaceId)
    (apart : ends.Apart journal) (unentangled : ends.Unentangled journal) (moves : List Side)
    (final : EndsState) (ran : ends.run (.start journal) moves = some final)
    (served : final.Served) :
    ∃ side : Side, ∀ claimId,
      claimCardAt (workspaceRows final.journal ends.workspaceId) claimId =
        claimCardAt (workspaceRows (ends.alone side.other (ends.alone side journal))
          ends.workspaceId) claimId := by
  cases moves with
  | nil =>
    have same : EndsState.start journal = final := Option.some.inj ran
    rcases served .left with finished | ⟨error, failed⟩
    · rw [← same] at finished
      cases finished
    · rw [← same] at failed
      cases failed
  | cons first rest =>
    rw [SessionEnds.run, List.foldlM_cons] at ran
    obtain ⟨middle, moved, later⟩ := Option.bind_eq_some_iff.mp ran
    obtain ⟨unchanged, unmoved, begun, stands⟩ := step_waiting moved rfl
    have start : Appends ends.workspaceId journal [] middle.journal := by
      rw [unchanged]
      exact Appends.nil _ _
    have progress : ends.Progress journal first [] [] middle := by
      refine ⟨start, begun, stands, List.prefix_rfl, rfl, middle.journal, start,
        Journal.Extends.refl _, ?_⟩
      rw [unmoved]
      exact rfl
    obtain ⟨trace, seen, finished⟩ := progress.run conforming grounded apart later
    exact (finished.schedule served).serializes conforming grounded apart unentangled
      finished.appended

/-- A candidate without replacement wording retires nothing. -/
theorem retires_none {ends : SessionEnds} {side : Side} {journal : Journal}
    (plain : ∀ new ∈ ends.candidates side journal,
      containsReplacementSignal new.normalizedText = false)
    (known : List ClaimRecordedV2) (claimId : String) :
    ends.retires side journal known claimId = none := by
  have nothing : replacementOf (workspaceRows journal ends.workspaceId) known
      (ends.candidates side journal) claimId = none := by
    unfold replacementOf
    split
    · have missing : ∀ card : ClaimCard,
          (ends.candidates side journal).find? (replaces card) = none := by
        intro card
        rw [List.find?_eq_none]
        intro new member
        simp [replaces, plain new member]
      rw [missing]
      rfl
    · rfl
  rw [retires, retirement, nothing]
  rfl

end

/-- A digest that reads the last six bytes back in decimal, last byte first. -/
@[reducible] def endDigest : Blake3 where
  hex := fun bytes => String.join ((bytes.reverse.take 6).map fun byte => toString byte.toNat)

/-- Two sessions on the demo journal. The first replaces the claim recorded before, the second
has one claim of its own. -/
def secondEnds (text normalizedText subject : String) : SessionEnds where
  config := semanticConfig
  world :=
    { tuesdayWorld with
      runExtractor := fun command path =>
        if path = "/w/sessions/s2.md" then
          .lines
            [.claim
              { lineStart := 3
                text := text
                normalizedText := normalizedText
                subjectHint := some subject
                predicateHint := none
                objectHint := none
                confidencePpm := 900000
                charStart := none
                charEnd := none
                extractorModel := none
                promptVersion := none }]
        else
          tuesdayWorld.runExtractor command path }
  workspaceId := "demo"
  turnStore := tuesdayTurns ++ [⟨"s2", "demo", "user", text, 1, 5⟩]
  request := fun side =>
    match side with
    | .left => ⟨"s1", 9⟩
    | .right => ⟨"s2", 9⟩

/-- The second session has nothing to replace. -/
def officeEnds : SessionEnds :=
  secondEnds "The office opens at noon" "the office opens at noon" "office"

/-- The second session replaces the claim too. -/
def noonEnds : SessionEnds :=
  secondEnds "The target now ships at noon" "the target now ships at noon" "target"

/-- Both are served their views before either appends. -/
def sideBySide : List Side :=
  [.left, .right, .left, .right, .left, .right, .left, .right, .left, .right, .left]

/-- A stage a session end is served to. -/
def EndStage.isServed : EndStage → Bool
  | .appending [] => true
  | .failed _ => true
  | _ => false

/-- Both session ends are served when neither has a move left. -/
theorem served_of_stages {state : EndsState}
    (stages : ∀ side, (state.stage side).isServed = true) : state.Served := by
  intro side
  have stage := stages side
  cases found : state.stage side with
  | appending rest =>
    cases rest with
    | nil => exact Or.inl rfl
    | cons payload rest =>
      rw [found] at stage
      cases stage
  | failed error => exact Or.inr ⟨error, rfl⟩
  | _ =>
    rw [found] at stage
    cases stage

/-- The demo journal observes no source. -/
theorem fridayJournal_rows : (workspaceRows fridayJournal "demo").map Entry.payload =
    [.claimRecorded fridayClaim] := by decide

/-- The sessions of the witness are told apart. -/
theorem officeEnds_apart : let _ := endDigest; officeEnds.Apart fridayJournal := by
  intro digest
  constructor
  · intro side document _ row member event observed
    have listed := List.mem_map_of_mem (f := Entry.payload) member
    rw [show workspaceRows fridayJournal officeEnds.workspaceId =
      workspaceRows fridayJournal "demo" from rfl, fridayJournal_rows, observed] at listed
    cases List.mem_singleton.mp listed
  · intro left right parsed parsed' same
    have own : (officeEnds.document .left).toOption.map MarkdownDocument.sourceId ≠
        (officeEnds.document .right).toOption.map MarkdownDocument.sourceId := by decide +kernel
    rw [parsed, parsed'] at own
    exact own (congrArg some same)
  · have apart : ∀ claimId ∈ (officeEnds.claims .left fridayJournal).map ClaimRecordedV2.claimId,
        claimId ∉ (officeEnds.claims .right fridayJournal).map ClaimRecordedV2.claimId := by
      decide +kernel
    exact apart

/-- The sessions of the witness do not meet. -/
theorem officeEnds_unentangled : let _ := endDigest; officeEnds.Unentangled fridayJournal := by
  intro digest
  have plain : ∀ new ∈ officeEnds.candidates .right fridayJournal,
      containsReplacementSignal new.normalizedText = false := by decide +kernel
  constructor
  · intro claimId _
    exact retires_none plain [] claimId
  · have crossed : ∀ claimId, officeEnds.Crossed fridayJournal claimId →
        claimId ∈ (officeEnds.claims .right fridayJournal).map ClaimRecordedV2.claimId := by
      intro claimId ⟨side, unrecorded, retired⟩
      cases side with
      | left =>
        by_contra unknown
        have nothing : officeEnds.retires .left fridayJournal
            (officeEnds.claims .right fridayJournal) claimId = none :=
          retirement_unknown unrecorded unknown _
        have found : (officeEnds.retires .left fridayJournal
            (officeEnds.claims .right fridayJournal) claimId).isSome = true := retired
        rw [nothing] at found
        cases found
      | right =>
        rw [retires_none plain] at retired
        cases retired
    have only : ((officeEnds.claims .right fridayJournal).map ClaimRecordedV2.claimId).length = 1 :=
      by decide +kernel
    obtain ⟨lone, same⟩ := List.length_eq_one_iff.mp only
    intro first second left right
    have one := crossed first left
    have two := crossed second right
    rw [same, List.mem_singleton] at one two
    rw [one, two]

/-- The two sessions of the witness, side by side. -/
theorem concurrent_session_ends_serializable_office :
    let _ := endDigest
    ∃ final, officeEnds.run (.start fridayJournal) sideBySide = some final ∧ final.Served ∧
      ∃ side : Side, ∀ claimId,
        claimCardAt (workspaceRows final.journal "demo") claimId =
          claimCardAt (workspaceRows (officeEnds.alone side.other
            (officeEnds.alone side fridayJournal)) "demo") claimId := by
  intro digest
  have stages : ((officeEnds.run (.start fridayJournal) sideBySide).map fun final =>
      ((final.stage .left).isServed, (final.stage .right).isServed)) = some (true, true) := by
    decide +kernel
  obtain ⟨final, ran, done⟩ := Option.map_eq_some_iff.mp stages
  have served : final.Served := by
    apply served_of_stages
    intro side
    cases side with
    | left => exact congrArg Prod.fst done
    | right => exact congrArg Prod.snd done
  exact ⟨final, ran, served, concurrent_session_ends_serializable officeEnds fridayJournal
    fridayJournal_sound.1 fridayJournal_sound.2 officeEnds_apart officeEnds_unentangled sideBySide
    final ran served⟩

/-- Two sessions that replace one claim, each on a view from before the other's appends, both
retire it: its card carries two anomalies, and that of neither serial order carries one. -/
theorem concurrent_session_ends_retire_twice :
    let _ := endDigest
    ∃ final, noonEnds.run (.start fridayJournal) (sideBySide ++ [.right]) = some final ∧
      final.Served ∧
      ¬ ∃ side : Side, ∀ claimId,
        claimCardAt (workspaceRows final.journal "demo") claimId =
          claimCardAt (workspaceRows (noonEnds.alone side.other
            (noonEnds.alone side fridayJournal)) "demo") claimId := by
  intro digest
  have outcome : ((noonEnds.run (.start fridayJournal) (sideBySide ++ [.right])).map fun final =>
      (((final.stage .left).isServed, (final.stage .right).isServed),
        (claimCardAt (workspaceRows final.journal "demo") "claim_friday").map
          ClaimCard.anomalies)) =
      some ((true, true), some ["supersede-from-2", "duplicate-supersede"]) := by
    decide +kernel
  have serial : ∀ side : Side, (claimCardAt (workspaceRows (noonEnds.alone side.other
      (noonEnds.alone side fridayJournal)) "demo") "claim_friday").map ClaimCard.anomalies =
      some [] := by
    intro side
    cases side with
    | left => decide +kernel
    | right => decide +kernel
  obtain ⟨final, ran, done⟩ := Option.map_eq_some_iff.mp outcome
  have stages := congrArg Prod.fst done
  have card := congrArg Prod.snd done
  refine ⟨final, ran, ?_, ?_⟩
  · apply served_of_stages
    intro side
    cases side with
    | left => exact congrArg Prod.fst stages
    | right => exact congrArg Prod.snd stages
  · intro ⟨side, same⟩
    have anomalies := serial side
    rw [← same "claim_friday"] at anomalies
    cases card.symm.trans anomalies

end Texo.Ingest
