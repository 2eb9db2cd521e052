import Texo.Ingest.Observations
import Texo.Ingest.Retirement
import Texo.Ops.Snapshots

/-! # Two session ends over one store

Two session ends are served over one shared store. Each looks at a view of its own, plans its
transcript, draws its replacements on that view and appends its events one by one, and nothing
checks at an append that the retired claim is still current. The moves of the two may come in
any order.
-/
namespace Texo.Ingest
open Texo.Events Texo.Extract Texo.Knowledge Texo.Store Texo.Claims Texo.Semantics Texo.Ops
  Texo.Foundation Texo.Sessions

/-- One of two requests served side by side. -/
inductive Side where
  | left
  | right
deriving DecidableEq, Repr

/-- The other request. -/
def Side.other : Side → Side
  | .left => .right
  | .right => .left

/-- Two session ends: what they share, and what each asks for. -/
structure SessionEnds where
  config : WorkspaceConfig
  world : SessionWorld
  workspaceId : String
  turnStore : List TurnEntry
  request : Side → AgentSessionEndInput

/-- Where one session end stands. -/
inductive EndStage where
  | waiting
  | viewed (view : WorkspaceView)
  | planned (view : WorkspaceView) (plan : SourcePlan)
  | appending (rest : List Payload)
  | failed (error : TexoError)

/-- The shared store and where the two session ends stand. -/
structure EndsState where
  journal : Journal
  stage : Side → EndStage

/-- One session end comes to stand elsewhere. -/
def EndsState.put (state : EndsState) (side : Side) (stage : EndStage) : EndsState :=
  { state with stage := fun each => if each = side then stage else state.stage each }

@[simp] theorem EndsState.journal_put (state : EndsState) (side : Side) (stage : EndStage) :
    (state.put side stage).journal = state.journal := rfl

@[simp] theorem EndsState.stage_put (state : EndsState) (side : Side) (stage : EndStage) :
    (state.put side stage).stage side = stage := if_pos rfl

/-- A session end leaves the other where it stands. -/
theorem EndsState.stage_put_other (state : EndsState) {side each : Side} (other : each ≠ side)
    (stage : EndStage) : (state.put side stage).stage each = state.stage each := if_neg other

/-- Both session ends have been served. -/
def EndsState.Served (state : EndsState) : Prop :=
  ∀ side, state.stage side = .appending [] ∨ ∃ error, state.stage side = .failed error

/-- No session end has begun. -/
def EndsState.start (journal : Journal) : EndsState := ⟨journal, fun _ => .waiting⟩

section
variable [Blake3]

namespace SessionEnds

/-- The turns of one of the sessions. -/
def turns (ends : SessionEnds) (side : Side) : List TurnEntry :=
  readSessionTurns ends.turnStore (ends.request side).sessionId

/-- The transcript file of one of the sessions. -/
def transcript (ends : SessionEnds) (side : Side) : SourceWorld :=
  ends.world.transcript (sessionDocPath ends.world.root (ends.request side).sessionId)
    (ends.request side).sessionId (ends.turns side)

/-- The checks of a session end, its transcript write and its view. -/
def openView (ends : SessionEnds) (side : Side) (journal : Journal) :
    Except TexoError WorkspaceView := do
  validateSessionInput sessionEndOp (ends.request side).sessionId
  require (ends.turns side ≠ [])
    (.missingEntity (entityForSession (ends.request side).sessionId))
  match ends.world.written with
  | .error detail => .error (.io detail)
  | .ok () => assembleCurrentView (readable journal) ends.workspaceId

/-- The plan of a transcript on a view. -/
def planTranscript (ends : SessionEnds) (side : Side) (view : WorkspaceView) :
    Except TexoError SourcePlan := do
  let plan ← planSources sessionEndOp ends.config (ends.transcript side) ends.workspaceId
    (ends.request side).observedAtMs view
  require (plan.skipped = [])
    (.source (sessionDocPath ends.world.root (ends.request side).sessionId)
      "generated session transcript could not be planned")
  .ok plan

/-- The events of a session end, with the replacements drawn on its view. -/
def inferTranscript (ends : SessionEnds) (side : Side) (journal : Journal) (view : WorkspaceView)
    (plan : SourcePlan) : Except TexoError (List Payload) := do
  let temporal ← workspaceTemporalPolicy (readable journal) ends.workspaceId view
  let supersessions ← inferSupersessions view plan.newClaims (ends.request side).observedAtMs
    temporal
  .ok (plan.events ++ supersessions.applied.map .claimSuperseded)

/-- One move: assemble the view, plan, infer, or append one event. -/
def step (ends : SessionEnds) (state : EndsState) (side : Side) : Option EndsState :=
  match state.stage side with
  | .waiting =>
    match ends.openView side state.journal with
    | .error error => some (state.put side (.failed error))
    | .ok view => some (state.put side (.viewed view))
  | .viewed view =>
    match ends.planTranscript side view with
    | .error error => some (state.put side (.failed error))
    | .ok plan => some (state.put side (.planned view plan))
  | .planned view plan =>
    match ends.inferTranscript side state.journal view plan with
    | .error error => some (state.put side (.failed error))
    | .ok events => some (state.put side (.appending events))
  | .appending [] => none
  | .appending (payload :: rest) =>
    match OpEnv.append { workspaceId := ends.workspaceId, journal := state.journal } payload with
    | .error error => some (state.put side (.failed error))
    | .ok next => some { state.put side (.appending rest) with journal := next.journal }
  | .failed _ => none

/-- Moves in order. -/
def run (ends : SessionEnds) (state : EndsState) (moves : List Side) : Option EndsState :=
  moves.foldlM ends.step state

/-- The events a session end appends when it prepares on a journal. -/
def events (ends : SessionEnds) (side : Side) (journal : Journal) : List Payload :=
  match (do
    let view ← ends.openView side journal
    let plan ← ends.planTranscript side view
    ends.inferTranscript side journal view plan : Except TexoError (List Payload)) with
  | .error _ => []
  | .ok events => events

/-- The journal a session end leaves when it is served alone. -/
def alone (ends : SessionEnds) (side : Side) (journal : Journal) : Journal :=
  journalAfter (agentSessionEnd (ends.events side journal).length ends.config ends.world
    ends.workspaceId ends.turnStore (ends.request side) journal)

/-- The planned events of a session end on a journal: its observation and its claims. -/
def base (ends : SessionEnds) (side : Side) (journal : Journal) : List Payload :=
  match (do
    let view ← ends.openView side journal
    ends.planTranscript side view : Except TexoError SourcePlan) with
  | .error _ => []
  | .ok plan => plan.events

/-- The claims a session end would record on a journal. -/
def claims (ends : SessionEnds) (side : Side) (journal : Journal) : List ClaimRecordedV2 :=
  recordings (ends.base side journal)

/-- Its claims as replacement candidates. -/
def candidates (ends : SessionEnds) (side : Side) (journal : Journal) : List ReplacementCandidate :=
  candidatesOf (ends.claims side journal)

omit [Blake3] in
/-- The view of a session end, where its checks pass. -/
theorem openView_eq (ends : SessionEnds) (side : Side) (journal : Journal) :
    (∃ error, ∀ other, ends.openView side other = .error error) ∨
      ends.openView side journal = .ok (viewOf ends.workspaceId journal) := by
  unfold openView
  simp only [assembleCurrentView_readable]
  cases validateSessionInput sessionEndOp (ends.request side).sessionId with
  | error error => exact Or.inl ⟨error, fun _ => rfl⟩
  | ok done =>
    cases require (ends.turns side ≠ [])
        (TexoError.missingEntity (entityForSession (ends.request side).sessionId)) with
    | error error => exact Or.inl ⟨error, fun _ => rfl⟩
    | ok done =>
      cases ends.world.written with
      | error detail => exact Or.inl ⟨.io detail, fun _ => rfl⟩
      | ok done => exact Or.inr rfl

/-- What preparing a session end comes to on a journal: nothing to append, or the planned events
and the supersessions of its inference. -/
theorem events_cases (ends : SessionEnds) (side : Side) {journal : Journal}
    (conforming : journal.Conforming) (grounded : Grounded journal ends.workspaceId) :
    (ends.base side journal = [] ∧ ends.events side journal = []) ∨
      ∃ plan temporal,
        planSources sessionEndOp ends.config (ends.transcript side) ends.workspaceId
          (ends.request side).observedAtMs (viewOf ends.workspaceId journal) = .ok plan ∧
        ends.base side journal = plan.events ∧
        workspaceTemporalPolicy (readable journal) ends.workspaceId
          (viewOf ends.workspaceId journal) = .ok temporal ∧
        ends.events side journal = plan.events ++
          (inferExplicitSupersessions (viewOf ends.workspaceId journal)
            (candidatesOf plan.newClaims) (ends.request side).observedAtMs
            temporal).applied.map .claimSuperseded := by
  rcases ends.openView_eq side journal with ⟨error, failed⟩ | opened
  · left
    simp [base, events, failed journal, bind, Except.bind]
  · cases planned : ends.planTranscript side (viewOf ends.workspaceId journal) with
    | error error =>
      left
      simp [base, events, opened, planned, bind, Except.bind]
    | ok plan =>
      right
      obtain ⟨plan', made, rest⟩ := bind_eq_ok.mp planned
      obtain ⟨_, _, same⟩ := bind_eq_ok.mp rest
      have equal := Except.ok.inj same
      subst equal
      obtain ⟨temporal, policy⟩ :=
        workspaceTemporalPolicy_total (grounded.listed_branded conforming)
      have branded := newClaims_branded made
      refine ⟨plan', temporal, made, ?_, policy, ?_⟩
      · simp [base, opened, planned, bind, Except.bind]
      · simp [events, opened, planned, inferTranscript, policy, inferSupersessions,
          mapM_candidateOf branded, bind, Except.bind, Except.map]

/-- The planned events of a session end are an ingest's, in the workspace and branded. -/
theorem base_spec (ends : SessionEnds) (side : Side) {journal : Journal}
    (conforming : journal.Conforming) (grounded : Grounded journal ends.workspaceId) :
    (∀ payload ∈ ends.base side journal, Appendable payload ∧
      InWorkspace ends.workspaceId payload ∧ ∀ claimId, supersedes claimId payload = false) ∧
      AllBranded (ends.claims side journal) ∧
      ∀ claim ∈ ends.claims side journal, claim.workspaceId = ends.workspaceId := by
  unfold claims
  rcases ends.events_cases side conforming grounded with
    ⟨empty, _⟩ | ⟨plan, temporal, planned, based, _, _⟩
  · rw [empty]
    refine ⟨?_, ?_, ?_⟩ <;> intro item member <;> cases member
  · rw [based, recordings_events]
    obtain ⟨_, here, _⟩ := newClaims_ids planned
    refine ⟨?_, newClaims_branded planned, here⟩
    intro payload member
    refine ⟨appendable_events plan payload member, ?_⟩
    obtain ⟨source, inPlan, inner⟩ := List.mem_flatMap.mp member
    rcases List.mem_cons.mp inner with rfl | later
    · obtain ⟨document, _, observed⟩ := planned_observation planned inPlan
      refine ⟨?_, fun _ => rfl⟩
      intro coordinate lies
      rw [← Option.some.inj lies, observed]
      rfl
    · obtain ⟨claim, held, rfl⟩ := List.mem_map.mp later
      refine ⟨inWorkspace_claimRecorded.mpr (here claim ?_), fun _ => rfl⟩
      exact List.mem_flatMap.mpr ⟨source, inPlan, held⟩

/-- The events of a session end: its planned events, then one supersession for each claim it
retires. -/
theorem events_spec (ends : SessionEnds) (side : Side) {journal : Journal}
    (conforming : journal.Conforming) (grounded : Grounded journal ends.workspaceId) :
    ∃ applied : List ClaimSupersededV2,
      ends.events side journal = ends.base side journal ++ applied.map .claimSuperseded ∧
      (applied.map ClaimSupersededV2.oldClaimId).Nodup ∧
      ∀ event, event ∈ applied ↔ ∃ made,
        retirement (workspaceRows journal ends.workspaceId) [] (ends.candidates side journal)
          event.oldClaimId = some made ∧
        event = supersededEvent (ends.request side).observedAtMs made := by
  unfold candidates claims
  rcases ends.events_cases side conforming grounded with
    ⟨empty, nothing⟩ | ⟨plan, temporal, planned, based, policy, whole⟩
  · rw [empty, nothing]
    refine ⟨[], rfl, by simp, ?_⟩
    intro event
    refine iff_of_false (by simp) ?_
    intro ⟨made, retired, _⟩
    obtain ⟨replaced, _⟩ := Option.filter_eq_some_iff.mp retired
    have candidate := (replacementOf_named replaced).2
    cases candidate
  · rw [based, whole, recordings_events]
    exact ⟨_, rfl, nodup_applied_sorted _ _ _ _, fun event =>
      mem_applied_retirement conforming policy⟩

/-- The supersessions of a claim among the events of a session end. -/
theorem supersedes_events (ends : SessionEnds) (side : Side) {journal : Journal}
    (conforming : journal.Conforming) (grounded : Grounded journal ends.workspaceId)
    (claimId : String) :
    (ends.events side journal).filter (supersedes claimId) =
      ((retirement (workspaceRows journal ends.workspaceId) [] (ends.candidates side journal)
        claimId).map fun made => Payload.claimSuperseded
          (supersededEvent (ends.request side).observedAtMs made)).toList := by
  obtain ⟨applied, whole, distinct, members⟩ := ends.events_spec side conforming grounded
  have planned : (ends.base side journal).filter (supersedes claimId) = [] := by
    rw [List.filter_eq_nil_iff]
    intro payload member
    rw [((ends.base_spec side conforming grounded).1 payload member).2.2]
    simp
  have mapped : (applied.map Payload.claimSuperseded).filter (supersedes claimId) =
      (applied.filter fun event => event.oldClaimId = claimId).map .claimSuperseded := by
    rw [List.filter_map]
    rfl
  rw [whole, List.filter_append, planned, List.nil_append, mapped,
    filter_eq_find_of_keyed distinct claimId]
  cases retired : retirement (workspaceRows journal ends.workspaceId) []
      (ends.candidates side journal) claimId with
  | none =>
    have absent : applied.find? (fun event => event.oldClaimId = claimId) = none := by
      rw [List.find?_eq_none]
      intro event member same
      obtain ⟨made, found, _⟩ := (members event).mp member
      rw [of_decide_eq_true same, retired] at found
      cases found
    rw [absent]
    rfl
  | some made =>
    have named : (supersededEvent (ends.request side).observedAtMs made).oldClaimId = claimId := by
      obtain ⟨replaced, _⟩ := Option.filter_eq_some_iff.mp retired
      exact (replacementOf_named replaced).1
    have member : supersededEvent (ends.request side).observedAtMs made ∈ applied :=
      (members _).mpr ⟨made, by rw [named]; exact retired, rfl⟩
    have found : applied.find? (fun event => event.oldClaimId = claimId) =
        some (supersededEvent (ends.request side).observedAtMs made) := by
      apply find?_eq_of_hit member (by simpa using named)
      intro event listed same
      exact eq_of_key distinct listed member ((of_decide_eq_true same).trans named.symm)
    rw [found]
    rfl

/-- The transcript of one of the sessions as it parses. -/
def document (ends : SessionEnds) (side : Side) : Except SourceError MarkdownDocument :=
  MarkdownDocument.fromPath (sessionsDir ++ "/" ++ (ends.request side).sessionId ++ ".md")
    (.text (renderTranscript (ends.request side).sessionId (ends.turns side) false))

/-- The two transcripts are told apart by what identifies them: their source ids, which in the
journal stand for nothing else, and the ids of their claims. -/
structure Apart (ends : SessionEnds) (journal : Journal) : Prop where
  owned : ∀ side document, ends.document side = .ok document →
    Owned (workspaceRows journal ends.workspaceId) document.sourceId document.bodyHashHex
  sources : ∀ left right, ends.document .left = .ok left → ends.document .right = .ok right →
    left.sourceId ≠ right.sourceId
  claims : ∀ claimId, claimId ∈ (ends.claims .left journal).map ClaimRecordedV2.claimId →
    claimId ∉ (ends.claims .right journal).map ClaimRecordedV2.claimId

/-- A transcript is planned alike on views that show it alike. -/
theorem planTranscript_congr (ends : SessionEnds) (side : Side) {view view' : WorkspaceView}
    (shown : ∀ document, ends.document side = .ok document →
      (document.bodyHashHex ∈ existingHashes view ↔ document.bodyHashHex ∈ existingHashes view')) :
    ends.planTranscript side view = ends.planTranscript side view' := by
  have files : planSources sessionEndOp ends.config (ends.transcript side) ends.workspaceId
      (ends.request side).observedAtMs view =
      planSources sessionEndOp ends.config (ends.transcript side) ends.workspaceId
        (ends.request side).observedAtMs view' := by
    unfold planSources transcript SessionWorld.transcript
    simp only [List.foldlM_cons, List.foldlM_nil]
    unfold planFile
    unfold document at shown
    simp only
    cases parsed : MarkdownDocument.fromPath
        (sessionsDir ++ "/" ++ (ends.request side).sessionId ++ ".md")
        (.text (renderTranscript (ends.request side).sessionId (ends.turns side) false)) with
    | error error => rfl
    | ok document =>
      have same := shown document parsed
      simp only [List.not_mem_nil, or_false, same]
  unfold planTranscript
  rw [files]

/-- The source id of a transcript is derived from its body. -/
theorem document_source {ends : SessionEnds} {side : Side} {document : MarkdownDocument}
    (parsed : ends.document side = .ok document) :
    ∃ sourceId, sourceIdFromHash document.bodyHashHex = .ok sourceId ∧
      document.sourceId = sourceId.value := by
  unfold SessionEnds.document MarkdownDocument.fromPath MarkdownDocument.fromBytes at parsed
  simp only at parsed
  split at parsed
  · cases parsed
  · rename_i sourceId derived
    have same := (Except.ok.inj parsed).symm
    rw [same]
    exact ⟨sourceId, derived, rfl⟩

/-- The observation a session end appends is of its transcript. -/
theorem base_observed (ends : SessionEnds) (side : Side) {journal : Journal}
    (conforming : journal.Conforming) (grounded : Grounded journal ends.workspaceId)
    {event : SourceObservedV2} (member : .sourceObserved event ∈ ends.base side journal) :
    ∃ document, ends.document side = .ok document ∧ event.sourceId = document.sourceId ∧
      event.bodyHashHex = document.bodyHashHex := by
  rcases ends.events_cases side conforming grounded with
    ⟨empty, _⟩ | ⟨plan, temporal, planned, based, _, _⟩
  · rw [empty] at member
    cases member
  · rw [based] at member
    obtain ⟨source, inPlan, inner⟩ := List.mem_flatMap.mp member
    have observed : source.observed = event := by
      rcases List.mem_cons.mp inner with same | later
      · exact (Payload.sourceObserved.inj same).symm
      · obtain ⟨claim, _, impossible⟩ := List.mem_map.mp later
        cases impossible
    obtain ⟨⟨path, document⟩, among, shape⟩ := planned_observation planned inPlan
    have listed := (List.mem_filter.mp among).1
    refine ⟨document, ?_, ?_, ?_⟩
    · unfold SourceWorld.documents transcript SessionWorld.transcript at listed
      simp only [distinctDocuments] at listed
      unfold SessionEnds.document
      split at listed
      · cases listed
      · rename_i other parsed
        simp only [List.not_mem_nil, if_false, List.mem_singleton, Prod.mk.injEq] at listed
        rw [parsed, listed.2]
    · rw [← observed, shape]
      rfl
    · rw [← observed, shape]
      rfl

/-- Payloads of a session end: an observation or recording it plans, or the supersession of a
recorded claim it retires. -/
theorem events_member (ends : SessionEnds) (side : Side) {journal : Journal}
    (conforming : journal.Conforming) (grounded : Grounded journal ends.workspaceId)
    {payload : Payload} (member : payload ∈ ends.events side journal) :
    payload ∈ ends.base side journal ∨
      ∃ made claimId,
        payload = .claimSuperseded (supersededEvent (ends.request side).observedAtMs made) ∧
        made.oldClaimId.value = claimId ∧ made.new.workspaceId = ends.workspaceId ∧
        Recorded (workspaceRows journal ends.workspaceId) claimId ∧
        retirement (workspaceRows journal ends.workspaceId) [] (ends.candidates side journal)
          claimId = some made := by
  obtain ⟨applied, whole, _, members⟩ := ends.events_spec side conforming grounded
  rw [whole] at member
  rcases List.mem_append.mp member with planned | later
  · exact Or.inl planned
  · obtain ⟨event, listed, rfl⟩ := List.mem_map.mp later
    obtain ⟨made, retired, rfl⟩ := (members event).mp listed
    obtain ⟨replaced, _⟩ := Option.filter_eq_some_iff.mp retired
    obtain ⟨named, candidate⟩ := replacementOf_named replaced
    refine Or.inr ⟨made, _, rfl, rfl, ?_, ?_, retired⟩
    · obtain ⟨claim, listedClaim, parsed⟩ := List.mem_filterMap.mp candidate
      have source : candidateOf claim = .ok made.new := by
        cases result : candidateOf claim with
        | error error => simp [result, Except.toOption] at parsed
        | ok new => simpa [result, Except.toOption] using parsed
      rw [workspaceId_of_candidateOf source]
      exact (ends.base_spec side conforming grounded).2.2 claim listedClaim
    · by_contra unrecorded
      have impossible :=
        (replacementOf_unrecorded unrecorded (ends.candidates side journal)).symm.trans replaced
      cases impossible

/-- Payloads of a session end are an ingest's and lie in the workspace. -/
theorem events_kind (ends : SessionEnds) (side : Side) {journal : Journal}
    (conforming : journal.Conforming) (grounded : Grounded journal ends.workspaceId)
    {payload : Payload} (member : payload ∈ ends.events side journal) :
    Appendable payload ∧ InWorkspace ends.workspaceId payload := by
  rcases ends.events_member side conforming grounded member with
    planned | ⟨made, claimId, rfl, _, here, _, _⟩
  · obtain ⟨kind, inside, _⟩ := (ends.base_spec side conforming grounded).1 payload planned
    exact ⟨kind, inside⟩
  · exact ⟨trivial, inWorkspace_claimSuperseded.mpr here⟩

/-- Payloads of a session end keep a journal grounded. -/
theorem events_groundable (ends : SessionEnds) (side : Side) {journal : Journal}
    (conforming : journal.Conforming) (grounded : Grounded journal ends.workspaceId)
    {payload : Payload} (member : payload ∈ ends.events side journal) :
    Groundable journal ends.workspaceId payload := by
  rcases ends.events_member side conforming grounded member with
    planned | ⟨made, claimId, rfl, named, _, recorded, _⟩
  · obtain ⟨plain, branded, _⟩ := ends.base_spec side conforming grounded
    constructor
    · intro claimId told
      obtain ⟨event, rfl, _, rfl⟩ := told
      exact branded event (List.mem_filterMap.mpr ⟨_, planned, rfl⟩)
    · intro claimId told
      obtain ⟨event, rfl, _, named⟩ := told
      have apart := (plain _ planned).2.2 claimId
      simp [supersedes, named] at apart
  · constructor
    · intro other told
      obtain ⟨event, impossible, _⟩ := told
      cases impossible
    · intro other told
      obtain ⟨event, same, _, old⟩ := told
      cases same
      have equal : claimId = other := named.symm.trans old
      rw [← equal]
      exact recorded

/-- The claims of the two sessions are told apart, either way round. -/
theorem Apart.claims_other {ends : SessionEnds} {journal : Journal} (apart : ends.Apart journal)
    (side : Side) {claimId : String}
    (own : claimId ∈ (ends.claims side journal).map ClaimRecordedV2.claimId) :
    claimId ∉ (ends.claims side.other journal).map ClaimRecordedV2.claimId := by
  cases side with
  | left => exact apart.claims claimId own
  | right => exact fun other => apart.claims claimId other own

/-- The transcripts of the two sessions are told apart, either way round. -/
theorem Apart.documents_other {ends : SessionEnds} {journal : Journal} (apart : ends.Apart journal)
    (side : Side) {own other : MarkdownDocument} (ownParsed : ends.document side = .ok own)
    (otherParsed : ends.document side.other = .ok other) :
    own.sourceId ≠ other.sourceId ∧ own.bodyHashHex ≠ other.bodyHashHex := by
  have sources : own.sourceId ≠ other.sourceId := by
    cases side with
    | left => exact apart.sources own other ownParsed otherParsed
    | right => exact (apart.sources other own otherParsed ownParsed).symm
  refine ⟨sources, ?_⟩
  intro bodies
  obtain ⟨ownId, ownDerived, ownSource⟩ := document_source ownParsed
  obtain ⟨otherId, otherDerived, otherSource⟩ := document_source otherParsed
  rw [bodies, otherDerived] at ownDerived
  rw [ownSource, otherSource, Except.ok.inj ownDerived] at sources
  exact sources rfl

/-- A candidate of a session end is one of its claims. -/
theorem claimed_of_candidate {ends : SessionEnds} {side : Side} {journal : Journal}
    {new : ReplacementCandidate} (candidate : new ∈ ends.candidates side journal) :
    new.claimId.value ∈ (ends.claims side journal).map ClaimRecordedV2.claimId := by
  obtain ⟨claim, listed, parsed⟩ := List.mem_filterMap.mp candidate
  unfold candidateOf at parsed
  cases result : claimIdOf claim.claimId with
  | error error => simp [result, Except.map, Except.toOption] at parsed
  | ok own =>
    simp only [result, Except.map, Except.toOption, Option.some.injEq] at parsed
    refine List.mem_map.mpr ⟨claim, listed, ?_⟩
    rw [← parsed]
    exact (claimIdOf_value result).symm

/-- What appended events of one session end leave of the other's plan: the journal stays sound,
the other plans the same, and none of its claims is recorded. -/
theorem after_events {ends : SessionEnds} {side : Side} {journal : Journal}
    (conforming : journal.Conforming) (grounded : Grounded journal ends.workspaceId)
    (apart : ends.Apart journal) {payloads : List Payload}
    (members : ∀ payload ∈ payloads, payload ∈ ends.events side journal) {env : OpEnv}
    (appended : OpEnv.appendAll { workspaceId := ends.workspaceId, journal := journal } payloads =
      .ok env) :
    env.journal.Conforming ∧ Grounded env.journal ends.workspaceId ∧
      ends.base side.other env.journal = ends.base side.other journal ∧
      ∀ new ∈ ends.candidates side.other journal,
        Recorded (workspaceRows env.journal ends.workspaceId) new.claimId.value ↔
          Recorded (workspaceRows journal ends.workspaceId) new.claimId.value := by
  have still := (OpEnv.appendAll_spec appended conforming).2.2.1
  have kept : Grounded env.journal ends.workspaceId :=
    Grounded.appendAll appended conforming grounded fun payload member =>
      ends.events_groundable side conforming grounded (members payload member)
  refine ⟨still, kept, ?_, ?_⟩
  · have opened := ends.openView_eq side.other
    unfold base
    rcases opened env.journal with ⟨error, failed⟩ | after
    · rw [failed env.journal, failed journal]
    · rcases opened journal with ⟨error, failed⟩ | before
      · rw [failed env.journal, failed journal]
      · rw [after, before]
        simp only [bind, Except.bind]
        rw [ends.planTranscript_congr side.other]
        intro document parsed
        have rows : ∀ row ∈ workspaceRows env.journal ends.workspaceId, Conforms row :=
          fun row member => still row (Journal.mem_region.mp member).1
        have start : ∀ row ∈ workspaceRows journal ends.workspaceId, Conforms row :=
          fun row member => conforming row (Journal.mem_region.mp member).1
        have owned := apart.owned side.other document parsed
        obtain ⟨ownedAfter, observed⟩ := observed_appendAll appended (by
          intro payload member event same
          have based : Payload.sourceObserved event ∈ ends.base side journal := by
            rcases ends.events_member side conforming grounded (members payload member) with
              found | ⟨_, _, impossible, _⟩
            · rw [← same]
              exact found
            · rw [same] at impossible
              cases impossible
          obtain ⟨own, ownParsed, source, body⟩ :=
            ends.base_observed side conforming grounded based
          rw [source, body]
          exact apart.documents_other side ownParsed parsed) owned
        unfold viewOf
        rw [shown_iff_observed rows ownedAfter, shown_iff_observed start owned]
        exact observed
  · intro new candidate
    obtain ⟨_, _, _, notes⟩ := OpEnv.appendAll_spec appended conforming
    rw [recorded_iff_notes still, recorded_iff_notes conforming, notes]
    constructor
    · intro told
      rcases told with before | ⟨payload, member, event, same, _, named⟩
      · exact before
      · have based : Payload.claimRecorded event ∈ ends.base side journal := by
          rcases ends.events_member side conforming grounded (members payload member) with
            found | ⟨_, _, impossible, _⟩
          · rw [← same]
            exact found
          · rw [same] at impossible
            cases impossible
        have own : event.claimId ∈ (ends.claims side journal).map ClaimRecordedV2.claimId :=
          List.mem_map.mpr ⟨event, List.mem_filterMap.mpr ⟨_, based, rfl⟩, rfl⟩
        rw [named] at own
        exact absurd (claimed_of_candidate candidate) (apart.claims_other side own)
    · exact Or.inl

/-- The replacement by which a session end that looks at a journal retires a claim, with claims
of the other known on top. -/
def retires (ends : SessionEnds) (side : Side) (journal : Journal) (known : List ClaimRecordedV2)
    (claimId : String) : Option Proposal :=
  retirement (workspaceRows journal ends.workspaceId) known (ends.candidates side journal) claimId

/-- A claim that only one of the session ends records is retired by the other. -/
def Crossed (ends : SessionEnds) (journal : Journal) (claimId : String) : Prop :=
  ∃ side : Side, ¬ Recorded (workspaceRows journal ends.workspaceId) claimId ∧
    (ends.retires side journal (ends.claims side.other journal) claimId).isSome = true

/-- The two session ends do not meet: no claim is retired by both, and at most one claim of one
is retired by the other. -/
structure Unentangled (ends : SessionEnds) (journal : Journal) : Prop where
  once : ∀ claimId, (ends.retires .left journal [] claimId).isSome = true →
    ends.retires .right journal [] claimId = none
  lone : ∀ first second, ends.Crossed journal first → ends.Crossed journal second → first = second

/-- No claim is retired by both, either way round. -/
theorem Unentangled.once_other {ends : SessionEnds} {journal : Journal}
    (unentangled : ends.Unentangled journal) (side : Side) {claimId : String}
    (retired : (ends.retires side journal [] claimId).isSome = true) :
    ends.retires side.other journal [] claimId = none := by
  cases side with
  | left => exact unentangled.once claimId retired
  | right =>
    show ends.retires .left journal [] claimId = none
    by_contra both
    have left := unentangled.once claimId (Option.isSome_iff_ne_none.mpr both)
    rw [left] at retired
    cases retired

/-- What a session end retires behind events of the other: what it retires before them, and what
they record. -/
theorem retires_after {ends : SessionEnds} {side : Side} {journal : Journal}
    (conforming : journal.Conforming) (grounded : Grounded journal ends.workspaceId)
    (apart : ends.Apart journal) (unentangled : ends.Unentangled journal) {payloads : List Payload}
    (members : ∀ payload ∈ payloads, payload ∈ ends.events side journal) {env : OpEnv}
    (appended : OpEnv.appendAll { workspaceId := ends.workspaceId, journal := journal } payloads =
      .ok env) (claimId : String) :
    ends.retires side.other env.journal [] claimId =
      ends.retires side.other journal (recordings payloads) claimId := by
  obtain ⟨_, _, based, fresh⟩ := after_events conforming grounded apart members appended
  have same : ends.candidates side.other env.journal = ends.candidates side.other journal := by
    unfold candidates claims
    rw [based]
  have kinds : ∀ payload ∈ payloads, Appendable payload := fun payload member =>
    (ends.events_kind side conforming grounded (members payload member)).1
  have here : ∀ payload ∈ payloads, InWorkspace ends.workspaceId payload := fun payload member =>
    (ends.events_kind side conforming grounded (members payload member)).2
  unfold retires
  rw [same]
  by_cases untouched : ∀ payload ∈ payloads, supersedes claimId payload = false
  · exact retirement_of_untouched appended conforming kinds here fresh untouched
  · push Not at untouched
    obtain ⟨payload, member, touched⟩ := untouched
    have retiredBy : Recorded (workspaceRows journal ends.workspaceId) claimId ∧
        (ends.retires side journal [] claimId).isSome = true := by
      rcases ends.events_member side conforming grounded (members payload member) with
        based | ⟨made, old, rfl, named, _, recorded, retired⟩
      · exact absurd (((ends.base_spec side conforming grounded).1 payload based).2.2 claimId)
          touched
      · have equal : old = claimId := by
          have decided := (Bool.not_eq_false _).mp touched
          rw [← named]
          exact of_decide_eq_true decided
        rw [← equal]
        exact ⟨recorded, by rw [retires, retired]; rfl⟩
    obtain ⟨recorded, retired⟩ := retiredBy
    have never := unentangled.once_other side retired
    unfold retires at never
    rw [retirement_recorded recorded, never]
    by_contra again
    obtain ⟨made, found⟩ := Option.ne_none_iff_exists'.mp again
    have earlier := retirement_of_later appended conforming kinds here fresh recorded found
    rw [never] at earlier
    cases earlier

/-- Behind part of the other's events a session end retires what it retires behind all of them,
or what it retires before them, and then the other retires nothing of its claims either. -/
theorem retires_either {ends : SessionEnds} {side : Side} {journal : Journal}
    (apart : ends.Apart journal) (unentangled : ends.Unentangled journal)
    {early later : List ClaimRecordedV2} (whole : ends.claims side journal = early ++ later) :
    (∀ claimId, ends.retires side.other journal early claimId =
        ends.retires side.other journal (ends.claims side journal) claimId) ∨
      ((∀ claimId, ends.retires side.other journal early claimId =
          ends.retires side.other journal [] claimId) ∧
        ∀ claimId, ends.retires side journal (ends.claims side.other journal) claimId =
          ends.retires side journal [] claimId) := by
  have back : side.other.other = side := by cases side <;> rfl
  have known : ∀ each claims claimId, ¬ Recorded (workspaceRows journal ends.workspaceId) claimId →
      (ends.retires each journal claims claimId).isSome = true →
      claimId ∈ claims.map ClaimRecordedV2.claimId := by
    intro each claims claimId unrecorded retired
    by_contra unknown
    unfold retires at retired
    rw [retirement_unknown unrecorded unknown] at retired
    cases retired
  have crossing : ∀ claimId, ¬ Recorded (workspaceRows journal ends.workspaceId) claimId →
      (ends.retires side.other journal (ends.claims side journal) claimId).isSome = true →
      ends.Crossed journal claimId := by
    intro claimId unrecorded retired
    exact ⟨side.other, unrecorded, by rw [back]; exact retired⟩
  have nothing : ∀ each claimId, ¬ Recorded (workspaceRows journal ends.workspaceId) claimId →
      ends.retires each journal [] claimId = none := by
    intro each claimId unrecorded
    exact retirement_unknown unrecorded (by simp) _
  by_cases seen : ∀ claimId, ¬ Recorded (workspaceRows journal ends.workspaceId) claimId →
      (ends.retires side.other journal (ends.claims side journal) claimId).isSome = true →
      claimId ∈ early.map ClaimRecordedV2.claimId
  · left
    intro claimId
    by_cases recorded : Recorded (workspaceRows journal ends.workspaceId) claimId
    · unfold retires
      rw [retirement_recorded recorded early,
        retirement_recorded recorded (ends.claims side journal)]
    · by_cases early' : claimId ∈ early.map ClaimRecordedV2.claimId
      · unfold retires
        rw [whole, retirement_early early']
      · have none : ends.retires side.other journal early claimId = none :=
          retirement_unknown recorded early' _
        rw [none]
        by_contra retired
        exact early' (seen claimId recorded (Option.isSome_iff_ne_none.mpr (Ne.symm retired)))
  · right
    push Not at seen
    obtain ⟨lone, unrecorded, retired, late⟩ := seen
    have only := crossing lone unrecorded retired
    constructor
    · intro claimId
      by_cases recorded : Recorded (workspaceRows journal ends.workspaceId) claimId
      · exact retirement_recorded recorded _ _
      · rw [nothing _ _ recorded]
        by_contra nonempty
        have found := Option.isSome_iff_ne_none.mpr nonempty
        have early' := known _ _ _ recorded found
        have all : (ends.retires side.other journal (ends.claims side journal) claimId).isSome =
            true := by
          unfold retires at found ⊢
          rw [whole, retirement_early early']
          exact found
        have same := unentangled.lone _ _ (crossing claimId recorded all) only
        rw [same] at early'
        exact late early'
    · intro claimId
      by_cases recorded : Recorded (workspaceRows journal ends.workspaceId) claimId
      · exact retirement_recorded recorded _ _
      · rw [nothing _ _ recorded]
        by_contra nonempty
        have found := Option.isSome_iff_ne_none.mpr nonempty
        have same := unentangled.lone _ _ ⟨side, recorded, found⟩ only
        have otherClaim := known _ _ _ recorded found
        have ownClaim := known _ _ _ unrecorded retired
        rw [same] at otherClaim
        exact apart.claims_other side ownClaim otherClaim

end SessionEnds

end

end Texo.Ingest
