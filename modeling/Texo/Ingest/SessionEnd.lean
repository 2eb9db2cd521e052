import Texo.Ingest.Retry
import Texo.Ops.Grounded
import Texo.Sessions.Turns

/-! # Ending a session

Session end writes the user turns of a session to a transcript file and plans that file like an
ingest does. It draws the explicit replacements on the view from before its appends, and it
draws them whatever the semantics switch says.
-/
namespace Texo.Ingest
open Texo.Events Texo.Extract Texo.Knowledge Texo.Store Texo.Claims Texo.Semantics Texo.Ops
  Texo.Foundation Texo.Sessions

/-- Input of one session end. -/
structure AgentSessionEndInput where
  sessionId : String
  observedAtMs : Nat
deriving DecidableEq, Repr

/-- What a session end needs from outside the program: the workspace root, whether the
transcript file could be written, the extractor command and the row encoder. -/
structure SessionWorld where
  root : String
  written : Except String Unit
  runExtractor : String → String → ExtractorRun
  rowsJson : List SourceSkipRow → String

/-- The operation name of a session end. -/
def sessionEndOp : String := "texo.agent.session.end"

/-- `SESSIONS_DIR`. -/
def sessionsDir : String := "sessions"

/-- `session_doc_path`. -/
def sessionDocPath (root sessionId : String) : String :=
  root ++ "/" ++ sessionsDir ++ "/" ++ sessionId ++ ".md"

/-- The transcript file of a session as it is discovered below an input path. -/
def SessionWorld.transcript (world : SessionWorld) (inputPath sessionId : String)
    (turns : List TurnEntry) : SourceWorld where
  inputPath := inputPath
  discovery := .ok
    { files := [⟨sessionDocPath world.root sessionId, sessionsDir ++ "/" ++ sessionId ++ ".md",
        .text (renderTranscript sessionId turns false)⟩] }
  runExtractor := world.runExtractor
  rowsJson := world.rowsJson

/-- What a session end has prepared before it appends. -/
structure SessionEndContext where
  docPath : String
  plan : SourcePlan
  claimCount : Nat
  supersessions : ExplicitSupersessionOutcome
deriving DecidableEq

/-- The events a prepared session end appends, in order. -/
def SessionEndContext.events (context : SessionEndContext) : List Payload :=
  context.plan.events ++ context.supersessions.applied.map .claimSuperseded

section
variable [Blake3]

/-- `prepare_session_end`. -/
def prepareSessionEnd (config : WorkspaceConfig) (world : SessionWorld) (workspaceId : String)
    (turnStore : List TurnEntry) (input : AgentSessionEndInput) (journal : Journal) :
    Except TexoError SessionEndContext :=
  let turns := readSessionTurns turnStore input.sessionId
  let docPath := sessionDocPath world.root input.sessionId
  if turns.isEmpty then
    .error (.missingEntity (entityForSession input.sessionId))
  else
    match world.written with
    | .error detail => .error (.io detail)
    | .ok () => do
      let view ← assembleCurrentView (readable journal) workspaceId
      let plan ← planSources sessionEndOp config (world.transcript docPath input.sessionId turns)
        workspaceId input.observedAtMs view
      require (plan.skipped = [])
        (.source docPath "generated session transcript could not be planned")
      let temporal ← workspaceTemporalPolicy (readable journal) workspaceId view
      let supersessions ← inferSupersessions view plan.newClaims input.observedAtMs temporal
      .ok
        { docPath := docPath
          plan := plan
          claimCount := plan.newClaims.length
          supersessions := supersessions }

/-- `append_session_ingest`, in a store that accepts `fuse` appends. -/
def appendSessionIngest (fuse : Nat) (env : OpEnv) (context : SessionEndContext) :
    Except (Failure OpEnv) (Nat × OpEnv) :=
  appendWithin fuse env context.events

/-- `agent_session_end` up to its relate pass. -/
def agentSessionEnd (fuse : Nat) (config : WorkspaceConfig) (world : SessionWorld)
    (workspaceId : String) (turnStore : List TurnEntry) (input : AgentSessionEndInput)
    (journal : Journal) : Except (Failure Journal) (SessionEndContext × Journal) :=
  match validateSessionInput sessionEndOp input.sessionId with
  | .error error => .error ⟨error, journal⟩
  | .ok () =>
    match prepareSessionEnd config world workspaceId turnStore input journal with
    | .error error => .error ⟨error, journal⟩
    | .ok context =>
      match appendSessionIngest fuse { workspaceId := workspaceId, journal := journal } context with
      | .error failure => .error ⟨failure.error, failure.left.journal⟩
      | .ok (_, settled) => .ok (context, settled.journal)

/-- What an ingest of the files below an input path appends and holds back, where it succeeds. -/
def IngestAppends (config : WorkspaceConfig) (world : SourceWorld) (workspaceId : String)
    (strict : Bool) (observedAtMs : Nat) (journal : Journal) (events : List Payload)
    (held : List HeldExplicitSupersession) : Prop :=
  ∃ plan appended inference,
    Decides config world workspaceId observedAtMs journal plan appended inference ∧
    rejectFailedIngestPlan world plan ⟨false, strict, observedAtMs⟩ = .ok () ∧
    events = plan.events ++ inference.applied.map .claimSuperseded ∧ held = inference.held

/-- What a session end appends and holds back before its relate pass, where it succeeds. -/
def SessionEndAppends (config : WorkspaceConfig) (world : SessionWorld) (workspaceId : String)
    (turnStore : List TurnEntry) (input : AgentSessionEndInput) (journal : Journal)
    (events : List Payload) (held : List HeldExplicitSupersession) : Prop :=
  ∃ context, prepareSessionEnd config world workspaceId turnStore input journal = .ok context ∧
    events = context.events ∧ held = context.supersessions.held

/-- Payloads an ingest or a session end appends. -/
def Appendable : Payload → Prop
  | .sourceObserved _ => True
  | .claimRecorded _ => True
  | .claimSuperseded _ => True
  | _ => False

/-- The policy refuses none of them. -/
theorem append_total {payload : Payload} (kind : Appendable payload) (env : OpEnv) :
    ∃ next, env.append payload = .ok next := by
  cases payload with
  | sourceObserved event => exact ⟨_, rfl⟩
  | claimRecorded event => exact ⟨_, rfl⟩
  | claimSuperseded event => exact ⟨_, rfl⟩
  | _ => exact kind.elim

/-- The run law of appends that are never refused. -/
theorem appendAll_total {payloads : List Payload} (kinds : ∀ payload ∈ payloads, Appendable payload)
    (env : OpEnv) : ∃ next, env.appendAll payloads = .ok next :=
  foldlM_total (fun state payload member => append_total (kinds payload member) state) env

/-- With room in the store a run of appends does all of them. -/
theorem appendWithin_room {fuse : Nat} {env next : OpEnv} {payloads : List Payload}
    (room : payloads.length ≤ fuse) (appended : env.appendAll payloads = .ok next) :
    appendWithin fuse env payloads = .ok (fuse - payloads.length, next) := by
  induction payloads generalizing fuse env with
  | nil =>
    have same : env = next := Except.ok.inj appended
    simp [appendWithin, same]
  | cons payload rest ih =>
    rw [OpEnv.appendAll, List.foldlM_cons] at appended
    obtain ⟨middle, first, later⟩ := bind_eq_ok.mp appended
    cases fuse with
    | zero => simp at room
    | succ fuse =>
      have more : rest.length ≤ fuse := by simpa using room
      simp only [appendWithin, first, ih more later, List.length_cons, Nat.add_sub_add_right]

/-- The candidates of new claims; a claim without a claim id has none. -/
def candidatesOf (newClaims : List ClaimRecordedV2) : List ReplacementCandidate :=
  newClaims.filterMap fun claim => (candidateOf claim).toOption

omit [Blake3] in
/-- Branded claims are all candidates. -/
theorem mapM_candidateOf {newClaims : List ClaimRecordedV2} (branded : AllBranded newClaims) :
    newClaims.mapM candidateOf = .ok (candidatesOf newClaims) := by
  apply mapM_eq_filterMap
  intro claim member
  obtain ⟨own, named⟩ := branded claim member
  have parsed : claimIdOf claim.claimId = .ok own := by
    rw [claimIdOf, named, own.tryFrom_value (by decide)]
  unfold candidateOf
  rw [parsed]
  exact ⟨_, rfl⟩

/-- The claims an ingest would record for a transcript. -/
def transcriptClaims (config : WorkspaceConfig) (world : SourceWorld) (workspaceId : String)
    (observedAtMs : Nat) (journal : Journal) : List ClaimRecordedV2 :=
  (world.unobserved (viewOf workspaceId journal)).flatMap
    (offeredClaims ingestOp config world workspaceId observedAtMs)

/-- When the two ways of drawing replacements come to the same, by the rows of the workspace.
With semantics enabled an ingest draws none. Otherwise it draws them with the new claims in:
then no claim that only the new ones record may be replaced, and a new claim's evidence may
not change how its replacement is settled. -/
def SameReplacements (config : WorkspaceConfig) (rows : List Entry)
    (newClaims : List ClaimRecordedV2) : Prop :=
  if config.semanticsEnabled then
    ∀ claimId, replacementOf rows [] (candidatesOf newClaims) claimId = none
  else
    (∀ claimId, ¬ Recorded rows claimId →
      replacementOf rows newClaims (candidatesOf newClaims) claimId = none) ∧
    ∀ claimId made, replacementOf rows [] (candidatesOf newClaims) claimId = some made →
      ¬ Recorded rows made.new.claimId.value →
      holdOfOrder (compareSnapshots (orderFacts rows) (supportOf rows claimId) none) =
        holdOfOrder (evidenceOrder rows claimId made.new.claimId.value)

omit [Blake3] in
/-- A recorded claim is replaced the same whether or not the new claims are in. -/
theorem replacementOf_recorded {rows : List Entry} {claimId : String}
    (recorded : Recorded rows claimId) (newClaims : List ClaimRecordedV2)
    (candidates : List ReplacementCandidate) :
    replacementOf rows newClaims candidates claimId = replacementOf rows [] candidates claimId := by
  unfold replacementOf openClaim
  rw [if_pos (isRecorded_iff.mpr recorded), if_pos (isRecorded_iff.mpr recorded)]

omit [Blake3] in
/-- A claim that is not recorded is replaced only with the new claims in. -/
theorem replacementOf_unrecorded {rows : List Entry} {claimId : String}
    (unrecorded : ¬ Recorded rows claimId) (candidates : List ReplacementCandidate) :
    replacementOf rows [] candidates claimId = none := by
  have absent : ¬ isRecorded rows claimId = true := fun found => unrecorded (isRecorded_iff.mp found)
  unfold replacementOf openClaim
  rw [if_neg absent]
  rfl

omit [Blake3] in
/-- A replacement is about the claim it is drawn for. -/
theorem replacementOf_named {rows : List Entry} {newClaims : List ClaimRecordedV2}
    {candidates : List ReplacementCandidate} {claimId : String} {made : Proposal}
    (replaced : replacementOf rows newClaims candidates claimId = some made) :
    made.oldClaimId.value = claimId ∧ made.new ∈ candidates := by
  unfold replacementOf at replaced
  split at replaced
  · rename_i card own _ parsed
    obtain ⟨new, found, rfl⟩ := Option.map_eq_some_iff.mp replaced
    have named : claimIdOf claimId = .ok own := by rw [claimIdOf, parsed]
    exact ⟨claimIdOf_value named, List.mem_of_find?_eq_some found⟩
  · cases replaced

/-- Two policies settle a proposal the same exactly when they hold it back alike. -/
theorem settledBy_eq_iff {temporal temporal' : RelateTemporalPolicy} {observedAtMs : Nat}
    {made : Proposal} :
    settledBy temporal observedAtMs made = settledBy temporal' observedAtMs made ↔
      holdReason temporal made.oldClaimId made.new.claimId =
        holdReason temporal' made.oldClaimId made.new.claimId := by
  unfold settledBy
  cases holdReason temporal made.oldClaimId made.new.claimId <;>
    cases holdReason temporal' made.oldClaimId made.new.claimId <;> simp

/-- How the policy of a view holds back a replacement drawn on that view: a new claim the view
does not list has no evidence there. -/
theorem holdReason_current {journal : Journal} {workspaceId : String}
    (conforming : journal.Conforming) {temporal : RelateTemporalPolicy}
    (policy : workspaceTemporalPolicy (readable journal) workspaceId (viewOf workspaceId journal) =
      .ok temporal) {candidates : List ReplacementCandidate} {claimId : String} {made : Proposal}
    (replaced : replacementOf (workspaceRows journal workspaceId) [] candidates claimId =
      some made) :
    (Recorded (workspaceRows journal workspaceId) made.new.claimId.value →
      holdReason temporal made.oldClaimId made.new.claimId =
        holdOfOrder (evidenceOrder (workspaceRows journal workspaceId) claimId
          made.new.claimId.value)) ∧
    (¬ Recorded (workspaceRows journal workspaceId) made.new.claimId.value →
      holdReason temporal made.oldClaimId made.new.claimId =
        holdOfOrder (compareSnapshots (orderFacts (workspaceRows journal workspaceId))
          (supportOf (workspaceRows journal workspaceId) claimId) none)) := by
  have named := (replacementOf_named replaced).1
  have old : Recorded (workspaceRows journal workspaceId) claimId := by
    by_contra unrecorded
    rw [replacementOf_unrecorded unrecorded] at replaced
    cases replaced
  have oldListed : WorkspaceListed (viewOf workspaceId journal) claimId := by
    rw [← named] at old ⊢
    exact (listed_iff_recorded conforming (made.oldClaimId.value_ne_empty (by decide))).mpr old
  have newListed : WorkspaceListed (viewOf workspaceId journal) made.new.claimId.value ↔
      Recorded (workspaceRows journal workspaceId) made.new.claimId.value :=
    listed_iff_recorded conforming (made.new.claimId.value_ne_empty (by decide))
  unfold holdReason
  rw [workspaceTemporalPolicy_spec policy, named, if_pos oldListed]
  constructor
  · intro recorded
    rw [if_pos (newListed.mpr recorded)]
    rfl
  · intro unrecorded
    rw [if_neg fun listed => unrecorded (newListed.mp listed)]

/-- With semantics disabled, the inference on the view before the appends and the one on the
view after them come out the same exactly under the condition above. -/
theorem inferences_agree_iff {env appended : OpEnv} {plan : SourcePlan} {observedAtMs : Nat}
    (conforming : env.journal.Conforming)
    (here : ∀ claim ∈ plan.newClaims, claim.workspaceId = env.workspaceId)
    (branded : AllBranded plan.newClaims)
    (recorded : env.appendAll plan.events = .ok appended)
    {before after : RelateTemporalPolicy}
    (policyBefore : workspaceTemporalPolicy (readable env.journal) env.workspaceId
      (viewOf env.workspaceId env.journal) = .ok before)
    (policyAfter : workspaceTemporalPolicy (readable appended.journal) env.workspaceId
      (viewOf env.workspaceId appended.journal) = .ok after)
    {config : WorkspaceConfig} (disabled : config.semanticsEnabled = false) :
    inferExplicitSupersessions (viewOf env.workspaceId env.journal) (candidatesOf plan.newClaims)
        observedAtMs before =
      inferExplicitSupersessions (viewOf env.workspaceId appended.journal)
        (candidatesOf plan.newClaims) observedAtMs after ↔
      SameReplacements config (workspaceRows env.journal env.workspaceId) plan.newClaims := by
  have rows : ∀ row ∈ workspaceRows env.journal env.workspaceId, Conforms row := fun row member =>
    conforming row (Journal.mem_region.mp member).1
  have early : ∀ claimId, decision (viewOf env.workspaceId env.journal)
      (candidatesOf plan.newClaims) observedAtMs before claimId =
      (replacementOf (workspaceRows env.journal env.workspaceId) [] (candidatesOf plan.newClaims)
        claimId).map (settledBy before observedAtMs) := by
    intro claimId
    rw [decision, viewOf, decidingProposal_replay rows]
  have decided := decided_after_plan here recorded conforming policyAfter (mapM_candidateOf branded)
  have late : ∀ claimId, decision (viewOf env.workspaceId appended.journal)
      (candidatesOf plan.newClaims) observedAtMs after claimId =
      (replacementOf (workspaceRows env.journal env.workspaceId) plan.newClaims
        (candidatesOf plan.newClaims) claimId).map (settledBy after observedAtMs) := by
    intro claimId
    rw [decision, (decided claimId).1]
  have settled : ∀ claimId made, replacementOf (workspaceRows env.journal env.workspaceId) []
      (candidatesOf plan.newClaims) claimId = some made →
      (settledBy before observedAtMs made = settledBy after observedAtMs made ↔
        (¬ Recorded (workspaceRows env.journal env.workspaceId) made.new.claimId.value →
          holdOfOrder (compareSnapshots (orderFacts (workspaceRows env.journal env.workspaceId))
            (supportOf (workspaceRows env.journal env.workspaceId) claimId) none) =
          holdOfOrder (evidenceOrder (workspaceRows env.journal env.workspaceId) claimId
            made.new.claimId.value))) := by
    intro claimId made replaced
    have known : Recorded (workspaceRows env.journal env.workspaceId) claimId := by
      by_contra unrecorded
      rw [replacementOf_unrecorded unrecorded] at replaced
      cases replaced
    obtain ⟨whenRecorded, whenNew⟩ := holdReason_current conforming policyBefore replaced
    have afterHold := (decided claimId).2 made (by
      rw [(decided claimId).1, replacementOf_recorded known plan.newClaims]
      exact replaced)
    rw [settledBy_eq_iff, afterHold]
    by_cases new : Recorded (workspaceRows env.journal env.workspaceId) made.new.claimId.value
    · rw [whenRecorded new]
      exact iff_of_true rfl fun fresh => absurd new fresh
    · rw [whenNew new]
      exact ⟨fun same _ => same, fun same => same new⟩
  unfold SameReplacements
  rw [inferExplicitSupersessions_ext, disabled]
  simp only [Bool.false_eq_true, if_false]
  constructor
  · intro same
    constructor
    · intro claimId unrecorded
      have equal := same claimId
      rw [early, late, replacementOf_unrecorded unrecorded] at equal
      exact Option.map_eq_none_iff.mp equal.symm
    · intro claimId made replaced
      have known : Recorded (workspaceRows env.journal env.workspaceId) claimId := by
        by_contra unrecorded
        rw [replacementOf_unrecorded unrecorded] at replaced
        cases replaced
      have equal := same claimId
      rw [early, late, replacementOf_recorded known plan.newClaims, replaced] at equal
      exact (settled claimId made replaced).mp (Option.some.inj equal)
  · rintro ⟨alone, evidence⟩ claimId
    rw [early, late]
    by_cases known : Recorded (workspaceRows env.journal env.workspaceId) claimId
    · rw [replacementOf_recorded known plan.newClaims]
      cases replaced : replacementOf (workspaceRows env.journal env.workspaceId) []
          (candidatesOf plan.newClaims) claimId with
      | none => rfl
      | some made =>
        exact congrArg some ((settled claimId made replaced).mpr (evidence claimId made replaced))
    · rw [replacementOf_unrecorded known, alone claimId known]
      rfl

/-- With semantics enabled, the inference on the view before the appends is the empty one of an
ingest exactly under the condition above. -/
theorem inference_empty_iff {journal : Journal} {workspaceId : String} {observedAtMs : Nat}
    (conforming : journal.Conforming) {newClaims : List ClaimRecordedV2}
    {temporal : RelateTemporalPolicy} {config : WorkspaceConfig}
    (enabled : config.semanticsEnabled = true) :
    inferExplicitSupersessions (viewOf workspaceId journal) (candidatesOf newClaims) observedAtMs
        temporal = ⟨[], []⟩ ↔
      SameReplacements config (workspaceRows journal workspaceId) newClaims := by
  have rows : ∀ row ∈ workspaceRows journal workspaceId, Conforms row := fun row member =>
    conforming row (Journal.mem_region.mp member).1
  have nothing : inferExplicitSupersessions (viewOf workspaceId journal) [] observedAtMs temporal =
      ⟨[], []⟩ := rfl
  unfold SameReplacements
  rw [← nothing, inferExplicitSupersessions_ext, enabled, if_pos rfl]
  refine forall_congr' fun claimId => ?_
  have empty : decision (viewOf workspaceId journal) [] observedAtMs temporal claimId = none := rfl
  rw [empty, decision, viewOf, decidingProposal_replay rows]
  exact Option.map_eq_none_iff

/-- The transcript is planned the same from the file and from the directory above it. -/
theorem planSources_transcript (op : String) (config : WorkspaceConfig) (world : SessionWorld)
    (inputPath inputPath' workspaceId sessionId : String) (turns : List TurnEntry)
    (observedAtMs : Nat) (view : WorkspaceView) :
    planSources op config (world.transcript inputPath sessionId turns) workspaceId observedAtMs view =
      planSources op config (world.transcript inputPath' sessionId turns) workspaceId observedAtMs
        view := rfl

/-- Session end plans the transcript as an ingest of the directory does. -/
theorem plan_sessionEnd {config : WorkspaceConfig} {world : SessionWorld}
    (inputPath inputPath' : String) {workspaceId sessionId : String} {turns : List TurnEntry}
    {observedAtMs : Nat} {journal : Journal} {plan : SourcePlan} :
    planSources sessionEndOp config (world.transcript inputPath sessionId turns) workspaceId
        observedAtMs (viewOf workspaceId journal) = .ok plan ↔
      planOn config (world.transcript inputPath' sessionId turns) workspaceId observedAtMs journal =
        .ok plan := by
  have same := planSources_toOption sessionEndOp ingestOp config
    (world.transcript inputPath sessionId turns) workspaceId observedAtMs (viewOf workspaceId journal)
  rw [planSources_transcript ingestOp config world inputPath inputPath'] at same
  unfold planOn
  cases left : planSources sessionEndOp config (world.transcript inputPath sessionId turns)
      workspaceId observedAtMs (viewOf workspaceId journal) <;>
    cases right : planSources ingestOp config (world.transcript inputPath' sessionId turns)
      workspaceId observedAtMs (viewOf workspaceId journal)
  · simp
  · simp [left, right, Except.toOption] at same
  · simp [left, right, Except.toOption] at same
  · have equal : _ = _ := Option.some.inj (by simpa [left, right, Except.toOption] using same)
    rw [equal]

/-- A transcript is planned unless its one file is skipped, and then nothing is planned. -/
theorem plan_transcript {config : WorkspaceConfig} {world : SessionWorld}
    {inputPath workspaceId sessionId : String} {turns : List TurnEntry} {observedAtMs : Nat}
    {journal : Journal} {plan : SourcePlan}
    (planned : planOn config (world.transcript inputPath sessionId turns) workspaceId observedAtMs
      journal = .ok plan) :
    plan.skipped = [] ∨
      (plan.skipped ≠ [] ∧ plan.succeeded = 0 ∧ plan.empty = false ∧ plan.sources = []) := by
  unfold planOn planSources SessionWorld.transcript at planned
  simp only [List.foldlM_cons, List.foldlM_nil] at planned
  unfold planFile at planned
  simp only at planned
  cases parsed : MarkdownDocument.fromPath (sessionsDir ++ "/" ++ sessionId ++ ".md")
      (.text (renderTranscript sessionId turns false)) with
  | error error =>
    simp only [parsed, discoveryRows, bind, Except.bind, pure, Except.pure, Except.ok.injEq]
      at planned
    rw [← planned]
    exact Or.inr ⟨by simp, rfl, rfl, rfl⟩
  | ok document =>
    left
    simp only [parsed] at planned
    split at planned
    · simp only [discoveryRows, bind, Except.bind, pure, Except.pure, Except.ok.injEq] at planned
      rw [← planned]
      rfl
    · obtain ⟨planning, made, rest⟩ := bind_eq_ok.mp planned
      obtain ⟨planning', made', same⟩ := bind_eq_ok.mp made
      obtain ⟨claims, _, done⟩ := bind_eq_ok.mp made'
      rw [← Except.ok.inj rest, ← Except.ok.inj same, ← Except.ok.inj done]
      rfl

/-- A transcript that cannot be planned offers no claims. -/
theorem transcriptClaims_unplanned {config : WorkspaceConfig} {world : SessionWorld}
    {inputPath workspaceId sessionId : String} {turns : List TurnEntry} {observedAtMs : Nat}
    {journal : Journal}
    (unplanned : ∀ plan, planOn config (world.transcript inputPath sessionId turns) workspaceId
      observedAtMs journal ≠ .ok plan) :
    transcriptClaims config (world.transcript inputPath sessionId turns) workspaceId observedAtMs
      journal = [] := by
  unfold transcriptClaims SourceWorld.unobserved SourceWorld.documents SessionWorld.transcript
  unfold planOn planSources SessionWorld.transcript at unplanned
  simp only [List.foldlM_cons, List.foldlM_nil] at unplanned
  simp only [distinctDocuments]
  unfold planFile at unplanned
  simp only at unplanned
  cases parsed : MarkdownDocument.fromPath (sessionsDir ++ "/" ++ sessionId ++ ".md")
      (.text (renderTranscript sessionId turns false)) with
  | error error => rfl
  | ok document =>
    simp only [parsed] at unplanned
    simp only [List.not_mem_nil, if_false, List.filter_cons, List.filter_nil]
    by_cases known : document.bodyHashHex ∈ existingHashes (viewOf workspaceId journal)
    · rw [if_neg (by simpa using known)]
      rfl
    · rw [if_pos (by simpa using known)]
      simp only [List.flatMap_cons, List.flatMap_nil, List.append_nil, offeredClaims]
      split
      · rfl
      · rename_i claims extracted
        exfalso
        rw [if_neg (by simpa using known)] at unplanned
        simp only [extracted, bind, Except.bind] at unplanned
        exact unplanned _ rfl

omit [Blake3] in
/-- Without new claims the two ways come to the same. -/
theorem sameReplacements_nil (config : WorkspaceConfig) (rows : List Entry) :
    SameReplacements config rows [] := by
  have none : ∀ newClaims claimId, replacementOf rows newClaims (candidatesOf []) claimId = none := by
    intro newClaims claimId
    unfold replacementOf
    split
    · rfl
    · rfl
  unfold SameReplacements
  split
  · exact none []
  · refine ⟨fun claimId _ => none [] claimId, ?_⟩
    intro claimId made replaced
    rw [none] at replaced
    cases replaced

/-- What a session end appends, where its transcript is planned. -/
theorem sessionEndAppends_iff {config : WorkspaceConfig} {world : SessionWorld}
    {workspaceId : String} {turnStore : List TurnEntry} {input : AgentSessionEndInput}
    {journal : Journal} (spoken : readSessionTurns turnStore input.sessionId ≠ [])
    (written : world.written = .ok ()) {inputPath : String} {plan : SourcePlan}
    (planned : planOn config (world.transcript inputPath input.sessionId
      (readSessionTurns turnStore input.sessionId)) workspaceId input.observedAtMs journal = .ok plan)
    (clean : plan.skipped = []) {temporal : RelateTemporalPolicy}
    (policy : workspaceTemporalPolicy (readable journal) workspaceId (viewOf workspaceId journal) =
      .ok temporal) (events : List Payload) (held : List HeldExplicitSupersession) :
    SessionEndAppends config world workspaceId turnStore input journal events held ↔
      events = plan.events ++ (inferExplicitSupersessions (viewOf workspaceId journal)
        (candidatesOf plan.newClaims) input.observedAtMs temporal).applied.map .claimSuperseded ∧
      held = (inferExplicitSupersessions (viewOf workspaceId journal)
        (candidatesOf plan.newClaims) input.observedAtMs temporal).held := by
  have filled : (readSessionTurns turnStore input.sessionId).isEmpty = false := by
    simpa using spoken
  have plans := (plan_sessionEnd (sessionDocPath world.root input.sessionId) inputPath).mpr planned
  have branded : AllBranded plan.newClaims := newClaims_branded planned
  have prepared : prepareSessionEnd config world workspaceId turnStore input journal = .ok
      { docPath := sessionDocPath world.root input.sessionId
        plan := plan
        claimCount := plan.newClaims.length
        supersessions := inferExplicitSupersessions (viewOf workspaceId journal)
          (candidatesOf plan.newClaims) input.observedAtMs temporal } := by
    unfold prepareSessionEnd
    simp only [filled, written, assembleCurrentView_readable, plans, clean, policy,
      inferSupersessions, mapM_candidateOf branded, bind, Except.bind, Except.map, require,
      Bool.false_eq_true, if_false, if_true]
  unfold SessionEndAppends
  rw [prepared]
  constructor
  · rintro ⟨context, same, own, kept⟩
    have equal := Except.ok.inj same
    subst equal
    exact ⟨own, kept⟩
  · rintro ⟨own, kept⟩
    exact ⟨_, rfl, own, kept⟩

omit [Blake3] in
/-- Planned payloads are appendable. -/
theorem appendable_events (plan : SourcePlan) : ∀ payload ∈ plan.events, Appendable payload := by
  intro payload member
  obtain ⟨source, _, inner⟩ := List.mem_flatMap.mp member
  rcases List.mem_cons.mp inner with rfl | later
  · trivial
  · obtain ⟨claim, _, rfl⟩ := List.mem_map.mp later
    trivial

/-- Planned payloads keep a journal grounded. -/
theorem groundable_events {plan : SourcePlan} (branded : AllBranded plan.newClaims)
    (journal : Journal) (workspaceId : String) :
    ∀ payload ∈ plan.events, Groundable journal workspaceId payload := by
  intro payload member
  obtain ⟨source, planned, inner⟩ := List.mem_flatMap.mp member
  constructor
  · intro claimId told
    obtain ⟨event, rfl, _, rfl⟩ := told
    rcases List.mem_cons.mp inner with impossible | later
    · cases impossible
    · obtain ⟨claim, held, same⟩ := List.mem_map.mp later
      cases same
      exact branded event (List.mem_flatMap.mpr ⟨source, planned, held⟩)
  · intro claimId told
    obtain ⟨event, rfl, _⟩ := told
    rcases List.mem_cons.mp inner with impossible | later
    · cases impossible
    · obtain ⟨claim, _, same⟩ := List.mem_map.mp later
      cases same

/-- What an ingest appends, where the files below its path are planned and none is skipped. -/
theorem ingestAppends_iff {config : WorkspaceConfig} {world : SourceWorld} {workspaceId : String}
    {strict : Bool} {observedAtMs : Nat} {journal : Journal} {plan : SourcePlan}
    (planned : planOn config world workspaceId observedAtMs journal = .ok plan)
    (clean : plan.skipped = []) {appended : OpEnv}
    (recorded : OpEnv.appendAll { workspaceId := workspaceId, journal := journal } plan.events =
      .ok appended) {inference : ExplicitSupersessionOutcome}
    (inferred : inferIngestSupersessions config appended.journal workspaceId plan
      (viewOf workspaceId appended.journal) observedAtMs = .ok inference)
    (events : List Payload) (held : List HeldExplicitSupersession) :
    IngestAppends config world workspaceId strict observedAtMs journal events held ↔
      events = plan.events ++ inference.applied.map .claimSuperseded ∧ held = inference.held := by
  have tolerated : rejectFailedIngestPlan world plan ⟨false, strict, observedAtMs⟩ = .ok () := by
    simp [rejectFailedIngestPlan, clean]
  constructor
  · intro ⟨plan', appended', inference', decides, _, own, kept⟩
    obtain ⟨planned', recorded', inferred'⟩ := decides
    have samePlan := Except.ok.inj (planned.symm.trans planned')
    subst samePlan
    have sameEnv := Except.ok.inj (recorded.symm.trans recorded')
    subst sameEnv
    have sameInference := Except.ok.inj (inferred.symm.trans inferred')
    subst sameInference
    exact ⟨own, kept⟩
  · intro ⟨own, kept⟩
    exact ⟨plan, appended, inference, ⟨planned, recorded, inferred⟩, tolerated, own, kept⟩

omit [Blake3] in
/-- Two outcomes behind one plan append and hold back the same exactly when they are equal. -/
theorem appends_eq_iff (plan : SourcePlan) (left right : ExplicitSupersessionOutcome) :
    (∀ (events : List Payload) (held : List HeldExplicitSupersession),
      (events = plan.events ++ left.applied.map .claimSuperseded ∧ held = left.held) ↔
        (events = plan.events ++ right.applied.map .claimSuperseded ∧ held = right.held)) ↔
      left = right := by
  constructor
  · intro same
    obtain ⟨events, held⟩ := (same _ _).mp ⟨rfl, rfl⟩
    have injective : Function.Injective Payload.claimSuperseded := by
      intro first second equal
      cases equal
      rfl
    have applied : left.applied = right.applied :=
      List.map_injective_iff.mpr injective (List.append_cancel_left events)
    cases left
    cases right
    cases applied
    cases held
    rfl
  · intro same events held
    rw [same]

/-- A session end without a planned transcript appends nothing. -/
theorem sessionEnd_unplanned {config : WorkspaceConfig} {world : SessionWorld}
    {workspaceId : String} {turnStore : List TurnEntry} {input : AgentSessionEndInput}
    {journal : Journal} (inputPath : String)
    (unplanned : ∀ plan, planOn config (world.transcript inputPath input.sessionId
      (readSessionTurns turnStore input.sessionId)) workspaceId input.observedAtMs journal =
      .ok plan → plan.skipped ≠ [])
    {events : List Payload} {held : List HeldExplicitSupersession} :
    ¬ SessionEndAppends config world workspaceId turnStore input journal events held := by
  intro ⟨context, prepared, _⟩
  unfold prepareSessionEnd at prepared
  simp only [assembleCurrentView_readable] at prepared
  split at prepared
  · cases prepared
  · split at prepared
    · cases prepared
    · obtain ⟨view, same, prepared⟩ := bind_eq_ok.mp prepared
      obtain ⟨plan, planned, prepared⟩ := bind_eq_ok.mp prepared
      obtain ⟨_, clean, _⟩ := bind_eq_ok.mp prepared
      rw [← Except.ok.inj same] at planned
      exact unplanned plan ((plan_sessionEnd _ inputPath).mp planned) (require_eq_ok.mp clean)

/-- A session end appends before its relate pass, and holds back, what an ingest of the directory
with the transcript does, exactly where the replacements drawn before the appends are those drawn
after them. -/
theorem session_end_matches_ingest_iff {config : WorkspaceConfig} {world : SessionWorld}
    {workspaceId : String} {turnStore : List TurnEntry} {input : AgentSessionEndInput}
    {journal : Journal} (directory : String) (strict : Bool) (conforming : journal.Conforming)
    (grounded : Grounded journal workspaceId)
    (spoken : readSessionTurns turnStore input.sessionId ≠ []) (written : world.written = .ok ()) :
    (∀ events held,
      SessionEndAppends config world workspaceId turnStore input journal events held ↔
        IngestAppends config (world.transcript directory input.sessionId
          (readSessionTurns turnStore input.sessionId)) workspaceId strict input.observedAtMs journal
          events held) ↔
      SameReplacements config (workspaceRows journal workspaceId)
        (transcriptClaims config (world.transcript directory input.sessionId
          (readSessionTurns turnStore input.sessionId)) workspaceId input.observedAtMs journal) := by
  cases result : planOn config (world.transcript directory input.sessionId
      (readSessionTurns turnStore input.sessionId)) workspaceId input.observedAtMs journal with
  | error error =>
    have unplanned : ∀ plan, planOn config (world.transcript directory input.sessionId
        (readSessionTurns turnStore input.sessionId)) workspaceId input.observedAtMs journal ≠
        .ok plan := by
      intro plan planned
      rw [result] at planned
      cases planned
    rw [transcriptClaims_unplanned unplanned]
    refine iff_of_true (fun events held => iff_of_false ?_ ?_) (sameReplacements_nil _ _)
    · exact sessionEnd_unplanned directory fun plan planned => absurd planned (unplanned plan)
    · rintro ⟨plan, _, _, decides, _⟩
      exact unplanned plan decides.planned
  | ok plan =>
    have claims : transcriptClaims config (world.transcript directory input.sessionId
        (readSessionTurns turnStore input.sessionId)) workspaceId input.observedAtMs journal =
        plan.newClaims := (newClaims_ids result).2.2.symm
    rw [claims]
    rcases plan_transcript result with clean | ⟨skipped, failed, filled, nothing⟩
    · obtain ⟨temporal, policy⟩ :=
        workspaceTemporalPolicy_total (grounded.listed_branded conforming)
      obtain ⟨appended, recorded⟩ := appendAll_total (appendable_events plan)
        { workspaceId := workspaceId, journal := journal }
      obtain ⟨_, here, _⟩ := newClaims_ids result
      have branded := newClaims_branded result
      have still := (OpEnv.appendAll_spec recorded conforming).2.2.1
      have kept : Grounded appended.journal workspaceId :=
        Grounded.appendAll recorded conforming grounded
          (groundable_events branded journal workspaceId)
      obtain ⟨later, policyAfter⟩ := workspaceTemporalPolicy_total (kept.listed_branded still)
      cases semantics : config.semanticsEnabled with
      | true =>
        have inferred : inferIngestSupersessions config appended.journal workspaceId plan
            (viewOf workspaceId appended.journal) input.observedAtMs = .ok ⟨[], []⟩ := by
          rw [inferIngestSupersessions, if_pos semantics]
        simp only [sessionEndAppends_iff spoken written result clean policy,
          ingestAppends_iff result clean recorded inferred]
        exact (appends_eq_iff plan _ ⟨[], []⟩).trans (inference_empty_iff conforming semantics)
      | false =>
        have inferred : inferIngestSupersessions config appended.journal workspaceId plan
            (viewOf workspaceId appended.journal) input.observedAtMs =
            .ok (inferExplicitSupersessions (viewOf workspaceId appended.journal)
              (candidatesOf plan.newClaims) input.observedAtMs later) := by
          rw [inferIngestSupersessions, if_neg (by simp [semantics]), policyAfter]
          simp only [inferSupersessions, mapM_candidateOf branded, bind, Except.bind, Except.map]
        simp only [sessionEndAppends_iff spoken written result clean policy,
          ingestAppends_iff result clean recorded inferred]
        rw [appends_eq_iff]
        exact inferences_agree_iff conforming here branded recorded policy policyAfter semantics
    · have none : plan.newClaims = [] := by
        rw [SourcePlan.newClaims, nothing]
        rfl
      rw [none]
      refine iff_of_true (fun events held => iff_of_false ?_ ?_) (sameReplacements_nil _ _)
      · apply sessionEnd_unplanned directory
        intro other planned
        rw [← Except.ok.inj (result.symm.trans planned)]
        exact skipped
      · rintro ⟨other, _, _, decides, tolerated, _⟩
        rw [← Except.ok.inj (result.symm.trans decides.planned)] at tolerated
        simp [rejectFailedIngestPlan, skipped, failed, filled] at tolerated

omit [Blake3] in
/-- Payloads of a plan retire nothing. -/
theorem claimSuperseded_not_mem_events (plan : SourcePlan) (event : ClaimSupersededV2) :
    Payload.claimSuperseded event ∉ plan.events := by
  intro member
  obtain ⟨source, _, inner⟩ := List.mem_flatMap.mp member
  rcases List.mem_cons.mp inner with impossible | later
  · cases impossible
  · obtain ⟨claim, _, impossible⟩ := List.mem_map.mp later
    cases impossible

/-- A claim recorded before the session. -/
def fridayClaim : ClaimRecordedV2 where
  claimId := "claim_friday"
  workspaceId := "demo"
  sourceId := "src_plan"
  sourcePath := "plan.md"
  lineStart := 1
  lineEnd := 1
  charStart := 0
  charEnd := 26
  text := "The target ships on friday"
  normalizedText := "the target ships on friday"
  subjectHint := some "target"
  predicateHint := none
  objectHint := none
  confidencePpm := 900000
  extractorKind := "extractor-cmd"
  extractorModel := ""
  promptVersion := ""
  observedAtMs := 1

/-- The journal with that claim. -/
def fridayJournal : Journal := (appendClaimRecorded Journal.empty fridayClaim).2

/-- A workspace whose extractor finds one claim in a transcript. -/
def tuesdayWorld : SessionWorld where
  root := "/w"
  written := .ok ()
  runExtractor := fun _ _ => .lines
    [.claim
      { lineStart := 3
        text := "The target now ships on tuesday"
        normalizedText := "the target now ships on tuesday"
        subjectHint := some "target"
        predicateHint := none
        objectHint := none
        confidencePpm := 900000
        charStart := none
        charEnd := none
        extractorModel := none
        promptVersion := none }]
  rowsJson := fun _ => "[]"

/-- The session's one turn. -/
def tuesdayTurns : List TurnEntry :=
  [⟨"s1", "demo", "user", "The target now ships on tuesday", 1, 5⟩]

/-- Semantics are enabled. -/
def semanticConfig : WorkspaceConfig where
  extractorCmd := some "extract"
  semantics := some ⟨true⟩

/-- The journal of the demo conforms and is grounded. -/
theorem fridayJournal_sound : fridayJournal.Conforming ∧ Grounded fridayJournal "demo" := by
  have appended : OpEnv.append { workspaceId := "demo", journal := Journal.empty }
      (.claimRecorded fridayClaim) = .ok
        { workspaceId := "demo", journal := fridayJournal,
          receipts := [(appendClaimRecorded Journal.empty fridayClaim).1.eventId] } := rfl
  refine ⟨(OpEnv.append_conforming appended Journal.conforming_empty).2, ?_⟩
  apply Grounded.append appended Journal.conforming_empty (grounded_empty "demo")
  constructor
  · intro claimId told
    obtain ⟨event, same, _, rfl⟩ := told
    cases same
    exact ⟨⟨"claim_friday", by decide⟩, rfl⟩
  · intro claimId told
    obtain ⟨event, impossible, _⟩ := told
    cases impossible

end

/-- The session that ends on the demo journal. -/
theorem session_end_matches_ingest_iff_tuesday :
    let _ := tailDigest
    (∀ events held,
      SessionEndAppends semanticConfig tuesdayWorld "demo" tuesdayTurns ⟨"s1", 9⟩ fridayJournal
          events held ↔
        IngestAppends semanticConfig (tuesdayWorld.transcript "/w/sessions" "s1"
          (readSessionTurns tuesdayTurns "s1")) "demo" true 9 fridayJournal events held) ↔
      SameReplacements semanticConfig (workspaceRows fridayJournal "demo")
        (transcriptClaims semanticConfig (tuesdayWorld.transcript "/w/sessions" "s1"
          (readSessionTurns tuesdayTurns "s1")) "demo" 9 fridayJournal) := by
  intro digest
  exact session_end_matches_ingest_iff "/w/sessions" true fridayJournal_sound.1
    fridayJournal_sound.2 (by decide) rfl

/-- With semantics enabled an ingest leaves supersession to the relate pass, and a session end
does not: it retires the claim its transcript replaces. -/
theorem session_end_retires_despite_semantics :
    let _ := tailDigest
    ¬ ∀ events held,
      SessionEndAppends semanticConfig tuesdayWorld "demo" tuesdayTurns ⟨"s1", 9⟩ fridayJournal
          events held ↔
        IngestAppends semanticConfig (tuesdayWorld.transcript "/w/sessions" "s1"
          (readSessionTurns tuesdayTurns "s1")) "demo" true 9 fridayJournal events held := by
  intro digest same
  have retires : ((prepareSessionEnd semanticConfig tuesdayWorld "demo" tuesdayTurns ⟨"s1", 9⟩
      fridayJournal).toOption.map fun context => context.supersessions.applied.map
        ClaimSupersededV2.oldClaimId) = some ["claim_friday"] := by decide +kernel
  obtain ⟨context, found, retired⟩ := Option.map_eq_some_iff.mp retires
  have prepared : prepareSessionEnd semanticConfig tuesdayWorld "demo" tuesdayTurns ⟨"s1", 9⟩
      fridayJournal = .ok context := by
    cases result : prepareSessionEnd semanticConfig tuesdayWorld "demo" tuesdayTurns ⟨"s1", 9⟩
        fridayJournal with
    | error error => simp [result, Except.toOption] at found
    | ok other => simpa [result, Except.toOption] using found
  obtain ⟨plan, appended, inference, decides, _, events, _⟩ :=
    (same context.events context.supersessions.held).mp ⟨context, prepared, rfl, rfl⟩
  have empty : inference = ⟨[], []⟩ := (Except.ok.inj decides.inferred).symm
  obtain ⟨event, listed, _⟩ : ∃ event ∈ context.supersessions.applied,
      event.oldClaimId = "claim_friday" := by
    have member : "claim_friday" ∈ context.supersessions.applied.map
        ClaimSupersededV2.oldClaimId := by simp [retired]
    exact List.mem_map.mp member
  have handed : Payload.claimSuperseded event ∈ context.events :=
    List.mem_append.mpr (Or.inr (List.mem_map_of_mem listed))
  rw [events, empty, List.map_nil, List.append_nil] at handed
  exact claimSuperseded_not_mem_events plan event handed

end Texo.Ingest
