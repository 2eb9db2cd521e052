import Texo.Backup.Paths
import Texo.Ops.KnowledgeSearch

/-! # Explaining and triangulating a claim

Two operations report the evidence of a claim with an answer state. Both read the claim and its
evidence from one snapshot; each derives the state by rules of its own.
-/
namespace Texo.Ops
open Texo.Events Texo.Knowledge Texo.Store Texo.Claims Texo.Foundation Texo.CodeIndex Texo.Relate

/-- State of an answer after evidence triangulation. -/
inductive AnswerState where
  | supported
  | contradicted
  | stale
  | unverified
  | incomparable
deriving DecidableEq, Repr

/-- Closed target accepted by evidence triangulation. -/
inductive TriangulationTarget where
  | claim (claimId : String)
  | path (path : String) (lineStart lineEnd : Option Nat)
  | symbol (symbol : String)
deriving DecidableEq, Repr

/-- Why an answer is not certain. -/
inductive UncertaintyReason where
  | sourceSnapshotUnavailable
  | partialCoverage
  | settlementIncomplete
  | codeIndexUnavailable
  | concurrentRevision
  | exactEvidenceUnavailable
deriving DecidableEq, Repr

/-- Output of `texo.knowledge.triangulate`. -/
structure KnowledgeTriangulateOutput where
  target : TriangulationTarget
  answerState : AnswerState
  assertions : List AgentClaimRow
  evidence : List ClaimEvidence
  structuralEvidence : List CodeOccurrence
  uncertainty : List UncertaintyReason
  coverage : KnowledgeCoverage
  settlementComplete : Bool
  snapshot : SnapshotRead

/-- One entry of a claim's timeline. -/
structure TimelineEntry where
  kind : String
  observedAtMs : Nat
  summary : String
deriving DecidableEq, Repr

/-- Output of `texo.claim.explain`. -/
structure ClaimExplainOutput where
  card : ClaimCard
  timeline : List TimelineEntry
  answerState : AnswerState
  evidence : List ClaimEvidence
  coverage : KnowledgeCoverage
  snapshot : SnapshotRead

/-- The name of the operation. -/
def triangulateOp : String := "texo.knowledge.triangulate"

/-- `MAX_TRIANGULATION_CODE_OCCURRENCES`. -/
def maxTriangulationCodeOccurrences : Nat := 200

/-- Lines that meet an inclusive range; a missing bound bounds nothing. -/
def meetsLines (first last : Nat) (lineStart lineEnd : Option Nat) : Bool :=
  (lineStart.all fun start => start ≤ last) && lineEnd.all fun stop => first ≤ stop

/-- `validate_triangulation_target`. -/
def validateTriangulationTarget : TriangulationTarget → Except TexoError Unit
  | .claim claimId => require (claimId ≠ "") (.opInput triangulateOp "claim_id must not be empty")
  | .path path lineStart lineEnd =>
    let parts := Backup.components path.toList
    let safe := path ≠ "" ∧ parts.all Backup.Component.isNormal = true
    let validRange := match lineStart, lineEnd with
      | none, none => true
      | some start, some stop => decide (0 < start ∧ start ≤ stop)
      | _, _ => false
    require (safe ∧ validRange = true) (.opInput triangulateOp
      ("path must be repository-relative and line bounds must be absent or an " ++
        "ordered one-based pair"))
  | .symbol symbol =>
    require (symbol ≠ "" ∧ symbol.utf8ByteSize ≤ 1024)
      (.opInput triangulateOp "symbol must contain between 1 and 1024 bytes")

/-- `triangulation_claim_ids`, in the order of the set. -/
def triangulationClaimIds (view : WorkspaceView) :
    TriangulationTarget → Except TexoError (List String)
  | .claim claimId =>
    if view.claims.any fun claim => claim.card.claimId = claimId then
      .ok [claimId]
    else
      .error (.missingEntity (entityForClaim claimId))
  | .path path lineStart lineEnd =>
    .ok (((view.claims.filter fun claim => claim.card.sourcePath = path &&
      meetsLines claim.card.lineStart claim.card.lineEnd lineStart lineEnd).map fun claim =>
        claim.card.claimId).dedup.insertionSort (· ≤ ·))
  | .symbol _ => .ok []

/-- `evidence_matches_target`. -/
def evidenceMatchesTarget (target : TriangulationTarget) (evidence : ClaimEvidence) : Bool :=
  match target with
  | .claim _ => true
  | .path path lineStart lineEnd =>
    evidence.occurrence.path = path && meetsLines evidence.occurrence.lineRange.1
      evidence.occurrence.lineRange.2 lineStart lineEnd
  | .symbol _ => false

/-- `code_occurrence_matches`. -/
def codeOccurrenceMatches (target : TriangulationTarget) (occurrence : CodeOccurrence) : Bool :=
  match target with
  | .claim _ => false
  | .path path lineStart lineEnd =>
    occurrence.path = path &&
      meetsLines occurrence.lineRange.1 occurrence.lineRange.2 lineStart lineEnd
  | .symbol symbol => occurrence.symbol = symbol || occurrence.displayName = symbol

/-- `answer_state_for_rows`. -/
def answerStateForRows (assertions : List AgentClaimRow) (evidence : List ClaimEvidence)
    (structuralEvidence : List CodeOccurrence) : AnswerState :=
  if evidence.any fun item => item.stance = .contradicts then
    .contradicted
  else if assertions.any fun claim => claim.status = .conflicting then
    .incomparable
  else if assertions.any fun claim => claim.status = .superseded then
    .stale
  else if (!assertions.isEmpty && evidence.any fun item => item.stance = .supports) ||
      !structuralEvidence.isEmpty then
    .supported
  else
    .unverified

/-- `answer_state_for_claim`. -/
def answerStateForClaim (status : Option ClaimStatus) (evidence : List ClaimEvidence) :
    AnswerState :=
  match status with
  | some .superseded => .stale
  | some .conflicting => .incomparable
  | some .current =>
    if evidence.any fun item => item.stance = .contradicts then .contradicted
    else if evidence.any fun item => item.stance = .supports then .supported
    else .unverified
  | none => .unverified

/-- `CodeEvidenceLookup`. -/
structure CodeEvidenceLookup where
  rows : List CodeOccurrence := []
  coverage : Option KnowledgeCoverage := none
  unavailable : Bool := false

/-- The rows of an artifact that match, cut to their bound; a cut marks the coverage. -/
def boundedCodeRows (target : TriangulationTarget) (artifact : CodeIndexArtifact) :
    CodeEvidenceLookup :=
  let rows := (artifact.occurrences.filter (codeOccurrenceMatches target)).take
    (maxTriangulationCodeOccurrences + 1)
  if maxTriangulationCodeOccurrences < rows.length then
    let known := artifact.coverage.gaps.any fun gap =>
      gap.path.isNone && gap.kind = .budgetExceeded
    { rows := rows.take maxTriangulationCodeOccurrences
      coverage := some { artifact.coverage with
        truncated := true
        gaps := artifact.coverage.gaps ++ if known then [] else [⟨none, .budgetExceeded⟩] } }
  else
    { rows := rows, coverage := some artifact.coverage }

/-- The timeline entry of an event. -/
def timelineEntry : Payload → Option TimelineEntry
  | .claimRecorded event => some ⟨"recorded", event.observedAtMs, event.claimId⟩
  | .claimSuperseded event =>
    some ⟨"superseded", event.observedAtMs, event.oldClaimId ++ " -> " ++ event.newClaimId⟩
  | _ => none

/-- `claim_timeline_through`. -/
def claimTimelineThrough (store : JournalRead) (entity : String) (frontier : Nat) :
    Except TexoError (List TimelineEntry) :=
  (((store.journal.byEntity entity).takeWhile fun entry => entry.sequence ≤ frontier).mapM
    store.readRaw).map (List.filterMap timelineEntry)

section
variable [Blake3] [ArtifactCodec]

/-- `code_evidence_for_target`. -/
def codeEvidenceForTarget (store : JournalRead) (files : CodeIndexId → Option (List UInt8))
    (workspaceId : String) (frontier : Nat) (snapshot : SnapshotRead)
    (target : TriangulationTarget) : Except TexoError CodeEvidenceLookup :=
  match snapshot.descriptor.sourceSnapshotId with
  | none => .ok { unavailable := true }
  | some sourceSnapshotId =>
    (loadCodeArtifactAt store files workspaceId frontier sourceSnapshotId).map fun loaded =>
      match loaded.artifact with
      | none => { coverage := loaded.coverage, unavailable := loaded.unavailable }
      | some artifact => boundedCodeRows target artifact

variable [EventNumbering]

/-- `triangulate_from_view`. -/
def triangulateFromView (store : JournalRead) (files : CodeIndexId → Option (List UInt8))
    (workspaceId : String) (policy : CandidatePolicy) (view : WorkspaceView)
    (snapshot : SnapshotRead) (target : TriangulationTarget) :
    Except TexoError KnowledgeTriangulateOutput := do
  let () ← validateTriangulationTarget target
  let projection ← assembleEvidenceThrough store workspaceId view.frontier
  let claimIds ← triangulationClaimIds view target
  let rows ← claimListRows store workspaceId view none
  let assertions := rows.filter fun claim => claimIds.contains claim.claimId
  let evidence := (claimIds.flatMap projection.forClaim).filter (evidenceMatchesTarget target)
  let viewed ← coverageForView store workspaceId view snapshot
  let code ← codeEvidenceForTarget store files workspaceId view.frontier snapshot target
  let merged := code.coverage.elim viewed (mergeCoverage viewed)
  let joined := if projection.incomplete then
    { merged with gaps := merged.gaps ++ [⟨none, .analysisIncomplete⟩] } else merged
  let settled ← settlementComplete store workspaceId policy view
  let symbolMissing := match target with
    | .symbol _ => code.unavailable
    | _ => false
  let uncertainty :=
    (if snapshot.descriptor.sourceSnapshotId.isNone then
      [UncertaintyReason.sourceSnapshotUnavailable] else []) ++
    (if joined.truncated || !joined.gaps.isEmpty then [.partialCoverage] else []) ++
    (if settled then [] else [.settlementIncomplete]) ++
    (if symbolMissing then [.codeIndexUnavailable] else []) ++
    (if !assertions.isEmpty && evidence.isEmpty then [.exactEvidenceUnavailable] else [])
  .ok
    { target := target
      answerState := answerStateForRows assertions evidence code.rows
      assertions := assertions
      evidence := evidence
      structuralEvidence := code.rows
      uncertainty := uncertainty
      coverage := if symbolMissing then withoutCodeIndex joined else joined
      settlementComplete := settled
      snapshot := snapshot }

/-- `knowledge_triangulate`. -/
def knowledgeTriangulate (store : JournalRead) (files : CodeIndexId → Option (List UInt8))
    (workspaceId : String) (journalId : JournalId) (policy : CandidatePolicy)
    (cache : WorkspaceCache) (requested : Option String) (target : TriangulationTarget) :
    Except TexoError KnowledgeTriangulateOutput := do
  let (view, snapshot) ← assembleSnapshotView store workspaceId journalId cache requested
  triangulateFromView store files workspaceId policy view snapshot target

omit [ArtifactCodec] in
/-- `claim_explain`. -/
def claimExplain (store : JournalRead) (workspaceId : String) (journalId : JournalId)
    (cache : WorkspaceCache) (requested : Option String) (claimId : String) :
    Except TexoError ClaimExplainOutput := do
  let (view, snapshot) ← assembleSnapshotView store workspaceId journalId cache requested
  match view.claims.find? fun claim => claim.card.claimId = claimId with
  | none => .error (.missingEntity (entityForClaim claimId))
  | some claim => do
    let timeline ← claimTimelineThrough store (entityForClaim claimId) view.frontier
    let projection ← assembleEvidenceThrough store workspaceId view.frontier
    let evidence := projection.forClaim claimId
    let coverage ← coverageForView store workspaceId view snapshot
    .ok
      { card := claim.card
        timeline := timeline
        answerState := answerStateForClaim (some claim.status) evidence
        evidence := evidence
        coverage := coverage
        snapshot := snapshot }

end

/-- The status that decides for listed claims: conflicting before superseded before current. -/
def strongestStatus (statuses : List ClaimStatus) : ClaimStatus :=
  if statuses.any fun status => status = .conflicting then .conflicting
  else if statuses.any fun status => status = .superseded then .superseded
  else .current

/-- The statuses a view shows under an id. -/
def statusesOf (view : WorkspaceView) (claimId : String) : List ClaimStatus :=
  (view.claims.filter fun claim => claim.card.claimId = claimId).map ClaimView.status

/-- Where a claim's two answers are alike: a contradicted claim is current, and a claim without
contradictions has the strongest status shown under its id. -/
def AnsweredAlike (view : WorkspaceView) (claimId : String) (evidence : List ClaimEvidence) :
    Prop :=
  ∀ claim, (view.claims.find? fun claim => claim.card.claimId = claimId) = some claim →
    if evidence.any fun item => item.stance = .contradicts then
      claim.status = .current
    else
      strongestStatus (statusesOf view claimId) = claim.status

/-- The state of rows without code: contradicted, or decided by the strongest status. -/
theorem answerStateForRows_eq {assertions : List AgentClaimRow} (listed : assertions ≠ [])
    (evidence : List ClaimEvidence) :
    answerStateForRows assertions evidence [] =
      if evidence.any fun item => item.stance = .contradicts then .contradicted
      else answerStateForClaim (some (strongestStatus (assertions.map AgentClaimRow.status)))
        evidence := by
  have nonempty : assertions.isEmpty = false := by
    cases assertions with
    | nil => exact absurd rfl listed
    | cons => rfl
  have shown (wanted : ClaimStatus) :
      ((assertions.map AgentClaimRow.status).any fun status => decide (status = wanted)) =
        assertions.any fun claim => decide (claim.status = wanted) := List.any_map
  unfold answerStateForRows strongestStatus
  rw [shown, shown]
  by_cases contradicted : (evidence.any fun item => decide (item.stance = .contradicts)) = true
  · rw [if_pos contradicted, if_pos contradicted]
  · rw [if_neg contradicted, if_neg contradicted]
    by_cases conflicting :
        (assertions.any fun claim => decide (claim.status = .conflicting)) = true
    · rw [conflicting]
      rfl
    · rw [Bool.eq_false_iff.mpr conflicting]
      by_cases superseded :
          (assertions.any fun claim => decide (claim.status = .superseded)) = true
      · rw [superseded]
        rfl
      · rw [Bool.eq_false_iff.mpr superseded, nonempty]
        show (if (true && _ || false) = true then AnswerState.supported else _) =
          if _ then _ else _
        rw [if_neg contradicted, Bool.true_and, Bool.or_false]

/-- Without contradictions the state of a claim tells its status apart from any other, unless
support tells it. -/
theorem answerStateForClaim_inj {evidence : List ClaimEvidence}
    (clear : (evidence.any fun item => decide (item.stance = .contradicts)) = false)
    (status status' : ClaimStatus) :
    answerStateForClaim (some status) evidence = answerStateForClaim (some status') evidence ↔
      status = status' := by
  unfold answerStateForClaim
  cases status <;> cases status' <;> simp only [clear] <;>
    cases evidence.any fun item => decide (item.stance = .supports) <;> decide

/-- Contradictions tell the state of a current claim from those of the others. -/
theorem answerStateForClaim_contradicted {evidence : List ClaimEvidence}
    (contradicted : (evidence.any fun item => decide (item.stance = .contradicts)) = true)
    (status : ClaimStatus) :
    answerStateForClaim (some status) evidence = .contradicted ↔ status = .current := by
  unfold answerStateForClaim
  cases status <;> simp [contradicted]

/-- The answer of a claim is the answer of the rows under its id just where they are alike. -/
theorem answerState_iff {assertions : List AgentClaimRow} (listed : assertions ≠ [])
    (evidence : List ClaimEvidence) (status : ClaimStatus) :
    answerStateForClaim (some status) evidence = answerStateForRows assertions evidence [] ↔
      if evidence.any fun item => item.stance = .contradicts then status = .current
      else strongestStatus (assertions.map AgentClaimRow.status) = status := by
  rw [answerStateForRows_eq listed]
  by_cases contradicted : (evidence.any fun item => decide (item.stance = .contradicts)) = true
  · rw [if_pos contradicted, if_pos contradicted]
    exact answerStateForClaim_contradicted contradicted status
  · rw [if_neg contradicted, if_neg contradicted,
      answerStateForClaim_inj (Bool.eq_false_iff.mpr contradicted)]
    exact eq_comm

/-- The rows listed under an id show the statuses of the view's claims under it. -/
theorem statuses_claimListRows [EventNumbering] {store : JournalRead} {workspaceId : String}
    {view : WorkspaceView} {rows : List AgentClaimRow}
    (made : claimListRows store workspaceId view none = .ok rows) (claimId : String) :
    (rows.filter fun claim => [claimId].contains claim.claimId).map AgentClaimRow.status =
      statusesOf view claimId := by
  have every : (view.claims.filter fun claim =>
      (none : Option String).all fun wanted => claim.card.subjectHint = some wanted) =
        view.claims := List.filter_true view.claims
  unfold claimListRows at made
  rw [every] at made
  apply filter_of_mapM made
  intro claim _ row shown
  obtain ⟨receipt, same⟩ := claimListRow_ok shown
  rw [← same]
  constructor
  · rfl
  · show ([claimId].contains claim.card.claimId) = decide (claim.card.claimId = claimId)
    rw [List.contains_cons, List.contains_nil, Bool.or_false]
    exact beq_eq_decide _ _

section
variable [Blake3] [ArtifactCodec]

/-- A claim has no structural evidence. -/
theorem codeEvidenceForTarget_claim {store : JournalRead}
    {files : CodeIndexId → Option (List UInt8)} {workspaceId : String} {frontier : Nat}
    {snapshot : SnapshotRead} {claimId : String} {code : CodeEvidenceLookup}
    (read : codeEvidenceForTarget store files workspaceId frontier snapshot (.claim claimId) =
      .ok code) : code.rows = [] := by
  have unmatched (artifact : CodeIndexArtifact) :
      artifact.occurrences.filter (codeOccurrenceMatches (.claim claimId)) = [] :=
    List.filter_eq_nil_iff.mpr fun _ _ => Bool.false_ne_true
  unfold codeEvidenceForTarget at read
  split at read
  · rw [← Except.ok.inj read]
  · rename_i sourceSnapshotId _
    cases loads : loadCodeArtifactAt store files workspaceId frontier sourceSnapshotId with
    | error error =>
      rw [loads] at read
      cases read
    | ok loaded =>
      rw [loads] at read
      rw [← Except.ok.inj read]
      dsimp only
      cases loaded.artifact with
      | none => rfl
      | some artifact =>
        show (boundedCodeRows (.claim claimId) artifact).rows = []
        unfold boundedCodeRows
        rw [unmatched]
        rfl

variable [EventNumbering]

/-- Triangulating a claim of the view reports its evidence and the state of its rows. -/
theorem triangulateFromView_claim {store : JournalRead}
    {files : CodeIndexId → Option (List UInt8)} {workspaceId : String} {policy : CandidatePolicy}
    {view : WorkspaceView} {snapshot : SnapshotRead} {claimId : String}
    {triangulated : KnowledgeTriangulateOutput}
    (run : triangulateFromView store files workspaceId policy view snapshot (.claim claimId) =
      .ok triangulated) :
    ∃ projection assertions,
      assembleEvidenceThrough store workspaceId view.frontier = .ok projection ∧
      triangulated.evidence = projection.forClaim claimId ∧
      assertions.map AgentClaimRow.status = statusesOf view claimId ∧
      triangulated.answerState = answerStateForRows assertions triangulated.evidence [] := by
  unfold triangulateFromView at run
  obtain ⟨_, _, run⟩ := bind_eq_ok.mp run
  obtain ⟨projection, joined, run⟩ := bind_eq_ok.mp run
  obtain ⟨claimIds, named, run⟩ := bind_eq_ok.mp run
  obtain ⟨rows, listed, run⟩ := bind_eq_ok.mp run
  obtain ⟨_, _, run⟩ := bind_eq_ok.mp run
  obtain ⟨code, found, run⟩ := bind_eq_ok.mp run
  obtain ⟨_, _, run⟩ := bind_eq_ok.mp run
  have single : claimIds = [claimId] := by
    dsimp only [triangulationClaimIds] at named
    split at named
    · exact (Except.ok.inj named).symm
    · cases named
  have every (items : List ClaimEvidence) :
      items.filter (evidenceMatchesTarget (.claim claimId)) = items := List.filter_true items
  have plain : code.rows = [] := codeEvidenceForTarget_claim found
  have reported : (([claimId].flatMap projection.forClaim).filter
      (evidenceMatchesTarget (.claim claimId))) = projection.forClaim claimId := by
    rw [every, List.flatMap_singleton]
  refine ⟨projection, _, joined, ?_, statuses_claimListRows listed claimId, ?_⟩
  · rw [← Except.ok.inj run, single]
    exact reported
  · rw [← Except.ok.inj run, single, plain]

/-- Explaining a claim and triangulating it from one snapshot report the same evidence. They report
the same answer state if and only if a contradicted claim is current, and a claim without
contradictions has the strongest status shown under its id. -/
theorem explain_triangulate_iff {store : JournalRead} {files : CodeIndexId → Option (List UInt8)}
    {workspaceId : String} {journalId : JournalId} {policy : CandidatePolicy}
    {cache : WorkspaceCache} {requested : Option String} {claimId : String}
    {explained : ClaimExplainOutput} {triangulated : KnowledgeTriangulateOutput}
    (explains : claimExplain store workspaceId journalId cache requested claimId = .ok explained)
    (triangulates : knowledgeTriangulate store files workspaceId journalId policy cache requested
      (.claim claimId) = .ok triangulated) :
    explained.evidence = triangulated.evidence ∧
      ∃ view snapshot,
        assembleSnapshotView store workspaceId journalId cache requested = .ok (view, snapshot) ∧
        (explained.answerState = triangulated.answerState ↔
          AnsweredAlike view claimId explained.evidence) := by
  unfold claimExplain at explains
  obtain ⟨⟨view, snapshot⟩, read, explains⟩ := bind_eq_ok.mp explains
  unfold knowledgeTriangulate at triangulates
  obtain ⟨again, reread, triangulates⟩ := bind_eq_ok.mp triangulates
  have same : again = (view, snapshot) := Except.ok.inj (reread.symm.trans read)
  rw [same] at triangulates
  obtain ⟨projection, assertions, joined, evidence, statuses, state⟩ :=
    triangulateFromView_claim triangulates
  cases found : view.claims.find? fun claim => decide (claim.card.claimId = claimId) with
  | none =>
    dsimp only at explains
    rw [found] at explains
    cases explains
  | some claim =>
    dsimp only at explains
    rw [found] at explains
    obtain ⟨_, _, explains⟩ := bind_eq_ok.mp explains
    obtain ⟨projection', joined', explains⟩ := bind_eq_ok.mp explains
    obtain ⟨_, _, explains⟩ := bind_eq_ok.mp explains
    have shared : projection' = projection := Except.ok.inj (joined'.symm.trans joined)
    have reported : explained.evidence = triangulated.evidence := by
      rw [← Except.ok.inj explains, shared, evidence]
    have answered : explained.answerState =
        answerStateForClaim (some claim.status) explained.evidence := by
      rw [← Except.ok.inj explains]
    have listed : assertions ≠ [] := by
      have member : claim ∈ view.claims.filter fun claim => claim.card.claimId = claimId :=
        List.mem_filter.mpr
          ⟨List.mem_of_find?_eq_some found, by simpa using List.find?_some found⟩
      intro empty
      rw [empty] at statuses
      have none : (view.claims.filter fun claim => decide (claim.card.claimId = claimId)) = [] :=
        List.map_eq_nil_iff.mp statuses.symm
      rw [none] at member
      cases member
    refine ⟨reported, view, snapshot, read, ?_⟩
    rw [answered, state, ← reported, answerState_iff listed, statuses]
    unfold AnsweredAlike
    rw [found]
    constructor
    · intro alike other first
      rw [← Option.some.inj first]
      exact alike
    · intro alike
      exact alike claim rfl

end

/-- An occurrence of the demonstration workspace. -/
def againstOccurrence : EvidenceOccurrence where
  occurrenceId := ⟨"evidence_a", Eq.refl true⟩
  snapshotId := ⟨"snapshot_0123", Eq.refl true⟩
  sourceKind := .markdown
  path := "b.md"
  byteRange := (0, 1)
  lineRange := (1, 1)
  gitBlob := none
  sourceDigestHex := String.ofList (List.replicate 64 '0')
  excerpt := "b"
  analyzerFingerprint := "none"
  analysisQuality := .lexical

/-- Two claims, and evidence against the first. -/
def contradictedEvents : List Payload :=
  [.claimRecorded (plainClaim "claim_a"), .claimRecorded (plainClaim "claim_b"),
    .evidenceOccurrenceRecorded ⟨⟨"demo", Eq.refl true⟩, againstOccurrence, 1⟩,
    .claimEvidenceLinked
      { workspaceId := ⟨"demo", Eq.refl true⟩
        claimId := ⟨"claim_a", Eq.refl true⟩
        occurrenceId := ⟨"evidence_a", Eq.refl true⟩
        stance := .contradicts
        method := .semanticPolicy
        observedAtMs := 2 }]

/-- The second claim takes the place of the first. -/
def replacedEvent : Payload :=
  let _ := numeralDigest
  .claimSuperseded
    { oldClaimId := "claim_a"
      newClaimId := "claim_b"
      workspaceId := "demo"
      reason := "replaced"
      decidedBy := "texo.ingest.run"
      observedAtMs := 3
      transition := transitionRecord claimMachine (entityForClaim "claim_a") 1 2 [] 3 }

/-- The journal after some events. -/
def journalOf (events : List Payload) : Journal :=
  let _ := numeralDigest
  match OpEnv.appendAll ⟨"demo", Journal.empty, []⟩ events with
  | .ok env => env.journal
  | .error _ => Journal.empty

/-- The explanation of the first claim after some events. -/
def explainedAfter (events : List Payload) : Except TexoError ClaimExplainOutput :=
  let _ := numeralDigest
  let _ := demoNumbering
  claimExplain (readable (journalOf events)) "demo" ⟨"canonical", Eq.refl true⟩
    { freshness := .rebuilding } none "claim_a"

/-- The triangulation of the first claim after some events. -/
def triangulatedAfter (events : List Payload) : Except TexoError KnowledgeTriangulateOutput :=
  let _ := numeralDigest
  let _ := demoNumbering
  let _ := noArtifacts
  knowledgeTriangulate (readable (journalOf events)) (fun _ => none) "demo"
    ⟨"canonical", Eq.refl true⟩ ⟨0, 0, "demo", "", "demo"⟩ { freshness := .rebuilding } none
    (.claim "claim_a")

/-- A shown field is the field of a result. -/
theorem exists_of_shown {Result Shown : Type} {run : Except TexoError Result}
    {shows : Result → Shown} {shown : Shown} (computed : run.toOption.map shows = some shown) :
    ∃ result, run = .ok result ∧ shows result = shown := by
  cases run with
  | error error => cases computed
  | ok result => exact ⟨result, rfl, Option.some.inj computed⟩

/-- While the first claim is current, both answers call it contradicted. -/
theorem explain_triangulate_current :
    ∃ explained triangulated,
      explainedAfter contradictedEvents = .ok explained ∧
        triangulatedAfter contradictedEvents = .ok triangulated ∧
        explained.evidence = triangulated.evidence ∧
        explained.answerState = triangulated.answerState ∧
        ∃ view, AnsweredAlike view "claim_a" explained.evidence := by
  obtain ⟨explained, explains, state⟩ := exists_of_shown
    (show (explainedAfter contradictedEvents).toOption.map ClaimExplainOutput.answerState =
      some .contradicted by decide +kernel)
  obtain ⟨triangulated, triangulates, other⟩ := exists_of_shown
    (show (triangulatedAfter contradictedEvents).toOption.map
      KnowledgeTriangulateOutput.answerState = some .contradicted by decide +kernel)
  have same : explained.answerState = triangulated.answerState := state.trans other.symm
  obtain ⟨evidence, view, _, _, alike⟩ := @explain_triangulate_iff numeralDigest noArtifacts
    demoNumbering _ _ _ _ _ _ _ _ _ _ explains triangulates
  exact ⟨explained, triangulated, explains, triangulates, evidence, same, view, alike.mp same⟩

/-- Once the contradicted claim is replaced, its explanation calls it stale and its triangulation
contradicted. -/
theorem replaced_answers_differ :
    ∃ explained triangulated,
      explainedAfter (contradictedEvents ++ [replacedEvent]) = .ok explained ∧
        triangulatedAfter (contradictedEvents ++ [replacedEvent]) = .ok triangulated ∧
        explained.answerState = .stale ∧ triangulated.answerState = .contradicted := by
  obtain ⟨explained, explains, state⟩ := exists_of_shown
    (show (explainedAfter (contradictedEvents ++ [replacedEvent])).toOption.map
      ClaimExplainOutput.answerState = some .stale by decide +kernel)
  obtain ⟨triangulated, triangulates, other⟩ := exists_of_shown
    (show (triangulatedAfter (contradictedEvents ++ [replacedEvent])).toOption.map
      KnowledgeTriangulateOutput.answerState = some .contradicted by decide +kernel)
  exact ⟨explained, triangulated, explains, triangulates, state, other⟩

end Texo.Ops
