import Texo.Ingest.SessionEnd
import Texo.Ops.Conflicts
import Texo.Ops.KnowledgeIndex
import Texo.Ops.Supersede
import Texo.Relate.Orderly

/-! # Runs of operations

The operations that write claims and conflicts, run one at a time on the store of one workspace.
Each may stop after any of its appends. Every store they reach is orderly.
-/
namespace Texo.Ops
open Texo.Events Texo.Store Texo.Claims Texo.Semantics Texo.Foundation Texo.Ingest Texo.Relate
  Texo.Sessions

/-- The operation a session end relates under, and what became of it. -/
inductive RelateOutcome where
  | skipped (reason : String)
  | ran (supersessions conflicts : Nat)
deriving DecidableEq, Repr

/-- What a session end reports of its ingest and its relate pass. -/
structure SessionEndReport where
  context : SessionEndContext
  relate : RelateOutcome
deriving DecidableEq

variable [Blake3] {Score : Type}

/-- `run_session_relate`, given whether the relate role is configured. -/
def runSessionRelate (fuse : Nat) (role : Except TexoError (Option (RelateWorld Score)))
    (env : OpEnv) (observedAtMs : Nat) : Except (Failure OpEnv) (RelateOutcome × OpEnv) :=
  match role with
  | .error error => .error ⟨error, env⟩
  | .ok none => .ok (.skipped "TEXO_LLM_API_KEY is not set", env)
  | .ok (some world) =>
    match runRelatePass fuse sessionEndOp world env observedAtMs {} with
    | .error failure => .error failure
    | .ok (output, related) =>
      .ok (.ran output.supersessions.length output.conflicts.length, related)

/-- `agent_session_end`, its relate pass included. -/
def agentSessionEndReport (fuse : Nat) (config : WorkspaceConfig) (world : SessionWorld)
    (role : Except TexoError (Option (RelateWorld Score))) (workspaceId : String)
    (turnStore : List TurnEntry) (input : AgentSessionEndInput) (journal : Journal) :
    Except (Failure Journal) (SessionEndReport × Journal) :=
  match validateSessionInput sessionEndOp input.sessionId with
  | .error error => .error ⟨error, journal⟩
  | .ok () =>
    match prepareSessionEnd config world workspaceId turnStore input journal with
    | .error error => .error ⟨error, journal⟩
    | .ok context =>
      match appendSessionIngest fuse { workspaceId := workspaceId, journal := journal } context with
      | .error failure => .error ⟨failure.error, failure.left.journal⟩
      | .ok (left, ingested) =>
        match runSessionRelate left role { ingested with receipts := [] } input.observedAtMs with
        | .error failure => .error ⟨failure.error, failure.left.journal⟩
        | .ok (relate, settled) => .ok (⟨context, relate⟩, settled.journal)

/-- A prepared session end is drawn on the view of the journal it is prepared on. -/
theorem prepareSessionEnd_legal {config : WorkspaceConfig} {world : SessionWorld}
    {workspaceId : String} {turnStore : List TurnEntry} {input : AgentSessionEndInput}
    {journal : Journal} {context : SessionEndContext} (orderly : Orderly journal workspaceId)
    (prepared : prepareSessionEnd config world workspaceId turnStore input journal = .ok context) :
    (∀ payload ∈ context.events, Legal journal workspaceId payload) ∧
      (context.events.filterMap closing).Nodup := by
  unfold prepareSessionEnd at prepared
  simp only at prepared
  split at prepared
  · cases prepared
  · split at prepared
    · cases prepared
    · obtain ⟨view, assembled, prepared⟩ := bind_eq_ok.mp prepared
      rw [assembleCurrentView_readable] at assembled
      have shown : viewOf workspaceId journal = view := Except.ok.inj assembled
      rw [← shown] at prepared
      obtain ⟨plan, planned, prepared⟩ := bind_eq_ok.mp prepared
      obtain ⟨_, _, prepared⟩ := bind_eq_ok.mp prepared
      obtain ⟨temporal, _, prepared⟩ := bind_eq_ok.mp prepared
      obtain ⟨supersessions, inferred, prepared⟩ := bind_eq_ok.mp prepared
      obtain ⟨observed, here⟩ := plan_here planned
      unfold inferSupersessions at inferred
      obtain ⟨candidates, drawn, inferred⟩ := bind_eq_ok.mp inferred
      have settled : inferExplicitSupersessions (viewOf workspaceId journal) candidates
          input.observedAtMs temporal = supersessions := Except.ok.inj inferred
      rw [← Except.ok.inj prepared]
      unfold SessionEndContext.events
      simp only
      rw [← settled]
      constructor
      · intro payload member
        rcases List.mem_append.mp member with planned | applied
        · exact legal_ingestPayload observed here planned
        · obtain ⟨event, retired, rfl⟩ := List.mem_map.mp applied
          exact legal_applied orderly (candidates_here drawn here) retired
      · rw [List.filterMap_append, filterMap_closing_events, List.nil_append]
        exact nodup_closing_applied _ _ _ _

/-- The relate pass of a session end keeps the workspace orderly, where it is run at all. -/
theorem runSessionRelate_orderly (fuse : Nat)
    (role : Except TexoError (Option (RelateWorld Score))) {env : OpEnv}
    (orderly : Orderly env.journal env.workspaceId) (observedAtMs : Nat) :
    Orderly (stateAfter (runSessionRelate fuse role env observedAtMs)).journal
      env.workspaceId := by
  unfold runSessionRelate
  cases role with
  | error error => exact orderly
  | ok configured =>
    cases configured with
    | none => exact orderly
    | some world =>
      have ran := runRelatePass_orderly fuse sessionEndOp world orderly observedAtMs {}
      simp only
      cases done : runRelatePass fuse sessionEndOp world env observedAtMs {} with
      | error failure =>
        rw [done] at ran
        exact ran
      | ok pair =>
        rw [done] at ran
        exact ran

/-- A session end keeps an orderly workspace orderly. -/
theorem agentSessionEndReport_orderly (fuse : Nat) (config : WorkspaceConfig) (world : SessionWorld)
    (role : Except TexoError (Option (RelateWorld Score))) {workspaceId : String}
    (turnStore : List TurnEntry) (input : AgentSessionEndInput) {journal : Journal}
    (orderly : Orderly journal workspaceId) :
    Orderly (stateAfter (agentSessionEndReport fuse config world role workspaceId turnStore input
      journal)) workspaceId := by
  unfold agentSessionEndReport
  cases validateSessionInput sessionEndOp input.sessionId with
  | error error => exact orderly
  | ok _ =>
    simp only
    cases prepared : prepareSessionEnd config world workspaceId turnStore input journal with
    | error error => exact orderly
    | ok context =>
      obtain ⟨legal, apart⟩ := prepareSessionEnd_legal orderly prepared
      have start : Orderly ({ workspaceId := workspaceId, journal := journal } : OpEnv).journal
          workspaceId := orderly
      have ingested := start.appendWithin fuse legal apart
      simp only [appendSessionIngest]
      rcases appendWithin_cases fuse { workspaceId := workspaceId, journal := journal }
        context.events with ⟨left, appended, run, all⟩ | ⟨failure, done, rest, run, split, all⟩
      · have named : appended.workspaceId = workspaceId :=
          (OpEnv.appendAll_spec all orderly.conforming).1
        rw [run] at ingested ⊢
        have kept : Orderly appended.journal workspaceId := ingested
        have related := runSessionRelate_orderly left role
          (show Orderly ({ appended with receipts := [] } : OpEnv).journal
            ({ appended with receipts := [] } : OpEnv).workspaceId by rw [named]; exact kept)
          input.observedAtMs
        simp only [named] at related ⊢
        revert related
        cases runSessionRelate left role { workspaceId := workspaceId, journal := appended.journal }
            input.observedAtMs with
        | error failure => exact id
        | ok pair => exact id
      · rw [run] at ingested ⊢
        exact ingested

/-- One operation that may write claims or conflicts, with its input and what it meets outside
the program. -/
inductive Operation (Score : Type) where
  | ingest (config : WorkspaceConfig) (world : SourceWorld) (input : IngestRunInput)
  | supersede (input : ClaimSupersedeInput)
  | commit (input : ConflictsCommitInput)
  | resolve (input : ConflictResolveInput)
  | index (world : GitWorld) (input : KnowledgeIndexInput)
  | relate (world : RelateWorld Score) (input : RelateRunInput)
  | sessionEnd (config : WorkspaceConfig) (world : SessionWorld)
      (role : Except TexoError (Option (RelateWorld Score))) (turnStore : List TurnEntry)
      (input : AgentSessionEndInput)

/-- The store an operation leaves, whether it succeeds or fails, where the store accepts `fuse`
appends of it. -/
def Operation.run (fuse : Nat) (workspaceId : String) (journal : Journal) :
    Operation Score → Journal
  | .ingest config world input =>
    stateAfter (ingestRun fuse config world workspaceId input journal)
  | .supersede input => stateAfter (claimSupersede fuse workspaceId input journal)
  | .commit input => stateAfter (conflictsCommit fuse workspaceId input journal)
  | .resolve input => stateAfter (conflictResolve fuse workspaceId input journal)
  | .index world input => stateAfter (knowledgeIndex fuse world workspaceId input journal)
  | .relate world input => stateAfter (relateRun fuse world workspaceId input journal)
  | .sessionEnd config world role turnStore input =>
    stateAfter (agentSessionEndReport fuse config world role workspaceId turnStore input journal)

/-- The store a sequence of operations leaves, each with the appends the store accepts of it. -/
def runOperations (workspaceId : String) (operations : List (Nat × Operation Score))
    (journal : Journal) : Journal :=
  operations.foldl (fun journal step => step.2.run step.1 workspaceId journal) journal

/-- The step law: one operation keeps the workspace orderly. -/
theorem Operation.run_orderly (operation : Operation Score) (fuse : Nat) {workspaceId : String}
    {journal : Journal} (orderly : Orderly journal workspaceId) :
    Orderly (operation.run fuse workspaceId journal) workspaceId := by
  cases operation with
  | ingest config world input => exact ingestRun_orderly fuse config world input orderly
  | supersede input => exact claimSupersede_orderly fuse input orderly
  | commit input => exact conflictsCommit_orderly fuse input orderly
  | resolve input => exact conflictResolve_orderly fuse input orderly
  | index world input => exact knowledgeIndex_orderly fuse world input orderly
  | relate world input => exact relateRun_orderly fuse world input orderly
  | sessionEnd config world role turnStore input =>
    exact agentSessionEndReport_orderly fuse config world role turnStore input orderly

/-- The run law: a sequence of operations keeps the workspace orderly. -/
theorem runOperations_orderly (operations : List (Nat × Operation Score)) {workspaceId : String}
    {journal : Journal} (orderly : Orderly journal workspaceId) :
    Orderly (runOperations workspaceId operations journal) workspaceId := by
  induction operations generalizing journal with
  | nil => exact orderly
  | cons step rest ih => exact ih (step.2.run_orderly step.1 orderly)

end Texo.Ops
