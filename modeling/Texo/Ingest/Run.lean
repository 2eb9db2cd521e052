import Texo.Ingest.Plan
import Texo.Ingest.Supersession

/-! # Running an ingest

One run of the ingest operation: plan, append the planned sources and their claims, look at
the view again and append the supersessions the new claims make explicit. The store accepts a
bounded number of appends, so a run may stop after any of them and leave what it has appended.
-/
namespace Texo.Ingest
open Texo.Events Texo.Store Texo.Claims Texo.Ops

/-- Input of one ingest run. -/
structure IngestRunInput where
  dryRun : Bool
  strict : Bool := false
  observedAtMs : Nat
deriving DecidableEq, Repr

/-- Typed completion of an ingest. -/
inductive IngestCompletion where
  | complete
  | incomplete
deriving DecidableEq, Repr

/-- What executing a plan did. -/
structure IngestExecution where
  sourceCount : Nat
  claimCount : Nat
  supersedeCount : Nat
  heldSupersessions : List HeldExplicitSupersession
deriving DecidableEq

/-- Output of one ingest run, without its timings. -/
structure IngestRunOutput where
  outcome : IngestCompletion
  workspaceId : String
  sourcesObserved : Nat
  claimsRecorded : Nat
  claimsSuperseded : Nat
  supersessionsHeld : Nat
  heldSupersessions : List HeldExplicitSupersession
  dryRun : Bool
  empty : Bool
  skipped : List SourceSkipRow
  skippedTotal : Nat
  skippedArtifact : Option String
  eventsAppended : Nat
  receipts : List EventId
deriving DecidableEq

/-- `MAX_INLINE_SOURCE_FAILURES`. -/
def maxInlineSourceFailures : Nat := 256

/-- Append payloads in order while the store accepts `fuse` more appends; what is left of
them comes back with the environment. -/
def appendWithin [Blake3] : Nat → OpEnv → List Payload → Except (Failure OpEnv) (Nat × OpEnv)
  | fuse, env, [] => .ok (fuse, env)
  | 0, env, _ :: _ => .error ⟨.store "append failed", env⟩
  | fuse + 1, env, payload :: rest =>
    match env.append payload with
    | .error error => .error ⟨error, env⟩
    | .ok next => appendWithin fuse next rest

/-- The semantics switch: enabled semantics leave supersession to the relate pass. -/
def WorkspaceConfig.semanticsEnabled (config : WorkspaceConfig) : Bool :=
  match config.semantics with
  | none => false
  | some semantics => semantics.enabled

variable [Blake3]

/-- `settle_source_failures`: rows past the inline bound go to an artifact named by their
digest. -/
def settleSourceFailures (world : SourceWorld) (observedAtMs : Nat) (rows : List SourceSkipRow) :
    List SourceSkipRow × Option String :=
  if rows.length ≤ maxInlineSourceFailures then
    (rows, none)
  else
    (rows.take maxInlineSourceFailures,
      some (".texo/operations/ingest-skips/" ++ toString observedAtMs ++ "-" ++
        cut (blake3HashHex (world.rowsJson rows)) 16 ++ ".json"))

/-- `reject_failed_ingest_plan`: strict ingests tolerate no skipped source, tolerant ones
need a source that could be read. -/
def rejectFailedIngestPlan (world : SourceWorld) (plan : SourcePlan) (input : IngestRunInput) :
    Except TexoError Unit :=
  if plan.skipped.isEmpty ∨ (¬ input.strict ∧ (0 < plan.succeeded ∨ plan.empty)) then
    .ok ()
  else
    .error (.source world.inputPath
      (toString plan.skipped.length ++ " source(s) failed during planning; strict=" ++
        toString input.strict ++ " good_sources=" ++ toString plan.succeeded ++ "; sample=" ++
        world.rowsJson (plan.skipped.take 8) ++ "; artifact=" ++
        (settleSourceFailures world input.observedAtMs plan.skipped).2.getD "inline"))

/-- `infer_and_append_ingest_supersessions`, the inference. -/
def inferIngestSupersessions (config : WorkspaceConfig) (journal : Journal) (workspaceId : String)
    (plan : SourcePlan) (view : WorkspaceView) (observedAtMs : Nat) :
    Except TexoError ExplicitSupersessionOutcome :=
  if config.semanticsEnabled then
    .ok ⟨[], []⟩
  else do
    let temporal ← workspaceTemporalPolicy (readable journal) workspaceId view
    inferSupersessions view plan.newClaims observedAtMs temporal

/-- `execute_ingest_plan`. -/
def executeIngestPlan (fuse : Nat) (config : WorkspaceConfig) (env : OpEnv) (plan : SourcePlan)
    (input : IngestRunInput) : Except (Failure OpEnv) (IngestExecution × OpEnv) :=
  let sourceCount := saturatingU32 plan.sources.length
  let claimCount := saturatingU32 plan.newClaims.length
  if input.dryRun then
    .ok (⟨sourceCount, claimCount, 0, []⟩, env)
  else
    match appendWithin fuse env plan.events with
    | .error failure => .error failure
    | .ok (left, appended) =>
      match assembleCurrentView (readable appended.journal) appended.workspaceId with
      | .error error => .error ⟨error, appended⟩
      | .ok view =>
        match inferIngestSupersessions config appended.journal appended.workspaceId plan view
            input.observedAtMs with
        | .error error => .error ⟨error, appended⟩
        | .ok inference =>
          match appendWithin left appended (inference.applied.map .claimSuperseded) with
          | .error failure => .error failure
          | .ok (_, settled) =>
            .ok (⟨sourceCount, claimCount, saturatingU32 inference.applied.length, inference.held⟩,
              settled)

/-- `finish_ingest_output`. -/
def finishIngestOutput (world : SourceWorld) (env : OpEnv) (plan : SourcePlan) (input : IngestRunInput)
    (execution : IngestExecution) : IngestRunOutput where
  outcome := if plan.skipped.isEmpty then .complete else .incomplete
  workspaceId := env.workspaceId
  sourcesObserved := execution.sourceCount
  claimsRecorded := execution.claimCount
  claimsSuperseded := execution.supersedeCount
  supersessionsHeld := execution.heldSupersessions.length
  heldSupersessions := execution.heldSupersessions
  dryRun := input.dryRun
  empty := plan.empty
  skipped := (settleSourceFailures world input.observedAtMs plan.skipped).1
  skippedTotal := plan.skipped.length
  skippedArtifact := (settleSourceFailures world input.observedAtMs plan.skipped).2
  eventsAppended := if input.dryRun then 0 else saturatingAdd (saturatingAdd execution.sourceCount
    execution.claimCount) execution.supersedeCount
  receipts := if input.dryRun then [] else env.receipts

/-- The operation name of an ingest. -/
def ingestOp : String := "texo.ingest.run"

/-- `ingest_run` in a workspace whose store accepts `fuse` appends. -/
def ingestRun (fuse : Nat) (config : WorkspaceConfig) (world : SourceWorld) (workspaceId : String)
    (input : IngestRunInput) (journal : Journal) :
    Except (Failure Journal) (IngestRunOutput × Journal) :=
  let env : OpEnv := { workspaceId := workspaceId, journal := journal }
  match assembleCurrentView (readable journal) workspaceId with
  | .error error => .error ⟨error, journal⟩
  | .ok view =>
    match planSources ingestOp config world workspaceId input.observedAtMs view with
    | .error error => .error ⟨error, journal⟩
    | .ok plan =>
      match rejectFailedIngestPlan world plan input with
      | .error error => .error ⟨error, journal⟩
      | .ok _ =>
        match executeIngestPlan fuse config env plan input with
        | .error failure => .error ⟨failure.error, failure.left.journal⟩
        | .ok (execution, settled) =>
          .ok (finishIngestOutput world settled plan input execution, settled.journal)

/-- The payloads that were appended before a store stopped accepting them. -/
theorem appendWithin_cases (fuse : Nat) (env : OpEnv) (payloads : List Payload) :
    (∃ left next, appendWithin fuse env payloads = .ok (left, next) ∧
      env.appendAll payloads = .ok next) ∨
    ∃ failure done rest, appendWithin fuse env payloads = .error failure ∧
      payloads = done ++ rest ∧ env.appendAll done = .ok failure.left := by
  induction payloads generalizing fuse env with
  | nil => exact Or.inl ⟨fuse, env, by simp [appendWithin], rfl⟩
  | cons payload rest ih =>
    cases fuse with
    | zero => exact Or.inr ⟨⟨.store "append failed", env⟩, [], payload :: rest, rfl, rfl, rfl⟩
    | succ fuse =>
      cases first : env.append payload with
      | error error =>
        exact Or.inr ⟨⟨error, env⟩, [], payload :: rest, by simp [appendWithin, first], rfl, rfl⟩
      | ok next =>
        have more : ∀ later, env.appendAll (payload :: later) = next.appendAll later := by
          intro later
          rw [OpEnv.appendAll, List.foldlM_cons, first]
          rfl
        rcases ih fuse next with ⟨left, last, run, all⟩ | ⟨failure, done, others, run, split, all⟩
        · exact Or.inl ⟨left, last, by simp [appendWithin, first, run], by rw [more, all]⟩
        · refine Or.inr ⟨failure, payload :: done, others, by simp [appendWithin, first, run], ?_, ?_⟩
          · rw [split]
            rfl
          · rw [more, all]

/-- The plan of an ingest on a journal. -/
def planOn (config : WorkspaceConfig) (world : SourceWorld) (workspaceId : String)
    (observedAtMs : Nat) (journal : Journal) : Except TexoError SourcePlan :=
  planSources ingestOp config world workspaceId observedAtMs
    (viewOf workspaceId journal)

/-- What an ingest decides on a journal: its plan, the journal with the planned sources in, and
the inference on the view of that journal. -/
structure Decides (config : WorkspaceConfig) (world : SourceWorld) (workspaceId : String)
    (observedAtMs : Nat) (journal : Journal) (plan : SourcePlan) (appended : OpEnv)
    (inference : ExplicitSupersessionOutcome) : Prop where
  planned : planOn config world workspaceId observedAtMs journal = .ok plan
  recorded : OpEnv.appendAll { workspaceId := workspaceId, journal := journal } plan.events =
    .ok appended
  inferred : inferIngestSupersessions config appended.journal workspaceId plan
    (viewOf workspaceId appended.journal) observedAtMs =
    .ok inference

/-- What one appending run of an ingest can do: everything it decides, or a leading part of it. -/
theorem ingestRun_cases (fuse : Nat) (config : WorkspaceConfig) (world : SourceWorld)
    (workspaceId : String) (strict : Bool) (observedAtMs : Nat) {journal : Journal}
    (conforming : journal.Conforming) :
    (∃ output plan appended inference settled,
      ingestRun fuse config world workspaceId ⟨false, strict, observedAtMs⟩ journal =
        .ok (output, settled.journal) ∧
      Decides config world workspaceId observedAtMs journal plan appended inference ∧
      appended.appendAll (inference.applied.map .claimSuperseded) = .ok settled) ∨
    ∃ failure, ingestRun fuse config world workspaceId ⟨false, strict, observedAtMs⟩ journal =
        .error failure ∧
      (failure.left = journal ∨
        (∃ plan done rest stopped,
          planOn config world workspaceId observedAtMs journal = .ok plan ∧
          plan.events = done ++ rest ∧
          OpEnv.appendAll { workspaceId := workspaceId, journal := journal } done = .ok stopped ∧
          stopped.journal = failure.left) ∨
        ∃ plan appended inference done rest stopped,
          Decides config world workspaceId observedAtMs journal plan appended inference ∧
          inference.applied.map .claimSuperseded = done ++ rest ∧
          appended.appendAll done = .ok stopped ∧ stopped.journal = failure.left) := by
  unfold ingestRun
  simp only [assembleCurrentView_readable]
  cases planned : planSources ingestOp config world workspaceId observedAtMs
      (viewOf workspaceId journal) with
  | error error => exact Or.inr ⟨⟨error, journal⟩, rfl, Or.inl rfl⟩
  | ok plan =>
    simp only
    cases rejectFailedIngestPlan world plan ⟨false, strict, observedAtMs⟩ with
    | error error => exact Or.inr ⟨⟨error, journal⟩, rfl, Or.inl rfl⟩
    | ok _ =>
      simp only [executeIngestPlan, Bool.false_eq_true, if_false]
      rcases appendWithin_cases fuse { workspaceId := workspaceId, journal := journal }
        plan.events with ⟨left, appended, run, all⟩ | ⟨failure, done, rest, run, split, all⟩
      · have named := (OpEnv.appendAll_spec all conforming).1
        simp only at named
        simp only [run, assembleCurrentView_readable, named]
        cases inferred : inferIngestSupersessions config appended.journal workspaceId plan
            (viewOf workspaceId appended.journal) observedAtMs with
        | error error =>
          exact Or.inr ⟨⟨error, appended.journal⟩, rfl,
            Or.inr (Or.inl ⟨plan, plan.events, [], appended, planned, by simp, all, rfl⟩)⟩
        | ok inference =>
          simp only
          have decides : Decides config world workspaceId observedAtMs journal plan appended
              inference := ⟨planned, all, inferred⟩
          rcases appendWithin_cases left appended (inference.applied.map .claimSuperseded) with
            ⟨last, settled, run, more⟩ | ⟨failure, done, rest, run, split, more⟩
          · rw [run]
            exact Or.inl ⟨_, plan, appended, inference, settled, rfl, decides, more⟩
          · rw [run]
            exact Or.inr ⟨⟨failure.error, failure.left.journal⟩, rfl,
              Or.inr (Or.inr ⟨plan, appended, inference, done, rest, failure.left, decides, split,
                more, rfl⟩)⟩
      · simp only [run]
        exact Or.inr ⟨⟨failure.error, failure.left.journal⟩, rfl,
          Or.inr (Or.inl ⟨plan, done, rest, failure.left, planned, split, all, rfl⟩)⟩

end Texo.Ingest
