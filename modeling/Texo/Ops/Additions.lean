import Texo.Ops.Unresolved
import Texo.Store.Growth

/-! # What operations add to the journal

An operation only adds rows, wherever it stops. The operations that do not judge claims add no
judgment.
-/
namespace Texo.Ops
open Texo.Events Texo.Store Texo.Claims Texo.Semantics Texo.Foundation Texo.Ingest Texo.Relate
  Texo.Sessions

/-- The later journal is the earlier one with more rows, each with an allowed payload. -/
def GrowsBy (allowed : Payload → Prop) (earlier later : Journal) : Prop :=
  ∃ rows, later.entries = earlier.entries ++ rows ∧ ∀ row ∈ rows, allowed row.payload

/-- A journal grows by nothing. -/
theorem GrowsBy.refl (allowed : Payload → Prop) (journal : Journal) :
    GrowsBy allowed journal journal :=
  ⟨[], by simp, by simp⟩

/-- Growth adds up. -/
theorem GrowsBy.trans {allowed : Payload → Prop} {earlier middle later : Journal}
    (first : GrowsBy allowed earlier middle) (second : GrowsBy allowed middle later) :
    GrowsBy allowed earlier later := by
  obtain ⟨rows, grown, among⟩ := first
  obtain ⟨more, grownMore, amongMore⟩ := second
  refine ⟨rows ++ more, by rw [grownMore, grown, List.append_assoc], ?_⟩
  intro row member
  rcases List.mem_append.mp member with before | after
  · exact among row before
  · exact amongMore row after

/-- More payloads may be allowed. -/
theorem GrowsBy.mono {allowed wider : Payload → Prop} {earlier later : Journal}
    (grown : GrowsBy allowed earlier later) (all : ∀ payload, allowed payload → wider payload) :
    GrowsBy wider earlier later := by
  obtain ⟨rows, grown, among⟩ := grown
  exact ⟨rows, grown, fun row member => all _ (among row member)⟩

/-- A payload that is no judgment. -/
def Unjudging (payload : Payload) : Prop := judgedPair payload = none

/-- What an ingest plans is no judgment. -/
theorem unjudging_planEvents (plan : SourcePlan) :
    ∀ payload ∈ plan.events, Unjudging payload := by
  intro payload member
  obtain ⟨source, _, inside⟩ := List.mem_flatMap.mp member
  rcases List.mem_cons.mp inside with rfl | claim
  · rfl
  · obtain ⟨event, _, rfl⟩ := List.mem_map.mp claim
    rfl

/-- A supersession is no judgment. -/
theorem unjudging_superseded (events : List ClaimSupersededV2) :
    ∀ payload ∈ events.map Payload.claimSuperseded, Unjudging payload := by
  intro payload member
  obtain ⟨event, _, rfl⟩ := List.mem_map.mp member
  trivial

/-- What an index run plans is no judgment. -/
theorem unjudging_indexEvents (plan : IndexPlan) :
    ∀ payload ∈ plan.events, Unjudging payload := by
  intro payload member
  unfold IndexPlan.events at member
  rcases List.mem_append.mp member with first | relation
  · rcases List.mem_cons.mp first with rfl | linked
    · rfl
    · obtain ⟨row, _, inner⟩ := List.mem_flatMap.mp linked
      rcases List.mem_cons.mp inner with rfl | last
      · rfl
      · rw [List.mem_singleton.mp last]
        rfl
  · obtain ⟨related, _, rfl⟩ := List.mem_map.mp relation
    rfl

variable [Blake3]

/-- However many payloads the store accepts, it grows by them. -/
theorem appendWithin_grows (fuse : Nat) (env : OpEnv) {payloads : List Payload}
    {allowed : Payload → Prop} (all : ∀ payload ∈ payloads, allowed payload) :
    GrowsBy allowed env.journal (stateAfter (appendWithin fuse env payloads)).journal := by
  rcases appendWithin_cases fuse env payloads with
    ⟨left, next, run, appended⟩ | ⟨failure, done, rest, run, split, appended⟩
  · rw [run]
    obtain ⟨rows, grown, carried⟩ := OpEnv.appendAll_rows appended
    exact ⟨rows, grown, fun row member => all _ (carried row member)⟩
  · rw [run]
    obtain ⟨rows, grown, carried⟩ := OpEnv.appendAll_rows appended
    refine ⟨rows, grown, fun row member => all _ ?_⟩
    rw [split]
    exact List.mem_append_left rest (carried row member)

/-- One append grows the store by its payload, if at all. -/
theorem appendOne_grows (fuse : Nat) (op : String) (env : OpEnv) {payload : Payload}
    {allowed : Payload → Prop} (holds : allowed payload) :
    GrowsBy allowed env.journal
      (match appendOne fuse op env payload with
      | .error failure => failure.left.journal
      | .ok (_, _, next) => next.journal) := by
  have only : ∀ other ∈ [payload], allowed other := by
    intro other member
    rw [List.mem_singleton.mp member]
    exact holds
  have grown := appendWithin_grows fuse env only
  unfold appendOne
  revert grown
  cases appendWithin fuse env [payload] with
  | error failure => exact id
  | ok pair =>
    intro grown
    dsimp only
    cases pair.2.receipts.getLast? with
    | none => exact grown
    | some receipt => exact grown

/-- Carrying out an ingest plan adds no judgment. -/
theorem executeIngestPlan_grows (fuse : Nat) (config : WorkspaceConfig) (env : OpEnv)
    (plan : SourcePlan) (input : IngestRunInput) :
    GrowsBy Unjudging env.journal
      (stateAfter (executeIngestPlan fuse config env plan input)).journal := by
  unfold executeIngestPlan
  split
  · exact GrowsBy.refl _ _
  · have planned := appendWithin_grows fuse env (unjudging_planEvents plan)
    revert planned
    cases appendWithin fuse env plan.events with
    | error failure => exact id
    | ok pair =>
      intro planned
      dsimp only
      rw [assembleCurrentView_readable]
      dsimp only
      cases inferIngestSupersessions config pair.2.journal pair.2.workspaceId plan
          (viewOf pair.2.workspaceId pair.2.journal) input.observedAtMs with
      | error error => exact planned
      | ok inference =>
        have retired := appendWithin_grows pair.1 pair.2 (unjudging_superseded inference.applied)
        dsimp only
        revert retired
        cases appendWithin pair.1 pair.2 (inference.applied.map .claimSuperseded) with
        | error failure => exact planned.trans
        | ok settled => exact planned.trans

/-- An ingest adds no judgment. -/
theorem ingestRun_grows (fuse : Nat) (config : WorkspaceConfig) (world : SourceWorld)
    (workspaceId : String) (input : IngestRunInput) (journal : Journal) :
    GrowsBy Unjudging journal
      (stateAfter (ingestRun fuse config world workspaceId input journal)) := by
  unfold ingestRun
  rw [assembleCurrentView_readable]
  dsimp only
  cases planSources ingestOp config world workspaceId input.observedAtMs
      (viewOf workspaceId journal) with
  | error error => exact GrowsBy.refl _ _
  | ok plan =>
    dsimp only
    cases rejectFailedIngestPlan world plan input with
    | error error => exact GrowsBy.refl _ _
    | ok _ =>
      have grown := executeIngestPlan_grows fuse config
        { workspaceId := workspaceId, journal := journal } plan input
      dsimp only
      revert grown
      cases executeIngestPlan fuse config { workspaceId := workspaceId, journal := journal } plan
          input with
      | error failure => exact id
      | ok pair => exact id

/-- A supersession adds no judgment. -/
theorem claimSupersede_grows (fuse : Nat) (workspaceId : String) (input : ClaimSupersedeInput)
    (journal : Journal) :
    GrowsBy Unjudging journal (stateAfter (claimSupersede fuse workspaceId input journal)) := by
  have none : Unjudging (.claimSuperseded (supersedeEvent workspaceId input)) := rfl
  have grown := appendOne_grows fuse claimSupersedeOp
    { workspaceId := workspaceId, journal := journal } none
  unfold claimSupersede
  split
  · exact GrowsBy.refl _ _
  · split
    · exact GrowsBy.refl _ _
    · exact GrowsBy.refl _ _
    · split
      · exact GrowsBy.refl _ _
      · split
        · exact GrowsBy.refl _ _
        · revert grown
          cases appendOne fuse claimSupersedeOp { workspaceId := workspaceId, journal := journal }
              (.claimSuperseded (supersedeEvent workspaceId input)) with
          | error failure => exact id
          | ok taken => exact id

/-- Committing conflicts adds no judgment. -/
theorem commitConflicts_grows (view : WorkspaceView) (observedAtMs : Nat)
    (entries : List ReportedConflict) (fuse : Nat) (env : OpEnv) (committed : List CommittedConflict) :
    GrowsBy Unjudging env.journal
      (stateAfter (commitConflicts view observedAtMs fuse env committed entries)).journal := by
  induction entries generalizing fuse env committed with
  | nil => exact GrowsBy.refl _ _
  | cons entry rest ih =>
    unfold commitConflicts
    split
    · exact ih fuse env committed
    · cases newerClaim view entry.claimA entry.claimB with
      | error error => exact GrowsBy.refl _ _
      | ok newer =>
        have none : Unjudging (.conflictOpened (heuristicOpened view observedAtMs entry newer)) :=
          rfl
        have grown := appendOne_grows fuse conflictsCommitOp env none
        dsimp only
        revert grown
        cases appendOne fuse conflictsCommitOp env
            (.conflictOpened (heuristicOpened view observedAtMs entry newer)) with
        | error failure => exact id
        | ok taken =>
          intro grown
          exact grown.trans (ih taken.2.1 taken.2.2 _)

/-- A conflict commit adds no judgment. -/
theorem conflictsCommit_grows (fuse : Nat) (workspaceId : String) (input : ConflictsCommitInput)
    (journal : Journal) :
    GrowsBy Unjudging journal (stateAfter (conflictsCommit fuse workspaceId input journal)) := by
  unfold conflictsCommit
  rw [assembleCurrentView_readable]
  dsimp only
  cases detectConflicts (viewOf workspaceId journal) with
  | error error => exact GrowsBy.refl _ _
  | ok detected =>
    have grown := commitConflicts_grows (viewOf workspaceId journal) input.observedAtMs detected fuse
      { workspaceId := workspaceId, journal := journal } []
    dsimp only
    revert grown
    cases commitConflicts (viewOf workspaceId journal) input.observedAtMs fuse
        { workspaceId := workspaceId, journal := journal } [] detected with
    | error failure => exact id
    | ok pair => exact id

/-- A conflict resolution adds no judgment. -/
theorem conflictResolve_grows (fuse : Nat) (workspaceId : String) (input : ConflictResolveInput)
    (journal : Journal) :
    GrowsBy Unjudging journal (stateAfter (conflictResolve fuse workspaceId input journal)) := by
  unfold conflictResolve
  split
  · exact GrowsBy.refl _ _
  · cases conflictCardAt journal.entries input.conflictId with
    | none => exact GrowsBy.refl _ _
    | some card =>
      dsimp only
      generalize (if input.resolution = "resolved" then 2 else 3) = target
      split
      · exact GrowsBy.refl _ _
      · split
        · exact GrowsBy.refl _ _
        · have none : Unjudging (.conflictResolved (resolvedEvent input card target)) := rfl
          have grown := appendOne_grows fuse conflictResolveOp
            { workspaceId := workspaceId, journal := journal } none
          revert grown
          cases appendOne fuse conflictResolveOp { workspaceId := workspaceId, journal := journal }
              (.conflictResolved (resolvedEvent input card target)) with
          | error failure => exact id
          | ok taken => exact id

/-- An index run adds no judgment. -/
theorem knowledgeIndex_grows (fuse : Nat) (world : GitWorld) (workspaceId : String)
    (input : KnowledgeIndexInput) (journal : Journal) :
    GrowsBy Unjudging journal (stateAfter (knowledgeIndex fuse world workspaceId input journal)) := by
  unfold knowledgeIndex
  cases prepareIndex world workspaceId input journal with
  | error error => exact GrowsBy.refl _ _
  | ok plan =>
    dsimp only
    unfold executeIndexPlan
    have planned := appendWithin_grows fuse { workspaceId := workspaceId, journal := journal }
      (unjudging_indexEvents plan)
    revert planned
    cases appendWithin fuse { workspaceId := workspaceId, journal := journal } plan.events with
    | error failure => exact id
    | ok pair =>
      intro planned
      dsimp only
      cases inferIndexSupersessions pair.2 plan input.observedAtMs with
      | error error => exact planned
      | ok outcome =>
        have retired := appendWithin_grows pair.1 { pair.2 with receipts := [] }
          (unjudging_superseded outcome.applied)
        dsimp only
        revert retired
        cases appendWithin pair.1 { pair.2 with receipts := [] }
            (outcome.applied.map .claimSuperseded) with
        | error failure => exact planned.trans
        | ok settled => exact planned.trans

end Texo.Ops
