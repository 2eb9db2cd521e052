import Texo.Ops.Orderly
import Texo.Relate.Heuristic

/-! # Committing and resolving conflicts

Committing opens the conflicts the heuristic detects, one append after the other; those with a
conflict card are left alone. Resolving moves an open conflict to one of its two ends.
-/
namespace Texo.Ops
open Texo.Events Texo.Store Texo.Claims Texo.Foundation Texo.Ingest Texo.Relate

/-- The operation name of a conflict commit. -/
def conflictsCommitOp : String := "texo.conflicts.commit"

/-- Input of one conflict commit. -/
structure ConflictsCommitInput where
  observedAtMs : Nat
deriving DecidableEq, Repr

/-- One conflict a commit opened. -/
structure CommittedConflict where
  conflictId : String
  receipt : EventId
deriving DecidableEq

/-- A claim of a view by its id. -/
def findClaim (view : WorkspaceView) (claimId : String) : Except TexoError ClaimCard :=
  match view.claims.find? fun claim => claim.card.claimId = claimId with
  | none => .error (.missingEntity (entityForClaim claimId))
  | some claim => .ok claim.card

/-- `newer_claim`. -/
def newerClaim (view : WorkspaceView) (left right : String) : Except TexoError ClaimCard := do
  let left ← findClaim view left
  let right ← findClaim view right
  .ok (if right.observedAtMs ≤ left.observedAtMs then left else right)

/-- `conflict_phase_name`. -/
def conflictPhaseName : Nat → String
  | 0 => "unopened"
  | 1 => "open"
  | 2 => "resolved"
  | 3 => "ignored"
  | _ => "invalid"

/-- The card of a conflict after a replay. -/
def conflictCardAt (rows : List Entry) (conflictId : String) : Option ConflictCard :=
  match (cardsOf rows)[entityForConflict conflictId]? with
  | some (.conflict card) => some card
  | _ => none

/-- Input of one conflict resolution. -/
structure ConflictResolveInput where
  conflictId : String
  resolution : String
  resolvedBy : String
  observedAtMs : Nat
deriving DecidableEq, Repr

/-- Output of one conflict resolution. -/
structure ConflictResolveOutput where
  conflictId : String
  resolution : String
  alreadyApplied : Bool
  receipt : Option EventId
deriving DecidableEq

/-- The operation name of a conflict resolution. -/
def conflictResolveOp : String := "texo.conflict.resolve"

variable [Blake3]

/-- The event that opens one detected conflict. -/
def heuristicOpened (view : WorkspaceView) (observedAtMs : Nat) (entry : ReportedConflict)
    (newer : ClaimCard) : ConflictOpenedV2 where
  conflictId := entry.conflictId.value
  workspaceId := view.workspaceId
  claimA := entry.claimA
  claimB := entry.claimB
  reason := entry.reason
  detector := "heuristic-v1"
  observedAtMs := observedAtMs
  transition := transitionRecord conflictMachine (entityForConflict entry.conflictId.value) 0 1
    [⟨0, "ingest:" ++ newer.sourceId⟩] observedAtMs

/-- The loop of `conflicts_commit`: each conflict is appended and its receipt taken before the
next is looked at. -/
def commitConflicts (view : WorkspaceView) (observedAtMs : Nat) :
    Nat → OpEnv → List CommittedConflict → List ReportedConflict →
      Except (Failure OpEnv) (List CommittedConflict × OpEnv)
  | _, env, committed, [] => .ok (committed, env)
  | fuse, env, committed, entry :: rest =>
    if entry.conflictId.value ∈ view.conflicts.map ConflictCard.conflictId then
      commitConflicts view observedAtMs fuse env committed rest
    else
      match newerClaim view entry.claimA entry.claimB with
      | .error error => .error ⟨error, env⟩
      | .ok newer =>
        match appendOne fuse conflictsCommitOp env
            (.conflictOpened (heuristicOpened view observedAtMs entry newer)) with
        | .error failure => .error failure
        | .ok (receipt, left, opened) =>
          commitConflicts view observedAtMs left opened
            (committed ++ [⟨entry.conflictId.value, receipt⟩]) rest

/-- `conflicts_commit` in a workspace whose store accepts `fuse` appends. -/
def conflictsCommit (fuse : Nat) (workspaceId : String) (input : ConflictsCommitInput)
    (journal : Journal) : Except (Failure Journal) (List CommittedConflict × Journal) :=
  match assembleCurrentView (readable journal) workspaceId with
  | .error error => .error ⟨error, journal⟩
  | .ok view =>
    match detectConflicts view with
    | .error error => .error ⟨error, journal⟩
    | .ok detected =>
      match commitConflicts view input.observedAtMs fuse
          { workspaceId := workspaceId, journal := journal } [] detected with
      | .error failure => .error ⟨failure.error, failure.left.journal⟩
      | .ok (committed, settled) => .ok (committed, settled.journal)

/-- The event that resolves a conflict. -/
def resolvedEvent (input : ConflictResolveInput) (card : ConflictCard) (target : Nat) :
    ConflictResolvedV2 where
  conflictId := input.conflictId
  workspaceId := card.workspaceId
  resolution := input.resolution
  resolvedBy := input.resolvedBy
  observedAtMs := input.observedAtMs
  transition := transitionRecord conflictMachine (entityForConflict input.conflictId) 1 target
    [⟨0, "conflict:" ++ input.conflictId⟩] input.observedAtMs

/-- `conflict_resolve` in a workspace whose store accepts `fuse` appends. -/
def conflictResolve (fuse : Nat) (workspaceId : String) (input : ConflictResolveInput)
    (journal : Journal) : Except (Failure Journal) (ConflictResolveOutput × Journal) :=
  if input.resolution ≠ "resolved" ∧ input.resolution ≠ "ignored" then
    .error ⟨.statusParse input.resolution, journal⟩
  else
    match conflictCardAt journal.entries input.conflictId with
    | none => .error ⟨.missingEntity (entityForConflict input.conflictId), journal⟩
    | some card =>
      let target := if input.resolution = "resolved" then 2 else 3
      if card.phase = target then
        .ok (⟨input.conflictId, input.resolution, true, none⟩, journal)
      else if card.phase ≠ 1 then
        .error ⟨.transition conflictMachine card.phase target
          (some ("conflict " ++ input.conflictId ++ " is already " ++ conflictPhaseName card.phase)),
          journal⟩
      else
        match appendOne fuse conflictResolveOp { workspaceId := workspaceId, journal := journal }
            (.conflictResolved (resolvedEvent input card target)) with
        | .error failure => .error ⟨failure.error, failure.left.journal⟩
        | .ok (receipt, _, resolved) =>
          .ok (⟨input.conflictId, input.resolution, false, some receipt⟩, resolved.journal)

/-- A conflict card of an orderly store is listed by the view, and shows its conflict and its
workspace. -/
theorem Orderly.conflictCard {journal : Journal} {workspaceId conflictId : String}
    (orderly : Orderly journal workspaceId) {card : ConflictCard}
    (held : conflictCardAt journal.entries conflictId = some card) :
    card ∈ (viewOf workspaceId journal).conflicts ∧ conflictId = card.conflictId ∧
      card.workspaceId = workspaceId := by
  have present : (cardsOf (workspaceRows journal workspaceId))[entityForConflict conflictId]? =
      some (.conflict card) := by
    unfold conflictCardAt at held
    rw [workspaceRows, orderly.region]
    split at held
    · rename_i found
      rw [found, Option.some.inj held]
    · cases held
  have listed : card ∈ (viewOf workspaceId journal).conflicts :=
    mem_replayView_conflicts.mpr ⟨_, present⟩
  obtain ⟨phase, _, begun, _, stands⟩ :=
    orderly.lawful.card orderly.conforming (Or.inr (CardFamily.of_conflict conflictId)) present
  obtain ⟨named, workspace⟩ := stands.named begun
  exact ⟨listed, entityForConflict_injective named, workspace⟩

/-- Committing conflicts keeps the workspace orderly, wherever the loop stops. -/
theorem commitConflicts_orderly {view : WorkspaceView} (observedAtMs : Nat) {workspaceId : String}
    (here : view.workspaceId = workspaceId) (entries : List ReportedConflict) (fuse : Nat)
    {env : OpEnv} (orderly : Orderly env.journal workspaceId) (committed : List CommittedConflict) :
    Orderly (stateAfter (commitConflicts view observedAtMs fuse env committed entries)).journal
      workspaceId := by
  induction entries generalizing fuse env committed with
  | nil => exact orderly
  | cons entry rest ih =>
    unfold commitConflicts
    split
    · exact ih fuse orderly committed
    · cases newerClaim view entry.claimA entry.claimB with
      | error error => exact orderly
      | ok newer =>
        have legal : Legal env.journal workspaceId
            (.conflictOpened (heuristicOpened view observedAtMs entry newer)) :=
          legal_opened env.journal here ⟨rfl, rfl⟩
        have kept := appendOne_orderly fuse conflictsCommitOp orderly legal
        simp only
        cases step : appendOne fuse conflictsCommitOp env
            (.conflictOpened (heuristicOpened view observedAtMs entry newer)) with
        | error failure =>
          rw [step] at kept
          exact kept
        | ok taken =>
          rw [step] at kept
          exact ih taken.2.1 kept _

/-- A conflict commit keeps an orderly workspace orderly. -/
theorem conflictsCommit_orderly (fuse : Nat) {workspaceId : String} (input : ConflictsCommitInput)
    {journal : Journal} (orderly : Orderly journal workspaceId) :
    Orderly (stateAfter (conflictsCommit fuse workspaceId input journal)) workspaceId := by
  unfold conflictsCommit
  rw [assembleCurrentView_readable]
  simp only
  cases detectConflicts (viewOf workspaceId journal) with
  | error error => exact orderly
  | ok detected =>
    have here : (viewOf workspaceId journal).workspaceId = workspaceId := rfl
    have kept : Orderly (stateAfter (commitConflicts (viewOf workspaceId journal)
        input.observedAtMs fuse { workspaceId := workspaceId, journal := journal } []
        detected)).journal workspaceId :=
      commitConflicts_orderly input.observedAtMs here detected fuse orderly []
    simp only
    revert kept
    cases commitConflicts (viewOf workspaceId journal) input.observedAtMs fuse
        { workspaceId := workspaceId, journal := journal } [] detected with
    | error failure => exact id
    | ok pair => exact id

/-- A conflict resolution keeps an orderly workspace orderly. -/
theorem conflictResolve_orderly (fuse : Nat) {workspaceId : String} (input : ConflictResolveInput)
    {journal : Journal} (orderly : Orderly journal workspaceId) :
    Orderly (stateAfter (conflictResolve fuse workspaceId input journal)) workspaceId := by
  unfold conflictResolve
  split
  · exact orderly
  · rename_i known
    cases held : conflictCardAt journal.entries input.conflictId with
    | none => exact orderly
    | some card =>
      obtain ⟨listed, named, workspace⟩ := orderly.conflictCard held
      simp only
      generalize chosen : (if input.resolution = "resolved" then 2 else 3) = target
      split
      · exact orderly
      · split
        · exact orderly
        · rename_i opened
          have edge : lifecycleEdge (.conflictResolved (resolvedEvent input card target)) =
              some (1, target) := by
            unfold lifecycleEdge resolvedEvent
            by_cases resolved : input.resolution = "resolved"
            · rw [if_pos resolved] at chosen
              simp [resolved, chosen]
            · rw [if_neg resolved] at chosen
              have ignored : input.resolution = "ignored" := by
                by_contra other
                exact known ⟨resolved, other⟩
              rw [← chosen]
              simp [ignored]
          have legal : Legal journal workspaceId
              (.conflictResolved (resolvedEvent input card target)) :=
            orderly.resolved workspace edge ⟨rfl, rfl⟩ listed (not_not.mp opened) named
          have kept := appendOne_orderly fuse conflictResolveOp
            (show Orderly ({ workspaceId := workspaceId, journal := journal } : OpEnv).journal
              workspaceId from orderly) legal
          revert kept
          cases appendOne fuse conflictResolveOp { workspaceId := workspaceId, journal := journal }
              (.conflictResolved (resolvedEvent input card target)) with
          | error failure => exact id
          | ok taken => exact id

end Texo.Ops
