import Texo.Claims.CacheRuns
import Texo.Claims.Evidence
import Texo.Semantics.Pipeline
import Texo.Store.Policy

/-! # Projections shared by the operations

What an operation reads before it decides anything: the current workspace view, the frozen
source snapshots, and the source-order policy of the view's claims.
-/
namespace Texo.Ops
open Texo.Events Texo.Knowledge Texo.Store Texo.Claims Texo.Semantics

/-- A read handle on which every read succeeds. -/
def readable (journal : Journal) : JournalRead := JournalRead.intact journal fun _ => none

/-- Rows of one workspace. -/
def workspaceRows (journal : Journal) (workspaceId : String) : List Entry :=
  journal.region (scopeForWorkspace workspaceId)

/-- The view of a journal's workspace: the replay of its rows. -/
def viewOf (workspaceId : String) (journal : Journal) : WorkspaceView :=
  replayView workspaceId (workspaceRows journal workspaceId)

/-- `assemble_current_view` with a fresh projection cache. -/
def assembleCurrentView (store : JournalRead) (workspaceId : String) :
    Except TexoError WorkspaceView :=
  match assemble store workspaceId {} with
  | .error failure => .error failure.error
  | .ok (view, _) => .ok view

/-- The current view of a readable journal is the replay of its rows. -/
theorem assembleCurrentView_readable (journal : Journal) (workspaceId : String) :
    assembleCurrentView (readable journal) workspaceId = .ok (viewOf workspaceId journal) := by
  obtain ⟨next, answered⟩ := assemble_default journal (fun _ => none) workspaceId
  simp only [assembleCurrentView, readable, answered, workspaceRows, viewOf]

/-- One row of a snapshot scan. -/
def scanSourceSnapshot (store : JournalRead) (snapshots : List SourceSnapshotRecordedV1)
    (entry : Entry) : Except TexoError (List SourceSnapshotRecordedV1) :=
  if entry.payload.kind = .sourceSnapshotRecorded then
    (store.readRaw entry).map fun
      | .sourceSnapshotRecorded snapshot => snapshots ++ [snapshot]
      | _ => snapshots
  else
    .ok snapshots

/-- The rows a scan with an optional frontier visits. -/
def scannedRows (store : JournalRead) (workspaceId : String) : Option Nat → List Entry
  | none => (store.pages (scopeForWorkspace workspaceId) none).flatten
  | some frontier => store.rowsThrough (scopeForWorkspace workspaceId) frontier

/-- `source_snapshots_through`. -/
def sourceSnapshotsThrough (store : JournalRead) (workspaceId : String) (frontier : Option Nat) :
    Except TexoError (List SourceSnapshotRecordedV1) :=
  (scannedRows store workspaceId frontier).foldlM (scanSourceSnapshot store) []

/-- `latest_source_snapshot`. -/
def latestSourceSnapshot (store : JournalRead) (workspaceId : String) (frontier : Option Nat) :
    Except TexoError (Option SourceSnapshotRecordedV1) :=
  (sourceSnapshotsThrough store workspaceId frontier).map List.getLast?

/-- `source_snapshot_by_id`: the last recorded snapshot under an id. -/
def sourceSnapshotById (store : JournalRead) (workspaceId : String) (snapshotId : SourceSnapshotId) :
    Except TexoError (Option SourceSnapshotRecordedV1) :=
  (sourceSnapshotsThrough store workspaceId none).map fun snapshots =>
    snapshots.reverse.find? fun snapshot => snapshot.snapshotId = snapshotId

/-- `ClaimId::try_from` with its error lifted. -/
def claimIdOf (value : String) : Except TexoError ClaimId :=
  match Branded.tryFrom "claim_" value with
  | .error error => .error (.idParse error)
  | .ok claimId => .ok claimId

/-- A parsed claim id is the text it was parsed from. -/
theorem value_of_claimIdOf {value : String} {claimId : ClaimId}
    (parsed : claimIdOf value = .ok claimId) : claimId.value = value := by
  unfold claimIdOf at parsed
  split at parsed
  · cases parsed
  · rename_i read
    rw [← Except.ok.inj parsed]
    exact Branded.value_of_tryFrom read

/-- `WorkspaceId::new` with its error lifted. -/
def workspaceIdOf (value : String) : Except TexoError WorkspaceId :=
  match WorkspaceId.new value with
  | .error error => .error (.idParse error)
  | .ok workspaceId => .ok workspaceId

/-- A validated workspace id is the text it was made from. -/
theorem value_of_workspaceIdOf {value : String} {workspaceId : WorkspaceId}
    (named : workspaceIdOf value = .ok workspaceId) : workspaceId.value = value := by
  unfold workspaceIdOf WorkspaceId.new at named
  by_cases valid : validateWorkspace value = true
  · rw [dif_pos valid] at named
    rw [← Except.ok.inj named]
  · rw [dif_neg valid] at named
    cases named

/-- Bind a claim to the snapshot of its latest deterministic support, if it has any. -/
def bindLatest (evidence : EvidenceProjection) (policy : RelateTemporalPolicy) (claimId : ClaimId) :
    RelateTemporalPolicy :=
  match latestSupport (evidence.forClaim claimId.value) with
  | none => policy
  | some latest => policy.bindClaim claimId latest.occurrence.snapshotId

/-- Bind one claim of the view; an unparseable id fails. -/
def bindViewClaim (evidence : EvidenceProjection) (policy : RelateTemporalPolicy)
    (claim : Claims.ClaimView) : Except TexoError RelateTemporalPolicy :=
  (claimIdOf claim.card.claimId).map (bindLatest evidence policy)

/-- `workspace_temporal_policy_through`. -/
def workspaceTemporalPolicyThrough (store : JournalRead) (workspaceId : String)
    (view : WorkspaceView) (frontier : Nat) : Except TexoError RelateTemporalPolicy := do
  let evidence ← assembleEvidenceThrough store workspaceId frontier
  let relations ← assembleTemporalThrough store workspaceId frontier
  let bound ← view.claims.foldlM (bindViewClaim evidence) {}
  .ok (relations.toList.foldl (fun policy fact =>
    policy.insertRelationIds fact.1.1 fact.1.2 fact.2) bound)

/-- `workspace_temporal_policy`. -/
def workspaceTemporalPolicy (store : JournalRead) (workspaceId : String) (view : WorkspaceView) :
    Except TexoError RelateTemporalPolicy :=
  workspaceTemporalPolicyThrough store workspaceId view view.frontier

end Texo.Ops
