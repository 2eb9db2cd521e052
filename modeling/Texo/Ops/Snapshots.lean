import Texo.Knowledge.Token
import Texo.Relate.Authority
import Texo.Relate.Campaign

/-! # Snapshot-consistent reads

A read without a token answers from the latest view and mints a token for it. A read with a token
checks the token's source snapshot and anchor against the journal and replays the journal up to
the token's frontier. What a token reads does not change while the journal grows.
-/
namespace Texo.Ops
open Texo.Events Texo.Knowledge Texo.Store Texo.Claims Texo.Semantics Texo.Foundation Texo.Relate

/-- The number a store keeps for each event identity. -/
class EventNumbering where
  /-- `EventId::as_u128`. -/
  asU128 : EventId → BitVec 128

/-- `{:032x}`: a number in 32 lowercase hexadecimal digits. -/
def lowerHex32 (number : BitVec 128) : String :=
  String.ofList ((List.range 32).map fun place =>
    Nat.digitChar (number.toNat / 16 ^ (31 - place) % 16))

/-- Snapshot identity returned by every agent-facing read. -/
structure SnapshotRead where
  token : String
  descriptor : SnapshotDescriptor
deriving DecidableEq

/-- `KnowledgeContractError::fmt`. -/
def contractMessage : KnowledgeContractError → String
  | .invalidIdentifier kind => "invalid " ++ kind ++ " identifier"
  | .invalidDigest field length =>
    field ++ " must be exactly " ++ toString length ++ " lowercase hexadecimal characters"
  | .reversedRange first last =>
    "byte range start " ++ toString first ++ " exceeds end " ++ toString last
  | .invalidLineRange first last =>
    "line range must be one-based and ordered; received " ++ toString first ++ "..=" ++ toString last
  | .excerptTooLarge actual maximum =>
    "evidence excerpt is " ++ toString actual ++ " bytes; maximum is " ++ toString maximum

/-- One row of a code-index scan: the last registration for the snapshot stays. -/
def scanCodeIndex (store : JournalRead) (snapshotId : SourceSnapshotId)
    (latest : Option CodeIndexRecordedV1) (entry : Entry) :
    Except TexoError (Option CodeIndexRecordedV1) :=
  if entry.payload.kind = .codeIndexRecorded then
    (store.readRaw entry).map fun
      | .codeIndexRecorded recorded =>
        if recorded.snapshotId = snapshotId then some recorded else latest
      | _ => latest
  else
    .ok latest

/-- `latest_code_index`. -/
def latestCodeIndex (store : JournalRead) (workspaceId : String) (frontier : Option Nat)
    (snapshotId : SourceSnapshotId) : Except TexoError (Option CodeIndexRecordedV1) :=
  (scannedRows store workspaceId frontier).foldlM (scanCodeIndex store snapshotId) none

section Reads
variable [Blake3] [EventNumbering]

/-- The anchor of an event as a descriptor writes it. -/
def eventIdHex (eventId : EventId) : String := lowerHex32 (EventNumbering.asU128 eventId)

/-- `SnapshotRead::new`. -/
def SnapshotRead.new (descriptor : SnapshotDescriptor) : SnapshotRead where
  token := SnapshotToken.forDescriptor descriptor
  descriptor := descriptor

/-- `anchor_at_frontier`: the event at the frontier, or nothing for an empty journal. -/
def anchorAtFrontier (store : JournalRead) (workspaceId : String) (frontier : Nat) :
    Except TexoError String :=
  if frontier = 0 then
    .ok ""
  else
    match ((store.queryEntriesAfter (scopeForWorkspace workspaceId) (some (frontier - 1)) 1).head?).filter
      fun entry => entry.sequence = frontier with
    | none =>
      .error (.snapshot .unavailable ("workspace frontier " ++ toString frontier ++ " is unavailable"))
    | some entry => .ok (eventIdHex entry.eventId)

/-- `snapshot_for_view`. -/
def snapshotForView (store : JournalRead) (workspaceId : String) (journalId : JournalId)
    (view : WorkspaceView) : Except TexoError SnapshotRead := do
  let named ← workspaceIdOf view.workspaceId
  let anchor ← anchorAtFrontier store workspaceId view.frontier
  let source ← latestSourceSnapshot store workspaceId (some view.frontier)
  .ok (.new
    { workspaceId := named
      journalId := journalId
      frontier := view.frontier
      anchorEventIdHex := anchor
      sourceSnapshotId := source.map SourceSnapshotRecordedV1.snapshotId })

/-- `validate_snapshot_anchor`. -/
def validateSnapshotAnchor (store : JournalRead) (workspaceId : String)
    (descriptor : SnapshotDescriptor) : Except TexoError Unit := do
  let actual ← anchorAtFrontier store workspaceId descriptor.frontier
  require (actual = descriptor.anchorEventIdHex) (.snapshot .anchorMismatch
    ("journal anchor at frontier " ++ toString descriptor.frontier ++ " differs from the token"))

/-- `assemble_snapshot_view` without a token: the latest view and a token for it. -/
def latestSnapshotView (store : JournalRead) (workspaceId : String) (journalId : JournalId)
    (cache : WorkspaceCache) : Except TexoError (WorkspaceView × SnapshotRead) :=
  match assemble store workspaceId cache with
  | .error failure => .error failure.error
  | .ok (view, _) =>
    (snapshotForView store workspaceId journalId view).map fun snapshot => (view, snapshot)

/-- `assemble_snapshot_view` with a token: the view the token was minted for. -/
def requestedSnapshotView (store : JournalRead) (workspaceId : String) (journalId : JournalId)
    (requested : String) : Except TexoError (WorkspaceView × SnapshotRead) := do
  let named ← workspaceIdOf workspaceId
  let descriptor ← match SnapshotToken.resolveForJournal requested named journalId with
    | .error error => .error (.snapshot .invalidToken (contractMessage error))
    | .ok descriptor => .ok descriptor
  let available ← latestSourceSnapshot store workspaceId (some descriptor.frontier)
  require (available.map SourceSnapshotRecordedV1.snapshotId = descriptor.sourceSnapshotId)
    (.snapshot .sourceUnavailable "the token's source snapshot is unavailable at its journal frontier")
  validateSnapshotAnchor store workspaceId descriptor
  let view ← match assembleThrough store workspaceId descriptor.frontier with
    | .error error => .error (.snapshot .unavailable error.message)
    | .ok view => .ok view
  .ok (view, .new descriptor)

/-- `assemble_snapshot_view`. -/
def assembleSnapshotView (store : JournalRead) (workspaceId : String) (journalId : JournalId)
    (cache : WorkspaceCache) : Option String → Except TexoError (WorkspaceView × SnapshotRead)
  | none => latestSnapshotView store workspaceId journalId cache
  | some requested => requestedSnapshotView store workspaceId journalId requested

end Reads

/-- 32 hexadecimal digits are an event id's text. -/
theorem isLowerHex_lowerHex32 (number : BitVec 128) : isLowerHex (lowerHex32 number) 32 = true := by
  apply isLowerHex_iff.mpr
  constructor
  · simp [lowerHex32]
  · intro c member
    simp only [lowerHex32, String.toList_ofList, List.mem_map] at member
    obtain ⟨place, _, same⟩ := member
    have small : number.toNat / 16 ^ (31 - place) % 16 < 16 := Nat.mod_lt _ (by decide)
    have digits : ∀ value < 16, lowerHexChar (Nat.digitChar value) = true := by decide
    rw [← same]
    exact digits _ small

section Growth
variable {earlier later : Journal} {g h : String → Option Nat}
  {workspaceId : String}

/-- The frontier of a region is at most the journal's last sequence. -/
theorem frontierOf_region_le (journal : Journal) (scope : String) :
    frontierOf (journal.region scope) ≤ journal.lastSequence := by
  cases final : (journal.region scope).getLast? with
  | none => simp [frontierOf, final]
  | some last =>
    have member := (Journal.mem_region.mp (List.mem_of_getLast? final)).1
    have bound := journal.le_lastSequence member
    simpa [frontierOf, final] using bound

/-- A bounded replay is the bounded part of its region. -/
theorem rowsThrough_eq (store : JournalRead) (scope : String) (frontier : Nat) :
    store.rowsThrough scope frontier =
      (store.journal.region scope).takeWhile fun entry => entry.sequence ≤ frontier := by
  rw [JournalRead.rowsThrough, JournalRead.flatten_pages, rowsAfter_none]

variable (grown : earlier.Extends later) {frontier : Nat} (bound : frontier ≤ earlier.lastSequence)
include grown bound

/-- A scan up to a frontier visits the same rows of a continuation. -/
theorem scannedRows_grown :
    scannedRows (JournalRead.intact later h) workspaceId (some frontier) =
      scannedRows (JournalRead.intact earlier g) workspaceId (some frontier) := by
  rw [scannedRows, scannedRows, rowsThrough_eq, rowsThrough_eq]
  exact grown.rows_through _ bound

/-- A stream up to a frontier has the same rows in a continuation. -/
theorem streamRows_grown (entity : String) :
    streamRows (JournalRead.intact later h) entity (some frontier) =
      streamRows (JournalRead.intact earlier g) entity (some frontier) :=
  grown.rows_through _ bound

/-- The latest code-index registration at a frontier does not change. -/
theorem latestCodeIndex_grown (snapshotId : SourceSnapshotId) :
    latestCodeIndex (JournalRead.intact later h) workspaceId (some frontier) snapshotId =
      latestCodeIndex (JournalRead.intact earlier g) workspaceId (some frontier)
        snapshotId := by
  rw [latestCodeIndex, latestCodeIndex, scannedRows_grown grown bound]
  rfl

/-- The evidence at a frontier does not change. -/
theorem assembleEvidenceThrough_grown :
    assembleEvidenceThrough (JournalRead.intact later h) workspaceId frontier =
      assembleEvidenceThrough (JournalRead.intact earlier g) workspaceId frontier := by
  rw [assembleEvidenceThrough, assembleEvidenceThrough, rowsThrough_eq, rowsThrough_eq]
  have rows := grown.rows_through (fun entry => entry.scope = scopeForWorkspace workspaceId) bound
  simp only [JournalRead.intact, Journal.region, rows]
  rfl

/-- The source order at a frontier does not change. -/
theorem assembleTemporalThrough_grown :
    assembleTemporalThrough (JournalRead.intact later h) workspaceId frontier =
      assembleTemporalThrough (JournalRead.intact earlier g) workspaceId frontier := by
  rw [assembleTemporalThrough, assembleTemporalThrough, rowsThrough_eq, rowsThrough_eq]
  have rows := grown.rows_through (fun entry => entry.scope = scopeForWorkspace workspaceId) bound
  simp only [JournalRead.intact, Journal.region, rows]
  rfl

/-- The temporal policy of a view at a frontier does not change. -/
theorem workspaceTemporalPolicyThrough_grown (view : WorkspaceView) :
    workspaceTemporalPolicyThrough (JournalRead.intact later h) workspaceId view frontier =
      workspaceTemporalPolicyThrough (JournalRead.intact earlier g) workspaceId view
        frontier := by
  rw [workspaceTemporalPolicyThrough, workspaceTemporalPolicyThrough,
    assembleEvidenceThrough_grown (g := g) grown bound,
    assembleTemporalThrough_grown (g := g) grown bound]

/-- The settlement authority at a frontier does not change. -/
theorem authoritativeSettlements_grown :
    authoritativeSettlements (JournalRead.intact later h) workspaceId (some frontier) =
      authoritativeSettlements (JournalRead.intact earlier g) workspaceId
        (some frontier) := by
  have entities : settlementEntities (JournalRead.intact later h) workspaceId
        (some frontier) =
      settlementEntities (JournalRead.intact earlier g) workspaceId (some frontier) := by
    rw [settlementEntities, settlementEntities, scannedRows_grown grown bound]
  have cards : ∀ entity, settlementCard (JournalRead.intact later h) entity
        (some frontier) =
      settlementCard (JournalRead.intact earlier g) entity (some frontier) := by
    intro entity
    rw [settlementCard, settlementCard, streamRows_grown grown bound]
    rfl
  simp only [authoritativeSettlements, entities, cards]

/-- The latest checkpoint at a view's frontier does not change. -/
theorem latestCheckpoint_grown {view : WorkspaceView} (at_ : view.frontier = frontier) :
    latestCheckpoint (JournalRead.intact later h) view =
      latestCheckpoint (JournalRead.intact earlier g) view := by
  rw [latestCheckpoint, latestCheckpoint, at_]
  have rows := grown.rows_through
    (fun entry => entry.entity = entityForRelationCampaign view.workspaceId) bound
  simp only [JournalRead.intact, Journal.byEntity, rows]
  rfl

end Growth

/-- The source snapshots recorded in some rows, in order. -/
def recordedSnapshots (rows : List Entry) : List SourceSnapshotRecordedV1 :=
  rows.filterMap fun row =>
    match row.payload with
    | .sourceSnapshotRecorded snapshot => some snapshot
    | _ => none

/-- The snapshot scan of readable rows lists what they record. -/
theorem foldlM_scanSourceSnapshot (journal : Journal) (g : String → Option Nat)
    (rows : List Entry) (snapshots : List SourceSnapshotRecordedV1) :
    rows.foldlM (scanSourceSnapshot (JournalRead.intact journal g)) snapshots =
      .ok (snapshots ++ recordedSnapshots rows) := by
  induction rows generalizing snapshots with
  | nil => simp [recordedSnapshots, pure, Except.pure]
  | cons row rest ih =>
    have step : scanSourceSnapshot (JournalRead.intact journal g) snapshots row =
        .ok (snapshots ++ recordedSnapshots [row]) := by
      unfold scanSourceSnapshot
      by_cases kind : row.payload.kind = .sourceSnapshotRecorded
      · rw [if_pos kind]
        cases stored : row.payload with
        | sourceSnapshotRecorded snapshot =>
          simp [JournalRead.readRaw, JournalRead.intact, stored, recordedSnapshots, Except.map]
        | _ => simp [stored, Payload.kind] at kind
      · rw [if_neg kind]
        cases stored : row.payload with
        | sourceSnapshotRecorded _ => exact absurd (by rw [stored]; rfl) kind
        | _ => simp [recordedSnapshots, stored]
    have joined : recordedSnapshots (row :: rest) = recordedSnapshots [row] ++ recordedSnapshots rest := by
      rw [recordedSnapshots, recordedSnapshots, recordedSnapshots, ← List.filterMap_append]
      rfl
    rw [List.foldlM_cons, step, joined, ← List.append_assoc]
    exact ih _

/-- A readable journal lists the snapshots its scanned rows record. -/
theorem sourceSnapshotsThrough_intact (journal : Journal) (g : String → Option Nat)
    (workspaceId : String) (frontier : Option Nat) :
    sourceSnapshotsThrough (JournalRead.intact journal g) workspaceId frontier =
      .ok (recordedSnapshots
        (scannedRows (JournalRead.intact journal g) workspaceId frontier)) := by
  rw [sourceSnapshotsThrough, foldlM_scanSourceSnapshot, List.nil_append]

/-- What the numeric and identifier types of the stored rows promise: sequences are `u64`s and
recorded snapshot ids were built by their derivation or their parser. -/
structure RowTypes (journal : Journal) : Prop where
  sequences : ∀ row ∈ journal.entries, row.sequence < 2 ^ 64
  snapshots : ∀ row ∈ journal.entries, ∀ snapshot, row.payload = .sourceSnapshotRecorded snapshot →
    wellFormedId "snapshot_" snapshot.snapshotId.value = true

section Tokens
variable [Blake3] [EventNumbering]

omit [Blake3] in
/-- The anchor at the frontier of a leading part is its last event. -/
theorem anchorAtFrontier_leading {store : JournalRead} {workspaceId : String}
    {front back : List Entry}
    (split : store.journal.region (scopeForWorkspace workspaceId) = front ++ back) :
    anchorAtFrontier store workspaceId (frontierOf front) =
      .ok ((anchorOf front).elim "" eventIdHex) := by
  cases final : front.getLast? with
  | none =>
    have zero : frontierOf front = 0 := by simp [frontierOf, final]
    rw [anchorAtFrontier, if_pos zero, anchorOf, final]
    rfl
  | some last =>
    have positive : frontierOf front ≠ 0 := by
      intro zero
      have none := frontierOf_eq_zero split zero
      rw [none] at final
      cases final
    have frontier : last.sequence = frontierOf front := by simp [frontierOf, final]
    rw [anchorAtFrontier, if_neg positive, query_frontierOf split final, anchorOf, final]
    simp [Option.filter, frontier]

omit [Blake3] [EventNumbering] in
/-- The rows scanned up to the frontier of a leading part are that part. -/
theorem scannedRows_leading {store : JournalRead} {workspaceId : String} {front back : List Entry}
    (split : store.journal.region (scopeForWorkspace workspaceId) = front ++ back) :
    scannedRows store workspaceId (some (frontierOf front)) = front :=
  rowsThrough_frontierOf split

/-- The descriptor of the view some rows replay to. -/
def descriptorOf (workspaceId : WorkspaceId) (journalId : JournalId) (rows : List Entry) :
    SnapshotDescriptor where
  workspaceId := workspaceId
  journalId := journalId
  frontier := frontierOf rows
  anchorEventIdHex := (anchorOf rows).elim "" eventIdHex
  sourceSnapshotId := (recordedSnapshots rows).getLast?.map SourceSnapshotRecordedV1.snapshotId

omit [Blake3] in
/-- The descriptor of a workspace's rows is one its token can be read back from. -/
theorem wellFormed_descriptorOf {journal : Journal} (types : RowTypes journal) (scope : String)
    (workspaceId : WorkspaceId) (journalId : JournalId) :
    (descriptorOf workspaceId journalId (journal.region scope)).WellFormed := by
  constructor
  · show frontierOf (journal.region scope) < 2 ^ 64
    cases final : (journal.region scope).getLast? with
    | none => simp [frontierOf, final]
    | some last =>
      have member := (Journal.mem_region.mp (List.mem_of_getLast? final)).1
      simpa [frontierOf, final] using types.sequences last member
  · show (anchorOf (journal.region scope)).elim "" eventIdHex = "" ∨
      isLowerHex ((anchorOf (journal.region scope)).elim "" eventIdHex) 32 = true
    cases anchorOf (journal.region scope) with
    | none => exact Or.inl rfl
    | some eventId => exact Or.inr (isLowerHex_lowerHex32 _)
  · intro snapshotId same
    simp only [descriptorOf, Option.map_eq_some_iff] at same
    obtain ⟨snapshot, latest, rfl⟩ := same
    obtain ⟨row, member, recorded⟩ := List.mem_filterMap.mp (List.mem_of_getLast? latest)
    have there := (Journal.mem_region.mp member).1
    cases stored : row.payload with
    | sourceSnapshotRecorded event =>
      rw [stored] at recorded
      rw [← Option.some.inj recorded]
      exact types.snapshots row there event stored
    | _ => simp [stored] at recorded

section Read
variable {journal : Journal} {g : String → Option Nat} {workspaceId : String}
  {front back : List Entry}
  (split : journal.region (scopeForWorkspace workspaceId) = front ++ back)
include split

omit [Blake3] [EventNumbering] in
/-- The latest source snapshot at the frontier of a leading part is its last recorded one. -/
theorem latestSourceSnapshot_leading :
    latestSourceSnapshot (JournalRead.intact journal g) workspaceId
      (some (frontierOf front)) = .ok (recordedSnapshots front).getLast? := by
  have scanned : scannedRows (JournalRead.intact journal g) workspaceId
      (some (frontierOf front)) = front := scannedRows_leading split
  rw [latestSourceSnapshot, sourceSnapshotsThrough_intact, scanned]
  rfl

/-- The token of the view of a leading part is minted for the descriptor of its rows. -/
theorem snapshotForView_leading (journalId : JournalId) {named : WorkspaceId}
    (valid : workspaceIdOf workspaceId = .ok named) :
    snapshotForView (JournalRead.intact journal g) workspaceId journalId
      (replayView workspaceId front) = .ok (.new (descriptorOf named journalId front)) := by
  have anchored : anchorAtFrontier (JournalRead.intact journal g) workspaceId
      (frontierOf front) = .ok ((anchorOf front).elim "" eventIdHex) :=
    anchorAtFrontier_leading split
  have sourced := latestSourceSnapshot_leading (g := g) split
  have named_ : (replayView workspaceId front).workspaceId = workspaceId := rfl
  have reached : (replayView workspaceId front).frontier = frontierOf front := rfl
  rw [snapshotForView, named_, reached, valid, anchored, sourced]
  rfl

/-- The token of the descriptor of a leading part reads the view of that part. -/
theorem requestedSnapshotView_leading {journalId : JournalId} (digests : ∀ bytes, isLowerHex (Blake3.hex bytes) 64 = true)
    {named : WorkspaceId} (valid : workspaceIdOf workspaceId = .ok named)
    (wellFormed : (descriptorOf named journalId front).WellFormed) :
    requestedSnapshotView (JournalRead.intact journal g) workspaceId journalId
        (SnapshotRead.new (descriptorOf named journalId front)).token =
      .ok (replayView workspaceId front, .new (descriptorOf named journalId front)) := by
  have anchored : anchorAtFrontier (JournalRead.intact journal g) workspaceId
      (frontierOf front) = .ok ((anchorOf front).elim "" eventIdHex) :=
    anchorAtFrontier_leading split
  have sourced := latestSourceSnapshot_leading (g := g) split
  have resolved : SnapshotToken.resolveForJournal
      (SnapshotRead.new (descriptorOf named journalId front)).token named journalId =
        .ok (descriptorOf named journalId front) :=
    resolveForJournal_forDescriptor digests wellFormed
  have replayed := assembleThrough_replay (g := g) split
  have frontier : (descriptorOf named journalId front).frontier = frontierOf front := rfl
  simp only [requestedSnapshotView, validateSnapshotAnchor, valid, resolved, frontier, anchored,
    sourced, replayed, bind, Except.bind]
  simp [descriptorOf, require]

end Read

/-- A read without a token answers with the replayed view and a token for its rows. -/
theorem assembleSnapshotView_latest {journal : Journal} {g : String → Option Nat}
    {workspaceId : String} (journalId : JournalId) {cache : WorkspaceCache}
    (agrees : Agrees workspaceId (journal.region (scopeForWorkspace workspaceId)) cache) :
    (∃ named, workspaceIdOf workspaceId = .ok named ∧
      assembleSnapshotView (JournalRead.intact journal g) workspaceId journalId cache
          none =
        .ok (replayView workspaceId (journal.region (scopeForWorkspace workspaceId)),
          .new (descriptorOf named journalId (journal.region (scopeForWorkspace workspaceId))))) ∨
    ∃ error, workspaceIdOf workspaceId = .error error ∧
      assembleSnapshotView (JournalRead.intact journal g) workspaceId journalId cache
          none = .error error := by
  obtain ⟨next, assembled⟩ := agrees.assemble (g := g)
  have named_ : (replayView workspaceId (journal.region (scopeForWorkspace workspaceId))).workspaceId =
      workspaceId := rfl
  cases valid : workspaceIdOf workspaceId with
  | error error =>
    refine Or.inr ⟨error, rfl, ?_⟩
    simp only [assembleSnapshotView, latestSnapshotView, assembled]
    rw [snapshotForView, named_, valid]
    rfl
  | ok named =>
    refine Or.inl ⟨named, rfl, ?_⟩
    have whole : journal.region (scopeForWorkspace workspaceId) =
        journal.region (scopeForWorkspace workspaceId) ++ [] := (List.append_nil _).symm
    have minted := snapshotForView_leading (g := g) whole journalId valid
    simp only [assembleSnapshotView, latestSnapshotView, assembled]
    rw [minted]
    rfl

/-- A token minted for the latest view of a journal reads that very view from every continuation
of the journal, and so do the reads bound to its frontier. The latest view may come from any
projection cache that agrees with the journal. -/
theorem snapshot_token_stable (digests : ∀ bytes, isLowerHex (Blake3.hex bytes) 64 = true)
    {earlier later : Journal} (grown : earlier.Extends later) (types : RowTypes earlier)
    {g h : String → Option Nat} {workspaceId : String} {journalId : JournalId}
    {cache : WorkspaceCache} (other : WorkspaceCache)
    (agrees : Agrees workspaceId (earlier.region (scopeForWorkspace workspaceId)) cache)
    {view : WorkspaceView} {read : SnapshotRead}
    (minted : assembleSnapshotView (JournalRead.intact earlier g) workspaceId journalId
      cache none = .ok (view, read)) :
    assembleSnapshotView (JournalRead.intact later h) workspaceId journalId other
        (some read.token) = .ok (view, read) ∧
      read.descriptor.frontier = view.frontier ∧
      authoritativeSettlements (JournalRead.intact later h) workspaceId
          (some view.frontier) =
        authoritativeSettlements (JournalRead.intact earlier g) workspaceId
          (some view.frontier) ∧
      assembleEvidenceThrough (JournalRead.intact later h) workspaceId view.frontier =
        assembleEvidenceThrough (JournalRead.intact earlier g) workspaceId view.frontier ∧
      workspaceTemporalPolicy (JournalRead.intact later h) workspaceId view =
        workspaceTemporalPolicy (JournalRead.intact earlier g) workspaceId view ∧
      latestCheckpoint (JournalRead.intact later h) view =
        latestCheckpoint (JournalRead.intact earlier g) view ∧
      ∀ snapshotId,
        latestCodeIndex (JournalRead.intact later h) workspaceId (some view.frontier)
            snapshotId =
          latestCodeIndex (JournalRead.intact earlier g) workspaceId (some view.frontier)
            snapshotId := by
  rcases assembleSnapshotView_latest (g := g) journalId agrees with
    ⟨named, valid, latest⟩ | ⟨error, _, failed⟩
  · rw [latest] at minted
    obtain ⟨same, token⟩ := Prod.mk.inj (Except.ok.inj minted)
    obtain ⟨more, continued⟩ := grown.region (scopeForWorkspace workspaceId)
    have bound : view.frontier ≤ earlier.lastSequence := by
      rw [← same]
      exact frontierOf_region_le earlier _
    refine ⟨?_, ?_, ?_, ?_, ?_, ?_, ?_⟩
    · rw [assembleSnapshotView, ← token, ← same]
      exact requestedSnapshotView_leading continued.symm digests valid
        (wellFormed_descriptorOf types _ named journalId)
    · rw [← token, ← same]
      rfl
    · exact authoritativeSettlements_grown grown bound
    · exact assembleEvidenceThrough_grown grown bound
    · exact workspaceTemporalPolicyThrough_grown grown bound view
    · exact latestCheckpoint_grown grown bound rfl
    · exact latestCodeIndex_grown grown bound
  · rw [failed] at minted
    cases minted

end Tokens

/-- Event numbers of a demonstration store. -/
@[reducible] def demoNumbering : EventNumbering where
  asU128 eventId := BitVec.ofNat 128 (171 + eventId.ordinal)

/-- A captured source state of the demonstration workspace. -/
def demoSnapshot : SourceSnapshotRecordedV1 where
  workspaceId := ⟨"demo", Eq.refl true⟩
  repositoryId := ⟨"repo_demo", Eq.refl true⟩
  snapshotId := ⟨"snapshot_0123", Eq.refl true⟩
  baseCommit := ⟨.sha1, "c0"⟩
  baseTree := ⟨.sha1, "t0"⟩
  indexDigestHex := "00"
  overlayDigestHex := "00"
  dirty := false
  coverage :=
    { analysisQuality := .unavailable, sourcesExamined := 0, occurrences := 0, truncated := false
      gaps := [] }
  captureMaxFiles := 1
  captureMaxFileBytes := 1
  captureMaxTotalBytes := 1
  observedAtMs := 1

/-- A journal that holds one captured source state. -/
def demoEarlier : Journal := (appendSourceSnapshotRecorded Journal.empty demoSnapshot).2

/-- Its continuation by another captured source state. -/
def demoLater : Journal :=
  (appendSourceSnapshotRecorded demoEarlier
    { demoSnapshot with snapshotId := ⟨"snapshot_4567", Eq.refl true⟩ }).2

/-- The token of the first source state reads it after the second one is recorded. -/
theorem snapshot_token_stable_demo :
    let _ := numeralDigest
    let _ := demoNumbering
    ∃ view read,
      assembleSnapshotView (JournalRead.intact demoEarlier fun _ => none) "demo"
          ⟨"canonical", by decide⟩ {} none = .ok (view, read) ∧
        assembleSnapshotView (JournalRead.intact demoLater fun _ => none) "demo"
          ⟨"canonical", by decide⟩ {} (some read.token) = .ok (view, read) := by
  let _ := numeralDigest
  let _ := demoNumbering
  have agrees : Agrees "demo" (demoEarlier.region (scopeForWorkspace "demo")) {} :=
    (sound_default "demo" _).agrees fun row member =>
      demoEarlier.positive row (Journal.mem_region.mp member).1
  have types : RowTypes demoEarlier := by
    constructor
    · decide
    · intro row member snapshot recorded
      have only : row = demoEarlier.entries.head (by decide) := by
        have rows : demoEarlier.entries = [demoEarlier.entries.head (by decide)] := by decide
        rw [rows, List.mem_singleton] at member
        exact member
      rw [only] at recorded
      have same : snapshot = demoSnapshot := by
        injection recorded.symm
      rw [same]
      decide
  have grown : demoEarlier.Extends demoLater := Journal.extends_append _ _ _ _ _
  rcases assembleSnapshotView_latest (g := fun _ => none) ⟨"canonical", by decide⟩ agrees with ⟨named, _, latest⟩ | ⟨error, failed, _⟩
  · exact ⟨_, _, latest, (snapshot_token_stable numeralDigest_isLowerHex grown types
      (h := fun _ => none) {} agrees latest).1⟩
  · cases failed

end Texo.Ops
