import Texo.Claims.Legality
import Texo.Ops.Snapshots

/-! # Verification runs

`texo.verify.run` replays the journal, reads every row and checks every card of the view. Its
projection verdict holds exactly when every claim and conflict has a legal history.
-/
namespace Texo.Ops
open Texo.Events Texo.Store Texo.Claims Texo.Foundation

/-- `EventKind::as_raw_u16`. -/
def rawKind : EventKind → Nat
  | .sourceObserved => 0xE001
  | .claimRecorded => 0xE002
  | .claimSuperseded => 0xE003
  | .conflictOpened => 0xE004
  | .conflictResolved => 0xE006
  | .relationJudged => 0xE009
  | .relationDeferred => 0xE00A
  | .campaignCheckpoint => 0xE012
  | .sourceSnapshotRecorded => 0xE00B
  | .evidenceOccurrenceRecorded => 0xE00C
  | .claimEvidenceLinked => 0xE00D
  | .sourceSnapshotRelation => 0xE00F
  | .evidenceReconciliationAccepted => 0xE010
  | .codeIndexRecorded => 0xE00E
  | .foreign raw => raw

/-- `DOMAIN_KINDS`, in their order. -/
def domainKinds : List Nat :=
  [0xE001, 0xE002, 0xE003, 0xE004, 0xE005, 0xE006, 0xE007, 0xE008, 0xE009, 0xE00A, 0xE00B, 0xE00C,
    0xE00D, 0xE00E, 0xE00F, 0xE010, 0xE012]

/-- `{:04x}` of a raw kind. -/
def lowerHex4 (raw : Nat) : String :=
  String.ofList ((List.range 4).map fun place => Nat.digitChar (raw / 16 ^ (3 - place) % 16))

/-- What walking the hash chain of the store comes to. -/
inductive ChainReport where
  | intact
  | broken (shown : String)
deriving DecidableEq, Repr

/-- The journal half of a verification: its verdict, what it noted and how far it read. -/
structure JournalScan where
  ok : Bool
  errors : List String
  eventsReplayed : Nat

/-- The scan after the chain was walked. -/
def JournalScan.ofChain : ChainReport → JournalScan
  | .intact => ⟨true, [], 0⟩
  | .broken shown => ⟨false, ["chain: " ++ shown], 0⟩

/-- `VerifyRunOutput`, less its timing. -/
structure VerifyRunOutput where
  projectionOk : Bool
  journalOk : Bool
  transitionsOk : Bool
  errors : List String
  eventsReplayed : Nat
deriving DecidableEq, Repr

/-- A claim or conflict whose phase no edge of its machine leads to. -/
def phaseError (edge : Option (Nat × Nat)) (edges : List (Nat × Nat)) (machine subject id : String)
    (phase : Nat) : List String :=
  if edge.all fun edge => !edges.contains edge then
    [subject ++ " " ++ id ++ " invalid phase " ++ toString phase ++ " for " ++ machine]
  else []

/-- What `validate_transition_edges` notes about one claim. -/
def claimErrors (card : ClaimCard) : List String :=
  let edge := match card.phase with
    | 1 => some (0, 1)
    | 2 => some (1, 2)
    | _ => none
  phaseError edge claimEdges claimMachine "claim" card.claimId card.phase ++
    if card.phase = 2 ∧ card.supersededBy = none then
      ["claim " ++ card.claimId ++ " superseded without target"]
    else []

/-- What `validate_transition_edges` notes about one conflict. -/
def conflictErrors (card : ConflictCard) : List String :=
  let edge := match card.phase with
    | 1 => some (0, 1)
    | 2 => some (1, 2)
    | 3 => some (1, 3)
    | _ => none
  phaseError edge conflictEdges conflictMachine "conflict" card.conflictId card.phase

/-- `validate_transition_edges`: what it notes; the edges hold where it notes nothing. -/
def validateTransitionEdges (view : WorkspaceView) : List String :=
  (view.claims.flatMap fun claim => claimErrors claim.card) ++ view.conflicts.flatMap conflictErrors

/-- No card of the view carries an anomaly. -/
def projectionOk (view : WorkspaceView) : Bool :=
  (view.claims.all fun claim => claim.card.anomalies.isEmpty) &&
    view.conflicts.all fun conflict => conflict.anomalies.isEmpty

section
variable [EventNumbering]

/-- One row of the journal scan. -/
def JournalScan.row (store : JournalRead) (scan : JournalScan) (entry : Entry) : JournalScan :=
  let raw := rawKind entry.payload.kind
  let counted := { scan with eventsReplayed := saturatingAdd scan.eventsReplayed 1 }
  let known := if domainKinds.contains raw then counted else
    { counted with
      ok := false
      errors := counted.errors ++
        ["unknown event kind evt." ++ lowerHex4 raw ++ " at " ++ toString entry.sequence] }
  match store.readRaw entry with
  | .ok _ => known
  | .error error =>
    { known with
      ok := false
      errors := known.errors ++ ["decode " ++ eventIdHex entry.eventId ++ ": " ++ error.message] }

/-- `verify_run`, given what walking the hash chain comes to. -/
def verifyRun (store : JournalRead) (workspaceId : String) (chain : Except TexoError ChainReport) :
    Except TexoError VerifyRunOutput := do
  let report ← chain
  let rows := (store.pages (scopeForWorkspace workspaceId) none).flatten
  let scanned := rows.foldl (JournalScan.row store) (JournalScan.ofChain report)
  let view ← assembleCurrentView store workspaceId
  let unlawful := validateTransitionEdges view
  pure {
    projectionOk := projectionOk view
    journalOk := scanned.ok
    transitionsOk := unlawful.isEmpty
    errors := scanned.errors ++
      (if projectionOk view then [] else ["projection anomalies present"]) ++ unlawful
    eventsReplayed := scanned.eventsReplayed }

/-- Every claim and conflict of the rows has a legal history. -/
def HistoriesLegal (rows : List Entry) : Prop :=
  ∀ entity : String,
    (CardFamily.of entity = some .claim → ∃ phase, ClaimPath (claimEventsOf rows entity) phase) ∧
      (CardFamily.of entity = some .conflict →
        ∃ phase, ConflictPath (conflictEventsOf rows entity) phase)

omit [EventNumbering] in
/-- The cards of a view are clean exactly when the histories behind them are legal. -/
theorem projectionOk_iff {workspaceId : String} {rows : List Entry} :
    projectionOk (replayView workspaceId rows) = true ↔ HistoriesLegal rows := by
  unfold projectionOk
  rw [Bool.and_eq_true, List.all_eq_true, List.all_eq_true]
  constructor
  · intro ⟨claims, conflicts⟩ entity
    constructor
    · intro family
      by_cases written : streamOf rows entity = []
      · have none : claimEventsOf rows entity = [] := by simp [claimEventsOf, written]
        rw [none]
        exact ⟨0, EdgePath.done 0⟩
      · obtain ⟨card, held⟩ := exists_card_of_stream family written
        have own := family_cardsOf held
        rw [family] at own
        cases card with
        | claim card =>
          have listed : card ∈ (replayView workspaceId rows).claims.map ClaimView.card :=
            mem_replayView_cards.mpr ⟨entity, held⟩
          obtain ⟨claim, member, rfl⟩ := List.mem_map.mp listed
          have clean : claim.card.anomalies = [] := List.isEmpty_iff.mp (claims claim member)
          have same := (claimCard_of_replay held).2
          rw [same] at clean
          exact claimCardOf_clean.mp clean
        | conflict card => cases own
        | source card => cases own
    · intro family
      by_cases written : streamOf rows entity = []
      · have none : conflictEventsOf rows entity = [] := by simp [conflictEventsOf, written]
        rw [none]
        exact ⟨0, EdgePath.done 0⟩
      · obtain ⟨card, held⟩ := exists_card_of_stream family written
        have own := family_cardsOf held
        rw [family] at own
        cases card with
        | claim card => cases own
        | conflict card =>
          have listed : card ∈ (replayView workspaceId rows).conflicts :=
            mem_replayView_conflicts.mpr ⟨entity, held⟩
          have clean : card.anomalies = [] := List.isEmpty_iff.mp (conflicts card listed)
          have same := (conflictCard_of_replay held).2
          rw [same] at clean
          exact conflictCardOf_clean.mp clean
        | source card => cases own
  · intro legal
    constructor
    · intro claim member
      have listed : claim.card ∈ (replayView workspaceId rows).claims.map ClaimView.card :=
        List.mem_map.mpr ⟨claim, member, rfl⟩
      obtain ⟨entity, held⟩ := mem_replayView_cards.mp listed
      obtain ⟨family, same⟩ := claimCard_of_replay held
      have clean := claimCardOf_clean.mpr ((legal entity).1 family)
      rw [same]
      exact List.isEmpty_iff.mpr clean
    · intro conflict member
      obtain ⟨entity, held⟩ := mem_replayView_conflicts.mp member
      obtain ⟨family, same⟩ := conflictCard_of_replay held
      have clean := conflictCardOf_clean.mpr ((legal entity).2 family)
      rw [same]
      exact List.isEmpty_iff.mpr clean

/-- A verification of a readable journal answers, and its projection verdict is about the
histories. -/
theorem verifyRun_projectionOk (journal : Journal) (workspaceId : String) (report : ChainReport) :
    ∃ output, verifyRun (readable journal) workspaceId (.ok report) = .ok output ∧
      (output.projectionOk = true ↔ HistoriesLegal (workspaceRows journal workspaceId)) := by
  have assembled := assembleCurrentView_readable journal workspaceId
  have verdict : projectionOk (viewOf workspaceId journal) = true ↔
      HistoriesLegal (workspaceRows journal workspaceId) := projectionOk_iff
  rw [← verdict]
  unfold verifyRun
  rw [assembled]
  exact ⟨_, rfl, Iff.rfl⟩

end

end Texo.Ops
