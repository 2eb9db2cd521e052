import Texo.Events.Coordinate
import Texo.Events.Payloads
import Texo.Error

/-! # Claim, conflict and source cards

A card is the projection of one entity stream. Cards are folded event by event;
an event of a kind the card does not handle leaves it alone, and an illegal edge is
recorded as an anomaly instead of being refused.
-/
namespace Texo.Claims
open Texo.Events

/-- Current card view for a claim entity; phases are 0 unrecorded, 1 current and 2
superseded. -/
structure ClaimCard where
  phase : Nat := 0
  claimId : String := ""
  workspaceId : String := ""
  sourceId : String := ""
  sourcePath : String := ""
  lineStart : Nat := 0
  lineEnd : Nat := 0
  charStart : Nat := 0
  charEnd : Nat := 0
  text : String := ""
  normalizedText : String := ""
  subjectHint : Option String := none
  predicateHint : Option String := none
  objectHint : Option String := none
  confidencePpm : Nat := 0
  extractorKind : String := ""
  extractorModel : String := ""
  promptVersion : String := ""
  observedAtMs : Nat := 0
  supersededBy : Option String := none
  supersededReason : String := ""
  supersededDecidedBy : String := ""
  anomalies : List String := []
deriving DecidableEq

/-- `ClaimCard::on_recorded`. -/
def ClaimCard.onRecorded (card : ClaimCard) (event : ClaimRecordedV2) : ClaimCard :=
  { card with
    anomalies := if card.phase ≠ 0 then card.anomalies ++ ["duplicate-record"] else card.anomalies
    phase := 1
    claimId := event.claimId
    workspaceId := event.workspaceId
    sourceId := event.sourceId
    sourcePath := event.sourcePath
    lineStart := event.lineStart
    lineEnd := event.lineEnd
    charStart := event.charStart
    charEnd := event.charEnd
    text := event.text
    normalizedText := event.normalizedText
    subjectHint := event.subjectHint
    predicateHint := event.predicateHint
    objectHint := event.objectHint
    confidencePpm := event.confidencePpm
    extractorKind := event.extractorKind
    extractorModel := event.extractorModel
    promptVersion := event.promptVersion
    observedAtMs := event.observedAtMs }

/-- `ClaimCard::on_superseded`: the first successor stays. -/
def ClaimCard.onSuperseded (card : ClaimCard) (event : ClaimSupersededV2) : ClaimCard :=
  let anomalies := if card.phase ≠ 1 then
    card.anomalies ++ ["supersede-from-" ++ toString card.phase] else card.anomalies
  if card.supersededBy.isSome then
    { card with anomalies := anomalies ++ ["duplicate-supersede"] }
  else
    { card with
      anomalies := anomalies
      phase := 2
      supersededBy := some event.newClaimId
      supersededReason := event.reason
      supersededDecidedBy := event.decidedBy }

/-- `ClaimCard::apply_event`. -/
def ClaimCard.applyEvent (card : ClaimCard) : Payload → ClaimCard
  | .claimRecorded event => card.onRecorded event
  | .claimSuperseded event => card.onSuperseded event
  | _ => card

/-- Current card view for a conflict entity; phases are 0 unopened, 1 open, 2
resolved and 3 ignored. -/
structure ConflictCard where
  phase : Nat := 0
  conflictId : String := ""
  workspaceId : String := ""
  claimA : String := ""
  claimB : String := ""
  reason : String := ""
  detector : String := ""
  resolution : String := ""
  resolvedBy : String := ""
  openedAtMs : Nat := 0
  resolvedAtMs : Nat := 0
  anomalies : List String := []
deriving DecidableEq

/-- `ConflictCard::on_opened`. -/
def ConflictCard.onOpened (card : ConflictCard) (event : ConflictOpenedV2) : ConflictCard :=
  { card with
    anomalies := if card.phase ≠ 0 then card.anomalies ++ ["duplicate-open"] else card.anomalies
    phase := 1
    conflictId := event.conflictId
    workspaceId := event.workspaceId
    claimA := event.claimA
    claimB := event.claimB
    reason := event.reason
    detector := event.detector
    openedAtMs := event.observedAtMs }

/-- `ConflictCard::on_resolved`: an unknown resolution keeps the phase. -/
def ConflictCard.onResolved (card : ConflictCard) (event : ConflictResolvedV2) : ConflictCard :=
  let anomalies := if card.phase ≠ 1 then
    card.anomalies ++ ["resolve-from-" ++ toString card.phase] else card.anomalies
  { card with
    anomalies := if event.resolution = "resolved" ∨ event.resolution = "ignored" then
      anomalies else anomalies ++ ["unknown-resolution"]
    phase := if event.resolution = "resolved" then 2
      else if event.resolution = "ignored" then 3 else card.phase
    conflictId := event.conflictId
    workspaceId := event.workspaceId
    resolution := event.resolution
    resolvedBy := event.resolvedBy
    resolvedAtMs := event.observedAtMs }

/-- `ConflictCard::apply_event`. -/
def ConflictCard.applyEvent (card : ConflictCard) : Payload → ConflictCard
  | .conflictOpened event => card.onOpened event
  | .conflictResolved event => card.onResolved event
  | _ => card

/-- Latest source observation plus observation count. -/
structure SourceCard where
  sourceId : String := ""
  workspaceId : String := ""
  sourceKind : String := ""
  path : String := ""
  bodyHashHex : String := ""
  observedAtMs : Nat := 0
  observations : Nat := 0
deriving DecidableEq

/-- `SourceCard::on_observed`. -/
def SourceCard.onObserved (card : SourceCard) (event : SourceObservedV2) : SourceCard where
  sourceId := event.sourceId
  workspaceId := event.workspaceId
  sourceKind := event.sourceKind
  path := event.path
  bodyHashHex := event.bodyHashHex
  observedAtMs := event.observedAtMs
  observations := saturatingAdd32 card.observations 1

/-- `SourceCard::apply_event`. -/
def SourceCard.applyEvent (card : SourceCard) : Payload → SourceCard
  | .sourceObserved event => card.onObserved event
  | _ => card

/-- Lifecycle status of a claim in assembled workspace state. -/
inductive ClaimStatus where
  | current
  | superseded
  | conflicting
deriving DecidableEq, Repr

/-- `claim_status`: superseded before conflicting before current. -/
def claimStatus (card : ClaimCard) (inOpenConflict : Bool) : ClaimStatus :=
  if card.phase = 2 then .superseded else if inOpenConflict then .conflicting else .current

/-- Cached card by entity kind. -/
inductive CachedCard where
  | claim (card : ClaimCard)
  | conflict (card : ConflictCard)
  | source (card : SourceCard)
deriving DecidableEq

/-- The card a family starts from. -/
def emptyCard : CardFamily → CachedCard
  | .claim => .claim {}
  | .conflict => .conflict {}
  | .source => .source {}

/-- Kinds registered for a card family. -/
def relevant : CardFamily → EventKind → Bool
  | .claim, kind => kind = .claimRecorded || kind = .claimSuperseded
  | .conflict, kind => kind = .conflictOpened || kind = .conflictResolved
  | .source, kind => kind = .sourceObserved

/-- `apply_event` on a cached card; a card of another family is left alone. -/
def CachedCard.applyEvent (card : CachedCard) (family : CardFamily) (payload : Payload) : CachedCard :=
  match card, family with
  | .claim card, .claim => .claim (card.applyEvent payload)
  | .conflict card, .conflict => .conflict (card.applyEvent payload)
  | .source card, .source => .source (card.applyEvent payload)
  | card, _ => card

end Texo.Claims
