import Texo.Events.Payloads

/-! # Settlement and campaign projections

The card of one logical relation pair keeps its first judgment as authority and every later one
as history. The card of a campaign stream keeps the latest checkpoint.
-/
namespace Texo.Claims
open Texo.Events

/-- One projected judgment row. -/
structure JudgmentRecord where
  relation : SettledRelation
  scorePpm : Nat
  judgeFingerprint : String
  cacheKeyHex : String
  observedAtMs : Nat
deriving DecidableEq

/-- One projected deferral row. -/
structure DeferralRecord where
  failureClass : RelationFailureClass
  attempts : Nat
  observedAtMs : Nat
deriving DecidableEq

/-- Settlement history for one provider-neutral logical pair. -/
structure SettlementCard where
  workspaceId : String := ""
  olderClaim : String := ""
  newerClaim : String := ""
  authoritative : Option JudgmentRecord := none
  laterJudgments : List JudgmentRecord := []
  deferrals : List DeferralRecord := []
deriving DecidableEq

/-- `SettlementCard::on_judged`: the first judgment stays authoritative. -/
def SettlementCard.onJudged (card : SettlementCard) (event : RelationJudgedV1) : SettlementCard :=
  let record : JudgmentRecord :=
    { relation := event.relation
      scorePpm := event.scorePpm
      judgeFingerprint := event.judgeFingerprint
      cacheKeyHex := event.cacheKeyHex
      observedAtMs := event.observedAtMs }
  { card with
    workspaceId := event.workspaceId.value
    olderClaim := event.olderClaim.value
    newerClaim := event.newerClaim.value
    authoritative := card.authoritative.or (some record)
    laterJudgments :=
      if card.authoritative.isNone then card.laterJudgments else card.laterJudgments ++ [record] }

/-- `SettlementCard::on_deferred`. -/
def SettlementCard.onDeferred (card : SettlementCard) (event : RelationDeferredV1) :
    SettlementCard :=
  { card with
    workspaceId := event.workspaceId.value
    olderClaim := event.olderClaim.value
    newerClaim := event.newerClaim.value
    deferrals := card.deferrals ++ [
      { failureClass := event.failureClass
        attempts := event.attempts
        observedAtMs := event.observedAtMs }] }

/-- `SettlementCard::apply_event`. -/
def SettlementCard.applyEvent (card : SettlementCard) : Payload → SettlementCard
  | .relationJudged event => card.onJudged event
  | .relationDeferred event => card.onDeferred event
  | _ => card

/-- Latest durable progress proof for one workspace relation campaign. -/
structure CampaignCard where
  latest : Option RelationCampaignCheckpointV1 := none
deriving DecidableEq

/-- `CampaignCard::on_checkpoint`: the last checkpoint in commit order stays. -/
def CampaignCard.onCheckpoint (_ : CampaignCard) (event : RelationCampaignCheckpointV1) :
    CampaignCard where
  latest := some event

/-- `CampaignCard::apply_event`. -/
def CampaignCard.applyEvent (card : CampaignCard) : Payload → CampaignCard
  | .campaignCheckpoint event => card.onCheckpoint event
  | _ => card

end Texo.Claims
