import Std.Data.ExtTreeSet
import Texo.Claims.History
import Texo.Claims.Settlement
import Texo.Ops.Common

/-! # Settlement authority read off the journal

Every relation stream of a workspace is folded into its settlement card, up to a frontier where
one is given. The first judgment of a stream is the verdict of its pair; later ones that differ
only warn.
-/
namespace Texo.Relate
open Texo.Events Texo.Store Texo.Claims Texo.Semantics Texo.Foundation Texo.Ops

/-- A later verdict that contradicts the authoritative one. -/
structure AuthorityWarning where
  oldClaim : ClaimId
  newClaim : ClaimId
  priorVerdict : SettledRelation
  priorFingerprint : String
  newVerdict : SettledRelation
  newFingerprint : String
  message : String
deriving DecidableEq

/-- Verdicts the journal has settled, with their provenance. -/
structure SettlementAuthority where
  verdicts : SettledMap := ∅
  cacheKeys : PairMap String String := ∅
  warnings : List AuthorityWarning := []
  unresolvedPairs : Nat := 0

/-- `settlement_entities`: the relation streams of a workspace, in order. -/
def settlementEntities (store : JournalRead) (workspaceId : String) (frontier : Option Nat) :
    List String :=
  ((scannedRows store workspaceId frontier).foldl (fun (entities : Std.ExtTreeSet String) entry =>
    if startsWith entry.entity "relation:" then entities.insert entry.entity else entities) ∅).toList

/-- The rows of one stream a settlement card folds. -/
def streamRows (store : JournalRead) (entity : String) : Option Nat → List Entry
  | none => store.journal.byEntity entity
  | some frontier =>
    (store.journal.byEntity entity).takeWhile fun entry => entry.sequence ≤ frontier

/-- The settlement card of one relation stream. -/
def settlementCard (store : JournalRead) (entity : String) (frontier : Option Nat) :
    Except TexoError SettlementCard :=
  (streamRows store entity frontier).foldlM
    (fun (card : SettlementCard) entry => (store.readRaw entry).map card.applyEvent) {}

/-- The warnings of a card's later judgments. -/
def authorityWarnings (older newer : ClaimId) (authoritative : JudgmentRecord)
    (laterJudgments : List JudgmentRecord) : List AuthorityWarning :=
  (laterJudgments.filter fun later => later.relation ≠ authoritative.relation).map fun later =>
    { oldClaim := older
      newClaim := newer
      priorVerdict := authoritative.relation
      priorFingerprint := authoritative.judgeFingerprint
      newVerdict := later.relation
      newFingerprint := later.judgeFingerprint
      message := "authoritative verdict unchanged" }

/-- One card of `authoritative_settlements`. -/
def SettlementAuthority.settle (authority : SettlementAuthority) (card : SettlementCard) :
    Except TexoError SettlementAuthority :=
  match card.authoritative with
  | none =>
    .ok (if card.deferrals = [] then authority
      else { authority with unresolvedPairs := authority.unresolvedPairs + 1 })
  | some authoritative => do
    let older ← claimIdOf card.olderClaim
    let newer ← claimIdOf card.newerClaim
    let verdict : RelationVerdict :=
      ⟨ClaimRelation.ofSettled authoritative.relation, authoritative.scorePpm⟩
    .ok
      { authority with
        verdicts := authority.verdicts.insert (older, newer) verdict
        cacheKeys := authority.cacheKeys.insert (older.value, newer.value) authoritative.cacheKeyHex
        warnings := authority.warnings ++
          authorityWarnings older newer authoritative card.laterJudgments }

/-- `authoritative_settlements`. -/
def authoritativeSettlements (store : JournalRead) (workspaceId : String) (frontier : Option Nat) :
    Except TexoError SettlementAuthority :=
  (settlementEntities store workspaceId frontier).foldlM
    (fun (authority : SettlementAuthority) entity => do
      let card ← settlementCard store entity frontier
      authority.settle card) {}

end Texo.Relate
