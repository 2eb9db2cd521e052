import Texo.Ops.Orderly

/-! # Superseding a claim by hand

The operation projects both claims, refuses a claim that is not current, and appends one
supersession. Asking again for what is already so changes nothing.
-/
namespace Texo.Ops
open Texo.Events Texo.Store Texo.Claims Texo.Foundation Texo.Ingest

/-- Input of one supersession. -/
structure ClaimSupersedeInput where
  old : String
  new : String
  reason : String
  decidedBy : String
  observedAtMs : Nat
deriving DecidableEq, Repr

/-- Output of one supersession. -/
structure ClaimSupersedeOutput where
  old : String
  new : String
  alreadyApplied : Bool
  receipt : Option EventId
deriving DecidableEq

/-- The operation name of a supersession. -/
def claimSupersedeOp : String := "texo.claim.supersede"

/-- `claim_phase_name`. -/
def claimPhaseName : Nat → String
  | 0 => "unrecorded"
  | 1 => "current"
  | 2 => "superseded"
  | _ => "invalid"

/-- What a claim that cannot be superseded is refused with. -/
def supersedeRefusal (input : ClaimSupersedeInput) (card : ClaimCard) : TexoError :=
  .transition claimMachine card.phase 2 (some ("claim " ++ input.old ++ " is already " ++
    claimPhaseName card.phase ++
    (match card.supersededBy with
    | none => ""
    | some successor => " by " ++ successor)))

variable [Blake3]

/-- The event of one supersession. -/
def supersedeEvent (workspaceId : String) (input : ClaimSupersedeInput) : ClaimSupersededV2 where
  oldClaimId := input.old
  newClaimId := input.new
  workspaceId := workspaceId
  reason := input.reason
  decidedBy := input.decidedBy
  observedAtMs := input.observedAtMs
  transition := transitionRecord claimMachine (entityForClaim input.old) 1 2
    [⟨0, "claim:" ++ input.new⟩] input.observedAtMs

/-- `claim_supersede` in a workspace whose store accepts `fuse` appends. -/
def claimSupersede (fuse : Nat) (workspaceId : String) (input : ClaimSupersedeInput)
    (journal : Journal) : Except (Failure Journal) (ClaimSupersedeOutput × Journal) :=
  if input.old = input.new then
    .error ⟨.opInput claimSupersedeOp "old and new claims must differ", journal⟩
  else
    match claimCardAt journal.entries input.old, claimCardAt journal.entries input.new with
    | none, _ => .error ⟨.missingEntity (entityForClaim input.old), journal⟩
    | some _, none => .error ⟨.missingEntity (entityForClaim input.new), journal⟩
    | some card, some _ =>
      if card.phase = 2 ∧ card.supersededBy = some input.new then
        .ok (⟨input.old, input.new, true, none⟩, journal)
      else if card.phase ≠ 1 then
        .error ⟨supersedeRefusal input card, journal⟩
      else
        match appendOne fuse claimSupersedeOp { workspaceId := workspaceId, journal := journal }
            (.claimSuperseded (supersedeEvent workspaceId input)) with
        | .error failure => .error ⟨failure.error, failure.left.journal⟩
        | .ok (receipt, _, superseded) =>
          .ok (⟨input.old, input.new, false, some receipt⟩, superseded.journal)

/-- A claim card of an orderly store is listed by the view, and shows its claim. -/
theorem Orderly.claimCard {journal : Journal} {workspaceId claimId : String}
    (orderly : Orderly journal workspaceId) {card : ClaimCard}
    (held : claimCardAt journal.entries claimId = some card) :
    card ∈ (viewOf workspaceId journal).claims.map ClaimView.card ∧ claimId = card.claimId := by
  have present := cardsOf_entityForClaim journal.entries claimId
  rw [held, ← orderly.region] at present
  have listed : card ∈ (viewOf workspaceId journal).claims.map ClaimView.card :=
    mem_replayView_cards.mpr ⟨_, present⟩
  obtain ⟨phase, _, begun, _, stands⟩ :=
    orderly.lawful.card orderly.conforming (Or.inl (CardFamily.of_claim claimId)) present
  exact ⟨listed, entityForClaim_injective (stands.named begun).1⟩

/-- Superseding a claim keeps the workspace orderly. -/
theorem claimSupersede_orderly (fuse : Nat) {workspaceId : String} (input : ClaimSupersedeInput)
    {journal : Journal} (orderly : Orderly journal workspaceId) :
    Orderly (stateAfter (claimSupersede fuse workspaceId input journal)) workspaceId := by
  unfold claimSupersede
  split
  · exact orderly
  · split
    · exact orderly
    · exact orderly
    · rename_i card _ held _
      split
      · exact orderly
      · split
        · exact orderly
        · rename_i current
          obtain ⟨listed, named⟩ := orderly.claimCard held
          have legal : Legal journal workspaceId
              (.claimSuperseded (supersedeEvent workspaceId input)) :=
            orderly.superseded rfl ⟨rfl, rfl⟩ listed (not_not.mp current) named
          have kept := appendOne_orderly fuse claimSupersedeOp
            (show Orderly ({ workspaceId := workspaceId, journal := journal } : OpEnv).journal
              workspaceId from orderly) legal
          revert kept
          cases appendOne fuse claimSupersedeOp { workspaceId := workspaceId, journal := journal }
              (.claimSuperseded (supersedeEvent workspaceId input)) with
          | error failure => exact id
          | ok taken => exact id

end Texo.Ops
