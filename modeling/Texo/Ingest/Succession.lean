import Texo.Foundation.Chains
import Texo.Knowledge.Token
import Texo.Ops.Orderly

/-! # Who succeeds a retired claim

An inference decides each old claim by the first new claim that offers to replace it. The order
of the new claims therefore decides what is retired where source order allows some of the offers
and holds back others, and two current claims that are each other's first allowed replacement
retire each other.
-/
namespace Texo.Ingest
open Texo.Events Texo.Extract Texo.Knowledge Texo.Claims Texo.Semantics Texo.Ops Texo.Foundation
  Texo.Store

/-- A new claim with replacement wording says something else than a current claim of its
subject. -/
def Proposes (old : Claims.ClaimView) (new : ReplacementCandidate) : Prop :=
  containsReplacementSignal new.normalizedText = true ∧ old.card.subjectHint = new.subjectHint ∧
    old.card.phase = 1 ∧ old.card.normalizedText ≠ new.normalizedText ∧
    old.card.claimId ≠ new.claimId.value

instance (old : Claims.ClaimView) (new : ReplacementCandidate) : Decidable (Proposes old new) :=
  inferInstanceAs (Decidable (_ ∧ _))

/-- A new claim offers to replace the claim listed under an id. -/
def Offers (view : WorkspaceView) (claimId : ClaimId) (new : ReplacementCandidate) : Prop :=
  ∃ old ∈ view.claims, old.card.claimId = claimId.value ∧ Proposes old new

instance (view : WorkspaceView) (claimId : ClaimId) (new : ReplacementCandidate) :
    Decidable (Offers view claimId new) :=
  inferInstanceAs (Decidable (∃ old ∈ view.claims, _))

/-- What a pair of claims proposes. -/
theorem proposal_eq_some {new : ReplacementCandidate} {old : Claims.ClaimView} {made : Proposal}
    (signal : containsReplacementSignal new.normalizedText = true)
    (subject : old.card.subjectHint = new.subjectHint) :
    proposal new old = some made ↔
      made.new = new ∧ old.card.claimId = made.oldClaimId.value ∧ Proposes old new := by
  unfold proposal Proposes
  constructor
  · intro offered
    split at offered
    · cases offered
    · rename_i passed
      push Not at passed
      split at offered
      · cases offered
      · rename_i claimId parsed
        rw [← Option.some.inj offered]
        exact ⟨rfl, (Branded.value_of_tryFrom parsed).symm, signal, subject, passed.2.1,
          passed.2.2, passed.1⟩
  · intro ⟨drawn, named, _, _, current, differs, other⟩
    have passed : ¬ (old.card.claimId = new.claimId.value ∨ old.card.phase ≠ 1 ∨
        old.card.normalizedText = new.normalizedText) := by
      push Not
      exact ⟨other, current, differs⟩
    rw [if_neg passed, named, made.oldClaimId.tryFrom_value (by decide), ← drawn]

/-- The proposals of a list of new claims are its offers. -/
theorem mem_proposals {view : WorkspaceView} {newClaims : List ReplacementCandidate}
    {made : Proposal} : made ∈ proposals view newClaims ↔
      made.new ∈ newClaims ∧ Offers view made.oldClaimId made.new := by
  unfold proposals
  rw [List.mem_flatMap]
  constructor
  · intro ⟨new, member, among⟩
    split at among
    · rename_i signal
      obtain ⟨old, listed, offered⟩ := List.mem_filterMap.mp among
      obtain ⟨inside, subject⟩ := List.mem_filter.mp listed
      obtain ⟨drawn, named, proposes⟩ :=
        (proposal_eq_some signal (of_decide_eq_true subject)).mp offered
      rw [drawn]
      exact ⟨member, old, inside, named, proposes⟩
    · cases among
  · intro ⟨member, old, listed, named, proposes⟩
    refine ⟨made.new, member, ?_⟩
    have signal := proposes.1
    have subject := proposes.2.1
    rw [if_pos signal]
    refine List.mem_filterMap.mpr ⟨old, List.mem_filter.mpr ⟨listed, decide_eq_true subject⟩, ?_⟩
    exact (proposal_eq_some signal subject).mpr ⟨rfl, named, proposes⟩

/-- The first new claim that offers to replace a claim. -/
def firstOffer (view : WorkspaceView) (newClaims : List ReplacementCandidate) (claimId : ClaimId) :
    Option ReplacementCandidate :=
  newClaims.find? fun new => decide (Offers view claimId new)

/-- The first offer decides. -/
theorem decidingProposal_eq (view : WorkspaceView) (newClaims : List ReplacementCandidate)
    (claimId : ClaimId) : decidingProposal view newClaims claimId.value =
      (firstOffer view newClaims claimId).map (Proposal.mk claimId) := by
  unfold decidingProposal firstOffer
  induction newClaims with
  | nil => rfl
  | cons new rest ih =>
    have split : proposals view (new :: rest) = proposals view [new] ++ proposals view rest := by
      simp [proposals]
    rw [split, List.find?_append, ih]
    by_cases offers : Offers view claimId new
    · have made : (⟨claimId, new⟩ : Proposal) ∈ proposals view [new] :=
        mem_proposals.mpr ⟨List.mem_singleton.mpr rfl, offers⟩
      cases found : (proposals view [new]).find? fun proposed =>
          proposed.oldClaimId.value = claimId.value with
      | none =>
        have nothing := List.find?_eq_none.mp found _ made
        simp at nothing
      | some first =>
        have member := (mem_proposals.mp (List.mem_of_find?_eq_some found)).1
        have named : first.oldClaimId.value = claimId.value := by simpa using List.find?_some found
        have same : first = ⟨claimId, new⟩ := by
          cases first
          simp only [List.mem_singleton] at member
          simp only [Proposal.mk.injEq]
          exact ⟨Branded.ext named, member⟩
        rw [List.find?_cons_of_pos (by simpa using offers), same]
        rfl
    · have nothing : (proposals view [new]).find? (fun proposed =>
          proposed.oldClaimId.value = claimId.value) = none := by
        apply List.find?_eq_none.mpr
        intro made member named
        obtain ⟨drawn, offered⟩ := mem_proposals.mp member
        rw [List.mem_singleton.mp drawn, Branded.ext (of_decide_eq_true named)] at offered
        exact offers offered
      rw [nothing, List.find?_cons_of_neg (by simpa using offers)]
      rfl

/-- A new claim is the first to offer to replace a claim, and source order allows it. -/
def Retires (view : WorkspaceView) (temporal : RelateTemporalPolicy)
    (newClaims : List ReplacementCandidate) (claimId : ClaimId) (new : ReplacementCandidate) : Prop :=
  firstOffer view newClaims claimId = some new ∧ holdReason temporal claimId new.claimId = none

section
variable [Blake3]

/-- The applied supersessions are those of the first offers that source order allows. -/
theorem mem_applied_retires {view : WorkspaceView} {newClaims : List ReplacementCandidate}
    {observedAtMs : Nat} {temporal : RelateTemporalPolicy} {event : ClaimSupersededV2} :
    event ∈ (inferExplicitSupersessions view newClaims observedAtMs temporal).applied ↔
      ∃ claimId new, Retires view temporal newClaims claimId new ∧
        event = supersededEvent observedAtMs ⟨claimId, new⟩ := by
  rw [mem_applied, decision]
  constructor
  · intro decided
    obtain ⟨made, decides, settled⟩ := Option.map_eq_some_iff.mp decided
    have named := decidingProposal_named decides
    rw [← named, decidingProposal_eq] at decides
    obtain ⟨new, first, same⟩ := Option.map_eq_some_iff.mp decides
    unfold settledBy at settled
    cases order : holdReason temporal made.oldClaimId made.new.claimId with
    | some reason => simp [order] at settled
    | none =>
      rw [order] at settled
      have drawn : made.new = new := by rw [← same]
      refine ⟨made.oldClaimId, new, ⟨first, by rw [← drawn]; exact order⟩, ?_⟩
      rw [same]
      exact (Sum.inl.inj settled).symm
  · rintro ⟨claimId, new, ⟨first, order⟩, made⟩
    rw [made]
    show (decidingProposal view newClaims claimId.value).map _ = _
    rw [decidingProposal_eq, first]
    simp [settledBy, order]

/-- A claim is retired exactly when its first offer is allowed. -/
theorem retired_iff {view : WorkspaceView} {newClaims : List ReplacementCandidate}
    {observedAtMs : Nat} {temporal : RelateTemporalPolicy} {oldClaimId : String} :
    (∃ event ∈ (inferExplicitSupersessions view newClaims observedAtMs temporal).applied,
      event.oldClaimId = oldClaimId) ↔
      ∃ claimId new, claimId.value = oldClaimId ∧ Retires view temporal newClaims claimId new := by
  constructor
  · intro ⟨event, applied, named⟩
    obtain ⟨claimId, new, retires, made⟩ := mem_applied_retires.mp applied
    rw [made] at named
    exact ⟨claimId, new, named, retires⟩
  · intro ⟨claimId, new, named, retires⟩
    exact ⟨_, mem_applied_retires.mpr ⟨claimId, new, retires, rfl⟩, named⟩

/-- What is offered to replace a claim is held back altogether or not at all. -/
def HeldAlike (view : WorkspaceView) (temporal : RelateTemporalPolicy)
    (newClaims : List ReplacementCandidate) : Prop :=
  ∀ claimId, ∀ new ∈ newClaims, ∀ other ∈ newClaims, Offers view claimId new →
    Offers view claimId other → holdReason temporal claimId new.claimId = none →
    holdReason temporal claimId other.claimId = none

omit [Blake3] in
/-- Where offers are held alike, a claim with an allowed offer has an allowed first offer. -/
theorem HeldAlike.retires {view : WorkspaceView} {temporal : RelateTemporalPolicy}
    {newClaims : List ReplacementCandidate} (alike : HeldAlike view temporal newClaims)
    {claimId : ClaimId} {new : ReplacementCandidate} (member : new ∈ newClaims)
    (offers : Offers view claimId new) (allowed : holdReason temporal claimId new.claimId = none) :
    ∃ first, Retires view temporal newClaims claimId first := by
  cases found : firstOffer view newClaims claimId with
  | none =>
    have nothing := List.find?_eq_none.mp found new member
    simp [offers] at nothing
  | some first =>
    have inside := List.mem_of_find?_eq_some found
    have offered : Offers view claimId first := by simpa using List.find?_some found
    exact ⟨first, found, alike claimId new member first inside offers offered allowed⟩

omit [Blake3] in
/-- What a first offer is. -/
theorem Retires.spec {view : WorkspaceView} {temporal : RelateTemporalPolicy}
    {newClaims : List ReplacementCandidate} {claimId : ClaimId} {new : ReplacementCandidate}
    (retires : Retires view temporal newClaims claimId new) :
    new ∈ newClaims ∧ Offers view claimId new ∧ holdReason temporal claimId new.claimId = none :=
  ⟨List.mem_of_find?_eq_some retires.1, by simpa using List.find?_some retires.1, retires.2⟩

/-- The retired claims do not depend on the order of the new claims, and a claim with an allowed
offer is retired, exactly where every claim's offers are held back altogether or not at all. -/
theorem retirement_order_iff (view : WorkspaceView) (temporal : RelateTemporalPolicy)
    (newClaims : List ReplacementCandidate) (observedAtMs : Nat) :
    ((∀ permuted : List ReplacementCandidate, newClaims.Perm permuted → ∀ oldClaimId,
        (∃ event ∈ (inferExplicitSupersessions view permuted observedAtMs temporal).applied,
          event.oldClaimId = oldClaimId) ↔
        ∃ event ∈ (inferExplicitSupersessions view newClaims observedAtMs temporal).applied,
          event.oldClaimId = oldClaimId) ∧
      ∀ old ∈ view.claims, ∀ claimId : ClaimId, old.card.claimId = claimId.value →
        ∀ new ∈ newClaims, Proposes old new → holdReason temporal claimId new.claimId = none →
        ∃ event ∈ (inferExplicitSupersessions view newClaims observedAtMs temporal).applied,
          event.oldClaimId = old.card.claimId) ↔
      HeldAlike view temporal newClaims := by
  constructor
  · intro ⟨ordered, applies⟩ claimId new member other inside offers offered allowed
    by_contra heldBack
    obtain ⟨old, listed, named, proposes⟩ := offers
    have retired := applies old listed claimId named new member proposes allowed
    rw [named] at retired
    have front : newClaims.Perm (other :: newClaims.erase other) := List.perm_cons_erase inside
    obtain ⟨own, first, same, retires⟩ :=
      retired_iff.mp ((ordered _ front claimId.value).mpr retired)
    have leads : firstOffer view (other :: newClaims.erase other) claimId = some other :=
      List.find?_cons_of_pos (by simpa using offered)
    rw [Branded.ext same] at retires
    have chosen : first = other := Option.some.inj (retires.1.symm.trans leads)
    rw [chosen] at retires
    exact heldBack retires.2
  · intro alike
    constructor
    · intro permuted same oldClaimId
      have alikePermuted : HeldAlike view temporal permuted :=
        fun claimId new member other inside =>
          alike claimId new (same.mem_iff.mpr member) other (same.mem_iff.mpr inside)
      rw [retired_iff, retired_iff]
      constructor
      · intro ⟨claimId, new, named, retires⟩
        obtain ⟨member, offers, allowed⟩ := retires.spec
        obtain ⟨first, again⟩ := alike.retires (same.mem_iff.mpr member) offers allowed
        exact ⟨claimId, first, named, again⟩
      · intro ⟨claimId, new, named, retires⟩
        obtain ⟨member, offers, allowed⟩ := retires.spec
        obtain ⟨first, again⟩ := alikePermuted.retires (same.mem_iff.mp member) offers allowed
        exact ⟨claimId, first, named, again⟩
    · intro old listed claimId named new member proposes allowed
      obtain ⟨first, retires⟩ := alike.retires member ⟨old, listed, named, proposes⟩ allowed
      exact retired_iff.mpr ⟨claimId, first, named.symm, retires⟩

/-- A view lists each claim once, and no current claim has a successor. -/
structure Coherent (view : WorkspaceView) : Prop where
  distinct : (view.claims.map fun claim => claim.card.claimId).Nodup
  unsucceeded : ∀ claim ∈ view.claims, claim.card.phase = 1 → claim.card.supersededBy = none

/-- The view of an orderly store is coherent. -/
theorem coherent_of_orderly {journal : Journal} {workspaceId : String}
    (orderly : Orderly journal workspaceId) : Coherent (viewOf workspaceId journal) where
  distinct := orderly.lawful.distinct orderly.conforming
  unsucceeded := by
    intro claim listed current
    obtain ⟨entity, held⟩ := mem_replayView_cards.mp
      (List.mem_map_of_mem (f := Claims.ClaimView.card) listed)
    obtain ⟨phase, _, _, _, stands⟩ :=
      orderly.lawful.card orderly.conforming (Or.inl (family_cardsOf held)) held
    by_contra succeeded
    have second := stands.successor (Option.isSome_iff_ne_none.mpr succeeded)
    rw [← stands.stands, current] at second
    cases second

/-- One supersession folded into the card of its claim. -/
def foldSupersession (card : ClaimCard) (event : ClaimSupersededV2) : ClaimCard :=
  if event.oldClaimId = card.claimId then card.onSuperseded event else card

/-- The claim cards of a view with supersessions applied to it. -/
def cardsAfter (view : WorkspaceView) (events : List ClaimSupersededV2) : List ClaimCard :=
  view.claims.map fun claim => events.foldl foldSupersession claim.card

/-- The successor a card names. -/
def SucceededBy (cards : List ClaimCard) (claimId successor : String) : Prop :=
  ∃ card ∈ cards, card.claimId = claimId ∧ card.supersededBy = some successor

/-- A claim is current: its card is, or it has none yet because it is new. -/
def StillCurrent (cards : List ClaimCard) (claimId : String) : Prop :=
  ∀ card ∈ cards, card.claimId = claimId → card.phase = 1

omit [Blake3] in
/-- A supersession keeps the name of the card. -/
@[simp] theorem foldSupersession_claimId (card : ClaimCard) (event : ClaimSupersededV2) :
    (foldSupersession card event).claimId = card.claimId := by
  unfold foldSupersession ClaimCard.onSuperseded
  by_cases own : event.oldClaimId = card.claimId
  · rw [if_pos own]
    by_cases succeeded : card.supersededBy.isSome = true
    · simp only [if_pos succeeded]
    · simp only [if_neg succeeded]
  · rw [if_neg own]

omit [Blake3] in
/-- Supersessions keep the name of the card. -/
theorem foldl_foldSupersession_claimId (events : List ClaimSupersededV2) (card : ClaimCard) :
    (events.foldl foldSupersession card).claimId = card.claimId := by
  induction events generalizing card with
  | nil => rfl
  | cons event rest ih => rw [List.foldl_cons, ih, foldSupersession_claimId]

omit [Blake3] in
/-- Supersessions of other claims leave a card as it is. -/
theorem foldl_foldSupersession_other {events : List ClaimSupersededV2} {card : ClaimCard}
    (others : ∀ event ∈ events, event.oldClaimId ≠ card.claimId) :
    events.foldl foldSupersession card = card := by
  induction events with
  | nil => rfl
  | cons event rest ih =>
    have untouched : foldSupersession card event = card := if_neg (others event (by simp))
    rw [List.foldl_cons, untouched]
    exact ih fun later member => others later (by simp [member])

omit [Blake3] in
/-- The supersession of a current claim leaves its card superseded by the new claim. -/
theorem foldl_foldSupersession_own {events : List ClaimSupersededV2} {card : ClaimCard}
    {event : ClaimSupersededV2} (once : (events.map ClaimSupersededV2.oldClaimId).Nodup)
    (member : event ∈ events) (named : event.oldClaimId = card.claimId) (current : card.phase = 1)
    (unsucceeded : card.supersededBy = none) :
    (events.foldl foldSupersession card).phase = 2 ∧
      (events.foldl foldSupersession card).supersededBy = some event.newClaimId := by
  induction events with
  | nil => cases member
  | cons head rest ih =>
    rw [List.map_cons, List.nodup_cons] at once
    rw [List.foldl_cons]
    rcases List.mem_cons.mp member with same | later
    · rw [← same]
      have folded : foldSupersession card event = card.onSuperseded event := if_pos named
      have rests : ∀ other ∈ rest, other.oldClaimId ≠ (card.onSuperseded event).claimId := by
        intro other inside equal
        have kept : (card.onSuperseded event).claimId = card.claimId := by
          rw [← folded, foldSupersession_claimId]
        apply once.1
        rw [← same, named, ← kept, ← equal]
        exact List.mem_map_of_mem inside
      rw [folded, foldl_foldSupersession_other rests]
      simp [ClaimCard.onSuperseded, current, unsucceeded]
    · have apart : head.oldClaimId ≠ card.claimId := by
        intro equal
        apply once.1
        rw [equal, ← named]
        exact List.mem_map_of_mem later
      have untouched : foldSupersession card head = card := if_neg apart
      rw [untouched]
      exact ih once.2 later

/-- One claim is retired in favour of another. -/
def Heir (view : WorkspaceView) (temporal : RelateTemporalPolicy)
    (newClaims : List ReplacementCandidate) (claimId successor : String) : Prop :=
  ∃ (old : ClaimId) (new : ReplacementCandidate), old.value = claimId ∧
    new.claimId.value = successor ∧ Retires view temporal newClaims old new

/-- Every new claim the view lists is listed with its own text and subject. -/
def ListedAsNew (view : WorkspaceView) (newClaims : List ReplacementCandidate) : Prop :=
  ∀ new ∈ newClaims, ∀ claim ∈ view.claims, claim.card.claimId = new.claimId.value →
    claim.card.normalizedText = new.normalizedText ∧ claim.card.subjectHint = new.subjectHint

section
variable {view : WorkspaceView} {temporal : RelateTemporalPolicy}
  {newClaims : List ReplacementCandidate} {observedAtMs : Nat}

/-- Heirs are what the applied supersessions name. -/
theorem heir_iff (observedAtMs : Nat) {claimId successor : String} :
    Heir view temporal newClaims claimId successor ↔
      ∃ event ∈ (inferExplicitSupersessions view newClaims observedAtMs temporal).applied,
        event.oldClaimId = claimId ∧ event.newClaimId = successor := by
  constructor
  · intro ⟨old, new, named, succeeds, retires⟩
    exact ⟨_, mem_applied_retires.mpr ⟨old, new, retires, rfl⟩, named, succeeds⟩
  · intro ⟨event, applied, named, succeeds⟩
    obtain ⟨old, new, retires, made⟩ := mem_applied_retires.mp applied
    rw [made] at named succeeds
    exact ⟨old, new, named, succeeds, retires⟩

omit [Blake3] in
/-- A claim with an heir is listed as current. -/
theorem Heir.listed {claimId successor : String}
    (heir : Heir view temporal newClaims claimId successor) :
    ∃ claim ∈ view.claims, claim.card.claimId = claimId ∧ claim.card.phase = 1 := by
  obtain ⟨old, new, named, _, retires⟩ := heir
  obtain ⟨claim, listed, same, proposes⟩ := retires.spec.2.1
  exact ⟨claim, listed, same.trans named, proposes.2.2.1⟩

/-- The card of a claim with an heir is superseded by it once the inference is applied. -/
theorem Heir.after (coherent : Coherent view) {claimId successor : String}
    (heir : Heir view temporal newClaims claimId successor) {card : ClaimCard}
    (member : card ∈ cardsAfter view
      (inferExplicitSupersessions view newClaims observedAtMs temporal).applied)
    (own : card.claimId = claimId) : card.phase = 2 ∧ card.supersededBy = some successor := by
  obtain ⟨claim, listed, made⟩ := List.mem_map.mp member
  obtain ⟨current, inside, named, first⟩ := heir.listed
  have sameId : claim.card.claimId = current.card.claimId := by
    rw [named, ← own, ← made, foldl_foldSupersession_claimId]
  have same : claim = current := eq_of_key coherent.distinct listed inside sameId
  obtain ⟨event, applied, retires, succeeds⟩ := (heir_iff observedAtMs).mp heir
  rw [← made, ← succeeds, same]
  refine foldl_foldSupersession_own ?_ applied (retires.trans named.symm) first
    (coherent.unsucceeded current inside first)
  exact nodup_applied_sorted view newClaims observedAtMs temporal

/-- A claim without an heir keeps its card. -/
theorem kept_after {claimId : String}
    (alone : ∀ successor, ¬ Heir view temporal newClaims claimId successor) {card : ClaimCard}
    (member : card ∈ cardsAfter view
      (inferExplicitSupersessions view newClaims observedAtMs temporal).applied)
    (own : card.claimId = claimId) : card ∈ view.claims.map Claims.ClaimView.card := by
  obtain ⟨claim, listed, made⟩ := List.mem_map.mp member
  have named : claim.card.claimId = claimId := by
    rw [← own, ← made, foldl_foldSupersession_claimId]
  have untouched : (inferExplicitSupersessions view newClaims observedAtMs temporal).applied.foldl
      foldSupersession claim.card = claim.card := by
    apply foldl_foldSupersession_other
    intro event applied equal
    exact alone event.newClaimId ((heir_iff observedAtMs).mpr ⟨event, applied, equal.trans named, rfl⟩)
  rw [← made, untouched]
  exact List.mem_map_of_mem listed

omit [Blake3] in
/-- An heir is one of the new claims. -/
theorem Heir.new {claimId successor : String}
    (heir : Heir view temporal newClaims claimId successor) :
    successor ∈ newClaims.map fun new => new.claimId.value := by
  obtain ⟨_, new, _, named, retires⟩ := heir
  rw [← named]
  exact List.mem_map_of_mem retires.spec.1

omit [Blake3] in
/-- The first new claim with replacement wording for a subject is the heir of what says something
else about the subject. -/
theorem Heir.leads {claimId successor : String}
    (heir : Heir view temporal newClaims claimId successor) {leader : ReplacementCandidate}
    {claim : Claims.ClaimView} (coherent : Coherent view) (listed : claim ∈ view.claims)
    (named : claim.card.claimId = claimId)
    (leads : newClaims.find? (fun new => decide (containsReplacementSignal new.normalizedText = true ∧
      claim.card.subjectHint = new.subjectHint)) = some leader)
    (differs : claim.card.normalizedText ≠ leader.normalizedText)
    (other : claimId ≠ leader.claimId.value) : successor = leader.claimId.value := by
  obtain ⟨old, new, own, succeeds, retires⟩ := heir
  obtain ⟨_, offers, _⟩ := retires.spec
  obtain ⟨source, inside, same, proposes⟩ := offers
  have one : source = claim :=
    eq_of_key coherent.distinct inside listed (by rw [same, own, named])
  have signal : containsReplacementSignal leader.normalizedText = true ∧
      claim.card.subjectHint = leader.subjectHint := by simpa using List.find?_some leads
  have offered : Offers view old leader := by
    refine ⟨claim, listed, named.trans own.symm, signal.1, signal.2, ?_, differs, ?_⟩
    · rw [← one]
      exact proposes.2.2.1
    · rw [named]
      exact other
  obtain ⟨leaderOffers, front, back, split, earlier⟩ := List.find?_eq_some_iff_append.mp leads
  have first : firstOffer view newClaims old = some leader := by
    refine List.find?_eq_some_iff_append.mpr ⟨decide_eq_true offered, front, back, split, ?_⟩
    intro candidate member
    have quiet := earlier candidate member
    simp only [Bool.not_eq_true', decide_eq_false_iff_not] at quiet ⊢
    intro ⟨again, lists, names, speaks⟩
    have twin : again = claim :=
      eq_of_key coherent.distinct lists listed (by rw [names, own, named])
    rw [twin] at speaks
    exact quiet ⟨speaks.1, speaks.2.1⟩
  rw [← succeeds]
  exact congrArg (fun new : ReplacementCandidate => new.claimId.value)
    (Option.some.inj (retires.1.symm.trans first))

omit [Blake3] in
/-- An heir that has an heir itself is listed as it is, about the subject of what it replaces. -/
theorem Heir.shown (listedAs : ListedAsNew view newClaims) (coherent : Coherent view)
    {claimId successor later : String} (heir : Heir view temporal newClaims claimId successor)
    (onward : Heir view temporal newClaims successor later) {claim : Claims.ClaimView}
    (listed : claim ∈ view.claims) (named : claim.card.claimId = claimId) :
    ∃ next ∈ view.claims, next.card.claimId = successor ∧
      next.card.subjectHint = claim.card.subjectHint ∧
      next.card.normalizedText ≠ claim.card.normalizedText := by
  obtain ⟨old, new, own, succeeds, retires⟩ := heir
  obtain ⟨inside, offers, _⟩ := retires.spec
  obtain ⟨source, lists, same, proposes⟩ := offers
  have one : source = claim :=
    eq_of_key coherent.distinct lists listed (by rw [same, own, named])
  rw [one] at proposes
  obtain ⟨next, present, nextNamed, _⟩ := onward.listed
  obtain ⟨text, subject⟩ := listedAs new inside next present (nextNamed.trans succeeds.symm)
  refine ⟨next, present, nextNamed, ?_, ?_⟩
  · rw [subject, proposes.2.1]
  · rw [text]
    exact fun equal => proposes.2.2.2.1 equal.symm

omit [Blake3] in
/-- Where the new claims are listed as they are, a closed chain of heirs is one of two claims. -/
theorem acyclic_heirs_iff (coherent : Coherent view) (listedAs : ListedAsNew view newClaims) :
    Acyclic (Heir view temporal newClaims) ↔ ∀ claimId successor,
      Heir view temporal newClaims claimId successor →
      ¬ Heir view temporal newClaims successor claimId := by
  constructor
  · intro acyclic claimId successor there back
    exact acyclic claimId ((Relation.TransGen.single there).tail back)
  · intro apart start closed
    obtain ⟨first, toFirst, closedFirst⟩ := closed_next closed
    obtain ⟨second, toSecond, closedSecond⟩ := closed_next closedFirst
    obtain ⟨third, toThird, closedThird⟩ := closed_next closedSecond
    obtain ⟨fourth, toFourth, closedFourth⟩ := closed_next closedThird
    obtain ⟨fifth, toFifth, _⟩ := closed_next closedFourth
    obtain ⟨source, sourceListed, sourceNamed, _⟩ := toFirst.listed
    -- the leader: the first new claim with replacement wording for the subject of the chain
    obtain ⟨leader, leads⟩ : ∃ leader, newClaims.find? (fun new => decide
        (containsReplacementSignal new.normalizedText = true ∧
          source.card.subjectHint = new.subjectHint)) = some leader := by
      apply Option.isSome_iff_exists.mp
      rw [List.find?_isSome]
      obtain ⟨old, new, own, _, retires⟩ := toFirst
      obtain ⟨inside, ⟨twin, lists, same, proposes⟩, _⟩ := retires.spec
      have one : twin = source :=
        eq_of_key coherent.distinct lists sourceListed (by rw [same, own, sourceNamed])
      rw [one] at proposes
      exact ⟨new, inside, decide_eq_true ⟨proposes.1, proposes.2.1⟩⟩
    have leaderMember := List.mem_of_find?_eq_some leads
    -- a claim about the subject that says something else than the leader has it as its heir
    have toLeader : ∀ {claimId successor : String} {claim : Claims.ClaimView},
        Heir view temporal newClaims claimId successor → claim ∈ view.claims →
        claim.card.claimId = claimId → claim.card.subjectHint = source.card.subjectHint →
        claim.card.normalizedText ≠ leader.normalizedText → successor = leader.claimId.value := by
      intro claimId successor claim heir listed named subject differs
      refine heir.leads coherent listed named (by rw [subject]; exact leads) differs ?_
      intro equal
      exact differs (listedAs leader leaderMember claim listed (named.trans equal)).1
    -- so the leader on the chain and its heir have each other as heirs
    have pair : ∀ {claimId successor later : String} {claim : Claims.ClaimView},
        Heir view temporal newClaims claimId successor →
        Heir view temporal newClaims successor later → claim ∈ view.claims →
        claim.card.claimId = claimId → claim.card.subjectHint = source.card.subjectHint →
        claimId = leader.claimId.value → False := by
      intro claimId successor later claim heir onward listed named subject isLeader
      have told := (listedAs leader leaderMember claim listed (named.trans isLeader)).1
      obtain ⟨next, nextListed, nextNamed, about, differs⟩ :=
        heir.shown listedAs coherent onward listed named
      rw [told] at differs
      have back := toLeader onward nextListed nextNamed (about.trans subject) differs
      rw [back, ← isLeader] at onward
      exact apart _ _ heir onward
    obtain ⟨one, oneListed, oneNamed, oneAbout, _⟩ :=
      toFirst.shown listedAs coherent toSecond sourceListed sourceNamed
    obtain ⟨two, twoListed, twoNamed, twoAbout, twoDiffers⟩ :=
      toSecond.shown listedAs coherent toThird oneListed oneNamed
    obtain ⟨three, threeListed, threeNamed, threeAbout, _⟩ :=
      toThird.shown listedAs coherent toFourth twoListed twoNamed
    by_cases differs : one.card.normalizedText = leader.normalizedText
    · rw [differs] at twoDiffers
      have isLeader := toLeader toThird twoListed twoNamed (twoAbout.trans oneAbout) twoDiffers
      exact pair toFourth toFifth threeListed threeNamed
        (threeAbout.trans (twoAbout.trans oneAbout)) isLeader
    · have isLeader := toLeader toSecond oneListed oneNamed oneAbout differs
      exact pair toThird toFourth twoListed twoNamed (twoAbout.trans oneAbout) isLeader

/-- A retired claim that leads to a current one is on no closed chain of heirs. -/
theorem heirs_open (coherent : Coherent view) {claimId : String}
    (settles : Settles
      (SucceededBy (cardsAfter view
        (inferExplicitSupersessions view newClaims observedAtMs temporal).applied))
      (StillCurrent (cardsAfter view
        (inferExplicitSupersessions view newClaims observedAtMs temporal).applied)) claimId) :
    ¬ Relation.TransGen (Heir view temporal newClaims) claimId claimId := by
  refine settles.open ?_ ?_
  · intro node one other link ⟨card, member, own, follows⟩
    have after := (link.after coherent member own).2
    exact Option.some.inj (after.symm.trans follows)
  · intro node other rests link
    obtain ⟨claim, listed, own, _⟩ := link.listed
    have member : (inferExplicitSupersessions view newClaims observedAtMs
        temporal).applied.foldl foldSupersession claim.card ∈ cardsAfter view
        (inferExplicitSupersessions view newClaims observedAtMs temporal).applied :=
      List.mem_map_of_mem listed
    have kept := (foldl_foldSupersession_claimId (inferExplicitSupersessions view newClaims
      observedAtMs temporal).applied claim.card).trans own
    have second := (link.after coherent member kept).1
    rw [rests _ member kept] at second
    cases second

/-- With the supersessions of an inference applied, every claim it retired leads to a current one,
and none is retired in favour of a superseded claim, exactly where no heir is superseded in the
view and no chain of heirs closes. Where the new claims are listed as they are, a chain closes
only between two claims that are each other's heirs. -/
theorem succession_iff (coherent : Coherent view) :
    (((∀ event ∈ (inferExplicitSupersessions view newClaims observedAtMs temporal).applied,
        Settles
          (SucceededBy (cardsAfter view
            (inferExplicitSupersessions view newClaims observedAtMs temporal).applied))
          (StillCurrent (cardsAfter view
            (inferExplicitSupersessions view newClaims observedAtMs temporal).applied))
          event.oldClaimId) ∧
      ∀ event ∈ (inferExplicitSupersessions view newClaims observedAtMs temporal).applied,
        StillCurrent (view.claims.map Claims.ClaimView.card) event.newClaimId) ↔
      (∀ claimId successor, Heir view temporal newClaims claimId successor →
        StillCurrent (view.claims.map Claims.ClaimView.card) successor) ∧
      Acyclic (Heir view temporal newClaims)) ∧
    (ListedAsNew view newClaims → (Acyclic (Heir view temporal newClaims) ↔
      ∀ claimId successor, Heir view temporal newClaims claimId successor →
        ¬ Heir view temporal newClaims successor claimId)) := by
  refine ⟨?_, acyclic_heirs_iff coherent⟩
  constructor
  · intro ⟨settles, favours⟩
    constructor
    · intro claimId successor heir
      obtain ⟨event, applied, _, succeeds⟩ := (heir_iff observedAtMs).mp heir
      rw [← succeeds]
      exact favours event applied
    · intro claimId closed
      obtain ⟨successor, heir, _⟩ := closed_next closed
      obtain ⟨event, applied, named, _⟩ := (heir_iff observedAtMs).mp heir
      have settled := settles event applied
      rw [named] at settled
      exact heirs_open coherent settled closed
  · intro ⟨current, acyclic⟩
    constructor
    · intro event applied
      have heir : Heir view temporal newClaims event.oldClaimId event.newClaimId :=
        (heir_iff observedAtMs).mpr ⟨event, applied, rfl, rfl⟩
      have settled : Settles (Heir view temporal newClaims)
          (StillCurrent (cardsAfter view
            (inferExplicitSupersessions view newClaims observedAtMs temporal).applied))
          event.oldClaimId := by
        refine acyclic.settles (fun _ _ link => link.new) ?_ heir
        intro node other link
        by_cases leads : ∃ later, Heir view temporal newClaims other later
        · exact Or.inr leads
        · left
          push Not at leads
          intro card member own
          exact current node other link card (kept_after leads member own) own
      refine settled.mono ?_
      intro node other link
      obtain ⟨claim, listed, own, _⟩ := link.listed
      have kept := (foldl_foldSupersession_claimId (inferExplicitSupersessions view newClaims
        observedAtMs temporal).applied claim.card).trans own
      exact ⟨_, List.mem_map_of_mem listed, kept,
        (link.after coherent (List.mem_map_of_mem listed) kept).2⟩
    · intro event applied
      exact current event.oldClaimId event.newClaimId
        ((heir_iff observedAtMs).mpr ⟨event, applied, rfl, rfl⟩)

end

end

/-- A claim of a demonstration view, about one subject. -/
def demoClaim (claimId text : String) : Claims.ClaimView where
  card :=
    { phase := 1, claimId := claimId, workspaceId := "demo", sourceId := "src_demo"
      text := text, normalizedText := text, subjectHint := some "target" }
  status := .current
  supersedes := []

/-- A new claim of the demonstration workspace, about the same subject. -/
def demoCandidate (claimId : ClaimId) (text : String) : ReplacementCandidate where
  claimId := claimId
  workspaceId := "demo"
  sourceId := "src_demo"
  normalizedText := text
  subjectHint := some "target"

/-- A view of some claims of the demonstration workspace. -/
def demoView (claims : List Claims.ClaimView) : WorkspaceView where
  workspaceId := "demo"
  frontier := claims.length
  freshness := .fresh
  claims := claims
  conflicts := []
  sources := []

/-- A claim that two new claims offer to replace. -/
def demoFriday : WorkspaceView := demoView [demoClaim "claim_friday" "the target ships on friday"]

/-- The first new claim of the two. -/
def demoTuesday : ReplacementCandidate :=
  demoCandidate ⟨"claim_tuesday", Eq.refl true⟩ "the target now ships on tuesday"

/-- The second new claim of the two. -/
def demoMonday : ReplacementCandidate :=
  demoCandidate ⟨"claim_monday", Eq.refl true⟩ "the target moved to monday"

/-- Source order knows the old claim and the second new claim, from one snapshot. -/
def demoOrder : RelateTemporalPolicy :=
  (({} : RelateTemporalPolicy).bindClaim ⟨"claim_friday", Eq.refl true⟩
    ⟨"snapshot_0123", Eq.refl true⟩).bindClaim
    ⟨"claim_monday", Eq.refl true⟩ ⟨"snapshot_0123", Eq.refl true⟩

/-- Drawn in one order the new claims retire the old claim, in the other they do not. -/
theorem retirement_follows_order :
    let _ := numeralDigest
    [demoTuesday, demoMonday].Perm [demoMonday, demoTuesday] ∧
      (∃ event ∈ (inferExplicitSupersessions demoFriday [demoMonday, demoTuesday] 1
        demoOrder).applied, event.oldClaimId = "claim_friday") ∧
      ¬ ∃ event ∈ (inferExplicitSupersessions demoFriday [demoTuesday, demoMonday] 1
        demoOrder).applied, event.oldClaimId = "claim_friday" := by
  decide +kernel

/-- A view of two current claims, both with replacement wording. -/
def demoRivals : WorkspaceView :=
  demoView [demoClaim "claim_tuesday" "the target now ships on tuesday",
    demoClaim "claim_monday" "the target moved to monday"]

/-- Each claim is listed once and has no successor. -/
theorem demoRivals_coherent : Coherent demoRivals where
  distinct := by decide
  unsucceeded := by decide

/-- Two new claims that retire each other leave no current claim to follow to. -/
theorem rivals_retire_each_other :
    let _ := numeralDigest
    ∃ event ∈ (inferExplicitSupersessions demoRivals [demoTuesday, demoMonday] 1 {}).applied,
      ¬ Settles
        (SucceededBy (cardsAfter demoRivals
          (inferExplicitSupersessions demoRivals [demoTuesday, demoMonday] 1 {}).applied))
        (StillCurrent (cardsAfter demoRivals
          (inferExplicitSupersessions demoRivals [demoTuesday, demoMonday] 1 {}).applied))
        event.oldClaimId := by
  let _ := numeralDigest
  have there : Heir demoRivals {} [demoTuesday, demoMonday] "claim_tuesday" "claim_monday" :=
    ⟨⟨"claim_tuesday", by decide⟩, demoMonday, rfl, rfl, by decide +kernel, by decide +kernel⟩
  have back : Heir demoRivals {} [demoTuesday, demoMonday] "claim_monday" "claim_tuesday" :=
    ⟨⟨"claim_monday", by decide⟩, demoTuesday, rfl, rfl, by decide +kernel, by decide +kernel⟩
  obtain ⟨event, applied, named, _⟩ := (heir_iff 1).mp there
  refine ⟨event, applied, ?_⟩
  intro settles
  rw [named] at settles
  exact heirs_open demoRivals_coherent settles ((Relation.TransGen.single there).tail back)

/-- What the law of succession comes to for those two claims. -/
theorem succession_of_rivals :
    let _ := numeralDigest
    ((∀ event ∈ (inferExplicitSupersessions demoRivals [demoTuesday, demoMonday] 1 {}).applied,
        Settles
          (SucceededBy (cardsAfter demoRivals
            (inferExplicitSupersessions demoRivals [demoTuesday, demoMonday] 1 {}).applied))
          (StillCurrent (cardsAfter demoRivals
            (inferExplicitSupersessions demoRivals [demoTuesday, demoMonday] 1 {}).applied))
          event.oldClaimId) ∧
      ∀ event ∈ (inferExplicitSupersessions demoRivals [demoTuesday, demoMonday] 1 {}).applied,
        StillCurrent (demoRivals.claims.map Claims.ClaimView.card) event.newClaimId) ↔
      (∀ claimId successor, Heir demoRivals {} [demoTuesday, demoMonday] claimId successor →
        StillCurrent (demoRivals.claims.map Claims.ClaimView.card) successor) ∧
      Acyclic (Heir demoRivals {} [demoTuesday, demoMonday]) := by
  let _ := numeralDigest
  exact (succession_iff demoRivals_coherent).1

end Texo.Ingest
