import Texo.Claims.Legality

/-! # Which claims stand

A listed claim is current where it is not retired and no open conflict names it. In a lawful
workspace both are told by streams, so an append changes the standing of a claim only where it
retires the claim or opens a conflict about it.
-/
namespace Texo.Claims
open Texo.Events Texo.Store Texo.Foundation

/-- A conflict is open that names the claim. -/
def Disputed (rows : List Entry) (claimId : String) : Prop :=
  ∃ event : ConflictOpenedV2,
    streamOf rows (entityForConflict event.conflictId) = [.conflictOpened event] ∧
      (event.claimA = claimId ∨ event.claimB = claimId)

/-- The claim is recorded, not retired and not disputed. -/
def Standing (rows : List Entry) (claimId : String) : Prop :=
  phaseOf (streamOf rows (entityForClaim claimId)) = some 1 ∧ ¬Disputed rows claimId

/-- A claim that stands has been recorded. -/
theorem Standing.begun {rows : List Entry} {claimId : String} (stands : Standing rows claimId) :
    streamOf rows (entityForClaim claimId) ≠ [] := by
  intro empty
  have reached := stands.1
  rw [empty] at reached
  cases reached

/-- A stream in its first phase holds the payload that opened it, and no other. -/
theorem stream_of_first {stream : List Payload} (reached : phaseOf stream = some 1) :
    ∃ payload, stream = [payload] ∧ lifecycleEdge payload = some (0, 1) := by
  rcases List.eq_nil_or_concat stream with empty | ⟨front, last, split⟩
  · rw [empty] at reached
    cases reached
  · rw [split, List.concat_eq_append, phaseOf_snoc] at reached
    obtain ⟨start, before, edge⟩ := advance_eq_some.mp reached
    have opens : start = 0 := by
      cases last with
      | claimRecorded event => exact (Prod.mk.inj (Option.some.inj edge)).1.symm
      | conflictOpened event => exact (Prod.mk.inj (Option.some.inj edge)).1.symm
      | claimSuperseded event => cases edge
      | conflictResolved event =>
        simp only [lifecycleEdge] at edge
        split at edge
        · cases edge
        · split at edge
          · cases edge
          · cases edge
      | _ => cases edge
    rw [opens] at before edge
    refine ⟨last, ?_, edge⟩
    rw [split, phaseOf_eq_zero before]
    rfl

/-- What begins a stream is a recording or an opening. -/
theorem opening_cases {payload : Payload} {next : Nat}
    (opens : lifecycleEdge payload = some (0, next)) :
    (∃ event, payload = .claimRecorded event) ∨ ∃ event, payload = .conflictOpened event := by
  cases payload with
  | claimRecorded event => exact Or.inl ⟨event, rfl⟩
  | conflictOpened event => exact Or.inr ⟨event, rfl⟩
  | claimSuperseded event => cases opens
  | conflictResolved event =>
    simp only [lifecycleEdge] at opens
    split at opens
    · cases opens
    · split at opens
      · cases opens
      · cases opens
  | _ => cases opens

/-- The card of a conflict whose stream is its opening alone. -/
theorem streamCard_opened (event : ConflictOpenedV2) :
    streamCard (entityForConflict event.conflictId) [.conflictOpened event] =
      some (.conflict (ConflictCard.onOpened {} event)) := by
  unfold streamCard
  rw [CardFamily.of_conflict]
  rfl

/-- An append about another entity leaves a stream alone. -/
theorem extendStream_other {entity : String} {payload : Payload} (stream : List Payload)
    (other : lifecycleEntity payload ≠ some entity) :
    extendStream entity stream payload = stream :=
  if_neg fun both => other both.1

/-- The claims a payload takes out of standing: those it retires, and those it disputes. -/
def withdrawn : Payload → List String
  | .claimSuperseded event => [event.oldClaimId]
  | .conflictOpened event => [event.claimA, event.claimB]
  | _ => []

/-- A payload that retires a claim in its first phase, opens a conflict that has not begun, or is
about neither. -/
def Withdraws (rows : List Entry) : Payload → Prop
  | .claimRecorded _ => False
  | .claimSuperseded event => phaseOf (streamOf rows (entityForClaim event.oldClaimId)) = some 1
  | .conflictOpened event => streamOf rows (entityForConflict event.conflictId) = []
  | .conflictResolved _ => False
  | _ => True

/-- Between two replays some claims lost their standing, no claim was added, and the claims that
still stand were not touched. -/
structure Withdrawal (rows rows' : List Entry) (gone : List String) : Prop where
  stands : ∀ claimId, Standing rows' claimId ↔ Standing rows claimId ∧ claimId ∉ gone
  begun : ∀ claimId, streamOf rows' (entityForClaim claimId) = [] ↔
    streamOf rows (entityForClaim claimId) = []
  kept : ∀ claimId, Standing rows' claimId →
    streamOf rows' (entityForClaim claimId) = streamOf rows (entityForClaim claimId)

/-- Nothing changes between a replay and itself. -/
theorem Withdrawal.refl (rows : List Entry) : Withdrawal rows rows [] where
  stands := by simp
  begun := fun _ => Iff.rfl
  kept := fun _ _ => rfl

/-- Withdrawals add up. -/
theorem Withdrawal.trans {rows middle rows' : List Entry} {first later : List String}
    (one : Withdrawal rows middle first) (two : Withdrawal middle rows' later) :
    Withdrawal rows rows' (first ++ later) where
  stands := by
    intro claimId
    rw [two.stands, one.stands, List.mem_append, not_or, and_assoc]
  begun := fun claimId => (two.begun claimId).trans (one.begun claimId)
  kept := by
    intro claimId stands
    have before := ((two.stands claimId).mp stands).1
    exact (two.kept claimId stands).trans (one.kept claimId before)

section Step

variable {rows rows' : List Entry} {payload : Payload}
  (grows : ∀ entity, HasLifecycle entity →
    streamOf rows' entity = extendStream entity (streamOf rows entity) payload)

include grows

/-- The stream of another entity does not change. -/
theorem stream_other {entity : String} (family : HasLifecycle entity)
    (other : lifecycleEntity payload ≠ some entity) :
    streamOf rows' entity = streamOf rows entity :=
  (grows entity family).trans (extendStream_other _ other)

/-- What is about no claim and no conflict withdraws nothing. -/
theorem withdrawal_inert (inert : lifecycleEntity payload = none) : Withdrawal rows rows' [] := by
  have claims : ∀ claimId, streamOf rows' (entityForClaim claimId) =
      streamOf rows (entityForClaim claimId) := by
    intro claimId
    exact stream_other grows (Or.inl (CardFamily.of_claim claimId)) (by rw [inert]; simp)
  have conflicts : ∀ conflictId, streamOf rows' (entityForConflict conflictId) =
      streamOf rows (entityForConflict conflictId) := by
    intro conflictId
    exact stream_other grows (Or.inr (CardFamily.of_conflict conflictId)) (by rw [inert]; simp)
  refine ⟨?_, fun claimId => by rw [claims], fun claimId _ => claims claimId⟩
  intro claimId
  unfold Standing Disputed
  simp only [claims, conflicts, List.not_mem_nil, not_false_eq_true, and_true]

end Step

/-- A supersession withdraws the claim it retires. -/
theorem withdrawal_superseded {rows rows' : List Entry} {event : ClaimSupersededV2}
    (grows : ∀ entity, HasLifecycle entity →
      streamOf rows' entity = extendStream entity (streamOf rows entity) (.claimSuperseded event))
    (current : phaseOf (streamOf rows (entityForClaim event.oldClaimId)) = some 1) :
    Withdrawal rows rows' [event.oldClaimId] := by
  have others : ∀ claimId, claimId ≠ event.oldClaimId →
      streamOf rows' (entityForClaim claimId) = streamOf rows (entityForClaim claimId) := by
    intro claimId other
    apply stream_other grows (Or.inl (CardFamily.of_claim claimId))
    intro about
    exact other (entityForClaim_injective (Option.some.inj about)).symm
  have conflicts : ∀ conflictId, streamOf rows' (entityForConflict conflictId) =
      streamOf rows (entityForConflict conflictId) := by
    intro conflictId
    apply stream_other grows (Or.inr (CardFamily.of_conflict conflictId))
    intro about
    have families := congrArg CardFamily.of (Option.some.inj about)
    simp at families
  -- The stream of the retired claim is its recording, which has another key.
  obtain ⟨opening, stream, opens⟩ := stream_of_first current
  have fresh : repeated [opening] (.claimSuperseded event) = false := by
    rcases opening_cases opens with ⟨recorded, rfl⟩ | ⟨opened, rfl⟩
    · simp [repeated, lifecycleKey]
    · simp [repeated, lifecycleKey]
  have retired : streamOf rows' (entityForClaim event.oldClaimId) =
      [opening, .claimSuperseded event] := by
    rw [grows _ (Or.inl (CardFamily.of_claim _)), stream, extendStream, if_pos ⟨rfl, fresh⟩]
    rfl
  have ended : phaseOf [opening, .claimSuperseded event] = some 2 := by
    have moved : phaseOf ([opening] ++ [.claimSuperseded event]) =
        advance (phaseOf [opening]) (.claimSuperseded event) := phaseOf_snoc _ _
    rw [← stream, current, stream] at moved
    exact moved
  have disputes : ∀ claimId, Disputed rows' claimId ↔ Disputed rows claimId := by
    intro claimId
    unfold Disputed
    simp only [conflicts]
  refine ⟨?_, ?_, ?_⟩
  · intro claimId
    by_cases same : claimId = event.oldClaimId
    · refine iff_of_false ?_ fun both => both.2 (by rw [same]; exact List.mem_singleton_self _)
      intro stands
      have reached := stands.1
      rw [same, retired, ended] at reached
      cases reached
    · unfold Standing
      rw [others claimId same, disputes, List.mem_singleton]
      exact (and_iff_left same).symm
  · intro claimId
    by_cases same : claimId = event.oldClaimId
    · rw [same, retired, stream]
      exact iff_of_false (by simp) (by simp)
    · rw [others claimId same]
  · intro claimId stands
    apply others
    intro same
    have reached := stands.1
    rw [same, retired, ended] at reached
    cases reached

/-- An opening withdraws both claims of its conflict. -/
theorem withdrawal_opened {rows rows' : List Entry} {event : ConflictOpenedV2}
    (grows : ∀ entity, HasLifecycle entity →
      streamOf rows' entity = extendStream entity (streamOf rows entity) (.conflictOpened event))
    (unopened : streamOf rows (entityForConflict event.conflictId) = []) :
    Withdrawal rows rows' [event.claimA, event.claimB] := by
  have claims : ∀ claimId, streamOf rows' (entityForClaim claimId) =
      streamOf rows (entityForClaim claimId) := by
    intro claimId
    apply stream_other grows (Or.inl (CardFamily.of_claim claimId))
    intro about
    have families := congrArg CardFamily.of (Option.some.inj about)
    simp at families
  have others : ∀ conflictId, conflictId ≠ event.conflictId →
      streamOf rows' (entityForConflict conflictId) =
        streamOf rows (entityForConflict conflictId) := by
    intro conflictId other
    apply stream_other grows (Or.inr (CardFamily.of_conflict conflictId))
    intro about
    exact other (entityForConflict_injective (Option.some.inj about)).symm
  have opened : streamOf rows' (entityForConflict event.conflictId) = [.conflictOpened event] := by
    rw [grows _ (Or.inr (CardFamily.of_conflict _)), unopened, extendStream, if_pos ⟨rfl, rfl⟩]
    rfl
  have disputes : ∀ claimId, Disputed rows' claimId ↔
      Disputed rows claimId ∨ claimId ∈ [event.claimA, event.claimB] := by
    intro claimId
    constructor
    · rintro ⟨other, stream, names⟩
      by_cases same : other.conflictId = event.conflictId
      · right
        rw [same, opened] at stream
        have own : event = other := Payload.conflictOpened.inj (List.cons.inj stream).1
        rw [← own] at names
        simpa [eq_comm] using names
      · exact Or.inl ⟨other, by rw [← others _ same, stream], names⟩
    · rintro (⟨other, stream, names⟩ | named)
      · have apart : other.conflictId ≠ event.conflictId := by
          intro same
          rw [same, unopened] at stream
          cases stream
        exact ⟨other, by rw [others _ apart, stream], names⟩
      · exact ⟨event, opened, by simpa [eq_comm] using named⟩
  refine ⟨?_, fun claimId => by rw [claims], fun claimId _ => claims claimId⟩
  intro claimId
  unfold Standing
  rw [claims, disputes, not_or, and_assoc]

/-- The step law of standing: a payload withdraws exactly the claims it names. -/
theorem withdrawal_of_append {rows rows' : List Entry} {payload : Payload}
    (grows : ∀ entity, HasLifecycle entity →
      streamOf rows' entity = extendStream entity (streamOf rows entity) payload)
    (withdraws : Withdraws rows payload) : Withdrawal rows rows' (withdrawn payload) := by
  cases payload with
  | claimRecorded event => exact withdraws.elim
  | conflictResolved event => exact withdraws.elim
  | claimSuperseded event => exact withdrawal_superseded grows withdraws
  | conflictOpened event => exact withdrawal_opened grows withdraws
  | _ => exact withdrawal_inert grows rfl

section Lawful

variable [Blake3] {journal : Journal} {workspaceId : String}

/-- What stands under the entity of a claim is the card of that claim. -/
theorem Lawful.claim_named (lawful : Lawful journal workspaceId) (conforming : journal.Conforming)
    {claimId : String} {card : CachedCard}
    (held : (cardsOf (journal.region (scopeForWorkspace workspaceId)))[entityForClaim claimId]? =
      some card) : ∃ own : ClaimCard, card = .claim own ∧ own.claimId = claimId := by
  have family := family_cardsOf held
  obtain ⟨phase, _, begun, stands⟩ :=
    lawful.card conforming (Or.inl (CardFamily.of_claim claimId)) held
  cases card with
  | claim own => exact ⟨own, rfl, (entityForClaim_injective (stands.2.named begun).1).symm⟩
  | conflict other =>
    rw [CardFamily.of_claim] at family
    cases family
  | source other =>
    rw [CardFamily.of_claim] at family
    cases family

/-- What stands under the entity of a conflict is the card of that conflict. -/
theorem Lawful.conflict_named (lawful : Lawful journal workspaceId)
    (conforming : journal.Conforming) {conflictId : String} {card : CachedCard}
    (held : (cardsOf (journal.region (scopeForWorkspace workspaceId)))[entityForConflict
      conflictId]? = some card) :
    ∃ own : ConflictCard, card = .conflict own ∧ own.conflictId = conflictId := by
  have family := family_cardsOf held
  obtain ⟨phase, _, begun, stands⟩ :=
    lawful.card conforming (Or.inr (CardFamily.of_conflict conflictId)) held
  cases card with
  | conflict own => exact ⟨own, rfl, (entityForConflict_injective (stands.2.named begun).1).symm⟩
  | claim other =>
    rw [CardFamily.of_conflict] at family
    cases family
  | source other =>
    rw [CardFamily.of_conflict] at family
    cases family

/-- The listed claims are those whose streams have begun. -/
theorem Lawful.listed_iff (lawful : Lawful journal workspaceId) (conforming : journal.Conforming)
    {claimId : String} :
    claimId ∈ (replayView workspaceId (journal.region (scopeForWorkspace workspaceId))).claims.map
        (fun claim => claim.card.claimId) ↔
      streamOf (journal.region (scopeForWorkspace workspaceId)) (entityForClaim claimId) ≠ [] := by
  rw [List.mem_map]
  constructor
  · rintro ⟨claim, listed, named⟩ empty
    have held := (lawful.claim conforming (List.mem_map_of_mem listed)).2.2.2.2
    rw [named, cardsOf_streamCard, empty] at held
    simp [streamCard] at held
  · intro begun
    obtain ⟨card, held⟩ := exists_card_of_stream (CardFamily.of_claim claimId) begun
    obtain ⟨own, same, named⟩ := lawful.claim_named conforming held
    rw [same] at held
    obtain ⟨claim, listed, shown⟩ := List.mem_map.mp (mem_replayView_cards.mpr ⟨_, held⟩)
    exact ⟨claim, listed, by rw [shown, named]⟩

/-- The listed conflicts are those whose streams have begun. -/
theorem Lawful.opened_iff (lawful : Lawful journal workspaceId) (conforming : journal.Conforming)
    {conflictId : String} :
    conflictId ∈ (replayView workspaceId
        (journal.region (scopeForWorkspace workspaceId))).conflicts.map ConflictCard.conflictId ↔
      streamOf (journal.region (scopeForWorkspace workspaceId)) (entityForConflict conflictId) ≠
        [] := by
  rw [List.mem_map]
  constructor
  · rintro ⟨card, listed, named⟩ empty
    have reached := (lawful.conflict conforming listed).1
    rw [named, empty] at reached
    exact (lawful.conflict conforming listed).2.1 (Option.some.inj reached).symm
  · intro begun
    obtain ⟨card, held⟩ := exists_card_of_stream (CardFamily.of_conflict conflictId) begun
    obtain ⟨own, same, named⟩ := lawful.conflict_named conforming held
    rw [same] at held
    exact ⟨own, mem_replayView_conflicts.mpr ⟨_, held⟩, named⟩

/-- An open conflict card shows the opening its stream consists of. -/
theorem Lawful.opening (lawful : Lawful journal workspaceId) (conforming : journal.Conforming)
    {card : ConflictCard}
    (listed : card ∈ (replayView workspaceId
      (journal.region (scopeForWorkspace workspaceId))).conflicts) (opened : card.phase = 1) :
    ∃ event : ConflictOpenedV2,
      streamOf (journal.region (scopeForWorkspace workspaceId))
        (entityForConflict event.conflictId) = [.conflictOpened event] ∧
      card = ConflictCard.onOpened {} event := by
  obtain ⟨entity, held⟩ := mem_replayView_conflicts.mp listed
  have lives : HasLifecycle entity := Or.inr (family_cardsOf held)
  obtain ⟨phase, reached, _, _, stands⟩ := lawful.card conforming lives held
  have first : phase = 1 := stands.stands.symm.trans opened
  rw [first] at reached
  obtain ⟨payload, stream, edge⟩ := stream_of_first reached
  have member : payload ∈ streamOf (journal.region (scopeForWorkspace workspaceId)) entity := by
    rw [stream]
    exact List.mem_singleton_self payload
  obtain ⟨about, _⟩ := about_of_mem_stream conforming lives member
  have family := family_cardsOf held
  rw [cardsOf_streamCard, stream] at held
  rcases opening_cases edge with ⟨event, rfl⟩ | ⟨event, rfl⟩
  · rw [← Option.some.inj about, CardFamily.of_claim] at family
    cases family
  · have named : entityForConflict event.conflictId = entity := Option.some.inj about
    rw [← named] at held stream
    rw [streamCard_opened] at held
    exact ⟨event, stream, (CachedCard.conflict.inj (Option.some.inj held)).symm⟩

/-- The claims the open conflicts name are the disputed ones. -/
theorem Lawful.disputed_iff (lawful : Lawful journal workspaceId) (conforming : journal.Conforming)
    {claimId : String} :
    (openConflictClaims (replayView workspaceId
        (journal.region (scopeForWorkspace workspaceId))).conflicts).contains claimId = true ↔
      Disputed (journal.region (scopeForWorkspace workspaceId)) claimId := by
  unfold openConflictClaims
  rw [List.contains_iff_mem, List.mem_flatMap]
  constructor
  · rintro ⟨card, listed, named⟩
    split at named
    · rename_i opened
      obtain ⟨event, stream, shown⟩ := lawful.opening conforming listed opened
      refine ⟨event, stream, ?_⟩
      rw [shown] at named
      rcases List.mem_cons.mp named with a | b
      · exact Or.inl a.symm
      · exact Or.inr (List.mem_singleton.mp b).symm
    · cases named
  · rintro ⟨event, stream, names⟩
    have held : (cardsOf (journal.region (scopeForWorkspace workspaceId)))[entityForConflict
        event.conflictId]? = some (.conflict (ConflictCard.onOpened {} event)) := by
      rw [cardsOf_streamCard, stream, streamCard_opened]
    refine ⟨_, mem_replayView_conflicts.mpr ⟨_, held⟩, ?_⟩
    have opened : (ConflictCard.onOpened {} event).phase = 1 := rfl
    rw [if_pos opened]
    rcases names with a | b
    · rw [← a]
      exact List.mem_cons_self
    · rw [← b]
      exact List.mem_cons_of_mem _ (List.mem_singleton_self _)

/-- A listed claim is current exactly where it stands. -/
theorem Lawful.current_iff (lawful : Lawful journal workspaceId) (conforming : journal.Conforming)
    {claim : ClaimView}
    (listed : claim ∈ (replayView workspaceId
      (journal.region (scopeForWorkspace workspaceId))).claims) :
    claim.status = .current ↔
      Standing (journal.region (scopeForWorkspace workspaceId)) claim.card.claimId := by
  have status : claim.status = claimStatus claim.card ((openConflictClaims (replayView workspaceId
      (journal.region (scopeForWorkspace workspaceId))).conflicts).contains claim.card.claimId) :=
    status_claimViews listed
  have reached := (lawful.claim conforming (List.mem_map_of_mem listed)).1
  have phases := lawful.claim_phase conforming (List.mem_map_of_mem listed)
  have names : (openConflictClaims (replayView workspaceId
        (journal.region (scopeForWorkspace workspaceId))).conflicts).contains
          claim.card.claimId = true ↔
      Disputed (journal.region (scopeForWorkspace workspaceId)) claim.card.claimId :=
    lawful.disputed_iff conforming
  unfold Standing
  rw [reached, ← names, status, claimStatus]
  by_cases retired : claim.card.phase = 2
  · rw [if_pos retired, retired]
    exact iff_of_false (fun same => by cases same) fun both => by cases both.1
  · have first : claim.card.phase = 1 := phases.resolve_right retired
    rw [if_neg retired, first]
    by_cases disputed : (openConflictClaims (replayView workspaceId
        (journal.region (scopeForWorkspace workspaceId))).conflicts).contains
          claim.card.claimId = true
    · rw [if_pos disputed]
      exact iff_of_false (fun same => by cases same) fun both => both.2 disputed
    · rw [if_neg disputed]
      exact iff_of_true rfl ⟨rfl, disputed⟩

end Lawful

end Texo.Claims
