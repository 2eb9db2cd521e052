import Texo.Claims.Streams
import Texo.Foundation.Sorting

/-! # Lawful lifecycles

A claim is recorded and then superseded, a conflict is opened and then resolved or ignored. A
journal is lawful for a workspace when every stream of a claim or conflict takes only these
edges, each from the phase the entity has. Repeats of a recording or an opening fall away under
their keys, so only a supersession or a resolution can break the law.
-/
namespace Texo.Claims
open Texo.Events Texo.Store Texo.Foundation

/-- The edge a claim or conflict payload takes its entity along. -/
def lifecycleEdge : Payload → Option (Nat × Nat)
  | .claimRecorded _ => some (0, 1)
  | .claimSuperseded _ => some (1, 2)
  | .conflictOpened _ => some (0, 1)
  | .conflictResolved event =>
    if event.resolution = "resolved" then some (1, 2)
    else if event.resolution = "ignored" then some (1, 3)
    else none
  | _ => none

/-- The transition record a payload carries. -/
def transitionOf : Payload → Option TransitionRecordV1
  | .claimSuperseded event => some event.transition
  | .conflictOpened event => some event.transition
  | .conflictResolved event => some event.transition
  | _ => none

/-- A payload's transition record names the edge the payload takes. -/
def Truthful (payload : Payload) : Prop :=
  ∀ record, transitionOf payload = some record →
    lifecycleEdge payload = some (record.previousState, record.nextState)

/-- The edges of the machine an entity follows. -/
def edgesOf (entity : String) : List (Nat × Nat) :=
  match CardFamily.of entity with
  | some .claim => claimEdges
  | some .conflict => conflictEdges
  | _ => []

/-- One payload takes the entity along its edge, from the phase the entity has. -/
def advance (phase : Option Nat) (payload : Payload) : Option Nat :=
  match phase, lifecycleEdge payload with
  | some phase, some edge => if edge.1 = phase then some edge.2 else none
  | _, _ => none

/-- The phase a stream leads to, where it takes every payload's edge. -/
def phaseOf (stream : List Payload) : Option Nat := stream.foldl advance (some 0)

@[simp] theorem phaseOf_nil : phaseOf [] = some 0 := rfl

theorem phaseOf_snoc (stream : List Payload) (payload : Payload) :
    phaseOf (stream ++ [payload]) = advance (phaseOf stream) payload := by
  simp [phaseOf]

/-- What a payload that advances an entity does. -/
theorem advance_eq_some {phase : Option Nat} {payload : Payload} {next : Nat} :
    advance phase payload = some next ↔
      ∃ start, phase = some start ∧ lifecycleEdge payload = some (start, next) := by
  unfold advance
  cases phase with
  | none => simp
  | some phase =>
    cases edge : lifecycleEdge payload with
    | none => simp
    | some edge' =>
      by_cases here : edge'.1 = phase
      · simp only [here, if_true, Option.some.injEq, exists_eq_left']
        constructor
        · intro same
          rw [← here, ← same]
        · intro same
          rw [same]
      · simp only [here, if_false, Option.some.injEq, exists_eq_left']
        refine iff_of_false (by simp) ?_
        intro same
        exact here (by rw [same])

/-- Every edge leads past the start. -/
theorem pos_of_lifecycleEdge {payload : Payload} {edge : Nat × Nat}
    (taken : lifecycleEdge payload = some edge) : 0 < edge.2 := by
  cases payload with
  | claimRecorded event => cases taken; decide
  | claimSuperseded event => cases taken; decide
  | conflictOpened event => cases taken; decide
  | conflictResolved event =>
    simp only [lifecycleEdge] at taken
    split at taken
    · cases taken; decide
    · split at taken
      · cases taken; decide
      · cases taken
  | _ => cases taken

/-- The edge of a payload about an entity is one of its machine. -/
theorem lifecycleEdge_mem {payload : Payload} {entity : String}
    (about : lifecycleEntity payload = some entity) {edge : Nat × Nat}
    (taken : lifecycleEdge payload = some edge) : edge ∈ edgesOf entity := by
  cases payload with
  | claimRecorded event => cases about; cases taken; simp [edgesOf, claimEdges]
  | claimSuperseded event => cases about; cases taken; simp [edgesOf, claimEdges]
  | conflictOpened event => cases about; cases taken; simp [edgesOf, conflictEdges]
  | conflictResolved event =>
    cases about
    simp only [lifecycleEdge] at taken
    split at taken
    · cases taken; simp [edgesOf, conflictEdges]
    · split at taken
      · cases taken; simp [edgesOf, conflictEdges]
      · cases taken
  | _ => cases about

/-- Part of a stream that takes its edges takes its edges. -/
theorem phaseOf_append {stream rest : List Payload} {phase : Nat}
    (taken : phaseOf (stream ++ rest) = some phase) : ∃ reached, phaseOf stream = some reached := by
  induction rest using List.reverseRecOn generalizing phase with
  | nil => exact ⟨phase, by simpa using taken⟩
  | append_singleton rest payload ih =>
    rw [← List.append_assoc, phaseOf_snoc] at taken
    obtain ⟨start, before, _⟩ := advance_eq_some.mp taken
    exact ih before

/-- Only the empty stream leads to the start. -/
theorem phaseOf_eq_zero {stream : List Payload} (start : phaseOf stream = some 0) : stream = [] := by
  induction stream using List.reverseRecOn with
  | nil => rfl
  | append_singleton rest payload _ =>
    rw [phaseOf_snoc] at start
    obtain ⟨_, _, taken⟩ := advance_eq_some.mp start
    exact absurd (pos_of_lifecycleEdge taken) (Nat.lt_irrefl 0)

/-- A stream that takes its edges begins at the start. -/
theorem lifecycleEdge_head {payload : Payload} {rest : List Payload} {phase : Nat}
    (taken : phaseOf (payload :: rest) = some phase) :
    ∃ next, lifecycleEdge payload = some (0, next) := by
  have split : phaseOf ([] ++ [payload] ++ rest) = some phase := taken
  obtain ⟨reached, before⟩ := phaseOf_append split
  rw [phaseOf_snoc] at before
  obtain ⟨start, same, edge⟩ := advance_eq_some.mp before
  rw [← Option.some.inj same] at edge
  exact ⟨reached, edge⟩

variable [Blake3]

/-- What is in the stream of a claim or conflict is about it, and lies in the workspace. -/
theorem about_of_mem_stream {journal : Journal} (conforming : journal.Conforming)
    {workspaceId entity : String} (family : HasLifecycle entity) {payload : Payload}
    (held : payload ∈ streamOf (journal.region (scopeForWorkspace workspaceId)) entity) :
    lifecycleEntity payload = some entity ∧ InWorkspace workspaceId payload := by
  obtain ⟨row, member, written, rfl⟩ := mem_streamOf.mp held
  obtain ⟨inside, inScope⟩ := Journal.mem_region.mp member
  have conforms := conforming row inside
  refine ⟨(writes_iff_lifecycle conforms family).mp written, ?_⟩
  intro coordinate lies
  rw [← inScope]
  exact congrArg Coordinate.scope (conforms.placed _ lies)

/-- Recordings of one claim, and openings of one conflict, in one workspace have one key. -/
theorem lifecycleKey_opening {payload other : Payload} {workspaceId entity : String}
    (about : lifecycleEntity payload = some entity) (here : InWorkspace workspaceId payload)
    {next : Nat} (opens : lifecycleEdge payload = some (0, next))
    (otherAbout : lifecycleEntity other = some entity) (otherHere : InWorkspace workspaceId other)
    {next' : Nat} (otherOpens : lifecycleEdge other = some (0, next')) :
    lifecycleKey other = lifecycleKey payload := by
  have workspace : ∀ {coordinate coordinate' : Coordinate}, coordinateOf payload = some coordinate →
      coordinateOf other = some coordinate' → coordinate.scope = coordinate'.scope :=
    fun lies lies' => (here _ lies).trans (otherHere _ lies').symm
  have resolutions : ∀ {event : ConflictResolvedV2} {next : Nat},
      lifecycleEdge (.conflictResolved event) ≠ some (0, next) := by
    intro event next taken
    simp only [lifecycleEdge] at taken
    split at taken
    · cases taken
    · split at taken <;> cases taken
  cases payload with
  | claimRecorded event =>
    cases other with
    | claimRecorded old =>
      have claim := entityForClaim_injective (Option.some.inj (otherAbout.trans about.symm))
      have scope := scopeForWorkspace_injective (workspace rfl rfl)
      rw [lifecycleKey, lifecycleKey, claim, scope]
    | claimSuperseded old => cases otherOpens
    | conflictOpened old =>
      have families := congrArg CardFamily.of (Option.some.inj (otherAbout.trans about.symm))
      simp at families
    | conflictResolved old => exact absurd otherOpens resolutions
    | _ => cases otherAbout
  | claimSuperseded event => cases opens
  | conflictOpened event =>
    cases other with
    | claimRecorded old =>
      have families := congrArg CardFamily.of (Option.some.inj (otherAbout.trans about.symm))
      simp at families
    | claimSuperseded old => cases otherOpens
    | conflictOpened old =>
      have conflict := entityForConflict_injective (Option.some.inj (otherAbout.trans about.symm))
      have scope := scopeForWorkspace_injective (workspace rfl rfl)
      rw [lifecycleKey, lifecycleKey, conflict, scope]
    | conflictResolved old => exact absurd otherOpens resolutions
    | _ => cases otherAbout
  | conflictResolved event => exact absurd opens resolutions
  | _ => cases about

/-- Every stream of a claim or conflict takes its edges, and the transition records say which. -/
structure Lawful (journal : Journal) (workspaceId : String) : Prop where
  phases : ∀ entity, HasLifecycle entity →
    ∃ phase, phaseOf (streamOf (journal.region (scopeForWorkspace workspaceId)) entity) = some phase
  truthful : ∀ row ∈ journal.region (scopeForWorkspace workspaceId), Truthful row.payload

/-- A payload takes its entity along an edge from the phase the entity has, or would open it. -/
structure Legal (journal : Journal) (workspaceId : String) (payload : Payload) : Prop where
  here : InWorkspace workspaceId payload
  truthful : Truthful payload
  moves : ∀ entity, lifecycleEntity payload = some entity → ∃ edge,
    lifecycleEdge payload = some edge ∧ (edge.1 = 0 ∨
      phaseOf (streamOf (journal.region (scopeForWorkspace workspaceId)) entity) = some edge.1)

omit [Blake3] in
/-- An entity a payload moves is one of a claim or of a conflict. -/
theorem hasLifecycle_of_about {payload : Payload} {entity : String}
    (about : lifecycleEntity payload = some entity) : HasLifecycle entity := by
  unfold HasLifecycle
  cases payload with
  | claimRecorded event => cases about; simp
  | claimSuperseded event => cases about; simp
  | conflictOpened event => cases about; simp
  | conflictResolved event => cases about; simp
  | _ => cases about

omit [Blake3] in
/-- The empty journal is lawful. -/
theorem lawful_empty (workspaceId : String) : Lawful Journal.empty workspaceId where
  phases := fun _ _ => ⟨0, rfl⟩
  truthful := fun _ member => by cases member

/-- An opening payload is a repeat where its stream has begun. -/
theorem repeated_of_opening {journal : Journal} (conforming : journal.Conforming)
    {workspaceId entity : String} (lawful : Lawful journal workspaceId) {payload : Payload}
    (here : InWorkspace workspaceId payload) (about : lifecycleEntity payload = some entity)
    {next : Nat} (opens : lifecycleEdge payload = some (0, next))
    (begun : streamOf (journal.region (scopeForWorkspace workspaceId)) entity ≠ []) :
    repeated (streamOf (journal.region (scopeForWorkspace workspaceId)) entity) payload = true := by
  have family := hasLifecycle_of_about about
  obtain ⟨phase, reached⟩ := lawful.phases entity family
  cases stream : streamOf (journal.region (scopeForWorkspace workspaceId)) entity with
  | nil => exact absurd stream begun
  | cons head rest =>
    have held : head ∈ streamOf (journal.region (scopeForWorkspace workspaceId)) entity := by
      rw [stream]
      simp
    rw [stream] at reached
    obtain ⟨first, headOpens⟩ := lifecycleEdge_head reached
    obtain ⟨headAbout, headHere⟩ := about_of_mem_stream conforming family held
    have key := lifecycleKey_opening about here opens headAbout headHere headOpens
    exact List.any_eq_true.mpr ⟨head, by simp, by simpa using key⟩

/-- The step law of lawful journals. -/
theorem Lawful.append {env next : OpEnv} {payload : Payload} {workspaceId : String}
    (appended : env.append payload = .ok next) (conforming : env.journal.Conforming)
    (lawful : Lawful env.journal workspaceId) (legal : Legal env.journal workspaceId payload) :
    Lawful next.journal workspaceId where
  phases := by
    intro entity family
    obtain ⟨phase, reached⟩ := lawful.phases entity family
    rw [streamOf_append appended conforming legal.here family, extendStream]
    split
    · rename_i grows
      obtain ⟨about, fresh⟩ := grows
      obtain ⟨⟨start, onward⟩, taken, opens | there⟩ := legal.moves entity about
      · have zero : start = 0 := opens
        rw [zero] at taken
        by_cases begun : streamOf (env.journal.region (scopeForWorkspace workspaceId)) entity = []
        · refine ⟨onward, ?_⟩
          rw [begun, phaseOf_snoc]
          exact advance_eq_some.mpr ⟨0, rfl, taken⟩
        · rw [repeated_of_opening conforming lawful legal.here about taken begun] at fresh
          cases fresh
      · refine ⟨onward, ?_⟩
        rw [phaseOf_snoc]
        exact advance_eq_some.mpr ⟨start, there, taken⟩
    · exact ⟨phase, reached⟩
  truthful := by
    intro row member
    rcases OpEnv.append_region appended (scopeForWorkspace workspaceId) with
      unchanged | ⟨added, grown, carries, _, _⟩
    · rw [unchanged] at member
      exact lawful.truthful row member
    · rw [grown] at member
      rcases List.mem_append.mp member with earlier | last
      · exact lawful.truthful row earlier
      · rw [List.mem_singleton.mp last, carries]
        exact legal.truthful

omit [Blake3] in
/-- The entity a payload closes: that of a superseded claim, or of a resolved conflict. -/
def closing : Payload → Option String
  | .claimSuperseded event => some (entityForClaim event.oldClaimId)
  | .conflictResolved event => some (entityForConflict event.conflictId)
  | _ => none

omit [Blake3] in
/-- A payload about an entity opens it or closes it. -/
theorem opens_or_closes {payload : Payload} {entity : String}
    (about : lifecycleEntity payload = some entity) {edge : Nat × Nat}
    (taken : lifecycleEdge payload = some edge) : edge.1 = 0 ∨ closing payload = some entity := by
  cases payload with
  | claimRecorded event => cases taken; exact Or.inl rfl
  | claimSuperseded event => exact Or.inr about
  | conflictOpened event => cases taken; exact Or.inl rfl
  | conflictResolved event => exact Or.inr about
  | _ => cases about

/-- A legal append leaves other legal payloads legal, unless it closes what they close. -/
theorem Legal.append {env next : OpEnv} {payload other : Payload} {workspaceId : String}
    (appended : env.append payload = .ok next) (conforming : env.journal.Conforming)
    (lawful : Lawful env.journal workspaceId) (legal : Legal env.journal workspaceId payload)
    (otherLegal : Legal env.journal workspaceId other)
    (apart : ∀ entity, closing payload = some entity → closing other ≠ some entity) :
    Legal next.journal workspaceId other where
  here := otherLegal.here
  truthful := otherLegal.truthful
  moves := by
    intro entity about
    obtain ⟨⟨start, onward⟩, taken, why⟩ := otherLegal.moves entity about
    refine ⟨(start, onward), taken, ?_⟩
    rcases why with opens | there
    · exact Or.inl opens
    by_cases zero : start = 0
    · exact Or.inl zero
    right
    have closes := (opens_or_closes about taken).resolve_left zero
    rw [streamOf_append appended conforming legal.here (hasLifecycle_of_about about), extendStream]
    split
    · rename_i grows
      obtain ⟨ownAbout, fresh⟩ := grows
      obtain ⟨⟨ownStart, ownOnward⟩, ownTaken, _⟩ := legal.moves entity ownAbout
      have opens := (opens_or_closes ownAbout ownTaken).resolve_right fun own =>
        apart entity own closes
      have same : ownStart = 0 := opens
      rw [same] at ownTaken
      have begun : streamOf (env.journal.region (scopeForWorkspace workspaceId)) entity ≠ [] := by
        intro empty
        rw [empty] at there
        exact zero (Option.some.inj there).symm
      rw [repeated_of_opening conforming lawful legal.here ownAbout ownTaken begun] at fresh
      cases fresh
    · exact there

/-- A claim card in a phase, without an anomaly; it names its claim and workspace once recorded. -/
structure ClaimInPhase (workspaceId entity : String) (card : ClaimCard) (phase : Nat) : Prop where
  stands : card.phase = phase
  clean : card.anomalies = []
  successor : card.supersededBy.isSome = true → phase = 2
  named : phase ≠ 0 → entity = entityForClaim card.claimId ∧ card.workspaceId = workspaceId

/-- A conflict card in a phase, without an anomaly; it names its conflict and workspace once
opened. -/
structure ConflictInPhase (workspaceId entity : String) (card : ConflictCard) (phase : Nat) :
    Prop where
  stands : card.phase = phase
  clean : card.anomalies = []
  named : phase ≠ 0 → entity = entityForConflict card.conflictId ∧ card.workspaceId = workspaceId

/-- A card of an entity in a phase of the entity's machine. -/
def InPhase (workspaceId entity : String) : CachedCard → Nat → Prop
  | .claim card, phase =>
    CardFamily.of entity = some .claim ∧ ClaimInPhase workspaceId entity card phase
  | .conflict card, phase =>
    CardFamily.of entity = some .conflict ∧ ConflictInPhase workspaceId entity card phase
  | .source _, _ => False

/-- The workspace a lifecycle payload names. -/
theorem workspace_of_inWorkspace {payload : Payload} {entity workspaceId : String}
    (about : lifecycleEntity payload = some entity) (here : InWorkspace workspaceId payload) :
    coordinateOf payload = some ⟨entity, scopeForWorkspace workspaceId⟩ := by
  obtain ⟨scope, lies⟩ := coordinate_of_lifecycle about
  rw [lies, ← here _ lies]

/-- Along an edge from the phase it is in, a card moves without an anomaly. -/
theorem InPhase.advance {family : CardFamily} {workspaceId entity : String} {card : CachedCard}
    {phase next : Nat} {payload : Payload} (of : CardFamily.of entity = some family)
    (stands : InPhase workspaceId entity card phase)
    (about : lifecycleEntity payload = some entity) (here : InWorkspace workspaceId payload)
    (edge : lifecycleEdge payload = some (phase, next)) :
    InPhase workspaceId entity (card.applyEvent family payload) next := by
  have lies := workspace_of_inWorkspace about here
  cases payload with
  | claimRecorded event =>
    cases about
    have claims := CardFamily.of_claim event.claimId
    rw [claims] at of
    cases of
    cases edge
    have workspace : event.workspaceId = workspaceId :=
      scopeForWorkspace_injective (congrArg Coordinate.scope (Option.some.inj lies))
    cases card with
    | claim card =>
      obtain ⟨_, start⟩ := stands
      refine ⟨claims, rfl, ?_, ?_, fun _ => ⟨rfl, workspace⟩⟩
      · simp [ClaimCard.applyEvent, ClaimCard.onRecorded, start.stands, start.clean]
      · intro successor
        exact absurd (start.successor successor) (by decide)
    | conflict card =>
      cases claims.symm.trans stands.1
    | source card => exact stands.elim
  | claimSuperseded event =>
    cases about
    have claims := CardFamily.of_claim event.oldClaimId
    rw [claims] at of
    cases of
    cases edge
    cases card with
    | claim card =>
      obtain ⟨_, current⟩ := stands
      have alone : ¬ card.supersededBy.isSome = true := fun successor =>
        absurd (current.successor successor) (by decide)
      have moved : card.applyEvent (.claimSuperseded event) =
          { card with
            phase := 2
            supersededBy := some event.newClaimId
            supersededReason := event.reason
            supersededDecidedBy := event.decidedBy } := by
        rw [ClaimCard.applyEvent, ClaimCard.onSuperseded, if_neg alone,
          if_neg (by simp [current.stands])]
      show InPhase workspaceId _ (.claim (card.applyEvent (.claimSuperseded event))) 2
      rw [moved]
      exact ⟨claims, rfl, current.clean, fun _ => rfl, fun _ => current.named (by decide)⟩
    | conflict card =>
      cases claims.symm.trans stands.1
    | source card => exact stands.elim
  | conflictOpened event =>
    cases about
    have conflicts := CardFamily.of_conflict event.conflictId
    rw [conflicts] at of
    cases of
    cases edge
    have workspace : event.workspaceId = workspaceId :=
      scopeForWorkspace_injective (congrArg Coordinate.scope (Option.some.inj lies))
    cases card with
    | conflict card =>
      obtain ⟨_, start⟩ := stands
      refine ⟨conflicts, rfl, ?_, fun _ => ⟨rfl, workspace⟩⟩
      simp [ConflictCard.applyEvent, ConflictCard.onOpened, start.stands, start.clean]
    | claim card =>
      cases conflicts.symm.trans stands.1
    | source card => exact stands.elim
  | conflictResolved event =>
    cases about
    have conflicts := CardFamily.of_conflict event.conflictId
    rw [conflicts] at of
    cases of
    have workspace : event.workspaceId = workspaceId :=
      scopeForWorkspace_injective (congrArg Coordinate.scope (Option.some.inj lies))
    cases card with
    | conflict card =>
      obtain ⟨_, opened⟩ := stands
      simp only [lifecycleEdge] at edge
      split at edge
      · rename_i resolved
        cases edge
        refine ⟨conflicts, ?_, ?_, fun _ => ⟨rfl, workspace⟩⟩
        · simp [ConflictCard.applyEvent, ConflictCard.onResolved, resolved]
        · simp [ConflictCard.applyEvent, ConflictCard.onResolved, resolved, opened.stands,
            opened.clean]
      · split at edge
        · rename_i ignored
          cases edge
          refine ⟨conflicts, ?_, ?_, fun _ => ⟨rfl, workspace⟩⟩
          · simp [ConflictCard.applyEvent, ConflictCard.onResolved, ignored]
          · simp [ConflictCard.applyEvent, ConflictCard.onResolved, ignored, opened.stands,
              opened.clean]
        · cases edge
    | claim card =>
      cases conflicts.symm.trans stands.1
    | source card => exact stands.elim
  | _ => cases about

/-- The card of a stream that takes its edges. -/
theorem streamCard_inPhase {workspaceId entity : String} {family : CardFamily}
    (of : CardFamily.of entity = some family) (lives : HasLifecycle entity) {stream : List Payload}
    (about : ∀ payload ∈ stream, lifecycleEntity payload = some entity ∧
      InWorkspace workspaceId payload) {phase : Nat} (reached : phaseOf stream = some phase) :
    InPhase workspaceId entity ((streamCard entity stream).getD (emptyCard family)) phase := by
  induction stream using List.reverseRecOn generalizing phase with
  | nil =>
    have zero : 0 = phase := Option.some.inj reached
    rw [← zero]
    have start : streamCard entity [] = none := by simp [streamCard, of]
    rw [start]
    rcases lives with claims | conflicts
    · rw [claims] at of
      rw [← Option.some.inj of]
      exact ⟨claims, rfl, rfl, by simp, fun impossible => absurd rfl impossible⟩
    · rw [conflicts] at of
      rw [← Option.some.inj of]
      exact ⟨conflicts, rfl, rfl, fun impossible => absurd rfl impossible⟩
  | append_singleton stream payload ih =>
    rw [phaseOf_snoc] at reached
    obtain ⟨start, before, edge⟩ := advance_eq_some.mp reached
    have stands := ih (fun other member => about other (by simp [member])) before
    have moved : streamCard entity (stream ++ [payload]) =
        some (((streamCard entity stream).getD (emptyCard family)).applyEvent family payload) := by
      simp [streamCard, of, extendCard]
    obtain ⟨own, here⟩ := about payload (by simp)
    rw [moved]
    exact stands.advance of own here edge

/-- Every claim or conflict card of a lawful workspace is in the phase of its stream. -/
theorem Lawful.card {journal : Journal} {workspaceId entity : String}
    (lawful : Lawful journal workspaceId) (conforming : journal.Conforming) {card : CachedCard}
    (lives : HasLifecycle entity)
    (held : (cardsOf (journal.region (scopeForWorkspace workspaceId)))[entity]? = some card) :
    ∃ phase,
      phaseOf (streamOf (journal.region (scopeForWorkspace workspaceId)) entity) = some phase ∧
      phase ≠ 0 ∧ InPhase workspaceId entity card phase := by
  obtain ⟨phase, reached⟩ := lawful.phases entity lives
  have of := family_cardsOf held
  rw [cardsOf_streamCard] at held
  have stands := streamCard_inPhase of lives
    (fun payload member => about_of_mem_stream conforming lives member) reached
  rw [held] at stands
  refine ⟨phase, reached, ?_, stands⟩
  intro zero
  rw [zero] at reached
  rw [phaseOf_eq_zero reached] at held
  simp [streamCard, of] at held

omit [Blake3] in
/-- A replayed view lists exactly the conflict cards of the replay. -/
theorem mem_replayView_conflicts {workspaceId : String} {rows : List Entry} {card : ConflictCard} :
    card ∈ (replayView workspaceId rows).conflicts ↔
      ∃ entity : String, (cardsOf rows)[entity]? = some (CachedCard.conflict card) := by
  unfold replayView deriveView
  simp only [List.mem_insertionSort]
  constructor
  · intro member
    obtain ⟨held, listed, taken⟩ := List.mem_filterMap.mp member
    obtain ⟨⟨entity, stored⟩, slot, rfl⟩ := List.mem_map.mp listed
    have there := Std.ExtTreeMap.mem_toList_iff_getElem?_eq_some.mp slot
    cases stored with
    | claim _ => cases taken
    | conflict other =>
      simp only [Option.some.injEq] at taken
      exact ⟨entity, there.trans (by rw [taken])⟩
    | source _ => cases taken
  · intro ⟨entity, there⟩
    refine List.mem_filterMap.mpr ⟨CachedCard.conflict card,
      List.mem_map.mpr ⟨(entity, CachedCard.conflict card), ?_, rfl⟩, rfl⟩
    exact Std.ExtTreeMap.mem_toList_iff_getElem?_eq_some.mpr there

/-- A claim card of a lawful view, with the stream behind it. -/
theorem Lawful.claim {journal : Journal} {workspaceId : String}
    (lawful : Lawful journal workspaceId) (conforming : journal.Conforming) {card : ClaimCard}
    (listed : card ∈ (replayView workspaceId
      (journal.region (scopeForWorkspace workspaceId))).claims.map ClaimView.card) :
    phaseOf (streamOf (journal.region (scopeForWorkspace workspaceId))
        (entityForClaim card.claimId)) = some card.phase ∧
      card.phase ≠ 0 ∧ card.anomalies = [] ∧ card.workspaceId = workspaceId ∧
      (cardsOf (journal.region (scopeForWorkspace workspaceId)))[entityForClaim card.claimId]? =
        some (.claim card) := by
  obtain ⟨entity, held⟩ := mem_replayView_cards.mp listed
  obtain ⟨phase, reached, begun, _, stands⟩ :=
    lawful.card conforming (Or.inl (family_cardsOf held)) held
  obtain ⟨named, workspace⟩ := stands.named begun
  rw [← named, stands.stands]
  exact ⟨reached, begun, stands.clean, workspace, held⟩

/-- A stream that has begun is where an edge of its entity's machine leads. -/
theorem Lawful.edge {journal : Journal} {workspaceId entity : String}
    (conforming : journal.Conforming) (lives : HasLifecycle entity) {phase : Nat}
    (reached : phaseOf (streamOf (journal.region (scopeForWorkspace workspaceId)) entity) =
      some phase) (begun : phase ≠ 0) : ∃ start, (start, phase) ∈ edgesOf entity := by
  rcases List.eq_nil_or_concat (streamOf (journal.region (scopeForWorkspace workspaceId)) entity)
    with empty | ⟨earlier, last, split⟩
  · rw [empty] at reached
    exact absurd (Option.some.inj reached).symm begun
  · have held : last ∈ streamOf (journal.region (scopeForWorkspace workspaceId)) entity := by
      rw [split]
      simp
    rw [split, List.concat_eq_append, phaseOf_snoc] at reached
    obtain ⟨start, _, taken⟩ := advance_eq_some.mp reached
    exact ⟨start, lifecycleEdge_mem (about_of_mem_stream conforming lives held).1 taken⟩

/-- A listed claim of a lawful view is current or superseded. -/
theorem Lawful.claim_phase {journal : Journal} {workspaceId : String}
    (lawful : Lawful journal workspaceId) (conforming : journal.Conforming) {card : ClaimCard}
    (listed : card ∈ (replayView workspaceId
      (journal.region (scopeForWorkspace workspaceId))).claims.map ClaimView.card) :
    card.phase = 1 ∨ card.phase = 2 := by
  obtain ⟨reached, begun, _⟩ := lawful.claim conforming listed
  obtain ⟨start, edge⟩ := Lawful.edge conforming (Or.inl (CardFamily.of_claim _)) reached begun
  simp only [edgesOf, CardFamily.of_claim, claimEdges, List.mem_cons, Prod.mk.injEq,
    List.not_mem_nil, or_false] at edge
  omega

/-- A lawful view lists each claim once. -/
theorem Lawful.distinct {journal : Journal} {workspaceId : String}
    (lawful : Lawful journal workspaceId) (conforming : journal.Conforming) :
    ((replayView workspaceId (journal.region (scopeForWorkspace workspaceId))).claims.map
      fun claim => claim.card.claimId).Nodup := by
  have keys : ((cardsOf (journal.region (scopeForWorkspace workspaceId))).toList.map
      Prod.fst).Nodup := by
    rw [Std.ExtTreeMap.map_fst_toList_eq_keys]
    exact Std.ExtTreeMap.nodup_keys
  have named : ((claimCards (journal.region (scopeForWorkspace workspaceId))).map
      fun card => entityForClaim card.claimId).Nodup := by
    unfold claimCards
    rw [List.filterMap_map]
    apply nodup_map_filterMap keys
    intro slot member card taken
    have held := Std.ExtTreeMap.mem_toList_iff_getElem?_eq_some.mp member
    obtain ⟨entity, stored⟩ := slot
    cases stored with
    | claim other =>
      have same : other = card := Option.some.inj taken
      rw [same] at held
      obtain ⟨phase, _, begun, _, stands⟩ :=
        lawful.card conforming (Or.inl (family_cardsOf held)) held
      exact (stands.named begun).1.symm
    | conflict _ => cases taken
    | source _ => cases taken
  have listed : ((replayView workspaceId
      (journal.region (scopeForWorkspace workspaceId))).claims.map fun claim =>
        claim.card.claimId) =
      ((replayView workspaceId (journal.region (scopeForWorkspace workspaceId))).claims.map
        ClaimView.card).map ClaimCard.claimId := by
    rw [List.map_map]
    rfl
  rw [listed, map_card_replayView]
  refine ((List.perm_insertionSort _ _).map ClaimCard.claimId).nodup_iff.mpr ?_
  apply List.Nodup.of_map entityForClaim
  rw [List.map_map]
  exact named

/-- A conflict card of a lawful view, with the stream behind it. -/
theorem Lawful.conflict {journal : Journal} {workspaceId : String}
    (lawful : Lawful journal workspaceId) (conforming : journal.Conforming) {card : ConflictCard}
    (listed : card ∈ (replayView workspaceId
      (journal.region (scopeForWorkspace workspaceId))).conflicts) :
    phaseOf (streamOf (journal.region (scopeForWorkspace workspaceId))
        (entityForConflict card.conflictId)) = some card.phase ∧
      card.phase ≠ 0 ∧ card.anomalies = [] ∧ card.workspaceId = workspaceId := by
  obtain ⟨entity, held⟩ := mem_replayView_conflicts.mp listed
  obtain ⟨phase, reached, begun, _, stands⟩ :=
    lawful.card conforming (Or.inr (family_cardsOf held)) held
  obtain ⟨named, workspace⟩ := stands.named begun
  rw [← named, stands.stands]
  exact ⟨reached, begun, stands.clean, workspace⟩

omit [Blake3] in
/-- The phase of an entity's card; an entity without a card has not begun. -/
def cardPhase (rows : List Entry) (entity : String) : Nat :=
  match (cardsOf rows)[entity]? with
  | some (.claim card) => card.phase
  | some (.conflict card) => card.phase
  | _ => 0

/-- The phase of a card is that of its stream. -/
theorem cardPhase_eq {rows : List Entry} (conforming : ∀ row ∈ rows, Conforms row)
    {workspaceId entity : String} (inScope : ∀ row ∈ rows, row.scope = scopeForWorkspace workspaceId)
    (lives : HasLifecycle entity) {phase : Nat}
    (reached : phaseOf (streamOf rows entity) = some phase) : cardPhase rows entity = phase := by
  have about : ∀ payload ∈ streamOf rows entity, lifecycleEntity payload = some entity ∧
      InWorkspace workspaceId payload := by
    intro payload held
    obtain ⟨row, member, written, rfl⟩ := mem_streamOf.mp held
    refine ⟨(writes_iff_lifecycle (conforming row member) lives).mp written, ?_⟩
    intro coordinate lies
    rw [← inScope row member]
    exact congrArg Coordinate.scope ((conforming row member).placed _ lies)
  have family : ∃ family, CardFamily.of entity = some family := by
    rcases lives with claims | conflicts
    · exact ⟨_, claims⟩
    · exact ⟨_, conflicts⟩
  obtain ⟨family, of⟩ := family
  have stands := streamCard_inPhase of lives about reached
  rw [← cardsOf_streamCard] at stands
  unfold cardPhase
  cases held : (cardsOf rows)[entity]? with
  | none =>
    rw [held] at stands
    cases family with
    | claim => exact stands.2.stands
    | conflict => exact stands.2.stands
    | source => exact stands.elim
  | some card =>
    rw [held] at stands
    cases card with
    | claim card => exact stands.2.stands
    | conflict card => exact stands.2.stands
    | source card => exact stands.elim

/-- In a lawful workspace every claim or conflict event moves its entity along an edge of its
machine, from the phase the entity has just before it. -/
theorem Lawful.moves {journal : Journal} {workspaceId : String}
    (lawful : Lawful journal workspaceId) (conforming : journal.Conforming)
    {front back : List Entry} {row : Entry} {entity : String}
    (split : journal.region (scopeForWorkspace workspaceId) = front ++ row :: back)
    (about : lifecycleEntity row.payload = some entity) :
    ∃ edge ∈ edgesOf entity, lifecycleEdge row.payload = some edge ∧
      cardPhase front entity = edge.1 ∧ cardPhase (front ++ [row]) entity = edge.2 ∧
      ∀ record, transitionOf row.payload = some record →
        (record.previousState, record.nextState) = edge := by
  have lives := hasLifecycle_of_about about
  have member : ∀ other ∈ front ++ [row], other ∈ journal.region (scopeForWorkspace workspaceId) := by
    intro other inside
    rw [split]
    rcases List.mem_append.mp inside with earlier | last
    · exact List.mem_append_left _ earlier
    · rw [List.mem_singleton.mp last]
      simp
  have conforms : ∀ other ∈ front ++ [row], Conforms other := fun other inside =>
    conforming other (Journal.mem_region.mp (member other inside)).1
  have inScope : ∀ other ∈ front ++ [row], other.scope = scopeForWorkspace workspaceId :=
    fun other inside => (Journal.mem_region.mp (member other inside)).2
  have written : writes entity row = true :=
    (writes_iff_lifecycle (conforms row (by simp)) lives).mpr about
  obtain ⟨phase, reached⟩ := lawful.phases entity lives
  have whole : journal.region (scopeForWorkspace workspaceId) = (front ++ [row]) ++ back := by
    rw [split]
    simp
  have streams : streamOf (journal.region (scopeForWorkspace workspaceId)) entity =
      streamOf (front ++ [row]) entity ++ streamOf back entity := by
    unfold streamOf
    rw [whole, List.filter_append, List.map_append]
  rw [streams] at reached
  obtain ⟨after, reachedAfter⟩ := phaseOf_append reached
  have last : streamOf (front ++ [row]) entity = streamOf front entity ++ [row.payload] := by
    rw [streamOf_snoc, if_pos written]
  have moved := reachedAfter
  rw [last, phaseOf_snoc] at moved
  obtain ⟨start, before, taken⟩ := advance_eq_some.mp moved
  refine ⟨(start, after), lifecycleEdge_mem about taken, taken, ?_, ?_, ?_⟩
  · exact cardPhase_eq (fun other inside => conforms other (by simp [inside]))
      (fun other inside => inScope other (by simp [inside])) lives before
  · exact cardPhase_eq conforms inScope lives reachedAfter
  · intro record carried
    have told := lawful.truthful row (member row (by simp)) record carried
    rw [told] at taken
    exact Option.some.inj taken

end Texo.Claims
