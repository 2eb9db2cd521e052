import Texo.Claims.Lifecycle
import Texo.Foundation.EdgePaths

/-! # Legal histories

The events a claim or conflict card is folded from, read as moves of its machine. A card notes
an anomaly exactly when its history leaves the machine's edges, and on them it stands where the
history ends.
-/
namespace Texo.Claims
open Texo.Events Texo.Store Texo.Foundation

/-- An event a claim card handles. -/
inductive ClaimEvent where
  | recorded (event : ClaimRecordedV2)
  | superseded (event : ClaimSupersededV2)
deriving DecidableEq

/-- The claim event of a payload, if it is one. -/
def ClaimEvent.of? : Payload → Option ClaimEvent
  | .claimRecorded event => some (.recorded event)
  | .claimSuperseded event => some (.superseded event)
  | _ => none

/-- The phase a claim event moves its claim to. -/
def ClaimEvent.target : ClaimEvent → Option Nat
  | .recorded _ => some 1
  | .superseded _ => some 2

/-- The handler of a claim event. -/
def ClaimCard.handle (card : ClaimCard) : ClaimEvent → ClaimCard
  | .recorded event => card.onRecorded event
  | .superseded event => card.onSuperseded event

/-- An event a conflict card handles. -/
inductive ConflictEvent where
  | opened (event : ConflictOpenedV2)
  | resolved (event : ConflictResolvedV2)
deriving DecidableEq

/-- The conflict event of a payload, if it is one. -/
def ConflictEvent.of? : Payload → Option ConflictEvent
  | .conflictOpened event => some (.opened event)
  | .conflictResolved event => some (.resolved event)
  | _ => none

/-- The phase a conflict event moves its conflict to; an unknown resolution names none. -/
def ConflictEvent.target : ConflictEvent → Option Nat
  | .opened _ => some 1
  | .resolved event =>
    if event.resolution = "resolved" then some 2
    else if event.resolution = "ignored" then some 3
    else none

/-- The handler of a conflict event. -/
def ConflictCard.handle (card : ConflictCard) : ConflictEvent → ConflictCard
  | .opened event => card.onOpened event
  | .resolved event => card.onResolved event

/-- The events take a claim from phase 0 to a phase along the claim edges. -/
def ClaimPath (events : List ClaimEvent) (phase : Nat) : Prop :=
  EdgePath claimEdges 0 (events.map ClaimEvent.target) phase

/-- The events take a conflict from phase 0 to a phase along the conflict edges. -/
def ConflictPath (events : List ConflictEvent) (phase : Nat) : Prop :=
  EdgePath conflictEdges 0 (events.map ConflictEvent.target) phase

/-- A claim card without an anomaly, in a phase. -/
structure ClaimStands (card : ClaimCard) (phase : Nat) : Prop where
  present : card.phase = phase
  clean : card.anomalies = []
  successor : card.supersededBy.isSome = true ↔ phase = 2

/-- A conflict card without an anomaly, in a phase. -/
structure ConflictStands (card : ConflictCard) (phase : Nat) : Prop where
  present : card.phase = phase
  clean : card.anomalies = []

/-- The edges into a phase of the claim machine. -/
theorem mem_claimEdges {start next : Nat} :
    (start, next) ∈ claimEdges ↔ (start = 0 ∧ next = 1) ∨ (start = 1 ∧ next = 2) := by
  simp [claimEdges]

/-- The edges into a phase of the conflict machine. -/
theorem mem_conflictEdges {start next : Nat} :
    (start, next) ∈ conflictEdges ↔
      (start = 0 ∧ next = 1) ∨ (start = 1 ∧ next = 2) ∨ (start = 1 ∧ next = 3) := by
  simp [conflictEdges]

/-- What a claim card without an anomaly after an event had before it. -/
theorem ClaimCard.clean_handle {card : ClaimCard} {event : ClaimEvent}
    (clean : (card.handle event).anomalies = []) :
    card.anomalies = [] ∧
      match event with
      | .recorded _ => card.phase = 0
      | .superseded _ => card.phase = 1 ∧ card.supersededBy = none := by
  cases event with
  | recorded event =>
    by_cases fresh : card.phase = 0
    · simp only [handle, onRecorded, fresh, ne_eq, not_true_eq_false, if_false] at clean
      exact ⟨clean, fresh⟩
    · simp [handle, onRecorded, fresh] at clean
  | superseded event =>
    by_cases taken : card.supersededBy.isSome = true
    · simp [handle, onSuperseded, taken] at clean
    · have free : card.supersededBy = none := by simpa using taken
      by_cases current : card.phase = 1
      · simp only [handle, onSuperseded, free, current, Option.isSome_none, Bool.false_eq_true,
          ne_eq, not_true_eq_false, if_false] at clean
        exact ⟨clean, current, free⟩
      · simp [handle, onSuperseded, free, current] at clean

/-- What a conflict card without an anomaly after an event had before it. -/
theorem ConflictCard.clean_handle {card : ConflictCard} {event : ConflictEvent}
    (clean : (card.handle event).anomalies = []) :
    card.anomalies = [] ∧
      match event with
      | .opened _ => card.phase = 0
      | .resolved event =>
        card.phase = 1 ∧ (event.resolution = "resolved" ∨ event.resolution = "ignored") := by
  cases event with
  | opened event =>
    by_cases fresh : card.phase = 0
    · simp only [handle, onOpened, fresh, ne_eq, not_true_eq_false, if_false] at clean
      exact ⟨clean, fresh⟩
    · simp [handle, onOpened, fresh] at clean
  | resolved event =>
    by_cases known : event.resolution = "resolved" ∨ event.resolution = "ignored"
    · by_cases current : card.phase = 1
      · simp only [handle, onResolved, known, current, ne_eq, not_true_eq_false, if_false,
          if_true] at clean
        exact ⟨clean, current, known⟩
      · simp [handle, onResolved, known, current] at clean
    · simp [handle, onResolved, known] at clean

/-- The claim card observes the claim machine. -/
theorem claimCard_observes :
    Observes claimEdges ClaimCard.handle ClaimEvent.target (fun card => card.anomalies = [])
      ClaimStands where
  silent stands := stands.clean
  lasting clean := (ClaimCard.clean_handle clean).1
  legal := by
    intro card state event stands clean
    have before := (ClaimCard.clean_handle clean).2
    cases event with
    | recorded event =>
      have fresh : state = 0 := stands.present.symm.trans before
      exact ⟨1, rfl, mem_claimEdges.mpr (Or.inl ⟨fresh, rfl⟩)⟩
    | superseded event =>
      have current : state = 1 := stands.present.symm.trans before.1
      exact ⟨2, rfl, mem_claimEdges.mpr (Or.inr ⟨current, rfl⟩)⟩
  arrives := by
    intro card state event next stands moved edge
    have edges := mem_claimEdges.mp edge
    cases event with
    | recorded event =>
      have one : 1 = next := Option.some.inj moved
      have zero : card.phase = 0 := by
        rw [stands.present]
        omega
      have alone : card.supersededBy.isSome = false := by
        rw [Bool.eq_false_iff]
        intro taken
        have two := stands.successor.mp taken
        omega
      refine ⟨one, ?_, ?_⟩
      · simp [ClaimCard.handle, ClaimCard.onRecorded, zero, stands.clean]
      · rw [← one]
        simp [ClaimCard.handle, ClaimCard.onRecorded, alone]
    | superseded event =>
      have two : 2 = next := Option.some.inj moved
      have current : card.phase = 1 := by
        rw [stands.present]
        omega
      have alone : card.supersededBy.isSome = false := by
        rw [Bool.eq_false_iff]
        intro taken
        have two := stands.successor.mp taken
        omega
      have handled : card.handle (.superseded event) =
          { card with
            phase := 2
            supersededBy := some event.newClaimId
            supersededReason := event.reason
            supersededDecidedBy := event.decidedBy } := by
        simp [ClaimCard.handle, ClaimCard.onSuperseded, alone, current]
      rw [handled]
      exact ⟨two, stands.clean, by simp [← two]⟩

/-- The conflict card observes the conflict machine. -/
theorem conflictCard_observes :
    Observes conflictEdges ConflictCard.handle ConflictEvent.target
      (fun card => card.anomalies = []) ConflictStands where
  silent stands := stands.clean
  lasting clean := (ConflictCard.clean_handle clean).1
  legal := by
    intro card state event stands clean
    have before := (ConflictCard.clean_handle clean).2
    cases event with
    | opened event =>
      have fresh : state = 0 := stands.present.symm.trans before
      exact ⟨1, rfl, mem_conflictEdges.mpr (Or.inl ⟨fresh, rfl⟩)⟩
    | resolved event =>
      obtain ⟨current, known⟩ := before
      have one : state = 1 := stands.present.symm.trans current
      by_cases settled : event.resolution = "resolved"
      · exact ⟨2, if_pos settled, mem_conflictEdges.mpr (Or.inr (Or.inl ⟨one, rfl⟩))⟩
      · have ignored : event.resolution = "ignored" := known.resolve_left settled
        refine ⟨3, ?_, mem_conflictEdges.mpr (Or.inr (Or.inr ⟨one, rfl⟩))⟩
        show (if _ then _ else if _ then _ else _) = some 3
        rw [if_neg settled, if_pos ignored]
  arrives := by
    intro card state event next stands moved edge
    have edges := mem_conflictEdges.mp edge
    cases event with
    | opened event =>
      have one : 1 = next := Option.some.inj moved
      have zero : card.phase = 0 := by
        rw [stands.present]
        omega
      refine ⟨one, ?_⟩
      simp [ConflictCard.handle, ConflictCard.onOpened, zero, stands.clean]
    | resolved event =>
      have past : next = 2 ∨ next = 3 := by
        by_cases settled : event.resolution = "resolved"
        · have two : some 2 = some next := (if_pos settled).symm.trans moved
          exact Or.inl (Option.some.inj two).symm
        · have later : (if event.resolution = "ignored" then some 3 else none) = some next :=
            (if_neg settled).symm.trans moved
          by_cases ignored : event.resolution = "ignored"
          · rw [if_pos ignored] at later
            exact Or.inr (Option.some.inj later).symm
          · rw [if_neg ignored] at later
            cases later
      have current : card.phase = 1 := by
        rw [stands.present]
        omega
      by_cases settled : event.resolution = "resolved"
      · have two : some 2 = some next := (if_pos settled).symm.trans moved
        refine ⟨?_, ?_⟩
        · rw [← Option.some.inj two]
          simp [ConflictCard.handle, ConflictCard.onResolved, settled]
        · simp [ConflictCard.handle, ConflictCard.onResolved, settled, current, stands.clean]
      · have later : (if event.resolution = "ignored" then some 3 else none) = some next :=
          (if_neg settled).symm.trans moved
        by_cases ignored : event.resolution = "ignored"
        · rw [if_pos ignored] at later
          refine ⟨?_, ?_⟩
          · rw [← Option.some.inj later]
            simp [ConflictCard.handle, ConflictCard.onResolved, ignored]
          · simp [ConflictCard.handle, ConflictCard.onResolved, ignored, current, stands.clean]
        · rw [if_neg ignored] at later
          cases later

/-- A fresh claim card stands in phase 0. -/
theorem claimStands_default : ClaimStands {} 0 where
  present := rfl
  clean := rfl
  successor := by simp

/-- A fresh conflict card stands in phase 0. -/
theorem conflictStands_default : ConflictStands {} 0 where
  present := rfl
  clean := rfl

/-- The card of a claim's events. -/
def claimCardOf (events : List ClaimEvent) : ClaimCard := events.foldl ClaimCard.handle {}

/-- The card of a conflict's events. -/
def conflictCardOf (events : List ConflictEvent) : ConflictCard :=
  events.foldl ConflictCard.handle {}

/-- A claim card notes no anomaly exactly when its history is a path. -/
theorem claimCardOf_clean {events : List ClaimEvent} :
    (claimCardOf events).anomalies = [] ↔ ∃ phase, ClaimPath events phase :=
  claimCard_observes.quiet_iff claimStands_default

/-- A conflict card notes no anomaly exactly when its history is a path. -/
theorem conflictCardOf_clean {events : List ConflictEvent} :
    (conflictCardOf events).anomalies = [] ↔ ∃ phase, ConflictPath events phase :=
  conflictCard_observes.quiet_iff conflictStands_default

/-- A handled payload is a claim event; any other leaves a claim card alone. -/
theorem ClaimCard.applyEvent_eq (card : ClaimCard) (payload : Payload) :
    card.applyEvent payload = ((ClaimEvent.of? payload).map card.handle).getD card := by
  cases payload <;> rfl

/-- A handled payload is a conflict event; any other leaves a conflict card alone. -/
theorem ConflictCard.applyEvent_eq (card : ConflictCard) (payload : Payload) :
    card.applyEvent payload = ((ConflictEvent.of? payload).map card.handle).getD card := by
  cases payload <;> rfl

/-- The claim events recorded for an entity. -/
def claimEventsOf (rows : List Entry) (entity : String) : List ClaimEvent :=
  (streamOf rows entity).filterMap ClaimEvent.of?

/-- The conflict events recorded for an entity. -/
def conflictEventsOf (rows : List Entry) (entity : String) : List ConflictEvent :=
  (streamOf rows entity).filterMap ConflictEvent.of?

/-- Folding a stream from no card is folding it from the empty card. -/
theorem foldl_extendCard (family : CardFamily) (stream : List Payload) (start : Option CachedCard) :
    (stream.foldl (extendCard family) start).getD (emptyCard family) =
      stream.foldl (fun card payload => card.applyEvent family payload)
        (start.getD (emptyCard family)) := by
  induction stream generalizing start with
  | nil => rfl
  | cons payload rest ih => exact ih (extendCard family start payload)

/-- The card of a stream is the fold of the stream. -/
theorem streamCard_foldl {entity : String} {family : CardFamily}
    (of : CardFamily.of entity = some family) {stream : List Payload} {card : CachedCard}
    (held : streamCard entity stream = some card) :
    card = stream.foldl (fun card payload => card.applyEvent family payload) (emptyCard family) := by
  have run : stream.foldl (extendCard family) none = some card := by
    simpa only [streamCard, of] using held
  have folded := foldl_extendCard family stream none
  rw [run] at folded
  exact folded

/-- A claim card folds the claim events of a stream. -/
theorem foldl_claim (stream : List Payload) (card : ClaimCard) :
    stream.foldl (fun card payload => card.applyEvent .claim payload) (CachedCard.claim card) =
      .claim ((stream.filterMap ClaimEvent.of?).foldl ClaimCard.handle card) := by
  induction stream generalizing card with
  | nil => rfl
  | cons payload rest ih =>
    show rest.foldl _ (CachedCard.claim (card.applyEvent payload)) = _
    rw [ih, ClaimCard.applyEvent_eq, List.filterMap_cons]
    cases ClaimEvent.of? payload <;> rfl

/-- A conflict card folds the conflict events of a stream. -/
theorem foldl_conflict (stream : List Payload) (card : ConflictCard) :
    stream.foldl (fun card payload => card.applyEvent .conflict payload)
        (CachedCard.conflict card) =
      .conflict ((stream.filterMap ConflictEvent.of?).foldl ConflictCard.handle card) := by
  induction stream generalizing card with
  | nil => rfl
  | cons payload rest ih =>
    show rest.foldl _ (CachedCard.conflict (card.applyEvent payload)) = _
    rw [ih, ConflictCard.applyEvent_eq, List.filterMap_cons]
    cases ConflictEvent.of? payload <;> rfl

/-- A claim card of a replay is the card of its entity's events. -/
theorem claimCard_of_replay {rows : List Entry} {entity : String} {card : ClaimCard}
    (held : (cardsOf rows)[entity]? = some (CachedCard.claim card)) :
    CardFamily.of entity = some .claim ∧ card = claimCardOf (claimEventsOf rows entity) := by
  have of : CardFamily.of entity = some .claim := family_cardsOf held
  rw [cardsOf_streamCard] at held
  have folded := streamCard_foldl of held
  rw [emptyCard, foldl_claim] at folded
  exact ⟨of, CachedCard.claim.inj folded⟩

/-- A conflict card of a replay is the card of its entity's events. -/
theorem conflictCard_of_replay {rows : List Entry} {entity : String} {card : ConflictCard}
    (held : (cardsOf rows)[entity]? = some (CachedCard.conflict card)) :
    CardFamily.of entity = some .conflict ∧
      card = conflictCardOf (conflictEventsOf rows entity) := by
  have of : CardFamily.of entity = some .conflict := family_cardsOf held
  rw [cardsOf_streamCard] at held
  have folded := streamCard_foldl of held
  rw [emptyCard, foldl_conflict] at folded
  exact ⟨of, CachedCard.conflict.inj folded⟩

/-- An entity with a history has a card. -/
theorem exists_card_of_stream {rows : List Entry} {entity : String} {family : CardFamily}
    (of : CardFamily.of entity = some family) (written : streamOf rows entity ≠ []) :
    ∃ card, (cardsOf rows)[entity]? = some card := by
  rw [cardsOf_streamCard]
  cases stream : streamOf rows entity with
  | nil => exact absurd stream written
  | cons payload rest =>
    simp only [streamCard, of, List.foldl_cons, extendCard]
    generalize (CachedCard.applyEvent _ family payload) = start
    clear stream written
    induction rest generalizing start with
    | nil => exact ⟨start, rfl⟩
    | cons payload rest ih => exact ih _

end Texo.Claims
