import Mathlib.Data.List.Induction
import Texo.Claims.WorkspaceCache
import Texo.Store.Policy

/-! # What a replayed view shows

The claims of a replayed view, read off the journal rows: which card each row writes, which
cards the view lists, and which recording a listed claim goes back to.
-/
namespace Texo.Claims
open Texo.Events Texo.Store Texo.Foundation

/-- The family a cached card belongs to. -/
def CachedCard.family : CachedCard → CardFamily
  | .claim _ => .claim
  | .conflict _ => .conflict
  | .source _ => .source

@[simp] theorem family_emptyCard (family : CardFamily) : (emptyCard family).family = family := by
  cases family <;> rfl

@[simp] theorem CachedCard.family_applyEvent (card : CachedCard) (family : CardFamily)
    (payload : Payload) : (card.applyEvent family payload).family = card.family := by
  cases card <;> cases family <;> rfl

/-- The last row is folded last. -/
theorem cardsOf_snoc (rows : List Entry) (row : Entry) :
    cardsOf (rows ++ [row]) = foldCard (cardsOf rows) row := by
  simp [cardsOf]

/-- A card lies on an entity of its family. -/
theorem family_cardsOf {rows : List Entry} {entity : String} {card : CachedCard}
    (present : (cardsOf rows)[entity]? = some card) : CardFamily.of entity = some card.family := by
  induction rows using List.reverseRecOn generalizing entity card with
  | nil => simp [cardsOf] at present
  | append_singleton rows row ih =>
    rw [cardsOf_snoc] at present
    unfold foldCard at present
    cases found : CardFamily.of row.entity with
    | none =>
      rw [found] at present
      exact ih present
    | some family =>
      rw [found] at present
      simp only at present
      split at present
      · rw [Std.ExtTreeMap.getElem?_insert] at present
        split at present
        · rename_i same
          have here : row.entity = entity := Std.LawfulEqCmp.eq_of_compare same
          rw [← here, found, ← Option.some.inj present, CachedCard.family_applyEvent]
          cases before : (cardsOf rows)[row.entity]? with
          | none => simp
          | some old =>
            have own := ih before
            rw [found] at own
            simpa using own
        · exact ih present
      · exact ih present

/-- The card of a claim after a replay. -/
def claimCardAt (rows : List Entry) (claimId : String) : Option ClaimCard :=
  match (cardsOf rows)[entityForClaim claimId]? with
  | some (.claim card) => some card
  | _ => none

/-- A claim's entity holds nothing but its claim card. -/
theorem cardsOf_entityForClaim (rows : List Entry) (claimId : String) :
    (cardsOf rows)[entityForClaim claimId]? = (claimCardAt rows claimId).map CachedCard.claim := by
  unfold claimCardAt
  cases present : (cardsOf rows)[entityForClaim claimId]? with
  | none => rfl
  | some card =>
    have family := family_cardsOf present
    rw [CardFamily.of_claim] at family
    cases card with
    | claim card => rfl
    | conflict card => cases family
    | source card => cases family

/-- What a claim's entity holds decides its card. -/
theorem claimCardAt_eq {rows : List Entry} {claimId : String} {card : Option ClaimCard}
    (holds : (cardsOf rows)[entityForClaim claimId]? = card.map CachedCard.claim) :
    claimCardAt rows claimId = card := by
  unfold claimCardAt
  rw [holds]
  cases card <;> rfl

/-- The step law of a claim's card: a relevant row on its entity is applied, any other row
leaves the card alone. -/
theorem claimCardAt_snoc (rows : List Entry) (row : Entry) (claimId : String) :
    claimCardAt (rows ++ [row]) claimId =
      if row.entity = entityForClaim claimId ∧ relevant .claim row.payload.kind = true then
        some (((claimCardAt rows claimId).getD {}).applyEvent row.payload)
      else
        claimCardAt rows claimId := by
  have before := cardsOf_entityForClaim rows claimId
  apply claimCardAt_eq
  rw [cardsOf_snoc]
  unfold foldCard
  by_cases here : row.entity = entityForClaim claimId
  · rw [here, CardFamily.of_claim]
    by_cases kind : relevant .claim row.payload.kind = true
    · simp only [kind, and_self, if_true, Std.ExtTreeMap.getElem?_insert_self, before]
      cases claimCardAt rows claimId <;> rfl
    · rw [if_neg fun both => kind both.2, ← before]
      simp only [if_neg kind]
  · rw [if_neg fun both => here both.1, ← before]
    cases CardFamily.of row.entity with
    | none => rfl
    | some family =>
      simp only
      split
      · rw [Std.ExtTreeMap.getElem?_insert, if_neg]
        intro same
        exact here (Std.LawfulEqCmp.eq_of_compare same)
      · rfl

/-- Cards listed by a view, in order. -/
theorem map_card_claimViews (openConflicts : List String)
    (supersedes : Std.ExtTreeMap String (List String)) (cards : List ClaimCard) :
    (claimViews openConflicts supersedes cards).map ClaimView.card = cards := by
  induction cards generalizing supersedes with
  | nil => rfl
  | cons card cards ih => simp [claimViews, ih]

/-- A listed claim's status is read off its card and the open conflicts. -/
theorem status_claimViews {openConflicts : List String}
    {supersedes : Std.ExtTreeMap String (List String)} {cards : List ClaimCard} {claim : ClaimView}
    (listed : claim ∈ claimViews openConflicts supersedes cards) :
    claim.status = claimStatus claim.card (openConflicts.contains claim.card.claimId) := by
  induction cards generalizing supersedes with
  | nil => cases listed
  | cons card cards ih =>
    rcases List.mem_cons.mp listed with rfl | later
    · rfl
    · exact ih later

/-- The claim cards of a replay. -/
def claimCards (rows : List Entry) : List ClaimCard :=
  ((cardsOf rows).toList.map Prod.snd).filterMap fun | .claim card => some card | _ => none

/-- A replay's claim cards are the claim cards it holds. -/
theorem mem_claimCards {rows : List Entry} {card : ClaimCard} :
    card ∈ claimCards rows ↔ ∃ entity : String, (cardsOf rows)[entity]? = some (CachedCard.claim card) := by
  unfold claimCards
  constructor
  · intro member
    obtain ⟨held, listed, taken⟩ := List.mem_filterMap.mp member
    obtain ⟨⟨entity, stored⟩, slot, rfl⟩ := List.mem_map.mp listed
    have there := Std.ExtTreeMap.mem_toList_iff_getElem?_eq_some.mp slot
    cases stored with
    | claim other =>
      simp only [Option.some.injEq] at taken
      exact ⟨entity, there.trans (by rw [taken])⟩
    | conflict _ => cases taken
    | source _ => cases taken
  · rintro ⟨entity, there⟩
    refine List.mem_filterMap.mpr ⟨CachedCard.claim card, List.mem_map.mpr ⟨(entity, CachedCard.claim card), ?_, rfl⟩, rfl⟩
    exact Std.ExtTreeMap.mem_toList_iff_getElem?_eq_some.mpr there

/-- The cards a replayed view lists, sorted by claim id. -/
theorem map_card_replayView (workspaceId : String) (rows : List Entry) :
    (replayView workspaceId rows).claims.map ClaimView.card =
      (claimCards rows).insertionSort fun left right => left.claimId ≤ right.claimId :=
  map_card_claimViews _ _ _

/-- A replayed view lists exactly the claim cards of the replay. -/
theorem mem_replayView_cards {workspaceId : String} {rows : List Entry} {card : ClaimCard} :
    card ∈ (replayView workspaceId rows).claims.map ClaimView.card ↔
      ∃ entity : String, (cardsOf rows)[entity]? = some (CachedCard.claim card) := by
  rw [map_card_replayView, List.mem_insertionSort, mem_claimCards]

/-- The recording a card shows. -/
def ClaimCard.record (card : ClaimCard) : ClaimRecordedV2 where
  claimId := card.claimId
  workspaceId := card.workspaceId
  sourceId := card.sourceId
  sourcePath := card.sourcePath
  lineStart := card.lineStart
  lineEnd := card.lineEnd
  charStart := card.charStart
  charEnd := card.charEnd
  text := card.text
  normalizedText := card.normalizedText
  subjectHint := card.subjectHint
  predicateHint := card.predicateHint
  objectHint := card.objectHint
  confidencePpm := card.confidencePpm
  extractorKind := card.extractorKind
  extractorModel := card.extractorModel
  promptVersion := card.promptVersion
  observedAtMs := card.observedAtMs

@[simp] theorem ClaimCard.record_onRecorded (card : ClaimCard) (event : ClaimRecordedV2) :
    (card.onRecorded event).record = event := rfl

@[simp] theorem ClaimCard.phase_onRecorded (card : ClaimCard) (event : ClaimRecordedV2) :
    (card.onRecorded event).phase = 1 := rfl

@[simp] theorem ClaimCard.record_onSuperseded (card : ClaimCard) (event : ClaimSupersededV2) :
    (card.onSuperseded event).record = card.record := by
  by_cases successor : card.supersededBy.isSome = true
  · simp only [ClaimCard.onSuperseded, successor, if_true]
    rfl
  · simp only [ClaimCard.onSuperseded, if_neg successor]
    rfl

@[simp] theorem ClaimCard.claimId_onSuperseded (card : ClaimCard) (event : ClaimSupersededV2) :
    (card.onSuperseded event).claimId = card.claimId :=
  congrArg ClaimRecordedV2.claimId (card.record_onSuperseded event)

/-- A superseded card is superseded for good. -/
theorem ClaimCard.phase_onSuperseded {card : ClaimCard} (event : ClaimSupersededV2)
    (retired : card.phase = 2) : (card.onSuperseded event).phase = 2 := by
  by_cases successor : card.supersededBy.isSome = true
  · simpa only [ClaimCard.onSuperseded, successor, if_true] using retired
  · simp only [ClaimCard.onSuperseded, if_neg successor]

/-- The rows record a claim. -/
def Recorded (rows : List Entry) (claimId : String) : Prop :=
  ∃ row ∈ rows, ∃ event, row.payload = .claimRecorded event ∧ event.claimId = claimId

/-- The rows retire a claim. -/
def Superseded (rows : List Entry) (claimId : String) : Prop :=
  ∃ row ∈ rows, ∃ event, row.payload = .claimSuperseded event ∧ event.oldClaimId = claimId

/-- Where a claim's card comes from: its recording, or a supersession with no recording. -/
inductive ClaimOrigin (rows : List Entry) (claimId : String) (card : ClaimCard) : Prop
  | recorded (row : Entry) (member : row ∈ rows) (payload : row.payload = .claimRecorded card.record)
      (named : card.claimId = claimId)
  | gone (unnamed : card.claimId = "") (retired : card.phase = 2) (nowhere : ¬ Recorded rows claimId)

/-- What conforming rows say about one claim. -/
def OriginAt (rows : List Entry) (claimId : String) : Prop :=
  match claimCardAt rows claimId with
  | none => ¬ Recorded rows claimId
  | some card => ClaimOrigin rows claimId card

/-- A card on an entity of the claim family is the card of some claim. -/
theorem claimCardAt_of_card {rows : List Entry} {entity : String} {card : ClaimCard}
    (present : (cardsOf rows)[entity]? = some (.claim card)) :
    ∃ claimId, entity = entityForClaim claimId ∧ claimCardAt rows claimId = some card := by
  have family := family_cardsOf present
  obtain ⟨claimId, rfl⟩ := exists_of_family_claim family
  exact ⟨claimId, rfl, claimCardAt_eq present⟩

section
variable [Blake3]

/-- A claim's row is told by its payload: a recording or a supersession of it lies on its
entity, and nothing else there is relevant. -/
theorem relevant_cases {row : Entry} (conforms : Conforms row) {claimId : String}
    (here : row.entity = entityForClaim claimId) (kind : relevant .claim row.payload.kind = true) :
    (∃ event, row.payload = .claimRecorded event ∧ event.claimId = claimId) ∨
      ∃ event, row.payload = .claimSuperseded event ∧ event.oldClaimId = claimId := by
  have placed := conforms.placed
  cases stored : row.payload with
  | claimRecorded event =>
    rw [stored] at placed
    have entity := congrArg Coordinate.entity (placed _ rfl)
    exact Or.inl ⟨event, rfl, entityForClaim_injective (entity.trans here)⟩
  | claimSuperseded event =>
    rw [stored] at placed
    have entity := congrArg Coordinate.entity (placed _ rfl)
    exact Or.inr ⟨event, rfl, entityForClaim_injective (entity.trans here)⟩
  | _ => simp [stored, relevant, Payload.kind] at kind

/-- A recording lies on its claim's entity. -/
theorem entity_of_recorded {row : Entry} (conforms : Conforms row) {event : ClaimRecordedV2}
    (payload : row.payload = .claimRecorded event) : row.entity = entityForClaim event.claimId := by
  have placed := conforms.placed
  rw [payload] at placed
  exact (congrArg Coordinate.entity (placed _ rfl)).symm

/-- The run law of claim cards: a claim of conforming rows has a card exactly when it was
recorded or superseded, and the card shows the recording. -/
theorem originAt {rows : List Entry} (conforming : ∀ row ∈ rows, Conforms row) (claimId : String) :
    OriginAt rows claimId := by
  induction rows using List.reverseRecOn with
  | nil =>
    show ¬ Recorded [] claimId
    rintro ⟨row, member, _⟩
    cases member
  | append_singleton rows row ih =>
    have before := ih fun earlier member => conforming earlier (by simp [member])
    have conforms := conforming row (by simp)
    unfold OriginAt at before ⊢
    rw [claimCardAt_snoc]
    by_cases here : row.entity = entityForClaim claimId ∧ relevant .claim row.payload.kind = true
    · rw [if_pos here]
      rcases relevant_cases conforms here.1 here.2 with ⟨event, payload, named⟩ | ⟨event, payload, named⟩
      · rw [payload]
        exact .recorded row (by simp) payload named
      · rw [payload]
        have fresh : ¬ Recorded rows claimId → ¬ Recorded (rows ++ [row]) claimId := by
          rintro absent ⟨other, member, recording, stored, same⟩
          rcases List.mem_append.mp member with early | late
          · exact absent ⟨other, early, recording, stored, same⟩
          · rw [List.mem_singleton.mp late, payload] at stored
            cases stored
        cases held : claimCardAt rows claimId with
        | none =>
          rw [held] at before
          exact .gone rfl rfl (fresh before)
        | some card =>
          rw [held] at before
          show ClaimOrigin _ _ (card.onSuperseded event)
          rcases before with ⟨source, member, recording, own⟩ | ⟨unnamed, retired, nowhere⟩
          · exact .recorded source (by simp [member]) (by simpa using recording) (by simpa using own)
          · exact .gone (by simpa using unnamed) (card.phase_onSuperseded event retired) (fresh nowhere)
    · rw [if_neg here]
      have fresh : Recorded (rows ++ [row]) claimId → Recorded rows claimId := by
        rintro ⟨other, member, recording, stored, same⟩
        rcases List.mem_append.mp member with early | late
        · exact ⟨other, early, recording, stored, same⟩
        · have last := List.mem_singleton.mp late
          subst last
          have entity := entity_of_recorded conforms stored
          rw [same] at entity
          refine absurd ⟨entity, ?_⟩ here
          rw [stored]
          rfl
      cases held : claimCardAt rows claimId with
      | none =>
        rw [held] at before
        exact fun recorded => before (fresh recorded)
      | some card =>
        rw [held] at before
        rcases before with ⟨source, member, recording, own⟩ | ⟨unnamed, retired, nowhere⟩
        · exact .recorded source (by simp [member]) recording own
        · exact .gone unnamed retired fun recorded => nowhere (fresh recorded)

/-- A listed claim that is not superseded was recorded, and shows its recording. -/
theorem listed_recorded {workspaceId : String} {rows : List Entry}
    (conforming : ∀ row ∈ rows, Conforms row) {claim : ClaimView}
    (listed : claim ∈ (replayView workspaceId rows).claims) (active : claim.card.phase ≠ 2) :
    claimCardAt rows claim.card.claimId = some claim.card ∧
      ∃ row ∈ rows, row.payload = .claimRecorded claim.card.record := by
  obtain ⟨entity, present⟩ := mem_replayView_cards.mp (List.mem_map_of_mem listed)
  obtain ⟨claimId, _, held⟩ := claimCardAt_of_card present
  have origin := originAt conforming claimId
  unfold OriginAt at origin
  rw [held] at origin
  rcases origin with ⟨row, member, payload, named⟩ | ⟨_, retired, _⟩
  · rw [named]
    exact ⟨held, row, member, payload⟩
  · exact absurd retired active

end

end Texo.Claims
