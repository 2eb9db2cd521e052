import Texo.Claims.Streams
import Texo.Ingest.Plan
import Texo.Ops.Grounded

/-! # Which bodies a view shows

A view shows the body of a source's latest observation. As long as a source id stands for one
body, the view shows a body exactly when the journal has observed it.
-/
namespace Texo.Ingest
open Texo.Events Texo.Extract Texo.Store Texo.Claims Texo.Ops

/-- Some rows observe a body. -/
def Observed (rows : List Entry) (bodyHashHex : String) : Prop :=
  ∃ row ∈ rows, ∃ event, row.payload = .sourceObserved event ∧ event.bodyHashHex = bodyHashHex

/-- In some rows a source id stands for one body and the body for that source. -/
def Owned (rows : List Entry) (sourceId bodyHashHex : String) : Prop :=
  ∀ row ∈ rows, ∀ event, row.payload = .sourceObserved event →
    (event.sourceId = sourceId ↔ event.bodyHashHex = bodyHashHex)

/-- A replayed view shows the bodies of its source cards. -/
theorem mem_existingHashes {workspaceId : String} {rows : List Entry} {bodyHashHex : String} :
    bodyHashHex ∈ existingHashes (replayView workspaceId rows) ↔
      ∃ (entity : String) (card : SourceCard),
        (cardsOf rows)[entity]? = some (CachedCard.source card) ∧ card.bodyHashHex = bodyHashHex := by
  unfold existingHashes
  rw [List.mem_map]
  constructor
  · intro ⟨card, listed, same⟩
    have among := (List.mem_insertionSort _).mp listed
    obtain ⟨held, member, taken⟩ := List.mem_filterMap.mp among
    obtain ⟨⟨entity, stored⟩, slot, equal⟩ := List.mem_map.mp member
    have there := Std.ExtTreeMap.mem_toList_iff_getElem?_eq_some.mp slot
    refine ⟨entity, card, there.trans ?_, same⟩
    have shape : stored = held := equal
    rw [shape]
    cases held with
    | claim other => cases taken
    | conflict other => cases taken
    | source other => rw [Option.some.inj taken]
  · intro ⟨entity, card, there, same⟩
    refine ⟨card, (List.mem_insertionSort _).mpr (List.mem_filterMap.mpr
      ⟨CachedCard.source card, List.mem_map.mpr ⟨(entity, CachedCard.source card), ?_, rfl⟩,
        rfl⟩), same⟩
    exact Std.ExtTreeMap.mem_toList_iff_getElem?_eq_some.mpr there

section
variable [Blake3]

/-- A relevant row of a source observes it. -/
theorem observed_of_relevant {row : Entry} (conforms : Conforms row) {entity : String}
    (here : row.entity = entity) (kind : relevant .source row.payload.kind = true) :
    ∃ event, row.payload = .sourceObserved event ∧ entity = entityForSource event.sourceId := by
  have placed := conforms.placed
  cases stored : row.payload with
  | sourceObserved event =>
    rw [stored] at placed
    refine ⟨event, rfl, ?_⟩
    rw [← here]
    exact (congrArg Coordinate.entity (placed _ rfl)).symm
  | _ => simp [stored, relevant, Payload.kind] at kind

/-- A source card shows the body of one of its source's observations. -/
theorem observed_of_source_card {rows : List Entry} (conforming : ∀ row ∈ rows, Conforms row)
    {entity : String} {card : SourceCard}
    (present : (cardsOf rows)[entity]? = some (CachedCard.source card)) :
    ∃ row ∈ rows, ∃ event, row.payload = .sourceObserved event ∧
      entity = entityForSource event.sourceId ∧ event.bodyHashHex = card.bodyHashHex := by
  have family : CardFamily.of entity = some .source := family_cardsOf present
  induction rows using List.reverseRecOn generalizing card with
  | nil => simp [cardsOf] at present
  | append_singleton rows row ih =>
    have earlier : (cardsOf rows)[entity]? = some (CachedCard.source card) →
        ∃ old ∈ rows ++ [row], ∃ event, old.payload = .sourceObserved event ∧
          entity = entityForSource event.sourceId ∧ event.bodyHashHex = card.bodyHashHex := by
      intro before
      obtain ⟨old, member, found⟩ := ih (fun old member => conforming old (by simp [member])) before
      exact ⟨old, by simp [member], found⟩
    rw [cardsOf_snoc] at present
    unfold foldCard at present
    by_cases here : row.entity = entity
    · rw [here, family] at present
      simp only at present
      by_cases kind : relevant .source row.payload.kind = true
      · obtain ⟨event, payload, own⟩ := observed_of_relevant (conforming row (by simp)) here kind
        rw [if_pos kind, Std.ExtTreeMap.getElem?_insert_self, payload] at present
        refine ⟨row, by simp, event, payload, own, ?_⟩
        cases before : (cardsOf rows)[entity]? with
        | none =>
          rw [before] at present
          cases Option.some.inj present
          rfl
        | some old =>
          rw [before] at present
          have oldFamily := family_cardsOf before
          rw [family] at oldFamily
          cases old with
          | claim other => cases oldFamily
          | conflict other => cases oldFamily
          | source other =>
            cases Option.some.inj present
            rfl
      · rw [if_neg kind] at present
        exact earlier present
    · have other : ∀ value : CachedCard, ((cardsOf rows).insert row.entity value)[entity]? =
          (cardsOf rows)[entity]? := by
        intro value
        rw [Std.ExtTreeMap.getElem?_insert, if_neg]
        intro same
        exact here (Std.LawfulEqCmp.eq_of_compare same)
      cases found : CardFamily.of row.entity with
      | none =>
        rw [found] at present
        exact earlier present
      | some rowFamily =>
        rw [found] at present
        simp only at present
        split at present
        · rw [other] at present
          exact earlier present
        · exact earlier present

/-- An observed source has a card. -/
theorem source_card_of_observed {rows : List Entry} (conforming : ∀ row ∈ rows, Conforms row)
    {row : Entry} (member : row ∈ rows) {event : SourceObservedV2}
    (payload : row.payload = .sourceObserved event) :
    ∃ card, (cardsOf rows)[entityForSource event.sourceId]? = some (CachedCard.source card) := by
  have placed := (conforming row member).placed
  rw [payload] at placed
  have entity : row.entity = entityForSource event.sourceId :=
    (congrArg Coordinate.entity (placed _ rfl)).symm
  have written : writes (entityForSource event.sourceId) row = true := by
    simp [writes, folds, entity, payload, relevant, Payload.kind]
  have inStream : Payload.sourceObserved event ∈
      streamOf rows (entityForSource event.sourceId) :=
    mem_streamOf.mpr ⟨row, member, written, payload⟩
  have carded : ∃ card, (cardsOf rows)[entityForSource event.sourceId]? = some card := by
    rw [cardsOf_streamCard, streamCard, CardFamily.of_source]
    obtain ⟨early, last, split⟩ := (List.eq_nil_or_concat _).resolve_left
      (List.ne_nil_of_mem inStream)
    rw [split, List.concat_eq_append]
    simp only [List.foldl_append]
    exact ⟨_, rfl⟩
  obtain ⟨card, present⟩ := carded
  have family := family_cardsOf present
  rw [CardFamily.of_source] at family
  cases card with
  | claim other => cases family
  | conflict other => cases family
  | source other => exact ⟨other, present⟩

/-- A body that owns its source id is shown exactly when it was observed. -/
theorem shown_iff_observed {workspaceId : String} {rows : List Entry}
    (conforming : ∀ row ∈ rows, Conforms row) {sourceId bodyHashHex : String}
    (owned : Owned rows sourceId bodyHashHex) :
    bodyHashHex ∈ existingHashes (replayView workspaceId rows) ↔ Observed rows bodyHashHex := by
  rw [mem_existingHashes]
  constructor
  · intro ⟨entity, card, present, same⟩
    obtain ⟨row, member, event, payload, _, hash⟩ := observed_of_source_card conforming present
    exact ⟨row, member, event, payload, hash.trans same⟩
  · intro ⟨row, member, event, payload, same⟩
    obtain ⟨card, present⟩ := source_card_of_observed conforming member payload
    obtain ⟨old, oldMember, other, oldPayload, entity, hash⟩ :=
      observed_of_source_card conforming present
    have own : event.sourceId = sourceId := (owned row member event payload).mpr same
    have ids : other.sourceId = sourceId := (entityForSource_injective entity).symm.trans own
    refine ⟨_, card, present, ?_⟩
    rw [← hash]
    exact (owned old oldMember other oldPayload).mp ids

/-- What an append observes. -/
theorem observed_append {env next : OpEnv} {payload : Payload} {workspaceId : String}
    (appended : env.append payload = .ok next) {sourceId bodyHashHex : String}
    (apart : ∀ event, payload = .sourceObserved event →
      event.sourceId ≠ sourceId ∧ event.bodyHashHex ≠ bodyHashHex)
    (owned : Owned (workspaceRows env.journal workspaceId) sourceId bodyHashHex) :
    Owned (workspaceRows next.journal workspaceId) sourceId bodyHashHex ∧
      (Observed (workspaceRows next.journal workspaceId) bodyHashHex ↔
        Observed (workspaceRows env.journal workspaceId) bodyHashHex) := by
  rcases OpEnv.append_region appended (scopeForWorkspace workspaceId) with
    same | ⟨row, grown, carries, _, _⟩
  · unfold workspaceRows
    rw [same]
    exact ⟨owned, Iff.rfl⟩
  · unfold workspaceRows at owned ⊢
    rw [grown]
    constructor
    · intro other member event stored
      rcases List.mem_append.mp member with early | late
      · exact owned other early event stored
      · rw [List.mem_singleton.mp late, carries] at stored
        obtain ⟨sources, bodies⟩ := apart event stored
        exact iff_of_false sources bodies
    · constructor
      · intro ⟨other, member, event, stored, same⟩
        rcases List.mem_append.mp member with early | late
        · exact ⟨other, early, event, stored, same⟩
        · rw [List.mem_singleton.mp late, carries] at stored
          exact absurd same (apart event stored).2
      · intro ⟨other, member, event, stored, same⟩
        exact ⟨other, List.mem_append_left _ member, event, stored, same⟩

/-- The run law of observations: appends of other bodies under other source ids change nothing
for a body. -/
theorem observed_appendAll {env next : OpEnv} {payloads : List Payload} {workspaceId : String}
    (appended : env.appendAll payloads = .ok next) {sourceId bodyHashHex : String}
    (apart : ∀ payload ∈ payloads, ∀ event, payload = .sourceObserved event →
      event.sourceId ≠ sourceId ∧ event.bodyHashHex ≠ bodyHashHex)
    (owned : Owned (workspaceRows env.journal workspaceId) sourceId bodyHashHex) :
    Owned (workspaceRows next.journal workspaceId) sourceId bodyHashHex ∧
      (Observed (workspaceRows next.journal workspaceId) bodyHashHex ↔
        Observed (workspaceRows env.journal workspaceId) bodyHashHex) := by
  induction payloads generalizing env with
  | nil =>
    have same : env = next := Except.ok.inj appended
    rw [← same]
    exact ⟨owned, Iff.rfl⟩
  | cons payload rest ih =>
    rw [OpEnv.appendAll, List.foldlM_cons] at appended
    obtain ⟨middle, first, later⟩ := Foundation.bind_eq_ok.mp appended
    obtain ⟨stillOwned, observed⟩ := observed_append first (apart payload (by simp)) owned
    obtain ⟨lastOwned, more⟩ := ih later (fun other member => apart other (by simp [member]))
      stillOwned
    exact ⟨lastOwned, more.trans observed⟩

end

end Texo.Ingest
