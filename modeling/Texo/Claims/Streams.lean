import Texo.Claims.Replay

/-! # Cards by entity stream

A card is decided by the rows of its own entity that write it, in their order. The stream of a
claim grows by an append about the claim, unless the append repeats a row of the stream.
-/
namespace Texo.Claims
open Texo.Events Texo.Store Texo.Foundation

/-- Whether a row writes the card of an entity. -/
def writes (entity : String) (row : Entry) : Bool := row.entity = entity && folds row

/-- What the rows write to the card of an entity. -/
def streamOf (rows : List Entry) (entity : String) : List Payload :=
  (rows.filter (writes entity)).map Entry.payload

/-- One more payload of a family's stream. -/
def extendCard (family : CardFamily) (card : Option CachedCard) (payload : Payload) :
    Option CachedCard :=
  some ((card.getD (emptyCard family)).applyEvent family payload)

/-- The card a stream of an entity leads to. -/
def streamCard (entity : String) (stream : List Payload) : Option CachedCard :=
  match CardFamily.of entity with
  | none => none
  | some family => stream.foldl (extendCard family) none

/-- The last row ends its entity's stream. -/
theorem streamOf_snoc (rows : List Entry) (row : Entry) (entity : String) :
    streamOf (rows ++ [row]) entity =
      streamOf rows entity ++ if writes entity row then [row.payload] else [] := by
  unfold streamOf
  rw [List.filter_append, List.map_append]
  by_cases here : writes entity row = true
  · simp [here]
  · simp [here]

/-- The cards of a replay, entity by entity. -/
theorem cardsOf_streamCard (rows : List Entry) (entity : String) :
    (cardsOf rows)[entity]? = streamCard entity (streamOf rows entity) := by
  induction rows using List.reverseRecOn with
  | nil =>
    unfold streamCard
    cases CardFamily.of entity <;> rfl
  | append_singleton rows row ih =>
    rw [cardsOf_snoc, streamOf_snoc]
    unfold foldCard
    by_cases here : row.entity = entity
    · subst here
      cases family : CardFamily.of row.entity with
      | none => simpa [streamCard, family] using ih
      | some family' =>
        simp only [streamCard, family] at ih ⊢
        by_cases kind : relevant family' row.payload.kind = true
        · have written : writes row.entity row = true := by simp [writes, folds, family, kind]
          rw [if_pos kind, if_pos written, List.foldl_append, Std.ExtTreeMap.getElem?_insert_self,
            ← ih]
          rfl
        · have idle : writes row.entity row = false := by simp [writes, folds, family, kind]
          rw [if_neg kind, idle, ih]
          simp
    · have idle : writes entity row = false := by simp [writes, here]
      rw [idle]
      simp only [Bool.false_eq_true, if_false, List.append_nil]
      rw [← ih]
      cases CardFamily.of row.entity with
      | none => rfl
      | some family =>
        simp only
        split
        · rw [Std.ExtTreeMap.getElem?_insert, if_neg]
          intro same
          exact here (Std.LawfulEqCmp.eq_of_compare same)
        · rfl

/-- The stream of a claim decides its card. -/
theorem claimCardAt_stream {rows rows' : List Entry} {claimId : String}
    (same : streamOf rows (entityForClaim claimId) = streamOf rows' (entityForClaim claimId)) :
    claimCardAt rows claimId = claimCardAt rows' claimId := by
  apply claimCardAt_eq
  rw [cardsOf_streamCard, same, ← cardsOf_streamCard, cardsOf_entityForClaim]

/-- The entity whose lifecycle a claim or conflict payload is about. -/
def lifecycleEntity : Payload → Option String
  | .claimRecorded event => some (entityForClaim event.claimId)
  | .claimSuperseded event => some (entityForClaim event.oldClaimId)
  | .conflictOpened event => some (entityForConflict event.conflictId)
  | .conflictResolved event => some (entityForConflict event.conflictId)
  | _ => none

/-- The key a claim or conflict payload is committed under. -/
def lifecycleKey : Payload → Option EventId
  | .claimRecorded event =>
    some (.forOperation "texo.claim.recorded.v2" [event.workspaceId, event.claimId])
  | .claimSuperseded event =>
    some (.forOperation "texo.claim.supersede.v2"
      [event.workspaceId, event.oldClaimId, event.newClaimId])
  | .conflictOpened event =>
    some (.forOperation "texo.conflict.open.v2" [event.workspaceId, event.conflictId])
  | .conflictResolved event =>
    some (.forOperation "texo.conflict.resolve.v2" [event.workspaceId, event.conflictId])
  | _ => none

/-- Whether a stream holds a payload's key already. -/
def repeated (stream : List Payload) (payload : Payload) : Bool :=
  stream.any fun other => lifecycleKey other = lifecycleKey payload

/-- What an append does to the stream of an entity. -/
def extendStream (entity : String) (stream : List Payload) (payload : Payload) : List Payload :=
  if lifecycleEntity payload = some entity ∧ repeated stream payload = false then
    stream ++ [payload]
  else
    stream

/-- Kinds of claim and conflict payloads. -/
def hasLifecycleKind (kind : EventKind) : Bool :=
  relevant .claim kind || relevant .conflict kind

/-- A payload's kind tells whether it is about a claim or a conflict. -/
theorem lifecycleEntity_isSome (payload : Payload) :
    (lifecycleEntity payload).isSome = hasLifecycleKind payload.kind := by
  cases payload <;> rfl

/-- Claim and conflict payloads are keyed. -/
theorem keyed_of_lifecycle {payload : Payload} {entity : String}
    (about : lifecycleEntity payload = some entity) : domainOperation payload.kind ≠ none := by
  intro unkeyed
  cases payload with
  | relationDeferred event => cases about
  | foreign rawKind => cases about
  | _ => cases unkeyed

/-- An entity of a claim or of a conflict. -/
def HasLifecycle (entity : String) : Prop :=
  CardFamily.of entity = some .claim ∨ CardFamily.of entity = some .conflict

variable [Blake3]

/-- A payload lies in a workspace. -/
def InWorkspace (workspaceId : String) (payload : Payload) : Prop :=
  ∀ coordinate, coordinateOf payload = some coordinate →
    coordinate.scope = scopeForWorkspace workspaceId

/-- A lifecycle payload lies on its entity. -/
theorem coordinate_of_lifecycle {payload : Payload} {entity : String}
    (about : lifecycleEntity payload = some entity) :
    ∃ scope, coordinateOf payload = some ⟨entity, scope⟩ := by
  cases payload with
  | claimRecorded event => exact ⟨_, congrArg some (by cases about; rfl)⟩
  | claimSuperseded event => exact ⟨_, congrArg some (by cases about; rfl)⟩
  | conflictOpened event => exact ⟨_, congrArg some (by cases about; rfl)⟩
  | conflictResolved event => exact ⟨_, congrArg some (by cases about; rfl)⟩
  | _ => cases about

omit [Blake3] in
/-- A lifecycle payload is committed under its key. -/
theorem admissible_iff_key {payload : Payload} {entity : String}
    (about : lifecycleEntity payload = some entity) (id : EventId) :
    Admissible payload id ↔ lifecycleKey payload = some id := by
  cases payload with
  | claimRecorded event => exact ⟨fun same => congrArg some same.symm, fun same =>
      (Option.some.inj same).symm⟩
  | claimSuperseded event => exact ⟨fun same => congrArg some same.symm, fun same =>
      (Option.some.inj same).symm⟩
  | conflictOpened event => exact ⟨fun same => congrArg some same.symm, fun same =>
      (Option.some.inj same).symm⟩
  | conflictResolved event => exact ⟨fun same => congrArg some same.symm, fun same =>
      (Option.some.inj same).symm⟩
  | _ => cases about

/-- Lifecycle payloads of one kind under one key are about one entity of one scope. -/
theorem lifecycle_of_key {payload other : Payload} (kind : other.kind = payload.kind)
    (same : lifecycleKey other = lifecycleKey payload) :
    lifecycleEntity other = lifecycleEntity payload ∧
      (lifecycleEntity payload ≠ none → coordinateOf other = coordinateOf payload) := by
  cases payload with
  | claimRecorded event =>
    cases other with
    | claimRecorded old =>
      simp only [lifecycleKey, Option.some.injEq, EventId.forOperation.injEq, List.cons.injEq]
        at same
      obtain ⟨_, workspace, claim, _⟩ := same
      simp [lifecycleEntity, coordinateOf, workspace, claim]
    | _ => cases kind
  | claimSuperseded event =>
    cases other with
    | claimSuperseded old =>
      simp only [lifecycleKey, Option.some.injEq, EventId.forOperation.injEq, List.cons.injEq]
        at same
      obtain ⟨_, workspace, claim, _⟩ := same
      simp [lifecycleEntity, coordinateOf, workspace, claim]
    | _ => cases kind
  | conflictOpened event =>
    cases other with
    | conflictOpened old =>
      simp only [lifecycleKey, Option.some.injEq, EventId.forOperation.injEq, List.cons.injEq]
        at same
      obtain ⟨_, workspace, conflict, _⟩ := same
      simp [lifecycleEntity, coordinateOf, workspace, conflict]
    | _ => cases kind
  | conflictResolved event =>
    cases other with
    | conflictResolved old =>
      simp only [lifecycleKey, Option.some.injEq, EventId.forOperation.injEq, List.cons.injEq]
        at same
      obtain ⟨_, workspace, conflict, _⟩ := same
      simp [lifecycleEntity, coordinateOf, workspace, conflict]
    | _ => cases kind
  | _ => cases other <;> first | exact ⟨rfl, fun about => absurd rfl about⟩ | cases kind

/-- A conforming row writes the card of a claim or conflict exactly when its payload is about that
claim or conflict. -/
theorem writes_iff_lifecycle {row : Entry} (conforms : Conforms row) {entity : String}
    (family : HasLifecycle entity) :
    writes entity row = true ↔ lifecycleEntity row.payload = some entity := by
  have placed := conforms.placed
  have written : writes entity row = true ↔
      row.entity = entity ∧ folds row = true := by simp [writes]
  rw [written]
  cases stored : row.payload with
  | claimRecorded event =>
    rw [stored] at placed
    have own : entityForClaim event.claimId = row.entity :=
      congrArg Coordinate.entity (placed _ rfl)
    have folded : folds row = true := by simp [folds, ← own, stored, relevant, Payload.kind]
    simp [lifecycleEntity, own, folded]
  | claimSuperseded event =>
    rw [stored] at placed
    have own : entityForClaim event.oldClaimId = row.entity :=
      congrArg Coordinate.entity (placed _ rfl)
    have folded : folds row = true := by simp [folds, ← own, stored, relevant, Payload.kind]
    simp [lifecycleEntity, own, folded]
  | conflictOpened event =>
    rw [stored] at placed
    have own : entityForConflict event.conflictId = row.entity :=
      congrArg Coordinate.entity (placed _ rfl)
    have folded : folds row = true := by simp [folds, ← own, stored, relevant, Payload.kind]
    simp [lifecycleEntity, own, folded]
  | conflictResolved event =>
    rw [stored] at placed
    have own : entityForConflict event.conflictId = row.entity :=
      congrArg Coordinate.entity (placed _ rfl)
    have folded : folds row = true := by simp [folds, ← own, stored, relevant, Payload.kind]
    simp [lifecycleEntity, own, folded]
  | _ =>
    constructor
    · rintro ⟨here, folded⟩
      rcases family with family | family <;>
        simp [folds, here, family, stored, relevant, Payload.kind] at folded
    · intro about
      cases about

omit [Blake3] in
/-- A stream holds the payloads of the rows that write its card. -/
theorem mem_streamOf {rows : List Entry} {entity : String} {payload : Payload} :
    payload ∈ streamOf rows entity ↔
      ∃ row ∈ rows, writes entity row = true ∧ row.payload = payload := by
  unfold streamOf
  simp only [List.mem_map, List.mem_filter]
  exact exists_congr fun row => by rw [and_assoc]

/-- The step law of streams: an append extends the stream it is about, unless the stream holds
its key. -/
theorem streamOf_append {env next : OpEnv} {payload : Payload} {workspaceId entity : String}
    (appended : env.append payload = .ok next) (conforming : env.journal.Conforming)
    (here : InWorkspace workspaceId payload) (family : HasLifecycle entity) :
    streamOf (next.journal.region (scopeForWorkspace workspaceId)) entity =
      extendStream entity (streamOf (env.journal.region (scopeForWorkspace workspaceId)) entity)
        payload := by
  obtain ⟨_, ⟨entry, member, unchanged, why⟩ | ⟨row, grown, carries, conforms⟩⟩ :=
    OpEnv.append_cases appended
  · rw [unchanged, extendStream, if_neg]
    intro ⟨about, fresh⟩
    obtain ⟨scope, lies⟩ := coordinate_of_lifecycle about
    have own := (conforming entry member).admissible
    have placed := (conforming entry member).placed
    have stored : lifecycleEntity entry.payload = some entity ∧
        lifecycleKey entry.payload = lifecycleKey payload ∧
        coordinateOf entry.payload = coordinateOf payload := by
      rcases why with named | carries
      · have key := (admissible_iff_key about entry.eventId).mp named
        have kind := kind_of_admissible named (keyed_of_lifecycle about) own
        have ownAbout : (lifecycleEntity entry.payload).isSome = true := by
          rw [lifecycleEntity_isSome, kind, ← lifecycleEntity_isSome, about]
          rfl
        obtain ⟨ownEntity, ownSome⟩ := Option.isSome_iff_exists.mp ownAbout
        have ownKey := (admissible_iff_key ownSome entry.eventId).mp own
        have same := ownKey.trans key.symm
        obtain ⟨entity', coordinate⟩ := lifecycle_of_key kind same
        exact ⟨entity'.trans about, same, coordinate (by rw [about]; simp)⟩
      · rw [carries]
        exact ⟨about, rfl, rfl⟩
    obtain ⟨ownAbout, ownKey, ownCoordinate⟩ := stored
    rw [lies] at ownCoordinate
    have inScope : scope = entry.scope := congrArg Coordinate.scope (placed _ ownCoordinate)
    have inWorkspace : scope = scopeForWorkspace workspaceId := here _ lies
    have inRegion : entry ∈ env.journal.region (scopeForWorkspace workspaceId) :=
      Journal.mem_region.mpr ⟨member, by rw [← inScope, inWorkspace]⟩
    have held : entry.payload ∈
        streamOf (env.journal.region (scopeForWorkspace workspaceId)) entity :=
      mem_streamOf.mpr ⟨entry, inRegion,
        (writes_iff_lifecycle (conforming entry member) family).mpr ownAbout, rfl⟩
    have again : repeated (streamOf (env.journal.region (scopeForWorkspace workspaceId)) entity)
        payload = true := List.any_eq_true.mpr ⟨_, held, by simpa using ownKey⟩
    rw [again] at fresh
    cases fresh
  · have regions : next.journal.region (scopeForWorkspace workspaceId) =
        env.journal.region (scopeForWorkspace workspaceId) ++
          if row.scope = scopeForWorkspace workspaceId then [row] else [] := by
      by_cases inScope : row.scope = scopeForWorkspace workspaceId
      · simp [Journal.region, grown, inScope]
      · simp [Journal.region, grown, inScope]
    by_cases about : lifecycleEntity payload = some entity
    · obtain ⟨scope, lies⟩ := coordinate_of_lifecycle about
      have inWorkspace : row.scope = scopeForWorkspace workspaceId := by
        have inScope : scope = row.scope :=
          congrArg Coordinate.scope (conforms.placed _ (by rw [carries]; exact lies))
        rw [← inScope]
        exact here _ lies
      have written : writes entity row = true :=
        (writes_iff_lifecycle conforms family).mpr (by rw [carries]; exact about)
      have fresh : repeated (streamOf (env.journal.region (scopeForWorkspace workspaceId)) entity)
          payload = false := by
        apply Bool.eq_false_iff.mpr
        intro again
        obtain ⟨other, held, same⟩ := List.any_eq_true.mp again
        obtain ⟨old, inRegion, oldWrites, stored⟩ := mem_streamOf.mp held
        have inside := (Journal.mem_region.mp inRegion).1
        have oldConforms := conforming old inside
        have oldAbout := (writes_iff_lifecycle oldConforms family).mp oldWrites
        have oldKey := (admissible_iff_key oldAbout old.eventId).mp oldConforms.admissible
        have rowAbout := about
        rw [← carries] at rowAbout
        have rowKey := (admissible_iff_key rowAbout row.eventId).mp conforms.admissible
        have equal : old.eventId = row.eventId := by
          rw [stored, of_decide_eq_true same, ← carries, rowKey] at oldKey
          exact (Option.some.inj oldKey).symm
        have nodup := next.journal.distinct
        rw [grown, List.map_append, List.map_singleton] at nodup
        exact (List.nodup_append.mp nodup).2.2 _ (List.mem_map_of_mem inside) _ (by simp) equal
      rw [regions, if_pos inWorkspace, streamOf_snoc, if_pos written, extendStream,
        if_pos ⟨about, fresh⟩, carries]
    · have idle : writes entity row = false := by
        apply Bool.eq_false_iff.mpr
        intro written
        have rowAbout := (writes_iff_lifecycle conforms family).mp written
        rw [carries] at rowAbout
        exact about rowAbout
      have unchanged : extendStream entity
          (streamOf (env.journal.region (scopeForWorkspace workspaceId)) entity) payload =
          streamOf (env.journal.region (scopeForWorkspace workspaceId)) entity :=
        if_neg fun both => about both.1
      rw [regions, unchanged]
      split
      · rw [streamOf_snoc, idle]
        simp
      · simp

/-- The run law of streams. -/
theorem streamOf_appendAll {env next : OpEnv} {payloads : List Payload}
    {workspaceId entity : String} (appended : env.appendAll payloads = .ok next)
    (conforming : env.journal.Conforming)
    (here : ∀ payload ∈ payloads, InWorkspace workspaceId payload) (family : HasLifecycle entity) :
    streamOf (next.journal.region (scopeForWorkspace workspaceId)) entity =
      payloads.foldl (extendStream entity)
        (streamOf (env.journal.region (scopeForWorkspace workspaceId)) entity) := by
  induction payloads generalizing env with
  | nil =>
    have same : env = next := Except.ok.inj appended
    rw [same]
    rfl
  | cons payload rest ih =>
    rw [OpEnv.appendAll, List.foldlM_cons] at appended
    obtain ⟨middle, first, later⟩ := bind_eq_ok.mp appended
    rw [List.foldl_cons, ← streamOf_append first conforming (here payload (by simp)) family]
    exact ih later (OpEnv.append_conforming first conforming).2 fun other member =>
      here other (by simp [member])

end Texo.Claims
