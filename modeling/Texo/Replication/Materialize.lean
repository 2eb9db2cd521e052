import Texo.Foundation.Folds
import Texo.Replication.Page

/-! # Materialized batches

A replica takes in the events of one page together with a ledger event that names them, in one
batch of its store. The ledger is what it knows of its source: a source event is represented where
some ledger event of the circuit names it.
-/
namespace Texo.Replication
open Texo.Foundation

/-- `Committed`. -/
inductive Committed where
  | no
  | partially
  | yes
  | unknown
deriving DecidableEq, Repr

/-- `ReplicationFailureKind`. -/
inductive ReplicationFailureKind where
  | invalidTopology
  | destinationNotFresh
  | modeMismatch
  | anchorMismatch
  | verification
  | evidence
  | substrate
  | transport
  | busy
deriving DecidableEq, Repr

/-- `TexoError::Replication`. -/
structure ReplicationError where
  kind : ReplicationFailureKind
  committed : Committed
  detail : String
deriving DecidableEq, Repr

/-- `Circuit`: the journals a replica connects, under one root. -/
structure Circuit where
  root : String
  workspaceId : String
  sourceJournal : String
  replicaJournal : String
  replicaPath : String
  sourceEndpoint : Option String := none
deriving DecidableEq, Repr

/-- `cursor_path`. -/
def Circuit.cursorPath (circuit : Circuit) : String :=
  circuit.root ++ "/.texo/replication/" ++ circuit.workspaceId ++ "/" ++ circuit.replicaJournal ++
    "/cursor.msgpack"

/-- `source_namespace`. -/
def sourceNamespace (workspace source : String) : String :=
  "texo.replica.v1:" ++ workspace ++ ":" ++ source

/-- The namespace of the source of a circuit. -/
def Circuit.namespace (circuit : Circuit) : String :=
  sourceNamespace circuit.workspaceId circuit.sourceJournal

/-- `hex_lower`. -/
def hexLower (bytes : List UInt8) : String :=
  String.ofList (bytes.flatMap fun byte =>
    [Nat.digitChar (byte.toNat / 16), Nat.digitChar (byte.toNat % 16)])

/-- `ReplicaSourceEventV1`. -/
structure ReplicaSourceEvent where
  sourceEventIdHex : String
  sourceGlobalSequence : Nat
  sourceKind : UInt16
  sourceContentHashHex : String
deriving DecidableEq

/-- `ReplicaBatchMaterializedV1`. -/
structure ReplicaBatchMaterialized where
  workspaceId : String
  sourceJournal : String
  replicaJournal : String
  sourceNamespace : String
  events : List ReplicaSourceEvent
deriving DecidableEq

/-- The payload of a replica's row: the bytes of a copied event, or a batch of the ledger. -/
inductive ReplicaPayload where
  | raw (bytes : List UInt8)
  | batch (ledger : ReplicaBatchMaterialized)
deriving DecidableEq

/-- The batch a payload decodes to. -/
def ReplicaPayload.decode : ReplicaPayload → Option ReplicaBatchMaterialized
  | .raw _ => none
  | .batch ledger => some ledger

/-- `IdempotencyKey::for_operation`: a key is what it is derived from. -/
structure IdempotencyKey where
  operation : String
  parts : List String
deriving DecidableEq

/-- One row of a replica's store. A copied row carries the evidence of its source event. -/
structure ReplicaRow where
  entity : String
  scope : String
  kindRaw : UInt16
  payload : ReplicaPayload
  correlationId : BitVec 128 := 0
  source : Option SourceEventRef := none
  key : Option IdempotencyKey := none
deriving DecidableEq

/-- The key of one imported event. -/
def importKey (source eventIdHex : String) : IdempotencyKey where
  operation := "texo.replica.import.v1"
  parts := [source, eventIdHex]

/-- The item an import event is appended as. -/
def ImportEvent.item (source : String) (event : ImportEvent) : ReplicaRow where
  entity := event.entity
  scope := event.scope
  kindRaw := event.kind
  payload := .raw event.payload
  correlationId := event.correlationId
  source := some event.source
  key := some (importKey source event.source.eventIdHex)

/-- `replica_ledger_coordinate`, its entity. -/
def ledgerEntity (workspace replica : String) : String :=
  "replica-ledger:" ++ workspace ++ ":" ++ replica

/-- The entries of a ledger event. -/
def ledgerEntries (events : List ImportEvent) : List ReplicaSourceEvent :=
  events.map fun event =>
    ⟨event.source.eventIdHex, event.source.globalSequence, event.source.kindRaw,
      hexLower event.source.contentHash⟩

/-- The key of one batch. -/
def ledgerKey (circuit : Circuit) (first last : String) : IdempotencyKey where
  operation := "texo.replica.batch.v1"
  parts := [circuit.workspaceId, circuit.sourceJournal, circuit.replicaJournal, first, last]

/-- The sequence of an entry as its batch's key writes it. -/
def sequenceText (entry : Option ReplicaSourceEvent) : String :=
  entry.elim "0" fun entry => toString entry.sourceGlobalSequence

/-- `replica_ledger_item`. -/
def replicaLedgerItem (circuit : Circuit) (source : String) (events : List ImportEvent) :
    ReplicaRow :=
  let entries := ledgerEntries events
  { entity := ledgerEntity circuit.workspaceId circuit.replicaJournal
    scope := "replication:" ++ circuit.workspaceId
    kindRaw := replicaBatchKind
    payload := .batch
      { workspaceId := circuit.workspaceId
        sourceJournal := circuit.sourceJournal
        replicaJournal := circuit.replicaJournal
        sourceNamespace := source
        events := entries }
    key := some (ledgerKey circuit (sequenceText entries.head?) (sequenceText entries.getLast?)) }

/-- A row was appended under a key. -/
def Spent (destination : List ReplicaRow) (key : IdempotencyKey) : Prop :=
  ∃ row ∈ destination, row.key = some key

instance (destination : List ReplicaRow) (key : IdempotencyKey) : Decidable (Spent destination key) :=
  inferInstanceAs (Decidable (∃ row ∈ destination, _))

/-- `append_batch`: the store takes the whole batch or nothing of it. Of a batch under a key that
is spent it takes nothing here; no import makes one. -/
def appendBatch (destination items : List ReplicaRow) : Option (List ReplicaRow) :=
  if ∃ item ∈ items, ∃ key ∈ item.key, Spent destination key then none
  else some (destination ++ items)

/-- `append_with_ledger`. -/
def appendWithLedger (destination : List ReplicaRow) (source : String) (events : List ImportEvent)
    (ledger : ReplicaRow) : Option (List ReplicaRow × Nat) :=
  let items := events.map (ImportEvent.item source)
  (appendBatch destination (items ++ [ledger])).map fun grown => (grown, items.length)

/-- The loop of `represented_source_events`. -/
def representedStep (workspace replica source : String) (represented : List String)
    (row : ReplicaRow) : Except ReplicationError (List String) :=
  if row.entity ≠ ledgerEntity workspace replica ∨ row.kindRaw ≠ replicaBatchKind then
    .ok represented
  else
    match row.payload.decode with
    | none => .error ⟨.verification, .no, "replica ledger decode failed"⟩
    | some payload =>
      if payload.workspaceId ≠ workspace ∨ payload.replicaJournal ≠ replica ∨
          payload.sourceNamespace ≠ source then
        .error ⟨.verification, .no, "replica ledger binding does not match the configured circuit"⟩
      else
        .ok (represented ++ payload.events.map ReplicaSourceEvent.sourceEventIdHex)

/-- `represented_source_events`. -/
def representedSourceEvents (destination : List ReplicaRow) (workspace replica source : String) :
    Except ReplicationError (List String) :=
  destination.foldlM (representedStep workspace replica source) []

/-- What the ledger of a circuit represents. -/
def Circuit.represented (circuit : Circuit) (destination : List ReplicaRow) :
    Except ReplicationError (List String) :=
  representedSourceEvents destination circuit.workspaceId circuit.replicaJournal circuit.namespace

/-- The copied rows of a replica. -/
def importedRows (destination : List ReplicaRow) : List ReplicaRow :=
  destination.filter fun row => row.source.isSome

section Batches

variable {circuit : Circuit} {destination others : List ReplicaRow} {events : List ImportEvent}

/-- A batch under fresh keys is taken as a whole. -/
theorem appendWithLedger_fresh {source : String} {ledger : ReplicaRow} {key : IdempotencyKey}
    (keyed : ledger.key = some key)
    (imports : ∀ event ∈ events, ¬ Spent destination (importKey source event.source.eventIdHex))
    (batch : ¬ Spent destination key) :
    appendWithLedger destination source events ledger =
      some (destination ++ (events.map (ImportEvent.item source) ++ [ledger]), events.length) := by
  have fresh : ¬ ∃ item ∈ events.map (ImportEvent.item source) ++ [ledger], ∃ key ∈ item.key,
      Spent destination key := by
    rintro ⟨item, member, spent, present, used⟩
    rcases List.mem_append.mp member with copied | own
    · obtain ⟨event, listed, rfl⟩ := List.mem_map.mp copied
      cases present
      exact imports event listed used
    · rw [List.mem_singleton.mp own, keyed] at present
      cases present
      exact batch used
  unfold appendWithLedger appendBatch
  dsimp only
  rw [if_neg fresh]
  simp

/-- Rows outside of the ledger represent nothing. -/
theorem foldlM_representedStep_other {workspace replica source : String} {rows : List ReplicaRow}
    (outside : ∀ row ∈ rows, row.kindRaw ≠ replicaBatchKind) (represented : List String) :
    rows.foldlM (representedStep workspace replica source) represented = .ok represented := by
  induction rows with
  | nil => rfl
  | cons row rest ih =>
    have passed : representedStep workspace replica source represented row = .ok represented := by
      unfold representedStep
      rw [if_pos (Or.inr (outside row List.mem_cons_self))]
    rw [List.foldlM_cons, passed]
    exact ih fun other member => outside other (List.mem_cons_of_mem _ member)

/-- Rows outside of the ledger leave what is represented as it is. -/
theorem Circuit.represented_append {represented : List String}
    (outside : ∀ row ∈ others, row.kindRaw ≠ replicaBatchKind)
    (before : circuit.represented destination = .ok represented) :
    circuit.represented (destination ++ others) = .ok represented := by
  unfold Circuit.represented representedSourceEvents at before ⊢
  rw [List.foldlM_append, before]
  exact foldlM_representedStep_other outside represented

/-- A batch represents the events it takes in. -/
theorem Circuit.represented_batch {represented : List String}
    (outside : ∀ event ∈ events, event.kind ≠ replicaBatchKind)
    (before : circuit.represented destination = .ok represented) :
    circuit.represented (destination ++ (events.map (ImportEvent.item circuit.namespace) ++
        [replicaLedgerItem circuit circuit.namespace events])) =
      .ok (represented ++ events.map fun event => event.source.eventIdHex) := by
  have copies : ∀ row ∈ events.map (ImportEvent.item circuit.namespace),
      row.kindRaw ≠ replicaBatchKind := by
    intro row member
    obtain ⟨event, listed, rfl⟩ := List.mem_map.mp member
    exact outside event listed
  have ledger : representedStep circuit.workspaceId circuit.replicaJournal circuit.namespace
      represented (replicaLedgerItem circuit circuit.namespace events) =
      .ok (represented ++ events.map fun event => event.source.eventIdHex) := by
    unfold representedStep replicaLedgerItem
    simp [ReplicaPayload.decode, ledgerEntries, Function.comp_def]
  have copied := Circuit.represented_append copies before
  unfold Circuit.represented representedSourceEvents at copied ⊢
  rw [← List.append_assoc, List.foldlM_append, copied, ok_bind, List.foldlM_cons, ledger]
  rfl

/-- A batch copies the events it takes in. -/
theorem importedRows_batch (circuit : Circuit) (source : String) (destination : List ReplicaRow)
    (events : List ImportEvent) :
    importedRows (destination ++ (events.map (ImportEvent.item source) ++
        [replicaLedgerItem circuit source events])) =
      importedRows destination ++ events.map (ImportEvent.item source) := by
  unfold importedRows
  have copies : (events.map (ImportEvent.item source)).filter (fun row => row.source.isSome) =
      events.map (ImportEvent.item source) := by
    apply List.filter_eq_self.mpr
    intro row member
    obtain ⟨event, _, rfl⟩ := List.mem_map.mp member
    rfl
  rw [List.filter_append, List.filter_append, copies]
  simp [replicaLedgerItem]

/-- The keys that are spent after a batch. -/
theorem spent_batch {source : String} {key : IdempotencyKey}
    (used : Spent (destination ++ (events.map (ImportEvent.item source) ++
      [replicaLedgerItem circuit source events])) key) :
    Spent destination key ∨ (∃ event ∈ events, key = importKey source event.source.eventIdHex) ∨
      some key = (replicaLedgerItem circuit source events).key := by
  obtain ⟨row, member, keyed⟩ := used
  rcases List.mem_append.mp member with old | new
  · exact Or.inl ⟨row, old, keyed⟩
  · rcases List.mem_append.mp new with copied | ledger
    · obtain ⟨event, listed, rfl⟩ := List.mem_map.mp copied
      cases keyed
      exact Or.inr (Or.inl ⟨event, listed, rfl⟩)
    · rw [List.mem_singleton.mp ledger] at keyed
      exact Or.inr (Or.inr keyed.symm)

end Batches

end Texo.Replication
