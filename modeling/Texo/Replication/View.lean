import Texo.Claims.CacheRuns
import Texo.Claims.History
import Texo.Ops.Verify
import Texo.Replication.Remote

/-! # The view over a replica

A replica leaves out rows of its source, adds a ledger and numbers its rows anew. What it leaves out
and what it adds is of no kind that writes a card, and the rest keeps its order, so the workspace
view over the replica is the view over the source up to where it was imported.
-/
namespace Texo.Replication
open Texo.Events Texo.Store Texo.Claims Texo.Foundation Texo.Ops

/-- What the raw events of a store are read as. A payload is read under the kind of its event, and
no kind of the domain is reserved. -/
class EventReading [StoreKinds] where
  decode : UInt16 → List UInt8 → Payload
  kind_decode : ∀ raw bytes, rawKind (decode raw bytes).kind = raw.toNat
  domain_free : ∀ raw, StoreKinds.reserved raw = true → raw.toNat ∉ domainKinds

/-- What a view reads of a row: its scope, its entity and its payload. -/
structure ReadRow where
  scope : String
  entity : String
  payload : Payload

/-- What is read of an entry of a journal. -/
def readEntry (entry : Entry) : ReadRow := ⟨entry.scope, entry.entity, entry.payload⟩

/-- A read row as an entry without a place of its own. -/
def ReadRow.entry (row : ReadRow) : Entry := ⟨0, .unkeyed 0, row.scope, row.entity, row.payload⟩

/-- A row of a scope that writes a card. -/
def ReadRow.written (scope : String) (row : ReadRow) : Bool :=
  folds row.entry && decide (row.scope = scope)

/-- Cards are of what is read of the rows that write them. -/
theorem cardsOf_region (journal : Journal) (scope : String) :
    cardsOf (journal.region scope) = ((journal.entries.map readEntry).filter
      (ReadRow.written scope)).foldl (fun cards row => foldCard cards row.entry) ∅ := by
  have folded : ∀ (rows : List Entry) (cards : BareCards), rows.foldl foldCard cards =
      ((rows.map readEntry).filter fun row => folds row.entry).foldl
        (fun cards row => foldCard cards row.entry) cards := by
    intro rows
    induction rows with
    | nil =>
      intro cards
      rfl
    | cons row rest ih =>
      intro cards
      have same : foldCard cards row = foldCard cards (readEntry row).entry := rfl
      have alike : folds row = folds (readEntry row).entry := rfl
      rw [List.foldl_cons, List.map_cons, ih]
      cases idle : folds row with
      | false =>
        rw [List.filter_cons_of_neg (by rw [← alike, idle]; simp), foldCard_of_not_folds idle]
      | true =>
        rw [List.filter_cons_of_pos (by rw [← alike, idle]), List.foldl_cons, same]
  unfold cardsOf
  rw [folded]
  unfold Journal.region
  rw [List.filter_map, List.filter_map, List.filter_filter]
  rfl

/-- Rows that are never kept do not matter to what is kept. -/
theorem filter_map_of_idle {Row : Type} {rows : List Row} {read : Row → ReadRow} {scope : String}
    {part : Row → Bool} (idle : ∀ row ∈ rows, part row = false →
      (read row).written scope = false) :
    (rows.map read).filter (ReadRow.written scope) =
      ((rows.filter part).map read).filter (ReadRow.written scope) := by
  rw [List.filter_map, List.filter_map, List.filter_filter]
  congr 1
  apply List.filter_congr
  intro row member
  show (read row).written scope = ((read row).written scope && part row)
  cases kept : part row with
  | true => simp
  | false => simp [idle row member kept]

section Reading

variable [StoreKinds] [EventReading]

/-- What is read of a source row. -/
def SourceRow.read (row : SourceRow) : ReadRow :=
  ⟨row.scope, row.entity, EventReading.decode row.kindRaw row.payload⟩

/-- What is read of a replica's row. -/
def ReplicaRow.read (row : ReplicaRow) : ReadRow :=
  ⟨row.scope, row.entity, match row.payload with
    | .raw bytes => EventReading.decode row.kindRaw bytes
    | .batch _ => .foreign row.kindRaw.toNat⟩

omit [StoreKinds] [EventReading] in
/-- Only domain kinds write cards. -/
theorem rawKind_of_folds {entry : Entry} (writes : folds entry = true) :
    rawKind entry.payload.kind ∈ domainKinds := by
  unfold folds at writes
  cases family : CardFamily.of entry.entity with
  | none =>
    rw [family] at writes
    cases writes
  | some of =>
    rw [family] at writes
    cases of with
    | claim =>
      simp only [relevant, Bool.or_eq_true, decide_eq_true_eq] at writes
      rcases writes with same | same
      · rw [same]
        decide
      · rw [same]
        decide
    | conflict =>
      simp only [relevant, Bool.or_eq_true, decide_eq_true_eq] at writes
      rcases writes with same | same
      · rw [same]
        decide
      · rw [same]
        decide
    | source =>
      simp only [relevant, decide_eq_true_eq] at writes
      rw [writes]
      decide

/-- A row of a reserved kind or of the ledger writes no card. -/
theorem not_written {scope : String} {row : ReadRow} {raw : UInt16}
    (kind : rawKind row.payload.kind = raw.toNat)
    (dropped : StoreKinds.reserved raw = true ∨ raw = replicaBatchKind) :
    row.written scope = false := by
  have outside : raw.toNat ∉ domainKinds := by
    rcases dropped with reserved | ledger
    · exact EventReading.domain_free raw reserved
    · rw [ledger]
      decide
  cases writes : folds row.entry with
  | false =>
    unfold ReadRow.written
    rw [writes, Bool.false_and]
  | true =>
    have inside := rawKind_of_folds writes
    rw [show row.entry.payload = row.payload from rfl, kind] at inside
    exact absurd inside outside

/-- A journal is the source up to a bound where it is read as the rows below it. -/
def ReadsSource (journal : Journal) (source : SourceLog) (bound : Nat) : Prop :=
  journal.entries.map readEntry =
    (source.rows.filter fun row => decide (row.sequence < bound)).map SourceRow.read

/-- A journal is a replica where it is read as its rows. -/
def ReadsReplica (journal : Journal) (destination : List ReplicaRow) : Prop :=
  journal.entries.map readEntry = destination.map ReplicaRow.read

/-- The cards over a replica are those over its source up to the bound. -/
theorem LeadingRows.cards {circuit : Circuit} {bound : Nat} {durable : Durable}
    (holds : LeadingRows circuit bound durable) {origin copy : Journal} (scope : String)
    (original : ReadsSource origin durable.source bound)
    (copied : ReadsReplica copy durable.destination) :
    cardsOf (copy.region scope) = cardsOf (origin.region scope) := by
  have source : ((durable.source.rows.filter fun row => decide (row.sequence < bound)).map
      SourceRow.read).filter (ReadRow.written scope) =
      ((durable.source.importable bound).map SourceRow.read).filter (ReadRow.written scope) := by
    have part : durable.source.importable bound = (durable.source.rows.filter fun row =>
        decide (row.sequence < bound)).filter fun row => decide (Importable row) := by
      unfold SourceLog.importable
      rw [List.filter_filter]
      apply List.filter_congr
      intro row _
      exact Bool.decide_and _ _
    rw [part]
    apply filter_map_of_idle
    intro row _ dropped
    apply not_written (EventReading.kind_decode row.kindRaw row.payload)
    have kept := of_decide_eq_false dropped
    unfold Importable at kept
    by_cases reserved : StoreKinds.reserved row.kindRaw = true
    · exact Or.inl reserved
    · right
      by_contra other
      exact kept ⟨by simpa using reserved, other⟩
  have replica : (durable.destination.map ReplicaRow.read).filter (ReadRow.written scope) =
      ((importedRows durable.destination).map ReplicaRow.read).filter
        (ReadRow.written scope) := by
    apply filter_map_of_idle
    intro row member plain
    have kind : rawKind row.read.payload.kind = row.kindRaw.toNat := by
      unfold ReplicaRow.read
      cases row.payload with
      | raw bytes => exact EventReading.kind_decode row.kindRaw bytes
      | batch ledger => rfl
    exact not_written kind (holds.others row member (by simpa using plain))
  have same : (importedRows durable.destination).map ReplicaRow.read =
      (durable.source.importable bound).map SourceRow.read := by
    rw [holds.copied, List.map_map]
    rfl
  rw [cardsOf_region, cardsOf_region, original, copied, source, replica, same]

/-- What is durable of a replica that was only ever followed: from a source on the same host, or
from a server that serves it as it is. -/
def Followed [PageAuth] (circuit : Circuit) (durable : Durable) : Prop :=
  (circuit.sourceEndpoint = none ∧ ∃ (limits : PageLimits) (source : SourceLog)
      (actions : List LocalAction), 0 < limits.rows ∧
      durable = ((LocalState.fresh source).runAll circuit limits actions).durable) ∨
    ∃ (token : String) (limits : PageLimits) (source : SourceLog) (actions : List RemoteAction),
      0 < limits.rows ∧ durable = ((RemoteState.fresh source).runAll circuit token
        (serving (circuit.server token) limits) actions).durable

end Reading

/-- Read rows as the entries of a store that numbers them on. -/
def numberRows : Nat → List ReadRow → List Entry
  | _, [] => []
  | next, row :: rest =>
    ⟨next, .unkeyed next, row.scope, row.entity, row.payload⟩ :: numberRows (next + 1) rest

/-- They come in their order from the first number on. -/
theorem numberRows_spec (next : Nat) (rows : List ReadRow) :
    (numberRows next rows).map readEntry = rows ∧
      Ordered Entry.sequence (numberRows next rows) ∧
      ∀ entry ∈ numberRows next rows,
        next ≤ entry.sequence ∧ entry.eventId = .unkeyed entry.sequence := by
  induction rows generalizing next with
  | nil => exact ⟨rfl, List.Pairwise.nil, by simp [numberRows]⟩
  | cons row rest ih =>
    obtain ⟨read, ordered, above⟩ := ih (next + 1)
    refine ⟨?_, ?_, ?_⟩
    · show _ :: (numberRows (next + 1) rest).map readEntry = _
      rw [read]
      rfl
    · exact List.Pairwise.cons (fun entry member => (above entry member).1) ordered
    · intro entry member
      rcases List.mem_cons.mp member with same | later
      · rw [same]
        exact ⟨Nat.le_refl _, rfl⟩
      · exact ⟨Nat.le_of_succ_le (above entry later).1, (above entry later).2⟩

/-- Any rows are what is read of some journal. -/
theorem exists_journal (rows : List ReadRow) :
    ∃ journal : Journal, journal.entries.map readEntry = rows := by
  obtain ⟨read, ordered, above⟩ := numberRows_spec 1 rows
  refine ⟨⟨numberRows 1 rows, ordered, fun entry member => (above entry member).1, ?_⟩, read⟩
  rw [List.Nodup, List.pairwise_map]
  refine ordered.imp_of_mem ?_
  intro first second early late before same
  rw [(above first early).2, (above second late).2] at same
  exact Nat.ne_of_lt before (EventId.unkeyed.inj same)

section Shown

local instance : StoreKinds := plainKinds
local instance : PageAuth := plainTags

/-- A claim of the small source. -/
def smallClaim : ClaimRecordedV2 where
  claimId := "clm_1"
  workspaceId := "demo"
  sourceId := "src_1"
  sourcePath := "notes.md"
  lineStart := 1
  lineEnd := 1
  charStart := 0
  charEnd := 9
  text := "The sky."
  normalizedText := "the sky"
  subjectHint := none
  predicateHint := none
  objectHint := none
  confidencePpm := 900000
  extractorKind := "patterns"
  extractorModel := ""
  promptVersion := ""
  observedAtMs := 0

/-- Every claim is the small one, and other events are not read. -/
local instance plainReading : EventReading where
  decode raw _ := if raw = 0xE002 then .claimRecorded smallClaim else .foreign raw.toNat
  kind_decode := by
    intro raw bytes
    by_cases claim : raw = 0xE002
    · rw [if_pos claim, claim]
      rfl
    · rw [if_neg claim]
      rfl
  domain_free := by
    intro raw reserved member
    have category : ∀ kind ∈ domainKinds, kind / 4096 = 14 := by decide
    have high : (raw >>> 12).toNat = raw.toNat / 4096 := by
      simp [UInt16.toNat_shiftRight, Nat.shiftRight_eq_div_pow]
    rw [category raw.toNat member] at high
    have same : raw >>> 12 = 0xE := UInt16.toNat_inj.mp high
    have told : (raw >>> 12 = 0 || raw >>> 12 = 0xD) = true := reserved
    rw [same] at told
    exact absurd told (by decide)

end Shown

end Texo.Replication
