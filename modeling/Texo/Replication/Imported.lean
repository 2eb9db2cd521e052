import Texo.Git.Identity
import Texo.Replication.Materialize

/-! # What a replica holds

The pages of a replica and its cursor are saved apart from one another, so a run that stops in
between leaves them different. Whatever it leaves, the copied rows are the importable rows of the
source below some sequence, the ledger names exactly them, and the saved cursor is not past it.
-/
namespace Texo.Replication
open Texo.Foundation

/-- `STATE_SCHEMA_VERSION`. -/
def stateSchemaVersion : Nat := 2

/-- `ReplicaCursor`, what following reads of it. -/
structure ReplicaCursor where
  schemaVersion : Nat
  workspaceId : String
  sourceJournal : String
  replicaJournal : String
  sourceNamespace : String
  sourceEndpoint : Option String
  sourceHighWatermark : Option Nat
  sourceAnchorEventIdHex : Option String
deriving DecidableEq, Repr

/-- `validate_cursor_binding`. -/
def validateCursorBinding (cursor : ReplicaCursor) (circuit : Circuit) :
    Except ReplicationError Unit :=
  require
    (cursor.schemaVersion = stateSchemaVersion ∧ cursor.workspaceId = circuit.workspaceId ∧
      cursor.sourceJournal = circuit.sourceJournal ∧
      cursor.replicaJournal = circuit.replicaJournal ∧
      cursor.sourceNamespace = circuit.namespace ∧
      cursor.sourceEndpoint = circuit.sourceEndpoint)
    ⟨.evidence, .no, "replica cursor does not match the configured circuit"⟩

variable [StoreKinds]

/-- `validate_source_anchor`. -/
def validateSourceAnchor (source : SourceLog) (cursor : ReplicaCursor) :
    Except ReplicationError Unit :=
  match cursor.sourceHighWatermark with
  | none => .ok ()
  | some sequence =>
    require (source.eventIdAt sequence = cursor.sourceAnchorEventIdHex)
      ⟨.anchorMismatch, .no, "source anchor changed at global sequence " ++ toString sequence⟩

/-- What is durable of a replica and its source. -/
structure Durable where
  source : SourceLog
  destination : List ReplicaRow := []
  cursor : Option ReplicaCursor := none

instance (rows : List SourceRow) : Decidable (Ordered SourceRow.sequence rows) :=
  inferInstanceAs (Decidable (rows.Pairwise _))

/-- The source after an append of its own, where the rows are ones a store can have. -/
def SourceLog.extend (source : SourceLog) (rows : List SourceRow) : Option SourceLog :=
  if lawful : Ordered SourceRow.sequence (source.rows ++ rows) ∧
      ((source.rows ++ rows).map SourceRow.eventId).Nodup ∧
      (∀ row ∈ source.rows ++ rows, StoreKinds.coordinate row.entity row.scope = true) ∧
      ∀ row ∈ source.rows ++ rows, row.contentHash = StoreKinds.computeHash row.payload then
    some ⟨source.rows ++ rows, lawful.1, lawful.2.1, lawful.2.2.1, lawful.2.2.2⟩
  else
    none

/-- A source that has grown: the rows it had come first. -/
def SourceLog.Extends (source later : SourceLog) : Prop := ∃ rows, later.rows = source.rows ++ rows

/-- A cursor at a row of a source, or at none. -/
def SourceLog.Marks (source : SourceLog) (after : Option Nat) : Prop :=
  ∀ sequence ∈ after, ∃ row ∈ source.rows, row.sequence = sequence

/-- A bound behind a row of a source, or before all of them. -/
def SourceLog.Bounds (source : SourceLog) (bound : Nat) : Prop :=
  bound = 0 ∨ ∃ row ∈ source.rows, bound = row.sequence + 1

/-- The importable rows below a bound. -/
def SourceLog.importable (source : SourceLog) (bound : Nat) : List SourceRow :=
  source.rows.filter fun row => decide (Importable row ∧ row.sequence < bound)

section Growth

variable {source later : SourceLog} {bound : Nat}

/-- An append of its own is growth. -/
theorem SourceLog.extends_of_extend {rows : List SourceRow} (extended : source.extend rows = some later) :
    source.Extends later := by
  unfold SourceLog.extend at extended
  split at extended
  · cases extended
    exact ⟨rows, rfl⟩
  · cases extended

/-- Rows stay. -/
theorem SourceLog.Extends.mem (grows : source.Extends later) {row : SourceRow}
    (member : row ∈ source.rows) : row ∈ later.rows := by
  obtain ⟨rows, whole⟩ := grows
  rw [whole]
  exact List.mem_append_left _ member

/-- A cursor's row stays. -/
theorem SourceLog.Extends.marks (grows : source.Extends later) {after : Option Nat}
    (marked : source.Marks after) : later.Marks after := by
  intro sequence present
  obtain ⟨row, member, same⟩ := marked sequence present
  exact ⟨row, grows.mem member, same⟩

/-- What a source has shown stays shown. -/
theorem SourceLog.Extends.shows (grows : source.Extends later) {sequence : Nat}
    (shown : source.Shows sequence) : later.Shows sequence := by
  rcases shown with zero | ⟨row, member, same⟩
  · exact Or.inl zero
  · exact Or.inr ⟨row, grows.mem member, same⟩

/-- A bound's row stays. -/
theorem SourceLog.Extends.bounds (grows : source.Extends later) (bounds : source.Bounds bound) :
    later.Bounds bound := by
  rcases bounds with zero | ⟨row, member, same⟩
  · exact Or.inl zero
  · exact Or.inr ⟨row, grows.mem member, same⟩

/-- A source only grows past what it has shown. -/
theorem SourceLog.Extends.filter_eq (grows : source.Extends later) (bounds : source.Bounds bound)
    {keep : SourceRow → Bool} (below : ∀ row, keep row = true → row.sequence < bound) :
    later.rows.filter keep = source.rows.filter keep := by
  obtain ⟨rows, whole⟩ := grows
  have ordered := later.ordered
  rw [whole] at ordered ⊢
  have nothing : rows.filter keep = [] := by
    apply List.filter_eq_nil_iff.mpr
    intro row member kept
    have under := below row kept
    rcases bounds with zero | ⟨last, listed, same⟩
    · omega
    · have before := ordered.of_append.2.2 last listed row member
      omega
  rw [List.filter_append, nothing, List.append_nil]

/-- What is importable below a bound of the source stays. -/
theorem SourceLog.Extends.importable (grows : source.Extends later) (bounds : source.Bounds bound) :
    later.importable bound = source.importable bound := by
  apply grows.filter_eq bounds
  intro row kept
  exact (of_decide_eq_true kept).2

/-- The id at a row of the source stays. -/
theorem SourceLog.Extends.eventIdAt (grows : source.Extends later) {sequence : Nat}
    (marked : ∃ row ∈ source.rows, row.sequence = sequence) :
    later.eventIdAt sequence = source.eventIdAt sequence := by
  obtain ⟨row, member, same⟩ := marked
  rw [SourceLog.eventIdAt_eq_some.mpr ⟨row, member, same, rfl⟩]
  exact SourceLog.eventIdAt_eq_some.mpr ⟨row, grows.mem member, same, rfl⟩

/-- The anchor of a cursor stays. -/
theorem SourceLog.Extends.anchor (grows : source.Extends later) {after : Option Nat}
    (marked : source.Marks after) : after.bind later.eventIdAt = after.bind source.eventIdAt := by
  cases after with
  | none => rfl
  | some sequence => exact grows.eventIdAt (marked sequence rfl)

end Growth

/-- Behind the row of a cursor, or before all rows. -/
theorem SourceLog.Marks.bounds {source : SourceLog} {after : Option Nat}
    (marked : source.Marks after) : source.Bounds (reached after) := by
  cases after with
  | none => exact Or.inl rfl
  | some sequence =>
    obtain ⟨row, member, same⟩ := marked sequence rfl
    exact Or.inr ⟨row, member, by rw [same]; rfl⟩

/-- A row that is importable below a bound. -/
theorem SourceLog.mem_importable {source : SourceLog} {bound : Nat} {row : SourceRow} :
    row ∈ source.importable bound ↔ row ∈ source.rows ∧ Importable row ∧ row.sequence < bound := by
  unfold SourceLog.importable
  rw [List.mem_filter, decide_eq_true_eq]

/-- Rows of a source under one id are the same. -/
theorem SourceLog.eq_of_eventIdHex {source : SourceLog} {row other : SourceRow}
    (member : row ∈ source.rows) (listed : other ∈ source.rows)
    (same : row.eventIdHex = other.eventIdHex) : row = other :=
  List.inj_on_of_nodup_map source.distinct member listed (lowerHex32_injective same)

/-- A source's rows are not past its frontier. -/
theorem SourceLog.le_frontier {source : SourceLog} {row : SourceRow}
    (member : row ∈ source.rows) : row.sequence ≤ source.frontier := by
  unfold SourceLog.frontier
  cases last : source.rows.getLast? with
  | none =>
    rw [List.getLast?_eq_none_iff.mp last] at member
    cases member
  | some final => exact source.ordered.le_getLast last member

/-- What a source has shown is not past its frontier. -/
theorem SourceLog.Shows.le_frontier {source : SourceLog} {sequence : Nat}
    (shown : source.Shows sequence) : sequence ≤ source.frontier := by
  rcases shown with zero | ⟨row, member, same⟩
  · rw [zero]
    exact Nat.zero_le _
  · rw [← same]
    exact SourceLog.le_frontier member

/-- Behind the frontier a replica holds all importable rows. -/
theorem SourceLog.importable_all {source : SourceLog} {bound : Nat}
    (behind : ∀ row ∈ source.rows, row.sequence < bound) :
    source.importable bound = source.rows.filter fun row => decide (Importable row) := by
  unfold SourceLog.importable
  apply List.filter_congr
  intro row member
  have below := behind row member
  simp [below]

/-- A cursor at a row is not past the frontier. -/
theorem SourceLog.Marks.le_frontier {source : SourceLog} {after : Option Nat}
    (marked : source.Marks after) : ∀ sequence ∈ after, sequence ≤ source.frontier := by
  intro sequence present
  obtain ⟨row, member, same⟩ := marked sequence present
  rw [← same]
  exact SourceLog.le_frontier member

/-- Fewer rows are importable below a lower bound. -/
theorem SourceLog.importable_prefix (source : SourceLog) {bound later : Nat} (forward : bound ≤ later) :
    source.importable bound <+: source.importable later :=
  ⟨_, (source.ordered.filter_below Importable forward).symm⟩

/-- What a run that stands at a cursor knows: of the importable rows past it, those below the bound
are represented. -/
structure KnownPast (source : SourceLog) (bound : Nat) (after : Option Nat)
    (represented : List String) : Prop where
  marked : source.Marks after
  behind : reached after ≤ bound
  named : ∀ eventIdHex ∈ represented, ∃ row ∈ source.rows, row.eventIdHex = eventIdHex
  known : ∀ row ∈ source.rows, reached after ≤ row.sequence → Importable row →
    (row.eventIdHex ∈ represented ↔ row.sequence < bound)

/-- A saved cursor: of the circuit, at a row that is not past the bound, with its anchor. -/
structure CursorWithin (circuit : Circuit) (source : SourceLog) (bound : Nat)
    (cursor : ReplicaCursor) : Prop where
  bound_circuit : validateCursorBinding cursor circuit = .ok ()
  marked : source.Marks cursor.sourceHighWatermark
  behind : reached cursor.sourceHighWatermark ≤ bound
  anchored : cursor.sourceAnchorEventIdHex = cursor.sourceHighWatermark.bind source.eventIdAt

/-- A key that taking in the importable rows below a bound may have spent. -/
def SpentBelow (circuit : Circuit) (source : SourceLog) (bound : Nat) (key : IdempotencyKey) : Prop :=
  (∃ row ∈ source.importable bound, key = importKey circuit.namespace row.eventIdHex) ∨
    ∃ first last, first < bound ∧ key = ledgerKey circuit (toString first) last

/-- A replica holds the importable rows of its source below a bound, each once and in their order,
its ledger names exactly them, its other rows are the store's own and the ledger, and the saved
cursor is not past the bound. -/
structure ImportedBelow (circuit : Circuit) (bound : Nat) (durable : Durable) : Prop where
  bounds : durable.source.Bounds bound
  copied : importedRows durable.destination =
    (durable.source.importable bound).map fun row => row.importEvent.item circuit.namespace
  ledger : circuit.represented durable.destination =
    .ok ((durable.source.importable bound).map SourceRow.eventIdHex)
  spent : ∀ key, Spent durable.destination key → SpentBelow circuit durable.source bound key
  others : ∀ row ∈ durable.destination, row.source = none →
    StoreKinds.reserved row.kindRaw = true ∨ row.kindRaw = replicaBatchKind
  saved : ∀ cursor ∈ durable.cursor, CursorWithin circuit durable.source bound cursor

section Invariant

variable {circuit : Circuit} {source later : SourceLog} {bound next : Nat} {durable : Durable}
  {after : Option Nat} {represented : List String}

/-- A fresh replica holds nothing. -/
theorem ImportedBelow.fresh (circuit : Circuit) (source : SourceLog) :
    ImportedBelow circuit 0 { source := source } := by
  have nothing : source.importable 0 = [] := by
    apply List.filter_eq_nil_iff.mpr
    intro row _
    simp
  refine ⟨Or.inl rfl, ?_, ?_, ?_, ?_, ?_⟩
  · rw [nothing]
    rfl
  · rw [nothing]
    rfl
  · rintro key ⟨row, member, _⟩
    cases member
  · intro row member
    cases member
  · intro cursor found
    cases found

/-- What a run knows stays true while the source grows. -/
theorem KnownPast.grows (known : KnownPast source bound after represented)
    (bounds : source.Bounds bound) (grows : source.Extends later) :
    KnownPast later bound after represented := by
  refine ⟨grows.marks known.marked, known.behind, ?_, ?_⟩
  · intro eventIdHex member
    obtain ⟨row, listed, named⟩ := known.named eventIdHex member
    exact ⟨row, grows.mem listed, named⟩
  · intro row member past importable
    by_cases old : row ∈ source.rows
    · exact known.known row old past importable
    · apply iff_of_false
      · intro inside
        obtain ⟨other, listed, named⟩ := known.named _ inside
        rw [SourceLog.eq_of_eventIdHex (grows.mem listed) member named] at listed
        exact old listed
      · intro below
        have kept : row ∈ later.importable bound :=
          SourceLog.mem_importable.mpr ⟨member, importable, below⟩
        rw [grows.importable bounds] at kept
        exact old (SourceLog.mem_importable.mp kept).1

/-- A saved cursor stays good while the source grows. -/
theorem CursorWithin.grows {cursor : ReplicaCursor} (within : CursorWithin circuit source bound cursor)
    (grows : source.Extends later) : CursorWithin circuit later bound cursor := by
  refine ⟨within.bound_circuit, grows.marks within.marked, within.behind, ?_⟩
  rw [within.anchored]
  exact (grows.anchor within.marked).symm

/-- What a source appends is past every bound it has shown. -/
theorem ImportedBelow.sourceAppend (holds : ImportedBelow circuit bound durable)
    (grows : durable.source.Extends later) :
    ImportedBelow circuit bound { durable with source := later } := by
  have same := grows.importable holds.bounds
  refine ⟨grows.bounds holds.bounds, ?_, ?_, ?_, holds.others, ?_⟩
  · rw [same]
    exact holds.copied
  · rw [same]
    exact holds.ledger
  · intro key used
    rcases holds.spent key used with ⟨row, member, known⟩ | batch
    · left
      rw [same]
      exact ⟨row, member, known⟩
    · exact Or.inr batch
  · intro cursor found
    exact (holds.saved cursor found).grows grows

/-- Rows of the store's own change nothing that was imported. -/
theorem ImportedBelow.storeOpened (holds : ImportedBelow circuit bound durable) {row : ReplicaRow}
    (own : StoreKinds.reserved row.kindRaw = true) (made : row.source = none) (free : row.key = none) :
    ImportedBelow circuit bound { durable with destination := durable.destination ++ [row] } := by
  have other : row.kindRaw ≠ replicaBatchKind := by
    intro same
    rw [same, StoreKinds.ledger_free] at own
    cases own
  refine ⟨holds.bounds, ?_, ?_, ?_, ?_, holds.saved⟩
  · have nothing : importedRows [row] = [] := by
      unfold importedRows
      simp [made]
    unfold importedRows at nothing ⊢
    rw [List.filter_append, nothing, List.append_nil]
    exact holds.copied
  · exact Circuit.represented_append (by simpa using other) holds.ledger
  · rintro key ⟨used, member, keyed⟩
    rcases List.mem_append.mp member with old | new
    · exact holds.spent key ⟨used, old, keyed⟩
    · rw [List.mem_singleton.mp new, free] at keyed
      cases keyed
  · intro other member plain
    rcases List.mem_append.mp member with old | new
    · exact holds.others other old plain
    · rw [List.mem_singleton.mp new]
      exact Or.inl own

/-- What the ledger names is what a run that opens the store knows. -/
theorem ImportedBelow.known (holds : ImportedBelow circuit bound durable)
    (marked : durable.source.Marks after) (behind : reached after ≤ bound)
    (read : circuit.represented durable.destination = .ok represented) :
    KnownPast durable.source bound after represented := by
  rw [holds.ledger] at read
  cases read
  refine ⟨marked, behind, ?_, ?_⟩
  · intro eventIdHex member
    obtain ⟨row, listed, named⟩ := List.mem_map.mp member
    exact ⟨row, (SourceLog.mem_importable.mp listed).1, named⟩
  · intro row member _ importable
    constructor
    · intro inside
      obtain ⟨other, listed, named⟩ := List.mem_map.mp inside
      have whole := SourceLog.mem_importable.mp listed
      rw [← SourceLog.eq_of_eventIdHex whole.1 member named]
      exact whole.2.2
    · intro below
      exact List.mem_map_of_mem (SourceLog.mem_importable.mpr ⟨member, importable, below⟩)

/-- A later bound allows more keys. -/
theorem SpentBelow.mono {key : IdempotencyKey} (used : SpentBelow circuit source bound key)
    (forward : bound ≤ next) : SpentBelow circuit source next key := by
  rcases used with ⟨row, member, same⟩ | ⟨first, last, below, same⟩
  · obtain ⟨listed, importable, under⟩ := SourceLog.mem_importable.mp member
    exact Or.inl ⟨row, SourceLog.mem_importable.mpr
      ⟨listed, importable, Nat.lt_of_lt_of_le under forward⟩, same⟩
  · exact Or.inr ⟨first, last, Nat.lt_of_lt_of_le below forward, same⟩

/-- A later bound allows more cursors. -/
theorem CursorWithin.mono {cursor : ReplicaCursor} (within : CursorWithin circuit source bound cursor)
    (forward : bound ≤ next) : CursorWithin circuit source next cursor :=
  ⟨within.bound_circuit, within.marked, Nat.le_trans within.behind forward, within.anchored⟩

omit [StoreKinds] in
/-- Import keys and ledger keys are different. -/
theorem importKey_ne_ledgerKey (origin eventIdHex : String) (circuit : Circuit)
    (first last : String) : importKey origin eventIdHex ≠ ledgerKey circuit first last := by
  intro same
  have operations := congrArg IdempotencyKey.operation same
  simp [importKey, ledgerKey] at operations

/-- An import key is not spent before its row is taken in. -/
theorem SpentBelow.importKey_below {row : SourceRow} (member : row ∈ source.rows)
    (used : SpentBelow circuit source bound (importKey circuit.namespace row.eventIdHex)) :
    row.sequence < bound := by
  rcases used with ⟨other, listed, same⟩ | ⟨first, last, _, same⟩
  · obtain ⟨inside, _, below⟩ := SourceLog.mem_importable.mp listed
    have parts := congrArg IdempotencyKey.parts same
    have named : row.eventIdHex = other.eventIdHex := by simpa [importKey] using parts
    rw [SourceLog.eq_of_eventIdHex member inside named]
    exact below
  · exact absurd same (importKey_ne_ledgerKey _ _ _ _ _)

/-- A ledger key is not spent before its first row is taken in. -/
theorem SpentBelow.ledgerKey_below {first : Nat} {last : String}
    (used : SpentBelow circuit source bound (ledgerKey circuit (toString first) last)) :
    first < bound := by
  rcases used with ⟨other, _, same⟩ | ⟨start, final, below, same⟩
  · exact absurd same.symm (importKey_ne_ledgerKey _ _ _ _ _)
  · have parts := congrArg IdempotencyKey.parts same
    have texts : toString first = toString start ∧ last = final := by
      simpa only [ledgerKey, List.cons.injEq, and_true, true_and] using parts
    rw [Git.toString_inj texts.1]
    exact below

/-- A page's watermark is at a row of its source. -/
theorem PageOf.marks {sourceCeiling : Nat} {page : ImportPage} {done rest : List SourceRow}
    (told : PageOf source after sourceCeiling represented page done rest)
    (marked : source.Marks after) : source.Marks page.highWatermark := by
  intro sequence present
  rw [told.watermark] at present
  cases last : done.getLast? with
  | none =>
    rw [last] at present
    exact marked sequence present
  | some row =>
    rw [last] at present
    cases present
    have ahead : row ∈ source.ahead after sourceCeiling := by
      rw [told.split]
      exact List.mem_append_left _ (List.mem_of_getLast? last)
    exact ⟨row, (SourceLog.mem_ahead_iff.mp ahead).1, rfl⟩

/-- A page's watermark is not past its ceiling. -/
theorem PageOf.before {sourceCeiling : Nat} {page : ImportPage} {done rest : List SourceRow}
    (told : PageOf source after sourceCeiling represented page done rest)
    (before : ∀ sequence ∈ after, sequence ≤ sourceCeiling) :
    ∀ sequence ∈ page.highWatermark, sequence ≤ sourceCeiling := by
  intro sequence present
  rw [told.watermark] at present
  cases last : done.getLast? with
  | none =>
    rw [last] at present
    exact before sequence present
  | some row =>
    rw [last] at present
    cases present
    have ahead : row ∈ source.ahead after sourceCeiling := by
      rw [told.split]
      exact List.mem_append_left _ (List.mem_of_getLast? last)
    exact (SourceLog.mem_ahead_iff.mp ahead).2.2

/-- A page that leaves nothing up to its ceiling ends at it. -/
theorem PageOf.ends {sourceCeiling : Nat} {page : ImportPage} {done rest : List SourceRow}
    (told : PageOf source after sourceCeiling represented page done rest)
    (before : ∀ sequence ∈ after, sequence ≤ sourceCeiling) (shown : source.Shows sourceCeiling)
    (positive : 0 < sourceCeiling) (nothing : rest = []) :
    page.highWatermark = some sourceCeiling := by
  have left : source.ahead page.highWatermark sourceCeiling = [] := by
    rw [told.ahead_watermark, nothing]
  rcases shown with zero | ⟨row, member, same⟩
  · omega
  · have passed : ¬ reached page.highWatermark ≤ row.sequence := by
      intro ahead
      have inside : row ∈ source.ahead page.highWatermark sourceCeiling :=
        SourceLog.mem_ahead_iff.mpr ⟨member, ahead, Nat.le_of_eq same⟩
      rw [left] at inside
      cases inside
    have limit := told.before before
    cases high : page.highWatermark with
    | none =>
      rw [high] at passed
      exact absurd (Nat.zero_le _) passed
    | some sequence =>
      have under := limit sequence high
      have past : ¬ sequence + 1 ≤ row.sequence := by
        rw [high] at passed
        exact passed
      have exactly : sequence = sourceCeiling := by omega
      rw [exactly]

/-- The rows past a cursor that a run takes in are the importable ones from the bound on. -/
theorem KnownPast.kept (known : KnownPast source bound after represented) (limit : Nat) :
    (source.rows.filter fun row => decide
        (Kept represented row ∧ reached after ≤ row.sequence ∧ row.sequence < limit)) =
      source.rows.filter fun row => decide
        (Importable row ∧ bound ≤ row.sequence ∧ row.sequence < max bound limit) := by
  apply List.filter_congr
  intro row member
  have behind := known.behind
  rw [Bool.eq_iff_iff, decide_eq_true_eq, decide_eq_true_eq]
  constructor
  · rintro ⟨⟨importable, absent⟩, past, before⟩
    have told := known.known row member past importable
    have late : bound ≤ row.sequence := by
      by_contra below
      exact absent (told.mpr (Nat.lt_of_not_le below))
    exact ⟨importable, late, Nat.lt_of_lt_of_le before (Nat.le_max_right _ _)⟩
  · rintro ⟨importable, late, before⟩
    have past : reached after ≤ row.sequence := Nat.le_trans behind late
    have told := known.known row member past importable
    have absent : row.eventIdHex ∉ represented := by
      intro inside
      have below := told.mp inside
      omega
    exact ⟨⟨importable, absent⟩, past, by omega⟩

/-- The events of a page are the importable rows from the bound to where the page ends. -/
theorem PageOf.between {sourceCeiling : Nat} {page : ImportPage} {done rest : List SourceRow}
    (told : PageOf source after sourceCeiling represented page done rest)
    (known : KnownPast source bound after represented) :
    page.events = (source.rows.filter fun row =>
      decide (Importable row ∧ bound ≤ row.sequence ∧
        row.sequence < max bound (reached page.highWatermark))).map SourceRow.importEvent := by
  rw [told.events, told.done_eq, List.filter_filter, ← known.kept]
  congr 1
  apply List.filter_congr
  intro row _
  exact (Bool.decide_and _ _).symm

/-- Behind what a run has gone over it still knows what is represented. -/
theorem KnownPast.advance (known : KnownPast source bound after represented)
    {high : Option Nat} (marked : source.Marks high) (forward : reached after ≤ reached high) :
    KnownPast source (max bound (reached high)) high represented := by
  refine ⟨marked, Nat.le_max_right _ _, known.named, ?_⟩
  intro row member past importable
  have told := known.known row member (Nat.le_trans forward past) importable
  rw [told]
  omega

/-- A cursor that has moved on leaves fewer rows ahead of it. -/
theorem SourceLog.ahead_shorter {high : Option Nat} {sourceCeiling : Nat}
    (marked : source.Marks high) (forward : reached after < reached high)
    (before : ∀ sequence ∈ high, sequence ≤ sourceCeiling) :
    (source.ahead high sourceCeiling).length < (source.ahead after sourceCeiling).length := by
  cases high with
  | none => exact absurd forward (Nat.not_lt_zero _)
  | some sequence =>
    obtain ⟨row, member, same⟩ := marked sequence rfl
    have limit := before sequence rfl
    have past : reached after < sequence + 1 := forward
    have next : sequence + 1 ≤ sourceCeiling + 1 := Nat.succ_le_succ limit
    have split := source.ordered.filter_below (fun row => reached after ≤ row.sequence) next
    have whole : source.ahead after sourceCeiling =
        source.rows.filter (fun row =>
          decide (reached after ≤ row.sequence ∧ row.sequence < sequence + 1)) ++
          source.ahead (some sequence) sourceCeiling := by
      rw [SourceLog.ahead_eq, SourceLog.ahead_eq]
      refine Eq.trans (List.filter_congr ?_) (split.trans (congrArg _ (List.filter_congr ?_)))
      · intro other _
        rw [Bool.eq_iff_iff, decide_eq_true_eq, decide_eq_true_eq]
        exact and_congr_right fun _ => Nat.lt_succ_iff.symm
      · intro other _
        rw [Bool.eq_iff_iff, decide_eq_true_eq, decide_eq_true_eq]
        show _ ↔ sequence + 1 ≤ other.sequence ∧ other.sequence ≤ sourceCeiling
        omega
    have inside : row ∈ source.rows.filter fun row =>
        decide (reached after ≤ row.sequence ∧ row.sequence < sequence + 1) :=
      List.mem_filter.mpr ⟨member, decide_eq_true (by omega)⟩
    have some_ := List.length_pos_of_mem inside
    rw [whole, List.length_append]
    omega

/-- Saving a good cursor changes nothing else. -/
theorem ImportedBelow.save (holds : ImportedBelow circuit bound durable) {cursor : ReplicaCursor}
    (within : CursorWithin circuit durable.source bound cursor) :
    ImportedBelow circuit bound { durable with cursor := some cursor } := by
  refine ⟨holds.bounds, holds.copied, holds.ledger, holds.spent, holds.others, ?_⟩
  intro other found
  cases found
  exact within

/-- The importable rows between the bound and a later one are taken in as a whole, under keys that
are fresh. -/
theorem ImportedBelow.take (holds : ImportedBelow circuit bound durable) (forward : bound ≤ next)
    (bounds : durable.source.Bounds next) {events : List ImportEvent}
    (between : events = (durable.source.rows.filter fun row =>
      decide (Importable row ∧ bound ≤ row.sequence ∧ row.sequence < next)).map
        SourceRow.importEvent) :
    (events = [] → ImportedBelow circuit next durable) ∧
      (events ≠ [] → ∃ grown,
        appendWithLedger durable.destination circuit.namespace events
            (replicaLedgerItem circuit circuit.namespace events) = some (grown, events.length) ∧
          ImportedBelow circuit next { durable with destination := grown }) := by
  let rows := durable.source.rows.filter fun row =>
    decide (Importable row ∧ bound ≤ row.sequence ∧ row.sequence < next)
  have grown : durable.source.importable next = durable.source.importable bound ++ rows :=
    durable.source.ordered.filter_below Importable forward
  have origin : ∀ event ∈ events, ∃ row ∈ durable.source.rows,
      Importable row ∧ bound ≤ row.sequence ∧ row.sequence < next ∧ row.importEvent = event := by
    intro event member
    rw [between] at member
    obtain ⟨row, listed, same⟩ := List.mem_map.mp member
    obtain ⟨inside, told⟩ := List.mem_filter.mp listed
    obtain ⟨importable, past, below⟩ := of_decide_eq_true told
    exact ⟨row, inside, importable, past, below, same⟩
  have saved : ∀ cursor ∈ durable.cursor, CursorWithin circuit durable.source next cursor :=
    fun cursor found => (holds.saved cursor found).mono forward
  constructor
  · intro nothing
    have empty : rows = [] := by
      rw [between] at nothing
      exact List.map_eq_nil_iff.mp nothing
    rw [empty, List.append_nil] at grown
    refine ⟨bounds, ?_, ?_, fun key used => (holds.spent key used).mono forward, holds.others,
      saved⟩
    · rw [grown]
      exact holds.copied
    · rw [grown]
      exact holds.ledger
  · intro some_
    have imports : ∀ event ∈ events,
        ¬ Spent durable.destination (importKey circuit.namespace event.source.eventIdHex) := by
      intro event member used
      obtain ⟨row, inside, _, past, _, same⟩ := origin event member
      rw [← same] at used
      have below := (holds.spent _ used).importKey_below inside
      omega
    obtain ⟨first, rest, shape⟩ := List.exists_cons_of_ne_nil some_
    obtain ⟨row, inside, importable, past, below, same⟩ := origin first (by simp [shape])
    let last := sequenceText (ledgerEntries events).getLast?
    have keyed : (replicaLedgerItem circuit circuit.namespace events).key =
        some (ledgerKey circuit (toString row.sequence) last) := by
      have head : sequenceText (ledgerEntries events).head? = toString row.sequence := by
        rw [shape, ← same]
        rfl
      show some (ledgerKey circuit (sequenceText (ledgerEntries events).head?) last) = _
      rw [head]
    have batch : ¬ Spent durable.destination (ledgerKey circuit (toString row.sequence) last) := by
      intro used
      have under := (holds.spent _ used).ledgerKey_below
      omega
    have outside : ∀ event ∈ events, event.kind ≠ replicaBatchKind := by
      intro event member
      obtain ⟨row, _, importable, _, _, same⟩ := origin event member
      rw [← same]
      exact importable.2
    refine ⟨_, appendWithLedger_fresh keyed imports batch, bounds, ?_, ?_, ?_, ?_, saved⟩
    · show importedRows (durable.destination ++ _) = _
      rw [importedRows_batch, holds.copied, grown, List.map_append, between, List.map_map]
      rfl
    · show circuit.represented (durable.destination ++ _) = _
      rw [Circuit.represented_batch outside holds.ledger, grown, List.map_append, between,
        List.map_map]
      rfl
    · intro key used
      rcases spent_batch used with old | ⟨event, member, own⟩ | ledger
      · exact (holds.spent key old).mono forward
      · obtain ⟨row, inside, importable, _, below, same⟩ := origin event member
        refine Or.inl ⟨row, SourceLog.mem_importable.mpr ⟨inside, importable, below⟩, ?_⟩
        rw [own, ← same]
        rfl
      · rw [keyed] at ledger
        cases ledger
        exact Or.inr ⟨row.sequence, last, below, rfl⟩
    · intro other member plain
      rcases List.mem_append.mp member with old | new
      · exact holds.others other old plain
      · rcases List.mem_append.mp new with copied | own
        · obtain ⟨event, _, rfl⟩ := List.mem_map.mp copied
          cases plain
        · rw [List.mem_singleton.mp own]
          exact Or.inr rfl

/-- What a replica is for: it holds the leading importable rows of its source, those below a bound,
each once and in their order. Its ledger names exactly them, its other rows are the store's own and
the ledger, and its cursor is at or before the bound, of its circuit, and at an event the source
still has. -/
structure LeadingRows (circuit : Circuit) (bound : Nat) (durable : Durable) : Prop where
  copied : importedRows durable.destination =
    (durable.source.importable bound).map fun row => row.importEvent.item circuit.namespace
  leading : importedRows durable.destination <+:
    (durable.source.rows.filter fun row => decide (Importable row)).map
      fun row => row.importEvent.item circuit.namespace
  once : (((importedRows durable.destination).filterMap ReplicaRow.source).map
    SourceEventRef.eventIdHex).Nodup
  ledger : circuit.represented durable.destination =
    .ok (((importedRows durable.destination).filterMap ReplicaRow.source).map
      SourceEventRef.eventIdHex)
  others : ∀ row ∈ durable.destination, row.source = none →
    StoreKinds.reserved row.kindRaw = true ∨ row.kindRaw = replicaBatchKind
  saved : ∀ cursor ∈ durable.cursor, reached cursor.sourceHighWatermark ≤ bound ∧
    validateCursorBinding cursor circuit = .ok () ∧
    validateSourceAnchor durable.source cursor = .ok ()

/-- A cursor within its bound passes the check of its anchor. -/
theorem CursorWithin.validates {cursor : ReplicaCursor}
    (within : CursorWithin circuit source bound cursor) :
    validateSourceAnchor source cursor = .ok () := by
  have told := within.anchored
  unfold validateSourceAnchor
  split
  · rfl
  · rename_i sequence high
    rw [high] at told
    exact require_eq_ok.mpr told.symm

/-- The anchor of a cursor within its bound is the event at its watermark. -/
theorem CursorWithin.anchor_eq {cursor : ReplicaCursor}
    (within : CursorWithin circuit source bound cursor) {sequence : Nat}
    (high : cursor.sourceHighWatermark = some sequence) :
    cursor.sourceAnchorEventIdHex = source.eventIdAt sequence := by
  rw [within.anchored, high]
  rfl

/-- Where a call behind good cursors, or behind none, stands. -/
theorem CursorWithin.previous {previous : Option ReplicaCursor}
    (saved : ∀ cursor ∈ previous, CursorWithin circuit source bound cursor) :
    source.Marks (previous.bind ReplicaCursor.sourceHighWatermark) ∧
      reached (previous.bind ReplicaCursor.sourceHighWatermark) ≤ bound ∧
      previous.bind ReplicaCursor.sourceAnchorEventIdHex =
        (previous.bind ReplicaCursor.sourceHighWatermark).bind source.eventIdAt := by
  cases previous with
  | none =>
    refine ⟨?_, Nat.zero_le _, rfl⟩
    intro sequence present
    cases present
  | some cursor =>
    have within := saved cursor rfl
    exact ⟨within.marked, within.behind, within.anchored⟩

/-- The invariant is what a replica is for. -/
theorem ImportedBelow.leadingRows (holds : ImportedBelow circuit bound durable) :
    LeadingRows circuit bound durable := by
  have ids : ((importedRows durable.destination).filterMap ReplicaRow.source).map
      SourceEventRef.eventIdHex = (durable.source.importable bound).map SourceRow.eventIdHex := by
    rw [holds.copied, List.filterMap_map, List.map_filterMap, ← List.filterMap_eq_map]
    rfl
  have all : durable.source.importable (max bound (durable.source.frontier + 1)) =
      durable.source.rows.filter fun row => decide (Importable row) := by
    apply SourceLog.importable_all
    intro row member
    have limit := SourceLog.le_frontier member
    omega
  refine ⟨holds.copied, ?_, ?_, ?_, holds.others, ?_⟩
  · rw [← all, holds.copied]
    exact (SourceLog.importable_prefix _ (Nat.le_max_left _ _)).map _
  · rw [ids]
    have distinct : (durable.source.rows.map SourceRow.eventIdHex).Nodup := by
      have mapped := durable.source.distinct.map lowerHex32_injective
      rw [List.map_map] at mapped
      exact mapped
    exact distinct.sublist (List.filter_sublist.map _)
  · rw [ids]
    exact holds.ledger
  · intro cursor found
    have within := holds.saved cursor found
    exact ⟨within.behind, within.bound_circuit, within.validates⟩

/-- What was copied comes first in what is copied later. -/
theorem ImportedBelow.copied_prefix {grown : Durable} (holds : ImportedBelow circuit bound durable)
    (after : ImportedBelow circuit next grown) (grows : durable.source.Extends grown.source)
    (forward : bound ≤ next) :
    importedRows durable.destination <+: importedRows grown.destination := by
  rw [holds.copied, after.copied, ← grows.importable holds.bounds]
  exact (SourceLog.importable_prefix _ forward).map _

/-- A replica whose cursor is at the frontier holds all importable rows. -/
theorem ImportedBelow.copied_all (holds : ImportedBelow circuit bound durable)
    {cursor : ReplicaCursor} (saved : durable.cursor = some cursor)
    (high : cursor.sourceHighWatermark = some durable.source.frontier) :
    importedRows durable.destination =
      (durable.source.rows.filter fun row => decide (Importable row)).map
        fun row => row.importEvent.item circuit.namespace := by
  have behind := (holds.saved cursor saved).behind
  rw [high] at behind
  have limit : durable.source.frontier + 1 ≤ bound := behind
  rw [holds.copied, SourceLog.importable_all]
  intro row member
  have under := SourceLog.le_frontier member
  omega

end Invariant

end Texo.Replication
