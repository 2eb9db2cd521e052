import Texo.Foundation.Paging
import Texo.Ops.Snapshots

/-! # Import pages

A replica imports its source page by page. A page goes over the rows past a cursor, up to the
ceiling that was captured first, and leaves out what the store reserves for itself, the ledger of
replicas and what the destination already represents. It ends behind the last row it went over, at
a full page or where the next payload does not fit.
-/
namespace Texo.Replication
open Texo.Foundation Texo.Ops

/-- `ReplicaBatchMaterializedV1::KIND`. -/
def replicaBatchKind : UInt16 := 0xE011

/-- What the store says of the events it takes. The kinds of its callers are the custom ones, the
one of the ledger among them, and a custom kind is built again from its category and its type. -/
class StoreKinds where
  /-- `EventKind::is_reserved`. -/
  reserved : UInt16 → Bool
  /-- `EventKind::try_custom`, as the raw kind it builds. -/
  tryCustom : UInt16 → UInt16 → Option UInt16
  /-- Whether `Coordinate::new` takes an entity and a scope. -/
  coordinate : String → String → Bool
  /-- `batpak::event::hash::compute_hash`. -/
  computeHash : List UInt8 → List UInt8
  ledger_free : reserved replicaBatchKind = false
  custom_free : ∀ raw, reserved raw = false → tryCustom (raw >>> 12) (raw &&& 0x0fff) = some raw

/-- One committed row of a store, as it is read raw. -/
structure SourceRow where
  sequence : Nat
  eventId : BitVec 128
  kindRaw : UInt16
  entity : String
  scope : String
  payload : List UInt8
  contentHash : List UInt8
  correlationId : BitVec 128
deriving DecidableEq

/-- The id of a row as `{:032x}` writes it. -/
def SourceRow.eventIdHex (row : SourceRow) : String := lowerHex32 row.eventId

/-- Numbers with the same lower digits have the same remainder. -/
theorem mod_pow_of_digits {base first second : Nat} (count : Nat)
    (same : ∀ place < count, first / base ^ place % base = second / base ^ place % base) :
    first % base ^ count = second % base ^ count := by
  induction count with
  | zero => rw [Nat.pow_zero, Nat.mod_one, Nat.mod_one]
  | succ count ih =>
    have lower := ih fun place below => same place (Nat.lt_succ_of_lt below)
    have top := same count (Nat.lt_succ_self count)
    rw [Nat.mod_pow_succ, Nat.mod_pow_succ, lower, top]

/-- The 32 digits of a number name it. -/
theorem lowerHex32_injective : Function.Injective lowerHex32 := by
  intro first second same
  unfold lowerHex32 at same
  have digits := List.map_inj_left.mp (String.ofList_injective same)
  have apart : ∀ a < 16, ∀ b < 16, Nat.digitChar a = Nat.digitChar b → a = b := by decide
  have equal : ∀ place < 32, first.toNat / 16 ^ place % 16 = second.toNat / 16 ^ place % 16 := by
    intro place below
    have shown := digits (31 - place) (List.mem_range.mpr (by omega))
    have back : 31 - (31 - place) = place := by omega
    rw [back] at shown
    exact apart _ (Nat.mod_lt _ (by decide)) _ (Nat.mod_lt _ (by decide)) shown
  have whole := mod_pow_of_digits 32 equal
  rw [Nat.mod_eq_of_lt (lt_of_lt_of_eq first.isLt (by decide)),
    Nat.mod_eq_of_lt (lt_of_lt_of_eq second.isLt (by decide))] at whole
  exact BitVec.eq_of_toNat_eq whole

/-- `SourceEventRef`: the stable evidence of a source row. -/
structure SourceEventRef where
  eventIdHex : String
  globalSequence : Nat
  kindRaw : UInt16
  contentHash : List UInt8
deriving DecidableEq

/-- `ImportEvent`. -/
structure ImportEvent where
  source : SourceEventRef
  entity : String
  scope : String
  kind : UInt16
  payload : List UInt8
  correlationId : BitVec 128
deriving DecidableEq

/-- The import event of a row. -/
def SourceRow.importEvent (row : SourceRow) : ImportEvent where
  source := ⟨row.eventIdHex, row.sequence, row.kindRaw, row.contentHash⟩
  entity := row.entity
  scope := row.scope
  kind := row.kindRaw
  payload := row.payload
  correlationId := row.correlationId

/-- Bounds of one page. -/
structure PageLimits where
  rows : Nat
  payloadBytes : Nat
deriving DecidableEq, Repr

/-- `IMPORT_PAGE_SIZE` and `IMPORT_PAGE_PAYLOAD_BYTES`. -/
def importPageLimits : PageLimits where
  rows := 128
  payloadBytes := 8 * 1024 * 1024

/-- `ImportPage`. -/
structure ImportPage where
  events : List ImportEvent := []
  highWatermark : Option Nat
  deduplicated : Nat := 0
  skippedReserved : Nat := 0
  skippedOperational : Nat := 0
  hasMore : Bool := false
deriving DecidableEq

/-- What reading a page has gathered before one row. -/
structure PageScan where
  page : ImportPage
  payloadBytes : Nat := 0
  hitPayloadBudget : Bool := false
deriving DecidableEq

variable [StoreKinds]

/-- The rows of a store: in strictly increasing sequence, each under its own identity, with a
coordinate and the hash of its payload. -/
structure SourceLog where
  rows : List SourceRow
  ordered : Ordered SourceRow.sequence rows
  distinct : (rows.map SourceRow.eventId).Nodup
  located : ∀ row ∈ rows, StoreKinds.coordinate row.entity row.scope = true
  hashed : ∀ row ∈ rows, row.contentHash = StoreKinds.computeHash row.payload

/-- `frontier`: the sequence of the last row. -/
def SourceLog.frontier (log : SourceLog) : Nat := (log.rows.getLast?.map SourceRow.sequence).getD 0

/-- The loop of `read_import_page`. -/
def scanRows (payloadLimit sourceCeiling : Nat) (represented : List String) :
    List SourceRow → PageScan → PageScan
  | [], scan => scan
  | row :: rest, scan =>
    if sourceCeiling < row.sequence then
      scan
    else if StoreKinds.reserved row.kindRaw then
      scanRows payloadLimit sourceCeiling represented rest
        { scan with page := { scan.page with
          highWatermark := some row.sequence
          skippedReserved := scan.page.skippedReserved + 1 } }
    else if row.kindRaw = replicaBatchKind then
      scanRows payloadLimit sourceCeiling represented rest
        { scan with page := { scan.page with
          highWatermark := some row.sequence
          skippedOperational := scan.page.skippedOperational + 1 } }
    else if row.eventIdHex ∈ represented then
      scanRows payloadLimit sourceCeiling represented rest
        { scan with page := { scan.page with
          highWatermark := some row.sequence
          deduplicated := scan.page.deduplicated + 1 } }
    else if scan.page.events ≠ [] ∧ payloadLimit < scan.payloadBytes + row.payload.length then
      { scan with hitPayloadBudget := true }
    else
      scanRows payloadLimit sourceCeiling represented rest
        { page := { scan.page with
            highWatermark := some row.sequence
            events := scan.page.events ++ [row.importEvent] }
          payloadBytes := scan.payloadBytes + row.payload.length
          hitPayloadBudget := scan.hitPayloadBudget }

/-- `read_import_page`. -/
def readImportPage (limits : PageLimits) (source : SourceLog) (after : Option Nat)
    (sourceCeiling : Nat) (represented : List String) : ImportPage :=
  let scan := scanRows limits.payloadBytes sourceCeiling represented
    (pageAfter SourceRow.sequence limits.rows source.rows after)
    { page := { highWatermark := after } }
  { scan.page with
    hasMore := scan.hitPayloadBudget || scan.page.highWatermark.any fun seen =>
      decide (seen < sourceCeiling) }

/-- `event_id_at`: the row is looked for among the two behind the sequence before it. -/
def SourceLog.eventIdAt (source : SourceLog) (sequence : Nat) : Option String :=
  ((pageAfter SourceRow.sequence 2 source.rows
    (if sequence = 0 then none else some (sequence - 1))).find?
      fun row => row.sequence = sequence).map SourceRow.eventIdHex

/-- The id at a sequence is that of the row there. -/
theorem SourceLog.eventIdAt_eq_some {source : SourceLog} {sequence : Nat} {eventIdHex : String} :
    source.eventIdAt sequence = some eventIdHex ↔
      ∃ row ∈ source.rows, row.sequence = sequence ∧ row.eventIdHex = eventIdHex := by
  let after := if sequence = 0 then none else some (sequence - 1)
  unfold SourceLog.eventIdAt
  rw [Option.map_eq_some_iff]
  constructor
  · rintro ⟨row, found, named⟩
    have member := List.mem_of_find?_eq_some found
    have same : row.sequence = sequence := by simpa using List.find?_some found
    exact ⟨row, (List.mem_filter.mp (List.mem_of_mem_take member)).1, same, named⟩
  · rintro ⟨row, member, same, named⟩
    refine ⟨row, ?_, named⟩
    have ordered : Ordered SourceRow.sequence (rowsAfter SourceRow.sequence after source.rows) :=
      source.ordered.filter _
    have inside : row ∈ rowsAfter SourceRow.sequence after source.rows := by
      apply List.mem_filter.mpr
      refine ⟨member, ?_⟩
      show Option.all _ (if sequence = 0 then none else some (sequence - 1)) = true
      split
      · rfl
      · simp only [Option.all_some, decide_eq_true_eq]
        omega
    have reaches : ∀ other ∈ rowsAfter SourceRow.sequence after source.rows,
        sequence ≤ other.sequence := by
      intro other listed
      have past := (List.mem_filter.mp listed).2
      have shown : Option.all (fun bound => decide (bound < other.sequence))
        (if sequence = 0 then none else some (sequence - 1)) = true := past
      split at shown
      · omega
      · simp only [Option.all_some, decide_eq_true_eq] at shown
        omega
    show ((rowsAfter SourceRow.sequence after source.rows).take 2).find? _ = some row
    cases rows : rowsAfter SourceRow.sequence after source.rows with
    | nil =>
      rw [rows] at inside
      cases inside
    | cons first rest =>
      rw [rows] at inside ordered reaches
      have front : first = row := by
        rcases List.mem_cons.mp inside with here | later
        · exact here.symm
        · have before := (List.pairwise_cons.mp ordered).1 row later
          have reached := reaches first List.mem_cons_self
          omega
      rw [front, List.take_succ_cons, List.find?_cons_of_pos (by simpa using same)]

/-- A row that replicas import. -/
def Importable (row : SourceRow) : Prop :=
  StoreKinds.reserved row.kindRaw = false ∧ row.kindRaw ≠ replicaBatchKind

instance (row : SourceRow) : Decidable (Importable row) :=
  inferInstanceAs (Decidable (_ ∧ _))

/-- A row that a page keeps: importable, and not represented. -/
def Kept (represented : List String) (row : SourceRow) : Prop :=
  Importable row ∧ row.eventIdHex ∉ represented

instance (represented : List String) (row : SourceRow) : Decidable (Kept represented row) :=
  inferInstanceAs (Decidable (_ ∧ _))

/-- What a scan has gone over: a leading part of the rows, the kept ones of them in order. It goes
over the first row in any case, and stops early at the ceiling or where a payload does not fit. -/
structure Scanned (sourceCeiling : Nat) (represented : List String) (rows : List SourceRow)
    (before after : PageScan) (done rest : List SourceRow) : Prop where
  split : rows = done ++ rest
  events : after.page.events =
    before.page.events ++ (done.filter (Kept represented)).map SourceRow.importEvent
  watermark : after.page.highWatermark =
    (done.getLast?.map SourceRow.sequence).or before.page.highWatermark
  under : ∀ row ∈ done, row.sequence ≤ sourceCeiling
  budget : after.hitPayloadBudget = true → before.hitPayloadBudget = true ∨
    ∃ row ∈ rest.head?, row.sequence ≤ sourceCeiling ∧ after.page.events ≠ []
  ended : after.hitPayloadBudget = false → ∀ row ∈ rest.head?, sourceCeiling < row.sequence

/-- The spec of a scan. -/
theorem scanRows_spec (payloadLimit sourceCeiling : Nat) (represented : List String)
    (rows : List SourceRow) (scan : PageScan) (open_ : scan.hitPayloadBudget = false) :
    ∃ done rest, Scanned sourceCeiling represented rows scan
      (scanRows payloadLimit sourceCeiling represented rows scan) done rest := by
  induction rows generalizing scan with
  | nil =>
    refine ⟨[], [], rfl, ?_, ?_, ?_, ?_, ?_⟩
    · simp [scanRows]
    · simp [scanRows]
    · intro row member
      cases member
    · intro hit
      rw [scanRows, open_] at hit
      cases hit
    · intro _ row member
      cases member
  | cons row rest ih =>
    have passed : ∀ next : PageScan, next.hitPayloadBudget = false →
        row.sequence ≤ sourceCeiling →
        next.page.events = scan.page.events ++
          ([row].filter (Kept represented)).map SourceRow.importEvent →
        next.page.highWatermark = some row.sequence →
        ∃ done later, Scanned sourceCeiling represented (row :: rest) scan
          (scanRows payloadLimit sourceCeiling represented rest next) done later := by
      intro next opened below events watermark
      obtain ⟨done, later, told⟩ := ih next opened
      refine ⟨row :: done, later, by rw [told.split]; rfl, ?_, ?_, ?_, ?_, told.ended⟩
      · rw [told.events, events, List.append_assoc, ← List.map_append, ← List.filter_append]
        rfl
      · rw [told.watermark, watermark, List.getLast?_cons]
        cases done.getLast? <;> rfl
      · intro other member
        rcases List.mem_cons.mp member with rfl | inside
        · exact below
        · exact told.under other inside
      · intro hit
        rcases told.budget hit with before | found
        · rw [opened] at before
          cases before
        · exact Or.inr found
    have stopped : ∀ next : PageScan, next.page = scan.page →
        (next.hitPayloadBudget = true → row.sequence ≤ sourceCeiling ∧ next.page.events ≠ []) →
        (next.hitPayloadBudget = false → sourceCeiling < row.sequence) →
        ∃ done later, Scanned sourceCeiling represented (row :: rest) scan next done later := by
      intro next same hit free
      refine ⟨[], row :: rest, rfl, by simp [same], by simp [same], ?_, ?_, ?_⟩
      · intro other member
        cases member
      · intro found
        exact Or.inr ⟨row, rfl, hit found⟩
      · intro found other member
        cases member
        exact free found
    unfold scanRows
    by_cases past : sourceCeiling < row.sequence
    · rw [if_pos past]
      refine stopped scan rfl ?_ fun _ => past
      intro hit
      rw [open_] at hit
      cases hit
    · rw [if_neg past]
      have below : row.sequence ≤ sourceCeiling := Nat.le_of_not_lt past
      by_cases reserved : StoreKinds.reserved row.kindRaw = true
      · rw [if_pos reserved]
        exact passed _ open_ below (by simp [Kept, Importable, reserved]) rfl
      · rw [if_neg reserved]
        by_cases ledger : row.kindRaw = replicaBatchKind
        · rw [if_pos ledger]
          exact passed _ open_ below (by simp [Kept, Importable, ledger]) rfl
        · rw [if_neg ledger]
          by_cases known : row.eventIdHex ∈ represented
          · rw [if_pos known]
            exact passed _ open_ below (by simp [Kept, known]) rfl
          · rw [if_neg known]
            split
            · rename_i full
              exact stopped _ rfl (fun _ => ⟨below, full.1⟩) fun free => by cases free
            · refine passed _ open_ below ?_ rfl
              have kept : Kept represented row := ⟨⟨by simpa using reserved, ledger⟩, known⟩
              simp [kept]

/-- The rows ahead of a cursor, up to a ceiling. -/
def SourceLog.ahead (source : SourceLog) (after : Option Nat) (sourceCeiling : Nat) :
    List SourceRow :=
  (rowsAfter SourceRow.sequence after source.rows).filter fun row => row.sequence ≤ sourceCeiling

/-- A ceiling a source has shown: the sequence of one of its rows, or zero. -/
def SourceLog.Shows (source : SourceLog) (sequence : Nat) : Prop :=
  sequence = 0 ∨ ∃ row ∈ source.rows, row.sequence = sequence

/-- A source shows its frontier. -/
theorem SourceLog.shows_frontier (source : SourceLog) : source.Shows source.frontier := by
  unfold SourceLog.frontier
  cases last : source.rows.getLast? with
  | none => exact Or.inl rfl
  | some row => exact Or.inr ⟨row, List.mem_of_getLast? last, rfl⟩

/-- A row of a source is ahead of a cursor where it is past it and not past the ceiling. -/
theorem SourceLog.mem_ahead {source : SourceLog} {after : Option Nat} {sourceCeiling : Nat}
    {row : SourceRow} : row ∈ source.ahead after sourceCeiling ↔
      row ∈ source.rows ∧ (∀ bound ∈ after, bound < row.sequence) ∧ row.sequence ≤ sourceCeiling := by
  unfold SourceLog.ahead rowsAfter
  rw [List.mem_filter, List.mem_filter]
  cases after with
  | none => simp
  | some bound => simp [and_assoc]

/-- What a page is of the rows ahead: the kept ones of a leading part, which is not empty where
there are any; more are reported exactly where some are left. -/
structure PageOf (source : SourceLog) (after : Option Nat) (sourceCeiling : Nat)
    (represented : List String) (page : ImportPage) (done rest : List SourceRow) : Prop where
  split : source.ahead after sourceCeiling = done ++ rest
  events : page.events = (done.filter (Kept represented)).map SourceRow.importEvent
  watermark : page.highWatermark = (done.getLast?.map SourceRow.sequence).or after
  progress : source.ahead after sourceCeiling ≠ [] → done ≠ []
  more : source.Shows sourceCeiling → (page.hasMore = true ↔ rest ≠ [])

/-- The spec of a page. -/
theorem readImportPage_spec {limits : PageLimits} (positive : 0 < limits.rows) (source : SourceLog)
    (after : Option Nat) (sourceCeiling : Nat) (represented : List String) :
    ∃ done rest, PageOf source after sourceCeiling represented
      (readImportPage limits source after sourceCeiling represented) done rest := by
  let past := rowsAfter SourceRow.sequence after source.rows
  let taken := pageAfter SourceRow.sequence limits.rows source.rows after
  let start : PageScan := { page := { highWatermark := after } }
  let scan := scanRows limits.payloadBytes sourceCeiling represented taken start
  obtain ⟨done, left, told⟩ := scanRows_spec limits.payloadBytes sourceCeiling represented taken
    start rfl
  have whole : past = done ++ (left ++ past.drop limits.rows) := by
    have parts : taken ++ past.drop limits.rows = past := List.take_append_drop limits.rows past
    rw [← List.append_assoc, ← told.split, parts]
  have ordered : Ordered SourceRow.sequence past := source.ordered.filter _
  have reached : done.filter (fun row => row.sequence ≤ sourceCeiling) = done := by
    apply List.filter_eq_self.mpr
    intro row member
    exact decide_eq_true (told.under row member)
  let rest := (left ++ past.drop limits.rows).filter fun row => row.sequence ≤ sourceCeiling
  have split : source.ahead after sourceCeiling = done ++ rest := by
    show past.filter _ = _
    rw [whole, List.filter_append, reached]
  have watermark : scan.page.highWatermark = (done.getLast?.map SourceRow.sequence).or after :=
    told.watermark
  have hit : scan.hitPayloadBudget = true → rest ≠ [] ∧ scan.page.events ≠ [] := by
    intro full
    rcases told.budget full with before | ⟨row, head, below, some_⟩
    · cases before
    · refine ⟨?_, some_⟩
      have member : row ∈ rest := by
        apply List.mem_filter.mpr
        exact ⟨List.mem_append_left _ (List.mem_of_mem_head? head), decide_eq_true below⟩
      exact List.ne_nil_of_mem member
  have progress : source.ahead after sourceCeiling ≠ [] → done ≠ [] := by
    intro some_ none_
    rw [split, none_, List.nil_append] at some_
    cases full : scan.hitPayloadBudget with
    | true =>
      have events := (hit full).2
      apply events
      show scan.page.events = []
      rw [told.events, none_]
      rfl
    | false =>
      rw [none_, List.nil_append] at whole
      cases first : past with
      | nil =>
        have nothing : left ++ past.drop limits.rows = [] := whole.symm.trans first
        exact some_ (by show List.filter _ _ = []; rw [nothing]; rfl)
      | cons row others =>
        have head : left.head? = some row := by
          have front : taken = left := by rw [told.split, none_, List.nil_append]
          have shown : taken = (row :: others).take limits.rows := by
            show past.take limits.rows = _
            rw [first]
          rw [← front, shown]
          cases count : limits.rows with
          | zero => omega
          | succ count => rfl
        have high := told.ended full row head
        apply some_
        apply List.filter_eq_nil_iff.mpr
        intro other member
        rw [← whole, first] at member
        rw [first] at ordered
        have above : row.sequence ≤ other.sequence := by
          rcases List.mem_cons.mp member with rfl | later
          · exact Nat.le_refl _
          · exact Nat.le_of_lt ((List.pairwise_cons.mp ordered).1 other later)
        simp only [decide_eq_true_eq]
        omega
  refine ⟨done, rest, split, ?_, watermark, progress, ?_⟩
  · show scan.page.events = _
    rw [told.events]
    rfl
  · intro shows
    show (scan.hitPayloadBudget || scan.page.highWatermark.any fun seen =>
      decide (seen < sourceCeiling)) = true ↔ rest ≠ []
    rw [Bool.or_eq_true, watermark]
    have aheadOrdered : Ordered SourceRow.sequence (done ++ rest) := by
      rw [← split]
      exact ordered.filter _
    constructor
    · rintro (full | below) none_
      · exact (hit full).1 none_
      · cases last : done.getLast? with
        | none =>
          have empty := List.getLast?_eq_none_iff.mp last
          rw [last] at below
          cases after with
          | none => cases below
          | some bound =>
            have under : bound < sourceCeiling := by simpa using below
            rcases shows with zero | ⟨row, member, same⟩
            · omega
            · have inside : row ∈ source.ahead (some bound) sourceCeiling := by
                rw [SourceLog.mem_ahead]
                refine ⟨member, ?_, by omega⟩
                intro limit found
                cases found
                omega
              rw [split, empty, none_] at inside
              cases inside
        | some row =>
          rw [last] at below
          have under : row.sequence < sourceCeiling := by simpa using below
          rcases shows with zero | ⟨top, member, same⟩
          · omega
          · have rowAhead : row ∈ source.ahead after sourceCeiling := by
              rw [split]
              exact List.mem_append_left _ (List.mem_of_getLast? last)
            obtain ⟨_, beyond, _⟩ := SourceLog.mem_ahead.mp rowAhead
            have inside : top ∈ source.ahead after sourceCeiling := by
              rw [SourceLog.mem_ahead]
              refine ⟨member, ?_, by omega⟩
              intro bound found
              have lower := beyond bound found
              omega
            rw [split, none_, List.append_nil] at inside
            rw [none_, List.append_nil] at aheadOrdered
            have bound := aheadOrdered.le_getLast last inside
            omega
    · intro some_
      right
      obtain ⟨next, member⟩ := List.exists_mem_of_ne_nil rest some_
      have inside : next ∈ source.ahead after sourceCeiling := by
        rw [split]
        exact List.mem_append_right _ member
      obtain ⟨_, _, below⟩ := SourceLog.mem_ahead.mp inside
      have filled := progress (List.ne_nil_of_mem inside)
      cases last : done.getLast? with
      | none => exact absurd (List.getLast?_eq_none_iff.mp last) filled
      | some row =>
        have apart := (List.pairwise_append.mp aheadOrdered).2.2 row (List.mem_of_getLast? last)
          next member
        have under : row.sequence < sourceCeiling := by omega
        simpa using under

/-- What is ahead of a page's watermark is what the page left. -/
theorem PageOf.ahead_watermark {source : SourceLog} {after : Option Nat} {sourceCeiling : Nat}
    {represented : List String} {page : ImportPage} {done rest : List SourceRow}
    (told : PageOf source after sourceCeiling represented page done rest) :
    source.ahead page.highWatermark sourceCeiling = rest := by
  rw [told.watermark]
  cases last : done.getLast? with
  | none =>
    have empty := List.getLast?_eq_none_iff.mp last
    have split := told.split
    rw [empty] at split
    exact split
  | some row =>
    have ordered : Ordered SourceRow.sequence (done ++ rest) := by
      rw [← told.split]
      exact (source.ordered.filter _).filter _
    have later := rowsAfter_last ordered last
    rw [← told.split] at later
    have rowAhead : row ∈ source.ahead after sourceCeiling := by
      rw [told.split]
      exact List.mem_append_left _ (List.mem_of_getLast? last)
    obtain ⟨_, beyond, _⟩ := SourceLog.mem_ahead.mp rowAhead
    rw [← later]
    unfold SourceLog.ahead
    show (rowsAfter _ (some row.sequence) source.rows).filter _ = _
    rw [← rowsAfter_rowsAfter source.rows fun bound found => Nat.le_of_lt (beyond bound found)]
    unfold rowsAfter
    rw [List.filter_filter, List.filter_filter, List.filter_filter, List.filter_filter]
    apply List.filter_congr
    intro other _
    cases decide (other.sequence ≤ sourceCeiling) <;> simp [Bool.and_comm]

/-- The first sequence that a cursor has not reached. -/
def reached (after : Option Nat) : Nat := after.elim 0 (· + 1)

/-- A row is ahead of a cursor where the cursor has not reached it. -/
theorem SourceLog.mem_ahead_iff {source : SourceLog} {after : Option Nat} {sourceCeiling : Nat}
    {row : SourceRow} : row ∈ source.ahead after sourceCeiling ↔
      row ∈ source.rows ∧ reached after ≤ row.sequence ∧ row.sequence ≤ sourceCeiling := by
  rw [SourceLog.mem_ahead]
  cases after with
  | none => simp [reached]
  | some bound => simp [reached, Nat.succ_le_iff]

/-- The rows ahead of a cursor by what it has reached. -/
theorem SourceLog.ahead_eq (source : SourceLog) (after : Option Nat)
    (sourceCeiling : Nat) : source.ahead after sourceCeiling = source.rows.filter fun row =>
      decide (reached after ≤ row.sequence ∧ row.sequence ≤ sourceCeiling) := by
  unfold SourceLog.ahead rowsAfter
  rw [List.filter_filter]
  apply List.filter_congr
  intro row _
  cases after with
  | none => simp [reached]
  | some bound =>
    by_cases below : row.sequence ≤ sourceCeiling
    · simp [reached, below, Nat.succ_le_iff]
    · simp [below]

/-- A page never goes back. -/
theorem PageOf.reached_le {source : SourceLog} {after : Option Nat} {sourceCeiling : Nat}
    {represented : List String} {page : ImportPage} {done rest : List SourceRow}
    (told : PageOf source after sourceCeiling represented page done rest) :
    reached after ≤ reached page.highWatermark := by
  rw [told.watermark]
  cases last : done.getLast? with
  | none => exact Nat.le_refl _
  | some row =>
    have ahead : row ∈ source.ahead after sourceCeiling := by
      rw [told.split]
      exact List.mem_append_left _ (List.mem_of_getLast? last)
    have past := (SourceLog.mem_ahead_iff.mp ahead).2.1
    show reached after ≤ row.sequence + 1
    omega

/-- A page goes over all rows between its cursors. -/
theorem PageOf.done_eq {source : SourceLog} {after : Option Nat} {sourceCeiling : Nat}
    {represented : List String} {page : ImportPage} {done rest : List SourceRow}
    (told : PageOf source after sourceCeiling represented page done rest) :
    done = source.rows.filter fun row =>
      decide (reached after ≤ row.sequence ∧ row.sequence < reached page.highWatermark) := by
  have ordered : Ordered SourceRow.sequence (done ++ rest) := by
    rw [← told.split]
    exact (source.ordered.filter _).filter _
  have below : ∀ row ∈ done, row.sequence < reached page.highWatermark := by
    intro row member
    rw [told.watermark]
    cases last : done.getLast? with
    | none =>
      rw [List.getLast?_eq_none_iff.mp last] at member
      cases member
    | some final =>
      have bound := ordered.of_append.1.le_getLast last member
      show row.sequence < final.sequence + 1
      omega
  have above : ∀ row ∈ rest, reached page.highWatermark ≤ row.sequence := by
    intro row member
    rw [told.watermark]
    cases last : done.getLast? with
    | none =>
      have ahead : row ∈ source.ahead after sourceCeiling := by
        rw [told.split]
        exact List.mem_append_right _ member
      exact (SourceLog.mem_ahead_iff.mp ahead).2.1
    | some final =>
      have apart := ordered.of_append.2.2 final (List.mem_of_getLast? last) row member
      show final.sequence + 1 ≤ row.sequence
      omega
  have cut : (done ++ rest).filter (fun row => decide (row.sequence < reached page.highWatermark)) =
      done := by
    have kept : done.filter (fun row => decide (row.sequence < reached page.highWatermark)) = done := by
      apply List.filter_eq_self.mpr
      intro row member
      exact decide_eq_true (below row member)
    have dropped : rest.filter (fun row => decide (row.sequence < reached page.highWatermark)) = [] := by
      apply List.filter_eq_nil_iff.mpr
      intro row member
      have past := above row member
      simp only [decide_eq_true_eq]
      omega
    rw [List.filter_append, kept, dropped, List.append_nil]
  have under : ∀ row ∈ source.rows, row.sequence < reached page.highWatermark →
      reached after ≤ row.sequence → row.sequence ≤ sourceCeiling := by
    intro row _ before past
    rw [told.watermark] at before
    cases last : done.getLast? with
    | none =>
      rw [last] at before
      have same : row.sequence < reached after := before
      omega
    | some final =>
      rw [last] at before
      have ahead : final ∈ source.ahead after sourceCeiling := by
        rw [told.split]
        exact List.mem_append_left _ (List.mem_of_getLast? last)
      have limit := (SourceLog.mem_ahead_iff.mp ahead).2.2
      have within : row.sequence < final.sequence + 1 := before
      omega
  rw [← cut, ← told.split, SourceLog.ahead_eq, List.filter_filter]
  apply List.filter_congr
  intro row member
  have limit := under row member
  rw [Bool.eq_iff_iff, Bool.and_eq_true, decide_eq_true_eq, decide_eq_true_eq, decide_eq_true_eq]
  constructor
  · intro ⟨before, past, _⟩
    exact ⟨past, before⟩
  · intro ⟨past, before⟩
    exact ⟨before, past, limit before past⟩

end Texo.Replication
