import Texo.Replication.Imported

/-! # The page exchange

A replica of another host asks its source for one page after another. A request names the cursor
with its anchor and, from the second on, the ceiling that the first response froze; the server
answers only requests under its own secret, for its own journal, whose anchor it still has. The
replica checks each response against what it knows, and each event against its own evidence.
-/
namespace Texo.Replication
open Texo.Foundation Texo.Knowledge Texo.Ops

/-- `PageAuthBody`: what a request's tag is made over. -/
structure PageAuthBody where
  schemaVersion : Nat
  workspaceId : String
  sourceJournal : String
  after : Option Nat
  afterAnchorEventIdHex : Option String
  sourceCeiling : Option Nat
deriving DecidableEq, Repr

/-- The tag of a body under a secret: the keyed hash of its canonical bytes, under the key that is
derived from the secret. -/
class PageAuth where
  tag : String → PageAuthBody → Vector UInt8 32

/-- `PageRequest`. -/
structure PageRequest extends PageAuthBody where
  authTag : Vector UInt8 32

/-- `PageRequest::authentication_tag`. -/
def PageRequest.authenticationTag [PageAuth] (request : PageRequest) (secret : String) :
    Vector UInt8 32 := PageAuth.tag secret request.toPageAuthBody

/-- `PageRequest::authenticated`. -/
def PageRequest.authenticated [PageAuth] (secret workspaceId sourceJournal : String)
    (after : Option Nat) (afterAnchorEventIdHex : Option String) (sourceCeiling : Option Nat) :
    PageRequest :=
  let body : PageAuthBody := ⟨2, workspaceId, sourceJournal, after, afterAnchorEventIdHex,
    sourceCeiling⟩
  { body with authTag := PageAuth.tag secret body }

/-- `constant_time_equal`. -/
def constantTimeEqual (left right : Vector UInt8 32) : Bool :=
  (left.toList.zip right.toList).foldl (fun difference pair => difference ||| (pair.1 ^^^ pair.2))
    0 = 0

/-- `RemoteImportEvent`. -/
structure RemoteImportEvent where
  source : SourceEventRef
  entity : String
  scope : String
  kindRaw : UInt16
  payload : List UInt8
  correlationId : BitVec 128
deriving DecidableEq

/-- `ImportEvent::into_remote`. -/
def ImportEvent.intoRemote (event : ImportEvent) : RemoteImportEvent where
  source := event.source
  entity := event.entity
  scope := event.scope
  kindRaw := event.kind
  payload := event.payload
  correlationId := event.correlationId

/-- `valid_event_id_hex`. -/
def validEventIdHex (value : String) : Bool := isLowerHex value 32

/-- `PageResponse`. -/
structure PageResponse where
  schemaVersion : Nat
  workspaceId : String
  sourceJournal : String
  sourceCeiling : Nat
  sourceCeilingAnchorEventIdHex : Option String
  highWatermark : Option Nat
  highWatermarkAnchorEventIdHex : Option String
  skippedReserved : Nat
  skippedOperational : Nat
  hasMore : Bool
  events : List RemoteImportEvent
deriving DecidableEq

/-- `HandlerError`. -/
inductive HandlerError where
  | invalidInput (detail : String)
  | failed (detail : String)
deriving DecidableEq, Repr

/-- `Server`: what is served, and under which secret. -/
structure PageServer where
  workspaceId : String
  journalId : String
  token : String
deriving DecidableEq, Repr

/-- `RemoteProgress`. -/
structure RemoteProgress where
  after : Option Nat := none
  afterAnchor : Option String := none
  sourceCeiling : Option Nat := none
  sourceCeilingAnchor : Option String := none
  imported : Nat := 0
  deduplicated : Nat := 0
  skippedReserved : Nat := 0
  skippedOperational : Nat := 0
deriving DecidableEq, Repr

/-- `committed_after`. -/
def committedAfter (imported : Nat) : Committed := if imported = 0 then .no else .partially

/-- `validate_remote_response`. -/
def validateRemoteResponse (circuit : Circuit) (after expectedCeiling : Option Nat)
    (expectedCeilingAnchor : Option String) (response : PageResponse) (imported : Nat) :
    Except ReplicationError Unit :=
  let bindingMatches := response.schemaVersion = 1 && response.workspaceId = circuit.workspaceId &&
    response.sourceJournal = circuit.sourceJournal
  let ceilingMatches := expectedCeiling.all fun ceiling => response.sourceCeiling = ceiling
  let ceilingAnchorStable := expectedCeilingAnchor.all fun anchor =>
    response.sourceCeilingAnchorEventIdHex = some anchor
  let ceilingAnchorMatches := response.sourceCeiling = 0 ||
    response.sourceCeilingAnchorEventIdHex.isSome
  let cursorValid := match response.highWatermark with
    | some high => after.all (fun previous => previous ≤ high) && high ≤ response.sourceCeiling &&
        response.highWatermarkAnchorEventIdHex.isSome
    | none => after.isNone && response.highWatermarkAnchorEventIdHex.isNone
  let completedAtCeiling := response.hasMore || response.sourceCeiling = 0 ||
    (response.highWatermark = some response.sourceCeiling &&
      response.highWatermarkAnchorEventIdHex = response.sourceCeilingAnchorEventIdHex)
  require (bindingMatches && ceilingMatches && ceilingAnchorStable && ceilingAnchorMatches &&
      cursorValid && completedAtCeiling)
    ⟨.verification, committedAfter imported, "remote replica response evidence is inconsistent"⟩

variable [StoreKinds]

/-- `ImportEvent::from_remote`. -/
def ImportEvent.fromRemote (remote : RemoteImportEvent) : Except String ImportEvent :=
  match StoreKinds.tryCustom (remote.kindRaw >>> 12) (remote.kindRaw &&& 0x0fff) with
  | none => .error "remote event kind"
  | some kind => do
    require (kind = remote.kindRaw) "remote event kind did not round-trip"
    require (remote.source.kindRaw = remote.kindRaw ∧
        validEventIdHex remote.source.eventIdHex = true ∧
        StoreKinds.computeHash remote.payload = remote.source.contentHash)
      "remote event source evidence mismatch"
    require (StoreKinds.coordinate remote.entity remote.scope = true) "remote event coordinate"
    .ok
      { source := remote.source
        entity := remote.entity
        scope := remote.scope
        kind := kind
        payload := remote.payload
        correlationId := remote.correlationId }

/-- `validate_request_anchor`. -/
def validateRequestAnchor (store : SourceLog) (request : PageRequest) : Except HandlerError Unit :=
  match request.after, request.afterAnchorEventIdHex with
  | none, none => .ok ()
  | some sequence, some expected =>
    require (store.eventIdAt sequence = some expected)
      (.invalidInput "source cursor anchor mismatch")
  | _, _ => .error (.invalidInput "source cursor anchor mismatch")

/-- `PageHandler::handle`. -/
def handlePage [PageAuth] (server : PageServer) (limits : PageLimits) (store : SourceLog)
    (request : PageRequest) : Except HandlerError PageResponse := do
  require (request.schemaVersion = 2) (.invalidInput "unsupported replica request schema")
  require (constantTimeEqual request.authTag (request.authenticationTag server.token) = true)
    (.failed "replica authentication failed")
  require (request.workspaceId = server.workspaceId ∧ request.sourceJournal = server.journalId)
    (.invalidInput "replica source binding mismatch")
  validateRequestAnchor store request
  let sourceCeiling := request.sourceCeiling.getD store.frontier
  require (sourceCeiling ≤ store.frontier)
    (.invalidInput "source ceiling exceeds visible frontier")
  let page := readImportPage limits store request.after sourceCeiling []
  .ok
    { schemaVersion := 1
      workspaceId := server.workspaceId
      sourceJournal := server.journalId
      sourceCeiling := sourceCeiling
      sourceCeilingAnchorEventIdHex := store.eventIdAt sourceCeiling
      highWatermark := page.highWatermark
      highWatermarkAnchorEventIdHex := page.highWatermark.bind store.eventIdAt
      skippedReserved := page.skippedReserved
      skippedOperational := page.skippedOperational
      hasMore := page.hasMore
      events := page.events.map ImportEvent.intoRemote }

/-- What checking the events of a response has gathered before one event. -/
structure EventScan where
  events : List ImportEvent := []
  priorSequence : Option Nat
  deduplicated : Nat
  represented : List String
deriving DecidableEq

/-- The loop of `validate_remote_events`. -/
def validateRemoteEvent (response : PageResponse) (imported : Nat) (scan : EventScan)
    (remote : RemoteImportEvent) : Except ReplicationError EventScan :=
  let sequence := remote.source.globalSequence
  if scan.priorSequence.any (fun prior => sequence ≤ prior) ∨ response.sourceCeiling < sequence ∨
      response.highWatermark.all (fun high => high < sequence) then
    .error ⟨.verification, committedAfter imported, "remote replica page event order is invalid"⟩
  else if remote.source.eventIdHex ∈ scan.represented then
    .ok { scan with priorSequence := some sequence, deduplicated := scan.deduplicated + 1 }
  else
    match ImportEvent.fromRemote remote with
    | .error detail => .error ⟨.verification, committedAfter imported,
        "remote replica event failed validation: " ++ detail⟩
    | .ok event => .ok
        { scan with
          events := scan.events ++ [event]
          priorSequence := some sequence
          represented := scan.represented ++ [event.source.eventIdHex] }

/-- `validate_remote_events`. -/
def validateRemoteEvents (response : PageResponse) (progress : RemoteProgress)
    (represented : List String) : Except ReplicationError EventScan :=
  response.events.foldlM (validateRemoteEvent response progress.imported)
    { priorSequence := progress.after
      deduplicated := progress.deduplicated
      represented := represented }

/-- What a page leaves of the state of its run. -/
structure RemotePage where
  destination : List ReplicaRow
  represented : List String
  progress : RemoteProgress

/-- The events of a page with their ledger, where there are any. -/
def appendRemote (circuit : Circuit) (destination : List ReplicaRow) (events : List ImportEvent)
    (imported : Nat) : Except ReplicationError (List ReplicaRow × Nat) :=
  if events = [] then
    .ok (destination, imported)
  else
    match appendWithLedger destination circuit.namespace events
      (replicaLedgerItem circuit circuit.namespace events) with
    | none => .error ⟨.substrate, committedAfter imported, "atomic remote replica batch failed"⟩
    | some (grown, count) => .ok (grown, imported + count)

/-- `materialize_remote_page`. -/
def materializeRemotePage (circuit : Circuit) (destination : List ReplicaRow)
    (represented : List String) (progress : RemoteProgress) (response : PageResponse) :
    Except ReplicationError RemotePage := do
  validateRemoteResponse circuit progress.after progress.sourceCeiling progress.sourceCeilingAnchor
    response progress.imported
  require (¬ (response.highWatermark = progress.after ∧ response.hasMore = true))
    ⟨.verification, committedAfter progress.imported, "remote replica page made no cursor progress"⟩
  let scan ← validateRemoteEvents response progress represented
  let (grown, imported) ← appendRemote circuit destination scan.events progress.imported
  .ok
    { destination := grown
      represented := scan.represented
      progress :=
        { after := response.highWatermark
          afterAnchor := response.highWatermarkAnchorEventIdHex
          sourceCeiling := some response.sourceCeiling
          sourceCeilingAnchor := response.sourceCeilingAnchorEventIdHex
          imported := imported
          deduplicated := scan.deduplicated
          skippedReserved := progress.skippedReserved + response.skippedReserved
          skippedOperational := progress.skippedOperational + response.skippedOperational } }

omit [StoreKinds] in
/-- The difference of two byte strings is zero exactly where each pair of bytes is alike. -/
theorem foldl_difference (pairs : List (UInt8 × UInt8)) (difference : UInt8) :
    pairs.foldl (fun difference pair => difference ||| (pair.1 ^^^ pair.2)) difference = 0 ↔
      difference = 0 ∧ ∀ pair ∈ pairs, pair.1 = pair.2 := by
  induction pairs generalizing difference with
  | nil => simp
  | cons pair rest ih =>
    rw [List.foldl_cons, ih, UInt8.or_eq_zero_iff, UInt8.xor_eq_zero_iff, List.forall_mem_cons,
      and_assoc]

omit [StoreKinds] in
/-- Tags compare equal exactly where they are the same. -/
theorem constantTimeEqual_iff {left right : Vector UInt8 32} :
    constantTimeEqual left right = true ↔ left = right := by
  unfold constantTimeEqual
  rw [decide_eq_true_eq, foldl_difference]
  constructor
  · rintro ⟨_, alike⟩
    apply Vector.toList_inj.mp
    apply List.ext_getElem (by simp)
    intro index first second
    apply alike (left.toList[index], right.toList[index])
    rw [← List.getElem_zip (h := by simpa using first)]
    exact List.getElem_mem _
  · rintro rfl
    refine ⟨rfl, ?_⟩
    intro pair member
    obtain ⟨index, bound, rfl⟩ := List.getElem_of_mem member
    rw [List.getElem_zip]

/-- The copy of an importable row comes back from its transport form. -/
theorem fromRemote_intoRemote {source : SourceLog} {row : SourceRow} (member : row ∈ source.rows)
    (importable : Importable row) :
    ImportEvent.fromRemote row.importEvent.intoRemote = .ok row.importEvent := by
  let remote := row.importEvent.intoRemote
  have kind : StoreKinds.tryCustom (remote.kindRaw >>> 12) (remote.kindRaw &&& 0x0fff) =
      some remote.kindRaw := StoreKinds.custom_free row.kindRaw importable.1
  have evidence : remote.source.kindRaw = remote.kindRaw ∧
      validEventIdHex remote.source.eventIdHex = true ∧
      StoreKinds.computeHash remote.payload = remote.source.contentHash :=
    ⟨rfl, isLowerHex_lowerHex32 row.eventId, (source.hashed row member).symm⟩
  have located : StoreKinds.coordinate remote.entity remote.scope = true :=
    source.located row member
  show ImportEvent.fromRemote remote = _
  unfold ImportEvent.fromRemote
  rw [kind]
  dsimp only
  exact bind_eq_ok.mpr ⟨(), require_eq_ok.mpr rfl, bind_eq_ok.mpr ⟨(), require_eq_ok.mpr evidence,
    bind_eq_ok.mpr ⟨(), require_eq_ok.mpr located, rfl⟩⟩⟩

/-- What an honest response says of its source: the importable rows from a cursor to its watermark,
which is past the cursor where more is said to follow and at the ceiling where not. -/
structure Answers (circuit : Circuit) (source : SourceLog) (after : Option Nat)
    (response : PageResponse) : Prop where
  named : response.schemaVersion = 1 ∧ response.workspaceId = circuit.workspaceId ∧
    response.sourceJournal = circuit.sourceJournal
  shown : source.Shows response.sourceCeiling
  anchor : 0 < response.sourceCeiling →
    response.sourceCeilingAnchorEventIdHex = source.eventIdAt response.sourceCeiling
  marked : source.Marks response.highWatermark
  highAnchor : response.highWatermarkAnchorEventIdHex =
    response.highWatermark.bind source.eventIdAt
  forward : reached after ≤ reached response.highWatermark
  before : ∀ sequence ∈ response.highWatermark, sequence ≤ response.sourceCeiling
  events : response.events = (source.rows.filter fun row =>
    decide (Importable row ∧ reached after ≤ row.sequence ∧
      row.sequence < reached response.highWatermark)).map fun row => row.importEvent.intoRemote
  more : response.hasMore = true →
    reached after < reached response.highWatermark ∧ 0 < response.sourceCeiling
  ended : response.hasMore = false → 0 < response.sourceCeiling →
    response.highWatermark = some response.sourceCeiling

section Answering

variable {circuit : Circuit} {source later : SourceLog} {after : Option Nat}
  {response : PageResponse}

/-- A shown sequence past zero is at a row. -/
theorem SourceLog.Shows.marks {sequence : Nat} (shown : source.Shows sequence)
    (positive : 0 < sequence) : source.Marks (some sequence) := by
  intro other found
  cases found
  rcases shown with zero | row
  · omega
  · exact row

/-- A response stays honest while the source grows. -/
theorem Answers.grows (answers : Answers circuit source after response)
    (grows : source.Extends later) : Answers circuit later after response := by
  refine ⟨answers.named, grows.shows answers.shown, ?_, grows.marks answers.marked, ?_,
    answers.forward, answers.before, ?_, answers.more, answers.ended⟩
  · intro positive
    rw [answers.anchor positive]
    exact (grows.eventIdAt (answers.shown.marks positive _ rfl)).symm
  · rw [answers.highAnchor]
    exact (grows.anchor answers.marked).symm
  · rw [answers.events]
    congr 1
    apply Eq.symm
    apply grows.filter_eq answers.marked.bounds
    intro row kept
    exact (of_decide_eq_true kept).2.2

/-- What a page of a source says is honest. -/
theorem PageOf.answers {page : ImportPage} {sourceCeiling : Nat} {done rest : List SourceRow}
    (told : PageOf source after sourceCeiling [] page done rest) (marked : source.Marks after)
    (before : ∀ sequence ∈ after, sequence ≤ sourceCeiling) (shown : source.Shows sourceCeiling) :
    Answers circuit source after
      { schemaVersion := 1
        workspaceId := circuit.workspaceId
        sourceJournal := circuit.sourceJournal
        sourceCeiling := sourceCeiling
        sourceCeilingAnchorEventIdHex := source.eventIdAt sourceCeiling
        highWatermark := page.highWatermark
        highWatermarkAnchorEventIdHex := page.highWatermark.bind source.eventIdAt
        skippedReserved := page.skippedReserved
        skippedOperational := page.skippedOperational
        hasMore := page.hasMore
        events := page.events.map ImportEvent.intoRemote } := by
  refine ⟨⟨rfl, rfl, rfl⟩, shown, fun _ => rfl, told.marks marked, rfl, told.reached_le,
    told.before before, ?_, ?_, ?_⟩
  · have rows : done.filter (Kept []) = source.rows.filter fun row =>
        decide (Importable row ∧ reached after ≤ row.sequence ∧
          row.sequence < reached page.highWatermark) := by
      rw [told.done_eq, List.filter_filter]
      apply List.filter_congr
      intro row _
      rw [Bool.eq_iff_iff, Bool.and_eq_true, decide_eq_true_eq, decide_eq_true_eq,
        decide_eq_true_eq]
      unfold Kept
      simp
    show page.events.map ImportEvent.intoRemote = _
    rw [told.events, List.map_map, rows]
    rfl
  · intro hasMore
    have some_ := (told.more shown).mp hasMore
    obtain ⟨next, member⟩ := List.exists_mem_of_ne_nil rest some_
    have inside : next ∈ source.ahead after sourceCeiling := by
      rw [told.split]
      exact List.mem_append_right _ member
    have filled := told.progress (List.ne_nil_of_mem inside)
    have watermark := told.watermark
    have ordered : Ordered SourceRow.sequence (done ++ rest) := by
      rw [← told.split]
      exact (source.ordered.filter _).filter _
    cases last : done.getLast? with
    | none => exact absurd (List.getLast?_eq_none_iff.mp last) filled
    | some row =>
      rw [last] at watermark
      have ahead : row ∈ source.ahead after sourceCeiling := by
        rw [told.split]
        exact List.mem_append_left _ (List.mem_of_getLast? last)
      have past := (SourceLog.mem_ahead_iff.mp ahead).2.1
      have below := (SourceLog.mem_ahead_iff.mp inside).2.2
      have apart := ordered.of_append.2.2 row (List.mem_of_getLast? last) next member
      have high : reached page.highWatermark = row.sequence + 1 := by
        rw [watermark]
        rfl
      show reached after < reached page.highWatermark ∧ 0 < sourceCeiling
      omega
  · intro drained positive
    apply told.ends before shown positive
    by_contra some_
    have hasMore := (told.more shown).mpr some_
    rw [show page.hasMore = false from drained] at hasMore
    cases hasMore

/-- An honest response passes the check of its client: it is of the circuit, keeps the ceiling and
its anchor, does not go back, and ends at the ceiling where no more is to follow. -/
theorem Answers.validates (answers : Answers circuit source after response)
    {expectedCeiling : Option Nat} {expectedCeilingAnchor : Option String} (imported : Nat)
    (frozen : ∀ ceiling ∈ expectedCeiling, response.sourceCeiling = ceiling)
    (stable : ∀ anchor ∈ expectedCeilingAnchor,
      response.sourceCeilingAnchorEventIdHex = some anchor) :
    validateRemoteResponse circuit after expectedCeiling expectedCeilingAnchor response imported =
      .ok () := by
  obtain ⟨schema, workspace, journal⟩ := answers.named
  have readable : ∀ sequence, source.Marks (some sequence) →
      (source.eventIdAt sequence).isSome = true := by
    intro sequence marked
    obtain ⟨row, member, same⟩ := marked sequence rfl
    rw [SourceLog.eventIdAt_eq_some.mpr ⟨row, member, same, rfl⟩]
    rfl
  have ceilingMatches : (expectedCeiling.all fun ceiling => response.sourceCeiling = ceiling) =
      true := by
    cases expectedCeiling with
    | none => rfl
    | some ceiling => exact decide_eq_true (frozen ceiling rfl)
  have ceilingAnchorStable : (expectedCeilingAnchor.all fun anchor =>
      response.sourceCeilingAnchorEventIdHex = some anchor) = true := by
    cases expectedCeilingAnchor with
    | none => rfl
    | some anchor => exact decide_eq_true (stable anchor rfl)
  have ceilingAnchorMatches : (decide (response.sourceCeiling = 0) ||
      response.sourceCeilingAnchorEventIdHex.isSome) = true := by
    by_cases zero : response.sourceCeiling = 0
    · rw [decide_eq_true zero]
      rfl
    · have positive : 0 < response.sourceCeiling := Nat.pos_of_ne_zero zero
      rw [answers.anchor positive, readable _ (answers.shown.marks positive), Bool.or_true]
  have cursorValid : (match response.highWatermark with
      | some high => after.all (fun previous => previous ≤ high) &&
          high ≤ response.sourceCeiling && response.highWatermarkAnchorEventIdHex.isSome
      | none => after.isNone && response.highWatermarkAnchorEventIdHex.isNone) = true := by
    have forward := answers.forward
    have anchor := answers.highAnchor
    cases high : response.highWatermark with
    | none =>
      rw [high] at forward anchor
      cases after with
      | none =>
        dsimp only
        rw [anchor]
        rfl
      | some previous =>
        have impossible : previous + 1 ≤ 0 := forward
        omega
    | some sequence =>
      rw [high] at forward anchor
      have marked := answers.marked
      rw [high] at marked
      have back : (after.all fun previous => previous ≤ sequence) = true := by
        cases after with
        | none => rfl
        | some previous =>
          have under : previous + 1 ≤ sequence + 1 := forward
          exact decide_eq_true (by omega)
      dsimp only
      rw [back, decide_eq_true (answers.before sequence high), anchor]
      exact readable sequence marked
  have completedAtCeiling : (response.hasMore || decide (response.sourceCeiling = 0) ||
      (decide (response.highWatermark = some response.sourceCeiling) &&
        decide (response.highWatermarkAnchorEventIdHex =
          response.sourceCeilingAnchorEventIdHex))) = true := by
    cases hasMore : response.hasMore with
    | true => rfl
    | false =>
      by_cases zero : response.sourceCeiling = 0
      · rw [decide_eq_true zero]
        rfl
      · have positive : 0 < response.sourceCeiling := Nat.pos_of_ne_zero zero
        have high := answers.ended hasMore positive
        have same : response.highWatermarkAnchorEventIdHex =
            response.sourceCeilingAnchorEventIdHex := by
          rw [answers.highAnchor, answers.anchor positive, high]
          rfl
        rw [decide_eq_true high, decide_eq_true same]
        simp
  unfold validateRemoteResponse
  dsimp only
  apply require_eq_ok.mpr
  rw [ceilingMatches, ceilingAnchorStable, ceilingAnchorMatches, cursorValid, completedAtCeiling,
    decide_eq_true schema, decide_eq_true workspace, decide_eq_true journal]
  rfl

/-- The rows of a response pass the checks of their events, and those that are not represented come
through. -/
theorem foldlM_validateRemoteEvent (response : PageResponse) (imported : Nat)
    {rows : List SourceRow} (scan : EventScan)
    (members : ∀ row ∈ rows, row ∈ source.rows ∧ Importable row)
    (ordered : Ordered SourceRow.sequence rows)
    (past : ∀ prior ∈ scan.priorSequence, ∀ row ∈ rows, prior < row.sequence)
    (below : ∀ row ∈ rows, row.sequence ≤ response.sourceCeiling ∧
      row.sequence < reached response.highWatermark) :
    ∃ prior count,
      (rows.map fun row => row.importEvent.intoRemote).foldlM
          (validateRemoteEvent response imported) scan =
        .ok
          { events := scan.events ++
              (rows.filter fun row => row.eventIdHex ∉ scan.represented).map SourceRow.importEvent
            priorSequence := prior
            deduplicated := count
            represented := scan.represented ++
              (rows.filter fun row => row.eventIdHex ∉ scan.represented).map
                SourceRow.eventIdHex } := by
  induction rows generalizing scan with
  | nil => exact ⟨scan.priorSequence, scan.deduplicated, by simp [pure, Except.pure]⟩
  | cons row rest ih =>
    obtain ⟨inside, importable⟩ := members row List.mem_cons_self
    obtain ⟨front, behind⟩ := List.pairwise_cons.mp ordered
    obtain ⟨limit, high⟩ := below row List.mem_cons_self
    have placed : ¬ (scan.priorSequence.any (fun prior => row.sequence ≤ prior) = true ∨
        response.sourceCeiling < row.sequence ∨
        response.highWatermark.all (fun high => high < row.sequence) = true) := by
      rintro (back | drained | beyond)
      · cases found : scan.priorSequence with
        | none =>
          rw [found] at back
          cases back
        | some prior =>
          rw [found] at back
          have under : row.sequence ≤ prior := by simpa using back
          have drained := past prior found row List.mem_cons_self
          omega
      · omega
      · cases watermark : response.highWatermark with
        | none =>
          rw [watermark] at high
          exact absurd high (Nat.not_lt_zero _)
        | some sequence =>
          rw [watermark] at high beyond
          have under : row.sequence < sequence + 1 := high
          have drained : sequence < row.sequence := by simpa using beyond
          omega
    rw [List.map_cons, List.foldlM_cons]
    by_cases known : row.eventIdHex ∈ scan.represented
    · let next : EventScan :=
        { scan with priorSequence := some row.sequence, deduplicated := scan.deduplicated + 1 }
      have stepped : validateRemoteEvent response imported scan row.importEvent.intoRemote =
          .ok next := by
        exact (if_neg placed).trans (if_pos known)
      obtain ⟨prior, count, whole⟩ := ih next
        (fun other member => members other (List.mem_cons_of_mem _ member)) behind
        (fun prior found other member => by cases found; exact front other member)
        (fun other member => below other (List.mem_cons_of_mem _ member))
      refine ⟨prior, count, ?_⟩
      rw [stepped, ok_bind, whole, List.filter_cons_of_neg (by simpa using known)]
    · let next : EventScan :=
        { scan with
          events := scan.events ++ [row.importEvent]
          priorSequence := some row.sequence
          represented := scan.represented ++ [row.eventIdHex] }
      have stepped : validateRemoteEvent response imported scan row.importEvent.intoRemote =
          .ok next := by
        refine (if_neg placed).trans ((if_neg known).trans ?_)
        rw [fromRemote_intoRemote inside importable]
        rfl
      obtain ⟨prior, count, whole⟩ := ih next
        (fun other member => members other (List.mem_cons_of_mem _ member)) behind
        (fun prior found other member => by cases found; exact front other member)
        (fun other member => below other (List.mem_cons_of_mem _ member))
      have same : (rest.filter fun other => other.eventIdHex ∉ next.represented) =
          rest.filter fun other => other.eventIdHex ∉ scan.represented := by
        apply List.filter_congr
        intro other member
        have apart : other.eventIdHex ≠ row.eventIdHex := by
          intro alike
          have listed := (members other (List.mem_cons_of_mem _ member)).1
          have later := front other member
          rw [SourceLog.eq_of_eventIdHex listed inside alike] at later
          omega
        show decide (other.eventIdHex ∉ scan.represented ++ [row.eventIdHex]) = _
        simp [apart]
      refine ⟨prior, count, ?_⟩
      rw [stepped, ok_bind, whole, same, List.filter_cons_of_pos (by simpa using known),
        List.map_cons, List.map_cons]
      show Except.ok (EventScan.mk (scan.events ++ [row.importEvent] ++ _) _ _
        (scan.represented ++ [row.eventIdHex] ++ _)) = _
      rw [List.append_assoc, List.append_assoc]
      rfl

/-- An honest response is taken in: what comes through is what is importable from the bound to its
watermark. -/
theorem materializeRemotePage_within {bound : Nat} {durable : Durable} {represented : List String}
    {progress : RemoteProgress} (holds : ImportedBelow circuit bound durable)
    (known : KnownPast durable.source bound progress.after represented)
    (answers : Answers circuit durable.source progress.after response)
    (frozen : ∀ ceiling ∈ progress.sourceCeiling, response.sourceCeiling = ceiling)
    (stable : ∀ anchor ∈ progress.sourceCeilingAnchor,
      response.sourceCeilingAnchorEventIdHex = some anchor) :
    ∃ left later, materializeRemotePage circuit durable.destination represented progress response =
        .ok left ∧ bound ≤ later ∧
      ImportedBelow circuit later { durable with destination := left.destination } ∧
      KnownPast durable.source later response.highWatermark left.represented ∧
      left.progress.after = response.highWatermark ∧
      left.progress.afterAnchor = response.highWatermarkAnchorEventIdHex ∧
      left.progress.sourceCeiling = some response.sourceCeiling ∧
      left.progress.sourceCeilingAnchor = response.sourceCeilingAnchorEventIdHex := by
  let later := max bound (reached response.highWatermark)
  let rows := durable.source.rows.filter fun row =>
    decide (Importable row ∧ reached progress.after ≤ row.sequence ∧
      row.sequence < reached response.highWatermark)
  let kept := rows.filter fun row => row.eventIdHex ∉ represented
  have forward : bound ≤ later := Nat.le_max_left _ _
  have bounds : durable.source.Bounds later := by
    rcases Nat.le_total (reached response.highWatermark) bound with lower | upper
    · rw [show later = bound from Nat.max_eq_left lower]
      exact holds.bounds
    · rw [show later = reached response.highWatermark from Nat.max_eq_right upper]
      exact answers.marked.bounds
  have inside : ∀ row ∈ rows, row ∈ durable.source.rows ∧ Importable row ∧
      reached progress.after ≤ row.sequence ∧ row.sequence < reached response.highWatermark := by
    intro row member
    obtain ⟨listed, told⟩ := List.mem_filter.mp member
    exact ⟨listed, of_decide_eq_true told⟩
  have between : kept = durable.source.rows.filter fun row => decide
      (Importable row ∧ bound ≤ row.sequence ∧ row.sequence < later) := by
    rw [← known.kept]
    show List.filter _ (List.filter _ _) = _
    rw [List.filter_filter]
    apply List.filter_congr
    intro row _
    rw [Bool.eq_iff_iff, Bool.and_eq_true, decide_eq_true_eq, decide_eq_true_eq, decide_eq_true_eq]
    unfold Kept
    constructor
    · rintro ⟨absent, importable, past, below⟩
      exact ⟨⟨importable, absent⟩, past, below⟩
    · rintro ⟨⟨importable, absent⟩, past, below⟩
      exact ⟨absent, importable, past, below⟩
  have marked : durable.source.Marks response.highWatermark := answers.marked
  have advanced := known.advance marked answers.forward
  have names : KnownPast durable.source later response.highWatermark
      (represented ++ kept.map SourceRow.eventIdHex) := by
    refine ⟨marked, Nat.le_max_right _ _, ?_, ?_⟩
    · intro eventIdHex member
      rcases List.mem_append.mp member with old | new
      · exact known.named eventIdHex old
      · obtain ⟨row, listed, named⟩ := List.mem_map.mp new
        exact ⟨row, (inside row (List.mem_filter.mp listed).1).1, named⟩
    · intro row member past importable
      rw [← advanced.known row member past importable, List.mem_append, or_iff_left]
      intro taken
      obtain ⟨other, listed, named⟩ := List.mem_map.mp taken
      have whole := inside other (List.mem_filter.mp listed).1
      rw [SourceLog.eq_of_eventIdHex whole.1 member named] at whole
      omega
  have validated := answers.validates progress.imported frozen stable
  have moves : ¬ (response.highWatermark = progress.after ∧ response.hasMore = true) := by
    rintro ⟨same, hasMore⟩
    have past := (answers.more hasMore).1
    rw [same] at past
    omega
  let scan : EventScan :=
    { priorSequence := progress.after
      deduplicated := progress.deduplicated
      represented := represented }
  have past : ∀ prior ∈ scan.priorSequence, ∀ row ∈ rows, prior < row.sequence := by
    intro prior found row member
    have beyond := (inside row member).2.2.1
    rw [show progress.after = some prior from found] at beyond
    exact beyond
  have below : ∀ row ∈ rows, row.sequence ≤ response.sourceCeiling ∧
      row.sequence < reached response.highWatermark := by
    intro row member
    have under := (inside row member).2.2.2
    refine ⟨?_, under⟩
    cases high : response.highWatermark with
    | none =>
      rw [high] at under
      exact absurd under (Nat.not_lt_zero _)
    | some sequence =>
      have limit := answers.before sequence high
      rw [high] at under
      have within : row.sequence < sequence + 1 := under
      omega
  obtain ⟨prior, count, scanned⟩ := foldlM_validateRemoteEvent response progress.imported scan
    (fun row member => ⟨(inside row member).1, (inside row member).2.1⟩)
    (durable.source.ordered.filter _) past below
  have events : validateRemoteEvents response progress represented =
      .ok { events := kept.map SourceRow.importEvent, priorSequence := prior,
            deduplicated := count, represented := represented ++ kept.map SourceRow.eventIdHex } := by
    unfold validateRemoteEvents
    rw [answers.events]
    exact scanned
  have taken := holds.take forward bounds (congrArg (List.map SourceRow.importEvent) between)
  have appended : ∃ grown imported, appendRemote circuit durable.destination
      (kept.map SourceRow.importEvent) progress.imported = .ok (grown, imported) ∧
      ImportedBelow circuit later { durable with destination := grown } := by
    unfold appendRemote
    split
    · rename_i nothing
      exact ⟨_, _, rfl, taken.1 nothing⟩
    · rename_i some_
      obtain ⟨grown, done, imported⟩ := taken.2 some_
      rw [show appendWithLedger _ _ _ _ = _ from done]
      exact ⟨_, _, rfl, imported⟩
  obtain ⟨grown, imported, done, held⟩ := appended
  let left : RemotePage :=
    { destination := grown
      represented := represented ++ kept.map SourceRow.eventIdHex
      progress :=
        { after := response.highWatermark
          afterAnchor := response.highWatermarkAnchorEventIdHex
          sourceCeiling := some response.sourceCeiling
          sourceCeilingAnchor := response.sourceCeilingAnchorEventIdHex
          imported := imported
          deduplicated := count
          skippedReserved := progress.skippedReserved + response.skippedReserved
          skippedOperational := progress.skippedOperational + response.skippedOperational } }
  refine ⟨left, later, ?_, forward, held, names, rfl, rfl, rfl, rfl⟩
  exact bind_eq_ok.mpr ⟨(), validated, bind_eq_ok.mpr ⟨(), require_eq_ok.mpr moves,
    bind_eq_ok.mpr ⟨_, events, bind_eq_ok.mpr ⟨_, done, rfl⟩⟩⟩⟩

end Answering

end Texo.Replication
