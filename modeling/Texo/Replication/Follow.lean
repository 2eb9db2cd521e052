import Texo.Replication.Imported

/-! # Following a source of the same host

A follower reads its cursor and the frontier of its source, waits for the store, and then imports
page by page. Several followers may have read the same cursor before one of them has the store; the
source appends all the while, and a run may stop anywhere between a batch and the saving of its
cursor. In every state that is reached the replica holds the importable rows of its source below
some bound, and a follower that is left alone brings it up to the frontier.
-/
namespace Texo.Replication
open Texo.Foundation

section Following

variable [StoreKinds]

/-- `LocalProgress`. -/
structure LocalProgress where
  after : Option Nat := none
  imported : Nat := 0
  deduplicated : Nat := 0
  skippedReserved : Nat := 0
  skippedOperational : Nat := 0
deriving DecidableEq, Repr

/-- A follower that has read where to start and how far to go. -/
structure LocalStart where
  after : Option Nat
  sourceCeiling : Nat
deriving DecidableEq, Repr

/-- A run that holds the store of its replica. -/
structure LocalRun where
  sourceCeiling : Nat
  represented : List String
  progress : LocalProgress
  materialized : Bool := false
deriving DecidableEq

/-- `unchanged_local_cursor`. -/
def unchangedLocalCursor (previous : Option ReplicaCursor) (sourceCeiling : Nat) :
    Option ReplicaCursor :=
  previous.filter fun cursor =>
    cursor.sourceHighWatermark = some sourceCeiling ||
      (sourceCeiling = 0 && cursor.sourceHighWatermark.isNone)

/-- The anchor of the last cursor, where there is one. -/
def validatePrevious (source : SourceLog) : Option ReplicaCursor → Except ReplicationError Unit
  | none => .ok ()
  | some cursor => validateSourceAnchor source cursor

/-- `import_from_cursor`, up to the opening of the destination; it ends here where the source has
not changed. -/
def startLocal (source : SourceLog) (previous : Option ReplicaCursor) :
    Except ReplicationError (Option LocalStart) := do
  validatePrevious source previous
  match unchangedLocalCursor previous source.frontier with
  | some _ => .ok none
  | none => .ok (some ⟨previous.bind ReplicaCursor.sourceHighWatermark, source.frontier⟩)

/-- `bootstrap`, of a read model whose source is on the same host. -/
def bootstrapLocal (circuit : Circuit) (durable : Durable) :
    Except ReplicationError (Option LocalStart) := do
  require (durable.destination = [])
    ⟨.destinationNotFresh, .no, "destination " ++ circuit.replicaPath ++ " is not empty"⟩
  startLocal durable.source none

/-- `follow_once`, where the source is on the same host. -/
def followLocal (circuit : Circuit) (durable : Durable) :
    Except ReplicationError (Option LocalStart) :=
  match durable.cursor with
  | none => .error ⟨.evidence, .no,
      "read " ++ circuit.cursorPath ++ ": No such file or directory (os error 2)"⟩
  | some cursor => do
    validateCursorBinding cursor circuit
    startLocal durable.source (some cursor)

/-- `import_from_cursor`, as it opens the destination. -/
def openLocal (circuit : Circuit) (destination : List ReplicaRow) (start : LocalStart) :
    Except ReplicationError LocalRun := do
  let represented ← circuit.represented destination
  .ok
    { sourceCeiling := start.sourceCeiling
      represented := represented
      progress := { after := start.after } }

/-- What a run has made out of one page. -/
def LocalRun.advance (run : LocalRun) (page : ImportPage) (count : Nat) : LocalRun :=
  { run with
    progress :=
      { after := page.highWatermark
        imported := run.progress.imported + count
        deduplicated := run.progress.deduplicated + page.deduplicated
        skippedReserved := run.progress.skippedReserved + page.skippedReserved
        skippedOperational := run.progress.skippedOperational + page.skippedOperational }
    materialized := decide (page.highWatermark = run.progress.after) || !page.hasMore }

/-- One round of `materialize_local_pages`. -/
def materializeLocalPage (circuit : Circuit) (limits : PageLimits) (durable : Durable)
    (run : LocalRun) : Except ReplicationError (List ReplicaRow × LocalRun) :=
  let page := readImportPage limits durable.source run.progress.after run.sourceCeiling
    run.represented
  if page.events = [] then
    .ok (durable.destination, run.advance page 0)
  else
    match appendWithLedger durable.destination circuit.namespace page.events
      (replicaLedgerItem circuit circuit.namespace page.events) with
    | none => .error ⟨.substrate, .unknown, "atomic replica batch failed"⟩
    | some (grown, count) => .ok (grown, run.advance page count)

/-- `finish_local_import`: the cursor it saves. -/
def finishLocalImport (circuit : Circuit) (source : SourceLog) (run : LocalRun) :
    Except ReplicationError ReplicaCursor :=
  let sourceAnchor := run.progress.after.bind source.eventIdAt
  if run.progress.after.isSome ∧ sourceAnchor.isNone then
    .error ⟨.anchorMismatch, .partially, "source high watermark has no readable anchor event"⟩
  else
    .ok
      { schemaVersion := stateSchemaVersion
        workspaceId := circuit.workspaceId
        sourceJournal := circuit.sourceJournal
        replicaJournal := circuit.replicaJournal
        sourceNamespace := circuit.namespace
        sourceEndpoint := none
        sourceHighWatermark := run.progress.after
        sourceAnchorEventIdHex := sourceAnchor }

/-- A replica with its followers: those that wait for its store, and the run that holds it. -/
structure LocalState where
  durable : Durable
  waiting : List LocalStart := []
  run : Option LocalRun := none

/-- What can happen. The store adds rows of its own where it is opened, and a follower that finds
it locked leaves. A run stops where a call of its store or of the file system fails, or it crashes. -/
inductive LocalAction where
  | sourceAppend (rows : List SourceRow)
  | storeOpened (row : ReplicaRow)
  | bootstrap
  | follow
  | openStore (index : Nat)
  | leave (index : Nat)
  | page
  | finish
  | stop

/-- A call that goes on waits for the store. -/
def LocalState.enqueue (state : LocalState) (started : Except ReplicationError (Option LocalStart)) :
    LocalState :=
  match started with
  | .ok (some start) => { state with waiting := state.waiting ++ [start] }
  | _ => state

/-- One action. A call that fails leaves what is durable as it is. -/
def LocalState.step (circuit : Circuit) (limits : PageLimits) (state : LocalState) :
    LocalAction → LocalState
  | .sourceAppend rows =>
    match state.durable.source.extend rows with
    | none => state
    | some source => { state with durable := { state.durable with source := source } }
  | .storeOpened row =>
    if StoreKinds.reserved row.kindRaw = true ∧ row.source = none ∧ row.key = none then
      { state with durable :=
        { state.durable with destination := state.durable.destination ++ [row] } }
    else
      state
  | .bootstrap => state.enqueue (bootstrapLocal circuit state.durable)
  | .follow => state.enqueue (followLocal circuit state.durable)
  | .openStore index =>
    match state.waiting[index]?, state.run with
    | some start, none =>
      match openLocal circuit state.durable.destination start with
      | .error _ => { state with waiting := state.waiting.eraseIdx index }
      | .ok run => { state with waiting := state.waiting.eraseIdx index, run := some run }
    | _, _ => { state with waiting := state.waiting.eraseIdx index }
  | .leave index => { state with waiting := state.waiting.eraseIdx index }
  | .page =>
    match state.run with
    | none => state
    | some run =>
      if run.materialized then
        state
      else
        match materializeLocalPage circuit limits state.durable run with
        | .error _ => { state with run := none }
        | .ok (destination, next) =>
          { state with
            durable := { state.durable with destination := destination }
            run := some next }
  | .finish =>
    match state.run with
    | none => state
    | some run =>
      if run.materialized then
        match finishLocalImport circuit state.durable.source run with
        | .error _ => { state with run := none }
        | .ok cursor =>
          { state with
            durable := { state.durable with cursor := some cursor }
            run := none }
      else
        state
  | .stop => { state with run := none }

/-- The state after some actions. -/
def LocalState.runAll (circuit : Circuit) (limits : PageLimits) (state : LocalState)
    (actions : List LocalAction) : LocalState :=
  actions.foldl (LocalState.step circuit limits) state

/-- A replica that nothing has been done with. -/
def LocalState.fresh (source : SourceLog) : LocalState := { durable := { source := source } }

/-- Where a follower starts is not past the bound, and how far it goes the source has shown. -/
structure LocalStart.Within (source : SourceLog) (bound : Nat) (start : LocalStart) : Prop where
  marked : source.Marks start.after
  behind : reached start.after ≤ bound
  shown : source.Shows start.sourceCeiling
  before : ∀ sequence ∈ start.after, sequence ≤ start.sourceCeiling

/-- A run knows what is imported past its cursor, and ends at its ceiling. -/
structure LocalRun.Within (source : SourceLog) (bound : Nat) (run : LocalRun) : Prop where
  known : KnownPast source bound run.progress.after run.represented
  shown : source.Shows run.sourceCeiling
  before : ∀ sequence ∈ run.progress.after, sequence ≤ run.sourceCeiling
  through : run.materialized = true → 0 < run.sourceCeiling →
    run.progress.after = some run.sourceCeiling

/-- The invariant: what is durable, every waiting follower and the run agree on one bound. -/
structure LocalHolds (circuit : Circuit) (bound : Nat) (state : LocalState) : Prop where
  durable : ImportedBelow circuit bound state.durable
  waiting : ∀ start ∈ state.waiting, start.Within state.durable.source bound
  run : ∀ run ∈ state.run, run.Within state.durable.source bound

section Invariant

variable {circuit : Circuit} {limits : PageLimits} {source later : SourceLog} {bound next : Nat}
  {state : LocalState}

/-- A start stays good while the source grows. -/
theorem LocalStart.Within.grows {start : LocalStart} (within : start.Within source bound)
    (grows : source.Extends later) : start.Within later bound :=
  ⟨grows.marks within.marked, within.behind, grows.shows within.shown, within.before⟩

/-- A start stays good behind a later bound. -/
theorem LocalStart.Within.mono {start : LocalStart} (within : start.Within source bound)
    (forward : bound ≤ next) : start.Within source next :=
  ⟨within.marked, Nat.le_trans within.behind forward, within.shown, within.before⟩

/-- What starting reads. -/
theorem startLocal_cases {previous : Option ReplicaCursor} {started : Option LocalStart}
    (run : startLocal source previous = .ok started) :
    (∃ cursor ∈ previous, started = none ∧
        unchangedLocalCursor previous source.frontier = some cursor) ∨
      (unchangedLocalCursor previous source.frontier = none ∧
        started = some ⟨previous.bind ReplicaCursor.sourceHighWatermark, source.frontier⟩) := by
  unfold startLocal at run
  obtain ⟨_, _, rest⟩ := bind_eq_ok.mp run
  cases same : unchangedLocalCursor previous source.frontier with
  | none =>
    rw [same] at rest
    cases rest
    exact Or.inr ⟨rfl, rfl⟩
  | some cursor =>
    rw [same] at rest
    cases rest
    exact Or.inl ⟨cursor, (Option.filter_eq_some_iff.mp same).1, rfl, rfl⟩

/-- A start behind a good cursor is good. -/
theorem startLocal_within (circuit : Circuit) {previous : Option ReplicaCursor} {start : LocalStart}
    (saved : ∀ cursor ∈ previous, CursorWithin circuit source bound cursor)
    (run : startLocal source previous = .ok (some start)) : start.Within source bound := by
  rcases startLocal_cases run with ⟨cursor, _, nothing, _⟩ | ⟨_, same⟩
  · cases nothing
  · cases same
    obtain ⟨marked, behind, _⟩ := CursorWithin.previous saved
    exact ⟨marked, behind, source.shows_frontier, marked.le_frontier⟩

/-- A call that goes on adds a good start. -/
theorem LocalHolds.enqueue (holds : LocalHolds circuit bound state)
    {started : Except ReplicationError (Option LocalStart)}
    (good : ∀ start, started = .ok (some start) → start.Within state.durable.source bound) :
    LocalHolds circuit bound (state.enqueue started) := by
  unfold LocalState.enqueue
  split
  · rename_i start
    refine ⟨holds.durable, ?_, holds.run⟩
    intro other member
    rcases List.mem_append.mp member with old | new
    · exact holds.waiting other old
    · rw [List.mem_singleton.mp new]
      exact good start rfl
  · exact holds

/-- A follower that leaves changes nothing for the others. -/
theorem LocalHolds.leave (holds : LocalHolds circuit bound state) (index : Nat) :
    LocalHolds circuit bound { state with waiting := state.waiting.eraseIdx index } :=
  ⟨holds.durable, fun start member => holds.waiting start (List.mem_of_mem_eraseIdx member),
    holds.run⟩

/-- A run that is over changes nothing for the others. -/
theorem LocalHolds.stop (holds : LocalHolds circuit bound state) :
    LocalHolds circuit bound { state with run := none } := by
  refine ⟨holds.durable, holds.waiting, ?_⟩
  intro run found
  cases found

/-- Opening the store never fails on its ledger, and gives a good run. -/
theorem openLocal_within (durable : ImportedBelow circuit bound state.durable) {start : LocalStart}
    (within : start.Within state.durable.source bound) :
    ∃ run, openLocal circuit state.durable.destination start = .ok run ∧
      run.Within state.durable.source bound ∧ run.sourceCeiling = start.sourceCeiling ∧
      run.progress.after = start.after ∧ run.materialized = false := by
  unfold openLocal
  rw [durable.ledger]
  refine ⟨_, rfl, ⟨?_, within.shown, within.before, ?_⟩, rfl, rfl, rfl⟩
  · exact durable.known within.marked within.behind durable.ledger
  · intro ended
    cases ended

/-- A round never fails, and takes in what is between the bound and the end of its page. -/
theorem materializeLocalPage_within (positive : 0 < limits.rows)
    (durable : ImportedBelow circuit bound state.durable) {run : LocalRun}
    (within : run.Within state.durable.source bound) :
    ∃ destination moved later, materializeLocalPage circuit limits state.durable run =
        .ok (destination, moved) ∧ bound ≤ later ∧
      ImportedBelow circuit later { state.durable with destination := destination } ∧
      moved.Within state.durable.source later ∧ moved.sourceCeiling = run.sourceCeiling ∧
      (moved.materialized = true ∨
        (state.durable.source.ahead moved.progress.after run.sourceCeiling).length <
          (state.durable.source.ahead run.progress.after run.sourceCeiling).length) := by
  obtain ⟨done, rest, told⟩ := readImportPage_spec positive state.durable.source
    run.progress.after run.sourceCeiling run.represented
  let page := readImportPage limits state.durable.source run.progress.after run.sourceCeiling
    run.represented
  let later := max bound (reached page.highWatermark)
  have marked : state.durable.source.Marks page.highWatermark := told.marks within.known.marked
  have forward : bound ≤ later := Nat.le_max_left _ _
  have bounds : state.durable.source.Bounds later := by
    rcases Nat.le_total (reached page.highWatermark) bound with lower | upper
    · rw [show later = bound from Nat.max_eq_left lower]
      exact durable.bounds
    · rw [show later = reached page.highWatermark from Nat.max_eq_right upper]
      exact marked.bounds
  have taken := durable.take forward bounds (told.between within.known)
  have advanced : ∀ count, (run.advance page count).Within state.durable.source later := by
    intro count
    refine ⟨within.known.advance marked told.reached_le, within.shown, told.before within.before, ?_⟩
    intro ended ceiling
    apply told.ends within.before within.shown ceiling
    rcases Bool.or_eq_true _ _ |>.mp ended with still | drained
    · by_contra some_
      have same : page.highWatermark = run.progress.after := of_decide_eq_true still
      have left := told.ahead_watermark
      rw [show (readImportPage limits state.durable.source run.progress.after run.sourceCeiling
        run.represented).highWatermark = run.progress.after from same, told.split] at left
      have nothing : done = [] := by simpa using left
      apply told.progress _ nothing
      rw [told.split, nothing]
      exact some_
    · by_contra some_
      have more := (told.more within.shown).mpr some_
      rw [show page.hasMore = true from more] at drained
      cases drained
  have shorter : ∀ count, (run.advance page count).materialized = true ∨
      (state.durable.source.ahead page.highWatermark run.sourceCeiling).length <
        (state.durable.source.ahead run.progress.after run.sourceCeiling).length := by
    intro count
    rw [show state.durable.source.ahead page.highWatermark run.sourceCeiling = rest from
      told.ahead_watermark, told.split, List.length_append]
    cases done with
    | nil =>
      left
      have still : page.highWatermark = run.progress.after := told.watermark
      show (decide (page.highWatermark = run.progress.after) || _) = true
      rw [decide_eq_true still]
      rfl
    | cons row others =>
      right
      rw [List.length_cons]
      omega
  unfold materializeLocalPage
  dsimp only
  split
  · rename_i nothing
    exact ⟨_, _, later, rfl, forward, taken.1 nothing, advanced 0, rfl, shorter 0⟩
  · rename_i some_
    obtain ⟨grown, appended, imported⟩ := taken.2 some_
    rw [show appendWithLedger _ _ _ _ = _ from appended]
    exact ⟨_, _, later, rfl, forward, imported, advanced _, rfl, shorter _⟩

/-- The cursor of a good run is saved, and is good. -/
theorem finishLocalImport_within (onHost : circuit.sourceEndpoint = none)
    {run : LocalRun} (within : run.Within source bound) :
    ∃ cursor, finishLocalImport circuit source run = .ok cursor ∧
      CursorWithin circuit source bound cursor ∧
      cursor.sourceHighWatermark = run.progress.after := by
  have readable : ¬ (run.progress.after.isSome = true ∧
      (run.progress.after.bind source.eventIdAt).isNone = true) := by
    rintro ⟨some_, none_⟩
    obtain ⟨sequence, present⟩ := Option.isSome_iff_exists.mp some_
    obtain ⟨row, member, same⟩ := within.known.marked sequence present
    have found : source.eventIdAt sequence = some row.eventIdHex :=
      SourceLog.eventIdAt_eq_some.mpr ⟨row, member, same, rfl⟩
    rw [present, Option.bind_some, found] at none_
    cases none_
  unfold finishLocalImport
  dsimp only
  rw [if_neg readable]
  refine ⟨_, rfl, ⟨?_, within.known.marked, within.known.behind, rfl⟩, rfl⟩
  exact require_eq_ok.mpr ⟨rfl, rfl, rfl, rfl, rfl, onHost.symm⟩

/-- Every action keeps the invariant, at the same bound or at a later one, and the source only
grows. -/
theorem LocalHolds.step (onHost : circuit.sourceEndpoint = none) (positive : 0 < limits.rows)
    (holds : LocalHolds circuit bound state) (action : LocalAction) :
    ∃ later, bound ≤ later ∧ LocalHolds circuit later (state.step circuit limits action) ∧
      state.durable.source.Extends (state.step circuit limits action).durable.source := by
  have still : state.durable.source.Extends state.durable.source := ⟨[], by simp⟩
  cases action with
  | sourceAppend rows =>
    unfold LocalState.step
    dsimp only
    split
    · exact ⟨bound, Nat.le_refl _, holds, still⟩
    · rename_i source extended
      have grows := SourceLog.extends_of_extend extended
      refine ⟨bound, Nat.le_refl _, ⟨holds.durable.sourceAppend grows, ?_, ?_⟩, grows⟩
      · intro start member
        exact (holds.waiting start member).grows grows
      · intro run found
        have within := holds.run run found
        exact ⟨within.known.grows holds.durable.bounds grows, grows.shows within.shown,
          within.before, within.through⟩
  | storeOpened row =>
    unfold LocalState.step
    dsimp only
    split
    · rename_i own
      exact ⟨bound, Nat.le_refl _,
        ⟨holds.durable.storeOpened own.1 own.2.1 own.2.2, holds.waiting, holds.run⟩, still⟩
    · exact ⟨bound, Nat.le_refl _, holds, still⟩
  | bootstrap =>
    refine ⟨bound, Nat.le_refl _, holds.enqueue ?_, ?_⟩
    · intro start started
      unfold bootstrapLocal at started
      obtain ⟨_, _, rest⟩ := bind_eq_ok.mp started
      apply startLocal_within circuit _ rest
      intro cursor found
      cases found
    · unfold LocalState.step LocalState.enqueue
      dsimp only
      split
      · exact still
      · exact still
  | follow =>
    refine ⟨bound, Nat.le_refl _, holds.enqueue ?_, ?_⟩
    · intro start started
      unfold followLocal at started
      split at started
      · cases started
      · rename_i cursor saved
        obtain ⟨_, _, rest⟩ := bind_eq_ok.mp started
        apply startLocal_within circuit _ rest
        intro other found
        cases found
        exact holds.durable.saved cursor saved
    · unfold LocalState.step LocalState.enqueue
      dsimp only
      split
      · exact still
      · exact still
  | openStore index =>
    have left := holds.leave index
    unfold LocalState.step
    dsimp only
    split
    · rename_i start waits free
      have within := holds.waiting start (List.mem_of_getElem? waits)
      obtain ⟨run, opened, good, _⟩ := openLocal_within holds.durable within
      rw [opened]
      refine ⟨bound, Nat.le_refl _, ⟨holds.durable, left.waiting, ?_⟩, still⟩
      intro other found
      cases found
      exact good
    · exact ⟨bound, Nat.le_refl _, left, still⟩
  | leave index => exact ⟨bound, Nat.le_refl _, holds.leave index, still⟩
  | page =>
    unfold LocalState.step
    dsimp only
    split
    · exact ⟨bound, Nat.le_refl _, holds, still⟩
    · rename_i run running
      split
      · exact ⟨bound, Nat.le_refl _, holds, still⟩
      · obtain ⟨destination, moved, later, done, forward, imported, good, _⟩ :=
          materializeLocalPage_within positive holds.durable (holds.run run running)
        rw [done]
        refine ⟨later, forward, ⟨imported, ?_, ?_⟩, still⟩
        · intro start member
          exact (holds.waiting start member).mono forward
        · intro other found
          cases found
          exact good
  | finish =>
    unfold LocalState.step
    dsimp only
    split
    · exact ⟨bound, Nat.le_refl _, holds, still⟩
    · rename_i run running
      split
      · obtain ⟨cursor, saved, good, _⟩ :=
          finishLocalImport_within onHost (holds.run run running)
        rw [saved]
        refine ⟨bound, Nat.le_refl _, ⟨holds.durable.save good, holds.waiting, ?_⟩, still⟩
        intro other found
        cases found
      · exact ⟨bound, Nat.le_refl _, holds, still⟩
  | stop => exact ⟨bound, Nat.le_refl _, holds.stop, still⟩

/-- So does every sequence of actions. -/
theorem LocalHolds.runAll (onHost : circuit.sourceEndpoint = none) (positive : 0 < limits.rows)
    (holds : LocalHolds circuit bound state) (actions : List LocalAction) :
    ∃ later, bound ≤ later ∧ LocalHolds circuit later (state.runAll circuit limits actions) ∧
      state.durable.source.Extends (state.runAll circuit limits actions).durable.source := by
  induction actions generalizing state bound with
  | nil => exact ⟨bound, Nat.le_refl _, holds, [], by simp [LocalState.runAll]⟩
  | cons action rest ih =>
    obtain ⟨middle, forward, kept, front, first⟩ := holds.step onHost positive action
    obtain ⟨later, further, whole, back, second⟩ := ih kept
    refine ⟨later, Nat.le_trans forward further, whole, front ++ back, ?_⟩
    show ((state.step circuit limits action).runAll circuit limits rest).durable.source.rows = _
    rw [second, first, List.append_assoc]

/-- A fresh replica holds the invariant. -/
theorem LocalHolds.fresh (circuit : Circuit) (source : SourceLog) :
    LocalHolds circuit 0 (LocalState.fresh source) := by
  refine ⟨ImportedBelow.fresh circuit source, ?_, ?_⟩
  · intro start member
    cases member
  · intro run found
    cases found

/-- The state after one action and then some more. -/
theorem LocalState.runAll_cons (circuit : Circuit) (limits : PageLimits) (state : LocalState)
    (action : LocalAction) (rest : List LocalAction) : state.runAll circuit limits (action :: rest) =
      (state.step circuit limits action).runAll circuit limits rest := rfl

/-- The state after some actions and then some more. -/
theorem LocalState.runAll_append (circuit : Circuit) (limits : PageLimits) (state : LocalState)
    (front back : List LocalAction) : state.runAll circuit limits (front ++ back) =
      (state.runAll circuit limits front).runAll circuit limits back :=
  List.foldl_append

/-- A run that is left alone goes over its last page after at most one round more than there are
rows ahead of it. -/
theorem LocalHolds.drain (positive : 0 < limits.rows) (holds : LocalHolds circuit bound state)
    {run : LocalRun} (running : state.run = some run) :
    ∃ rounds ≤ (state.durable.source.ahead run.progress.after run.sourceCeiling).length + 1,
      ∃ later destination moved, bound ≤ later ∧
        state.runAll circuit limits (List.replicate rounds .page) =
          { state with durable := { state.durable with destination := destination },
                       run := some moved } ∧
        ImportedBelow circuit later { state.durable with destination := destination } ∧
        moved.Within state.durable.source later ∧ moved.materialized = true ∧
        moved.sourceCeiling = run.sourceCeiling := by
  -- The rows ahead of the run decide how many rounds are left.
  induction size : (state.durable.source.ahead run.progress.after run.sourceCeiling).length using
    Nat.strong_induction_on generalizing state run bound with
  | _ count ih =>
    have within := holds.run run running
    by_cases ended : run.materialized = true
    · refine ⟨0, Nat.zero_le _, bound, state.durable.destination, run, Nat.le_refl _, ?_,
        holds.durable, within, ended, rfl⟩
      show state = _
      rw [← running]
    · obtain ⟨destination, moved, later, done, forward, imported, good, ceiling, shorter⟩ :=
        materializeLocalPage_within positive holds.durable within
      let after : LocalState :=
        { state with durable := { state.durable with destination := destination }
                     run := some moved }
      have stepped : state.step circuit limits .page = after := by
        unfold LocalState.step
        dsimp only
        rw [running]
        dsimp only
        rw [if_neg ended, done]
      have kept : LocalHolds circuit later after := by
        refine ⟨imported, fun start member => (holds.waiting start member).mono forward, ?_⟩
        intro other found
        cases found
        exact good
      rcases shorter with drained | fewer
      · exact ⟨1, by omega, later, destination, moved, forward, stepped, imported, good, drained,
          ceiling⟩
      · have less : (after.durable.source.ahead moved.progress.after moved.sourceCeiling).length <
            count := by
          rw [ceiling, ← size]
          exact fewer
        obtain ⟨rounds, few, last, final, stopped, further, whole, held, inside, drained, same⟩ :=
          ih _ less kept rfl rfl
        refine ⟨rounds + 1, by omega, last, final, stopped, Nat.le_trans forward further, ?_, held,
          inside, drained, same.trans ceiling⟩
        rw [List.replicate_succ, LocalState.runAll_cons, stepped, whole]

/-- Following a good cursor never fails: it goes on where the source has changed. -/
theorem followLocal_ok {durable : Durable} (holds : ImportedBelow circuit bound durable)
    {cursor : ReplicaCursor} (saved : durable.cursor = some cursor) :
    followLocal circuit durable = .ok
      (if (unchangedLocalCursor (some cursor) durable.source.frontier).isSome then none
        else some ⟨cursor.sourceHighWatermark, durable.source.frontier⟩) := by
  have within := holds.saved cursor saved
  have anchored : validatePrevious durable.source (some cursor) = .ok () := within.validates
  unfold followLocal
  rw [saved]
  show (validateCursorBinding cursor circuit >>= fun _ => _) = _
  rw [within.bound_circuit, ok_bind]
  unfold startLocal
  rw [anchored, ok_bind]
  cases unchangedLocalCursor (some cursor) durable.source.frontier with
  | none => rfl
  | some same => rfl

/-- Where nothing runs and nothing is waited for, rounds and endings do nothing. -/
theorem LocalState.runAll_idle (circuit : Circuit) (limits : PageLimits) {state : LocalState}
    (free : state.run = none) (rounds : Nat) :
    state.runAll circuit limits
      (.openStore state.waiting.length :: List.replicate rounds .page ++ [.finish]) = state := by
  have opened : state.step circuit limits (.openStore state.waiting.length) = state := by
    unfold LocalState.step
    dsimp only
    rw [List.getElem?_eq_none (Nat.le_refl _), List.eraseIdx_of_length_le (Nat.le_refl _)]
  have paged : ∀ rounds, state.runAll circuit limits (List.replicate rounds .page) = state := by
    intro rounds
    induction rounds with
    | zero => rfl
    | succ rounds ih =>
      have still : state.step circuit limits .page = state := by
        unfold LocalState.step
        dsimp only
        rw [free]
      rw [List.replicate_succ, LocalState.runAll_cons, still, ih]
  have finished : state.runAll circuit limits [.finish] = state := by
    show state.step circuit limits .finish = state
    unfold LocalState.step
    dsimp only
    rw [free]
  rw [List.cons_append, LocalState.runAll_cons, opened, LocalState.runAll_append, paged, finished]

/-- A start that nobody is in the way of opens the store, goes over all pages and saves its
cursor. -/
theorem LocalHolds.imports (onHost : circuit.sourceEndpoint = none) (positive : 0 < limits.rows)
    (holds : LocalHolds circuit bound state) (free : state.run = none) {start : LocalStart}
    (within : start.Within state.durable.source bound) :
    ∃ rounds ≤ state.durable.source.rows.length + 1, ∃ later destination cursor,
      ({ state with waiting := state.waiting ++ [start] } : LocalState).runAll circuit limits
          (.openStore state.waiting.length :: List.replicate rounds .page ++ [.finish]) =
        { state with durable :=
          { state.durable with destination := destination, cursor := some cursor } } ∧
      ImportedBelow circuit later
        { state.durable with destination := destination, cursor := some cursor } ∧
      (0 < start.sourceCeiling → cursor.sourceHighWatermark = some start.sourceCeiling) := by
  obtain ⟨run, opened, good, ceiling, cursor, _⟩ := openLocal_within holds.durable within
  let entered : LocalState := { state with run := some run }
  have first : ({ state with waiting := state.waiting ++ [start] } : LocalState).step circuit limits
      (.openStore state.waiting.length) = entered := by
    have waits : (state.waiting ++ [start])[state.waiting.length]? = some start := by simp
    have left : (state.waiting ++ [start]).eraseIdx state.waiting.length = state.waiting := by
      rw [List.eraseIdx_append_of_length_le (Nat.le_refl _)]
      simp
    unfold LocalState.step
    dsimp only
    rw [waits, free]
    dsimp only
    rw [opened, left]
  have kept : LocalHolds circuit bound entered := by
    refine ⟨holds.durable, holds.waiting, ?_⟩
    intro other found
    cases found
    exact good
  obtain ⟨rounds, few, later, destination, moved, forward, paged, imported, inside, drained, same⟩ :=
    kept.drain positive rfl
  obtain ⟨saved, ended, fine, high⟩ := finishLocalImport_within onHost inside
  have bounded : (state.durable.source.ahead run.progress.after run.sourceCeiling).length ≤
      state.durable.source.rows.length := by
    unfold SourceLog.ahead rowsAfter
    exact Nat.le_trans (List.length_filter_le _ _) (List.length_filter_le _ _)
  refine ⟨rounds, Nat.le_trans few (Nat.succ_le_succ bounded), later, destination, saved, ?_, ?_, ?_⟩
  · rw [List.cons_append, LocalState.runAll_cons, first, LocalState.runAll_append, paged]
    rw [LocalState.runAll_cons]
    unfold LocalState.step
    dsimp only
    rw [drained, if_pos rfl, ended]
    dsimp only
    rw [← free]
    rfl
  · exact imported.save fine
  · intro ceil
    rw [high, inside.through drained (by rw [same, ceiling]; exact ceil), same, ceiling]

/-- Whatever has happened, a replica holds the leading importable rows of its source, and the saved
cursor is one that following accepts. What was copied stays, whatever happens next. -/
theorem replica_holds_leading_rows (onHost : circuit.sourceEndpoint = none)
    (positive : 0 < limits.rows) (source : SourceLog) (earlier later : List LocalAction) :
    let state := (LocalState.fresh source).runAll circuit limits earlier
    let final := state.runAll circuit limits later
    ∃ bound, LeadingRows circuit bound state.durable ∧
      importedRows state.durable.destination <+: importedRows final.durable.destination := by
  intro state final
  obtain ⟨bound, _, holds, _⟩ := (LocalHolds.fresh circuit source).runAll onHost positive earlier
  obtain ⟨next, forward, after, grows⟩ := holds.runAll onHost positive later
  exact ⟨bound, holds.durable.leadingRows, holds.durable.copied_prefix after.durable grows forward⟩

/-- A bootstrap that stopped behind a batch: rows, but no cursor, and nobody at work. -/
structure Unsaved (state : LocalState) : Prop where
  uncursored : state.durable.cursor = none
  filled : state.durable.destination ≠ []
  free : state.run = none
  alone : state.waiting = []

/-- Nothing starts from there. -/
theorem Unsaved.calls (unsaved : Unsaved state) (circuit : Circuit) :
    bootstrapLocal circuit state.durable = .error ⟨.destinationNotFresh, .no,
        "destination " ++ circuit.replicaPath ++ " is not empty"⟩ ∧
      followLocal circuit state.durable = .error ⟨.evidence, .no,
        "read " ++ circuit.cursorPath ++ ": No such file or directory (os error 2)"⟩ := by
  constructor
  · unfold bootstrapLocal require
    rw [if_neg unsaved.filled]
    rfl
  · unfold followLocal
    rw [unsaved.uncursored]

/-- No action leads out of it, and none copies a row. -/
theorem Unsaved.step (unsaved : Unsaved state) (circuit : Circuit) (limits : PageLimits)
    (action : LocalAction) : Unsaved (state.step circuit limits action) ∧
      importedRows (state.step circuit limits action).durable.destination =
        importedRows state.durable.destination := by
  have calls := unsaved.calls circuit
  have left : ∀ index, Unsaved { state with waiting := state.waiting.eraseIdx index } := by
    intro index
    refine ⟨unsaved.uncursored, unsaved.filled, unsaved.free, ?_⟩
    rw [unsaved.alone]
    rfl
  cases action with
  | sourceAppend rows =>
    unfold LocalState.step
    dsimp only
    split
    · exact ⟨unsaved, rfl⟩
    · exact ⟨⟨unsaved.uncursored, unsaved.filled, unsaved.free, unsaved.alone⟩, rfl⟩
  | storeOpened row =>
    unfold LocalState.step
    dsimp only
    split
    · rename_i own
      refine ⟨⟨unsaved.uncursored, by simp, unsaved.free, unsaved.alone⟩, ?_⟩
      unfold importedRows
      simp [own.2.1]
    · exact ⟨unsaved, rfl⟩
  | bootstrap =>
    have same : state.step circuit limits .bootstrap = state := by
      show state.enqueue (bootstrapLocal circuit state.durable) = state
      rw [calls.1]
      rfl
    rw [same]
    exact ⟨unsaved, rfl⟩
  | follow =>
    have same : state.step circuit limits .follow = state := by
      show state.enqueue (followLocal circuit state.durable) = state
      rw [calls.2]
      rfl
    rw [same]
    exact ⟨unsaved, rfl⟩
  | openStore index =>
    have same : state.step circuit limits (.openStore index) =
        { state with waiting := state.waiting.eraseIdx index } := by
      unfold LocalState.step
      dsimp only
      rw [unsaved.alone]
      rfl
    rw [same]
    exact ⟨left index, rfl⟩
  | leave index => exact ⟨left index, rfl⟩
  | page =>
    have same : state.step circuit limits .page = state := by
      unfold LocalState.step
      dsimp only
      rw [unsaved.free]
    rw [same]
    exact ⟨unsaved, rfl⟩
  | finish =>
    have same : state.step circuit limits .finish = state := by
      unfold LocalState.step
      dsimp only
      rw [unsaved.free]
    rw [same]
    exact ⟨unsaved, rfl⟩
  | stop => exact ⟨⟨unsaved.uncursored, unsaved.filled, rfl, unsaved.alone⟩, rfl⟩

end Invariant

end Following

section Stopped

/-- Kinds with two reserved categories, and payloads that are their own hash. -/
local instance plainKinds : StoreKinds where
  reserved kind := kind >>> 12 = 0 || kind >>> 12 = 0xD
  tryCustom category type := some (UInt16.ofNat (category.toNat * 4096 + type.toNat))
  coordinate _ _ := true
  computeHash payload := payload
  ledger_free := by decide
  custom_free := by
    intro raw _
    have high : (raw >>> 12).toNat = raw.toNat / 4096 := by
      simp [UInt16.toNat_shiftRight, Nat.shiftRight_eq_div_pow]
    have low : (raw &&& 0x0fff).toNat = raw.toNat % 4096 := by
      rw [UInt16.toNat_and]
      exact Nat.and_two_pow_sub_one_eq_mod raw.toNat 12
    rw [high, low, Nat.div_add_mod' raw.toNat 4096, UInt16.ofNat_toNat]

/-- A row of a small source. -/
def smallRow (sequence : Nat) (kindRaw : UInt16) : SourceRow where
  sequence := sequence
  eventId := BitVec.ofNat 128 sequence
  kindRaw := kindRaw
  entity := "claim:clm_1"
  scope := "workspace:demo"
  payload := [1]
  contentHash := [1]
  correlationId := 0

/-- A source with one reserved row and two importable ones. -/
def smallSource : SourceLog where
  rows := [smallRow 1 0x0001, smallRow 2 0xE001, smallRow 3 0xE002]
  ordered := by decide
  distinct := by decide
  located := by decide
  hashed := by decide

/-- A circuit on one host. -/
def smallCircuit : Circuit where
  root := "."
  workspaceId := "demo"
  sourceJournal := "canonical"
  replicaJournal := "agent"
  replicaPath := "./.texo/replicas/agent"

/-- A replica is brought up, its source grows, and the next run stops behind its batch. -/
def stoppedRun : List LocalAction :=
  [.bootstrap, .openStore 0, .page, .page, .finish,
    .sourceAppend [smallRow 4 0xE001, smallRow 5 0xE001], .follow, .openStore 0, .page, .stop]

/-- The stopped run and one that goes on from it. -/
theorem replica_holds_leading_rows_stopped :
    let state := (LocalState.fresh smallSource).runAll smallCircuit ⟨2, 8⟩ stoppedRun
    let final := state.runAll smallCircuit ⟨2, 8⟩ [.follow, .openStore 0, .page, .finish]
    ∃ bound, LeadingRows smallCircuit bound state.durable ∧
      importedRows state.durable.destination <+: importedRows final.durable.destination :=
  replica_holds_leading_rows rfl (by decide) smallSource stoppedRun
    [.follow, .openStore 0, .page, .finish]

/-- A bootstrap that stops behind its first batch. -/
def stoppedBootstrap : List LocalAction := [.bootstrap, .openStore 0, .page, .stop]

end Stopped

end Texo.Replication
