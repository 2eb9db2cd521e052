import Texo.Replication.Exchange
import Texo.Replication.Follow

/-! # Following a source of another host

The first page is asked for before the store is opened, so a response may be older than the store
it is taken into; the next ones are asked for one at a time. Between a request and the use of its
response the source appends and the run may stop. Against a server that serves its source as it is,
every response that arrives is accepted, and the replica holds what it would hold if its source were
on the same host.
-/
namespace Texo.Replication
open Texo.Foundation Texo.Knowledge Texo.Ops

/-- A call whose first response has arrived, before it has the store. -/
structure RemoteStart where
  after : Option Nat
  afterAnchor : Option String
  first : PageResponse
deriving DecidableEq

/-- A run that holds the store of its replica: the response in hand, and whether the last one said
that no more would follow. -/
structure RemoteRun where
  represented : List String
  progress : RemoteProgress
  response : Option PageResponse := none
  complete : Bool := false
deriving DecidableEq

section Following

variable [StoreKinds]

/-- A replica with its callers: those that wait for its store, and the run that holds it. `asked`
counts the requests that were made. -/
structure RemoteState where
  durable : Durable
  asked : Nat := 0
  waiting : List RemoteStart := []
  run : Option RemoteRun := none

/-- What comes back from a request: nothing where the call fails. -/
abbrev Answering := SourceLog → Nat → PageRequest → Option PageResponse

variable [PageAuth]

/-- The request of `request_remote_page`. -/
def pageRequest (circuit : Circuit) (token : String) (progress : RemoteProgress) : PageRequest :=
  PageRequest.authenticated token circuit.workspaceId circuit.sourceJournal progress.after
    progress.afterAnchor progress.sourceCeiling

/-- The progress a call starts with. -/
def RemoteProgress.behind (previous : Option ReplicaCursor) : RemoteProgress where
  after := previous.bind ReplicaCursor.sourceHighWatermark
  afterAnchor := previous.bind ReplicaCursor.sourceAnchorEventIdHex

/-- Whether a first response says that nothing has changed behind a cursor. -/
def unchangedRemote (previous : Option ReplicaCursor) (after : Option Nat) (first : PageResponse) :
    Option ReplicaCursor :=
  previous.filter fun _ => first.highWatermark = after && !first.hasMore && first.events = [] &&
    first.sourceCeiling = after.getD 0

/-- `import_remote_from_cursor`, up to the opening of the destination; it ends here where the source
has not changed. -/
def startRemote (circuit : Circuit) (token : String) (answer : PageRequest → Option PageResponse)
    (previous : Option ReplicaCursor) : Except ReplicationError (Option RemoteStart) :=
  let progress := RemoteProgress.behind previous
  match answer (pageRequest circuit token progress) with
  | none => .error ⟨.transport, .no, "remote replica page call"⟩
  | some first => do
    validateRemoteResponse circuit progress.after none none first progress.imported
    match unchangedRemote previous progress.after first with
    | some _ => .ok none
    | none => .ok (some ⟨progress.after, progress.afterAnchor, first⟩)

/-- `bootstrap`, of a read model whose source is on another host. -/
def bootstrapRemote (circuit : Circuit) (token : String) (answer : PageRequest → Option PageResponse)
    (durable : Durable) : Except ReplicationError (Option RemoteStart) := do
  require (durable.destination = [])
    ⟨.destinationNotFresh, .no, "destination " ++ circuit.replicaPath ++ " is not empty"⟩
  startRemote circuit token answer none

/-- `follow_once`, where the source is on another host. -/
def followRemote (circuit : Circuit) (token : String) (answer : PageRequest → Option PageResponse)
    (durable : Durable) : Except ReplicationError (Option RemoteStart) :=
  match durable.cursor with
  | none => .error ⟨.evidence, .no,
      "read " ++ circuit.cursorPath ++ ": No such file or directory (os error 2)"⟩
  | some cursor => do
    validateCursorBinding cursor circuit
    startRemote circuit token answer (some cursor)

/-- `import_remote_from_cursor`, as it opens the destination. -/
def openRemote (circuit : Circuit) (destination : List ReplicaRow) (start : RemoteStart) :
    Except ReplicationError RemoteRun := do
  let represented ← circuit.represented destination
  .ok
    { represented := represented
      progress := { after := start.after, afterAnchor := start.afterAnchor }
      response := some start.first }

/-- `finish_remote_import`: the cursor it saves. -/
def finishRemoteImport (circuit : Circuit) (run : RemoteRun) : ReplicaCursor where
  schemaVersion := stateSchemaVersion
  workspaceId := circuit.workspaceId
  sourceJournal := circuit.sourceJournal
  replicaJournal := circuit.replicaJournal
  sourceNamespace := circuit.namespace
  sourceEndpoint := circuit.sourceEndpoint
  sourceHighWatermark := run.progress.after
  sourceAnchorEventIdHex := run.progress.afterAnchor

/-- What can happen. A run stops where a call fails, or it crashes. -/
inductive RemoteAction where
  | sourceAppend (rows : List SourceRow)
  | storeOpened (row : ReplicaRow)
  | bootstrap
  | follow
  | openStore (index : Nat)
  | leave (index : Nat)
  | request
  | page
  | finish
  | stop

/-- A call that goes on waits for the store. -/
def RemoteState.enqueue (state : RemoteState)
    (started : Except ReplicationError (Option RemoteStart)) : RemoteState :=
  match started with
  | .ok (some start) =>
    { state with asked := state.asked + 1, waiting := state.waiting ++ [start] }
  | _ => { state with asked := state.asked + 1 }

/-- One action, where `serve` says what comes back from the requests. -/
def RemoteState.step (circuit : Circuit) (token : String) (serve : Answering) (state : RemoteState) :
    RemoteAction → RemoteState
  | .sourceAppend rows =>
    match state.durable.source.extend rows with
    | none => state
    | some source => { state with durable := { state.durable with source := source } }
  | .storeOpened row =>
    if StoreKinds.reserved row.kindRaw = true ∧ row.source = none ∧ row.key = none then
      { state with durable :=
        { state.durable with destination := state.durable.destination ++ [row] } }
    else
      state
  | .bootstrap => state.enqueue
      (bootstrapRemote circuit token (serve state.durable.source state.asked) state.durable)
  | .follow => state.enqueue
      (followRemote circuit token (serve state.durable.source state.asked) state.durable)
  | .openStore index =>
    match state.waiting[index]?, state.run with
    | some start, none =>
      match openRemote circuit state.durable.destination start with
      | .error _ => { state with waiting := state.waiting.eraseIdx index }
      | .ok run => { state with waiting := state.waiting.eraseIdx index, run := some run }
    | _, _ => { state with waiting := state.waiting.eraseIdx index }
  | .leave index => { state with waiting := state.waiting.eraseIdx index }
  | .request =>
    match state.run with
    | none => state
    | some run =>
      if run.response.isSome ∨ run.complete = true then
        state
      else
        match serve state.durable.source state.asked (pageRequest circuit token run.progress) with
        | none => { state with asked := state.asked + 1, run := none }
        | some response =>
          { state with
            asked := state.asked + 1
            run := some { run with response := some response } }
  | .page =>
    match state.run with
    | none => state
    | some run =>
      match run.response with
      | none => state
      | some response =>
        match materializeRemotePage circuit state.durable.destination run.represented run.progress
          response with
        | .error _ => { state with run := none }
        | .ok left =>
          { state with
            durable := { state.durable with destination := left.destination }
            run := some
              { represented := left.represented
                progress := left.progress
                complete := !response.hasMore } }
  | .finish =>
    match state.run with
    | none => state
    | some run =>
      if run.complete then
        { state with
          durable := { state.durable with cursor := some (finishRemoteImport circuit run) }
          run := none }
      else
        state
  | .stop => { state with run := none }

/-- The state after some actions. -/
def RemoteState.runAll (circuit : Circuit) (token : String) (serve : Answering)
    (state : RemoteState) (actions : List RemoteAction) : RemoteState :=
  actions.foldl (RemoteState.step circuit token serve) state

/-- A replica that nothing has been done with. -/
def RemoteState.fresh (source : SourceLog) : RemoteState := { durable := { source := source } }

/-- A server that serves its source as it is. -/
def serving (server : PageServer) (limits : PageLimits) : Answering :=
  fun source _ request => (handlePage server limits source request).toOption

/-- The server of a circuit's source, under the secret of its replica. -/
def Circuit.server (circuit : Circuit) (token : String) : PageServer where
  workspaceId := circuit.workspaceId
  journalId := circuit.sourceJournal
  token := token

/-- A call stands where its cursor does, and its first response is honest. -/
structure RemoteStart.Within (circuit : Circuit) (source : SourceLog) (bound : Nat)
    (start : RemoteStart) : Prop where
  marked : source.Marks start.after
  behind : reached start.after ≤ bound
  anchored : start.afterAnchor = start.after.bind source.eventIdAt
  answers : Answers circuit source start.after start.first
  before : ∀ sequence ∈ start.after, sequence ≤ start.first.sourceCeiling

/-- A run knows what is imported past its cursor and keeps its ceiling; the response it has in hand
is honest, and it ends at its ceiling. -/
structure RemoteRun.Within (circuit : Circuit) (source : SourceLog) (bound : Nat)
    (run : RemoteRun) : Prop where
  known : KnownPast source bound run.progress.after run.represented
  anchored : run.progress.afterAnchor = run.progress.after.bind source.eventIdAt
  frozen : ∀ ceiling ∈ run.progress.sourceCeiling, source.Shows ceiling ∧
    ∀ sequence ∈ run.progress.after, sequence ≤ ceiling
  stable : run.complete = false → ∀ ceiling ∈ run.progress.sourceCeiling, 0 < ceiling ∧
    run.progress.sourceCeilingAnchor = source.eventIdAt ceiling
  free : run.progress.sourceCeiling = none → run.progress.sourceCeilingAnchor = none
  asked : ∀ response ∈ run.response, run.complete = false ∧
    Answers circuit source run.progress.after response ∧
    (∀ sequence ∈ run.progress.after, sequence ≤ response.sourceCeiling) ∧
    ∀ ceiling ∈ run.progress.sourceCeiling, response.sourceCeiling = ceiling
  through : run.complete = true → ∃ ceiling, run.progress.sourceCeiling = some ceiling ∧
    (0 < ceiling → run.progress.after = some ceiling)

/-- The invariant: what is durable, every waiting call and the run agree on one bound. -/
structure RemoteHolds (circuit : Circuit) (bound : Nat) (state : RemoteState) : Prop where
  durable : ImportedBelow circuit bound state.durable
  waiting : ∀ start ∈ state.waiting, start.Within circuit state.durable.source bound
  run : ∀ run ∈ state.run, run.Within circuit state.durable.source bound

section Invariant

variable {circuit : Circuit} {token : String} {limits : PageLimits} {source later : SourceLog}
  {bound next : Nat} {state : RemoteState}

/-- A server answers the requests of its replicas that stand at a row of the source, and its answer
is honest. -/
theorem handlePage_answers (positive : 0 < limits.rows) (circuit : Circuit) (token : String)
    {after : Option Nat} (ceiling : Option Nat) (marked : source.Marks after)
    (frozen : ∀ limit ∈ ceiling, source.Shows limit ∧ ∀ sequence ∈ after, sequence ≤ limit) :
    ∃ response, handlePage (circuit.server token) limits source
        (PageRequest.authenticated token circuit.workspaceId circuit.sourceJournal after
          (after.bind source.eventIdAt) ceiling) = .ok response ∧
      Answers circuit source after response ∧
      response.sourceCeiling = ceiling.getD source.frontier ∧
      ∀ sequence ∈ after, sequence ≤ response.sourceCeiling := by
  let request := PageRequest.authenticated token circuit.workspaceId circuit.sourceJournal after
    (after.bind source.eventIdAt) ceiling
  let sourceCeiling := ceiling.getD source.frontier
  have authentic : constantTimeEqual request.authTag
      (request.authenticationTag (circuit.server token).token) = true :=
    constantTimeEqual_iff.mpr rfl
  have anchored : validateRequestAnchor source request = .ok () := by
    cases after with
    | none => rfl
    | some sequence =>
      obtain ⟨row, member, same⟩ := marked sequence rfl
      have found : source.eventIdAt sequence = some row.eventIdHex :=
        SourceLog.eventIdAt_eq_some.mpr ⟨row, member, same, rfl⟩
      have asked : request.after = some sequence := rfl
      have named : request.afterAnchorEventIdHex = some row.eventIdHex := found
      unfold validateRequestAnchor
      rw [asked, named]
      exact require_eq_ok.mpr found
  have shown : source.Shows sourceCeiling := by
    show source.Shows (ceiling.getD source.frontier)
    cases ceiling with
    | none => exact source.shows_frontier
    | some limit => exact (frozen limit rfl).1
  have before : ∀ sequence ∈ after, sequence ≤ sourceCeiling := by
    intro sequence present
    show sequence ≤ ceiling.getD source.frontier
    cases ceiling with
    | none => exact marked.le_frontier sequence present
    | some limit => exact (frozen limit rfl).2 sequence present
  obtain ⟨done, rest, told⟩ := readImportPage_spec positive source after sourceCeiling []
  refine ⟨_, ?_, told.answers marked before shown, rfl, before⟩
  exact bind_eq_ok.mpr ⟨(), require_eq_ok.mpr rfl, bind_eq_ok.mpr ⟨(), require_eq_ok.mpr authentic,
    bind_eq_ok.mpr ⟨(), require_eq_ok.mpr ⟨rfl, rfl⟩, bind_eq_ok.mpr ⟨(), anchored,
      bind_eq_ok.mpr ⟨(), require_eq_ok.mpr shown.le_frontier, rfl⟩⟩⟩⟩⟩

/-- What comes back from a server. -/
theorem serving_eq {server : PageServer} {request : PageRequest} {response : PageResponse}
    (asked : Nat) (handled : handlePage server limits source request = .ok response) :
    serving server limits source asked request = some response := by
  unfold serving
  rw [handled]
  rfl

/-- A call behind good cursors gets an honest first response, up to the frontier, and goes on with
it where it says that the source has changed. -/
theorem startRemote_serving (positive : 0 < limits.rows) (circuit : Circuit) (token : String)
    (asked : Nat) {previous : Option ReplicaCursor}
    (saved : ∀ cursor ∈ previous, CursorWithin circuit source bound cursor) :
    ∃ start : RemoteStart, start.Within circuit source bound ∧
      start.first.sourceCeiling = source.frontier ∧
      start.after = previous.bind ReplicaCursor.sourceHighWatermark ∧
      startRemote circuit token (serving (circuit.server token) limits source asked) previous =
        .ok (if (unchangedRemote previous start.after start.first).isSome then none
          else some start) := by
  obtain ⟨marked, behind, anchored⟩ := CursorWithin.previous saved
  obtain ⟨first, handled, answers, ceiling, before⟩ := handlePage_answers positive circuit token
    none marked (fun limit found => by cases found)
  let progress := RemoteProgress.behind previous
  have answered : serving (circuit.server token) limits source asked
      (pageRequest circuit token progress) = some first := by
    apply serving_eq
    unfold pageRequest
    rw [show progress.afterAnchor = _ from anchored]
    exact handled
  have validated : validateRemoteResponse circuit progress.after none none first
      progress.imported = .ok () := by
    apply answers.validates
    · intro limit found
      cases found
    · intro anchor found
      cases found
  refine ⟨⟨progress.after, progress.afterAnchor, first⟩,
    ⟨marked, behind, anchored, answers, before⟩, ceiling, rfl, ?_⟩
  unfold startRemote
  dsimp only
  rw [show serving (circuit.server token) limits source asked
    (pageRequest circuit token (RemoteProgress.behind previous)) = some first from answered]
  dsimp only
  rw [show validateRemoteResponse circuit (RemoteProgress.behind previous).after none none first
    (RemoteProgress.behind previous).imported = .ok () from validated, ok_bind]
  cases unchangedRemote previous progress.after first with
  | none => rfl
  | some cursor => rfl

omit [PageAuth] in
/-- Opening the store never fails on its ledger, and gives a good run with the first response in
hand. -/
theorem openRemote_within (holds : ImportedBelow circuit bound state.durable) {start : RemoteStart}
    (within : start.Within circuit state.durable.source bound) :
    ∃ run, openRemote circuit state.durable.destination start = .ok run ∧
      run.Within circuit state.durable.source bound ∧ run.response = some start.first ∧
      run.complete = false ∧ run.progress.after = start.after := by
  unfold openRemote
  rw [holds.ledger]
  refine ⟨_, rfl, ⟨?_, within.anchored, ?_, ?_, fun _ => rfl, ?_, ?_⟩, rfl, rfl, rfl⟩
  · exact holds.known within.marked within.behind holds.ledger
  · intro ceiling found
    cases found
  · intro _ ceiling found
    cases found
  · intro response found
    cases found
    refine ⟨rfl, within.answers, within.before, ?_⟩
    intro ceiling found
    cases found
  · intro ended
    cases ended

omit [PageAuth] in
/-- The response a good run has in hand is taken in, and leaves a good run. -/
theorem RemoteRun.Within.page {run : RemoteRun} (holds : ImportedBelow circuit bound state.durable)
    (within : run.Within circuit state.durable.source bound) {response : PageResponse}
    (inHand : run.response = some response) :
    ∃ left later, materializeRemotePage circuit state.durable.destination run.represented
        run.progress response = .ok left ∧ bound ≤ later ∧
      ImportedBelow circuit later { state.durable with destination := left.destination } ∧
      RemoteRun.Within circuit state.durable.source later
        { represented := left.represented
          progress := left.progress
          complete := !response.hasMore } ∧
      left.progress.after = response.highWatermark ∧
      left.progress.sourceCeiling = some response.sourceCeiling := by
  obtain ⟨open_, answers, before, frozen⟩ := within.asked response inHand
  have stable : ∀ anchor ∈ run.progress.sourceCeilingAnchor,
      response.sourceCeilingAnchorEventIdHex = some anchor := by
    intro anchor found
    cases ceiling : run.progress.sourceCeiling with
    | none =>
      rw [within.free ceiling] at found
      cases found
    | some limit =>
      obtain ⟨positive, same⟩ := within.stable open_ limit ceiling
      have equal := frozen limit ceiling
      rw [← equal] at positive same
      rw [answers.anchor positive, ← same]
      exact found
  obtain ⟨left, later, done, forward, imported, known, after, afterAnchor, ceiling,
    ceilingAnchor⟩ := materializeRemotePage_within holds within.known answers frozen stable
  refine ⟨left, later, done, forward, imported, ⟨?_, ?_, ?_, ?_, ?_, ?_, ?_⟩, after, ceiling⟩
  · show KnownPast _ _ left.progress.after _
    rw [after]
    exact known
  · show left.progress.afterAnchor = left.progress.after.bind _
    rw [after, afterAnchor]
    exact answers.highAnchor
  · intro limit found
    rw [ceiling] at found
    cases found
    refine ⟨answers.shown, ?_⟩
    intro sequence present
    rw [after] at present
    exact answers.before sequence present
  · intro ended limit found
    rw [ceiling] at found
    cases found
    have hasMore : response.hasMore = true := by simpa using ended
    have positive := (answers.more hasMore).2
    refine ⟨positive, ?_⟩
    rw [ceilingAnchor]
    exact answers.anchor positive
  · intro none_
    rw [ceiling] at none_
    cases none_
  · intro other found
    cases found
  · intro ended
    refine ⟨response.sourceCeiling, ceiling, ?_⟩
    intro positive
    have drained : response.hasMore = false := by simpa using ended
    rw [after]
    exact answers.ended drained positive

/-- A good run that has no response in hand gets an honest one, up to the ceiling it keeps. -/
theorem RemoteRun.Within.request (positive : 0 < limits.rows) (token : String) (asked : Nat)
    {run : RemoteRun} (within : run.Within circuit source bound) (open_ : run.complete = false) :
    ∃ response, serving (circuit.server token) limits source asked
        (pageRequest circuit token run.progress) = some response ∧
      RemoteRun.Within circuit source bound { run with response := some response } := by
  obtain ⟨response, handled, answers, ceiling, before⟩ := handlePage_answers positive circuit token
    run.progress.sourceCeiling within.known.marked within.frozen
  refine ⟨response, ?_, within.known, within.anchored, within.frozen, within.stable, within.free,
    ?_, within.through⟩
  · apply serving_eq
    unfold pageRequest
    rw [within.anchored]
    exact handled
  · intro other found
    cases found
    refine ⟨open_, answers, before, ?_⟩
    intro limit kept
    rw [ceiling, show run.progress.sourceCeiling = some limit from kept]
    rfl

omit [PageAuth] in
/-- A run stays good while the source grows. -/
theorem RemoteRun.Within.grows {run : RemoteRun} (within : run.Within circuit source bound)
    (bounds : source.Bounds bound) (grows : source.Extends later) :
    run.Within circuit later bound := by
  refine ⟨within.known.grows bounds grows, ?_, ?_, ?_, within.free, ?_, within.through⟩
  · rw [within.anchored]
    exact (grows.anchor within.known.marked).symm
  · intro ceiling found
    obtain ⟨shown, before⟩ := within.frozen ceiling found
    exact ⟨grows.shows shown, before⟩
  · intro open_ ceiling found
    obtain ⟨positive, same⟩ := within.stable open_ ceiling found
    have shown := (within.frozen ceiling found).1
    rw [same, grows.eventIdAt (shown.marks positive _ rfl)]
    exact ⟨positive, rfl⟩
  · intro response found
    obtain ⟨open_, answers, rest⟩ := within.asked response found
    exact ⟨open_, answers.grows grows, rest⟩

omit [PageAuth] in
/-- A call stays good while the source grows. -/
theorem RemoteStart.Within.grows {start : RemoteStart} (within : start.Within circuit source bound)
    (grows : source.Extends later) : start.Within circuit later bound := by
  refine ⟨grows.marks within.marked, within.behind, ?_, within.answers.grows grows, within.before⟩
  rw [within.anchored]
  exact (grows.anchor within.marked).symm

omit [PageAuth] in
/-- A call stays good behind a later bound. -/
theorem RemoteStart.Within.mono {start : RemoteStart} (within : start.Within circuit source bound)
    (forward : bound ≤ next) : start.Within circuit source next :=
  ⟨within.marked, Nat.le_trans within.behind forward, within.anchored, within.answers,
    within.before⟩

omit [PageAuth] in
/-- The cursor a complete run saves is good. -/
theorem RemoteRun.Within.finish {run : RemoteRun} (within : run.Within circuit source bound) :
    CursorWithin circuit source bound (finishRemoteImport circuit run) :=
  ⟨require_eq_ok.mpr ⟨rfl, rfl, rfl, rfl, rfl, rfl⟩, within.known.marked, within.known.behind,
    within.anchored⟩

omit [PageAuth] in
/-- A call that goes on adds a good start. -/
theorem RemoteHolds.enqueue (holds : RemoteHolds circuit bound state)
    {started : Except ReplicationError (Option RemoteStart)}
    (good : ∀ start, started = .ok (some start) →
      start.Within circuit state.durable.source bound) :
    RemoteHolds circuit bound (state.enqueue started) ∧
      (state.enqueue started).durable = state.durable := by
  unfold RemoteState.enqueue
  split
  · rename_i start
    refine ⟨⟨holds.durable, ?_, holds.run⟩, rfl⟩
    intro other member
    rcases List.mem_append.mp member with old | new
    · exact holds.waiting other old
    · rw [List.mem_singleton.mp new]
      exact good start rfl
  · exact ⟨⟨holds.durable, holds.waiting, holds.run⟩, rfl⟩

omit [PageAuth] in
/-- A caller that leaves changes nothing for the others. -/
theorem RemoteHolds.leave (holds : RemoteHolds circuit bound state) (index : Nat) :
    RemoteHolds circuit bound { state with waiting := state.waiting.eraseIdx index } :=
  ⟨holds.durable, fun start member => holds.waiting start (List.mem_of_mem_eraseIdx member),
    holds.run⟩

/-- What starting against a server gives is good. -/
theorem startRemote_within (positive : 0 < limits.rows) (circuit : Circuit) (token : String)
    (asked : Nat) {previous : Option ReplicaCursor}
    (saved : ∀ cursor ∈ previous, CursorWithin circuit source bound cursor) {start : RemoteStart}
    (started : startRemote circuit token (serving (circuit.server token) limits source asked)
      previous = .ok (some start)) : start.Within circuit source bound := by
  obtain ⟨own, within, _, _, told⟩ :=
    startRemote_serving positive circuit token asked saved
  rw [told] at started
  split at started
  · cases started
  · cases started
    exact within

/-- Every action keeps the invariant, at the same bound or at a later one, and the source only
grows. -/
theorem RemoteHolds.step (positive : 0 < limits.rows) (token : String)
    (holds : RemoteHolds circuit bound state) (action : RemoteAction) :
    ∃ later, bound ≤ later ∧
      RemoteHolds circuit later
        (state.step circuit token (serving (circuit.server token) limits) action) ∧
      state.durable.source.Extends
        (state.step circuit token (serving (circuit.server token) limits) action).durable.source := by
  have still : state.durable.source.Extends state.durable.source := ⟨[], by simp⟩
  cases action with
  | sourceAppend rows =>
    unfold RemoteState.step
    dsimp only
    split
    · exact ⟨bound, Nat.le_refl _, holds, still⟩
    · rename_i source extended
      have grows := SourceLog.extends_of_extend extended
      refine ⟨bound, Nat.le_refl _, ⟨holds.durable.sourceAppend grows, ?_, ?_⟩, grows⟩
      · intro start member
        exact (holds.waiting start member).grows grows
      · intro run found
        exact (holds.run run found).grows holds.durable.bounds grows
  | storeOpened row =>
    unfold RemoteState.step
    dsimp only
    split
    · rename_i own
      exact ⟨bound, Nat.le_refl _,
        ⟨holds.durable.storeOpened own.1 own.2.1 own.2.2, holds.waiting, holds.run⟩, still⟩
    · exact ⟨bound, Nat.le_refl _, holds, still⟩
  | bootstrap =>
    have good : ∀ start, bootstrapRemote circuit token
        (serving (circuit.server token) limits state.durable.source state.asked) state.durable =
        .ok (some start) → start.Within circuit state.durable.source bound := by
      intro start started
      unfold bootstrapRemote at started
      obtain ⟨_, _, rest⟩ := bind_eq_ok.mp started
      refine startRemote_within positive circuit token state.asked ?_ rest
      intro cursor found
      cases found
    obtain ⟨kept, same⟩ := holds.enqueue good
    refine ⟨bound, Nat.le_refl _, kept, ?_⟩
    show state.durable.source.Extends (state.enqueue _).durable.source
    rw [same]
    exact still
  | follow =>
    have good : ∀ start, followRemote circuit token
        (serving (circuit.server token) limits state.durable.source state.asked) state.durable =
        .ok (some start) → start.Within circuit state.durable.source bound := by
      intro start started
      unfold followRemote at started
      split at started
      · cases started
      · rename_i cursor saved
        obtain ⟨_, _, rest⟩ := bind_eq_ok.mp started
        refine startRemote_within positive circuit token state.asked ?_ rest
        intro other found
        cases found
        exact holds.durable.saved cursor saved
    obtain ⟨kept, same⟩ := holds.enqueue good
    refine ⟨bound, Nat.le_refl _, kept, ?_⟩
    show state.durable.source.Extends (state.enqueue _).durable.source
    rw [same]
    exact still
  | openStore index =>
    have left := holds.leave index
    unfold RemoteState.step
    dsimp only
    split
    · rename_i start waits free
      have within := holds.waiting start (List.mem_of_getElem? waits)
      obtain ⟨run, opened, good, _⟩ := openRemote_within holds.durable within
      rw [opened]
      refine ⟨bound, Nat.le_refl _, ⟨holds.durable, left.waiting, ?_⟩, still⟩
      intro other found
      cases found
      exact good
    · exact ⟨bound, Nat.le_refl _, left, still⟩
  | leave index => exact ⟨bound, Nat.le_refl _, holds.leave index, still⟩
  | request =>
    unfold RemoteState.step
    dsimp only
    split
    · exact ⟨bound, Nat.le_refl _, holds, still⟩
    · rename_i run running
      split
      · exact ⟨bound, Nat.le_refl _, holds, still⟩
      · rename_i idle
        have open_ : run.complete = false := by
          cases drained : run.complete with
          | false => rfl
          | true => exact absurd (Or.inr drained) idle
        obtain ⟨response, answered, good⟩ :=
          (holds.run run running).request positive token state.asked open_
        rw [answered]
        refine ⟨bound, Nat.le_refl _, ⟨holds.durable, holds.waiting, ?_⟩, still⟩
        intro other found
        cases found
        exact good
  | page =>
    unfold RemoteState.step
    dsimp only
    split
    · exact ⟨bound, Nat.le_refl _, holds, still⟩
    · rename_i run running
      split
      · exact ⟨bound, Nat.le_refl _, holds, still⟩
      · rename_i response inHand
        obtain ⟨left, later, done, forward, imported, good, _⟩ :=
          (holds.run run running).page holds.durable inHand
        rw [done]
        refine ⟨later, forward, ⟨imported, ?_, ?_⟩, still⟩
        · intro start member
          exact (holds.waiting start member).mono forward
        · intro other found
          cases found
          exact good
  | finish =>
    unfold RemoteState.step
    dsimp only
    split
    · exact ⟨bound, Nat.le_refl _, holds, still⟩
    · rename_i run running
      split
      · have fine := (holds.run run running).finish
        refine ⟨bound, Nat.le_refl _, ⟨holds.durable.save fine, holds.waiting, ?_⟩, still⟩
        intro other found
        cases found
      · exact ⟨bound, Nat.le_refl _, holds, still⟩
  | stop =>
    refine ⟨bound, Nat.le_refl _, ⟨holds.durable, holds.waiting, ?_⟩, still⟩
    intro run found
    cases found

/-- So does every sequence of actions. -/
theorem RemoteHolds.runAll (positive : 0 < limits.rows) (token : String)
    (holds : RemoteHolds circuit bound state) (actions : List RemoteAction) :
    ∃ later, bound ≤ later ∧
      RemoteHolds circuit later
        (state.runAll circuit token (serving (circuit.server token) limits) actions) ∧
      state.durable.source.Extends
        (state.runAll circuit token (serving (circuit.server token) limits)
          actions).durable.source := by
  induction actions generalizing state bound with
  | nil => exact ⟨bound, Nat.le_refl _, holds, [], by simp [RemoteState.runAll]⟩
  | cons action rest ih =>
    obtain ⟨middle, forward, kept, front, first⟩ := holds.step positive token action
    obtain ⟨later, further, whole, back, second⟩ := ih kept
    refine ⟨later, Nat.le_trans forward further, whole, front ++ back, ?_⟩
    show ((state.step circuit token (serving (circuit.server token) limits) action).runAll circuit
      token (serving (circuit.server token) limits) rest).durable.source.rows = _
    rw [second, first, List.append_assoc]

omit [PageAuth] in
/-- A fresh replica holds the invariant. -/
theorem RemoteHolds.fresh (circuit : Circuit) (source : SourceLog) :
    RemoteHolds circuit 0 (RemoteState.fresh source) := by
  refine ⟨ImportedBelow.fresh circuit source, ?_, ?_⟩
  · intro start member
    cases member
  · intro run found
    cases found

/-- The state after one action and then some more. -/
theorem RemoteState.runAll_cons (circuit : Circuit) (token : String) (serve : Answering)
    (state : RemoteState) (action : RemoteAction) (rest : List RemoteAction) :
    state.runAll circuit token serve (action :: rest) =
      (state.step circuit token serve action).runAll circuit token serve rest := rfl

/-- The state after some actions and then some more. -/
theorem RemoteState.runAll_append (circuit : Circuit) (token : String) (serve : Answering)
    (state : RemoteState) (front back : List RemoteAction) :
    state.runAll circuit token serve (front ++ back) =
      (state.runAll circuit token serve front).runAll circuit token serve back :=
  List.foldl_append

/-- The first page of a run, and one more for each further request. -/
def exchanges (rounds : Nat) : List RemoteAction :=
  .page :: (List.replicate rounds [RemoteAction.request, RemoteAction.page]).flatten

/-- A run that is left alone with a response in hand goes over its last page after at most as many
further requests as there are rows ahead of it. -/
theorem RemoteHolds.drain (positive : 0 < limits.rows) (token : String)
    (holds : RemoteHolds circuit bound state) {run : RemoteRun} (running : state.run = some run)
    {response : PageResponse} (inHand : run.response = some response) :
    ∃ rounds ≤ (state.durable.source.ahead run.progress.after response.sourceCeiling).length,
      ∃ later destination moved asked,
        state.runAll circuit token (serving (circuit.server token) limits) (exchanges rounds) =
          { state with durable := { state.durable with destination := destination },
                       asked := asked, run := some moved } ∧
        ImportedBelow circuit later { state.durable with destination := destination } ∧
        moved.Within circuit state.durable.source later ∧ moved.complete = true ∧
        moved.progress.sourceCeiling = some response.sourceCeiling := by
  -- The rows ahead of the run decide how many requests are left.
  induction size : (state.durable.source.ahead run.progress.after response.sourceCeiling).length
    using Nat.strong_induction_on generalizing state run response bound with
  | _ count ih =>
    have within := holds.run run running
    obtain ⟨_, answers, before, frozen⟩ := within.asked response inHand
    obtain ⟨left, later, done, forward, imported, good, after, ceiling⟩ :=
      within.page holds.durable inHand
    let moved : RemoteRun :=
      { represented := left.represented
        progress := left.progress
        complete := !response.hasMore }
    let taken : RemoteState :=
      { state with durable := { state.durable with destination := left.destination }
                   run := some moved }
    have stepped : state.step circuit token (serving (circuit.server token) limits) .page =
        taken := by
      unfold RemoteState.step
      dsimp only
      rw [running]
      dsimp only
      rw [inHand]
      dsimp only
      rw [done]
    cases hasMore : response.hasMore with
    | false =>
      refine ⟨0, Nat.zero_le _, later, left.destination, moved, state.asked, ?_, imported, good, ?_,
        ceiling⟩
      · unfold exchanges
        rw [RemoteState.runAll_cons, stepped]
        rfl
      · show (!response.hasMore) = true
        rw [hasMore]
        rfl
    | true =>
      have open_ : moved.complete = false := by
        show (!response.hasMore) = false
        rw [hasMore]
        rfl
      obtain ⟨next, answered, ready⟩ := good.request positive token state.asked open_
      let entered : RemoteState :=
        { taken with asked := state.asked + 1, run := some { moved with response := some next } }
      have requested : taken.step circuit token (serving (circuit.server token) limits) .request =
          entered := by
        have idle : ¬ (moved.response.isSome = true ∨ moved.complete = true) := by
          rw [open_]
          simp [moved]
        unfold RemoteState.step
        dsimp only
        show (if moved.response.isSome = true ∨ moved.complete = true then _ else _) = _
        rw [if_neg idle, show serving (circuit.server token) limits taken.durable.source taken.asked
          (pageRequest circuit token moved.progress) = some next from answered]
      have kept : RemoteHolds circuit later entered := by
        refine ⟨imported, fun start member => (holds.waiting start member).mono forward, ?_⟩
        intro other found
        cases found
        exact ready
      have same : next.sourceCeiling = response.sourceCeiling :=
        (ready.asked next rfl).2.2.2 _ ceiling
      have fewer : (entered.durable.source.ahead moved.progress.after next.sourceCeiling).length <
          count := by
        rw [same, ← size, show moved.progress.after = response.highWatermark from after]
        exact SourceLog.ahead_shorter answers.marked (answers.more hasMore).1 answers.before
      obtain ⟨rounds, few, last, destination, final, asked, whole, held, inside, drained, limit⟩ :=
        ih _ fewer kept rfl rfl rfl
      refine ⟨rounds + 1, by omega, last, destination, final, asked, ?_, held, inside, drained,
        limit.trans (congrArg some same)⟩
      have shape : exchanges (rounds + 1) = .page :: .request :: exchanges rounds := by
        unfold exchanges
        rw [List.replicate_succ]
        rfl
      rw [shape, RemoteState.runAll_cons, stepped, RemoteState.runAll_cons, requested, whole]

omit [PageAuth] in
/-- An unchanged first response up to the frontier says that the cursor is there. -/
theorem unchangedRemote_high {cursor same : ReplicaCursor} {start : RemoteStart}
    (ahead : 0 < source.frontier) (ceiling : start.first.sourceCeiling = source.frontier)
    (after : start.after = cursor.sourceHighWatermark)
    (unchanged : unchangedRemote (some cursor) start.after start.first = some same) :
    cursor.sourceHighWatermark = some source.frontier := by
  have told := (Option.filter_eq_some_iff.mp unchanged).2
  simp only [Bool.and_eq_true, decide_eq_true_eq] at told
  have limit := told.2
  rw [ceiling, after] at limit
  cases high : cursor.sourceHighWatermark with
  | none =>
    rw [high] at limit
    have zero : source.frontier = 0 := limit
    omega
  | some sequence =>
    rw [high] at limit
    exact congrArg some limit.symm

/-- Where nothing runs and nothing is waited for, exchanges and endings do nothing. -/
theorem RemoteState.runAll_idle (circuit : Circuit) (token : String) (serve : Answering)
    {state : RemoteState} (free : state.run = none) :
    state.runAll circuit token serve
      (.openStore state.waiting.length :: exchanges 0 ++ [.finish]) = state := by
  have opened : state.step circuit token serve (.openStore state.waiting.length) = state := by
    unfold RemoteState.step
    dsimp only
    rw [List.getElem?_eq_none (Nat.le_refl _), List.eraseIdx_of_length_le (Nat.le_refl _)]
  have paged : state.step circuit token serve .page = state := by
    unfold RemoteState.step
    dsimp only
    rw [free]
  have finished : state.step circuit token serve .finish = state := by
    unfold RemoteState.step
    dsimp only
    rw [free]
  show ((state.step circuit token serve (.openStore state.waiting.length)).step circuit token serve
    .page).step circuit token serve .finish = state
  rw [opened, paged, finished]

/-- A call that nobody is in the way of opens the store, goes over all pages and saves its
cursor. -/
theorem RemoteHolds.imports (positive : 0 < limits.rows) (token : String)
    (holds : RemoteHolds circuit bound state) (free : state.run = none) {start : RemoteStart}
    (within : start.Within circuit state.durable.source bound) :
    ∃ rounds ≤ state.durable.source.rows.length, ∃ later destination cursor asked,
      ({ state with waiting := state.waiting ++ [start] } : RemoteState).runAll circuit token
          (serving (circuit.server token) limits)
          (.openStore state.waiting.length :: exchanges rounds ++ [.finish]) =
        { state with
          durable := { state.durable with destination := destination, cursor := some cursor }
          asked := asked } ∧
      ImportedBelow circuit later
        { state.durable with destination := destination, cursor := some cursor } ∧
      (0 < start.first.sourceCeiling →
        cursor.sourceHighWatermark = some start.first.sourceCeiling) := by
  obtain ⟨run, opened, good, inHand, _⟩ := openRemote_within holds.durable within
  let entered : RemoteState := { state with run := some run }
  have first : ({ state with waiting := state.waiting ++ [start] } : RemoteState).step circuit token
      (serving (circuit.server token) limits) (.openStore state.waiting.length) = entered := by
    have waits : (state.waiting ++ [start])[state.waiting.length]? = some start := by simp
    have left : (state.waiting ++ [start]).eraseIdx state.waiting.length = state.waiting := by
      rw [List.eraseIdx_append_of_length_le (Nat.le_refl _)]
      simp
    unfold RemoteState.step
    dsimp only
    rw [waits, free]
    dsimp only
    rw [opened, left]
  have kept : RemoteHolds circuit bound entered := by
    refine ⟨holds.durable, holds.waiting, ?_⟩
    intro other found
    cases found
    exact good
  obtain ⟨rounds, few, later, destination, moved, asked, whole, imported, inside, drained, ceiling⟩ :=
    kept.drain positive token rfl inHand
  have bounded : (state.durable.source.ahead run.progress.after start.first.sourceCeiling).length ≤
      state.durable.source.rows.length := by
    unfold SourceLog.ahead rowsAfter
    exact Nat.le_trans (List.length_filter_le _ _) (List.length_filter_le _ _)
  have fine := inside.finish
  refine ⟨rounds, Nat.le_trans few bounded, later, destination, finishRemoteImport circuit moved,
    asked, ?_, ?_, ?_⟩
  · rw [List.cons_append, RemoteState.runAll_cons, first, RemoteState.runAll_append, whole,
      RemoteState.runAll_cons]
    unfold RemoteState.step
    dsimp only
    rw [drained, if_pos rfl, ← free]
    rfl
  · exact imported.save fine
  · intro ceil
    obtain ⟨limit, frozen, high⟩ := inside.through drained
    rw [ceiling] at frozen
    cases frozen
    exact high ceil

end Invariant

end Following

section Stopped

local instance : StoreKinds := plainKinds

/-- Tags that are taken from the secret's length and the cursor. -/
local instance plainTags : PageAuth where
  tag secret body := Vector.replicate 32 (UInt8.ofNat (secret.length + body.after.getD 0))

/-- A circuit over two hosts. -/
def distantCircuit : Circuit where
  root := "."
  workspaceId := "demo"
  sourceJournal := "canonical"
  replicaJournal := "agent"
  replicaPath := "./.texo/replicas/agent"
  sourceEndpoint := some "127.0.0.1:7001"

/-- A replica is brought up, its source grows, and the next run stops behind its batch. -/
def stoppedExchange : List RemoteAction :=
  [.bootstrap, .openStore 0, .page, .request, .page, .finish,
    .sourceAppend [smallRow 4 0xE001, smallRow 5 0xE001, smallRow 6 0xE001], .follow, .openStore 0,
    .page, .stop]

end Stopped

end Texo.Replication
