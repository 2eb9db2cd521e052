import Texo.Ops.CodeIndex
import Texo.Ops.IndexHistory
import Texo.Backup.Evidence

/-! # What code-index builds leave

A build writes the file of its index id and registers the id unless it is registered. The latest
registration of the snapshot loads the reported artifact exactly where the id was not registered,
or where it was the latest registered one already and the artifact is the registered one.
-/
namespace Texo.Ops
open Texo.Events Texo.Knowledge Texo.Store Texo.Claims Texo.Foundation Texo.CodeIndex Texo.Ingest

/-- The code indexes some rows register, in order. -/
def registeredIndexes (rows : List Entry) : List CodeIndexRecordedV1 :=
  rows.filterMap fun row =>
    match row.payload with
    | .codeIndexRecorded registered => some registered
    | _ => none

/-- The code indexes registered in the workspace of a journal, in order. -/
def indexesOf (workspaceId : String) (journal : Journal) : List CodeIndexRecordedV1 :=
  registeredIndexes (workspaceRows journal workspaceId)

/-- A registered index is that of a row. -/
theorem mem_registeredIndexes {rows : List Entry} {registered : CodeIndexRecordedV1} :
    registered ∈ registeredIndexes rows ↔
      ∃ row ∈ rows, row.payload = .codeIndexRecorded registered := by
  unfold registeredIndexes
  rw [List.mem_filterMap]
  constructor
  · intro ⟨row, member, found⟩
    refine ⟨row, member, ?_⟩
    split at found
    · rename_i carried
      rw [carried, Option.some.inj found]
    · cases found
  · intro ⟨row, member, carried⟩
    exact ⟨row, member, by rw [carried]⟩

/-- The last registration for a snapshot among some. -/
def latestFor (snapshotId : SourceSnapshotId) (registered : List CodeIndexRecordedV1) :
    Option CodeIndexRecordedV1 :=
  (registered.filter fun index => index.snapshotId = snapshotId).getLast?

/-- A registration of the snapshot is the latest once it is added. -/
theorem latestFor_snoc (registered : List CodeIndexRecordedV1) (index : CodeIndexRecordedV1) :
    latestFor index.snapshotId (registered ++ [index]) = some index := by
  unfold latestFor
  rw [List.filter_append, List.filter_singleton]
  simp

/-- The latest registration is one of the snapshot among the registered ones. -/
theorem mem_of_latestFor {snapshotId : SourceSnapshotId} {registered : List CodeIndexRecordedV1}
    {index : CodeIndexRecordedV1} (latest : latestFor snapshotId registered = some index) :
    index ∈ registered ∧ index.snapshotId = snapshotId := by
  have member := List.mem_of_getLast? latest
  have both := List.mem_filter.mp member
  exact ⟨both.1, of_decide_eq_true both.2⟩

/-- A code-index scan keeps the last registration of the snapshot. -/
theorem foldlM_scanCodeIndex (journal : Journal) (snapshotId : SourceSnapshotId)
    (rows : List Entry) (found : Option CodeIndexRecordedV1) :
    rows.foldlM (scanCodeIndex (readable journal) snapshotId) found =
      .ok ((latestFor snapshotId (registeredIndexes rows)).or found) := by
  induction rows generalizing found with
  | nil => rfl
  | cons row rest ih =>
    have split : registeredIndexes (row :: rest) =
        registeredIndexes [row] ++ registeredIndexes rest := by
      unfold registeredIndexes
      rw [← List.filterMap_append]
      rfl
    have later : ∀ found : Option CodeIndexRecordedV1,
        (latestFor snapshotId (registeredIndexes [row] ++ registeredIndexes rest)).or found =
          (latestFor snapshotId (registeredIndexes rest)).or
            ((latestFor snapshotId (registeredIndexes [row])).or found) := by
      intro found
      unfold latestFor
      rw [List.filter_append, List.getLast?_append, Option.or_assoc]
    have step : scanCodeIndex (readable journal) snapshotId found row =
        .ok ((latestFor snapshotId (registeredIndexes [row])).or found) := by
      unfold scanCodeIndex
      cases stored : row.payload with
      | codeIndexRecorded registered =>
        by_cases own : registered.snapshotId = snapshotId
        · simp [Payload.kind, readable, JournalRead.readRaw, JournalRead.intact, stored, Except.map,
            registeredIndexes, latestFor, own]
        · simp [Payload.kind, readable, JournalRead.readRaw, JournalRead.intact, stored, Except.map,
            registeredIndexes, latestFor, own]
      | _ => simp [Payload.kind, registeredIndexes, stored, latestFor]
    rw [List.foldlM_cons, step, split, later]
    exact ih _

/-- The latest code index of a snapshot is the last one registered for it. -/
theorem latestCodeIndex_readable (journal : Journal) (workspaceId : String)
    (snapshotId : SourceSnapshotId) :
    latestCodeIndex (readable journal) workspaceId none snapshotId =
      .ok (latestFor snapshotId (indexesOf workspaceId journal)) := by
  have rows : scannedRows (readable journal) workspaceId none = workspaceRows journal workspaceId := by
    unfold scannedRows
    rw [JournalRead.flatten_pages]
    exact rowsAfter_none _
  unfold latestCodeIndex
  rw [rows, foldlM_scanCodeIndex, Option.or_none]
  rfl

section
variable [Blake3]

/-- A row that registers an index lies in its workspace, under the key of the index. -/
theorem row_of_index {row : Entry} (conforms : Conforms row) {index : CodeIndexRecordedV1}
    (carries : row.payload = .codeIndexRecorded index) :
    row.scope = scopeForWorkspace index.workspaceId.value ∧
      row.eventId = .forOperation "texo.code.index.recorded.v1"
        [index.workspaceId.value, index.indexId.value] := by
  constructor
  · have placed := conforms.placed _ (by rw [carries]; rfl)
    exact (congrArg Coordinate.scope placed).symm
  · have admissible := conforms.admissible
    rw [carries] at admissible
    exact admissible

/-- An index registered in a workspace is that of a conforming row of the workspace. -/
theorem row_of_registered {journal : Journal} (conforming : journal.Conforming)
    {workspaceId : String} {index : CodeIndexRecordedV1}
    (registered : index ∈ indexesOf workspaceId journal) :
    ∃ row ∈ journal.entries, row.payload = .codeIndexRecorded index ∧
      row.eventId = .forOperation "texo.code.index.recorded.v1"
        [workspaceId, index.indexId.value] := by
  obtain ⟨row, member, carries⟩ := mem_registeredIndexes.mp registered
  obtain ⟨inside, inScope⟩ := Journal.mem_region.mp member
  have told := row_of_index (conforming row inside) carries
  have lies : index.workspaceId.value = workspaceId :=
    scopeForWorkspace_injective (told.1.symm.trans inScope)
  exact ⟨row, inside, carries, by rw [told.2, lies]⟩

/-- An index id is registered once in a workspace. -/
theorem registered_once {journal : Journal} (conforming : journal.Conforming) {workspaceId : String}
    {left right : CodeIndexRecordedV1} (leftIn : left ∈ indexesOf workspaceId journal)
    (rightIn : right ∈ indexesOf workspaceId journal) (same : left.indexId = right.indexId) :
    left = right := by
  obtain ⟨first, firstIn, firstCarries, firstKey⟩ := row_of_registered conforming leftIn
  obtain ⟨second, secondIn, secondCarries, secondKey⟩ := row_of_registered conforming rightIn
  have keys : first.eventId = second.eventId := by rw [firstKey, secondKey, same]
  have rows := Journal.eq_of_eventId firstIn secondIn keys
  rw [rows, secondCarries] at firstCarries
  exact (Payload.codeIndexRecorded.inj firstCarries).symm

/-- Registering an index adds it where its id is new, and nothing where it is registered. -/
theorem indexesOf_register {journal : Journal} (conforming : journal.Conforming)
    (index : CodeIndexRecordedV1) {workspaceId : String}
    (here : index.workspaceId.value = workspaceId) :
    ((∃ earlier ∈ indexesOf workspaceId journal, earlier.indexId = index.indexId) ∧
        (appendCodeIndexRecorded journal index).2 = journal) ∨
      ((∀ earlier ∈ indexesOf workspaceId journal, earlier.indexId ≠ index.indexId) ∧
        indexesOf workspaceId (appendCodeIndexRecorded journal index).2 =
          indexesOf workspaceId journal ++ [index]) := by
  let key : EventId := .forOperation "texo.code.index.recorded.v1"
    [index.workspaceId.value, index.indexId.value]
  have assigned : journal.assignedId (some key) = key := rfl
  rcases journal.append_cases (some key) (scopeForWorkspace index.workspaceId.value)
    (coordinateForCodeIndex index.workspaceId.value index.indexId.value).entity
    (.codeIndexRecorded index) with ⟨entry, member, used, same⟩ | ⟨unused, _, grown⟩
  · left
    have own := conforming entry member
    have named : Admissible (.codeIndexRecorded index) entry.eventId := used.trans assigned
    have kind := kind_of_admissible named (by simp [Payload.kind, domainOperation]) own.admissible
    cases stored : entry.payload with
    | codeIndexRecorded earlier =>
      have told := row_of_index own stored
      have keys := told.2.symm.trans named
      simp only [EventId.forOperation.injEq, List.cons.injEq, true_and, and_true] at keys
      have scope : entry.scope = scopeForWorkspace workspaceId := by rw [told.1, keys.1, here]
      have registered : earlier ∈ indexesOf workspaceId journal :=
        mem_registeredIndexes.mpr ⟨entry, Journal.mem_region.mpr ⟨member, scope⟩, stored⟩
      exact ⟨⟨earlier, registered, Branded.ext keys.2⟩, congrArg Prod.snd same⟩
    | _ =>
      rw [stored] at kind
      cases kind
  · right
    constructor
    · intro earlier registered same
      obtain ⟨row, inside, _, rowKey⟩ := row_of_registered conforming registered
      apply unused row inside
      rw [assigned, rowKey, same, ← here]
    · have region : workspaceRows (appendCodeIndexRecorded journal index).2 workspaceId =
          workspaceRows journal workspaceId ++
            [⟨journal.lastSequence + 1, key, scopeForWorkspace index.workspaceId.value,
              (coordinateForCodeIndex index.workspaceId.value index.indexId.value).entity,
              .codeIndexRecorded index⟩] := by
        unfold workspaceRows Journal.region
        show List.filter _ (journal.append (some key) (scopeForWorkspace index.workspaceId.value)
          (coordinateForCodeIndex index.workspaceId.value index.indexId.value).entity
          (.codeIndexRecorded index)).2.entries = _
        rw [grown, List.filter_append, List.filter_singleton]
        simp [here, assigned]
      unfold indexesOf
      rw [region, registeredIndexes, List.filterMap_append]
      rfl

variable [IndexTools] [ArtifactCodec]

omit [IndexTools] in
/-- A reusable index is the latest one registered for the snapshot, and its file loads. -/
theorem reusableIndex_some {run : CodeIndexBuildRun} {workspaceId : String} {state : IndexState}
    {snapshotId : SourceSnapshotId} {existing : CodeIndexRecordedV1} {artifact : CodeIndexArtifact}
    (reused : reusableIndex run workspaceId state snapshotId = .ok (some (existing, artifact))) :
    latestCodeIndex (readable state.journal) workspaceId none snapshotId = .ok (some existing) ∧
      load state.files existing.indexId existing.artifactDigestHex = .ok (some artifact) := by
  unfold reusableIndex at reused
  split at reused
  · obtain ⟨latest, scanned, reused⟩ := bind_eq_ok.mp reused
    cases latest with
    | none => cases reused
    | some latest =>
      obtain ⟨kept, loaded, reused⟩ := bind_eq_ok.mp reused
      cases kept with
      | none => cases reused
      | some kept =>
        obtain ⟨_, _, reused⟩ := bind_eq_ok.mp reused
        have both := Prod.mk.inj (Option.some.inj (Except.ok.inj reused))
        rw [← both.1, ← both.2]
        exact ⟨scanned, loaded⟩
  · cases reused

/-- What a plan rests on: a registered index that loads, or a build of the recorded snapshot. -/
theorem planCodeIndex_cases {run : CodeIndexBuildRun} {workspaceId : String} {state : IndexState}
    {plan : CodeIndexPlan} (planned : planCodeIndex run workspaceId state = .ok plan) :
    (∃ snapshotId existing artifact, plan = .reuse existing artifact ∧
        latestCodeIndex (readable state.journal) workspaceId none snapshotId = .ok (some existing) ∧
        load state.files existing.indexId existing.artifactDigestHex = .ok (some artifact)) ∨
      ∃ recorded prepared capture scipBytes limits, plan = .fresh recorded prepared ∧
        capture.snapshotId = recorded.snapshotId ∧
        build run.clock capture scipBytes limits = .ok prepared := by
  obtain ⟨limits, _, planned⟩ := bind_eq_ok.mp planned
  obtain ⟨⟨recorded, capture⟩, recaptured, planned⟩ := bind_eq_ok.mp planned
  have same : capture.snapshotId = recorded.snapshotId := by
    obtain ⟨snapshot, _, recaptured⟩ := bind_eq_ok.mp recaptured
    obtain ⟨captured, _, recaptured⟩ := bind_eq_ok.mp recaptured
    obtain ⟨_, required, recaptured⟩ := bind_eq_ok.mp recaptured
    have both := Prod.mk.inj (Except.ok.inj recaptured)
    rw [← both.1, ← both.2]
    exact require_eq_ok.mp required
  obtain ⟨reused, tried, planned⟩ := bind_eq_ok.mp planned
  cases reused with
  | some pair =>
    left
    have found := reusableIndex_some tried
    exact ⟨recorded.snapshotId, pair.1, pair.2, (Except.ok.inj planned).symm, found.1, found.2⟩
  | none =>
    right
    obtain ⟨scipBytes, _, planned⟩ := bind_eq_ok.mp (show (run.scipBytes limits >>= fun scipBytes =>
      build run.clock capture scipBytes limits >>= fun prepared =>
        Except.ok (CodeIndexPlan.fresh recorded prepared)) = Except.ok plan from planned)
    obtain ⟨prepared, built, planned⟩ := bind_eq_ok.mp planned
    exact ⟨recorded, prepared, capture, scipBytes, limits, (Except.ok.inj planned).symm, same, built⟩

omit [IndexTools] in
/-- The latest registered code index of the snapshot loads, and gives exactly the artifact. -/
def LoadsBack (workspaceId : String) (after : IndexState) (snapshotId : SourceSnapshotId)
    (artifact : CodeIndexArtifact) : Prop :=
  ∃ registered, latestCodeIndex (readable after.journal) workspaceId none snapshotId =
      .ok (some registered) ∧
    load after.files registered.indexId registered.artifactDigestHex = .ok (some artifact)

omit [Blake3] [IndexTools] [ArtifactCodec] in
/-- The id of the prepared index is not registered, or it is the latest one registered for the
snapshot and the prepared bytes are the registered ones. -/
def Settled (workspaceId : String) (before : IndexState) (prepared : PreparedCodeIndex) : Prop :=
  (∀ earlier ∈ indexesOf workspaceId before.journal,
      earlier.indexId ≠ prepared.artifact.indexId) ∨
    ∃ latest, latestFor prepared.artifact.snapshotId (indexesOf workspaceId before.journal) =
        some latest ∧
      latest.indexId = prepared.artifact.indexId ∧
      latest.artifactDigestHex = prepared.artifactDigestHex

/-- A run reuses a registered index, or what its inputs give is settled with what is registered. -/
def Settles (workspaceId : String) (before : IndexState) (run : CodeIndexBuildRun) : Prop :=
  ∀ recorded prepared, planCodeIndex run workspaceId before = .ok (.fresh recorded prepared) →
    Settled workspaceId before prepared

omit [Blake3] [IndexTools] [ArtifactCodec] in
/-- What a run that wrote a new index leaves. -/
theorem writeCodeIndex_ok {run : CodeIndexBuildRun} {workspaceId : String}
    {before after : IndexState} {recorded : SourceSnapshotRecordedV1} {prepared : PreparedCodeIndex}
    {output : CodeIndexBuildOutput} {artifact : CodeIndexArtifact}
    (done : writeCodeIndex run workspaceId before recorded prepared =
      (after, .ok (output, artifact))) :
    artifact = prepared.artifact ∧ output.snapshotId = recorded.snapshotId ∧
      after.files = persist before.files prepared ∧
      ∃ named : WorkspaceId, named.value = workspaceId ∧
        after.journal = (appendCodeIndexRecorded before.journal
          (registrationOf named recorded prepared run.input.observedAtMs)).2 := by
  unfold writeCodeIndex at done
  cases fault : run.persistFault with
  | some failure =>
    rw [fault] at done
    cases (Prod.mk.inj done).2
  | none =>
    rw [fault] at done
    simp only at done
    cases valid : workspaceIdOf workspaceId with
    | error failure =>
      rw [valid] at done
      cases (Prod.mk.inj done).2
    | ok named =>
      rw [valid] at done
      simp only at done
      cases late : run.appendFault with
      | some failure =>
        rw [late] at done
        cases (Prod.mk.inj done).2
      | none =>
        rw [late] at done
        obtain ⟨left, right⟩ := Prod.mk.inj done
        have both := Prod.mk.inj (Except.ok.inj right)
        rw [← left, ← both.1, ← both.2]
        exact ⟨rfl, rfl, rfl, named, value_of_workspaceIdOf valid, rfl⟩

/-- After a written index the latest registration loads it exactly where it is settled with what
was registered before. -/
theorem writeCodeIndex_loads_iff {run : CodeIndexBuildRun} {workspaceId : String}
    {before after : IndexState} {recorded : SourceSnapshotRecordedV1} {prepared : PreparedCodeIndex}
    {capture : GitCapture} {scipBytes : Option (List UInt8)} {limits : CodeIndexLimits}
    (conforming : before.journal.Conforming)
    (same : capture.snapshotId = recorded.snapshotId)
    (built : build run.clock capture scipBytes limits = .ok prepared)
    {output : CodeIndexBuildOutput} {artifact : CodeIndexArtifact}
    (done : writeCodeIndex run workspaceId before recorded prepared =
      (after, .ok (output, artifact))) :
    LoadsBack workspaceId after output.snapshotId artifact ↔
      Settled workspaceId before prepared := by
  obtain ⟨encoded, digested, current, captured⟩ := build_spec built
  obtain ⟨stands, reported, files, named, here, journal⟩ := writeCodeIndex_ok done
  have snapshot : prepared.artifact.snapshotId = recorded.snapshotId := captured.trans same
  have held : after.files prepared.artifact.indexId = some prepared.bytes := by
    rw [files]
    exact Function.update_self _ _ _
  have loads : load after.files prepared.artifact.indexId prepared.artifactDigestHex =
      .ok (some artifact) := by
    rw [digested, stands]
    exact load_kept held (ArtifactCodec.roundTrip encoded) current rfl
  unfold LoadsBack
  rw [reported, latestCodeIndex_readable]
  rcases indexesOf_register conforming
      (registrationOf named recorded prepared run.input.observedAtMs) here with
    ⟨⟨earlier, registered, known⟩, kept⟩ | ⟨fresh, grown⟩
  · rw [journal, kept]
    constructor
    · intro ⟨latest, scanned, loaded⟩
      obtain ⟨own, bytes, there, digest, _⟩ := load_some loaded
      have id : latest.indexId = prepared.artifact.indexId := by rw [← own, stands]
      rw [id, held] at there
      refine Or.inr ⟨latest, ?_, id, ?_⟩
      · rw [snapshot]
        exact Except.ok.inj scanned
      · rw [← digest, digested, Option.some.inj there]
    · intro settled
      rcases settled with unknown | ⟨latest, scanned, id, digest⟩
      · exact absurd known (unknown earlier registered)
      · refine ⟨latest, ?_, ?_⟩
        · rw [← snapshot, scanned]
        · rw [id, digest]
          exact loads
  · rw [journal, grown]
    constructor
    · intro _
      exact Or.inl fresh
    · intro _
      refine ⟨registrationOf named recorded prepared run.input.observedAtMs, ?_, loads⟩
      have last := latestFor_snoc (indexesOf workspaceId before.journal)
        (registrationOf named recorded prepared run.input.observedAtMs)
      exact congrArg Except.ok last

/-- After a successful run the latest registration of its snapshot loads the reported artifact
exactly where the run was settled with what was registered before. -/
theorem codeIndexBuild_loads_iff {run : CodeIndexBuildRun} {workspaceId : String}
    {before after : IndexState} {output : CodeIndexBuildOutput} {artifact : CodeIndexArtifact}
    (conforming : before.journal.Conforming)
    (done : codeIndexBuild run workspaceId before = (after, .ok (output, artifact))) :
    LoadsBack workspaceId after output.snapshotId artifact ↔ Settles workspaceId before run := by
  unfold codeIndexBuild at done
  unfold Settles
  cases planned : planCodeIndex run workspaceId before with
  | error failure =>
    rw [planned] at done
    cases (Prod.mk.inj done).2
  | ok plan =>
    rw [planned] at done
    rcases planCodeIndex_cases planned with ⟨snapshotId, existing, kept, rfl, latest, loaded⟩ |
      ⟨recorded, prepared, capture, scipBytes, limits, rfl, same, built⟩
    · obtain ⟨left, right⟩ := Prod.mk.inj done
      have both := Prod.mk.inj (Except.ok.inj right)
      have snapshot : existing.snapshotId = snapshotId := by
        rw [latestCodeIndex_readable] at latest
        exact (mem_of_latestFor (Except.ok.inj latest)).2
      constructor
      · intro _ recorded prepared fresh
        cases fresh
      · intro _
        rw [← left, ← both.1, ← both.2]
        refine ⟨existing, ?_, loaded⟩
        show latestCodeIndex _ _ _ existing.snapshotId = _
        rw [snapshot]
        exact latest
    · rw [writeCodeIndex_loads_iff conforming same built done]
      constructor
      · intro settled _ _ fresh
        injection fresh with fresh
        injection fresh with _ prepared
        rw [← prepared]
        exact settled
      · intro settles
        exact settles recorded prepared rfl

/-- One step of a history: a run, appends of other operations cut off where one fails, or the loss
of a cache file. -/
inductive IndexStep where
  | build (run : CodeIndexBuildRun)
  | others (payloads : List Payload)
  | lose (indexId : CodeIndexId)

/-- What a step leaves. -/
def IndexStep.after (workspaceId : String) (state : IndexState) : IndexStep → IndexState
  | .build run => (codeIndexBuild run workspaceId state).1
  | .others payloads =>
    { state with
      journal := (stateAfter (appendWithin payloads.length
        { workspaceId := workspaceId, journal := state.journal } payloads)).journal }
  | .lose indexId => { state with files := Function.update state.files indexId none }

omit [Blake3] [IndexTools] [ArtifactCodec] in
/-- One successful run of a history, with what it found and what it left. -/
structure IndexVisit where
  before : IndexState
  run : CodeIndexBuildRun
  after : IndexState
  output : CodeIndexBuildOutput
  artifact : CodeIndexArtifact

/-- The successful run of a step, if it is one. -/
def IndexStep.visit (workspaceId : String) (state : IndexState) : IndexStep → Option IndexVisit
  | .build run =>
    match codeIndexBuild run workspaceId state with
    | (after, .ok (output, artifact)) => some ⟨state, run, after, output, artifact⟩
    | (_, .error _) => none
  | _ => none

/-- The successful runs of a history, in order. -/
def visits (workspaceId : String) : IndexState → List IndexStep → List IndexVisit
  | _, [] => []
  | state, step :: rest =>
    (step.visit workspaceId state).toList ++ visits workspaceId (step.after workspaceId state) rest

/-- The state a history leaves. -/
def stateThrough (workspaceId : String) (start : IndexState) (steps : List IndexStep) : IndexState :=
  steps.foldl (fun state step => step.after workspaceId state) start

/-- A run leaves a conforming continuation of its journal. -/
theorem codeIndexBuild_journal (run : CodeIndexBuildRun) (workspaceId : String) (state : IndexState)
    (conforming : state.journal.Conforming) :
    state.journal.Extends (codeIndexBuild run workspaceId state).1.journal ∧
      (codeIndexBuild run workspaceId state).1.journal.Conforming := by
  have stays : state.journal.Extends state.journal ∧ state.journal.Conforming :=
    ⟨Journal.Extends.refl _, conforming⟩
  unfold codeIndexBuild
  cases planCodeIndex run workspaceId state with
  | error failure => exact stays
  | ok plan =>
    cases plan with
    | reuse existing artifact => exact stays
    | fresh recorded prepared =>
      show _ ∧ (writeCodeIndex run workspaceId state recorded prepared).1.journal.Conforming
      unfold writeCodeIndex
      cases run.persistFault with
      | some fault => exact stays
      | none =>
        simp only
        cases workspaceIdOf workspaceId with
        | error failure => exact stays
        | ok named =>
          cases run.appendFault with
          | some fault => exact stays
          | none =>
            let index := registrationOf named recorded prepared run.input.observedAtMs
            have appended : ({ workspaceId := workspaceId, journal := state.journal } : OpEnv).append
                (.codeIndexRecorded index) = .ok
                  { workspaceId := workspaceId
                    journal := (appendCodeIndexRecorded state.journal index).2
                    receipts := [] ++ [(appendCodeIndexRecorded state.journal index).1.eventId] } :=
              rfl
            exact OpEnv.append_conforming appended conforming

/-- A step leaves a conforming continuation of its journal. -/
theorem IndexStep.after_journal (workspaceId : String) {state : IndexState}
    (conforming : state.journal.Conforming) (step : IndexStep) :
    state.journal.Extends (step.after workspaceId state).journal ∧
      (step.after workspaceId state).journal.Conforming := by
  cases step with
  | build run => exact codeIndexBuild_journal run workspaceId state conforming
  | others payloads =>
    rcases appendWithin_cases payloads.length
        { workspaceId := workspaceId, journal := state.journal } payloads with
      ⟨left, next, run, all⟩ | ⟨failure, done, rest, run, _, all⟩
    · have told := OpEnv.appendAll_spec all conforming
      show state.journal.Extends (stateAfter (appendWithin _ _ _)).journal ∧ _
      exact ⟨by rw [run]; exact told.2.1, by
        show (stateAfter (appendWithin _ _ _)).journal.Conforming
        rw [run]
        exact told.2.2.1⟩
    · have told := OpEnv.appendAll_spec all conforming
      show state.journal.Extends (stateAfter (appendWithin _ _ _)).journal ∧ _
      exact ⟨by rw [run]; exact told.2.1, by
        show (stateAfter (appendWithin _ _ _)).journal.Conforming
        rw [run]
        exact told.2.2.1⟩
  | lose indexId => exact ⟨Journal.Extends.refl _, conforming⟩

/-- The visit of a step is that run at that state. -/
theorem IndexStep.visit_some {workspaceId : String} {state : IndexState} {step : IndexStep}
    {visit : IndexVisit} (visited : step.visit workspaceId state = some visit) :
    visit.before = state ∧ visit.after = step.after workspaceId state ∧
      codeIndexBuild visit.run workspaceId visit.before =
        (visit.after, .ok (visit.output, visit.artifact)) := by
  cases step with
  | build run =>
    obtain ⟨after, report, done⟩ : ∃ after report,
        codeIndexBuild run workspaceId state = (after, report) := ⟨_, _, rfl⟩
    simp only [IndexStep.visit, done] at visited
    cases report with
    | error failure => cases visited
    | ok pair =>
      have left : after = (IndexStep.build run).after workspaceId state :=
        (congrArg Prod.fst done).symm
      rw [← Option.some.inj visited]
      exact ⟨rfl, left, done⟩
  | others payloads => cases visited
  | lose indexId => cases visited

/-- A successful run of a history is that run at a conforming state, and what it registered stays
registered. -/
theorem visits_spec (workspaceId : String) {start : IndexState} (steps : List IndexStep)
    (conforming : start.journal.Conforming) :
    start.journal.Extends (stateThrough workspaceId start steps).journal ∧
      (stateThrough workspaceId start steps).journal.Conforming ∧
      ∀ visit ∈ visits workspaceId start steps,
        visit.before.journal.Conforming ∧
        codeIndexBuild visit.run workspaceId visit.before =
          (visit.after, .ok (visit.output, visit.artifact)) ∧
        visit.after.journal.Extends (stateThrough workspaceId start steps).journal := by
  induction steps generalizing start with
  | nil =>
    refine ⟨Journal.Extends.refl _, conforming, ?_⟩
    intro visit member
    cases member
  | cons step rest ih =>
    have moved := step.after_journal workspaceId conforming
    have later := ih moved.2
    have final : stateThrough workspaceId start (step :: rest) =
        stateThrough workspaceId (step.after workspaceId start) rest := rfl
    rw [final]
    refine ⟨moved.1.trans later.1, later.2.1, ?_⟩
    intro visit member
    rcases List.mem_append.mp member with now | after
    · have visited : step.visit workspaceId start = some visit := Option.mem_toList.mp now
      obtain ⟨before, left, done⟩ := IndexStep.visit_some visited
      refine ⟨?_, done, ?_⟩
      · rw [before]
        exact conforming
      · rw [left]
        exact later.1
    · exact later.2.2 visit after

omit [IndexTools] in
/-- Two runs whose reported artifacts load back and share their id report one artifact. -/
theorem LoadsBack.unique {workspaceId : String} {left right : IndexState} {journal : Journal}
    (collisionFree : Function.Injective Blake3.hex) (conforming : journal.Conforming)
    (leftGrown : left.journal.Extends journal) (rightGrown : right.journal.Extends journal)
    {leftSnapshot rightSnapshot : SourceSnapshotId} {artifact other : CodeIndexArtifact}
    (first : LoadsBack workspaceId left leftSnapshot artifact)
    (second : LoadsBack workspaceId right rightSnapshot other)
    (same : artifact.indexId = other.indexId) : artifact = other := by
  obtain ⟨index, scanned, loaded⟩ := first
  obtain ⟨otherIndex, otherScanned, otherLoaded⟩ := second
  obtain ⟨own, bytes, _, digest, decoded⟩ := load_some loaded
  obtain ⟨otherOwn, otherBytes, _, otherDigest, otherDecoded⟩ := load_some otherLoaded
  rw [latestCodeIndex_readable] at scanned otherScanned
  have kept : ∀ {state : IndexState} {index : CodeIndexRecordedV1},
      state.journal.Extends journal → index ∈ indexesOf workspaceId state.journal →
        index ∈ indexesOf workspaceId journal := by
    intro state index grown member
    obtain ⟨row, inside, carries⟩ := mem_registeredIndexes.mp member
    exact mem_registeredIndexes.mpr ⟨row, (grown.region _).subset inside, carries⟩
  have registered := kept leftGrown (mem_of_latestFor (Except.ok.inj scanned)).1
  have otherRegistered := kept rightGrown (mem_of_latestFor (Except.ok.inj otherScanned)).1
  have ids : index.indexId = otherIndex.indexId := by rw [← own, ← otherOwn, same]
  have indexes := registered_once conforming registered otherRegistered ids
  have contents : bytes = otherBytes := collisionFree (by rw [digest, otherDigest, indexes])
  rw [contents, otherDecoded] at decoded
  exact (Except.ok.inj decoded).symm

/-- In every history of builds, other appends and lost cache files, every successful run leaves its
artifact loadable through the latest registration of the snapshot, and runs with one index id
report one artifact, exactly where every successful run reused a registered index or was settled
with what was registered before it: its id was new, or was the latest of the snapshot already and
registered with the same bytes. -/
theorem index_builds_load_iff (collisionFree : Function.Injective Blake3.hex) (workspaceId : String)
    (files : CodeIndexId → Option (List UInt8)) (steps : List IndexStep) :
    ((∀ visit ∈ visits workspaceId ⟨Journal.empty, files⟩ steps,
        LoadsBack workspaceId visit.after visit.output.snapshotId visit.artifact) ∧
      ∀ left ∈ visits workspaceId ⟨Journal.empty, files⟩ steps,
        ∀ right ∈ visits workspaceId ⟨Journal.empty, files⟩ steps,
          left.artifact.indexId = right.artifact.indexId → left.artifact = right.artifact) ↔
      ∀ visit ∈ visits workspaceId ⟨Journal.empty, files⟩ steps,
        Settles workspaceId visit.before visit.run := by
  obtain ⟨_, conforming, spec⟩ := visits_spec workspaceId steps
    (show (IndexState.mk Journal.empty files).journal.Conforming from Journal.conforming_empty)
  have each : ∀ visit ∈ visits workspaceId ⟨Journal.empty, files⟩ steps,
      (LoadsBack workspaceId visit.after visit.output.snapshotId visit.artifact ↔
        Settles workspaceId visit.before visit.run) := by
    intro visit member
    obtain ⟨sound, done, _⟩ := spec visit member
    exact codeIndexBuild_loads_iff sound done
  constructor
  · intro ⟨loads, _⟩ visit member
    exact (each visit member).mp (loads visit member)
  · intro settles
    have loads : ∀ visit ∈ visits workspaceId ⟨Journal.empty, files⟩ steps,
        LoadsBack workspaceId visit.after visit.output.snapshotId visit.artifact :=
      fun visit member => (each visit member).mpr (settles visit member)
    refine ⟨loads, ?_⟩
    intro left leftIn right rightIn same
    exact LoadsBack.unique collisionFree conforming (spec left leftIn).2.2 (spec right rightIn).2.2
      (loads left leftIn) (loads right rightIn) same

end

/-- A document of a path that the capture does not hold. -/
def missingDocument (path : String) : ScipDocument where
  relativePath := path
  positionEncoding := .utf8CodeUnitOffsetFromLineStart
  occurrences := []

/-- A SCIP parser that reads two documents of missing paths, and the encoding of no occurrences. -/
@[reducible] def demoTools : IndexTools where
  parseScip _ := .ok
    { tool := some ("scip-demo", "1")
      documents := [missingDocument "src/old.rs", missingDocument "src/gone.rs"] }
  encodeOccurrences occurrences := if occurrences = [] then .ok [0x90] else .error "unsupported"
  tagsQuery := ""

/-- A codec that writes the place of an artifact among some known ones. -/
@[reducible] def listedCodec (known : List CodeIndexArtifact) : ArtifactCodec where
  encode artifact :=
    if artifact ∈ known then .ok (List.replicate (known.idxOf artifact) 0) else .error "unsupported"
  decode bytes :=
    match known[bytes.length]? with
    | some artifact => .ok artifact
    | none => .error "unexpected end of input"
  roundTrip := by
    intro artifact bytes encoded
    split at encoded
    · rename_i member
      have written := Except.ok.inj encoded
      rw [← written, List.length_replicate, List.getElem?_idxOf member]
    · cases encoded

/-- Analysis that is never too late. -/
def demoClock : AnalysisClock where
  expired _ := false
  parseRust _ := .ok none

/-- A build from a SCIP file under a document limit. -/
def demoBuild (observedAtMs documents : Nat) : CodeIndexBuildRun where
  input :=
    { scipPath := some "index.scip"
      observedAtMs := observedAtMs
      maxDocuments := some documents }
  captureGit := demoFirstState.captureGit
  readScip _ _ := .ok [0]
  clock := demoClock

/-- The artifact of a build of the demonstration snapshot under a document limit. -/
def demoArtifact (documents : Nat) : Option CodeIndexArtifact :=
  let _ := Backup.reversedDigest
  let _ := demoTools
  match demoFirstState.captureGit demoSnapshot.repositoryId {} with
  | .error _ => none
  | .ok capture =>
    (analyze demoClock capture (some [0]) { maxDocuments := documents }).toOption.map fun found =>
      found.artifact capture.snapshotId [0x90]

/-- The codec of the two artifacts. -/
@[reducible] def demoCodec : ArtifactCodec :=
  listedCodec ((demoArtifact 2).toList ++ (demoArtifact 1).toList)

/-- A recorded snapshot, and two builds of it under two document limits. -/
def demoBuilds : List IndexStep :=
  [.others [.sourceSnapshotRecorded demoSnapshot], .build (demoBuild 1 2), .build (demoBuild 2 1)]

/-- What loads through the latest registration after a successful run. -/
def loadedAfter [Blake3] [ArtifactCodec] (workspaceId : String) (visit : IndexVisit) :
    Option CodeIndexArtifact :=
  match latestCodeIndex (readable visit.after.journal) workspaceId none visit.output.snapshotId with
  | .ok (some registered) =>
    match load visit.after.files registered.indexId registered.artifactDigestHex with
    | .ok loaded => loaded
    | .error _ => none
  | _ => none

/-- An artifact that loads back is what loads. -/
theorem loadedAfter_of_loadsBack [Blake3] [ArtifactCodec] {workspaceId : String} {visit : IndexVisit}
    (loads : LoadsBack workspaceId visit.after visit.output.snapshotId visit.artifact) :
    loadedAfter workspaceId visit = some visit.artifact := by
  obtain ⟨registered, scanned, loaded⟩ := loads
  unfold loadedAfter
  rw [scanned]
  simp only [loaded]

/-- The second build covers one document less; its bytes replace those of the first, which stay
the registered ones. -/
theorem narrower_build_unloadable :
    let _ := Backup.reversedDigest
    let _ := demoTools
    let _ := demoCodec
    ∃ visit ∈ visits "demo" ⟨Journal.empty, fun _ => none⟩ demoBuilds,
      loadedAfter "demo" visit = none := by
  let _ := Backup.reversedDigest
  let _ := demoTools
  let _ := demoCodec
  have computed : ((visits "demo" ⟨Journal.empty, fun _ => none⟩ demoBuilds).any fun visit =>
      (loadedAfter "demo" visit).isNone) = true := by decide +kernel
  obtain ⟨visit, member, missing⟩ := List.any_eq_true.mp computed
  exact ⟨visit, member, Option.isNone_iff_eq_none.mp missing⟩

/-- The builds of the demonstration are not all settled with what was registered before them. -/
theorem index_builds_load_iff_demo :
    let _ := Backup.reversedDigest
    let _ := demoTools
    let _ := demoCodec
    ¬ ∀ visit ∈ visits "demo" ⟨Journal.empty, fun _ => none⟩ demoBuilds,
      Settles "demo" visit.before visit.run := by
  let _ := Backup.reversedDigest
  let _ := demoTools
  let _ := demoCodec
  intro _ _ _ settled
  have sound := (index_builds_load_iff Backup.reversedDigest_injective "demo" (fun _ => none) demoBuilds).mpr
    settled
  obtain ⟨visit, member, missing⟩ := narrower_build_unloadable
  have loaded := loadedAfter_of_loadsBack (sound.1 visit member)
  rw [missing] at loaded
  cases loaded

/-- A successful run leaves a registered index that does not load. -/
theorem narrower_build_breaks_index :
    let _ := Backup.reversedDigest
    let _ := demoTools
    let _ := demoCodec
    ¬ ∀ visit ∈ visits "demo" ⟨Journal.empty, fun _ => none⟩ demoBuilds,
      LoadsBack "demo" visit.after visit.output.snapshotId visit.artifact := by
  let _ := Backup.reversedDigest
  let _ := demoTools
  let _ := demoCodec
  intro _ _ _ loads
  obtain ⟨visit, member, missing⟩ := narrower_build_unloadable
  have loaded := loadedAfter_of_loadsBack (loads visit member)
  rw [missing] at loaded
  cases loaded

end Texo.Ops
