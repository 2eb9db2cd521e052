import Texo.Ops.Runs

/-! # The snapshots an index run leaves

Snapshots are recorded once for each id, and readers take the last one recorded. So after an index
run the latest snapshot is the captured one where that was new, or the latest already; after a
return to an earlier state of the repository it stays the one recorded last.
-/
namespace Texo.Ops
open Texo.Events Texo.Knowledge Texo.Store Texo.Claims Texo.Semantics Texo.Foundation Texo.Ingest

/-- The snapshots recorded in the workspace of a journal, in order. -/
def snapshotsOf (workspaceId : String) (journal : Journal) : List SourceSnapshotRecordedV1 :=
  recordedSnapshots (workspaceRows journal workspaceId)

/-- A snapshot with this id is among some recorded ones. -/
def SnapshotKnown (snapshots : List SourceSnapshotRecordedV1) (snapshotId : SourceSnapshotId) :
    Prop :=
  ∃ snapshot ∈ snapshots, snapshot.snapshotId = snapshotId

/-- The snapshots read up to the frontier of the current view are all that are recorded. -/
theorem sourceSnapshotsThrough_current (journal : Journal) (workspaceId : String) :
    sourceSnapshotsThrough (readable journal) workspaceId
      (some (viewOf workspaceId journal).frontier) = .ok (snapshotsOf workspaceId journal) := by
  unfold readable
  rw [sourceSnapshotsThrough_intact]
  exact congrArg (fun rows => Except.ok (recordedSnapshots rows))
    (rowsThrough_frontier journal workspaceId)

/-- The latest snapshot of the current view is the one recorded last. -/
theorem latestSourceSnapshot_current (journal : Journal) (workspaceId : String) :
    latestSourceSnapshot (readable journal) workspaceId
      (some (viewOf workspaceId journal).frontier) =
      .ok (snapshotsOf workspaceId journal).getLast? := by
  rw [latestSourceSnapshot, sourceSnapshotsThrough_current]
  rfl

/-- A recorded snapshot is that of a row of the workspace. -/
theorem mem_snapshotsOf {workspaceId : String} {journal : Journal}
    {snapshot : SourceSnapshotRecordedV1} : snapshot ∈ snapshotsOf workspaceId journal ↔
      ∃ row ∈ workspaceRows journal workspaceId, row.payload = .sourceSnapshotRecorded snapshot := by
  unfold snapshotsOf recordedSnapshots
  rw [List.mem_filterMap]
  constructor
  · intro ⟨row, member, found⟩
    refine ⟨row, member, ?_⟩
    split at found
    · rename_i recorded carried
      rw [carried, Option.some.inj found]
    · cases found
  · intro ⟨row, member, carried⟩
    exact ⟨row, member, by rw [carried]⟩

section
variable [Blake3]

/-- An append of another kind records no snapshot. -/
theorem snapshotsOf_append_other {env next : OpEnv} {payload : Payload}
    (appended : env.append payload = .ok next) (other : payload.kind ≠ .sourceSnapshotRecorded)
    (workspaceId : String) :
    snapshotsOf workspaceId next.journal = snapshotsOf workspaceId env.journal := by
  unfold snapshotsOf workspaceRows
  rcases OpEnv.append_region appended (scopeForWorkspace workspaceId) with
    same | ⟨row, grown, carries, _, _⟩
  · rw [same]
  · have nothing : recordedSnapshots [row] = [] := by
      unfold recordedSnapshots
      rw [List.filterMap_cons, carries]
      cases payload with
      | sourceSnapshotRecorded event => exact absurd rfl other
      | _ => rfl
    rw [grown, recordedSnapshots, List.filterMap_append]
    show recordedSnapshots _ ++ recordedSnapshots [row] = _
    rw [nothing, List.append_nil]

/-- The run law of appends of other kinds. -/
theorem snapshotsOf_appendAll_other {env next : OpEnv} {payloads : List Payload}
    (appended : env.appendAll payloads = .ok next)
    (others : ∀ payload ∈ payloads, payload.kind ≠ .sourceSnapshotRecorded) (workspaceId : String) :
    snapshotsOf workspaceId next.journal = snapshotsOf workspaceId env.journal := by
  refine foldlM_preserves (fun state : OpEnv =>
    snapshotsOf workspaceId state.journal = snapshotsOf workspaceId env.journal) ?_ appended rfl
  intro state payload member later step kept
  rw [snapshotsOf_append_other step (others payload member), kept]

/-- Recording a snapshot adds it where its id is new, and nothing where it is known. -/
theorem snapshotsOf_append_snapshot {env next : OpEnv} {snapshot : SourceSnapshotRecordedV1}
    (appended : env.append (.sourceSnapshotRecorded snapshot) = .ok next)
    (conforming : env.journal.Conforming) {workspaceId : String}
    (here : snapshot.workspaceId.value = workspaceId) :
    (SnapshotKnown (snapshotsOf workspaceId env.journal) snapshot.snapshotId ∧
        snapshotsOf workspaceId next.journal = snapshotsOf workspaceId env.journal) ∨
      (¬ SnapshotKnown (snapshotsOf workspaceId env.journal) snapshot.snapshotId ∧
        snapshotsOf workspaceId next.journal =
          snapshotsOf workspaceId env.journal ++ [snapshot]) := by
  obtain ⟨_, ⟨entry, member, unchanged, why⟩ | ⟨row, grown, carries, conforms⟩⟩ :=
    OpEnv.append_cases appended
  · left
    have own := conforming entry member
    have known : ∃ earlier, entry.payload = .sourceSnapshotRecorded earlier ∧
        earlier.workspaceId.value = workspaceId ∧ earlier.snapshotId = snapshot.snapshotId := by
      rcases why with named | carried
      · have kind := kind_of_admissible named (by simp [Payload.kind, domainOperation]) own.admissible
        have id := own.admissible
        cases stored : entry.payload with
        | sourceSnapshotRecorded earlier =>
          rw [stored] at id
          have keys := (show entry.eventId = _ from id).symm.trans (show entry.eventId = _ from named)
          simp only [EventId.forOperation.injEq, List.cons.injEq, true_and, and_true] at keys
          exact ⟨earlier, rfl, keys.1.trans here, Branded.ext keys.2⟩
        | _ => rw [stored] at kind; cases kind
      · exact ⟨snapshot, carried, here, rfl⟩
    obtain ⟨earlier, stored, lies, same⟩ := known
    have placed := own.placed _ (by rw [stored]; rfl)
    have scope : entry.scope = scopeForWorkspace workspaceId := by
      rw [← lies]
      exact (congrArg Coordinate.scope placed).symm
    refine ⟨⟨earlier, mem_snapshotsOf.mpr ⟨entry, ?_, stored⟩, same⟩, by rw [unchanged]⟩
    exact Journal.mem_region.mpr ⟨member, scope⟩
  · right
    have key : row.eventId = .forOperation "texo.source.snapshot.recorded.v1"
        [snapshot.workspaceId.value, snapshot.snapshotId.value] := by
      have admissible := conforms.admissible
      rw [carries] at admissible
      exact admissible
    have placed := conforms.placed _ (by rw [carries]; rfl)
    have scope : row.scope = scopeForWorkspace workspaceId := by
      rw [← here]
      exact (congrArg Coordinate.scope placed).symm
    constructor
    · intro ⟨earlier, held, same⟩
      obtain ⟨entry, member, stored⟩ := mem_snapshotsOf.mp held
      obtain ⟨inside, inScope⟩ := Journal.mem_region.mp member
      have own := conforming entry inside
      have ownKey : entry.eventId = .forOperation "texo.source.snapshot.recorded.v1"
          [earlier.workspaceId.value, earlier.snapshotId.value] := by
        have admissible := own.admissible
        rw [stored] at admissible
        exact admissible
      have ownPlaced := own.placed _ (by rw [stored]; rfl)
      have workspace : earlier.workspaceId.value = snapshot.workspaceId.value := by
        rw [here]
        apply scopeForWorkspace_injective
        rw [← inScope]
        exact congrArg Coordinate.scope ownPlaced
      have distinct := next.journal.distinct
      rw [grown, List.map_append, List.map_singleton] at distinct
      have apart := (List.nodup_append.mp distinct).2.2 entry.eventId (List.mem_map_of_mem inside)
        row.eventId (List.mem_singleton.mpr rfl)
      apply apart
      rw [ownKey, key, workspace, same]
    · have region : workspaceRows next.journal workspaceId =
          workspaceRows env.journal workspaceId ++ [row] := by
        simp [workspaceRows, Journal.region, grown, scope]
      unfold snapshotsOf
      rw [region, recordedSnapshots, List.filterMap_append]
      simp [recordedSnapshots, carries]

/-- What a successful index run leaves of the recorded snapshots. -/
theorem snapshotsOf_knowledgeIndex {fuse : Nat} {world : GitWorld} {workspaceId : String}
    {input : KnowledgeIndexInput} {journal after : Journal} {output : KnowledgeIndexOutput}
    (conforming : journal.Conforming)
    (done : knowledgeIndex fuse world workspaceId input journal = .ok (output, after)) :
    ∃ snapshot, snapshot.snapshotId = output.snapshotId ∧
      ((SnapshotKnown (snapshotsOf workspaceId journal) output.snapshotId ∧
          snapshotsOf workspaceId after = snapshotsOf workspaceId journal) ∨
        (¬ SnapshotKnown (snapshotsOf workspaceId journal) output.snapshotId ∧
          snapshotsOf workspaceId after = snapshotsOf workspaceId journal ++ [snapshot])) := by
  unfold knowledgeIndex at done
  cases planned : prepareIndex world workspaceId input journal with
  | error error =>
    rw [planned] at done
    cases done
  | ok plan =>
    have prepares := prepareIndex_prepares planned
    rw [planned] at done
    simp only [executeIndexPlan] at done
    rcases appendWithin_cases fuse { workspaceId := workspaceId, journal := journal } plan.events
      with ⟨left, appended, run, all⟩ | ⟨failure, _, _, run, _, _⟩
    · rw [run] at done
      simp only at done
      cases inferred : inferIndexSupersessions appended plan input.observedAtMs with
      | error error =>
        rw [inferred] at done
        cases done
      | ok outcome =>
        rw [inferred] at done
        simp only at done
        rcases appendWithin_cases left { appended with receipts := [] }
            (outcome.applied.map .claimSuperseded) with
          ⟨_, settled, ended, retired⟩ | ⟨failure, _, _, ended, _, _⟩
        · rw [ended] at done
          obtain ⟨told, stays⟩ := Prod.mk.inj (Except.ok.inj done)
          have final : snapshotsOf workspaceId after = snapshotsOf workspaceId appended.journal := by
            rw [← stays]
            refine snapshotsOf_appendAll_other retired ?_ workspaceId
            intro payload member
            obtain ⟨event, _, rfl⟩ := List.mem_map.mp member
            simp [Payload.kind]
          have reported : output.snapshotId = plan.snapshot.snapshotId := by
            rw [← told, prepares.captured]
            rfl
          have head : plan.events = .sourceSnapshotRecorded plan.snapshot :: plan.events.tail := rfl
          rw [head, OpEnv.appendAll, List.foldlM_cons] at all
          obtain ⟨middle, first, later⟩ := bind_eq_ok.mp all
          have rest : snapshotsOf workspaceId appended.journal =
              snapshotsOf workspaceId middle.journal := by
            refine snapshotsOf_appendAll_other later ?_ workspaceId
            intro payload member
            have inner : payload ∈ (plan.rows.flatMap fun row =>
                [Payload.evidenceOccurrenceRecorded
                  { workspaceId := plan.snapshot.workspaceId
                    occurrence := row.1
                    observedAtMs := plan.snapshot.observedAtMs },
                 .claimEvidenceLinked row.2]) ++ plan.relations.map .sourceSnapshotRelation := member
            rcases List.mem_append.mp inner with linked | related
            · obtain ⟨row, _, inside⟩ := List.mem_flatMap.mp linked
              rcases List.mem_cons.mp inside with rfl | last
              · simp [Payload.kind]
              · rw [List.mem_singleton.mp last]
                simp [Payload.kind]
            · obtain ⟨relation, _, rfl⟩ := List.mem_map.mp related
              simp [Payload.kind]
          refine ⟨plan.snapshot, reported.symm, ?_⟩
          rw [final, rest, reported]
          exact snapshotsOf_append_snapshot first conforming prepares.snapshot
        · rw [ended] at done
          cases done
    · rw [run] at done
      cases done

variable {Score : Type}

/-- After a successful index run, in whatever store the operations before it left, the captured
snapshot is recorded. The latest snapshot of the view is the captured one exactly where its id was
not recorded before, or was that of the latest snapshot already; elsewhere it stays what it was. -/
theorem knowledgeIndex_latest_iff (workspaceId : String)
    (operations : List (Nat × Operation Score)) {fuse : Nat} {world : GitWorld}
    {input : KnowledgeIndexInput} {after : Journal} {output : KnowledgeIndexOutput}
    (done : knowledgeIndex fuse world workspaceId input
      (runOperations workspaceId operations Journal.empty) = .ok (output, after)) :
    ∃ before latest later,
      sourceSnapshotsThrough (readable (runOperations workspaceId operations Journal.empty))
        workspaceId (some (viewOf workspaceId
          (runOperations workspaceId operations Journal.empty)).frontier) = .ok before ∧
      sourceSnapshotsThrough (readable after) workspaceId
        (some (viewOf workspaceId after).frontier) = .ok later ∧
      latestSourceSnapshot (readable after) workspaceId
        (some (viewOf workspaceId after).frontier) = .ok latest ∧
      SnapshotKnown later output.snapshotId ∧
      (latest.map SourceSnapshotRecordedV1.snapshotId = some output.snapshotId ↔
        ¬ SnapshotKnown before output.snapshotId ∨
          before.getLast?.map SourceSnapshotRecordedV1.snapshotId = some output.snapshotId) ∧
      (SnapshotKnown before output.snapshotId → latest = before.getLast?) := by
  have orderly : Orderly (runOperations workspaceId operations Journal.empty) workspaceId :=
    runOperations_orderly operations (orderly_empty workspaceId)
  refine ⟨_, _, _, sourceSnapshotsThrough_current _ _, sourceSnapshotsThrough_current _ _,
    latestSourceSnapshot_current _ _, ?_⟩
  obtain ⟨snapshot, named, ⟨known, same⟩ | ⟨unknown, grown⟩⟩ :=
    snapshotsOf_knowledgeIndex orderly.conforming done
  · rw [same]
    refine ⟨known, ?_, fun _ => rfl⟩
    constructor
    · exact Or.inr
    · intro either
      exact either.resolve_left (not_not.mpr known)
  · rw [grown]
    refine ⟨⟨snapshot, by simp, named⟩, ?_, fun known => absurd known unknown⟩
    simp [unknown, named]

end

/-- A repository in one state: its captures all carry one id, and hold no sources. -/
def demoState (snapshotId : SourceSnapshotId) : GitWorld where
  canonicalRoot := "/demo"
  captureGit repositoryId _ := .ok
    { repositoryId := repositoryId
      baseCommit := ⟨.sha1, snapshotId.value⟩
      baseTree := ⟨.sha1, "t0"⟩
      indexDigestHex := "00"
      overlayDigestHex := "00"
      snapshotId := snapshotId
      dirty := false
      sources := []
      coverage := demoSnapshot.coverage }
  compareCommits _ _ := .ok ⟨.unknown, none⟩

/-- The first demonstration state. -/
def demoFirstState : GitWorld := demoState ⟨"snapshot_0123", Eq.refl true⟩

/-- The second demonstration state. -/
def demoSecondState : GitWorld := demoState ⟨"snapshot_4567", Eq.refl true⟩

/-- Two index runs, the first of them of the first state. -/
def demoHistory : List (Nat × Operation Nat) :=
  [(8, .index demoFirstState ⟨1, none, none, none⟩),
    (8, .index demoSecondState ⟨2, none, none, none⟩)]

/-- Indexing the first state again, after both states were indexed. -/
theorem demo_returns :
    let _ := numeralDigest
    ∃ output after,
      knowledgeIndex 8 demoFirstState "demo" ⟨3, none, none, none⟩
        (runOperations "demo" demoHistory Journal.empty) = .ok (output, after) ∧
      output.snapshotId.value = "snapshot_0123" ∧
      ∃ latest, (snapshotsOf "demo" after).getLast? = some latest ∧
        latest.snapshotId.value = "snapshot_4567" := by
  let _ := numeralDigest
  have told : (knowledgeIndex 8 demoFirstState "demo" ⟨3, none, none, none⟩
      (runOperations "demo" demoHistory Journal.empty)).toOption.map (fun done =>
        (done.1.snapshotId.value,
          (snapshotsOf "demo" done.2).getLast?.map fun latest => latest.snapshotId.value)) =
      some ("snapshot_0123", some "snapshot_4567") := by decide +kernel
  obtain ⟨⟨output, after⟩, read, both⟩ := Option.map_eq_some_iff.mp told
  obtain ⟨captured, recorded⟩ := Prod.mk.inj both
  obtain ⟨latest, last, named⟩ := Option.map_eq_some_iff.mp recorded
  refine ⟨output, after, ?_, captured, latest, last, named⟩
  revert read
  cases knowledgeIndex 8 demoFirstState "demo" ⟨3, none, none, none⟩
      (runOperations "demo" demoHistory Journal.empty) with
  | error failure =>
    intro read
    cases read
  | ok done =>
    intro read
    rw [Option.some.inj read]

/-- After a return to an earlier state of the repository the latest snapshot is not the captured
one. -/
theorem knowledgeIndex_latest_returns :
    let _ := numeralDigest
    ∃ output after latest,
      knowledgeIndex 8 demoFirstState "demo" ⟨3, none, none, none⟩
        (runOperations "demo" demoHistory Journal.empty) = .ok (output, after) ∧
      latestSourceSnapshot (readable after) "demo" (some (viewOf "demo" after).frontier) =
        .ok (some latest) ∧
      latest.snapshotId ≠ output.snapshotId := by
  let _ := numeralDigest
  obtain ⟨output, after, done, captured, latest, last, named⟩ := demo_returns
  refine ⟨output, after, latest, done, ?_, ?_⟩
  · rw [latestSourceSnapshot_current, last]
  · intro same
    rw [same, captured] at named
    exact absurd named (by decide)

/-- What the law of index runs comes to for that return. -/
theorem knowledgeIndex_latest_demo :
    let _ := numeralDigest
    ∃ output after before later, ∃ latest : Option SourceSnapshotRecordedV1,
      knowledgeIndex 8 demoFirstState "demo" ⟨3, none, none, none⟩
        (runOperations "demo" demoHistory Journal.empty) = .ok (output, after) ∧
      sourceSnapshotsThrough (readable after) "demo" (some (viewOf "demo" after).frontier) =
        .ok later ∧
      SnapshotKnown later output.snapshotId ∧
      (latest.map SourceSnapshotRecordedV1.snapshotId = some output.snapshotId ↔
        ¬ SnapshotKnown before output.snapshotId ∨
          before.getLast?.map SourceSnapshotRecordedV1.snapshotId = some output.snapshotId) := by
  let _ := numeralDigest
  obtain ⟨output, after, done, _⟩ := demo_returns
  obtain ⟨before, latest, later, _, read, _, known, exactly, _⟩ :=
    knowledgeIndex_latest_iff "demo" demoHistory done
  exact ⟨output, after, before, later, latest, done, read, known, exactly⟩

end Texo.Ops
