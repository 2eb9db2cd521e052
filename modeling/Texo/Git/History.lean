import Texo.Git.Order
import Texo.Git.Snapshot
import Texo.Ops.IndexHistory
import Texo.Ops.SourceFacts
import Texo.Store.Growth

/-! # Histories of one repository

A workspace indexes one repository at one state after another: the head moves, changes come and
go, more of the commit graph becomes available, and other operations append in between. Every fact
journalled on the way says how the states of two captures are ordered, so the facts of a pair are
inverse and the order read off them is antisymmetric and transitive.
-/
namespace Texo.Git
open Texo.Events Texo.Knowledge Texo.Store Texo.Claims Texo.Semantics Texo.Ops Texo.Foundation
open Texo.Ingest

/-- The repository as one run finds it: what its capture reads, and the commits that are there. -/
structure RepositoryState where
  repository : Repository
  present : GitObjectId → Bool

/-- One step of a history: an index run on the repository as it is then, or appends of other
operations, none of them about snapshots. -/
inductive HistoryStep where
  | index (fuse : Nat) (state : RepositoryState) (input : KnowledgeIndexInput)
  | others (fuse : Nat) (payloads : List Payload) (apart : ∀ payload ∈ payloads,
      payload.kind ≠ .sourceSnapshotRecorded ∧ payload.kind ≠ .sourceSnapshotRelation)

/-- The runs over one repository in one workspace. -/
structure SourceHistory where
  graph : CommitGraph
  canonicalRoot : String
  workspaceId : String
  steps : List HistoryStep

section
variable [Blake3]

/-- The identity of the repository. -/
def SourceHistory.repositoryId (history : SourceHistory) : RepositoryId :=
  Ops.repositoryId ("texo.repository.v1\x1f" ++ history.workspaceId ++ "\x1f" ++
    history.canonicalRoot)

/-- What one append run adds carries what it appends. -/
theorem appendWithin_rows {fuse : Nat} {env : OpEnv} {payloads : List Payload} {row : Entry}
    (member : row ∈ (stateAfter (appendWithin fuse env payloads)).journal.entries) :
    row ∈ env.journal.entries ∨ row.payload ∈ payloads := by
  rcases appendWithin_cases fuse env payloads with
    ⟨left, next, run, all⟩ | ⟨failure, done, rest, run, split, all⟩
  · rw [run] at member
    obtain ⟨rows, grown, carried⟩ := OpEnv.appendAll_rows all
    have inside : row ∈ next.journal.entries := member
    rw [grown] at inside
    exact (List.mem_append.mp inside).imp id (carried row)
  · rw [run] at member
    obtain ⟨rows, grown, carried⟩ := OpEnv.appendAll_rows all
    have inside : row ∈ failure.left.journal.entries := member
    rw [grown] at inside
    refine (List.mem_append.mp inside).imp id fun later => ?_
    rw [split]
    exact List.mem_append_left _ (carried row later)

/-- What executing an index plan adds carries an event of the plan or a supersession. -/
theorem executeIndexPlan_rows {fuse : Nat} {env : OpEnv} {plan : IndexPlan} {observedAtMs : Nat}
    {row : Entry}
    (member : row ∈ (stateAfter (executeIndexPlan fuse env plan observedAtMs)).journal.entries) :
    row ∈ env.journal.entries ∨ row.payload ∈ plan.events ∨
      ∃ event, row.payload = .claimSuperseded event := by
  have planned : row ∈ (stateAfter (appendWithin fuse env plan.events)).journal.entries →
      row ∈ env.journal.entries ∨ row.payload ∈ plan.events := appendWithin_rows
  unfold executeIndexPlan at member
  cases run : appendWithin fuse env plan.events with
  | error failure =>
    rw [run] at planned member
    exact (planned member).imp id Or.inl
  | ok pair =>
    obtain ⟨left, appended⟩ := pair
    rw [run] at planned member
    have early : row ∈ appended.journal.entries → row ∈ env.journal.entries ∨
        row.payload ∈ plan.events ∨ ∃ event, row.payload = .claimSuperseded event :=
      fun inside => (planned inside).imp id Or.inl
    simp only at member
    cases inferred : inferIndexSupersessions appended plan observedAtMs with
    | error error =>
      rw [inferred] at member
      exact early member
    | ok outcome =>
      rw [inferred] at member
      simp only at member
      have settled : row ∈ (stateAfter (appendWithin left { appended with receipts := [] }
          (outcome.applied.map .claimSuperseded))).journal.entries := by
        cases ended : appendWithin left { appended with receipts := [] }
            (outcome.applied.map .claimSuperseded) with
        | error failure =>
          rw [ended] at member
          exact member
        | ok pair =>
          rw [ended] at member
          exact member
      rcases appendWithin_rows settled with inside | last
      · exact early inside
      · obtain ⟨event, _, same⟩ := List.mem_map.mp last
        exact Or.inr (Or.inr ⟨event, same.symm⟩)

/-- What an index run adds carries an event of its plan or a supersession. -/
theorem knowledgeIndex_rows {fuse : Nat} {world : GitWorld} {workspaceId : String}
    {input : KnowledgeIndexInput} {journal : Journal} {row : Entry}
    (member : row ∈ (stateAfter (knowledgeIndex fuse world workspaceId input journal)).entries) :
    row ∈ journal.entries ∨
      (∃ plan, prepareIndex world workspaceId input journal = .ok plan ∧
        row.payload ∈ plan.events) ∨
      ∃ event, row.payload = .claimSuperseded event := by
  unfold knowledgeIndex at member
  cases prepared : prepareIndex world workspaceId input journal with
  | error error =>
    rw [prepared] at member
    exact Or.inl member
  | ok plan =>
    rw [prepared] at member
    simp only at member
    have executed : row ∈ (stateAfter (executeIndexPlan fuse
        { workspaceId := workspaceId, journal := journal } plan
        input.observedAtMs)).journal.entries := by
      revert member
      cases executeIndexPlan fuse { workspaceId := workspaceId, journal := journal } plan
          input.observedAtMs with
      | error failure => exact id
      | ok pair => exact id
    rcases executeIndexPlan_rows executed with before | planned | superseded
    · exact Or.inl before
    · exact Or.inr (Or.inl ⟨plan, rfl, planned⟩)
    · exact Or.inr (Or.inr superseded)

omit [Blake3] in
/-- A planned relation compares a snapshot recorded before with the capture. -/
theorem planSnapshotRelations_compared {world : GitWorld} {workspaceId : WorkspaceId}
    {capture : GitCapture} {previous : List SourceSnapshotRecordedV1} {observedAtMs : Nat}
    {plan : RelationPlan}
    (planned : world.planSnapshotRelations workspaceId capture previous observedAtMs = .ok plan) :
    ∀ relation ∈ plan.relations, ∃ prior ∈ previous, ∃ compared,
      world.comparison prior capture = .ok compared ∧ compared.relation ≠ .unknown ∧
      relation.leftSnapshotId = prior.snapshotId ∧ relation.rightSnapshotId = capture.snapshotId ∧
      relation.relation = compared.relation := by
  refine foldlM_preserves (fun plan : RelationPlan => ∀ relation ∈ plan.relations,
    ∃ prior ∈ previous, ∃ compared, world.comparison prior capture = .ok compared ∧
      compared.relation ≠ .unknown ∧ relation.leftSnapshotId = prior.snapshotId ∧
      relation.rightSnapshotId = capture.snapshotId ∧
      relation.relation = compared.relation) ?_ planned ?_
  · intro plan prior listed next step kept relation member
    unfold GitWorld.relateSnapshot at step
    split at step
    · rw [← Except.ok.inj step] at member
      exact kept relation member
    · cases compared : world.comparison prior capture with
      | error error =>
        rw [compared] at step
        cases step
      | ok comparison =>
        have noted : (plan.note comparison.gap).relations = plan.relations := by
          unfold RelationPlan.note
          split
          · rfl
          · split <;> rfl
        rw [compared] at step
        rw [← Except.ok.inj step] at member
        simp only at member
        split at member
        · rw [noted] at member
          exact kept relation member
        · rename_i known
          rcases List.mem_append.mp member with earlier | last
          · rw [noted] at earlier
            exact kept relation earlier
          · rw [List.mem_singleton.mp last]
            exact ⟨prior, List.mem_of_mem_drop listed, comparison, compared, known, rfl, rfl, rfl⟩
  · intro relation member
    cases member

/-- What a prepared index run records of its capture, and the snapshots it compares it with. -/
theorem prepareIndex_source {world : GitWorld} {workspaceId : String} {input : KnowledgeIndexInput}
    {journal : Journal} {plan : IndexPlan}
    (done : prepareIndex world workspaceId input journal = .ok plan) :
    ∃ limits capture workspace relations, input.validatedLimits = .ok limits ∧
      world.captureGit (repositoryIdForIndex world workspaceId (snapshotsOf workspaceId journal))
        limits = .ok capture ∧
      plan.snapshot.repositoryId = capture.repositoryId ∧
      plan.snapshot.snapshotId = capture.snapshotId ∧
      recordedState plan.snapshot = capturedState capture ∧
      world.planSnapshotRelations workspace capture (snapshotsOf workspaceId journal)
        input.observedAtMs = .ok relations ∧
      plan.relations = relations.relations := by
  unfold prepareIndex at done
  obtain ⟨limits, valid, done⟩ := bind_eq_ok.mp done
  obtain ⟨view, assembled, done⟩ := bind_eq_ok.mp done
  rw [assembleCurrentView_readable] at assembled
  have shown : viewOf workspaceId journal = view := Except.ok.inj assembled
  obtain ⟨workspace, _, done⟩ := bind_eq_ok.mp done
  obtain ⟨previous, recorded, done⟩ := bind_eq_ok.mp done
  rw [← shown, sourceSnapshotsThrough_current] at recorded
  have before : snapshotsOf workspaceId journal = previous := Except.ok.inj recorded
  obtain ⟨capture, captured, done⟩ := bind_eq_ok.mp done
  obtain ⟨latest, _, done⟩ := bind_eq_ok.mp done
  obtain ⟨evidence, _, done⟩ := bind_eq_ok.mp done
  obtain ⟨relations, related, done⟩ := bind_eq_ok.mp done
  rw [before, ← Except.ok.inj done]
  exact ⟨limits, capture, workspace, relations, valid, captured, rfl, rfl, rfl, related, rfl⟩

variable [GitObjects]

/-- The world of a run over a state of the repository. -/
def RepositoryState.world (state : RepositoryState) (graph : CommitGraph) (canonicalRoot : String) :
    GitWorld where
  canonicalRoot := canonicalRoot
  captureGit := fun repositoryId limits =>
    (capture state.repository repositoryId limits).map CaptureResult.capture
  compareCommits := fun left right =>
    compareCommits state.repository.opened graph state.present left right maxGitAncestryWalk

/-- The journal one step leaves. -/
def SourceHistory.run (history : SourceHistory) (journal : Journal) : HistoryStep → Journal
  | .index fuse state input =>
    stateAfter (knowledgeIndex fuse (state.world history.graph history.canonicalRoot)
      history.workspaceId input journal)
  | .others fuse payloads _ =>
    (stateAfter (appendWithin fuse { workspaceId := history.workspaceId, journal := journal }
      payloads)).journal

/-- The journal a history leaves. -/
def SourceHistory.journal (history : SourceHistory) : Journal :=
  history.steps.foldl history.run Journal.empty

/-- A capture that some index run of a history may have taken. -/
def SourceHistory.Captured (history : SourceHistory) (result : CaptureResult) : Prop :=
  ∃ fuse state input limits, .index fuse state input ∈ history.steps ∧
    input.validatedLimits = .ok limits ∧
    capture state.repository history.repositoryId limits = .ok result

/-- No two captures of a history share a snapshot id, unless it is derived from one material. -/
def SourceHistory.Unshared (history : SourceHistory) : Prop :=
  ∀ first second, history.Captured first → history.Captured second →
    first.capture.snapshotId = second.capture.snapshotId → first.material = second.material

/-- The material and the state of a capture. -/
theorem capture_state {repository : Repository} {repositoryId : RepositoryId}
    {limits : CaptureLimits} {result : CaptureResult}
    (captured : capture repository repositoryId limits = .ok result) :
    result.capture.repositoryId = repositoryId ∧ ∃ baseCommit overlay,
      repository.head = .ok baseCommit ∧
      result.material = snapshotMaterial repositoryId baseCommit
        (GitObjects.commitTree baseCommit) (Blake3.hex (indexMaterial repository.index))
        (Blake3.hex (overlayMaterial overlay)) limits ∧
      capturedState result.capture = ⟨baseCommit, !overlay.entries.isEmpty⟩ := by
  obtain ⟨_, _, captured⟩ := bind_eq_ok.mp captured
  obtain ⟨baseCommit, resolved, captured⟩ := bind_eq_ok.mp captured
  obtain ⟨committed, _, captured⟩ := bind_eq_ok.mp captured
  obtain ⟨overlaid, _, captured⟩ := bind_eq_ok.mp captured
  obtain ⟨_, _, captured⟩ := bind_eq_ok.mp captured
  rw [← Except.ok.inj captured]
  exact ⟨rfl, baseCommit, overlaid.overlay, resolved, rfl, rfl⟩

omit [Blake3] [GitObjects] in
/-- Overlays of one material are both empty or both not. -/
theorem overlayMaterial_isEmpty {overlay other : Overlay}
    (same : overlayMaterial overlay = overlayMaterial other) :
    overlay.entries.isEmpty = other.entries.isEmpty := by
  have entries := List.append_cancel_left same
  cases left : overlay.entries with
  | nil =>
    cases right : other.entries with
    | nil => rfl
    | cons entry rest =>
      rw [left, right] at entries
      simp [overlayEntryMaterial] at entries
  | cons entry rest =>
    cases right : other.entries with
    | nil =>
      rw [left, right] at entries
      simp [overlayEntryMaterial] at entries
    | cons other later => rfl

/-- Captures of one material are of one state. -/
theorem state_of_material {left right : Repository} {repositoryId : RepositoryId}
    {limits otherLimits : CaptureLimits} {first second : CaptureResult}
    (collisionFree : Function.Injective Blake3.hex)
    (hexDigits : ∀ bytes, ∀ c ∈ (Blake3.hex bytes).toList, lowerHexChar c = true)
    (captured : capture left repositoryId limits = .ok first)
    (recaptured : capture right repositoryId otherLimits = .ok second)
    (same : first.material = second.material) :
    capturedState first.capture = capturedState second.capture := by
  obtain ⟨_, commit, overlay, head, material, state⟩ := capture_state captured
  obtain ⟨_, commit', overlay', head', material', state'⟩ := capture_state recaptured
  rw [material, material'] at same
  obtain ⟨format, hex⟩ := left.headHex commit head
  obtain ⟨format', hex'⟩ := right.headHex commit' head'
  have digits := isLowerHex_iff.mp hex
  have digits' := isLowerHex_iff.mp hex'
  obtain ⟨commits, _, overlays, _⟩ := snapshotMaterial_inj
    (GitObjects.treeHex commit) (GitObjects.treeHex commit') digits.2 digits'.2 (hexDigits _)
    (hexDigits _) (hexDigits _) (hexDigits _) same
  have widths : idWidth left.format = idWidth right.format := by
    have lengths := digits.1
    rw [commits, digits'.1] at lengths
    omega
  have formats : left.format = right.format := by
    revert widths
    cases left.format <;> cases right.format <;> decide
  have commitSame : commit = commit' := by
    cases commit
    cases commit'
    simp only at format format' commits
    rw [format, format', formats, commits]
  rw [state, state', commitSame, overlayMaterial_isEmpty (collisionFree overlays)]

/-- Every snapshot of a journal records a capture of the history, and every relation says how the
states of two captures are ordered. -/
structure Traced (history : SourceHistory) (journal : Journal) : Prop where
  snapshots : ∀ row ∈ journal.entries, ∀ snapshot, row.payload = .sourceSnapshotRecorded snapshot →
    snapshot.repositoryId = history.repositoryId ∧ ∃ result, history.Captured result ∧
      result.capture.snapshotId = snapshot.snapshotId ∧
      capturedState result.capture = recordedState snapshot
  relations : ∀ row ∈ journal.entries, ∀ event, row.payload = .sourceSnapshotRelation event →
    event.relation ≠ .unknown ∧ ∃ left right, history.Captured left ∧ history.Captured right ∧
      left.capture.snapshotId = event.leftSnapshotId ∧
      right.capture.snapshotId = event.rightSnapshotId ∧
      history.graph.Ordered event.relation (capturedState left.capture) (capturedState right.capture)

/-- Rows that say nothing about snapshots keep a journal traced. -/
theorem Traced.others {history : SourceHistory} {journal next : Journal}
    (traced : Traced history journal)
    (rows : ∀ row ∈ next.entries, row ∈ journal.entries ∨
      (row.payload.kind ≠ .sourceSnapshotRecorded ∧
        row.payload.kind ≠ .sourceSnapshotRelation)) : Traced history next where
  snapshots := by
    intro row member snapshot carried
    rcases rows row member with before | ⟨other, _⟩
    · exact traced.snapshots row before snapshot carried
    · rw [carried] at other
      exact absurd rfl other
  relations := by
    intro row member event carried
    rcases rows row member with before | ⟨_, other⟩
    · exact traced.relations row before event carried
    · rw [carried] at other
      exact absurd rfl other

/-- A traced workspace keeps indexing the repository under its identity. -/
theorem Traced.identity {history : SourceHistory} {journal : Journal}
    (traced : Traced history journal) (state : RepositoryState) :
    repositoryIdForIndex (state.world history.graph history.canonicalRoot) history.workspaceId
      (snapshotsOf history.workspaceId journal) = history.repositoryId := by
  unfold repositoryIdForIndex
  cases last : (snapshotsOf history.workspaceId journal).getLast? with
  | none => rfl
  | some snapshot =>
    obtain ⟨row, member, carried⟩ := mem_snapshotsOf.mp (List.mem_of_getLast? last)
    exact (traced.snapshots row (Journal.mem_region.mp member).1 snapshot carried).1

/-- What an index run plans of a traced workspace: its capture's snapshot, and the order of that
capture and earlier ones. -/
theorem Traced.plan {history : SourceHistory} {journal : Journal} (traced : Traced history journal)
    {fuse : Nat} {state : RepositoryState} {input : KnowledgeIndexInput} {plan : IndexPlan}
    (step : .index fuse state input ∈ history.steps)
    (prepared : prepareIndex (state.world history.graph history.canonicalRoot) history.workspaceId
      input journal = .ok plan) :
    ∃ result, history.Captured result ∧ plan.snapshot.repositoryId = history.repositoryId ∧
      result.capture.snapshotId = plan.snapshot.snapshotId ∧
      capturedState result.capture = recordedState plan.snapshot ∧
      ∀ event ∈ plan.relations, event.relation ≠ .unknown ∧ ∃ left, history.Captured left ∧
        left.capture.snapshotId = event.leftSnapshotId ∧
        result.capture.snapshotId = event.rightSnapshotId ∧
        history.graph.Ordered event.relation (capturedState left.capture)
          (capturedState result.capture) := by
  obtain ⟨limits, taken, workspace, relations, valid, captured, repository, named, recorded, related,
    planned⟩ := prepareIndex_source prepared
  rw [traced.identity state] at captured
  obtain ⟨result, shot, same⟩ : ∃ result, capture state.repository history.repositoryId limits =
      .ok result ∧ result.capture = taken := by
    have mapped : (capture state.repository history.repositoryId limits).map
        CaptureResult.capture = .ok taken := captured
    cases run : capture state.repository history.repositoryId limits with
    | error error =>
      rw [run] at mapped
      cases mapped
    | ok result =>
      rw [run] at mapped
      exact ⟨result, rfl, Except.ok.inj mapped⟩
  have here : history.Captured result := ⟨fuse, state, input, limits, step, valid, shot⟩
  have own : taken.repositoryId = history.repositoryId := by
    rw [← same]
    exact (capture_state shot).1
  refine ⟨result, here, repository.trans own, by rw [same, named], by rw [same, recorded], ?_⟩
  intro event member
  rw [planned] at member
  obtain ⟨prior, listed, compared, done, known, left, right, relation⟩ :=
    planSnapshotRelations_compared related event member
  obtain ⟨row, inside, carried⟩ := mem_snapshotsOf.mp listed
  obtain ⟨belongs, earlier, seen, id, held⟩ :=
    traced.snapshots row (Journal.mem_region.mp inside).1 prior carried
  unfold GitWorld.comparison at done
  rw [if_pos (belongs.trans own.symm)] at done
  have walks : (state.world history.graph history.canonicalRoot).compareCommits =
      fun left right => compareCommits state.repository.opened history.graph state.present left right
        maxGitAncestryWalk := rfl
  have ordered := overlayAwareComparison_ordered walks done
  refine ⟨by rw [relation]; exact known, earlier, seen, id.trans left.symm, by rw [same, right], ?_⟩
  rw [relation, held, same]
  exact ordered

/-- The step law: one step keeps a journal traced. -/
theorem Traced.run {history : SourceHistory} {journal : Journal} (traced : Traced history journal)
    {step : HistoryStep} (member : step ∈ history.steps) :
    Traced history (history.run journal step) := by
  cases step with
  | others fuse payloads apart =>
    refine traced.others fun row inside => ?_
    exact (appendWithin_rows inside).imp id (apart _)
  | index fuse state input =>
    have rows := fun row (inside : row ∈ (history.run journal (.index fuse state input)).entries) =>
      knowledgeIndex_rows inside
    constructor
    · intro row inside snapshot carried
      rcases rows row inside with before | ⟨plan, prepared, event⟩ | ⟨event, other⟩
      · exact traced.snapshots row before snapshot carried
      · obtain ⟨result, captured, repository, named, recorded, _⟩ := traced.plan member prepared
        rw [carried] at event
        unfold IndexPlan.events at event
        have own : snapshot = plan.snapshot := by
          rcases List.mem_append.mp event with first | relation
          · rcases List.mem_cons.mp first with same | linked
            · exact Payload.sourceSnapshotRecorded.inj same
            · obtain ⟨_, _, inner⟩ := List.mem_flatMap.mp linked
              simp at inner
          · simp at relation
        rw [own]
        exact ⟨repository, result, captured, named, recorded⟩
      · rw [carried] at other
        cases other
    · intro row inside event carried
      rcases rows row inside with before | ⟨plan, prepared, planned⟩ | ⟨event, other⟩
      · exact traced.relations row before event carried
      · obtain ⟨result, captured, _, _, _, ordered⟩ := traced.plan member prepared
        rw [carried] at planned
        unfold IndexPlan.events at planned
        have listed : event ∈ plan.relations := by
          rcases List.mem_append.mp planned with first | relation
          · rcases List.mem_cons.mp first with same | linked
            · cases same
            · obtain ⟨_, _, inner⟩ := List.mem_flatMap.mp linked
              simp at inner
          · simpa using relation
        obtain ⟨known, left, seen, leftId, rightId, held⟩ := ordered event listed
        exact ⟨known, left, result, seen, captured, leftId, rightId, held⟩
      · rw [carried] at other
        cases other

/-- The run law: the journal of a history is traced. -/
theorem SourceHistory.traced (history : SourceHistory) : Traced history history.journal := by
  have kept : ∀ (steps : List HistoryStep) (journal : Journal), (∀ step ∈ steps,
      step ∈ history.steps) → Traced history journal →
      Traced history (steps.foldl history.run journal) := by
    intro steps
    induction steps with
    | nil => exact fun _ _ traced => traced
    | cons step rest ih =>
      intro journal inside traced
      exact ih _ (fun later member => inside later (List.mem_cons_of_mem _ member))
        (traced.run (inside step List.mem_cons_self))
  exact kept history.steps Journal.empty (fun _ member => member)
    ⟨fun _ member => (by cases member), fun _ member => (by cases member)⟩

/-- Some fact of a pair of snapshots is recorded, one way or the other. -/
def RecordedPair (projection : TemporalProjection) (left right : SourceSnapshotId) : Prop :=
  (left.value, right.value) ∈ projection ∨ (right.value, left.value) ∈ projection

/-- Facts of a pair are inverse, and the order they give is antisymmetric and, where the pairs are
recorded, transitive. -/
structure ConsistentOrder (projection : TemporalProjection) : Prop where
  inverse : ∀ (left right : String) (forth back : TemporalRelation), projection[(left, right)]? = some forth →
    projection[(right, left)]? = some back → back = forth.invert
  antisymmetric : ∀ left right, compareTemporal projection right left =
    (compareTemporal projection left right).invert
  transitive : ∀ first second third, RecordedPair projection first second →
    RecordedPair projection second third → RecordedPair projection first third →
    compareTemporal projection first second = .before →
    compareTemporal projection second third = .before →
    compareTemporal projection first third = .before

section
variable {graph : CommitGraph} {projection : TemporalProjection}
  {states : String → SourceState → Prop}

omit [Blake3] [GitObjects] in
/-- A known answer says how two states lie. -/
theorem compareTemporal_ordered
    (placed : ∀ (left right : String) (relation : TemporalRelation),
      projection[(left, right)]? = some relation → relation ≠ .unknown ∧ ∃ first second,
        states left first ∧ states right second ∧ graph.Ordered relation first second)
    {left right : SourceSnapshotId} (apart : left ≠ right)
    (known : compareTemporal projection left right ≠ .unknown) :
    ∃ first second, states left.value first ∧ states right.value second ∧
      graph.Ordered (compareTemporal projection left right) first second := by
  unfold compareTemporal at known ⊢
  rw [if_neg apart] at known ⊢
  cases forth : projection[(left.value, right.value)]? with
  | some relation => exact (placed _ _ _ forth).2
  | none =>
    rw [forth] at known
    cases back : projection[(right.value, left.value)]? with
    | some relation =>
      obtain ⟨_, first, second, here, there, ordered⟩ := placed _ _ _ back
      exact ⟨second, first, there, here, ordered.invert⟩
    | none =>
      rw [back] at known
      exact absurd rfl known

omit [Blake3] [GitObjects] in
/-- A recorded pair is answered. -/
theorem RecordedPair.known
    (placed : ∀ (left right : String) (relation : TemporalRelation),
      projection[(left, right)]? = some relation → relation ≠ .unknown ∧ ∃ first second,
        states left first ∧ states right second ∧ graph.Ordered relation first second)
    {left right : SourceSnapshotId} (recorded : RecordedPair projection left right) :
    compareTemporal projection left right ≠ .unknown := by
  unfold compareTemporal
  split
  · exact TemporalRelation.noConfusion
  · cases forth : projection[(left.value, right.value)]? with
    | some relation => exact (placed _ _ _ forth).1
    | none =>
      cases back : projection[(right.value, left.value)]? with
      | some relation =>
        have known := (placed _ _ _ back).1
        intro unknown
        apply known
        have inverse : relation.invert = .unknown := unknown
        rw [← TemporalRelation.invert_invert relation, inverse]
        rfl
      | none =>
        rcases recorded with there | there
        · have held := Std.ExtTreeMap.isSome_getElem?_iff_mem.mpr there
          rw [forth] at held
          cases held
        · have held := Std.ExtTreeMap.isSome_getElem?_iff_mem.mpr there
          rw [back] at held
          cases held

omit [Blake3] [GitObjects] in
/-- Facts that say how the one state of each snapshot lies in a strict order are consistent. -/
theorem consistentOrder_of_states
    (single : ∀ id first second, states id first → states id second → first = second)
    (placed : ∀ (left right : String) (relation : TemporalRelation),
      projection[(left, right)]? = some relation → relation ≠ .unknown ∧ ∃ first second,
        states left first ∧ states right second ∧ graph.Ordered relation first second) :
    ConsistentOrder projection where
  inverse := by
    intro left right forth back told turned
    obtain ⟨known, first, second, here, there, ordered⟩ := placed _ _ _ told
    obtain ⟨backKnown, second', first', there', here', reversed⟩ := placed _ _ _ turned
    rw [single _ _ _ here' here, single _ _ _ there' there] at reversed
    exact ordered.inverse reversed known backKnown
  antisymmetric := by
    intro left right
    unfold compareTemporal
    by_cases same : left = right
    · rw [if_pos same, if_pos same.symm]
      rfl
    · rw [if_neg same, if_neg (Ne.symm same)]
      cases told : projection[(left.value, right.value)]? with
      | some forth =>
        cases turned : projection[(right.value, left.value)]? with
        | some back =>
          obtain ⟨known, first, second, here, there, ordered⟩ := placed _ _ _ told
          obtain ⟨backKnown, second', first', there', here', reversed⟩ := placed _ _ _ turned
          rw [single _ _ _ here' here, single _ _ _ there' there] at reversed
          exact ordered.inverse reversed known backKnown
        | none => rfl
      | none =>
        cases turned : projection[(right.value, left.value)]? with
        | some back => exact (TemporalRelation.invert_invert back).symm
        | none => rfl
  transitive := by
    intro first second third _ _ recorded forth later
    have apart : first ≠ second := by
      intro same
      rw [compareTemporal, if_pos same] at forth
      cases forth
    have apartLater : second ≠ third := by
      intro same
      rw [compareTemporal, if_pos same] at later
      cases later
    obtain ⟨one, two, hereOne, hereTwo, precedes⟩ := compareTemporal_ordered placed apart
      (by rw [forth]; exact TemporalRelation.noConfusion)
    obtain ⟨two', three, hereTwo', hereThree, follows⟩ := compareTemporal_ordered placed apartLater
      (by rw [later]; exact TemporalRelation.noConfusion)
    rw [forth] at precedes
    rw [later, single _ _ _ hereTwo' hereTwo] at follows
    have whole : graph.Precedes one three := CommitGraph.Precedes.trans precedes follows
    have ends : first ≠ third := by
      intro same
      rw [same] at hereOne
      rw [single _ _ _ hereOne hereThree] at whole
      exact whole.asymm whole
    have known := RecordedPair.known placed recorded
    obtain ⟨one', three', hereOne', hereThree', ordered⟩ :=
      compareTemporal_ordered placed ends known
    rw [single _ _ _ hereOne' hereOne, single _ _ _ hereThree' hereThree] at ordered
    have expected : graph.Ordered .before one three := whole
    exact ordered.unique expected known TemporalRelation.noConfusion

end

/-- The state a snapshot id stands for in a history. -/
def SourceHistory.StateOf (history : SourceHistory) (snapshotId : String) (state : SourceState) :
    Prop :=
  ∃ result, history.Captured result ∧ result.capture.snapshotId.value = snapshotId ∧
    capturedState result.capture = state

end

/-- The commit graph of the demonstration: no commit has a parent. -/
def demoGraph : CommitGraph where
  parents _ := []
  acyclic := ⟨fun commit => ⟨commit, fun _ member => by cases member⟩⟩

/-- The state of the demonstration's repository, with two changed files. -/
def demoState : RepositoryState where
  repository := demoRepository ["a.md", "b.md"]
  present _ := true

/-- A capture and a return to it. -/
def demoHistory : SourceHistory where
  graph := demoGraph
  canonicalRoot := "/w"
  workspaceId := "demo"
  steps := [.index 9 demoState ⟨1, none, none, none⟩, .index 9 demoState ⟨2, none, none, none⟩]

/-- Captures of the demonstration's history are of one state under some limits of its runs. -/
theorem demoHistory_captured {result : CaptureResult}
    (captured : @SourceHistory.Captured pairedDigest demoObjects demoHistory result) :
    ∃ limits, KnowledgeIndexInput.validatedLimits ⟨1, none, none, none⟩ = .ok limits ∧
      @capture pairedDigest demoObjects demoState.repository
        (@SourceHistory.repositoryId pairedDigest demoHistory) limits = .ok result := by
  obtain ⟨fuse, state, input, limits, member, valid, shot⟩ := captured
  simp only [demoHistory, List.mem_cons, HistoryStep.index.injEq, List.not_mem_nil, or_false]
    at member
  rcases member with ⟨_, rfl, rfl⟩ | ⟨_, rfl, rfl⟩
  · exact ⟨limits, valid, shot⟩
  · exact ⟨limits, valid, shot⟩

end Texo.Git
