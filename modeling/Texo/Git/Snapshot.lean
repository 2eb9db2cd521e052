import Texo.Backup.Evidence
import Texo.Git.Overlay

/-! # Captures of one snapshot id

Two captures of one snapshot id start from the same committed files and write the same overlay. The
order in which the status gives its items is not part of the id: where a budget binds, or where the
items note gaps, it decides what is captured.
-/
namespace Texo.Git
open Texo.Events Texo.Knowledge Texo.Ops Texo.Foundation

section
variable [Blake3]

omit [Blake3] in
/-- What the items of a status come to, in their order. -/
def statusSteps (repository : Repository) (limits : CaptureLimits) :
    Except TexoError (List StatusStep) := do
  let status ← repository.status
  status.mapM fun item =>
    item >>= statusStep limits (conflictPaths repository.index) repository.worktree

/-- An overlay is what its steps leave, one after another. -/
theorem captureOverlay_steps {repository : Repository} {accumulator : CaptureAccumulator}
    {overlaid : OverlayState} (done : captureOverlay repository accumulator = .ok overlaid) :
    ∃ steps, statusSteps repository accumulator.limits = .ok steps ∧
      overlaid = steps.foldl OverlayState.apply
        (captureConflicts (conflictPaths repository.index) accumulator) := by
  obtain ⟨status, listed, run⟩ := bind_eq_ok.mp done
  have same : statusSteps repository accumulator.limits = status.mapM (fun item => item >>=
      statusStep accumulator.limits (conflictPaths repository.index) repository.worktree) := by
    unfold statusSteps
    rw [listed]
    rfl
  rw [same]
  clear done listed same
  generalize captureConflicts (conflictPaths repository.index) accumulator = start at run ⊢
  induction status generalizing start with
  | nil => exact ⟨[], rfl, (Except.ok.inj run).symm⟩
  | cons item rest ih =>
    rw [List.foldlM_cons] at run
    obtain ⟨next, first, later⟩ := bind_eq_ok.mp run
    obtain ⟨location, located, first⟩ := bind_eq_ok.mp first
    obtain ⟨step, stepped, first⟩ := bind_eq_ok.mp first
    obtain ⟨steps, mapped, final⟩ := ih next later
    refine ⟨step :: steps, ?_, ?_⟩
    · have head : (item >>= statusStep accumulator.limits (conflictPaths repository.index)
          repository.worktree) = .ok step := by
        rw [located]
        exact stepped
      rw [List.mapM_cons]
      exact bind_eq_ok.mpr ⟨step, head, bind_eq_ok.mpr ⟨steps, mapped, rfl⟩⟩
    · rw [List.foldl_cons, Except.ok.inj first]
      exact final

omit [Blake3] in
/-- A step comes from an item of the status. -/
theorem step_located {repository : Repository} {limits : CaptureLimits} {steps : List StatusStep}
    (listed : statusSteps repository limits = .ok steps) {step : StatusStep}
    (member : step ∈ steps) :
    ∃ status, repository.status = .ok status ∧ ∃ item ∈ status, ∃ location, item = .ok location ∧
      statusStep limits (conflictPaths repository.index) repository.worktree location =
        .ok step := by
  obtain ⟨status, found, mapped⟩ := bind_eq_ok.mp listed
  obtain ⟨item, inside, stepped⟩ := mem_of_mapM mapped member
  obtain ⟨location, located, stepped⟩ := bind_eq_ok.mp stepped
  exact ⟨status, found, item, inside, location, located, stepped⟩

/-- A step that writes an entry is that of the worktree at a captured path of the item. -/
theorem step_of_entry {limits : CaptureLimits} {conflicts : OrderedMap String Unit}
    {worktree : String → WorktreeEntry} {location : List UInt8} {step : StatusStep} {path : String}
    {entry : OverlayDigestEntry} (stepped : statusStep limits conflicts worktree location = .ok step)
    (wrote : step.entry = some (path, entry)) :
    fromUtf8 location = some path ∧ worktreeStep limits path (worktree path) = .ok step := by
  have own : ∀ {place : String} {found : WorktreeEntry},
      worktreeStep limits place found = .ok step → place = path := by
    intro place found told
    cases found with
    | missing =>
      cases told
      exact (Prod.mk.inj (Option.some.inj wrote)).1
    | failed failure => cases told
    | symlink =>
      cases told
      exact (Prod.mk.inj (Option.some.inj wrote)).1
    | other =>
      cases told
      cases wrote
    | file bytes =>
      simp only [worktreeStep] at told
      split at told
      · cases told
        exact (Prod.mk.inj (Option.some.inj wrote)).1
      · cases told
        exact (Prod.mk.inj (Option.some.inj wrote)).1
    | changing length failure =>
      simp only [worktreeStep] at told
      split at told
      · cases told
        exact (Prod.mk.inj (Option.some.inj wrote)).1
      · cases told
  unfold statusStep at stepped
  cases read : fromUtf8 location with
  | none =>
    rw [read] at stepped
    cases stepped
    cases wrote
  | some place =>
    rw [read] at stepped
    simp only at stepped
    split at stepped
    · split at stepped
      · cases stepped
        cases wrote
      · have same := own stepped
        rw [same] at stepped
        exact ⟨by rw [same], stepped⟩
    · split at stepped
      · cases stepped
        cases wrote
      · cases stepped
        cases wrote

/-- What a path of the worktree comes to is sized, and written as captures write. -/
theorem worktreeStep_spec {limits : CaptureLimits} {path : String} {found : WorktreeEntry}
    {step : StatusStep} (told : worktreeStep limits path found = .ok step) :
    step.Sized limits ∧ ∀ place entry, step.entry = some (place, entry) →
      entry.Written ∧ entry ≠ .omitted "conflict" := by
  have skipped : ∀ {kind : CoverageGapKind} {label : String}, label ∈ overlayLabels →
      label ≠ "conflict" → step = .skip path kind label →
      step.Sized limits ∧ ∀ place entry, step.entry = some (place, entry) →
        entry.Written ∧ entry ≠ .omitted "conflict" := by
    intro kind label known other same
    rw [same]
    refine ⟨trivial, ?_⟩
    intro place entry wrote
    obtain ⟨_, rfl⟩ := Prod.mk.inj (Option.some.inj wrote)
    exact ⟨known, fun same => other (OverlayDigestEntry.omitted.inj same)⟩
  cases found with
  | missing =>
    cases told
    refine ⟨trivial, ?_⟩
    intro place entry wrote
    obtain ⟨_, rfl⟩ := Prod.mk.inj (Option.some.inj wrote)
    exact ⟨trivial, fun same => by cases same⟩
  | failed failure => cases told
  | symlink => exact skipped (by decide) (by decide) (Except.ok.inj told).symm
  | other =>
    cases told
    exact ⟨trivial, fun place entry wrote => by cases wrote⟩
  | file bytes =>
    simp only [worktreeStep] at told
    split at told
    · exact skipped (by decide) (by decide) (Except.ok.inj told).symm
    · rename_i small
      cases told
      have fits : bytes.length ≤ limits.maxFileBytes := by omega
      refine ⟨fits, ?_⟩
      intro place entry wrote
      obtain ⟨_, rfl⟩ := Prod.mk.inj (Option.some.inj wrote)
      exact ⟨⟨bytes, rfl⟩, fun same => by cases same⟩
  | changing length failure =>
    simp only [worktreeStep] at told
    split at told
    · exact skipped (by decide) (by decide) (Except.ok.inj told).symm
    · cases told

/-- An entry of an overlay was there at the start, or a step wrote it. -/
theorem entry_of_overlay {start : OverlayState} {steps : List StatusStep} {path : String}
    {entry : OverlayDigestEntry}
    (held : (steps.foldl OverlayState.apply start).overlay.find? path = some entry) :
    start.overlay.find? path = some entry ∨ ∃ step ∈ steps, step.entry = some (path, entry) := by
  induction steps generalizing start with
  | nil => exact Or.inl held
  | cons step rest ih =>
    rcases ih held with before | ⟨later, member, wrote⟩
    · have inserted : ∀ place value,
          (start.overlay.insert place value).find? path = some entry →
            start.overlay.find? path = some entry ∨ some (place, value) = some (path, entry) := by
        intro place value found
        rw [OrderedMap.find?_insert] at found
        split at found
        · rename_i same
          right
          rw [same, Option.some.inj found]
        · exact Or.inl found
      have own : start.overlay.find? path = some entry ∨ step.entry = some (path, entry) := by
        cases step with
        | pass => exact Or.inl before
        | note place kind => exact Or.inl before
        | delete place => exact inserted _ _ before
        | skip place kind label => exact inserted _ _ before
        | read place bytes => exact inserted _ _ before
      rcases own with earlier | wrote
      · exact Or.inl earlier
      · exact Or.inr ⟨step, List.mem_cons_self, wrote⟩
    · exact Or.inr ⟨later, List.mem_cons_of_mem _ member, wrote⟩

omit [Blake3] in
/-- The conflicts leave the limits and the deletions alone, and write nothing but their label at
conflict paths. -/
theorem captureConflicts_spec (conflicts : OrderedMap String Unit)
    (accumulator : CaptureAccumulator) :
    (captureConflicts conflicts accumulator).accumulator.limits = accumulator.limits ∧
      (captureConflicts conflicts accumulator).accumulator.deleted = accumulator.deleted ∧
      ∀ path entry, (captureConflicts conflicts accumulator).overlay.find? path = some entry →
        entry = .omitted "conflict" ∧ path ∈ conflicts.entries.map Prod.fst := by
  unfold captureConflicts
  generalize conflicts.entries.map Prod.fst = paths
  have noted : ∀ (paths : List String) (accumulator : CaptureAccumulator),
      (paths.foldl (fun accumulator path =>
        accumulator.gap (some path) CoverageGapKind.worktreeConflict) accumulator).limits =
          accumulator.limits ∧
      (paths.foldl (fun accumulator path =>
        accumulator.gap (some path) CoverageGapKind.worktreeConflict) accumulator).deleted =
          accumulator.deleted := by
    intro paths
    induction paths with
    | nil => exact fun _ => ⟨rfl, rfl⟩
    | cons path rest ih =>
      intro accumulator
      have told := accumulator.gap_spec (some path) .worktreeConflict
      have later := ih (accumulator.gap (some path) .worktreeConflict)
      exact ⟨later.1.trans told.2.1, later.2.trans told.2.2.2.1⟩
  have omitted : ∀ (listed : List String) (state : OverlayState),
      let after := listed.foldl (fun state path =>
        { accumulator := state.accumulator.omitSource path
          overlay := state.overlay.insert path (OverlayDigestEntry.omitted "conflict") }) state
      after.accumulator.limits = state.accumulator.limits ∧
        after.accumulator.deleted = state.accumulator.deleted ∧
        ∀ path entry, after.overlay.find? path = some entry →
          state.overlay.find? path = some entry ∨
            (entry = .omitted "conflict" ∧ path ∈ listed) := by
    intro listed
    induction listed with
    | nil => exact fun _ => ⟨rfl, rfl, fun _ _ held => Or.inl held⟩
    | cons place rest ih =>
      intro state
      have told := state.accumulator.omitSource_spec place
      have later := ih
        { accumulator := state.accumulator.omitSource place
          overlay := state.overlay.insert place (.omitted "conflict") }
      refine ⟨later.1.trans told.2.1, later.2.1.trans told.2.2.2.1, ?_⟩
      intro path entry held
      rcases later.2.2 path entry held with before | ⟨label, member⟩
      · rw [OrderedMap.find?_insert] at before
        split at before
        · rename_i same
          exact Or.inr ⟨(Option.some.inj before).symm, by simp [same]⟩
        · exact Or.inl before
      · exact Or.inr ⟨label, List.mem_cons_of_mem _ member⟩
  obtain ⟨limits, deleted, entries⟩ := omitted (paths.filter capturesPath)
    { accumulator := paths.foldl (fun accumulator path =>
        accumulator.gap (some path) CoverageGapKind.worktreeConflict) accumulator
      overlay := .empty }
  refine ⟨limits.trans (noted paths accumulator).1, deleted.trans (noted paths accumulator).2, ?_⟩
  intro path entry held
  rcases entries path entry held with nothing | ⟨label, member⟩
  · cases nothing
  · exact ⟨label, (List.mem_filter.mp member).1⟩

omit [Blake3] in
/-- Keeping a file leaves the limits alone, and no deletion where there was none. -/
theorem insert_undeleted {accumulator : CaptureAccumulator} {path : String} {bytes : List UInt8}
    {blobId : Option GitObjectId} {layer : CapturedLayer}
    (undeleted : accumulator.deleted = .empty) :
    (accumulator.insert path bytes blobId layer).limits = accumulator.limits ∧
      (accumulator.insert path bytes blobId layer).deleted = .empty := by
  let examined : CaptureAccumulator :=
    { accumulator with sourcesExamined := accumulator.sourcesExamined + 1 }
  have omitted := examined.omitSource_spec path
  have noted : ∀ kind, ((examined.omitSource path).gap (some path) kind).limits =
        accumulator.limits ∧
      ((examined.omitSource path).gap (some path) kind).deleted = .empty := by
    intro kind
    have told := (examined.omitSource path).gap_spec (some path) kind
    exact ⟨told.2.1.trans omitted.2.1, told.2.2.2.1.trans (omitted.2.2.2.1.trans undeleted)⟩
  unfold CaptureAccumulator.insert
  simp only
  split
  · exact noted _
  · split
    · exact noted _
    · split
      · let truncated : CaptureAccumulator := { examined.omitSource path with truncated := true }
        have told := truncated.gap_spec (some path) .budgetExceeded
        exact ⟨told.2.1.trans omitted.2.1, told.2.2.2.1.trans (omitted.2.2.2.1.trans undeleted)⟩
      · refine ⟨rfl, ?_⟩
        rw [undeleted]
        rfl

variable [GitObjects]

omit [Blake3] in
/-- One committed file is captured alike wherever its object is read. -/
theorem captureTreeFile_spec {repository : Repository} (other : Repository) {accumulator : CaptureAccumulator}
    {file : TreeFile} {next : CaptureAccumulator}
    (captured : captureTreeFile repository accumulator file = .ok next)
    (undeleted : accumulator.deleted = .empty) :
    next.limits = accumulator.limits ∧ next.deleted = .empty ∧
      ∀ again, captureTreeFile other accumulator file = .ok again → again = next := by
  have gapped : ∀ path kind, (accumulator.gap path kind).limits = accumulator.limits ∧
      (accumulator.gap path kind).deleted = .empty := by
    intro path kind
    have told := accumulator.gap_spec path kind
    exact ⟨told.2.1, told.2.2.2.1.trans undeleted⟩
  have settled : ∀ {result : CaptureAccumulator}, result.limits = accumulator.limits ∧
      result.deleted = .empty → (Except.ok result : Except TexoError CaptureAccumulator) = .ok next →
      next.limits = accumulator.limits ∧ next.deleted = .empty ∧
        ∀ again, (Except.ok result : Except TexoError CaptureAccumulator) = .ok again →
          again = next := by
    intro result kept same
    rw [← Except.ok.inj same]
    exact ⟨kept.1, kept.2, fun again told => (Except.ok.inj told).symm⟩
  unfold captureTreeFile at captured ⊢
  cases read : fromUtf8 file.filepath with
  | none =>
    rw [read] at captured
    exact settled (gapped _ _) captured
  | some path =>
    rw [read] at captured
    simp only at captured ⊢
    by_cases scope : sourcePathIsInScope path = true
    · rw [if_pos scope] at captured
      rw [if_pos scope]
      cases mode : file.mode with
      | commit =>
        rw [mode] at captured
        exact settled (gapped _ _) captured
      | link =>
        rw [mode] at captured
        exact settled (gapped _ _) captured
      | blob =>
        rw [mode] at captured
        simp only at captured ⊢
        obtain ⟨_, _, captured⟩ := bind_eq_ok.mp captured
        by_cases large : accumulator.limits.maxFileBytes < (GitObjects.blob file.oid).length
        · rw [if_pos large] at captured ⊢
          obtain ⟨limits, deleted, same⟩ := settled (gapped _ _) captured
          refine ⟨limits, deleted, ?_⟩
          intro again told
          obtain ⟨_, _, told⟩ := bind_eq_ok.mp told
          exact same again told
        · rw [if_neg large] at captured ⊢
          obtain ⟨limits, deleted, same⟩ := settled (insert_undeleted undeleted) captured
          refine ⟨limits, deleted, ?_⟩
          intro again told
          obtain ⟨_, _, told⟩ := bind_eq_ok.mp told
          exact same again told
    · rw [if_neg scope] at captured
      rw [if_neg scope]
      have noted : (noteOutOfScope accumulator path).limits = accumulator.limits ∧
          (noteOutOfScope accumulator path).deleted = .empty := by
        unfold noteOutOfScope
        split
        · exact gapped _ _
        · exact ⟨rfl, undeleted⟩
      exact settled noted captured

omit [Blake3] in
/-- The committed files of a tree are captured alike in every repository that reads them. -/
theorem captureCommitted_spec {repository : Repository} (other : Repository) {tree : GitObjectId}
    {accumulator committed : CaptureAccumulator}
    (captured : captureCommitted repository tree accumulator = .ok committed)
    (undeleted : accumulator.deleted = .empty) :
    committed.limits = accumulator.limits ∧ committed.deleted = .empty ∧
      ∀ again, captureCommitted other tree accumulator = .ok again → again = committed := by
  unfold captureCommitted at captured ⊢
  generalize ((GitObjects.treeFiles tree).insertionSort fun left right =>
    left.filepath ≤ right.filepath) = files at captured ⊢
  induction files generalizing accumulator with
  | nil =>
    have same : accumulator = committed := Except.ok.inj captured
    rw [← same]
    exact ⟨rfl, undeleted, fun again told => (Except.ok.inj told).symm⟩
  | cons file rest ih =>
    rw [List.foldlM_cons] at captured
    obtain ⟨next, first, later⟩ := bind_eq_ok.mp captured
    obtain ⟨limits, deleted, same⟩ := captureTreeFile_spec other first undeleted
    obtain ⟨lastLimits, lastDeleted, lastSame⟩ := ih deleted later
    refine ⟨lastLimits.trans limits, lastDeleted, ?_⟩
    intro again told
    rw [List.foldlM_cons] at told
    obtain ⟨next', first', later'⟩ := bind_eq_ok.mp told
    rw [same next' first'] at later'
    exact lastSame again later'

/-- The parts of a successful capture. -/
theorem capture_spec {repository : Repository} {repositoryId : RepositoryId}
    {limits : CaptureLimits} {result : CaptureResult}
    (captured : capture repository repositoryId limits = .ok result) :
    ∃ baseCommit committed steps, repository.head = .ok baseCommit ∧
      captureCommitted repository (GitObjects.commitTree baseCommit) (.new limits) =
        .ok committed ∧
      statusSteps repository limits = .ok steps ∧
      ∃ overlaid, overlaid = steps.foldl OverlayState.apply
          (captureConflicts (conflictPaths repository.index) committed) ∧
        result.overlay = overlaid.overlay ∧
        result.material = snapshotMaterial repositoryId baseCommit
          (GitObjects.commitTree baseCommit) (Blake3.hex (indexMaterial repository.index))
          (Blake3.hex (overlayMaterial overlaid.overlay)) limits ∧
        result.capture.snapshotId = sourceSnapshotId result.material ∧
        result.capture.sources = overlaid.accumulator.captured ∧
        result.deleted = overlaid.accumulator.deletions ∧
        result.capture.coverage = overlaid.accumulator.coverage := by
  obtain ⟨_, _, captured⟩ := bind_eq_ok.mp captured
  obtain ⟨baseCommit, resolved, captured⟩ := bind_eq_ok.mp captured
  obtain ⟨committed, layer, captured⟩ := bind_eq_ok.mp captured
  obtain ⟨overlaid, laid, captured⟩ := bind_eq_ok.mp captured
  obtain ⟨_, _, captured⟩ := bind_eq_ok.mp captured
  obtain ⟨steps, listed, final⟩ := captureOverlay_steps laid
  have kept : committed.limits = limits := (captureCommitted_spec repository layer rfl).1
  rw [kept] at listed
  rw [← Except.ok.inj captured]
  exact ⟨baseCommit, committed, steps, resolved, layer, listed, overlaid, final, rfl, rfl, rfl, rfl,
    rfl, rfl⟩

omit [Blake3] in
/-- The state the items of the status are taken from: the committed files and the conflicts. -/
def Repository.overlayStart (repository : Repository) (limits : CaptureLimits) : OverlayState :=
  captureConflicts (conflictPaths repository.index)
    (match repository.head >>= fun baseCommit =>
      captureCommitted repository (GitObjects.commitTree baseCommit) (.new limits) with
    | .ok committed => committed
    | .error _ => .new limits)

omit [Blake3] [GitObjects] in
/-- What the items of the status come to, in their order. -/
def Repository.steps (repository : Repository) (limits : CaptureLimits) : List StatusStep :=
  match statusSteps repository limits with
  | .ok steps => steps
  | .error _ => []

/-- No file of the status is refused on a budget. -/
def Repository.Roomy (repository : Repository) (limits : CaptureLimits) : Prop :=
  Unrefused (repository.overlayStart limits) (repository.steps limits)

instance (repository : Repository) (limits : CaptureLimits) : Decidable (repository.Roomy limits) :=
  inferInstanceAs (Decidable (Unrefused _ _))

omit [Blake3] in
/-- The gaps the committed files, the conflicts and the items of the status note, as far as they
are kept, whether one is dropped, and how many files the items read. -/
def Repository.noted (repository : Repository) (limits : CaptureLimits) :
    (List CoverageGap × Bool) × Nat :=
  (((repository.steps limits).flatMap StatusStep.notes).foldl CaptureAccumulator.noteGap
      (repository.overlayStart limits).accumulator.noted,
    ((repository.steps limits).map StatusStep.reads).sum)

omit [Blake3] [GitObjects] in
/-- No path of the index conflicts and of the status holds a separator of the overlay digest. -/
def Repository.Plain (repository : Repository) : Prop :=
  (∀ path ∈ (conflictPaths repository.index).entries.map Prod.fst, PlainPath path) ∧
    ∀ status, repository.status = .ok status → ∀ item ∈ status, ∀ location, item = .ok location →
      ∀ path, fromUtf8 location = some path → PlainPath path

omit [Blake3] [GitObjects] in
/-- Two captures with the same sources, deleted paths and coverage. -/
def SameResult (first second : CaptureResult) : Prop :=
  first.capture.sources = second.capture.sources ∧ first.deleted = second.deleted ∧
    first.capture.coverage = second.capture.coverage

omit [GitObjects] in
/-- The overlay of a capture of plain paths is made of plain written entries. -/
theorem plain_overlay {repository : Repository} {limits : CaptureLimits} {steps : List StatusStep}
    {accumulator : CaptureAccumulator} (plain : repository.Plain)
    (listed : statusSteps repository limits = .ok steps) :
    ∀ entry ∈ (steps.foldl OverlayState.apply
        (captureConflicts (conflictPaths repository.index) accumulator)).overlay.entries,
      PlainPath entry.1 ∧ entry.2.Written := by
  intro entry member
  have held := OrderedMap.find?_eq_some.mpr (show (entry.1, entry.2) ∈ _ from member)
  rcases entry_of_overlay held with conflict | ⟨step, inside, wrote⟩
  · obtain ⟨label, path⟩ := (captureConflicts_spec _ accumulator).2.2 entry.1 entry.2 conflict
    refine ⟨plain.1 entry.1 path, ?_⟩
    rw [label]
    show "conflict" ∈ overlayLabels
    decide
  · obtain ⟨status, found, item, there, location, located, stepped⟩ := step_located listed inside
    obtain ⟨read, told⟩ := step_of_entry stepped wrote
    exact ⟨plain.2 status found item there location located entry.1 read,
      ((worktreeStep_spec told).2 entry.1 entry.2 wrote).1⟩

omit [GitObjects] in
/-- A path has one item at most in a frozen worktree, or items that say the same. -/
theorem oneStepEach_steps {repository : Repository} {limits : CaptureLimits}
    {steps : List StatusStep} (listed : statusSteps repository limits = .ok steps) :
    OneStepEach steps := by
  intro left leftIn right rightIn path entry other wrote written
  obtain ⟨_, _, _, _, location, _, stepped⟩ := step_located listed leftIn
  obtain ⟨_, _, _, _, location', _, stepped'⟩ := step_located listed rightIn
  have mine := (step_of_entry stepped wrote).2
  have theirs := (step_of_entry stepped' written).2
  exact Except.ok.inj (mine.symm.trans theirs)

omit [GitObjects] in
/-- The steps of a status are sized, and none writes the label of a conflict. -/
theorem steps_spec {repository : Repository} {limits : CaptureLimits} {steps : List StatusStep}
    (listed : statusSteps repository limits = .ok steps) :
    ∀ step ∈ steps, step.Sized limits ∧ ∀ path, step.entry ≠ some (path, .omitted "conflict") := by
  intro step member
  obtain ⟨_, _, _, _, location, _, stepped⟩ := step_located listed member
  cases step with
  | pass => exact ⟨trivial, fun path wrote => by cases wrote⟩
  | note place kind => exact ⟨trivial, fun path wrote => by cases wrote⟩
  | delete place =>
    have told := (step_of_entry stepped rfl).2
    have spec := worktreeStep_spec told
    exact ⟨spec.1, fun path wrote => (spec.2 _ _ wrote).2 rfl⟩
  | skip place kind label =>
    have told := (step_of_entry stepped rfl).2
    have spec := worktreeStep_spec told
    exact ⟨spec.1, fun path wrote => (spec.2 _ _ wrote).2 rfl⟩
  | read place bytes =>
    have told := (step_of_entry stepped rfl).2
    have spec := worktreeStep_spec told
    exact ⟨spec.1, fun path wrote => (spec.2 _ _ wrote).2 rfl⟩

/-- Captures of one material start alike and write one overlay. -/
theorem same_material {left right : Repository} {repositoryId : RepositoryId}
    {limits otherLimits : CaptureLimits} {first second : CaptureResult}
    (collisionFree : Function.Injective Blake3.hex)
    (hexDigits : ∀ bytes, ∀ c ∈ (Blake3.hex bytes).toList, lowerHexChar c = true)
    (captured : capture left repositoryId limits = .ok first)
    (recaptured : capture right repositoryId otherLimits = .ok second)
    (plain : left.Plain) (otherPlain : right.Plain)
    (same : first.material = second.material) :
    limits = otherLimits ∧ left.overlayStart limits = right.overlayStart otherLimits ∧
      first.overlay = second.overlay := by
  obtain ⟨commit, committed, steps, head, layer, listed, overlaid, final, overlay, material, _⟩ :=
    capture_spec captured
  obtain ⟨commit', committed', steps', head', layer', listed', overlaid', final', overlay',
    material', _⟩ := capture_spec recaptured
  rw [material, material'] at same
  obtain ⟨format, hex⟩ := left.headHex commit head
  obtain ⟨format', hex'⟩ := right.headHex commit' head'
  have digits := isLowerHex_iff.mp hex
  have digits' := isLowerHex_iff.mp hex'
  obtain ⟨commits, indexes, overlays, bounds⟩ := snapshotMaterial_inj
    (GitObjects.treeHex commit) (GitObjects.treeHex commit') digits.2 digits'.2 (hexDigits _)
    (hexDigits _) (hexDigits _) (hexDigits _) same
  have widths : idWidth left.format = idWidth right.format := by
    have lengths := digits.1
    rw [commits, digits'.1] at lengths
    omega
  have formats : left.format = right.format := by
    revert widths
    cases left.format <;> cases right.format <;> decide
  have commitSame : commit = commit' := by
    cases commit
    cases commit'
    simp only at format format' commits
    rw [format, format', formats, commits]
  have index : left.index = right.index :=
    indexMaterial_inj left.indexIds (widths ▸ right.indexIds) (collisionFree indexes)
  have layers : committed' = committed := by
    rw [← commitSame, ← bounds] at layer'
    exact (captureCommitted_spec right layer rfl).2.2 committed' layer'
  have starts : left.overlayStart limits = right.overlayStart otherLimits := by
    unfold Repository.overlayStart
    have mine : (left.head >>= fun baseCommit => captureCommitted left
        (GitObjects.commitTree baseCommit) (.new limits)) = .ok committed :=
      bind_eq_ok.mpr ⟨commit, head, layer⟩
    have theirs : (right.head >>= fun baseCommit => captureCommitted right
        (GitObjects.commitTree baseCommit) (.new otherLimits)) = .ok committed' :=
      bind_eq_ok.mpr ⟨commit', head', layer'⟩
    rw [mine, theirs, index, layers]
  refine ⟨bounds, starts, ?_⟩
  have materials : overlayMaterial overlaid.overlay = overlayMaterial overlaid'.overlay :=
    collisionFree overlays
  have entries := overlayEntries_inj hexDigits
    (by rw [final]; exact plain_overlay plain listed)
    (by rw [final']; exact plain_overlay otherPlain listed')
    (List.append_cancel_left materials)
  rw [overlay, overlay']
  cases kept : overlaid.overlay
  cases kept' : overlaid'.overlay
  rw [kept, kept'] at entries
  cases entries
  rfl

end

/-- A collision-free digest: two hexadecimal digits for each byte. -/
@[reducible] def pairedDigest : Blake3 where
  hex bytes := String.ofList
    (bytes.flatMap fun byte => [Nat.digitChar (byte.toNat / 16), Nat.digitChar (byte.toNat % 16)])

/-- The paired digest is collision free. -/
theorem pairedDigest_injective : Function.Injective pairedDigest.hex := by
  have distinct : ∀ digit < 16, ∀ digit' < 16, Nat.digitChar digit = Nat.digitChar digit' →
      digit = digit' := by decide
  intro bytes other same
  have lists := String.ofList_injective same
  clear same
  induction bytes generalizing other with
  | nil =>
    cases other with
    | nil => rfl
    | cons byte rest => simp at lists
  | cons byte rest ih =>
    cases other with
    | nil => simp at lists
    | cons byte' rest' =>
      simp only [List.flatMap_cons, List.cons_append, List.nil_append, List.cons.injEq] at lists
      obtain ⟨high, low, tails⟩ := lists
      have small := byte.toNat_lt
      have small' := byte'.toNat_lt
      have highs := distinct _ (by omega) _ (by omega) high
      have lows := distinct _ (Nat.mod_lt _ (by decide)) _ (Nat.mod_lt _ (by decide)) low
      have bytes : byte.toNat = byte'.toNat := by omega
      rw [UInt8.toNat_inj.mp bytes, ih tails]

/-- The paired digest is in hexadecimal digits. -/
theorem pairedDigest_hex (bytes : List UInt8) :
    ∀ c ∈ (pairedDigest.hex bytes).toList, lowerHexChar c = true := by
  have digits : ∀ digit < 16, lowerHexChar (Nat.digitChar digit) = true := by decide
  intro c member
  have listed : c ∈ (String.ofList (bytes.flatMap fun byte =>
    [Nat.digitChar (byte.toNat / 16), Nat.digitChar (byte.toNat % 16)])).toList := member
  rw [String.toList_ofList] at listed
  obtain ⟨byte, _, shown⟩ := List.mem_flatMap.mp listed
  have small := byte.toNat_lt
  rcases List.mem_cons.mp shown with rfl | last
  · exact digits _ (by omega)
  · rw [List.mem_singleton.mp last]
    exact digits _ (by omega)

/-- Objects of a repository whose head has no files. -/
@[reducible] def demoObjects : GitObjects where
  commitTree _ := ⟨.sha1, "4b82"⟩
  treeFiles _ := []
  blob _ := []
  treeHex _ := List.all_eq_true.mp (by decide)

/-- The commit of the demonstration. -/
def demoCommit : GitObjectId := ⟨.sha1, String.ofList (List.replicate 40 '0')⟩

/-- A repository with two untracked files, listed by its status in some order. -/
def demoRepository (listed : List String) : Repository where
  format := .sha1
  opened := .ok ()
  head := .ok demoCommit
  reads _ := .ok ()
  index := []
  endingIndex := []
  indexPath := ".git/index"
  status := .ok (listed.map fun path => .ok (asBytes path))
  worktree path := .file (asBytes path)
  headHex := by
    intro commit head
    rw [← Except.ok.inj head]
    exact ⟨rfl, by decide⟩
  indexIds := by
    intro entry member
    cases member

/-- The overlay of a capture, with the captured paths. -/
def CaptureResult.shown (result : CaptureResult) :
    List (String × OverlayDigestEntry) × List String :=
  (result.overlay.entries, result.capture.sources.map CapturedSource.path)

/-- The repository identity of the demonstration. -/
def demoRepositoryId : RepositoryId := ⟨"repo_demo", Eq.refl true⟩

/-- The untracked files of the demonstration have plain paths. -/
theorem demoRepository_plain {listed : List String}
    (plain : ∀ path ∈ listed, fromUtf8 (asBytes path) = some path ∧ PlainPath path) :
    (demoRepository listed).Plain := by
  constructor
  · intro path member
    cases member
  · intro status found item member location located path read
    have same : listed.map (fun path => Except.ok (asBytes path)) = status := Except.ok.inj found
    rw [← same] at member
    obtain ⟨place, inside, shown⟩ := List.mem_map.mp member
    rw [located] at shown
    rw [← Except.ok.inj shown, (plain place inside).1] at read
    rw [← Option.some.inj read]
    exact (plain place inside).2

/-- A capture of the demonstration. -/
def demoCapture (listed : List String) (limits : CaptureLimits) : Except TexoError CaptureResult :=
  @capture pairedDigest demoObjects (demoRepository listed) demoRepositoryId limits

/-- The overlay of the two files, whatever is kept of them. -/
def demoOverlay : List (String × OverlayDigestEntry) :=
  [("a.md", .bytes "612e6d64"), ("b.md", .bytes "622e6d64")]

/-- A capture of the demonstration gives what it shows. -/
theorem demoCapture_shown {listed : List String} {limits : CaptureLimits}
    {shown : List (String × OverlayDigestEntry) × List String}
    (captured : (demoCapture listed limits).toOption.map CaptureResult.shown = some shown) :
    ∃ result, demoCapture listed limits = .ok result ∧ result.shown = shown := by
  obtain ⟨result, found, same⟩ := Option.map_eq_some_iff.mp captured
  refine ⟨result, ?_, same⟩
  cases run : demoCapture listed limits with
  | error failure =>
    rw [run] at found
    cases found
  | ok taken =>
    rw [run] at found
    rw [← Option.some.inj found]

/-- Captures of the demonstration with one overlay have one snapshot id. -/
theorem demo_same_id {listed other : List String} {limits : CaptureLimits}
    {first second : CaptureResult} (captured : demoCapture listed limits = .ok first)
    (recaptured : demoCapture other limits = .ok second)
    (overlays : first.overlay.entries = second.overlay.entries) :
    first.material = second.material ∧ first.capture.snapshotId = second.capture.snapshotId := by
  obtain ⟨_, _, _, head, _, _, _, _, overlay, material, id, _⟩ :=
    @capture_spec pairedDigest demoObjects _ _ _ _ captured
  obtain ⟨_, _, _, head', _, _, _, _, overlay', material', id', _⟩ :=
    @capture_spec pairedDigest demoObjects _ _ _ _ recaptured
  have same : first.material = second.material := by
    rw [material, material', ← Except.ok.inj head, ← Except.ok.inj head', ← overlay, ← overlay']
    unfold overlayMaterial
    rw [overlays]
    rfl
  exact ⟨same, by rw [id, id', same]⟩

/-- Room for one file keeps the first the status gives. -/
theorem demoCapture_one :
    (demoCapture ["a.md", "b.md"] ⟨1, 64, 64⟩).toOption.map CaptureResult.shown =
        some (demoOverlay, ["a.md"]) ∧
      (demoCapture ["b.md", "a.md"] ⟨1, 64, 64⟩).toOption.map CaptureResult.shown =
        some (demoOverlay, ["b.md"]) := by
  decide +kernel

/-- Room for both files keeps both, whatever the status gives first. -/
theorem demoCapture_two : ∀ listed ∈ [["a.md", "b.md"], ["b.md", "a.md"]],
    (demoCapture listed ⟨2, 64, 64⟩).toOption.map CaptureResult.shown =
      some (demoOverlay, ["a.md", "b.md"]) := by
  decide +kernel

/-- The files of the demonstration are refused on no budget with room for both, and their items
note the same in either order. -/
theorem demoRoomy : (∀ listed ∈ [["a.md", "b.md"], ["b.md", "a.md"]],
      @Repository.Roomy pairedDigest demoObjects (demoRepository listed) ⟨2, 64, 64⟩) ∧
    @Repository.noted demoObjects (demoRepository ["a.md", "b.md"]) ⟨2, 64, 64⟩ =
      @Repository.noted demoObjects (demoRepository ["b.md", "a.md"]) ⟨2, 64, 64⟩ := by
  decide +kernel

/-- The paths of the demonstration are plain. -/
theorem demoPlain : ∀ listed ∈ [["a.md", "b.md"], ["b.md", "a.md"]], ∀ path ∈ listed,
    fromUtf8 (asBytes path) = some path ∧ PlainPath path := by
  decide

end Texo.Git
