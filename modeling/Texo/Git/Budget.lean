import Texo.Git.Snapshot

/-! # Budgets of a capture

The accumulator of a capture through any sequence of calls: its running total is the size of what
it keeps, the budgets hold, and a path whose content was refused is noticed.
-/
namespace Texo.Git
open Texo.Events Texo.Knowledge Texo.Ops Texo.Foundation

/-- A call on the accumulator. -/
inductive CaptureCall where
  | insert (path : String) (bytes : List UInt8) (blobId : Option GitObjectId) (layer : CapturedLayer)
  | remove (path : String)
  | omitSource (path : String)
  | gap (path : Option String) (kind : CoverageGapKind)

/-- The call inserts at a path. -/
def CaptureCall.Inserts (path : String) : CaptureCall → Prop
  | .insert other _ _ _ => other = path
  | _ => False

namespace CaptureAccumulator

/-- The accumulator after a call. -/
def call (accumulator : CaptureAccumulator) : CaptureCall → CaptureAccumulator
  | .insert path bytes blobId layer => accumulator.insert path bytes blobId layer
  | .remove path => accumulator.remove path
  | .omitSource path => accumulator.omitSource path
  | .gap path kind => accumulator.gap path kind

/-- What holds between the kept sources, the deleted paths, the running total and the limits. -/
structure Within (accumulator : CaptureAccumulator) : Prop where
  total : accumulator.totalBytes = accumulator.sources.total fun source => source.bytes.length
  bounded : accumulator.totalBytes ≤ accumulator.limits.maxTotalBytes
  files : accumulator.sources.entries.length ≤ accumulator.limits.maxFiles
  each : ∀ path source, accumulator.sources.find? path = some source → source.path = path ∧
    source.bytes.length ≤ accumulator.limits.maxFileBytes ∧
      lfsHeader.isPrefixOf source.bytes = false
  apart : ∀ path, accumulator.sources.contains path = true →
    accumulator.deleted.contains path = false

/-- A gap at a path is noted, or something is marked as truncated. -/
def Noticed (accumulator : CaptureAccumulator) (path : String) : Prop :=
  accumulator.truncated = true ∨ ∃ omission ∈ accumulator.gaps, omission.path = some path

/-- A fresh accumulator keeps nothing. -/
theorem within_new (limits : CaptureLimits) : (new limits).Within where
  total := rfl
  bounded := Nat.zero_le _
  files := Nat.zero_le _
  each path source found := by cases found
  apart path held := by cases held

/-- A gap touches neither the sources nor the total. -/
theorem gap_totalBytes (accumulator : CaptureAccumulator) (path : Option String)
    (kind : CoverageGapKind) :
    (accumulator.gap path kind).totalBytes = accumulator.totalBytes := by
  unfold gap
  split
  · rfl
  · rfl

/-- A gap keeps the budgets. -/
theorem Within.gap {accumulator : CaptureAccumulator} (within : accumulator.Within)
    (path : Option String) (kind : CoverageGapKind) : (accumulator.gap path kind).Within := by
  obtain ⟨_, limits, sources, deleted, _⟩ := gap_spec accumulator path kind
  have total := gap_totalBytes accumulator path kind
  constructor
  · rw [total, sources]
    exact within.total
  · rw [total, limits]
    exact within.bounded
  · rw [sources, limits]
    exact within.files
  · rw [sources, limits]
    exact within.each
  · rw [sources, deleted]
    exact within.apart

/-- Marking as truncated keeps the budgets. -/
theorem Within.truncate {accumulator : CaptureAccumulator} (within : accumulator.Within) :
    { accumulator with truncated := true }.Within :=
  ⟨within.total, within.bounded, within.files, within.each, within.apart⟩

/-- The accumulator with one more source examined. -/
def examine (accumulator : CaptureAccumulator) : CaptureAccumulator :=
  { accumulator with sourcesExamined := accumulator.sourcesExamined + 1 }

/-- Counting an examined source keeps the budgets. -/
theorem Within.examine {accumulator : CaptureAccumulator} (within : accumulator.Within) :
    accumulator.examine.Within :=
  ⟨within.total, within.bounded, within.files, within.each, within.apart⟩

/-- Omitting a path takes the size of what stood there from the total. -/
theorem Within.omitSource {accumulator : CaptureAccumulator} (within : accumulator.Within)
    (path : String) : (accumulator.omitSource path).Within := by
  unfold CaptureAccumulator.omitSource
  cases held : accumulator.sources.find? path with
  | none => exact within
  | some source =>
    have sizes := accumulator.sources.total_erase path fun source => source.bytes.length
    have counts := accumulator.sources.total_erase path fun _ => 1
    rw [held, Option.elim_some] at sizes counts
    rw [OrderedMap.total_one, OrderedMap.total_one] at counts
    have total := within.total
    have bounded := within.bounded
    have files := within.files
    constructor
    · show accumulator.totalBytes - source.bytes.length = (accumulator.sources.erase path).total _
      omega
    · show accumulator.totalBytes - source.bytes.length ≤ accumulator.limits.maxTotalBytes
      omega
    · show (accumulator.sources.erase path).entries.length ≤ accumulator.limits.maxFiles
      omega
    · intro other kept found
      rw [OrderedMap.find?_erase] at found
      split at found
      · cases found
      · exact within.each other kept found
    · intro other kept
      apply within.apart
      unfold OrderedMap.contains at kept ⊢
      rw [OrderedMap.find?_erase] at kept
      split at kept
      · cases kept
      · exact kept

/-- A removed path is deleted and no longer kept. -/
theorem Within.remove {accumulator : CaptureAccumulator} (within : accumulator.Within)
    (path : String) : (accumulator.remove path).Within := by
  have omitted := within.omitSource path
  obtain ⟨_, _, lookups, _, _⟩ := omitSource_spec accumulator path
  refine ⟨omitted.total, omitted.bounded, omitted.files, omitted.each, ?_⟩
  intro other kept
  show ((accumulator.omitSource path).deleted.insert path ()).contains other = false
  unfold OrderedMap.contains
  rw [OrderedMap.find?_insert]
  by_cases same : other = path
  · have absent : (accumulator.omitSource path).sources.contains other = false := by
      unfold OrderedMap.contains
      rw [lookups, if_pos same]
      rfl
    have held : (accumulator.omitSource path).sources.contains other = true := kept
    rw [absent] at held
    cases held
  · rw [if_neg same]
    exact omitted.apart other kept

/-- The total with new bytes at a path is the size of what is kept then. -/
theorem Within.totalWith_eq {accumulator : CaptureAccumulator} (within : accumulator.Within)
    (path : String) (bytes : List UInt8) (blobId : Option GitObjectId) (layer : CapturedLayer) :
    accumulator.totalWith path bytes =
      (accumulator.sources.insert path ⟨path, bytes, blobId, layer⟩).total
        fun source => source.bytes.length := by
  have sizes := accumulator.sources.total_insert path ⟨path, bytes, blobId, layer⟩
    fun source => source.bytes.length
  have erased := accumulator.sources.total_erase path fun source => source.bytes.length
  have total := within.total
  unfold totalWith
  simp only at sizes
  omega

/-- Content the budgets have room for is kept within them. -/
theorem Within.insert_kept {accumulator : CaptureAccumulator} (within : accumulator.Within)
    {path : String} {bytes : List UInt8} (blobId : Option GitObjectId) (layer : CapturedLayer)
    (plain : lfsHeader.isPrefixOf bytes = false)
    (sized : bytes.length ≤ accumulator.limits.maxFileBytes)
    (room : ¬ accumulator.Refuses path bytes) :
    (accumulator.insert path bytes blobId layer).Within := by
  rw [CaptureAccumulator.insert_kept plain sized room]
  unfold Refuses at room
  obtain ⟨places, sizes⟩ := not_or.mp room
  constructor
  · exact within.totalWith_eq path bytes blobId layer
  · exact Nat.le_of_not_lt sizes
  · show (accumulator.sources.insert path _).entries.length ≤ accumulator.limits.maxFiles
    have counts := accumulator.sources.total_insert path ⟨path, bytes, blobId, layer⟩ fun _ => 1
    rw [OrderedMap.total_one, OrderedMap.total_one] at counts
    have files := within.files
    cases held : accumulator.sources.find? path with
    | none =>
      have absent : accumulator.sources.contains path = false := by
        unfold OrderedMap.contains
        rw [held]
        rfl
      have below : ¬ accumulator.limits.maxFiles ≤ accumulator.sources.entries.length :=
        fun full => places ⟨full, absent⟩
      rw [held, Option.elim_none] at counts
      omega
    | some source =>
      rw [held, Option.elim_some] at counts
      omega
  · intro other source found
    rw [OrderedMap.find?_insert] at found
    split at found
    · rename_i same
      rw [← Option.some.inj found, same]
      exact ⟨rfl, sized, plain⟩
    · exact within.each other source found
  · intro other kept
    show (accumulator.deleted.erase path).contains other = false
    unfold OrderedMap.contains at kept ⊢
    rw [OrderedMap.find?_erase]
    rw [OrderedMap.find?_insert] at kept
    by_cases same : other = path
    · rw [if_pos same]
      rfl
    · rw [if_neg same] at kept ⊢
      exact within.apart other kept

/-- A gap at a path makes it noticed. -/
theorem noticed_gap (accumulator : CaptureAccumulator) (path : String) (kind : CoverageGapKind) :
    (accumulator.gap (some path) kind).Noticed path := by
  unfold CaptureAccumulator.gap Noticed
  split
  · exact Or.inr ⟨⟨some path, kind⟩, by simp, rfl⟩
  · exact Or.inl rfl

/-- A noticed path stays noticed through a gap. -/
theorem Noticed.gap {accumulator : CaptureAccumulator} {path : String}
    (noticed : accumulator.Noticed path) (other : Option String) (kind : CoverageGapKind) :
    (accumulator.gap other kind).Noticed path := by
  unfold CaptureAccumulator.gap Noticed
  rcases noticed with truncated | ⟨omission, member, named⟩
  · left
    split
    · exact truncated
    · rfl
  · split
    · exact Or.inr ⟨omission, List.mem_append_left _ member, named⟩
    · exact Or.inl rfl

/-- A noticed path stays noticed when a source is omitted. -/
theorem Noticed.omitSource {accumulator : CaptureAccumulator} {path : String}
    (noticed : accumulator.Noticed path) (other : String) :
    (accumulator.omitSource other).Noticed path := by
  have noted := (omitSource_spec accumulator other).1
  have gaps := congrArg Prod.fst noted
  have truncated := congrArg Prod.snd noted
  unfold Noticed at noticed ⊢
  rw [show (accumulator.omitSource other).gaps = accumulator.gaps from gaps,
    show (accumulator.omitSource other).truncated = accumulator.truncated from truncated]
  exact noticed

/-- What an insertion can do: the content is kept, or what stood at the path goes and a gap is
noted there, with the mark of truncation where a budget has no room. -/
theorem insert_cases (accumulator : CaptureAccumulator) (path : String) (bytes : List UInt8)
    (blobId : Option GitObjectId) (layer : CapturedLayer) :
    (lfsHeader.isPrefixOf bytes = false ∧ bytes.length ≤ accumulator.limits.maxFileBytes ∧
        ¬ accumulator.Refuses path bytes) ∨
      (∃ kind, accumulator.insert path bytes blobId layer =
        (accumulator.examine.omitSource path).gap (some path) kind) ∨
      accumulator.insert path bytes blobId layer =
        { accumulator.examine.omitSource path with truncated := true }.gap (some path)
          .budgetExceeded := by
  by_cases pointer : lfsHeader.isPrefixOf bytes = true
  · exact Or.inr (Or.inl ⟨.lfsPointer, insert_pointer pointer⟩)
  · by_cases sized : bytes.length ≤ accumulator.limits.maxFileBytes
    · have fits : ¬ accumulator.limits.maxFileBytes < bytes.length := by omega
      by_cases refused : accumulator.Refuses path bytes
      · right
        right
        have still : accumulator.examine.Refuses path bytes := refused
        unfold examine at still ⊢
        unfold insert
        simp only [pointer, Bool.false_eq_true, if_false, fits, still, if_true]
      · exact Or.inl ⟨Bool.eq_false_iff.mpr pointer, sized, refused⟩
    · refine Or.inr (Or.inl ⟨.sourceTooLarge, ?_⟩)
      have large : accumulator.limits.maxFileBytes < bytes.length := by omega
      unfold insert examine
      simp only [pointer, Bool.false_eq_true, if_false, large, if_true]

/-- An insertion keeps the budgets. -/
theorem Within.insert {accumulator : CaptureAccumulator} (within : accumulator.Within)
    (path : String) (bytes : List UInt8) (blobId : Option GitObjectId) (layer : CapturedLayer) :
    (accumulator.insert path bytes blobId layer).Within := by
  rcases accumulator.insert_cases path bytes blobId layer with
    ⟨plain, sized, room⟩ | ⟨kind, left⟩ | left
  · exact within.insert_kept blobId layer plain sized room
  · rw [left]
    exact (within.examine.omitSource path).gap _ _
  · rw [left]
    exact (within.examine.omitSource path).truncate.gap _ _

/-- A call keeps the budgets. -/
theorem Within.call {accumulator : CaptureAccumulator} (within : accumulator.Within)
    (step : CaptureCall) : (accumulator.call step).Within := by
  cases step with
  | insert path bytes blobId layer => exact within.insert path bytes blobId layer
  | remove path => exact within.remove path
  | omitSource path => exact within.omitSource path
  | gap path kind => exact within.gap path kind

/-- A run of calls keeps the budgets. -/
theorem Within.run {accumulator : CaptureAccumulator} (within : accumulator.Within)
    (calls : List CaptureCall) : (calls.foldl CaptureAccumulator.call accumulator).Within := by
  induction calls generalizing accumulator with
  | nil => exact within
  | cons step rest ih => exact ih (within.call step)

/-- A call keeps the limits. -/
theorem call_limits (accumulator : CaptureAccumulator) (step : CaptureCall) :
    (accumulator.call step).limits = accumulator.limits := by
  cases step with
  | insert path bytes blobId layer =>
    have omitted := (accumulator.examine.omitSource_spec path).2.1
    show (accumulator.insert path bytes blobId layer).limits = accumulator.limits
    rcases accumulator.insert_cases path bytes blobId layer with
      ⟨plain, sized, room⟩ | ⟨kind, left⟩ | left
    · rw [CaptureAccumulator.insert_kept plain sized room]
    · rw [left]
      exact (gap_spec _ _ _).2.1.trans omitted
    · rw [left]
      exact (gap_spec _ _ _).2.1.trans omitted
  | remove path => exact (accumulator.omitSource_spec path).2.1
  | omitSource path => exact (accumulator.omitSource_spec path).2.1
  | gap path kind => exact (accumulator.gap_spec path kind).2.1

/-- A run keeps the limits. -/
theorem run_limits (accumulator : CaptureAccumulator) (calls : List CaptureCall) :
    (calls.foldl CaptureAccumulator.call accumulator).limits = accumulator.limits := by
  induction calls generalizing accumulator with
  | nil => rfl
  | cons step rest ih => exact (ih (accumulator.call step)).trans (accumulator.call_limits step)

/-- A noticed path stays noticed through an insertion. -/
theorem Noticed.insert {accumulator : CaptureAccumulator} {path : String}
    (noticed : accumulator.Noticed path) (other : String) (bytes : List UInt8)
    (blobId : Option GitObjectId) (layer : CapturedLayer) :
    (accumulator.insert other bytes blobId layer).Noticed path := by
  have examined : accumulator.examine.Noticed path := noticed
  rcases accumulator.insert_cases other bytes blobId layer with
    ⟨plain, sized, room⟩ | ⟨kind, left⟩ | left
  · rw [CaptureAccumulator.insert_kept plain sized room]
    exact noticed
  · rw [left]
    exact (examined.omitSource other).gap _ _
  · rw [left]
    exact Noticed.gap (Or.inl rfl) _ _

/-- A noticed path stays noticed through a call. -/
theorem Noticed.call {accumulator : CaptureAccumulator} {path : String}
    (noticed : accumulator.Noticed path) (step : CaptureCall) :
    (accumulator.call step).Noticed path := by
  cases step with
  | insert other bytes blobId layer => exact noticed.insert other bytes blobId layer
  | remove other => exact noticed.omitSource other
  | omitSource other => exact noticed.omitSource other
  | gap other kind => exact noticed.gap other kind

/-- A noticed path stays noticed through a run. -/
theorem Noticed.run {accumulator : CaptureAccumulator} {path : String}
    (noticed : accumulator.Noticed path) (calls : List CaptureCall) :
    (calls.foldl CaptureAccumulator.call accumulator).Noticed path := by
  induction calls generalizing accumulator with
  | nil => exact noticed
  | cons step rest ih => exact ih (noticed.call step)

/-- Content that an insertion does not keep makes its path noticed. -/
theorem noticed_of_unkept {accumulator : CaptureAccumulator} {path : String} {bytes : List UInt8}
    {blobId : Option GitObjectId} {layer : CapturedLayer}
    (unkept : (accumulator.insert path bytes blobId layer).sources.find? path ≠
      some ⟨path, bytes, blobId, layer⟩) :
    (accumulator.insert path bytes blobId layer).Noticed path := by
  rcases accumulator.insert_cases path bytes blobId layer with
    ⟨plain, sized, room⟩ | ⟨kind, left⟩ | left
  · rw [CaptureAccumulator.insert_kept plain sized room] at unkept
    exact absurd (by rw [OrderedMap.find?_insert, if_pos rfl]) unkept
  · rw [left]
    exact noticed_gap _ _ _
  · rw [left]
    exact noticed_gap _ _ _

/-- Whatever calls are made under whatever limits, the total is the size of the kept sources, the
budgets hold, no kept path is deleted, and a path whose last insertion was not kept is noticed. -/
theorem run_within (limits : CaptureLimits) (calls : List CaptureCall) :
    let final := calls.foldl CaptureAccumulator.call (new limits)
    final.totalBytes = (final.captured.map fun source => source.bytes.length).sum ∧
      final.totalBytes ≤ limits.maxTotalBytes ∧
      final.captured.length ≤ limits.maxFiles ∧
      (∀ source ∈ final.captured, source.bytes.length ≤ limits.maxFileBytes ∧
        lfsHeader.isPrefixOf source.bytes = false ∧ source.path ∉ final.deletions) ∧
      ∀ front path bytes blobId layer back,
        calls = front ++ .insert path bytes blobId layer :: back →
        (∀ step ∈ back, ¬ step.Inserts path) →
        ((front.foldl CaptureAccumulator.call (new limits)).insert path bytes blobId
          layer).sources.find? path ≠ some ⟨path, bytes, blobId, layer⟩ →
        final.Noticed path := by
  intro final
  have within : final.Within := (within_new limits).run calls
  have bounds : final.limits = limits := run_limits (new limits) calls
  have bounded := within.bounded
  have files := within.files
  rw [bounds] at bounded files
  refine ⟨?_, bounded, ?_, ?_, ?_⟩
  · rw [within.total]
    unfold captured OrderedMap.total
    rw [List.map_map]
    rfl
  · unfold captured
    rw [List.length_map]
    exact files
  · intro source member
    obtain ⟨entry, inside, rfl⟩ := List.mem_map.mp member
    have found : final.sources.find? entry.1 = some entry.2 := OrderedMap.find?_eq_some.mpr inside
    obtain ⟨named, sized, plain⟩ := within.each entry.1 entry.2 found
    rw [bounds] at sized
    refine ⟨sized, plain, ?_⟩
    intro gone
    obtain ⟨mark, marked, same⟩ := List.mem_map.mp gone
    have kept : final.sources.contains entry.1 = true := by
      unfold OrderedMap.contains
      rw [found]
      rfl
    have deleted : final.deleted.contains entry.1 = true := by
      have listed : (entry.1, mark.2) ∈ final.deleted.entries := by
        rw [← named, ← same]
        exact marked
      unfold OrderedMap.contains
      rw [OrderedMap.find?_eq_some.mpr listed]
      rfl
    rw [within.apart entry.1 kept] at deleted
    cases deleted
  · intro front path bytes blobId layer back split _ unkept
    have noticed := (noticed_of_unkept unkept).run back
    show (calls.foldl CaptureAccumulator.call (new limits)).Noticed path
    rw [split, List.foldl_append, List.foldl_cons]
    exact noticed

/-- `u64::saturating_add`. -/
def saturatingAdd (left right : Nat) : Nat := min (left + right) (2 ^ 64 - 1)

/-- Below the largest limit the saturating total is refused where the exact one is, and is the
exact one where it is not. -/
theorem saturatingAdd_total {limit kept size : Nat} (below : limit < 2 ^ 64 - 1) :
    (limit < saturatingAdd kept size ↔ limit < kept + size) ∧
      (¬ limit < kept + size → saturatingAdd kept size = kept + size) := by
  unfold saturatingAdd
  omega

/-- What calls come to from a fresh accumulator. -/
def Reached (limits : CaptureLimits) (accumulator : CaptureAccumulator) : Prop :=
  ∃ calls : List CaptureCall, accumulator = calls.foldl CaptureAccumulator.call (new limits)

/-- One more call. -/
theorem Reached.call {limits : CaptureLimits} {accumulator : CaptureAccumulator}
    (reached : Reached limits accumulator) (step : CaptureCall) :
    Reached limits (accumulator.call step) := by
  obtain ⟨calls, rfl⟩ := reached
  exact ⟨calls ++ [step], by rw [List.foldl_append]; rfl⟩

end CaptureAccumulator

section
variable [Blake3]

/-- The items of a status make calls. -/
theorem reached_steps {limits : CaptureLimits} (steps : List StatusStep) {state : OverlayState}
    (reached : state.accumulator.Reached limits) :
    (steps.foldl OverlayState.apply state).accumulator.Reached limits := by
  induction steps generalizing state with
  | nil => exact reached
  | cons step rest ih =>
    apply ih
    cases step with
    | pass => exact reached
    | note path kind => exact reached.call (.gap path kind)
    | delete path => exact reached.call (.remove path)
    | skip path kind label => exact (reached.call (.omitSource path)).call (.gap (some path) kind)
    | read path bytes => exact reached.call (.insert path bytes none .worktree)

omit [Blake3] in
/-- The conflicts of an index make calls. -/
theorem reached_conflicts {limits : CaptureLimits} (conflicts : OrderedMap String Unit)
    {accumulator : CaptureAccumulator} (reached : accumulator.Reached limits) :
    (captureConflicts conflicts accumulator).accumulator.Reached limits := by
  have noted : ∀ (paths : List String) (accumulator : CaptureAccumulator),
      accumulator.Reached limits → (paths.foldl (fun accumulator path =>
        accumulator.gap (some path) CoverageGapKind.worktreeConflict) accumulator).Reached
          limits := by
    intro paths
    induction paths with
    | nil => exact fun _ reached => reached
    | cons path rest ih => exact fun _ reached => ih _ (reached.call (.gap (some path) _))
  have dropped : ∀ (paths : List String) (state : OverlayState),
      state.accumulator.Reached limits → (paths.foldl (fun (state : OverlayState) path =>
        { accumulator := state.accumulator.omitSource path
          overlay := state.overlay.insert path (.omitted "conflict") })
        state).accumulator.Reached limits := by
    intro paths
    induction paths with
    | nil => exact fun _ reached => reached
    | cons path rest ih => exact fun _ reached => ih _ (reached.call (.omitSource path))
  exact dropped _ _ (noted _ _ reached)

variable [GitObjects]

omit [Blake3] in
/-- The files of a tree make calls. -/
theorem reached_committed {repository : Repository} {tree : GitObjectId} {limits : CaptureLimits}
    {accumulator committed : CaptureAccumulator} (reached : accumulator.Reached limits)
    (captured : captureCommitted repository tree accumulator = .ok committed) :
    committed.Reached limits := by
  refine foldlM_preserves (CaptureAccumulator.Reached limits) ?_ captured reached
  intro state file _ next stepped reached
  unfold captureTreeFile at stepped
  split at stepped
  · rw [← Except.ok.inj stepped]
    exact reached.call (.gap none _)
  · rename_i path _
    split at stepped
    · split at stepped
      · rw [← Except.ok.inj stepped]
        exact reached.call (.gap (some path) _)
      · rw [← Except.ok.inj stepped]
        exact reached.call (.gap (some path) _)
      · obtain ⟨_, _, stepped⟩ := bind_eq_ok.mp stepped
        simp only at stepped
        split at stepped
        · rw [← Except.ok.inj stepped]
          exact reached.call (.gap (some path) _)
        · rw [← Except.ok.inj stepped]
          exact reached.call (.insert path _ (some file.oid) .committed)
    · rw [← Except.ok.inj stepped]
      unfold noteOutOfScope
      split
      · exact reached.call (.gap (some path) _)
      · exact reached

/-- A capture gives what some calls on a fresh accumulator come to. -/
theorem capture_reached {repository : Repository} {repositoryId : RepositoryId}
    {limits : CaptureLimits} {result : CaptureResult}
    (captured : capture repository repositoryId limits = .ok result) :
    ∃ accumulator : CaptureAccumulator, accumulator.Reached limits ∧
      result.capture.sources = accumulator.captured ∧ result.deleted = accumulator.deletions ∧
      result.capture.coverage = accumulator.coverage := by
  obtain ⟨_, committed, steps, _, layer, _, overlaid, final, _, _, _, sources, deleted, coverage⟩ :=
    capture_spec captured
  refine ⟨overlaid.accumulator, ?_, sources, deleted, coverage⟩
  rw [final]
  exact reached_steps steps (reached_conflicts _ (reached_committed ⟨[], rfl⟩ layer))

end

end Texo.Git
