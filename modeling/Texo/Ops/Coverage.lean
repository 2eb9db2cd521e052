import Mathlib.Data.Finset.Card
import Texo.Git.Budget
import Texo.Ops.KnowledgeIndex

/-! # Gaps that find the list full

A coverage carries a bounded list of gaps, appended to while sources are captured, while evidence
and snapshot relations are planned and while the coverage of a code index is merged in. What each
of these stages loses to the bound, and whether the coverage tells.
-/
namespace Texo.Ops
open Texo.Knowledge Texo.Git

/-- `analysis_quality_rank`. -/
def analysisQualityRank : AnalysisQuality → Nat
  | .precise => 3
  | .syntactic => 2
  | .lexical => 1
  | .unavailable => 0

/-- The gaps of `merge_coverage`: once the list is full the rest is passed over. -/
def mergeGaps : KnowledgeCoverage → List CoverageGap → KnowledgeCoverage
  | target, [] => target
  | target, gap :: rest =>
    if maxCoverageGaps ≤ target.gaps.length then
      { target with truncated := true }
    else if gap ∈ target.gaps then
      mergeGaps target rest
    else
      mergeGaps { target with gaps := target.gaps ++ [gap] } rest

/-- `merge_coverage`. -/
def mergeCoverage (target code : KnowledgeCoverage) : KnowledgeCoverage :=
  mergeGaps
    { target with
      analysisQuality :=
        if analysisQualityRank target.analysisQuality < analysisQualityRank code.analysisQuality then
          code.analysisQuality
        else
          target.analysisQuality
      sourcesExamined := max target.sourcesExamined code.sourcesExamined
      occurrences := target.occurrences + code.occurrences
      truncated := target.truncated || code.truncated } code.gaps

/-- The gaps of a capture call: what it notes in its accumulator. -/
def noticeOf (accumulator : CaptureAccumulator) : CaptureCall → Option CoverageGap
  | .insert path bytes _ _ =>
    if lfsHeader.isPrefixOf bytes then
      some ⟨some path, .lfsPointer⟩
    else if accumulator.limits.maxFileBytes < bytes.length then
      some ⟨some path, .sourceTooLarge⟩
    else if accumulator.Refuses path bytes then
      some ⟨some path, .budgetExceeded⟩
    else
      none
  | .gap path kind => some ⟨path, kind⟩
  | .remove _ => none
  | .omitSource _ => none

/-- The gaps lost while sources are captured. -/
def captureLost : CaptureAccumulator → List CaptureCall → List CoverageGap
  | _, [] => []
  | accumulator, step :: rest =>
    (if maxGaps ≤ accumulator.gaps.length then (noticeOf accumulator step).toList else []) ++
      captureLost (accumulator.call step) rest

/-- The gaps lost while evidence is planned. -/
def plannedLost : KnowledgeCoverage → List CoverageGap → List CoverageGap
  | _, [] => []
  | coverage, gap :: rest =>
    (if maxCoverageGaps ≤ coverage.gaps.length then [gap] else []) ++
      plannedLost (addPlannedGap coverage gap) rest

/-- The gaps lost while relations are planned: those that are not listed already. -/
def relationLost : KnowledgeCoverage → List CoverageGap → List CoverageGap
  | _, [] => []
  | coverage, gap :: rest =>
    (if maxCoverageGaps ≤ coverage.gaps.length ∧ gap ∉ coverage.gaps then [gap] else []) ++
      relationLost (addRelationGap coverage gap) rest

/-- The gaps lost while the coverage of a code index is merged into a list: once it is full, those
of the rest that are not listed. -/
def mergeLost : List CoverageGap → List CoverageGap → List CoverageGap
  | _, [] => []
  | listed, gap :: rest =>
    if maxCoverageGaps ≤ listed.length then
      (gap :: rest).filter fun lost => lost ∉ listed
    else if gap ∈ listed then
      mergeLost listed rest
    else
      mergeLost (listed ++ [gap]) rest

/-- The coverage of an index run before its relations are planned. -/
def plannedCoverage (captured : KnowledgeCoverage) (evidence : EvidencePlan) : KnowledgeCoverage :=
  let gapped := evidence.gaps.foldl addPlannedGap captured
  { gapped with
    analysisQuality := if evidence.rows.isEmpty then gapped.analysisQuality else .syntactic
    occurrences := evidence.rows.length }

/-- What an index run records is the planned coverage with the gaps of its relations. -/
theorem indexCoverage_eq (captured : KnowledgeCoverage) (evidence : EvidencePlan)
    (relations : RelationPlan) : indexCoverage captured evidence relations =
      relations.gaps.foldl addRelationGap (plannedCoverage captured evidence) := rfl

/-- A gap a call notes on a full list marks the capture as truncated. -/
theorem call_truncates {accumulator : CaptureAccumulator} {step : CaptureCall}
    (full : maxGaps ≤ accumulator.gaps.length) (noticed : noticeOf accumulator step ≠ none) :
    (accumulator.call step).truncated = true := by
  have marks : ∀ (other : CaptureAccumulator) (path : Option String) (kind : CoverageGapKind),
      maxGaps ≤ other.gaps.length → (other.gap path kind).truncated = true := by
    intro other path kind full
    have closed : ¬ other.gaps.length < maxGaps := by omega
    unfold CaptureAccumulator.gap
    rw [if_neg closed]
  have left : ∀ path, maxGaps ≤ (accumulator.examine.omitSource path).gaps.length := by
    intro path
    have same := congrArg Prod.fst (accumulator.examine.omitSource_spec path).1
    rw [show (accumulator.examine.omitSource path).gaps = accumulator.gaps from same]
    exact full
  cases step with
  | insert path bytes blobId layer =>
    show (accumulator.insert path bytes blobId layer).truncated = true
    rcases accumulator.insert_cases path bytes blobId layer with
      ⟨plain, sized, room⟩ | ⟨kind, told⟩ | told
    · have fits : ¬ accumulator.limits.maxFileBytes < bytes.length := by omega
      simp [noticeOf, plain, fits, room] at noticed
    · rw [told]
      exact marks _ _ _ (left path)
    · rw [told]
      exact marks _ _ _ (left path)
  | gap path kind => exact marks _ _ _ full
  | remove path => exact absurd rfl noticed
  | omitSource path => exact absurd rfl noticed

/-- A call keeps the mark of truncation. -/
theorem call_truncated {accumulator : CaptureAccumulator} (marked : accumulator.truncated = true)
    (step : CaptureCall) : (accumulator.call step).truncated = true := by
  have gapped : ∀ (other : CaptureAccumulator) (path : Option String) (kind : CoverageGapKind),
      other.truncated = true → (other.gap path kind).truncated = true := by
    intro other path kind marked
    unfold CaptureAccumulator.gap
    split
    · exact marked
    · rfl
  have left : ∀ (other : CaptureAccumulator) path, other.truncated = true →
      (other.omitSource path).truncated = true := by
    intro other path marked
    exact (congrArg Prod.snd (other.omitSource_spec path).1).trans marked
  cases step with
  | insert path bytes blobId layer =>
    show (accumulator.insert path bytes blobId layer).truncated = true
    rcases accumulator.insert_cases path bytes blobId layer with
      ⟨plain, sized, room⟩ | ⟨kind, told⟩ | told
    · rw [CaptureAccumulator.insert_kept plain sized room]
      exact marked
    · rw [told]
      exact gapped _ _ _ (left _ path marked)
    · rw [told]
      exact gapped _ _ _ rfl
  | gap path kind => exact gapped _ _ _ marked
  | remove path => exact left _ path marked
  | omitSource path => exact left _ path marked

/-- A capture that lost a gap is marked as truncated. -/
theorem captureLost_truncated {accumulator : CaptureAccumulator} {calls : List CaptureCall}
    (either : accumulator.truncated = true ∨ captureLost accumulator calls ≠ []) :
    (calls.foldl CaptureAccumulator.call accumulator).truncated = true := by
  induction calls generalizing accumulator with
  | nil =>
    rcases either with marked | lost
    · exact marked
    · exact absurd rfl lost
  | cons step rest ih =>
    apply ih
    rcases either with marked | lost
    · exact Or.inl (call_truncated marked step)
    · by_cases later : captureLost (accumulator.call step) rest = []
      · left
        unfold captureLost at lost
        rw [later, List.append_nil] at lost
        by_cases full : maxGaps ≤ accumulator.gaps.length
        · rw [if_pos full] at lost
          apply call_truncates full
          intro none
          rw [none] at lost
          exact lost rfl
        · rw [if_neg full] at lost
          exact absurd rfl lost
      · exact Or.inr later

/-- Evidence planning that lost a gap marks the coverage as truncated. -/
theorem plannedLost_truncated {coverage : KnowledgeCoverage} {gaps : List CoverageGap}
    (either : coverage.truncated = true ∨ plannedLost coverage gaps ≠ []) :
    (gaps.foldl addPlannedGap coverage).truncated = true := by
  induction gaps generalizing coverage with
  | nil =>
    rcases either with marked | lost
    · exact marked
    · exact absurd rfl lost
  | cons gap rest ih =>
    apply ih
    unfold plannedLost at either
    by_cases full : maxCoverageGaps ≤ coverage.gaps.length
    · left
      have closed : ¬ coverage.gaps.length < maxCoverageGaps := by omega
      unfold addPlannedGap
      rw [if_neg closed]
    · have room : coverage.gaps.length < maxCoverageGaps := by omega
      rw [if_neg full, List.nil_append] at either
      have kept : (addPlannedGap coverage gap).truncated = coverage.truncated := by
        unfold addPlannedGap
        rw [if_pos room]
      rw [kept]
      exact either

/-- Relation planning leaves the mark of truncation as it is. -/
theorem foldl_addRelationGap_truncated (coverage : KnowledgeCoverage) (gaps : List CoverageGap) :
    (gaps.foldl addRelationGap coverage).truncated = coverage.truncated := by
  induction gaps generalizing coverage with
  | nil => rfl
  | cons gap rest ih =>
    rw [List.foldl_cons, ih]
    unfold addRelationGap
    split
    · rfl
    · rfl

/-- Relation planning loses a gap exactly where those not listed yet outnumber the room. -/
theorem relationLost_eq_nil (coverage : KnowledgeCoverage) (gaps : List CoverageGap) :
    relationLost coverage gaps = [] ↔
      (gaps.toFinset \ coverage.gaps.toFinset).card ≤ maxCoverageGaps - coverage.gaps.length := by
  induction gaps generalizing coverage with
  | nil => simp [relationLost]
  | cons gap rest ih =>
    unfold relationLost
    rw [List.append_eq_nil_iff, ih]
    by_cases listed : gap ∈ coverage.gaps
    · have same : addRelationGap coverage gap = coverage := by
        unfold addRelationGap
        rw [if_neg fun both => both.2 listed]
      have fewer : (gap :: rest).toFinset \ coverage.gaps.toFinset =
          rest.toFinset \ coverage.gaps.toFinset := by
        rw [List.toFinset_cons, Finset.insert_sdiff_of_mem _ (List.mem_toFinset.mpr listed)]
      rw [same, fewer, if_neg fun both => both.2 listed]
      exact and_iff_right rfl
    · by_cases full : maxCoverageGaps ≤ coverage.gaps.length
      · have lost : ¬ ([gap] : List CoverageGap) = [] := List.cons_ne_nil _ _
        have member : gap ∈ (gap :: rest).toFinset \ coverage.gaps.toFinset := by
          simp [listed]
        have some := Finset.card_pos.mpr ⟨gap, member⟩
        rw [if_pos ⟨full, listed⟩]
        constructor
        · intro both
          exact absurd both.1 lost
        · intro fits
          omega
      · have room : coverage.gaps.length < maxCoverageGaps := by omega
        have pushed : addRelationGap coverage gap =
            { coverage with gaps := coverage.gaps ++ [gap] } := by
          unfold addRelationGap
          rw [if_pos ⟨room, listed⟩]
        have fresh : gap ∉ rest.toFinset \ (coverage.gaps ++ [gap]).toFinset := by simp
        have more : (gap :: rest).toFinset \ coverage.gaps.toFinset =
            insert gap (rest.toFinset \ (coverage.gaps ++ [gap]).toFinset) := by
          ext other
          simp only [List.toFinset_cons, List.toFinset_append, Finset.mem_sdiff, Finset.mem_insert,
            List.mem_toFinset, Finset.mem_union, List.toFinset_nil, Finset.notMem_empty, or_false]
          by_cases same : other = gap
          · simp [same, listed]
          · simp [same]
        rw [pushed, if_neg fun both => full both.1, more, Finset.card_insert_of_notMem fresh,
          List.length_append, List.length_singleton]
        show _ ∧ (rest.toFinset \ (coverage.gaps ++ [gap]).toFinset).card ≤ _ ↔ _
        constructor
        · intro both
          have fits := both.2
          omega
        · intro fits
          exact ⟨rfl, by omega⟩

/-- Merging that lost a gap marks the coverage as truncated. -/
theorem mergeLost_truncated {target : KnowledgeCoverage} {gaps : List CoverageGap}
    (lost : mergeLost target.gaps gaps ≠ []) : (mergeGaps target gaps).truncated = true := by
  induction gaps generalizing target with
  | nil => exact absurd rfl lost
  | cons gap rest ih =>
    unfold mergeLost at lost
    unfold mergeGaps
    by_cases full : maxCoverageGaps ≤ target.gaps.length
    · rw [if_pos full]
    · rw [if_neg full] at lost ⊢
      by_cases listed : gap ∈ target.gaps
      · rw [if_pos listed] at lost ⊢
        exact ih lost
      · rw [if_neg listed] at lost ⊢
        exact ih lost

/-- Every stage that loses a gap tells so, exactly where relation planning finds the coverage marked
already or has room for every gap of the relations that is not listed yet. -/
theorem lost_gaps_truncate_iff (limits : CaptureLimits) (calls : List CaptureCall)
    (evidence : EvidencePlan) (relations : RelationPlan) (target code : KnowledgeCoverage) :
    let captured := (calls.foldl CaptureAccumulator.call (.new limits)).coverage
    let planned := plannedCoverage captured evidence
    (((captureLost (.new limits) calls ≠ [] ∨ plannedLost captured evidence.gaps ≠ [] ∨
          relationLost planned relations.gaps ≠ []) →
        (indexCoverage captured evidence relations).truncated = true) ∧
      (mergeLost target.gaps code.gaps ≠ [] → (mergeCoverage target code).truncated = true)) ↔
    (planned.truncated = true ∨
      (relations.gaps.toFinset \ planned.gaps.toFinset).card ≤
        maxCoverageGaps - planned.gaps.length) := by
  intro captured planned
  rw [← relationLost_eq_nil, indexCoverage_eq, foldl_addRelationGap_truncated]
  have merged : mergeLost target.gaps code.gaps ≠ [] → (mergeCoverage target code).truncated = true :=
    fun lost => mergeLost_truncated lost
  have told : captureLost (.new limits) calls ≠ [] ∨ plannedLost captured evidence.gaps ≠ [] →
      planned.truncated = true := by
    intro either
    apply plannedLost_truncated
    rcases either with lost | lost
    · exact Or.inl (captureLost_truncated (Or.inr lost))
    · exact Or.inr lost
  constructor
  · intro property
    by_cases lost : relationLost planned relations.gaps = []
    · exact Or.inr lost
    · exact Or.inl (property.1 (Or.inr (Or.inr lost)))
  · intro condition
    refine ⟨?_, merged⟩
    intro either
    rcases either with captureSide | plannedSide | relationSide
    · exact told (Or.inl captureSide)
    · exact told (Or.inr plannedSide)
    · rcases condition with marked | fits
      · exact marked
      · exact absurd fits relationSide

/-- A capture with a full list of gaps. -/
def fullCalls : List CaptureCall := List.replicate maxGaps (.gap none .symlink)

/-- As many gaps as there is room for are listed, and nothing is marked as truncated. -/
theorem replicate_gaps (limits : CaptureLimits) {count : Nat} (fits : count ≤ maxGaps) :
    let filled := (List.replicate count (CaptureCall.gap none .symlink)).foldl
      CaptureAccumulator.call (.new limits)
    filled.gaps = List.replicate count ⟨none, .symlink⟩ ∧ filled.truncated = false := by
  induction count with
  | zero => exact ⟨rfl, rfl⟩
  | succ count ih =>
    obtain ⟨gaps, marked⟩ := ih (by omega)
    rw [List.replicate_succ', List.foldl_append]
    generalize (List.replicate count (CaptureCall.gap none .symlink)).foldl
      CaptureAccumulator.call (.new limits) = filled at gaps marked
    have room : filled.gaps.length < maxGaps := by
      rw [gaps, List.length_replicate]
      omega
    have pushed : filled.gap none .symlink =
        { filled with gaps := filled.gaps ++ [⟨none, .symlink⟩] } := by
      unfold CaptureAccumulator.gap
      rw [if_pos room]
    show (filled.gap none .symlink).gaps = _ ∧ (filled.gap none .symlink).truncated = false
    rw [pushed, List.replicate_succ', ← gaps]
    exact ⟨rfl, marked⟩

/-- The list of the full capture, not marked as truncated. -/
theorem fullCalls_coverage (limits : CaptureLimits) :
    (fullCalls.foldl CaptureAccumulator.call (.new limits)).gaps =
        List.replicate maxGaps ⟨none, .symlink⟩ ∧
      (fullCalls.foldl CaptureAccumulator.call (.new limits)).truncated = false := by
  unfold fullCalls
  exact replicate_gaps limits (Nat.le_refl _)

/-- A capture of some coverage, at a commit after a recorded one. -/
def laterCapture (coverage : KnowledgeCoverage) : GitCapture where
  repositoryId := ⟨"repo_demo", Eq.refl true⟩
  baseCommit := ⟨.sha1, "c1"⟩
  baseTree := ⟨.sha1, "t1"⟩
  indexDigestHex := "00"
  overlayDigestHex := "00"
  snapshotId := ⟨"snapshot_4567", Eq.refl true⟩
  dirty := false
  sources := []
  coverage := coverage

/-- A repository whose history is shallow. -/
def shallowWorld (coverage : KnowledgeCoverage) : GitWorld where
  canonicalRoot := "/demo"
  captureGit _ _ := .ok (laterCapture coverage)
  compareCommits _ _ := .ok ⟨.unknown, some .shallowHistory⟩

/-- An index run after a full capture loses the gap of its relations and does not tell. -/
theorem relation_gap_lost_silently :
    let coverage := (fullCalls.foldl CaptureAccumulator.call (.new {})).coverage
    ∃ relations, (shallowWorld coverage).planSnapshotRelations ⟨"demo", by decide⟩
        (laterCapture coverage) [demoSnapshot] 1 = .ok relations ∧
      relationLost (plannedCoverage coverage {}) relations.gaps ≠ [] ∧
      (indexCoverage coverage {} relations).truncated = false := by
  obtain ⟨gaps, marked⟩ := fullCalls_coverage {}
  generalize fullCalls.foldl CaptureAccumulator.call (.new {}) = captured at gaps marked
  have listed : (plannedCoverage captured.coverage {}).gaps =
      List.replicate maxGaps ⟨none, .symlink⟩ := gaps
  have full : maxCoverageGaps ≤ (plannedCoverage captured.coverage {}).gaps.length := by
    rw [listed, List.length_replicate]
    decide
  have fresh : (⟨none, .shallowHistory⟩ : CoverageGap) ∉
      (plannedCoverage captured.coverage {}).gaps := by
    rw [listed, List.mem_replicate]
    decide
  refine ⟨{ gaps := [⟨none, .shallowHistory⟩] }, rfl, ?_, ?_⟩
  · unfold relationLost
    rw [if_pos ⟨full, fresh⟩]
    exact List.cons_ne_nil _ _
  · rw [indexCoverage_eq, foldl_addRelationGap_truncated]
    exact marked

end Texo.Ops
