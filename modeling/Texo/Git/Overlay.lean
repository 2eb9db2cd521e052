import Mathlib.Algebra.GroupWithZero.Nat
import Mathlib.Data.List.Induction
import Texo.Git.Identity

/-! # What the overlay leaves

The items of a status, taken one after another: which paths they touch, what they keep there, what
they note and how often they read. While no budget refuses a file, each touched path is left as its
own item says, whatever the order.
-/
namespace Texo.Git
open Texo.Events Texo.Knowledge Texo.Ops Texo.Foundation

namespace CaptureAccumulator

/-- What a gap does to the noted gaps and the truncation mark. -/
def noteGap (noted : List CoverageGap × Bool) (omission : CoverageGap) : List CoverageGap × Bool :=
  if noted.1.length < maxGaps then (noted.1 ++ [omission], noted.2) else (noted.1, true)

/-- The noted gaps with the truncation mark. -/
def noted (accumulator : CaptureAccumulator) : List CoverageGap × Bool :=
  (accumulator.gaps, accumulator.truncated)

/-- A gap changes what is noted and nothing else. -/
theorem gap_spec (accumulator : CaptureAccumulator) (path : Option String)
    (kind : CoverageGapKind) :
    (accumulator.gap path kind).noted = noteGap accumulator.noted ⟨path, kind⟩ ∧
      (accumulator.gap path kind).limits = accumulator.limits ∧
      (accumulator.gap path kind).sources = accumulator.sources ∧
      (accumulator.gap path kind).deleted = accumulator.deleted ∧
      (accumulator.gap path kind).sourcesExamined = accumulator.sourcesExamined := by
  unfold gap noteGap noted
  by_cases room : accumulator.gaps.length < maxGaps
  · simp [room]
  · simp [room]

/-- Omitting a path takes its source away and changes nothing that is noted. -/
theorem omitSource_spec (accumulator : CaptureAccumulator) (path : String) :
    (accumulator.omitSource path).noted = accumulator.noted ∧
      (accumulator.omitSource path).limits = accumulator.limits ∧
      (∀ other, (accumulator.omitSource path).sources.find? other =
        if other = path then none else accumulator.sources.find? other) ∧
      (accumulator.omitSource path).deleted = accumulator.deleted ∧
      (accumulator.omitSource path).sourcesExamined = accumulator.sourcesExamined := by
  unfold omitSource
  cases held : accumulator.sources.find? path with
  | none =>
    refine ⟨rfl, rfl, ?_, rfl, rfl⟩
    intro other
    by_cases same : other = path
    · simp [same, held]
    · simp [same]
  | some source =>
    refine ⟨rfl, rfl, ?_, rfl, rfl⟩
    intro other
    exact OrderedMap.find?_erase _ _ _

end CaptureAccumulator

section
variable [Blake3]

/-- The overlay entry a step writes. -/
def StatusStep.entry : StatusStep → Option (String × OverlayDigestEntry)
  | .pass => none
  | .note _ _ => none
  | .delete path => some (path, .deleted)
  | .skip path _ label => some (path, .omitted label)
  | .read path bytes => some (path, .bytes (Blake3.hex bytes))

omit [Blake3] in
/-- The source a step keeps at its path. -/
def StatusStep.kept : StatusStep → Option CapturedSource
  | .read path bytes =>
    if lfsHeader.isPrefixOf bytes then none else some ⟨path, bytes, none, .worktree⟩
  | _ => none

omit [Blake3] in
/-- The deletion a step leaves at its path. -/
def StatusStep.gone : StatusStep → Option Unit
  | .delete _ => some ()
  | _ => none

omit [Blake3] in
/-- The gaps a step notes where no budget refuses it. -/
def StatusStep.notes : StatusStep → List CoverageGap
  | .pass => []
  | .note path kind => [⟨path, kind⟩]
  | .delete _ => []
  | .skip path kind _ => [⟨some path, kind⟩]
  | .read path bytes => if lfsHeader.isPrefixOf bytes then [⟨some path, .lfsPointer⟩] else []

omit [Blake3] in
/-- The files a step reads. -/
def StatusStep.reads : StatusStep → Nat
  | .read _ _ => 1
  | _ => 0

omit [Blake3] in
/-- A read file is within the size of a file. -/
def StatusStep.Sized (limits : CaptureLimits) : StatusStep → Prop
  | .read _ bytes => bytes.length ≤ limits.maxFileBytes
  | _ => True

omit [Blake3] in
/-- A budget has no room for the file of a step. -/
def OverlayState.Refuses (state : OverlayState) : StatusStep → Prop
  | .read path bytes => lfsHeader.isPrefixOf bytes = false ∧ state.accumulator.Refuses path bytes
  | _ => False

/-- No step of a list is refused on a budget. -/
def Unrefused (start : OverlayState) (steps : List StatusStep) : Prop :=
  ∀ front step back, steps = front ++ step :: back →
    ¬ (front.foldl OverlayState.apply start).Refuses step

namespace CaptureAccumulator

omit [Blake3] in
/-- A file that starts like a large-file pointer is examined and left out. -/
theorem insert_pointer {accumulator : CaptureAccumulator} {path : String} {bytes : List UInt8}
    {blobId : Option GitObjectId} {layer : CapturedLayer}
    (pointer : lfsHeader.isPrefixOf bytes = true) :
    accumulator.insert path bytes blobId layer =
      ({ accumulator with sourcesExamined := accumulator.sourcesExamined + 1 }.omitSource path).gap
        (some path) .lfsPointer := by
  unfold insert
  simp only [pointer, if_true]

omit [Blake3] in
/-- A file the budgets have room for is kept. -/
theorem insert_kept {accumulator : CaptureAccumulator} {path : String} {bytes : List UInt8}
    {blobId : Option GitObjectId} {layer : CapturedLayer}
    (plain : lfsHeader.isPrefixOf bytes = false)
    (sized : bytes.length ≤ accumulator.limits.maxFileBytes)
    (room : ¬ accumulator.Refuses path bytes) :
    accumulator.insert path bytes blobId layer =
      { accumulator with
        sourcesExamined := accumulator.sourcesExamined + 1
        totalBytes := accumulator.totalWith path bytes
        deleted := accumulator.deleted.erase path
        sources := accumulator.sources.insert path ⟨path, bytes, blobId, layer⟩ } := by
  have small : ¬ accumulator.limits.maxFileBytes < bytes.length := by omega
  unfold insert
  simp only [plain, Bool.false_eq_true, if_false, small]
  refine (if_neg ?_).trans rfl
  exact room

end CaptureAccumulator

instance (state : OverlayState) : (step : StatusStep) → Decidable (state.Refuses step)
  | .pass => inferInstanceAs (Decidable False)
  | .note _ _ => inferInstanceAs (Decidable False)
  | .delete _ => inferInstanceAs (Decidable False)
  | .skip _ _ _ => inferInstanceAs (Decidable False)
  | .read _ _ => inferInstanceAs (Decidable (_ ∧ _))

/-- Steps are not refused where the first is not and the others are not after it. -/
theorem unrefused_cons {start : OverlayState} {step : StatusStep} {rest : List StatusStep} :
    Unrefused start (step :: rest) ↔ ¬ start.Refuses step ∧ Unrefused (start.apply step) rest := by
  constructor
  · intro room
    refine ⟨room [] step rest rfl, ?_⟩
    intro front later back split
    exact room (step :: front) later back (by rw [split]; rfl)
  · intro ⟨first, others⟩ front later back split
    cases front with
    | nil =>
      obtain ⟨rfl, _⟩ := List.cons.inj split
      exact first
    | cons head front =>
      obtain ⟨rfl, tail⟩ := List.cons.inj split
      exact others front later back tail

instance decidableUnrefused : (start : OverlayState) → (steps : List StatusStep) →
    Decidable (Unrefused start steps)
  | _, [] => isTrue fun front step back split => by simp at split
  | start, step :: rest =>
    have := decidableUnrefused (start.apply step) rest
    decidable_of_iff _ unrefused_cons.symm

/-- What a step does to one path, to the notes and to the count of reads. -/
structure Applied (state : OverlayState) (step : StatusStep) (next : OverlayState) : Prop where
  limits : next.accumulator.limits = state.accumulator.limits
  noted : next.accumulator.noted =
    step.notes.foldl CaptureAccumulator.noteGap state.accumulator.noted
  examined : next.accumulator.sourcesExamined = state.accumulator.sourcesExamined + step.reads
  elsewhere : ∀ other, (∀ entry, step.entry ≠ some (other, entry)) →
    next.overlay.find? other = state.overlay.find? other ∧
      next.accumulator.sources.find? other = state.accumulator.sources.find? other ∧
      next.accumulator.deleted.find? other = state.accumulator.deleted.find? other
  here : ∀ path entry, step.entry = some (path, entry) →
    next.overlay.find? path = some entry ∧
      next.accumulator.sources.find? path = step.kept ∧
      (state.accumulator.deleted.find? path = none ∨
          state.accumulator.deleted.find? path = step.gone →
        next.accumulator.deleted.find? path = step.gone)

/-- A step that no budget refuses does what it says. -/
theorem OverlayState.apply_spec {state : OverlayState} {step : StatusStep}
    (sized : step.Sized state.accumulator.limits) (room : ¬ state.Refuses step) :
    Applied state step (state.apply step) := by
  cases step with
  | pass =>
    refine ⟨rfl, rfl, rfl, fun _ _ => ⟨rfl, rfl, rfl⟩, ?_⟩
    intro path entry written
    cases written
  | note path kind =>
    obtain ⟨noted, limits, sources, deleted, examined⟩ := state.accumulator.gap_spec path kind
    refine ⟨limits, noted, examined, ?_, ?_⟩
    · intro other _
      exact ⟨rfl, congrArg (OrderedMap.find? · other) sources,
        congrArg (OrderedMap.find? · other) deleted⟩
    · intro path entry written
      cases written
  | delete path =>
    obtain ⟨noted, limits, sources, deleted, examined⟩ := state.accumulator.omitSource_spec path
    refine ⟨limits, noted, examined, ?_, ?_⟩
    · intro other apart
      have distinct : other ≠ path := fun same => apart .deleted (by rw [same]; rfl)
      have source := sources other
      rw [if_neg distinct] at source
      refine ⟨?_, source, ?_⟩
      · show (state.overlay.insert path .deleted).find? other = _
        rw [OrderedMap.find?_insert, if_neg distinct]
      · show ((state.accumulator.omitSource path).deleted.insert path ()).find? other = _
        rw [OrderedMap.find?_insert, if_neg distinct, deleted]
    · intro place entry written
      obtain ⟨rfl, rfl⟩ := Prod.mk.inj (Option.some.inj written)
      have source := sources path
      rw [if_pos rfl] at source
      refine ⟨?_, source, fun _ => ?_⟩
      · show (state.overlay.insert path .deleted).find? path = _
        rw [OrderedMap.find?_insert, if_pos rfl]
      · show ((state.accumulator.omitSource path).deleted.insert path ()).find? path = _
        rw [OrderedMap.find?_insert, if_pos rfl]
        rfl
  | skip path kind label =>
    obtain ⟨kept, limits, sources, deleted, examined⟩ := state.accumulator.omitSource_spec path
    obtain ⟨noted, sameLimits, sameSources, sameDeleted, sameExamined⟩ :=
      (state.accumulator.omitSource path).gap_spec (some path) kind
    refine ⟨sameLimits.trans limits, ?_, sameExamined.trans examined, ?_, ?_⟩
    · show ((state.accumulator.omitSource path).gap (some path) kind).noted = _
      rw [noted, kept]
      rfl
    · intro other apart
      have distinct : other ≠ path := fun same => apart (.omitted label) (by rw [same]; rfl)
      refine ⟨?_, ?_, ?_⟩
      · show (state.overlay.insert path (.omitted label)).find? other = _
        rw [OrderedMap.find?_insert, if_neg distinct]
      · show ((state.accumulator.omitSource path).gap (some path) kind).sources.find? other = _
        rw [sameSources, sources, if_neg distinct]
      · show ((state.accumulator.omitSource path).gap (some path) kind).deleted.find? other = _
        rw [sameDeleted, deleted]
    · intro place entry written
      obtain ⟨rfl, rfl⟩ := Prod.mk.inj (Option.some.inj written)
      refine ⟨?_, ?_, ?_⟩
      · show (state.overlay.insert path (.omitted label)).find? path = _
        rw [OrderedMap.find?_insert, if_pos rfl]
      · show ((state.accumulator.omitSource path).gap (some path) kind).sources.find? path = _
        rw [sameSources, sources, if_pos rfl]
        rfl
      · intro before
        show ((state.accumulator.omitSource path).gap (some path) kind).deleted.find? path = _
        rw [sameDeleted, deleted]
        exact before.elim id id
  | read path bytes =>
    let examinedOnce : CaptureAccumulator :=
      { state.accumulator with sourcesExamined := state.accumulator.sourcesExamined + 1 }
    have overlayHere : (state.overlay.insert path (.bytes (Blake3.hex bytes))).find? path =
        some (.bytes (Blake3.hex bytes)) := by
      rw [OrderedMap.find?_insert, if_pos rfl]
    have overlayThere : ∀ other, other ≠ path →
        (state.overlay.insert path (.bytes (Blake3.hex bytes))).find? other =
          state.overlay.find? other := by
      intro other distinct
      rw [OrderedMap.find?_insert, if_neg distinct]
    have distinct_of : ∀ other,
        (∀ entry, (StatusStep.read path bytes).entry ≠ some (other, entry)) → other ≠ path :=
      fun other apart same => apart (.bytes (Blake3.hex bytes)) (by rw [same]; rfl)
    cases pointer : lfsHeader.isPrefixOf bytes with
    | true =>
      have inserted : state.accumulator.insert path bytes none .worktree =
          (examinedOnce.omitSource path).gap (some path) .lfsPointer :=
        CaptureAccumulator.insert_pointer pointer
      obtain ⟨kept, limits, sources, deleted, examined⟩ := examinedOnce.omitSource_spec path
      obtain ⟨noted, sameLimits, sameSources, sameDeleted, sameExamined⟩ :=
        (examinedOnce.omitSource path).gap_spec (some path) .lfsPointer
      have notes : (StatusStep.read path bytes).notes = [⟨some path, .lfsPointer⟩] := by
        simp only [StatusStep.notes, pointer, if_true]
      have nothing : (StatusStep.read path bytes).kept = none := by
        simp only [StatusStep.kept, pointer, if_true]
      refine ⟨?_, ?_, ?_, ?_, ?_⟩
      · show (state.accumulator.insert path bytes none .worktree).limits = _
        rw [inserted]
        exact sameLimits.trans limits
      · show (state.accumulator.insert path bytes none .worktree).noted = _
        rw [inserted, notes]
        exact noted.trans (by rw [kept]; rfl)
      · show (state.accumulator.insert path bytes none .worktree).sourcesExamined = _
        rw [inserted]
        exact sameExamined.trans examined
      · intro other apart
        have distinct := distinct_of other apart
        refine ⟨overlayThere other distinct, ?_, ?_⟩
        · show (state.accumulator.insert path bytes none .worktree).sources.find? other = _
          rw [inserted]
          show ((examinedOnce.omitSource path).gap (some path) .lfsPointer).sources.find? other = _
          rw [sameSources, sources, if_neg distinct]
        · show (state.accumulator.insert path bytes none .worktree).deleted.find? other = _
          rw [inserted]
          show ((examinedOnce.omitSource path).gap (some path) .lfsPointer).deleted.find? other = _
          rw [sameDeleted, deleted]
      · intro place entry written
        obtain ⟨rfl, rfl⟩ := Prod.mk.inj (Option.some.inj written)
        refine ⟨overlayHere, ?_, ?_⟩
        · show (state.accumulator.insert path bytes none .worktree).sources.find? path = _
          rw [inserted, nothing]
          show ((examinedOnce.omitSource path).gap (some path) .lfsPointer).sources.find? path = _
          rw [sameSources, sources, if_pos rfl]
        · intro before
          show (state.accumulator.insert path bytes none .worktree).deleted.find? path = _
          rw [inserted]
          show ((examinedOnce.omitSource path).gap (some path) .lfsPointer).deleted.find? path = _
          rw [sameDeleted, deleted]
          exact before.elim id id
    | false =>
      have free : ¬ state.accumulator.Refuses path bytes := fun refused => room ⟨pointer, refused⟩
      have inserted : state.accumulator.insert path bytes none .worktree = _ :=
        CaptureAccumulator.insert_kept pointer sized free
      have notes : (StatusStep.read path bytes).notes = [] := by
        simp only [StatusStep.notes, pointer, Bool.false_eq_true, if_false]
      have kept : (StatusStep.read path bytes).kept = some ⟨path, bytes, none, .worktree⟩ := by
        simp only [StatusStep.kept, pointer, Bool.false_eq_true, if_false]
      refine ⟨?_, ?_, ?_, ?_, ?_⟩
      · show (state.accumulator.insert path bytes none .worktree).limits = _
        rw [inserted]
      · show (state.accumulator.insert path bytes none .worktree).noted = _
        rw [inserted, notes]
        rfl
      · show (state.accumulator.insert path bytes none .worktree).sourcesExamined = _
        rw [inserted]
        rfl
      · intro other apart
        have distinct := distinct_of other apart
        refine ⟨overlayThere other distinct, ?_, ?_⟩
        · show (state.accumulator.insert path bytes none .worktree).sources.find? other = _
          rw [inserted]
          show (state.accumulator.sources.insert path _).find? other = _
          rw [OrderedMap.find?_insert, if_neg distinct]
        · show (state.accumulator.insert path bytes none .worktree).deleted.find? other = _
          rw [inserted]
          show (state.accumulator.deleted.erase path).find? other = _
          rw [OrderedMap.find?_erase, if_neg distinct]
      · intro place entry written
        obtain ⟨rfl, rfl⟩ := Prod.mk.inj (Option.some.inj written)
        refine ⟨overlayHere, ?_, fun _ => ?_⟩
        · show (state.accumulator.insert path bytes none .worktree).sources.find? path = _
          rw [inserted, kept]
          show (state.accumulator.sources.insert path _).find? path = _
          rw [OrderedMap.find?_insert, if_pos rfl]
        · show (state.accumulator.insert path bytes none .worktree).deleted.find? path = _
          rw [inserted]
          show (state.accumulator.deleted.erase path).find? path = _
          rw [OrderedMap.find?_erase, if_pos rfl]
          rfl

/-- A path has one item at most, or items that say the same. -/
def OneStepEach (steps : List StatusStep) : Prop :=
  ∀ left ∈ steps, ∀ right ∈ steps, ∀ path entry other, left.entry = some (path, entry) →
    right.entry = some (path, other) → left = right

/-- What some steps leave: each touched path as its own step says, the others as they were. -/
structure Followed (start : OverlayState) (done : List StatusStep) (state : OverlayState) : Prop where
  limits : state.accumulator.limits = start.accumulator.limits
  noted : state.accumulator.noted =
    (done.flatMap StatusStep.notes).foldl CaptureAccumulator.noteGap start.accumulator.noted
  examined : state.accumulator.sourcesExamined =
    start.accumulator.sourcesExamined + (done.map StatusStep.reads).sum
  untouched : ∀ path, (∀ step ∈ done, ∀ entry, step.entry ≠ some (path, entry)) →
    state.overlay.find? path = start.overlay.find? path ∧
      state.accumulator.sources.find? path = start.accumulator.sources.find? path ∧
      state.accumulator.deleted.find? path = start.accumulator.deleted.find? path
  touched : ∀ step ∈ done, ∀ path entry, step.entry = some (path, entry) →
    state.overlay.find? path = some entry ∧
      state.accumulator.sources.find? path = step.kept ∧
      state.accumulator.deleted.find? path = step.gone

/-- One more step that no budget refuses. -/
theorem Followed.step {start state : OverlayState} {done : List StatusStep} {step : StatusStep}
    (followed : Followed start done state) (undeleted : start.accumulator.deleted = .empty)
    (single : OneStepEach (done ++ [step])) (sized : step.Sized start.accumulator.limits)
    (room : ¬ state.Refuses step) : Followed start (done ++ [step]) (state.apply step) := by
  have applied := OverlayState.apply_spec (by rw [followed.limits]; exact sized) room
  have last : step ∈ done ++ [step] := List.mem_append_right _ List.mem_cons_self
  constructor
  · exact applied.limits.trans followed.limits
  · rw [applied.noted, followed.noted, List.flatMap_append, List.foldl_append, List.flatMap_singleton]
  · rw [applied.examined, followed.examined, List.map_append, List.sum_append]
    simp [Nat.add_assoc]
  · intro path apart
    have before := followed.untouched path fun earlier member =>
      apart earlier (List.mem_append_left _ member)
    have now := applied.elsewhere path (apart step last)
    exact ⟨now.1.trans before.1, now.2.1.trans before.2.1, now.2.2.trans before.2.2⟩
  · have own : ∀ path entry, step.entry = some (path, entry) →
        (state.apply step).overlay.find? path = some entry ∧
          (state.apply step).accumulator.sources.find? path = step.kept ∧
          (state.apply step).accumulator.deleted.find? path = step.gone := by
      intro path entry written
      have now := applied.here path entry written
      refine ⟨now.1, now.2.1, now.2.2 ?_⟩
      by_cases earlier : ∃ other ∈ done, ∃ entry, other.entry = some (path, entry)
      · obtain ⟨other, member, entry', wrote⟩ := earlier
        have same : other = step :=
          single other (List.mem_append_left _ member) step last path entry' entry wrote written
        right
        rw [← same]
        exact (followed.touched other member path entry' wrote).2.2
      · left
        have fresh := followed.untouched path fun other member entry wrote =>
          earlier ⟨other, member, entry, wrote⟩
        rw [fresh.2.2, undeleted]
        exact OrderedMap.find?_empty path
    intro other member path entry wrote
    by_cases same : ∃ entry', step.entry = some (path, entry')
    · obtain ⟨entry', written⟩ := same
      have one : other = step := single other member step last path entry entry' wrote written
      rw [one] at wrote ⊢
      exact own path entry wrote
    · have earlier : other ∈ done := by
        rcases List.mem_append.mp member with before | now
        · exact before
        · have one : other = step := List.mem_singleton.mp now
          exact absurd ⟨entry, one ▸ wrote⟩ same
      have before := followed.touched other earlier path entry wrote
      have now := applied.elsewhere path fun entry' written => same ⟨entry', written⟩
      exact ⟨now.1.trans before.1, now.2.1.trans before.2.1, now.2.2.trans before.2.2⟩

/-- The run law: steps that no budget refuses leave each touched path as its own step says. -/
theorem followed_steps {start : OverlayState} (undeleted : start.accumulator.deleted = .empty)
    {steps : List StatusStep} (single : OneStepEach steps)
    (sized : ∀ step ∈ steps, step.Sized start.accumulator.limits)
    (room : Unrefused start steps) :
    Followed start steps (steps.foldl OverlayState.apply start) := by
  induction steps using List.reverseRecOn with
  | nil => exact ⟨rfl, rfl, rfl, fun _ _ => ⟨rfl, rfl, rfl⟩, by simp⟩
  | append_singleton front step ih =>
    have followed := ih
      (fun left leftIn right rightIn => single left (List.mem_append_left _ leftIn) right
        (List.mem_append_left _ rightIn))
      (fun other member => sized other (List.mem_append_left _ member))
      (fun before other after split => room before other (after ++ [step]) (by simp [split]))
    rw [List.foldl_append, List.foldl_cons, List.foldl_nil]
    exact followed.step undeleted single (sized step (by simp)) (room front step [] rfl)

/-- An entry of the start is none that a step writes. -/
def Foreign (overlay : Overlay) : Prop :=
  ∀ path entry, overlay.find? path = some entry → entry = .omitted "conflict"

/-- Steps of one overlay keep the same sources and delete the same paths, in whatever order. -/
theorem Followed.agree {start left right : OverlayState} {steps others : List StatusStep}
    (collisionFree : Function.Injective Blake3.hex) (foreign : Foreign start.overlay)
    (first : Followed start steps left) (second : Followed start others right)
    (labels : ∀ step ∈ steps ++ others, ∀ path, step.entry ≠ some (path, .omitted "conflict"))
    (overlays : left.overlay = right.overlay) :
    left.accumulator.sources = right.accumulator.sources ∧
      left.accumulator.deleted = right.accumulator.deleted := by
  have determined : ∀ {step other : StatusStep} {path : String} {entry : OverlayDigestEntry},
      step.entry = some (path, entry) → other.entry = some (path, entry) →
        step.kept = other.kept ∧ step.gone = other.gone := by
    intro step other path entry wrote written
    cases step with
    | pass => cases wrote
    | note place kind => cases wrote
    | delete place =>
      obtain ⟨rfl, rfl⟩ := Prod.mk.inj (Option.some.inj wrote)
      cases other with
      | pass => cases written
      | note place kind => cases written
      | delete place => exact ⟨rfl, rfl⟩
      | skip place kind label => cases (Prod.mk.inj (Option.some.inj written)).2
      | read place bytes => cases (Prod.mk.inj (Option.some.inj written)).2
    | skip place kind label =>
      obtain ⟨rfl, rfl⟩ := Prod.mk.inj (Option.some.inj wrote)
      cases other with
      | pass => cases written
      | note place kind => cases written
      | delete place => cases (Prod.mk.inj (Option.some.inj written)).2
      | skip place kind label => exact ⟨rfl, rfl⟩
      | read place bytes => cases (Prod.mk.inj (Option.some.inj written)).2
    | read place bytes =>
      obtain ⟨rfl, rfl⟩ := Prod.mk.inj (Option.some.inj wrote)
      cases other with
      | pass => cases written
      | note place kind => cases written
      | delete place => cases (Prod.mk.inj (Option.some.inj written)).2
      | skip place kind label => cases (Prod.mk.inj (Option.some.inj written)).2
      | read place' bytes' =>
        obtain ⟨place, digests⟩ := Prod.mk.inj (Option.some.inj written)
        have contents : bytes' = bytes := collisionFree (OverlayDigestEntry.bytes.inj digests)
        rw [contents, place]
        exact ⟨rfl, rfl⟩
  -- A path touched on one side only would show a conflict label in the other overlay.
  have oneSided : ∀ {state : OverlayState} {done : List StatusStep} {path : String}
      {entry : OverlayDigestEntry}, Followed start done state →
      state.overlay.find? path = some entry → entry ≠ .omitted "conflict" →
        ∃ step ∈ done, step.entry = some (path, entry) := by
    intro state done path entry followed held other
    by_cases wrote : ∃ step ∈ done, ∃ entry, step.entry = some (path, entry)
    · obtain ⟨step, member, entry', written⟩ := wrote
      have there := (followed.touched step member path entry' written).1
      rw [held] at there
      exact ⟨step, member, by rw [written, Option.some.inj there]⟩
    · have before := followed.untouched path fun step member entry written =>
        wrote ⟨step, member, entry, written⟩
      rw [held] at before
      exact absurd (foreign path entry before.1.symm) other
  have each : ∀ path, left.accumulator.sources.find? path = right.accumulator.sources.find? path ∧
      left.accumulator.deleted.find? path = right.accumulator.deleted.find? path := by
    intro path
    by_cases wrote : ∃ step ∈ steps, ∃ entry, step.entry = some (path, entry)
    · obtain ⟨step, member, entry, written⟩ := wrote
      have mine := first.touched step member path entry written
      have other : entry ≠ .omitted "conflict" := by
        intro label
        exact labels step (List.mem_append_left _ member) path (label ▸ written)
      obtain ⟨step', member', written'⟩ := oneSided second (overlays ▸ mine.1) other
      have theirs := second.touched step' member' path entry written'
      have same := determined written written'
      exact ⟨by rw [mine.2.1, theirs.2.1, same.1], by rw [mine.2.2, theirs.2.2, same.2]⟩
    · have mine := first.untouched path fun step member entry written =>
        wrote ⟨step, member, entry, written⟩
      by_cases theirs : ∃ step ∈ others, ∃ entry, step.entry = some (path, entry)
      · obtain ⟨step, member, entry, written⟩ := theirs
        have shown := (second.touched step member path entry written).1
        have other : entry ≠ .omitted "conflict" := by
          intro label
          exact labels step (List.mem_append_right _ member) path (label ▸ written)
        obtain ⟨step', member', written'⟩ := oneSided first (overlays ▸ shown) other
        exact absurd ⟨step', member', entry, written'⟩ wrote
      · have second' := second.untouched path fun step member entry written =>
          theirs ⟨step, member, entry, written⟩
        exact ⟨mine.2.1.trans second'.2.1.symm, mine.2.2.trans second'.2.2.symm⟩
  exact ⟨OrderedMap.ext_find? fun path => (each path).1,
    OrderedMap.ext_find? fun path => (each path).2⟩

end

end Texo.Git
