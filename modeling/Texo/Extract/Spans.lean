import Texo.Extract.Segmentation
import Texo.Ops.Lines

/-! # What the candidate spans cover

The slot of `segment_candidates` holds one block at a time, and the end of any prose block empties
it. A block is a candidate where nothing is open around it: an outermost one, or one that opens in
an outermost one after another has closed there.
-/
namespace Texo.Extract
open Texo.Foundation Texo.Ops

/-- The blocks of a markdown source, nested. -/
abbrev Blocks := Nesting BlockTag Inline

/-- The candidates among some blocks, where no block is open before them, and those after the first
one to close, where one is. -/
def candidateRuns : Blocks → List (Nat × Nat) × List (Nat × Nat)
  | .nil => ([], [])
  | .leaf _ rest => candidateRuns rest
  | .block tag start stop inner rest =>
    let nested := candidateRuns inner
    let later := candidateRuns rest
    if tag.hides then
      later
    else if tag.isProse then
      ((start, stop) :: (nested.2 ++ later.1), nested.2 ++ later.1)
    else
      (nested.1 ++ later.1,
        if inner.shown BlockTag.hides BlockTag.isProse = [] then later.2 else nested.2 ++ later.1)

/-- The candidates among some blocks. -/
def candidateBlocks (blocks : Blocks) : List (Nat × Nat) := (candidateRuns blocks).1

/-- The candidates among the blocks of an open one, after the first of them has closed it. -/
def reopenedBlocks (blocks : Blocks) : List (Nat × Nat) := (candidateRuns blocks).2

/-- The prose blocks that are not hidden. -/
def proseBlocks (blocks : Blocks) : List (Nat × Nat) :=
  blocks.shown BlockTag.hides BlockTag.isProse

/-- The blocks that are passed over. -/
def excludedBlocks (blocks : Blocks) : List (Nat × Nat) := blocks.hidden BlockTag.hides

/-- The outermost prose blocks that are not hidden. -/
def outermostProse (blocks : Blocks) : List ((Nat × Nat) × Blocks) :=
  blocks.outermost BlockTag.hides BlockTag.isProse

/-- The prose blocks that are not hidden and open after another has closed. -/
def laterProse (blocks : Blocks) : List (Nat × Nat) :=
  blocks.second BlockTag.hides BlockTag.isProse

/-- The candidates are prose blocks, and those of an open one open after another has closed. -/
theorem candidateRuns_prose (blocks : Blocks) :
    (∀ range ∈ candidateBlocks blocks, range ∈ proseBlocks blocks) ∧
      ∀ range ∈ reopenedBlocks blocks, range ∈ laterProse blocks := by
  unfold candidateBlocks reopenedBlocks proseBlocks laterProse
  induction blocks with
  | nil => exact ⟨by simp [candidateRuns], by simp [candidateRuns]⟩
  | leaf item rest ih => exact ih
  | block tag start stop inner rest ihInner ihRest =>
    obtain ⟨innerFirst, innerLater⟩ := ihInner
    obtain ⟨restFirst, restLater⟩ := ihRest
    have nested : ∀ range ∈ (candidateRuns inner).2,
        range ∈ inner.shown BlockTag.hides BlockTag.isProse :=
      fun range member => Nesting.second_shown range (innerLater range member)
    rw [candidateRuns, Nesting.shown, Nesting.second]
    by_cases hidden : tag.hides = true
    · simp only [hidden, if_true, List.nil_append, Bool.true_eq_false, false_and, if_false]
      exact ⟨restFirst, restLater⟩
    · rw [Bool.not_eq_true] at hidden
      by_cases prose : tag.isProse = true
      · simp only [hidden, prose, Bool.false_eq_true, if_false, if_true, true_or, and_self]
        constructor
        · intro range member
          rcases List.mem_cons.mp member with own | more
          · rw [own]
            simp
          · rcases List.mem_append.mp more with below | behind
            · simp [nested range below]
            · simp [restFirst range behind]
        · intro range member
          rcases List.mem_append.mp member with below | behind
          · exact List.mem_append_left _ (innerLater range below)
          · exact List.mem_append_right _ (restFirst range behind)
      · rw [Bool.not_eq_true] at prose
        simp only [hidden, prose, Bool.false_eq_true, if_false, false_or, List.nil_append, true_and]
        constructor
        · intro range member
          rcases List.mem_append.mp member with below | behind
          · exact List.mem_append_left _ (innerFirst range below)
          · exact List.mem_append_right _ (restFirst range behind)
        · by_cases empty : inner.shown BlockTag.hides BlockTag.isProse = []
          · rw [if_pos empty, if_neg (by simpa using empty)]
            intro range member
            exact List.mem_append_right _ (restLater range member)
          · rw [if_neg empty, if_pos empty]
            intro range member
            rcases List.mem_append.mp member with below | behind
            · exact List.mem_append_left _ (innerLater range below)
            · exact List.mem_append_right _ (restFirst range behind)

/-- Every prose block is in a candidate, and every one that opens after another has closed is in one
that does. -/
theorem candidateRuns_cover {cut : Nat → Prop} {first last : Nat} {blocks : Blocks}
    (within : blocks.Within cut first last) :
    (∀ range ∈ proseBlocks blocks, ∃ candidate ∈ candidateBlocks blocks,
        Inside candidate.1 candidate.2 range) ∧
      ∀ range ∈ laterProse blocks, ∃ candidate ∈ reopenedBlocks blocks,
        Inside candidate.1 candidate.2 range := by
  unfold candidateBlocks reopenedBlocks proseBlocks laterProse
  induction blocks generalizing first last with
  | nil => exact ⟨by simp [Nesting.shown], by simp [Nesting.second]⟩
  | leaf item rest ih => exact ih within
  | block tag start stop inner rest ihInner ihRest =>
    obtain ⟨after, _, _, inside, behind⟩ := within
    have forward := inside.forward
    obtain ⟨innerFirst, innerLater⟩ := ihInner inside
    obtain ⟨restFirst, restLater⟩ := ihRest behind
    rw [candidateRuns, Nesting.shown, Nesting.second]
    by_cases hidden : tag.hides = true
    · simp only [hidden, if_true, List.nil_append, Bool.true_eq_false, false_and, if_false]
      exact ⟨restFirst, restLater⟩
    · rw [Bool.not_eq_true] at hidden
      by_cases prose : tag.isProse = true
      · simp only [hidden, prose, Bool.false_eq_true, if_false, if_true, true_or, and_self]
        constructor
        · intro range member
          rcases List.mem_append.mp member with here | later
          · refine ⟨(start, stop), by simp, ?_⟩
            rcases List.mem_append.mp here with own | nested
            · rw [List.mem_singleton.mp own]
              exact ⟨le_rfl, forward, le_rfl⟩
            · exact (inside.shown range nested).1
          · obtain ⟨candidate, listed, holds⟩ := restFirst range later
            exact ⟨candidate, by simp [listed], holds⟩
        · intro range member
          rcases List.mem_append.mp member with nested | later
          · obtain ⟨candidate, listed, holds⟩ := innerLater range nested
            exact ⟨candidate, by simp [listed], holds⟩
          · obtain ⟨candidate, listed, holds⟩ := restFirst range later
            exact ⟨candidate, by simp [listed], holds⟩
      · rw [Bool.not_eq_true] at prose
        simp only [hidden, prose, Bool.false_eq_true, if_false, false_or, List.nil_append, true_and]
        constructor
        · intro range member
          rcases List.mem_append.mp member with nested | later
          · obtain ⟨candidate, listed, holds⟩ := innerFirst range nested
            exact ⟨candidate, by simp [listed], holds⟩
          · obtain ⟨candidate, listed, holds⟩ := restFirst range later
            exact ⟨candidate, by simp [listed], holds⟩
        · intro range member
          by_cases empty : inner.shown BlockTag.hides BlockTag.isProse = []
          · rw [if_neg (by simpa using empty)] at member
            rw [if_pos empty]
            rcases List.mem_append.mp member with nested | later
            · have shown := Nesting.second_shown range nested
              rw [empty] at shown
              cases shown
            · exact restLater range later
          · rw [if_pos empty] at member
            rw [if_neg empty]
            rcases List.mem_append.mp member with nested | later
            · obtain ⟨candidate, listed, holds⟩ := innerLater range nested
              exact ⟨candidate, by simp [listed], holds⟩
            · obtain ⟨candidate, listed, holds⟩ := restFirst range later
              exact ⟨candidate, by simp [listed], holds⟩

/-- The candidates: each outermost prose block, with those reopened in it. -/
theorem candidateBlocks_eq (blocks : Blocks) :
    candidateBlocks blocks =
      (outermostProse blocks).flatMap fun outer => outer.1 :: reopenedBlocks outer.2 := by
  unfold candidateBlocks outermostProse reopenedBlocks
  induction blocks with
  | nil => rfl
  | leaf item rest ih => exact ih
  | block tag start stop inner rest ihInner ihRest =>
    rw [candidateRuns, Nesting.outermost]
    by_cases hidden : tag.hides = true
    · simp only [hidden, if_true, List.nil_append]
      exact ihRest
    · rw [Bool.not_eq_true] at hidden
      by_cases prose : tag.isProse = true
      · simp only [hidden, prose, Bool.false_eq_true, if_false, if_true, List.flatMap_append,
          List.flatMap_cons, List.flatMap_nil, List.cons_append]
        rw [ihRest, List.nil_append]
      · rw [Bool.not_eq_true] at prose
        simp only [hidden, prose, Bool.false_eq_true, if_false, List.flatMap_append]
        rw [ihInner, ihRest]

/-- Without prose, nothing is reopened. -/
theorem reopenedBlocks_nil {blocks : Blocks} (none : proseBlocks blocks = []) :
    reopenedBlocks blocks = [] := by
  apply List.eq_nil_iff_forall_not_mem.mpr
  intro range member
  have shown := Nesting.second_shown range ((candidateRuns_prose blocks).2 range member)
  unfold proseBlocks at none
  rw [none] at shown
  cases shown

/-- The span `push_span` makes of a range. -/
def spanAt (source : String) (range : Nat × Nat) (headingPath : List String) : CandidateSpan where
  text := String.ofList (textOf source range)
  lineStart := lineOfOffset source range.1
  lineEnd := lineOfOffset source (textEnd source range - 1)
  charStart := range.1
  charEnd := textEnd source range
  headingPath := headingPath

/-- The span `push_span` adds of a range, unless it is blank. -/
def spanOf (source : String) (range : Nat × Nat) (headingPath : List String) :
    List CandidateSpan :=
  if textOf source range = [] then [] else [spanAt source range headingPath]

/-- Pushing a range between boundaries adds its span. -/
theorem pushSpan_eq {source : String} {range : Nat × Nat} (spans : List CandidateSpan)
    (headings : List HeadingFrame) (taken : (slice source range.1 range.2).isSome = true) :
    pushSpan spans source range.1 range.2 headings =
      some (spans ++ spanOf source range (headings.map HeadingFrame.text)) := by
  obtain ⟨raw, found⟩ := Option.isSome_iff_exists.mp taken
  have text : textOf source range = trimEndMatches isBlank raw := by
    unfold textOf
    rw [found]
    rfl
  unfold pushSpan spanOf spanAt textEnd
  rw [found, text]
  dsimp only
  split
  · rw [List.append_nil]
  · rfl

/-- A span without its headings. -/
def CandidateSpan.bare (span : CandidateSpan) : CandidateSpan := { span with headingPath := [] }

/-- Without headings, the span of a range depends on the range alone. -/
theorem spanOf_bare (source : String) (range : Nat × Nat) (headingPath : List String) :
    (spanOf source range headingPath).map CandidateSpan.bare = spanOf source range [] := by
  unfold spanOf
  split
  · rfl
  · rfl

/-- Events that add the spans of some ranges, and end as suppressed as they began. -/
structure Adds (source : String) (before after : Segmentation) (ranges : List (Nat × Nat)) :
    Prop where
  spans : after.spans.map CandidateSpan.bare =
    before.spans.map CandidateSpan.bare ++ ranges.flatMap fun range => spanOf source range []
  depth : after.suppressDepth = before.suppressDepth

/-- Nothing added. -/
theorem Adds.refl (source : String) (state : Segmentation) : Adds source state state [] :=
  ⟨by simp, rfl⟩

/-- One after the other. -/
theorem Adds.trans {source : String} {before middle after : Segmentation}
    {ranges more : List (Nat × Nat)} (first : Adds source before middle ranges)
    (second : Adds source middle after more) : Adds source before after (ranges ++ more) :=
  ⟨by rw [second.spans, first.spans, List.flatMap_append, List.append_assoc],
    second.depth.trans first.depth⟩

/-- The end of a heading leaves spans and slot. -/
theorem endHeading_keeps (state : Segmentation) :
    state.endHeading.spans = state.spans ∧ state.endHeading.openBlock = state.openBlock ∧
      state.endHeading.suppressDepth = state.suppressDepth := by
  unfold Segmentation.endHeading
  cases state.capturingHeading with
  | none => exact ⟨rfl, rfl, rfl⟩
  | some heading => exact ⟨rfl, rfl, rfl⟩

/-- A block that is passed over opens by one more suppression, and closes by one less. -/
theorem step_hides (source : String) {tag : BlockTag} (hidden : tag.hides = true)
    (state : Segmentation) (start stop : Nat) :
    (∃ next, Segmentation.step source state (.opens tag start stop) = some next ∧
        next.spans = state.spans ∧ next.openBlock = state.openBlock ∧
        next.suppressDepth = state.suppressDepth + 1) ∧
      ∃ next, Segmentation.step source state (.closes tag) = some next ∧
        next.spans = state.spans ∧ next.openBlock = state.openBlock ∧
        next.suppressDepth = state.suppressDepth - 1 := by
  cases tag with
  | heading level =>
    obtain ⟨spans, slot, _⟩ := endHeading_keeps state
    exact ⟨⟨_, rfl, rfl, rfl, rfl⟩, ⟨_, rfl, spans, slot, rfl⟩⟩
  | paragraph => cases hidden
  | item => cases hidden
  | other => cases hidden
  | _ => exact ⟨⟨_, rfl, rfl, rfl, rfl⟩, ⟨_, rfl, rfl, rfl, rfl⟩⟩

/-- A leaf leaves spans, slot and suppression. -/
theorem step_leaf (source : String) (state : Segmentation) (item : Inline) :
    ∃ next, Segmentation.step source state (.leaf item) = some next ∧
      next.spans = state.spans ∧ next.openBlock = state.openBlock ∧
      next.suppressDepth = state.suppressDepth := by
  cases item with
  | text text => exact ⟨_, rfl, rfl, rfl, rfl⟩
  | code text => exact ⟨_, rfl, rfl, rfl, rfl⟩
  | other => exact ⟨state, rfl, rfl, rfl, rfl⟩

/-- While something suppresses, a block that is not passed over changes nothing. -/
theorem step_suppressed (source : String) {tag : BlockTag} (plain : tag.hides = false)
    {state : Segmentation} (suppressed : state.suppressDepth ≠ 0) (start stop : Nat) :
    Segmentation.step source state (.opens tag start stop) = some state ∧
      Segmentation.step source state (.closes tag) = some state := by
  cases tag with
  | heading level => cases plain
  | paragraph =>
    constructor
    · show (if _ ∧ _ then _ else _) = _
      rw [if_neg (fun both => suppressed both.1)]
    · show (if _ then _ else _) = _
      rw [if_neg suppressed]
  | item =>
    constructor
    · show (if _ ∧ _ then _ else _) = _
      rw [if_neg (fun both => suppressed both.1)]
    · show (if _ then _ else _) = _
      rw [if_neg suppressed]
  | other => exact ⟨rfl, rfl⟩
  | _ => cases plain

/-- The walk through a block: its start, its blocks, its end, and those behind it. -/
theorem walk_block {source : String} {tag : BlockTag} {start stop : Nat} {inner rest : Blocks}
    {state opened walked closed last : Segmentation}
    (opens : Segmentation.step source state (.opens tag start stop) = some opened)
    (inside : inner.events.foldlM (Segmentation.step source) opened = some walked)
    (closes : Segmentation.step source walked (.closes tag) = some closed)
    (behind : rest.events.foldlM (Segmentation.step source) closed = some last) :
    (Nesting.block tag start stop inner rest).events.foldlM (Segmentation.step source) state =
      some last := by
  rw [Nesting.events, List.foldlM_cons, opens, Option.bind_eq_bind, Option.bind_some,
    List.foldlM_append, inside, Option.bind_eq_bind, Option.bind_some, List.foldlM_cons, closes]
  exact behind

/-- While something suppresses, no events add a span or change the slot. -/
theorem walk_suppressed (source : String) (blocks : Blocks) {state : Segmentation}
    (suppressed : state.suppressDepth ≠ 0) :
    ∃ next, blocks.events.foldlM (Segmentation.step source) state = some next ∧
      next.spans = state.spans ∧ next.openBlock = state.openBlock ∧
      next.suppressDepth = state.suppressDepth := by
  induction blocks generalizing state with
  | nil => exact ⟨state, rfl, rfl, rfl, rfl⟩
  | leaf item rest ih =>
    obtain ⟨next, stepped, spans, slot, depth⟩ := step_leaf source state item
    obtain ⟨last, run, spans', slot', depth'⟩ := ih (show next.suppressDepth ≠ 0 by omega)
    refine ⟨last, ?_, spans'.trans spans, slot'.trans slot, depth'.trans depth⟩
    rw [Nesting.events, List.foldlM_cons, stepped]
    exact run
  | block tag start stop inner rest ihInner ihRest =>
    by_cases hidden : tag.hides = true
    · obtain ⟨opened, opens, spans, slot, depth⟩ := (step_hides source hidden state start stop).1
      obtain ⟨walked, run, spans', slot', depth'⟩ :=
        ihInner (show opened.suppressDepth ≠ 0 by omega)
      obtain ⟨closed, closes, spans'', slot'', depth''⟩ :=
        (step_hides source hidden walked start stop).2
      obtain ⟨last, more, spans₃, slot₃, depth₃⟩ :=
        ihRest (show closed.suppressDepth ≠ 0 by omega)
      refine ⟨last, walk_block opens run closes more, ?_, ?_, by omega⟩
      · rw [spans₃, spans'', spans', spans]
      · rw [slot₃, slot'', slot', slot]
    · rw [Bool.not_eq_true] at hidden
      have opens := (step_suppressed source hidden suppressed start stop).1
      obtain ⟨walked, run, spans, slot, depth⟩ := ihInner suppressed
      have closes := (step_suppressed source hidden
        (show walked.suppressDepth ≠ 0 by omega) start stop).2
      obtain ⟨last, more, spans', slot', depth'⟩ :=
        ihRest (show walked.suppressDepth ≠ 0 by omega)
      exact ⟨last, walk_block opens run closes more, spans'.trans spans, slot'.trans slot,
        depth'.trans depth⟩

/-- The start of prose takes the free slot, and leaves a taken one. -/
theorem step_opens_prose (source : String) {tag : BlockTag} (prose : tag.isProse = true)
    {state : Segmentation} (plain : state.suppressDepth = 0) (start stop : Nat) :
    (state.openBlock = none → Segmentation.step source state (.opens tag start stop) =
        some { state with openBlock := some (start, stop) }) ∧
      ∀ block, state.openBlock = some block →
        Segmentation.step source state (.opens tag start stop) = some state := by
  have opens : Segmentation.step source state (.opens tag start stop) =
      if state.suppressDepth = 0 ∧ state.openBlock = none then
        some { state with openBlock := some (start, stop) }
      else
        some state := by
    cases tag with
    | paragraph => rfl
    | item => rfl
    | _ => cases prose
  constructor
  · intro free
    rw [opens, if_pos ⟨plain, free⟩]
  · intro block taken
    rw [opens, if_neg (by rw [taken]; simp)]

/-- The end of prose empties the slot, into a span where it was taken. -/
theorem step_closes_prose (source : String) {tag : BlockTag} (prose : tag.isProse = true)
    {state : Segmentation} (plain : state.suppressDepth = 0) :
    (state.openBlock = none → Segmentation.step source state (.closes tag) = some state) ∧
      ∀ block, state.openBlock = some block → (slice source block.1 block.2).isSome = true →
        ∃ next, Segmentation.step source state (.closes tag) = some next ∧
          next.openBlock = none ∧ Adds source state next [block] := by
  have closes : Segmentation.step source state (.closes tag) =
      state.openBlock.elim (some state) fun block =>
        (pushSpan state.spans source block.1 block.2 state.headings).map fun spans =>
          { state with spans := spans, openBlock := none } := by
    cases tag with
    | paragraph =>
      show (if _ then _ else _) = _
      rw [if_pos plain]
      cases state.openBlock <;> rfl
    | item =>
      show (if _ then _ else _) = _
      rw [if_pos plain]
      cases state.openBlock <;> rfl
    | _ => cases prose
  constructor
  · intro free
    rw [closes, free]
    rfl
  · intro block taken slices
    refine ⟨{ state with
        spans := state.spans ++ spanOf source block (state.headings.map HeadingFrame.text)
        openBlock := none }, ?_, rfl, ?_⟩
    · rw [closes, taken]
      dsimp only [Option.elim]
      rw [pushSpan_eq state.spans state.headings slices]
      rfl
    · refine ⟨?_, rfl⟩
      rw [List.map_append, spanOf_bare, List.flatMap_cons, List.flatMap_nil, List.append_nil]

/-- A block that is neither passed over nor prose changes nothing. -/
theorem step_through (source : String) {tag : BlockTag} (plain : tag.hides = false)
    (through : tag.isProse = false) (state : Segmentation) (start stop : Nat) :
    Segmentation.step source state (.opens tag start stop) = some state ∧
      Segmentation.step source state (.closes tag) = some state := by
  cases tag with
  | other => exact ⟨rfl, rfl⟩
  | heading level => cases plain
  | paragraph => cases through
  | item => cases through
  | _ => cases plain

/-- What the walk through some blocks adds, from a slot: where it is free, the candidates; where it
is taken, nothing without prose, and otherwise the open block and those reopened after it. -/
def Walks (source : String) (blocks : Blocks) (before after : Segmentation) : Prop :=
  match before.openBlock with
  | none => after.openBlock = none ∧ Adds source before after (candidateBlocks blocks)
  | some block =>
    if proseBlocks blocks = [] then
      after.openBlock = some block ∧ Adds source before after []
    else
      after.openBlock = none ∧ Adds source before after (block :: reopenedBlocks blocks)

/-- Blocks with the same prose and the same candidates walk alike, behind events that add nothing. -/
theorem Walks.behind {source : String} {blocks others : Blocks} {state middle last : Segmentation}
    (walks : Walks source others middle last) (slot : middle.openBlock = state.openBlock)
    (nothing : Adds source state middle []) (prose : proseBlocks blocks = proseBlocks others)
    (candidates : candidateRuns blocks = candidateRuns others) :
    Walks source blocks state last := by
  have first : candidateBlocks blocks = candidateBlocks others := congrArg Prod.fst candidates
  have later : reopenedBlocks blocks = reopenedBlocks others := congrArg Prod.snd candidates
  unfold Walks at walks ⊢
  rw [slot] at walks
  rw [first, later, prose]
  cases held : state.openBlock with
  | none =>
    rw [held] at walks
    exact ⟨walks.1, nothing.trans walks.2⟩
  | some block =>
    rw [held] at walks
    dsimp only at walks ⊢
    split at walks
    · rename_i none
      rw [if_pos none]
      exact ⟨walks.1, nothing.trans walks.2⟩
    · rename_i some
      rw [if_neg some]
      exact ⟨walks.1, nothing.trans walks.2⟩

/-- The end of the prose around some blocks leaves the slot free, and the open block and those
reopened after it added. -/
theorem Walks.close {source : String} {inner : Blocks} {tag : BlockTag}
    (prose : tag.isProse = true) {before after : Segmentation} {block : Nat × Nat}
    (walks : Walks source inner before after) (taken : before.openBlock = some block)
    (slices : (slice source block.1 block.2).isSome = true) (plain : before.suppressDepth = 0) :
    ∃ closed, Segmentation.step source after (.closes tag) = some closed ∧
      closed.openBlock = none ∧ Adds source before closed (block :: reopenedBlocks inner) := by
  unfold Walks at walks
  rw [taken] at walks
  dsimp only at walks
  by_cases none : proseBlocks inner = []
  · rw [if_pos none] at walks
    obtain ⟨held, adds⟩ := walks
    have depth : after.suppressDepth = 0 := adds.depth.trans plain
    obtain ⟨closed, closes, free, pushed⟩ :=
      (step_closes_prose source prose depth).2 block held slices
    rw [reopenedBlocks_nil none]
    exact ⟨closed, closes, free, adds.trans pushed⟩
  · rw [if_neg none] at walks
    obtain ⟨free, adds⟩ := walks
    have depth : after.suppressDepth = 0 := adds.depth.trans plain
    exact ⟨after, (step_closes_prose source prose depth).1 free, free, adds⟩

/-- The walk law: while nothing suppresses, a walk adds the candidates and does not panic. -/
theorem walk_walks (source : String) {blocks : Blocks} {first last : Nat}
    (within : blocks.Within (CharBoundary source) first last) {state : Segmentation}
    (plain : state.suppressDepth = 0)
    (taken : ∀ block, state.openBlock = some block → (slice source block.1 block.2).isSome = true) :
    ∃ next, blocks.events.foldlM (Segmentation.step source) state = some next ∧
      Walks source blocks state next := by
  induction blocks generalizing first last state with
  | nil =>
    refine ⟨state, rfl, ?_⟩
    unfold Walks
    cases state.openBlock with
    | none => exact ⟨rfl, Adds.refl source state⟩
    | some block => exact ⟨rfl, Adds.refl source state⟩
  | leaf item rest ih =>
    obtain ⟨next, stepped, spans, slot, depth⟩ := step_leaf source state item
    obtain ⟨last, run, walks⟩ := ih within (show next.suppressDepth = 0 by omega)
      (by rw [slot]; exact taken)
    refine ⟨last, ?_, walks.behind slot ⟨by simp [spans], depth⟩ rfl rfl⟩
    rw [Nesting.events, List.foldlM_cons, stepped]
    exact run
  | block tag start stop inner rest ihInner ihRest =>
    obtain ⟨_, cutStart, cutStop, inside, behind⟩ := within
    by_cases hidden : tag.hides = true
    · obtain ⟨opened, opens, spans, slot, depth⟩ :=
        (step_hides source hidden state start stop).1
      obtain ⟨walked, run, spans', slot', depth'⟩ :=
        walk_suppressed source inner (show opened.suppressDepth ≠ 0 by omega)
      obtain ⟨closed, closes, spans'', slot'', depth''⟩ :=
        (step_hides source hidden walked start stop).2
      have same : closed.openBlock = state.openBlock := by rw [slot'', slot', slot]
      have listed : closed.spans = state.spans := by rw [spans'', spans', spans]
      obtain ⟨last, more, walks⟩ := ihRest behind (show closed.suppressDepth = 0 by omega)
        (by rw [same]; exact taken)
      refine ⟨last, walk_block opens run closes more,
        walks.behind same ⟨by simp [listed], by omega⟩ ?_ ?_⟩
      · unfold proseBlocks
        rw [Nesting.shown, if_pos hidden, List.nil_append]
      · rw [candidateRuns]
        exact if_pos hidden
    · rw [Bool.not_eq_true] at hidden
      by_cases prose : tag.isProse = true
      · -- The slot holds this block, or the one that was open around it.
        obtain ⟨block, opened, opens, held, slices, nothing, depth, whose⟩ :
            ∃ block opened, Segmentation.step source state (.opens tag start stop) = some opened ∧
              opened.openBlock = some block ∧ (slice source block.1 block.2).isSome = true ∧
              Adds source state opened [] ∧ opened.suppressDepth = 0 ∧
              (state.openBlock = none ∧ block = (start, stop) ∨ state.openBlock = some block) := by
          obtain ⟨free, full⟩ := step_opens_prose source prose plain start stop
          cases slot : state.openBlock with
          | none =>
            obtain ⟨_, text, _, cut⟩ := cut_of_boundaries source (start, stop)
              inside.forward cutStart cutStop
            refine ⟨(start, stop), _, free slot, rfl, ?_, ⟨by simp, rfl⟩, plain,
              Or.inl ⟨rfl, rfl⟩⟩
            rw [cut.slices]
            rfl
          | some block =>
            exact ⟨block, state, full block slot, slot, taken block slot, Adds.refl source state,
              plain, Or.inr rfl⟩
        obtain ⟨walked, run, walks⟩ := ihInner inside depth
          (by rw [held]; intro other same; rw [← Option.some.inj same]; exact slices)
        obtain ⟨closed, closes, freed, adds⟩ := walks.close prose held slices depth
        have still : closed.suppressDepth = 0 := adds.depth.trans depth
        obtain ⟨last, more, later⟩ := ihRest behind still (by rw [freed]; intro _ none; cases none)
        refine ⟨last, walk_block opens run closes more, ?_⟩
        unfold Walks at later
        rw [freed] at later
        have total := nothing.trans (adds.trans later.2)
        have runs : candidateRuns (.block tag start stop inner rest) =
            ((start, stop) :: (reopenedBlocks inner ++ candidateBlocks rest),
              reopenedBlocks inner ++ candidateBlocks rest) := by
          rw [candidateRuns]
          simp only [hidden, prose, Bool.false_eq_true, if_false, if_true]
          rfl
        have some : proseBlocks (.block tag start stop inner rest) ≠ [] := by
          unfold proseBlocks
          rw [Nesting.shown]
          simp [hidden, prose]
        unfold Walks candidateBlocks reopenedBlocks
        rw [runs]
        rcases whose with ⟨free, rfl⟩ | full
        · rw [free]
          exact ⟨later.1, by simpa using total⟩
        · rw [full]
          dsimp only
          rw [if_neg some]
          exact ⟨later.1, by simpa using total⟩
      · rw [Bool.not_eq_true] at prose
        obtain ⟨opens, _⟩ := step_through source hidden prose state start stop
        obtain ⟨walked, run, walks⟩ := ihInner inside plain taken
        have closes := (step_through source hidden prose walked start stop).2
        have shown : proseBlocks (.block tag start stop inner rest) =
            proseBlocks inner ++ proseBlocks rest := by
          unfold proseBlocks
          rw [Nesting.shown]
          simp [hidden, prose]
        have first : candidateBlocks (.block tag start stop inner rest) =
            candidateBlocks inner ++ candidateBlocks rest := by
          unfold candidateBlocks
          rw [candidateRuns]
          simp [hidden, prose]
        have reopened : reopenedBlocks (.block tag start stop inner rest) =
            if proseBlocks inner = [] then reopenedBlocks rest
            else reopenedBlocks inner ++ candidateBlocks rest := by
          unfold reopenedBlocks
          rw [candidateRuns]
          simp only [hidden, prose, Bool.false_eq_true, if_false]
          rfl
        unfold Walks at walks
        cases slot : state.openBlock with
        | none =>
          rw [slot] at walks
          obtain ⟨freed, adds⟩ := walks
          obtain ⟨last, more, later⟩ := ihRest behind (adds.depth.trans plain)
            (by rw [freed]; intro _ none; cases none)
          refine ⟨last, walk_block opens run closes more, ?_⟩
          unfold Walks at later ⊢
          rw [freed] at later
          rw [slot, first]
          exact ⟨later.1, adds.trans later.2⟩
        | some block =>
          rw [slot] at walks
          dsimp only at walks
          by_cases empty : proseBlocks inner = []
          · rw [if_pos empty] at walks
            obtain ⟨held, adds⟩ := walks
            obtain ⟨last, more, later⟩ := ihRest behind (adds.depth.trans plain)
              (by rw [held, ← slot]; exact taken)
            refine ⟨last, walk_block opens run closes more, ?_⟩
            unfold Walks at later ⊢
            rw [held] at later
            rw [slot]
            dsimp only at later ⊢
            rw [shown, empty, List.nil_append, reopened, if_pos empty]
            by_cases none : proseBlocks rest = []
            · rw [if_pos none] at later ⊢
              exact ⟨later.1, adds.trans later.2⟩
            · rw [if_neg none] at later ⊢
              exact ⟨later.1, adds.trans later.2⟩
          · rw [if_neg empty] at walks
            obtain ⟨freed, adds⟩ := walks
            obtain ⟨last, more, later⟩ := ihRest behind (adds.depth.trans plain)
              (by rw [freed]; intro _ none; cases none)
            refine ⟨last, walk_block opens run closes more, ?_⟩
            unfold Walks at later ⊢
            rw [freed] at later
            rw [slot]
            dsimp only at later ⊢
            rw [shown, reopened, if_neg empty, if_neg (by simp [empty])]
            exact ⟨later.1, adds.trans later.2⟩

end Texo.Extract
