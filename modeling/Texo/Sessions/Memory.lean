import Texo.Claims.Workspace
import Texo.Semantics.Chat

/-! # Agent memory

The memory snapshot of a workspace view and the system prompt written from it. Texts and paths go
into the prompt as they are, so a line feed in one of them breaks its line.
-/
namespace Texo.Sessions
open Texo.Claims Texo.Semantics

/-- `claim_text`. -/
def claimText (view : WorkspaceView) (claimId : String) : String :=
  ((view.claims.find? fun claim => claim.card.claimId = claimId).map fun claim =>
    claim.card.text).getD ""

/-- The memory of a current claim. -/
def memoryClaim (claim : Claims.ClaimView) : MemoryClaim where
  claimId := claim.card.claimId
  text := claim.card.text
  sourcePath := claim.card.sourcePath
  line := claim.card.lineStart
  charStart := claim.card.charStart
  charEnd := claim.card.charEnd

/-- The memory of a superseded claim, if it names its successor. -/
def staleMemory (view : WorkspaceView) (claim : Claims.ClaimView) : Option StaleMemory :=
  claim.card.supersededBy.map fun supersededBy =>
    { claimId := claim.card.claimId
      text := claim.card.text
      supersededBy := supersededBy
      supersededByText := claimText view supersededBy }

/-- The memory of an open conflict. -/
def memoryConflict (view : WorkspaceView) (conflict : ConflictCard) : MemoryConflict where
  claimAText := claimText view conflict.claimA
  claimBText := claimText view conflict.claimB
  reason := conflict.reason

/-- The claims of a view that are not superseded. -/
def currentClaims (view : WorkspaceView) : List Claims.ClaimView :=
  view.claims.filter fun claim => claim.card.phase ≠ 2

/-- The superseded claims of a view. -/
def supersededClaims (view : WorkspaceView) : List Claims.ClaimView :=
  view.claims.filter fun claim => claim.card.phase = 2

/-- The open conflicts of a view. -/
def openConflicts (view : WorkspaceView) : List ConflictCard :=
  view.conflicts.filter fun conflict => conflict.phase = 1

/-- `memory_snapshot`. -/
def memorySnapshot (view : WorkspaceView) : MemorySnapshot where
  workspaceId := view.workspaceId
  replayedThroughSequence := view.frontier
  current := (currentClaims view).map memoryClaim
  stale := (supersededClaims view).filterMap (staleMemory view)
  conflicts := (openConflicts view).map (memoryConflict view)

/-- The system prompt of a view. -/
def systemPrompt (view : WorkspaceView) : String := buildSystemPrompt (memorySnapshot view)

/-- The text of what replaced a claim. -/
def replacementText (view : WorkspaceView) (claim : Claims.ClaimView) : String :=
  claim.card.supersededBy.elim "" (claimText view)

/-- The line owed to a superseded claim. -/
def outdatedLine (view : WorkspaceView) (claim : Claims.ClaimView) : String :=
  "- \"" ++ claim.card.text ++ "\" — superseded by: \"" ++ replacementText view claim ++ "\""

/-- Each section of the prompt has exactly one line for each of its items. -/
structure PromptSections (view : WorkspaceView) : Prop where
  trusted : promptSection (systemPrompt view) currentMemoryHeader =
    sectionLines emptyMemoryLine
      ((currentClaims view).map fun claim => memoryLine (memoryClaim claim))
  outdated : promptSection (systemPrompt view) outdatedMemoryHeader =
    sectionLines noStaleLine ((supersededClaims view).map (outdatedLine view))
  conflicting : promptSection (systemPrompt view) conflictMemoryHeader =
    (conflictPart ((openConflicts view).map fun conflict =>
      conflictLine (memoryConflict view conflict))).drop 1

/-- What the prompt writes holds no line feed, and each superseded claim names its successor. -/
structure Printable (view : WorkspaceView) : Prop where
  current : ∀ claim ∈ currentClaims view,
    '\n' ∉ claim.card.text.toList ∧ '\n' ∉ claim.card.sourcePath.toList
  superseded : ∀ claim ∈ supersededClaims view,
    '\n' ∉ claim.card.text.toList ∧ '\n' ∉ (replacementText view claim).toList
  named : ∀ claim ∈ supersededClaims view, claim.card.supersededBy.isSome = true
  conflicts : ∀ conflict ∈ openConflicts view,
    '\n' ∉ (claimText view conflict.claimA).toList ∧ '\n' ∉ (claimText view conflict.claimB).toList

/-- The line written for a superseded claim that names its successor is the one owed. -/
theorem staleLine_of_staleMemory {view : WorkspaceView} {claim : Claims.ClaimView}
    {stale : StaleMemory}
    (found : staleMemory view claim = some stale) : staleLine stale = outdatedLine view claim := by
  unfold staleMemory at found
  obtain ⟨successor, named, same⟩ := Option.map_eq_some_iff.mp found
  rw [← same]
  unfold staleLine outdatedLine replacementText
  rw [named]
  rfl

/-- A memory is there exactly when the claim names its successor. -/
theorem isSome_staleMemory (view : WorkspaceView) (claim : Claims.ClaimView) :
    (staleMemory view claim).isSome = claim.card.supersededBy.isSome :=
  Option.isSome_map

/-- The lines written for superseded claims that all name their successors. -/
theorem staleLines_named {view : WorkspaceView} (claims : List Claims.ClaimView)
    (named : ∀ claim ∈ claims, claim.card.supersededBy.isSome = true) :
    (claims.filterMap (staleMemory view)).map staleLine = claims.map (outdatedLine view) := by
  induction claims with
  | nil => rfl
  | cons claim claims ih =>
    have here := named claim List.mem_cons_self
    rw [← isSome_staleMemory view] at here
    obtain ⟨stale, found⟩ := Option.isSome_iff_exists.mp here
    have later := ih fun other member => named other (List.mem_cons_of_mem _ member)
    rw [List.filterMap_cons_some found, List.map_cons, List.map_cons, later,
      staleLine_of_staleMemory found]

/-- A snapshot is written in single lines where the lines owed are. -/
theorem oneLine_of_owed {view : WorkspaceView}
    (current : ∀ claim ∈ currentClaims view, '\n' ∉ (memoryLine (memoryClaim claim)).toList)
    (superseded : ∀ claim ∈ supersededClaims view, '\n' ∉ (outdatedLine view claim).toList)
    (conflicts : ∀ conflict ∈ openConflicts view,
      '\n' ∉ (conflictLine (memoryConflict view conflict)).toList) :
    (memorySnapshot view).OneLine := by
  refine ⟨?_, ?_, ?_⟩
  · intro claim member
    obtain ⟨source, known, same⟩ := List.mem_map.mp member
    exact same ▸ current source known
  · intro stale member
    obtain ⟨source, known, found⟩ := List.mem_filterMap.mp member
    rw [staleLine_of_staleMemory found]
    exact superseded source known
  · intro conflict member
    obtain ⟨source, known, same⟩ := List.mem_map.mp member
    exact same ▸ conflicts source known

/-- The line owed to a superseded claim breaks exactly where one of its texts does. -/
theorem newline_outdatedLine (view : WorkspaceView) (claim : Claims.ClaimView) :
    '\n' ∈ (outdatedLine view claim).toList ↔
      '\n' ∈ claim.card.text.toList ∨ '\n' ∈ (replacementText view claim).toList :=
  newline_quoted (by decide) claim.card.text (replacementText view claim)

/-- A line of a section is one line. -/
theorem newline_notMem_section {view : WorkspaceView} {heading line : String}
    (member : line ∈ promptSection (systemPrompt view) heading) : '\n' ∉ line.toList :=
  newline_notMem_textLines (Foundation.mem_of_mem_sectionAfter member)

/-- The line that stands for no superseded claim is the line of none. -/
theorem noStaleLine_ne {line : String} (dash : line.toList.head? = some '-') :
    noStaleLine ≠ line := by
  intro same
  rw [← same] at dash
  exact absurd dash (by decide)

/-- What is written of a printable view is written in single lines. -/
theorem Printable.oneLine {view : WorkspaceView} (printable : Printable view) :
    (memorySnapshot view).OneLine := by
  apply oneLine_of_owed
  · intro claim member broken
    have plain := printable.current claim member
    exact ((newline_memoryLine _).mp broken).elim plain.1 plain.2
  · intro claim member broken
    have plain := printable.superseded claim member
    exact ((newline_outdatedLine view claim).mp broken).elim plain.1 plain.2
  · intro conflict member broken
    have plain := printable.conflicts conflict member
    exact ((newline_conflictLine _).mp broken).elim plain.1 plain.2

/-- The sections of the prompt of a printable view. -/
theorem Printable.sections {view : WorkspaceView} (printable : Printable view) :
    PromptSections view where
  trusted := by
    have written := printable.oneLine.trusted
    rw [memorySnapshot, List.map_map] at written
    exact written
  outdated := by
    have written := printable.oneLine.outdated
    rw [memorySnapshot, staleLines_named _ printable.named] at written
    exact written
  conflicting := by
    have written := printable.oneLine.conflicting
    rw [memorySnapshot, List.map_map] at written
    exact written

/-- The lines owed are single lines where the sections hold them. -/
theorem PromptSections.oneLine {view : WorkspaceView} (sections : PromptSections view) :
    (∀ claim ∈ currentClaims view, '\n' ∉ (memoryLine (memoryClaim claim)).toList) ∧
      (∀ claim ∈ supersededClaims view, '\n' ∉ (outdatedLine view claim).toList) ∧
        ∀ conflict ∈ openConflicts view,
          '\n' ∉ (conflictLine (memoryConflict view conflict)).toList := by
  refine ⟨?_, ?_, ?_⟩
  · intro claim member
    apply @newline_notMem_section view
    rw [sections.trusted]
    exact mem_sectionLines (List.mem_map.mpr ⟨claim, member, rfl⟩)
  · intro claim member
    apply @newline_notMem_section view
    rw [sections.outdated]
    exact mem_sectionLines (List.mem_map.mpr ⟨claim, member, rfl⟩)
  · intro conflict member
    apply @newline_notMem_section view
    rw [sections.conflicting]
    have row : conflictLine (memoryConflict view conflict) ∈
        (openConflicts view).map fun conflict => conflictLine (memoryConflict view conflict) :=
      List.mem_map.mpr ⟨conflict, member, rfl⟩
    unfold conflictPart
    split
    · rename_i none
      rw [List.isEmpty_iff.mp none] at row
      cases row
    · rw [List.drop_one, List.tail_cons]
      exact List.mem_append_left _ row

/-- Every superseded claim has its line only if each names its successor. -/
theorem PromptSections.named {view : WorkspaceView} (sections : PromptSections view) :
    ∀ claim ∈ supersededClaims view, claim.card.supersededBy.isSome = true := by
  obtain ⟨current, superseded, conflicts⟩ := sections.oneLine
  have written := (oneLine_of_owed current superseded conflicts).outdated
  have owed := sections.outdated
  rw [systemPrompt, written] at owed
  have first : noStaleLine ∉ (memorySnapshot view).stale.map staleLine := by
    intro member
    obtain ⟨stale, _, same⟩ := List.mem_map.mp member
    refine noStaleLine_ne ?_ same.symm
    unfold staleLine
    simp only [String.toList_append]
    rfl
  have second : noStaleLine ∉ (supersededClaims view).map (outdatedLine view) := by
    intro member
    obtain ⟨claim, _, same⟩ := List.mem_map.mp member
    refine noStaleLine_ne ?_ same.symm
    unfold outdatedLine
    simp only [String.toList_append]
    rfl
  have lengths := congrArg List.length (sectionLines_inj first second owed)
  rw [List.length_map, List.length_map] at lengths
  intro claim member
  rw [← isSome_staleMemory view]
  exact List.filterMap_length_eq_length.mp lengths claim member

/-- The system prompt. For every workspace view, each section of its prompt has exactly one line
for each of its items, if and only if no text, path or replacement text it writes holds a line
feed and each superseded claim names its successor. -/
theorem promptSections_iff (view : WorkspaceView) : PromptSections view ↔ Printable view := by
  constructor
  · intro sections
    obtain ⟨current, superseded, conflicts⟩ := sections.oneLine
    constructor
    · intro claim member
      exact not_or.mp fun broken => current claim member ((newline_memoryLine _).mpr broken)
    · intro claim member
      exact not_or.mp fun broken =>
        superseded claim member ((newline_outdatedLine view claim).mpr broken)
    · exact sections.named
    · intro conflict member
      exact not_or.mp fun broken =>
        conflicts conflict member ((newline_conflictLine _).mpr broken)
  · exact Printable.sections

/-- A recorded claim of a demonstration. -/
def demoMemory (claimId text : String) (phase : Nat) (supersededBy : Option String) :
    Claims.ClaimView where
  card :=
    { phase, claimId, text, supersededBy
      sourcePath := "notes.md"
      lineStart := 1 }
  status := .current
  supersedes := []

/-- A view whose current claim has a text of two lines, the second one the text of the claim that
it replaced. -/
def brokenView : WorkspaceView where
  workspaceId := "demo"
  frontier := 3
  freshness := .fresh
  claims :=
    [demoMemory "claim_bbbbbbbbbbbb" "Deploys moved to Tuesday.\n- Deploys happen on Friday." 1
        none,
      demoMemory "claim_aaaaaaaaaaaa" "Deploys happen on Friday." 2 (some "claim_bbbbbbbbbbbb")]
  conflicts := []
  sources := []

/-- The trusted section of that view has two lines for its one current claim. -/
theorem promptSections_broken : ¬ PromptSections brokenView := by
  intro sections
  have single := sections.oneLine.1 (demoMemory "claim_bbbbbbbbbbbb"
    "Deploys moved to Tuesday.\n- Deploys happen on Friday." 1 none) (by decide)
  exact single (by decide)

end Texo.Sessions
