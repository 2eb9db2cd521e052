import Texo.Extract.Words
import Texo.Foundation.Folds
import Texo.Foundation.Search

/-! # Managed blocks

An installer keeps a block between two markers in a file of the user: it takes the old block out
and writes the new one at the end. The text around a block is kept but for its white space.
-/
namespace Texo.Install
open Texo.Extract Texo.Foundation

/-- `config_error`. -/
structure ConfigError where
  path : String
  detail : String
deriving DecidableEq, Repr

/-- `AGENT_GUIDE_PATH`. -/
def agentGuidePath : String := "AGENTS.md"

/-- `CODEX_CONFIG_PATH`. -/
def codexConfigPath : String := ".codex/config.toml"

/-- The two markers of a block. Each of them is one line, and neither the end marker nor a part of it
is found where the start marker stands. -/
structure Markers where
  start : List Char
  finish : List Char
  startLine : '\n' ∉ start
  finishLine : '\n' ∉ finish
  startSome : start ≠ []
  finishSome : finish ≠ []
  disjoint : ¬finish <:+: start
  apart : ∀ tail ∈ start.tails, tail ≠ [] → ¬tail <+: finish

/-- `str::trim_end`. -/
def trimEnd (text : List Char) : List Char := trimEndMatches isWhitespace text

/-- `str::trim_start_matches(['\r', '\n'])`. -/
def trimLineBreaks (text : List Char) : List Char :=
  text.dropWhile fun c => c = '\r' ∨ c = '\n'

/-- The text of `strip_marked_block` without a block that stood between two texts. -/
def withoutBlock (before behind : List Char) : List Char :=
  let without := trimEnd before
  let without := if without.isEmpty then without else without ++ ['\n']
  without ++ trimLineBreaks behind

/-- `strip_marked_block`. -/
def stripMarkedBlock (input start finish : List Char) : Except ConfigError (List Char × Bool) :=
  match splitOnce start input with
  | none =>
    if finish <:+: input then
      .error ⟨agentGuidePath, "orphaned managed end marker"⟩
    else
      .ok (input, false)
  | some (before, rest) =>
    -- The end marker is looked for from the start marker on.
    match splitOnce finish (start ++ rest) with
    | none => .error ⟨agentGuidePath, "unterminated managed marker block"⟩
    | some (_, behind) =>
      if start <:+: behind then
        .error ⟨agentGuidePath, "multiple managed marker blocks"⟩
      else
        .ok (withoutBlock before behind, true)

/-- `append_block`. -/
def appendBlock (existing block : List Char) : List Char :=
  let out := trimEnd existing
  let out := if out.isEmpty then out else out ++ ['\n', '\n']
  out ++ block ++ ['\n']

/-- A body between its markers. -/
def Markers.block (markers : Markers) (body : List Char) : List Char :=
  markers.start ++ '\n' :: (body ++ '\n' :: markers.finish)

/-- A file with its block replaced: what `upsert_agent_guide` and `merge_codex_adapter` write. -/
def Markers.install (markers : Markers) (body existing : List Char) :
    Except ConfigError (List Char) := do
  let (without, _) ← stripMarkedBlock existing markers.start markers.finish
  .ok (appendBlock without (markers.block body))

/-- The markers of the agent guide. -/
def agentMarkers : Markers where
  start := "<!-- texo:install:start -->".toList
  finish := "<!-- texo:install:end -->".toList
  startLine := by decide
  finishLine := by decide
  startSome := by decide
  finishSome := by decide
  disjoint := by decide +kernel
  apart := by decide +kernel

/-- The markers of the codex configuration. -/
def codexMarkers : Markers where
  start := "# texo:install:codex:start".toList
  finish := "# texo:install:codex:end".toList
  startLine := by decide
  finishLine := by decide
  startSome := by decide
  finishSome := by decide
  disjoint := by decide +kernel
  apart := by decide +kernel

/-- `ChangeAction`. -/
inductive ChangeAction where
  | created
  | updated
  | unchanged
  | removed
deriving DecidableEq, Repr

/-- `classify_bytes`. -/
def classifyBytes (file : Option (List Char)) (wanted : List Char) : ChangeAction :=
  match file with
  | none => .created
  | some existing => if existing = wanted then .unchanged else .updated

/-- A file after it was written, where it differs and the run is not a dry one. -/
def written (file : Option (List Char)) (wanted : List Char) (dryRun : Bool) :
    Option (List Char) :=
  if !dryRun ∧ classifyBytes file wanted ≠ .unchanged then some wanted else file

/-- A run that is not a dry one leaves what it wants. -/
theorem written_wanted (file : Option (List Char)) (wanted : List Char) :
    written file wanted false = some wanted := by
  unfold written classifyBytes
  cases file with
  | none => rfl
  | some existing =>
    by_cases same : existing = wanted
    · rw [same]
      simp
    · simp [same]

/-- The body of the agent guide. -/
def guideBody (workspaceId : String) : List Char :=
  ("## Texo agent context\n\nWorkspace: " ++ String.singleton (Char.ofNat 96) ++ workspaceId ++
    String.singleton (Char.ofNat 96) ++ ". Start with the " ++ quoted "get_agent_context" ++
    " MCP tool before answering from project knowledge. Reuse its snapshot token with " ++
    quoted "search_knowledge" ++ ", " ++ quoted "explain_knowledge" ++ ", and " ++
    quoted "triangulate" ++ " so one investigation stays on one frontier. Inspect coverage " ++
    "before treating absence as evidence. Absence of a relation verdict never means unrelated. " ++
    "Texo MCP tools are local and read-only.").toList
where
  quoted (name : String) : String :=
    String.singleton (Char.ofNat 96) ++ name ++ String.singleton (Char.ofNat 96)

/-- `upsert_agent_guide`: what it reports and the file it leaves. -/
def upsertAgentGuide (file : Option (List Char)) (workspaceId : String) (dryRun : Bool) :
    Except ConfigError (ChangeAction × Option (List Char)) := do
  let wanted ← agentMarkers.install (guideBody workspaceId) (file.getD [])
  let left := written file wanted dryRun
  .ok (if left.isSome then classifyBytes file wanted else .created, left)

/-- The reader of a TOML text: whether it has an entry for the server. -/
class TomlReader where
  hasServer : List Char → Except String Bool

/-- `escape_toml`. -/
def escapeToml (value : List Char) : List Char :=
  value.flatMap fun c => if c.toNat = 92 ∨ c.toNat = 34 then [Char.ofNat 92, c] else [c]

/-- The body of the codex block. -/
def codexBody (workspaceId : String) (journalId : Option String) : List Char :=
  ("[mcp_servers.texo]\ncommand = \"texo\"\n" ++
    "args = [\"--root\", \".\", \"--workspace\", \"").toList ++
    escapeToml workspaceId.toList ++ "\"".toList ++
    journalId.elim [] (fun journalId =>
      ", \"--journal\", \"".toList ++ escapeToml journalId.toList ++ "\"".toList) ++
    ", \"mcp\"]".toList

/-- The check of `merge_codex_adapter` on the text around the block. -/
def checkCodexText [TomlReader] (without : List Char) : Except ConfigError Unit :=
  if (trim without).isEmpty then
    .ok ()
  else
    match TomlReader.hasServer without with
    | .error detail => .error ⟨codexConfigPath, detail⟩
    | .ok true =>
      .error ⟨codexConfigPath, "existing mcp_servers.texo is outside the managed block"⟩
    | .ok false => .ok ()

/-- `merge_codex_adapter`: what it reports and the file it leaves. -/
def mergeCodexAdapter [TomlReader] (file : Option (List Char)) (workspaceId : String)
    (journalId : Option String) (dryRun : Bool) :
    Except ConfigError (ChangeAction × Option (List Char)) := do
  let (without, hadMarker) ←
    stripMarkedBlock (file.getD []) codexMarkers.start codexMarkers.finish
  checkCodexText without
  let wanted := appendBlock without (codexMarkers.block (codexBody workspaceId journalId))
  let left := written file wanted dryRun
  .ok (if left.isNone ∧ !hadMarker then .created else classifyBytes file wanted, left)

/-- `remove_marked_block`: what it reports and the file it leaves. -/
def removeMarkedBlock (markers : Markers) (file : Option (List Char)) (removeEmpty dryRun : Bool) :
    Except ConfigError (Option ChangeAction × Option (List Char)) := do
  let (without, hadMarker) ← stripMarkedBlock (file.getD []) markers.start markers.finish
  if !hadMarker then
    .ok (none, file)
  else if dryRun then
    .ok (some .removed, file)
  else if removeEmpty ∧ (trim without).isEmpty then
    .ok (some .removed, none)
  else
    .ok (some .removed, some without)

/-- White space at the end is trimmed. -/
theorem trimEnd_append (text : List Char) {white : List Char}
    (blank : ∀ c ∈ white, isWhitespace c = true) : trimEnd (text ++ white) = trimEnd text := by
  unfold trimEnd trimEndMatches
  rw [List.reverse_append, List.dropWhile_append_of_pos]
  intro c member
  exact blank c (List.mem_reverse.mp member)

/-- A text is what trimming leaves of it and white space. -/
theorem trimEnd_split (text : List Char) :
    ∃ white, text = trimEnd text ++ white ∧ ∀ c ∈ white, isWhitespace c = true := by
  refine ⟨(text.reverse.takeWhile isWhitespace).reverse, ?_, ?_⟩
  · unfold trimEnd trimEndMatches
    rw [← List.reverse_append, List.takeWhile_append_dropWhile, List.reverse_reverse]
  · intro c member
    exact List.all_eq_true.mp List.all_takeWhile c (List.mem_reverse.mp member)

/-- Trimming twice is trimming once. -/
theorem trimEnd_trimEnd (text : List Char) : trimEnd (trimEnd text) = trimEnd text := by
  obtain ⟨white, split, blank⟩ := trimEnd_split text
  have trimmed := trimEnd_append (trimEnd text) blank
  rw [← split] at trimmed
  exact trimmed.symm

/-- What trimming leaves is found in the text. -/
theorem infix_trimEnd (text : List Char) : trimEnd text <:+: text := by
  obtain ⟨white, split, _⟩ := trimEnd_split text
  exact ⟨[], white, by rw [List.nil_append]; exact split.symm⟩

/-- What line breaks are trimmed from is found in the text. -/
theorem infix_trimLineBreaks (text : List Char) : trimLineBreaks text <:+: text :=
  (List.dropWhile_suffix _).isInfix

/-- Taking a block out puts no line into the text that was not in it. -/
theorem line_notIn_withoutBlock {line before behind : List Char} (single : '\n' ∉ line)
    (absentBefore : ¬line <:+: before) (absentBehind : ¬line <:+: behind) :
    ¬line <:+: withoutBlock before behind := by
  intro found
  unfold withoutBlock at found
  dsimp only at found
  split at found
  · rename_i empty
    rw [List.isEmpty_iff.mp empty, List.nil_append] at found
    exact absentBehind (found.trans (infix_trimLineBreaks behind))
  · rw [List.append_assoc, List.singleton_append] at found
    rcases infix_around single found with early | late
    · exact absentBefore (early.trans (infix_trimEnd before))
    · exact absentBehind (late.trans (infix_trimLineBreaks behind))

/-- Where the block of a text stands: between the first start marker and the first end marker behind
it, with no start marker behind the block. -/
structure BlockAt (markers : Markers) (text before inner behind : List Char) : Prop where
  whole : text = before ++ (markers.start ++ (inner ++ (markers.finish ++ behind)))
  first : ∀ early late, text = early ++ (markers.start ++ late) → before.length ≤ early.length
  ends : ∀ early late, inner ++ (markers.finish ++ behind) = early ++ (markers.finish ++ late) →
    inner.length ≤ early.length
  last : ¬markers.start <:+: behind

/-- The start marker is not found before the block. -/
theorem BlockAt.notBefore {markers : Markers} {text before inner behind : List Char}
    (block : BlockAt markers text before inner behind) : ¬markers.start <:+: before :=
  notInfix_front markers.startSome block.whole block.first

/-- The end marker that is found from a start marker on stands behind it. -/
theorem Markers.finish_behind (markers : Markers) {rest inside behind : List Char}
    (cut : splitOnce markers.finish (markers.start ++ rest) = some (inside, behind)) :
    ∃ inner, inside = markers.start ++ inner ∧ rest = inner ++ (markers.finish ++ behind) ∧
      ∀ early late, rest = early ++ (markers.finish ++ late) → inner.length ≤ early.length := by
  have whole := splitOnce_eq cut
  have reaches : markers.start <+: inside := by
    by_contra short
    have both : inside <+: markers.start ++ rest := ⟨_, whole.symm⟩
    rcases List.prefix_or_prefix_of_prefix (List.prefix_append markers.start rest) both with
      inFront | inStart
    · exact short inFront
    · -- The end marker would begin within the start marker.
      obtain ⟨tail, split⟩ := inStart
      have nonempty : tail ≠ [] := by
        intro empty
        rw [empty, List.append_nil] at split
        exact short (by rw [split])
      rw [← split, List.append_assoc] at whole
      have tails : tail ++ rest = markers.finish ++ behind := List.append_cancel_left whole
      have member : tail ∈ markers.start.tails :=
        (List.mem_tails _ _).mpr ⟨inside, split⟩
      have lead : markers.finish <+: tail ++ rest := ⟨behind, tails.symm⟩
      rcases List.prefix_or_prefix_of_prefix (List.prefix_append tail rest) lead with within | covers
      · exact markers.apart tail member nonempty within
      · exact markers.disjoint (covers.isInfix.trans ⟨inside, [], by rw [List.append_nil]; exact split⟩)
  obtain ⟨inner, split⟩ := reaches
  rw [← split, List.append_assoc] at whole
  refine ⟨inner, split.symm, List.append_cancel_left whole, ?_⟩
  intro early late found
  have bound : inside.length ≤ (markers.start ++ early).length := by
    apply splitOnce_first cut
    rw [found, List.append_assoc]
  rw [← split, List.length_append, List.length_append] at bound
  exact Nat.le_of_add_le_add_left bound

/-- A block is taken out of the text it stands in. -/
theorem BlockAt.stripped {markers : Markers} {text before inner behind : List Char}
    (block : BlockAt markers text before inner behind) :
    stripMarkedBlock text markers.start markers.finish =
      .ok (withoutBlock before behind, true) := by
  have opens : splitOnce markers.start text =
      some (before, inner ++ (markers.finish ++ behind)) := by
    have first := block.first
    rw [block.whole] at first ⊢
    exact splitOnce_append markers.startSome first
  have closes : splitOnce markers.finish
      (markers.start ++ (inner ++ (markers.finish ++ behind))) =
        some (markers.start ++ inner, behind) := by
    have found : markers.finish <:+: markers.start ++ (inner ++ (markers.finish ++ behind)) :=
      ⟨markers.start ++ inner, behind, by simp only [List.append_assoc]⟩
    cases cut : splitOnce markers.finish
        (markers.start ++ (inner ++ (markers.finish ++ behind))) with
    | none => exact absurd found ((splitOnce_eq_none markers.finishSome).mp cut)
    | some parts =>
      obtain ⟨inside, after⟩ := parts
      obtain ⟨inner', lead, split, first⟩ := markers.finish_behind cut
      have above := block.ends inner' after split
      have below := first inner behind rfl
      obtain ⟨same, tails⟩ := List.append_inj split (Nat.le_antisymm above below)
      rw [lead, ← same, List.append_cancel_left tails]
  unfold stripMarkedBlock
  simp only [opens, closes]
  rw [if_neg block.last]

/-- The spec of taking a block out: a text without markers is kept, and a block leaves the texts
around it. Every other text is refused. -/
theorem stripMarkedBlock_eq_ok {markers : Markers} {text without : List Char} {had : Bool} :
    stripMarkedBlock text markers.start markers.finish = .ok (without, had) ↔
      (¬markers.start <:+: text ∧ ¬markers.finish <:+: text ∧ without = text ∧ had = false) ∨
        ∃ before inner behind, BlockAt markers text before inner behind ∧
          without = withoutBlock before behind ∧ had = true := by
  constructor
  · intro stripped
    unfold stripMarkedBlock at stripped
    split at stripped
    · rename_i absent
      split at stripped
      · cases stripped
      · rename_i orphan
        cases stripped
        exact Or.inl ⟨(splitOnce_eq_none markers.startSome).mp absent, orphan, rfl, rfl⟩
    · rename_i before rest opens
      split at stripped
      · cases stripped
      · rename_i inside behind closes
        split at stripped
        · cases stripped
        · rename_i last
          cases stripped
          obtain ⟨inner, _, split, ends⟩ := markers.finish_behind closes
          refine Or.inr ⟨before, inner, behind, ⟨?_, ?_, ?_, last⟩, rfl, rfl⟩
          · rw [splitOnce_eq opens, split]
          · intro early late found
            exact splitOnce_first opens found
          · rw [← split]
            exact ends
  · rintro (⟨absent, orphan, same, had⟩ | ⟨before, inner, behind, block, same, had⟩)
    · unfold stripMarkedBlock
      simp only [(splitOnce_eq_none markers.startSome).mpr absent]
      rw [if_neg orphan, same, had]
    · rw [block.stripped, same, had]

/-- No start marker is left where a block was taken out. -/
theorem stripMarkedBlock_clear {markers : Markers} {text without : List Char} {had : Bool}
    (stripped : stripMarkedBlock text markers.start markers.finish = .ok (without, had)) :
    ¬markers.start <:+: without := by
  rcases stripMarkedBlock_eq_ok.mp stripped with
    ⟨absent, _, same, _⟩ | ⟨before, inner, behind, block, same, _⟩
  · rw [same]
    exact absent
  · rw [same]
    exact line_notIn_withoutBlock markers.startLine block.notBefore block.last

/-- The text in front of an appended block. -/
def frontOf (existing : List Char) : List Char :=
  if (trimEnd existing).isEmpty then [] else trimEnd existing ++ ['\n', '\n']

/-- An appended block stands behind its front. -/
theorem appendBlock_eq (existing block : List Char) :
    appendBlock existing block = frontOf existing ++ (block ++ ['\n']) := by
  unfold appendBlock frontOf
  dsimp only
  split
  · rename_i empty
    rw [List.isEmpty_iff.mp empty, List.append_assoc]
  · simp only [List.append_assoc]

/-- Line breaks are white space. -/
theorem lineBreaks_blank : ∀ c ∈ ['\n', '\n'], isWhitespace c = true := by
  intro c member
  have same : c = '\n' := by simpa using member
  rw [same]
  decide

/-- The front is the text that was there, up to its trailing white space. -/
theorem trimEnd_frontOf (existing : List Char) : trimEnd (frontOf existing) = trimEnd existing := by
  unfold frontOf
  split
  · rename_i empty
    rw [List.isEmpty_iff.mp empty]
    rfl
  · rw [trimEnd_append _ lineBreaks_blank, trimEnd_trimEnd]

/-- What is left when an appended block is taken out again. -/
theorem withoutBlock_frontOf (existing : List Char) :
    trimEnd (withoutBlock (frontOf existing) ['\n']) = trimEnd existing := by
  have breaks : trimLineBreaks ['\n'] = [] := by decide
  unfold withoutBlock
  dsimp only
  rw [trimEnd_frontOf, breaks, List.append_nil]
  split
  · exact trimEnd_trimEnd existing
  · have blank : ∀ c ∈ ['\n'], isWhitespace c = true := fun c member =>
      lineBreaks_blank c (List.mem_cons_of_mem _ member)
    rw [trimEnd_append _ blank, trimEnd_trimEnd]

/-- The front depends on the text up to its trailing white space. -/
theorem frontOf_congr {existing existing' : List Char}
    (same : trimEnd existing = trimEnd existing') : frontOf existing = frontOf existing' := by
  unfold frontOf
  rw [same]

/-- An appended block stands where it was appended. -/
theorem Markers.appended (markers : Markers) {existing body : List Char}
    (absent : ¬markers.start <:+: existing) (clear : ¬markers.finish <:+: body) :
    BlockAt markers (appendBlock existing (markers.block body)) (frontOf existing)
      ('\n' :: (body ++ ['\n'])) ['\n'] := by
  have notEmpty : ∀ {line : List Char}, line ≠ [] → ¬line <:+: [] := fun nonempty inside =>
    nonempty (List.eq_nil_of_infix_nil inside)
  have whole : appendBlock existing (markers.block body) = frontOf existing ++
      (markers.start ++ ('\n' :: (body ++ ['\n']) ++ (markers.finish ++ ['\n']))) := by
    rw [appendBlock_eq, Markers.block]
    simp only [List.append_assoc, List.cons_append, List.nil_append]
  refine ⟨whole, ?_, ?_, ?_⟩
  · intro early late found
    rw [whole] at found
    unfold frontOf at found ⊢
    split
    · exact Nat.zero_le _
    · rename_i some
      rw [if_neg some] at found
      have above : ¬markers.start <:+: trimEnd existing ++ ['\n'] := by
        intro inside
        rcases infix_around markers.startLine inside with front | back
        · exact absent (front.trans (infix_trimEnd existing))
        · exact notEmpty markers.startSome back
      have cut := splitOnce_behind markers.startSome markers.startLine above
        ('\n' :: (body ++ ['\n']) ++ (markers.finish ++ ['\n']))
      have bound := splitOnce_first cut (by
        rw [← found]
        simp only [List.append_assoc, List.cons_append, List.nil_append])
      simpa only [List.append_assoc, List.cons_append, List.nil_append] using bound
  · intro early late found
    have above : ¬markers.finish <:+: '\n' :: body := by
      intro inside
      rcases @infix_around _ _ [] _ _ markers.finishLine inside with front | back
      · exact notEmpty markers.finishSome front
      · exact clear back
    have cut := splitOnce_behind markers.finishSome markers.finishLine above ['\n']
    have bound := splitOnce_first cut (by
      rw [← found]
      simp only [List.append_assoc, List.cons_append, List.nil_append])
    simpa only [List.cons_append] using bound
  · intro inside
    rcases @infix_around _ _ [] _ _ markers.startLine inside with front | back
    · exact notEmpty markers.startSome front
    · exact notEmpty markers.startSome back

/-- The text without its white space. -/
def visible (text : List Char) : List Char := text.filter fun c => !isWhitespace c

/-- What is visible in two texts is visible in both together. -/
theorem visible_append (front back : List Char) :
    visible (front ++ back) = visible front ++ visible back := List.filter_append _ _

/-- White space alone is not visible. -/
theorem visible_white {white : List Char} (blank : ∀ c ∈ white, isWhitespace c = true) :
    visible white = [] := by
  apply List.filter_eq_nil_iff.mpr
  intro c member
  rw [blank c member]
  decide

/-- Trimming keeps what is visible. -/
theorem visible_trimEnd (text : List Char) : visible (trimEnd text) = visible text := by
  obtain ⟨white, split, blank⟩ := trimEnd_split text
  have parts : visible text = visible (trimEnd text) ++ visible white := by
    rw [← visible_append, ← split]
  rw [parts, visible_white blank, List.append_nil]

/-- Taking a block out keeps what is visible around it. -/
theorem visible_withoutBlock (before behind : List Char) :
    visible (withoutBlock before behind) = visible before ++ visible behind := by
  have breaks : visible (trimLineBreaks behind) = visible behind := by
    have split : behind = behind.takeWhile (fun c => c = '\r' ∨ c = '\n') ++
        trimLineBreaks behind := List.takeWhile_append_dropWhile.symm
    have blank : ∀ c ∈ behind.takeWhile (fun c => c = '\r' ∨ c = '\n'),
        isWhitespace c = true := by
      intro c member
      have either := List.all_eq_true.mp List.all_takeWhile c member
      rcases of_decide_eq_true either with rfl | rfl <;> decide
    have parts := congrArg visible split
    rw [visible_append, visible_white blank, List.nil_append] at parts
    exact parts.symm
  have front : visible (if (trimEnd before).isEmpty then trimEnd before
      else trimEnd before ++ ['\n']) = visible before := by
    split
    · exact visible_trimEnd before
    · have none : visible ['\n'] = [] := by decide
      rw [visible_append, visible_trimEnd, none, List.append_nil]
  unfold withoutBlock
  dsimp only
  rw [visible_append, front, breaks]

/-- Installing succeeds exactly where the old block can be taken out, and appends the new one. -/
theorem Markers.install_eq_ok {markers : Markers} {body existing once : List Char} :
    markers.install body existing = .ok once ↔
      ∃ without had, stripMarkedBlock existing markers.start markers.finish = .ok (without, had) ∧
        appendBlock without (markers.block body) = once := by
  unfold Markers.install
  simp only [bind_eq_ok, Prod.exists, Except.ok.injEq]

/-- Taking out what was installed leaves the text it was installed in, up to white space. -/
theorem Markers.strip_installed {markers : Markers} {body without : List Char}
    (absent : ¬markers.start <:+: without) (clear : ¬markers.finish <:+: body) :
    stripMarkedBlock (appendBlock without (markers.block body)) markers.start markers.finish =
      .ok (withoutBlock (frontOf without) ['\n'], true) :=
  (markers.appended absent clear).stripped

/-- Installing again changes nothing. -/
theorem Markers.install_again (markers : Markers) {body existing once : List Char}
    (clear : ¬markers.finish <:+: body) (installed : markers.install body existing = .ok once) :
    markers.install body once = .ok once := by
  obtain ⟨without, had, stripped, same⟩ := Markers.install_eq_ok.mp installed
  have again := markers.strip_installed (stripMarkedBlock_clear stripped) clear
  rw [same] at again
  refine Markers.install_eq_ok.mpr ⟨_, true, again, ?_⟩
  rw [← same, appendBlock_eq, appendBlock_eq, frontOf_congr (withoutBlock_frontOf without)]

/-- A run that installed the guide leaves a file that the next run does not change. -/
theorem upsertAgentGuide_again {file left : Option (List Char)} {workspaceId : String}
    {action : ChangeAction} (clear : ¬agentMarkers.finish <:+: guideBody workspaceId)
    (installed : upsertAgentGuide file workspaceId false = .ok (action, left)) :
    upsertAgentGuide left workspaceId false = .ok (.unchanged, left) := by
  unfold upsertAgentGuide at installed
  obtain ⟨wanted, made, rest⟩ := bind_eq_ok.mp installed
  have leaves : written file wanted false = left := congrArg Prod.snd (Except.ok.inj rest)
  rw [written_wanted] at leaves
  have again := agentMarkers.install_again clear made
  have same : classifyBytes (some wanted) wanted = .unchanged := if_pos rfl
  unfold upsertAgentGuide
  rw [← leaves, Option.getD_some, again]
  show Except.ok _ = Except.ok _
  unfold written
  rw [same]
  rfl

/-- Removing the block of the guide leaves the text it was installed in, up to trailing white
space. -/
theorem removeMarkedBlock_installed {markers : Markers} {body existing once : List Char}
    (absent : ¬markers.start <:+: existing) (orphan : ¬markers.finish <:+: existing)
    (clear : ¬markers.finish <:+: body) (installed : markers.install body existing = .ok once) :
    ∃ back, removeMarkedBlock markers (some once) false false = .ok (some .removed, some back) ∧
      trimEnd back = trimEnd existing := by
  obtain ⟨without, had, stripped, same⟩ := Markers.install_eq_ok.mp installed
  have kept : stripMarkedBlock existing markers.start markers.finish = .ok (existing, false) :=
    stripMarkedBlock_eq_ok.mpr (Or.inl ⟨absent, orphan, rfl, rfl⟩)
  have whole : existing = without := congrArg Prod.fst (Except.ok.inj (kept.symm.trans stripped))
  have again := @Markers.strip_installed markers body existing absent clear
  rw [whole] at again
  rw [same] at again
  refine ⟨_, ?_, withoutBlock_frontOf existing⟩
  unfold removeMarkedBlock
  rw [Option.getD_some, again, whole]
  rfl

/-- What the codex adapter writes is an installed block. -/
theorem mergeCodexAdapter_installs [TomlReader] {file left : Option (List Char)}
    {workspaceId : String} {journalId : Option String} {action : ChangeAction}
    (merged : mergeCodexAdapter file workspaceId journalId false = .ok (action, left)) :
    ∃ once, codexMarkers.install (codexBody workspaceId journalId) (file.getD []) = .ok once ∧
      left = some once := by
  unfold mergeCodexAdapter at merged
  obtain ⟨⟨without, had⟩, stripped, merged⟩ := bind_eq_ok.mp merged
  obtain ⟨_, _, merged⟩ := bind_eq_ok.mp merged
  have leaves := congrArg Prod.snd (Except.ok.inj merged)
  have wanted := written_wanted file
    (appendBlock without (codexMarkers.block (codexBody workspaceId journalId)))
  exact ⟨_, Markers.install_eq_ok.mpr ⟨without, had, stripped, rfl⟩, leaves.symm.trans wanted⟩

end Texo.Install
