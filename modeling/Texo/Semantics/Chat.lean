import Texo.Foundation.Fields
import Texo.Foundation.Sections
import Texo.Error
import Texo.Extract.Words

/-! # Chat requests

The system prompt is written from the memory snapshot, line by line: trusted claims, outdated ones,
open conflicts and the rules, each part under its heading. A request holds the prompt, the turns
of the session and the new message.
-/
namespace Texo.Semantics
open Texo.Foundation Texo.Extract

/-- Speaker role in a chat transcript, `semantics::chat::Speaker`. -/
inductive ChatSpeaker where
  | user
  | assistant
deriving DecidableEq, Repr

/-- `Speaker::role`. -/
def ChatSpeaker.role : ChatSpeaker → String
  | .user => "user"
  | .assistant => "assistant"

/-- One prior chat turn. -/
structure Utterance where
  speaker : ChatSpeaker
  text : String
deriving DecidableEq, Repr

/-- One current claim surfaced as trusted memory. -/
structure MemoryClaim where
  claimId : String
  text : String
  sourcePath : String
  line : Nat
  charStart : Nat
  charEnd : Nat
deriving DecidableEq, Repr

/-- A retired memory. -/
structure StaleMemory where
  claimId : String
  text : String
  supersededBy : String
  supersededByText : String
deriving DecidableEq, Repr

/-- An unresolved memory conflict. -/
structure MemoryConflict where
  claimAText : String
  claimBText : String
  reason : String
deriving DecidableEq, Repr

/-- Memory snapshot consumed by the prompt builder. -/
structure MemorySnapshot where
  workspaceId : String
  replayedThroughSequence : Nat
  current : List MemoryClaim
  stale : List StaleMemory
  conflicts : List MemoryConflict
deriving DecidableEq, Repr

/-- `CURRENT_MEMORY_HEADER`. -/
def currentMemoryHeader : String := "## Current memory (trusted)"

/-- `OUTDATED_MEMORY_HEADER`. -/
def outdatedMemoryHeader : String := "## Outdated memory (do NOT trust — superseded)"

/-- `CONFLICT_MEMORY_HEADER`. -/
def conflictMemoryHeader : String := "## Conflicting memory (unresolved)"

/-- The line of a current claim. -/
def memoryLine (claim : MemoryClaim) : String :=
  "- " ++ claim.text ++ " [" ++ claim.sourcePath ++ ":" ++
    String.ofList (Nat.toDigits 10 claim.line) ++ "]"

/-- The line of a retired claim. -/
def staleLine (stale : StaleMemory) : String :=
  "- \"" ++ stale.text ++ "\" — superseded by: \"" ++ stale.supersededByText ++ "\""

/-- The line of an open conflict. -/
def conflictLine (conflict : MemoryConflict) : String :=
  "- \"" ++ conflict.claimAText ++ "\" vs \"" ++ conflict.claimBText ++ "\""

/-- `writeln!` of some lines. -/
def writeLines (out : String) (lines : List String) : String :=
  lines.foldl (fun out line => out ++ line ++ "\n") out

/-- What the prompt opens with. -/
def promptIntro : String :=
  "You are a personal assistant with persistent, versioned memory. Your memory is a " ++
    "texo claim-chain: facts from previous sessions were extracted into claims, and when " ++
    "a fact changed the old claim was retired (superseded) with a receipt instead of " ++
    "accumulating. Everything below is replayed from that journal."

/-- What the trusted section holds in the absence of claims. -/
def emptyMemoryLine : String :=
  "(empty — no remembered facts yet; say so when memory is asked for.)"

/-- What the outdated section holds in the absence of retired claims. -/
def noStaleLine : String := "(none)"

/-- The line above the rules. -/
def rulesHeader : String := "Rules:"

/-- The rules at the end of the prompt. -/
def promptRules : List String :=
  ["- Answer from current memory when relevant, citing the source like (file.md:12).",
    "- If memory is empty or does not cover the question, say you do not have that in " ++
      "memory instead of inventing a remembered fact.",
    "- Never present outdated memory as true. If asked, explain it was superseded and by " ++
      "what.",
    "- If memories conflict, say so and present both sides.",
    "- Keep replies concise."]

/-- `build_system_prompt`. -/
def buildSystemPrompt (memory : MemorySnapshot) : String :=
  let opened := promptIntro ++ "\n" ++ "\n" ++ currentMemoryHeader ++ "\n"
  let trusted :=
    if memory.current.isEmpty then
      opened ++ emptyMemoryLine ++ "\n"
    else
      writeLines opened (memory.current.map memoryLine)
  let parted := trusted ++ "\n" ++ outdatedMemoryHeader ++ "\n"
  let outdated :=
    if memory.stale.isEmpty then
      parted ++ noStaleLine ++ "\n"
    else
      writeLines parted (memory.stale.map staleLine)
  let conflicting :=
    if memory.conflicts.isEmpty then
      outdated
    else
      writeLines (outdated ++ "\n" ++ conflictMemoryHeader ++ "\n")
        (memory.conflicts.map conflictLine)
  writeLines (conflicting ++ "\n" ++ rulesHeader ++ "\n") promptRules

/-- `ResolvedRole`, as far as a chat request reads it. The temperature is an `f32`, by its bits. -/
structure ResolvedRole where
  model : String
  maxCompletionTokens : Nat
  temperature : UInt32
  apiKey : String
deriving DecidableEq, Repr

/-- `ResolvedRole::is_enabled`. -/
def ResolvedRole.isEnabled (role : ResolvedRole) : Bool := !(trim role.apiKey.toList).isEmpty

/-- One message of a request. -/
structure ChatMessage where
  role : String
  content : String
deriving DecidableEq, Repr

/-- A chat-completions request body. -/
structure ChatRequest where
  model : String
  temperature : UInt32
  maxTokens : Nat
  messages : List ChatMessage
deriving DecidableEq, Repr

/-- The message of a turn. -/
def Utterance.message (utterance : Utterance) : ChatMessage :=
  ⟨utterance.speaker.role, utterance.text⟩

/-- `build_chat_request`. -/
def buildChatRequest (role : ResolvedRole) (systemPrompt : String) (history : List Utterance)
    (userMessage : String) : ChatRequest where
  model := role.model
  temperature := role.temperature
  maxTokens := role.maxCompletionTokens
  messages :=
    ⟨"system", systemPrompt⟩ :: history.map Utterance.message ++ [⟨"user", userMessage⟩]

/-- The lines of a section, or the line that stands for none, and the empty line behind. -/
def sectionLines (none : String) (rows : List String) : List String :=
  (if rows.isEmpty then [none] else rows) ++ [""]

/-- The lines of the conflict section with its heading; without conflicts there is neither. -/
def conflictPart (rows : List String) : List String :=
  if rows.isEmpty then [] else conflictMemoryHeader :: (rows ++ [""])

/-- The lines the prompt is written from. -/
def promptLines (memory : MemorySnapshot) : List String :=
  [promptIntro, ""] ++ currentMemoryHeader ::
    sectionLines emptyMemoryLine (memory.current.map memoryLine) ++ outdatedMemoryHeader ::
    sectionLines noStaleLine (memory.stale.map staleLine) ++
    conflictPart (memory.conflicts.map conflictLine) ++ rulesHeader :: promptRules

/-- What `writeln!` adds. -/
theorem toList_writeLines (out : String) (lines : List String) :
    (writeLines out lines).toList = out.toList ++ endLines '\n' (lines.map String.toList) := by
  induction lines generalizing out with
  | nil => exact (List.append_nil _).symm
  | cons line lines ih =>
    have shape : endLines '\n' ((line :: lines).map String.toList) =
        line.toList ++ ("\n".toList ++ endLines '\n' (lines.map String.toList)) := by
      unfold endLines
      rw [List.map_cons, List.flatMap_cons, List.append_assoc]
      rfl
    show (writeLines (out ++ line ++ "\n") lines).toList = _
    rw [ih, String.toList_append, String.toList_append, List.append_assoc, List.append_assoc, shape]

/-- Lines after lines. -/
theorem writeLines_append (out : String) (front back : List String) :
    writeLines out (front ++ back) = writeLines (writeLines out front) back :=
  List.foldl_append

/-- One line. -/
theorem writeLines_singleton (out line : String) : writeLines out [line] = out ++ line ++ "\n" :=
  rfl

/-- An empty line and a heading. -/
theorem writeLines_heading (out heading : String) :
    writeLines out ["", heading] = out ++ "\n" ++ heading ++ "\n" := by
  show out ++ "" ++ "\n" ++ heading ++ "\n" = _
  rw [String.append_empty]

/-- A section, or the line that stands for none. -/
theorem writeLines_section (out none : String) (rows : List String) :
    (if rows.isEmpty then out ++ none ++ "\n" else writeLines out rows) =
      writeLines out (if rows.isEmpty then [none] else rows) := by
  by_cases empty : rows.isEmpty = true
  · rw [if_pos empty, if_pos empty, writeLines_singleton]
  · rw [if_neg empty, if_neg empty]

/-- The prompt is its lines. -/
theorem buildSystemPrompt_eq (memory : MemorySnapshot) :
    buildSystemPrompt memory = writeLines "" (promptLines memory) := by
  have intro : promptIntro ++ "\n" ++ "\n" ++ currentMemoryHeader ++ "\n" =
      writeLines "" [promptIntro, "", currentMemoryHeader] := by
    show _ = "" ++ promptIntro ++ "\n" ++ "" ++ "\n" ++ currentMemoryHeader ++ "\n"
    rw [String.empty_append, String.append_empty]
  have current : memory.current.isEmpty = (memory.current.map memoryLine).isEmpty := by simp
  have stale : memory.stale.isEmpty = (memory.stale.map staleLine).isEmpty := by simp
  have conflicts : memory.conflicts.isEmpty = (memory.conflicts.map conflictLine).isEmpty := by
    simp
  unfold buildSystemPrompt
  rw [intro, current, stale, conflicts]
  dsimp only
  rw [writeLines_section, ← writeLines_heading, writeLines_section]
  by_cases none : (memory.conflicts.map conflictLine).isEmpty = true
  · rw [if_pos none, ← writeLines_heading]
    simp only [← writeLines_append]
    congr 1
    simp [promptLines, sectionLines, conflictPart, List.isEmpty_iff.mp none]
  · rw [if_neg none, ← writeLines_heading, ← writeLines_heading]
    simp only [← writeLines_append]
    congr 1
    unfold promptLines sectionLines conflictPart
    rw [if_neg none]
    simp

/-- The lines of a text. -/
def textLines (text : String) : List String := (text.toList.splitOn '\n').map String.ofList

/-- Written lines are read back where they hold no line feed. -/
theorem textLines_writeLines {lines : List String}
    (clear : ∀ line ∈ lines, '\n' ∉ line.toList) :
    textLines (writeLines "" lines) = lines ++ [""] := by
  have inside : ∀ line ∈ lines.map String.toList, '\n' ∉ line := by
    intro line member
    obtain ⟨row, known, same⟩ := List.mem_map.mp member
    exact same ▸ clear row known
  unfold textLines
  rw [toList_writeLines, String.toList_empty, List.nil_append, splitOn_endLines inside,
    List.map_append, List.map_map]
  have back : String.ofList ∘ String.toList = id := by
    funext line
    exact String.ofList_toList
  rw [back, List.map_id]
  rfl

/-- A line that is read holds no line feed. -/
theorem newline_notMem_textLines {text line : String} (member : line ∈ textLines text) :
    '\n' ∉ line.toList := by
  obtain ⟨row, known, same⟩ := List.mem_map.mp member
  rw [← same, String.toList_ofList]
  exact notMem_of_mem_splitOn known

/-- The lines that part the prompt. -/
def promptHeadings : List String :=
  [currentMemoryHeader, outdatedMemoryHeader, conflictMemoryHeader, rulesHeader]

/-- The lines of a prompt between a heading and the next one. -/
def promptSection (prompt heading : String) : List String :=
  sectionAfter promptHeadings heading (textLines prompt)

/-- A line that begins as no heading does is none. -/
theorem notMem_headings_of {line : String} {c : Char} (head : line.toList.head? = some c)
    (other : ∀ heading ∈ promptHeadings, heading.toList.head? ≠ some c) :
    line ∉ promptHeadings := fun member => other line member head

/-- A line that begins with a dash is no heading. -/
theorem notMem_headings {line : String} (dash : line.toList.head? = some '-') :
    line ∉ promptHeadings := by
  apply notMem_headings_of dash
  intro heading member
  simp only [promptHeadings, List.mem_cons, List.not_mem_nil, or_false] at member
  rcases member with rfl | rfl | rfl | rfl <;> decide

/-- The line of a current claim is no heading. -/
theorem memoryLine_plain (claim : MemoryClaim) : memoryLine claim ∉ promptHeadings := by
  apply notMem_headings
  unfold memoryLine
  simp only [String.toList_append]
  rfl

/-- The line of a retired claim is no heading. -/
theorem staleLine_plain (stale : StaleMemory) : staleLine stale ∉ promptHeadings := by
  apply notMem_headings
  unfold staleLine
  simp only [String.toList_append]
  rfl

/-- The line of a conflict is no heading. -/
theorem conflictLine_plain (conflict : MemoryConflict) :
    conflictLine conflict ∉ promptHeadings := by
  apply notMem_headings
  unfold conflictLine
  simp only [String.toList_append]
  rfl

/-- Mapped rows are no headings where none of their items gives one. -/
theorem map_plain {Row : Type} {line : Row → String} (plain : ∀ row, line row ∉ promptHeadings)
    (rows : List Row) : ∀ text ∈ rows.map line, text ∉ promptHeadings := by
  intro text member
  obtain ⟨row, _, same⟩ := List.mem_map.mp member
  exact same ▸ plain row

/-- A section holds no heading. -/
theorem sectionLines_plain {none : String} {rows : List String} (empty : none ∉ promptHeadings)
    (plain : ∀ row ∈ rows, row ∉ promptHeadings) :
    ∀ line ∈ sectionLines none rows, line ∉ promptHeadings := by
  intro line member
  unfold sectionLines at member
  rcases List.mem_append.mp member with body | last
  · split at body
    · rw [List.mem_singleton.mp body]
      exact empty
    · exact plain line body
  · rw [List.mem_singleton.mp last]
    decide

/-- A written text holds no character that its characters leave out. -/
theorem notMem_ofList {c : Char} {chars : List Char} (clear : c ∉ chars) :
    c ∉ (String.ofList chars).toList := by
  rw [String.toList_ofList]
  exact clear

/-- A text joined from two holds no character that neither holds. -/
theorem notMem_append {c : Char} {front back : String} (first : c ∉ front.toList)
    (second : c ∉ back.toList) : c ∉ (front ++ back).toList := by
  rw [String.toList_append, List.mem_append]
  exact fun member => member.elim first second

/-- The opening is one line. -/
theorem promptIntro_clear : '\n' ∉ promptIntro.toList := by
  unfold promptIntro
  apply notMem_append
  · apply notMem_append
    · apply notMem_append <;> exact notMem_ofList (by decide)
    · exact notMem_ofList (by decide)
  · exact notMem_ofList (by decide)

/-- Each rule is one line. -/
theorem promptRules_clear : ∀ rule ∈ promptRules, '\n' ∉ rule.toList := by
  intro rule member
  simp only [promptRules, List.mem_cons, List.not_mem_nil, or_false] at member
  rcases member with rfl | rfl | rfl | rfl | rfl
  · exact notMem_ofList (by decide)
  · exact notMem_append (notMem_ofList (by decide)) (notMem_ofList (by decide))
  · exact notMem_append (notMem_ofList (by decide)) (notMem_ofList (by decide))
  · exact notMem_ofList (by decide)
  · exact notMem_ofList (by decide)

/-- What stands above the trusted section is no heading. -/
theorem opening_plain : ∀ line ∈ [promptIntro, ""], line ∉ promptHeadings := by
  have opens : promptIntro.toList.head? = some 'Y' := by
    unfold promptIntro
    rw [String.toList_append, String.toList_append, String.toList_append, String.toList_ofList]
    rfl
  have plain : promptIntro ∉ promptHeadings := by
    apply notMem_headings_of opens
    intro heading member
    simp only [promptHeadings, List.mem_cons, List.not_mem_nil, or_false] at member
    rcases member with rfl | rfl | rfl | rfl <;> decide
  intro line member
  rcases List.mem_cons.mp member with same | last
  · rw [same]
    exact plain
  · rw [List.mem_singleton.mp last]
    decide

/-- What stands under the rules is no heading. -/
theorem rules_plain : ∀ line ∈ promptRules ++ [""], line ∉ promptHeadings := by
  intro line member
  rcases List.mem_append.mp member with rule | last
  · apply notMem_headings
    simp only [promptRules, List.mem_cons, List.not_mem_nil, or_false] at rule
    rcases rule with rfl | rfl | rfl | rfl | rfl
    · rw [String.toList_ofList]
      rfl
    · rw [String.toList_append, String.toList_ofList]
      rfl
    · rw [String.toList_append, String.toList_ofList]
      rfl
    · rw [String.toList_ofList]
      rfl
    · rw [String.toList_ofList]
      rfl
  · rw [List.mem_singleton.mp last]
    decide

/-- The trusted heading. -/
theorem current_heading : currentMemoryHeader ∈ promptHeadings := by simp [promptHeadings]

/-- The outdated heading. -/
theorem outdated_heading : outdatedMemoryHeader ∈ promptHeadings := by simp [promptHeadings]

/-- The conflict heading. -/
theorem conflict_heading : conflictMemoryHeader ∈ promptHeadings := by simp [promptHeadings]

/-- The heading of the rules. -/
theorem rules_heading : rulesHeader ∈ promptHeadings := by simp [promptHeadings]

/-- The line of a current claim breaks exactly where its text or its path does. -/
theorem newline_memoryLine (claim : MemoryClaim) :
    '\n' ∈ (memoryLine claim).toList ↔
      '\n' ∈ claim.text.toList ∨ '\n' ∈ claim.sourcePath.toList := by
  have first : '\n' ∉ "- ".toList := by decide
  have second : '\n' ∉ " [".toList := by decide
  have third : '\n' ∉ ":".toList := by decide
  have last : '\n' ∉ "]".toList := by decide
  have digits : '\n' ∉ Nat.toDigits 10 claim.line := notMem_decimal (by decide) claim.line
  unfold memoryLine
  simp only [String.toList_append, String.toList_ofList, List.mem_append, first, second, third,
    last, digits, or_false, false_or]

/-- A line of two quoted texts breaks exactly where one of them does. -/
theorem newline_quoted {middle : String} (plain : '\n' ∉ middle.toList) (first second : String) :
    '\n' ∈ ("- \"" ++ first ++ middle ++ second ++ "\"").toList ↔
      '\n' ∈ first.toList ∨ '\n' ∈ second.toList := by
  have opening : '\n' ∉ "- \"".toList := by decide
  have closing : '\n' ∉ "\"".toList := by decide
  simp only [String.toList_append, List.mem_append, opening, closing, plain, or_false, false_or]

/-- The line of a conflict breaks exactly where one of its texts does. -/
theorem newline_conflictLine (conflict : MemoryConflict) :
    '\n' ∈ (conflictLine conflict).toList ↔
      '\n' ∈ conflict.claimAText.toList ∨ '\n' ∈ conflict.claimBText.toList :=
  newline_quoted (by decide) conflict.claimAText conflict.claimBText

/-- Rows are lines of their section. -/
theorem mem_sectionLines {none row : String} {rows : List String} (member : row ∈ rows) :
    row ∈ sectionLines none rows := by
  unfold sectionLines
  have some : rows.isEmpty = false := by
    cases rows with
    | nil => cases member
    | cons => rfl
  rw [some]
  exact List.mem_append_left _ member

/-- Sections of one kind with the same lines have the same rows. -/
theorem sectionLines_inj {none : String} {rows others : List String} (first : none ∉ rows)
    (second : none ∉ others) (same : sectionLines none rows = sectionLines none others) :
    rows = others := by
  have bodies := List.append_cancel_right same
  cases rows with
  | nil =>
    cases others with
    | nil => rfl
    | cons row others =>
      have equal : [none] = row :: others := bodies
      exact absurd (by rw [← equal]; exact List.mem_cons_self) second
  | cons row rows =>
    cases others with
    | nil =>
      have equal : row :: rows = [none] := bodies
      exact absurd (by rw [equal]; exact List.mem_cons_self) first
    | cons other others => exact bodies

/-- A snapshot whose items are all written as one line. -/
def MemorySnapshot.OneLine (memory : MemorySnapshot) : Prop :=
  (∀ claim ∈ memory.current, '\n' ∉ (memoryLine claim).toList) ∧
    (∀ stale ∈ memory.stale, '\n' ∉ (staleLine stale).toList) ∧
      ∀ conflict ∈ memory.conflicts, '\n' ∉ (conflictLine conflict).toList

/-- Every line of the prompt of such a snapshot is one. -/
theorem MemorySnapshot.OneLine.clear {memory : MemorySnapshot} (single : memory.OneLine) :
    ∀ line ∈ promptLines memory, '\n' ∉ line.toList := by
  obtain ⟨current, stale, conflicts⟩ := single
  have fixed : ∀ line ∈ ["", currentMemoryHeader, emptyMemoryLine, outdatedMemoryHeader,
      noStaleLine, conflictMemoryHeader, rulesHeader], '\n' ∉ line.toList := by
    intro line member
    simp only [List.mem_cons, List.not_mem_nil, or_false] at member
    rcases member with rfl | rfl | rfl | rfl | rfl | rfl | rfl <;>
      exact notMem_ofList (by decide)
  intro line member
  unfold promptLines sectionLines conflictPart at member
  simp only [List.mem_append, List.mem_cons, List.not_mem_nil, or_false] at member
  rcases member with ((((rfl | rfl) | rfl | body | rfl) | rfl | body | rfl) | body) | rfl | rule
  · exact promptIntro_clear
  · exact fixed _ (by simp)
  · exact fixed _ (by simp)
  · split at body
    · rw [List.mem_singleton.mp body]
      exact fixed _ (by simp)
    · obtain ⟨claim, known, rfl⟩ := List.mem_map.mp body
      exact current claim known
  · exact fixed _ (by simp)
  · exact fixed _ (by simp)
  · split at body
    · rw [List.mem_singleton.mp body]
      exact fixed _ (by simp)
    · obtain ⟨old, known, rfl⟩ := List.mem_map.mp body
      exact stale old known
  · exact fixed _ (by simp)
  · split at body
    · cases body
    · rcases List.mem_cons.mp body with rfl | rows
      · exact fixed _ (by simp)
      · rcases List.mem_append.mp rows with row | last
        · obtain ⟨conflict, known, rfl⟩ := List.mem_map.mp row
          exact conflicts conflict known
        · rw [List.mem_singleton.mp last]
          exact fixed _ (by simp)
  · exact fixed _ (by simp)
  · exact promptRules_clear _ rule

/-- The lines of the prompt of such a snapshot. -/
theorem MemorySnapshot.OneLine.textLines {memory : MemorySnapshot} (single : memory.OneLine) :
    textLines (buildSystemPrompt memory) = promptLines memory ++ [""] := by
  rw [buildSystemPrompt_eq, textLines_writeLines single.clear]

/-- The lines of the prompt through the trusted section. -/
def trustedPart (memory : MemorySnapshot) : List String :=
  [promptIntro, ""] ++ currentMemoryHeader ::
    sectionLines emptyMemoryLine (memory.current.map memoryLine)

/-- The lines of the prompt through the outdated section. -/
def outdatedPart (memory : MemorySnapshot) : List String :=
  trustedPart memory ++ outdatedMemoryHeader ::
    sectionLines noStaleLine (memory.stale.map staleLine)

/-- The trusted section holds no heading. -/
theorem trusted_plain (memory : MemorySnapshot) :
    ∀ line ∈ sectionLines emptyMemoryLine (memory.current.map memoryLine),
      line ∉ promptHeadings :=
  sectionLines_plain (by decide +kernel) (map_plain memoryLine_plain _)

/-- The outdated section holds no heading. -/
theorem outdated_plain (memory : MemorySnapshot) :
    ∀ line ∈ sectionLines noStaleLine (memory.stale.map staleLine), line ∉ promptHeadings :=
  sectionLines_plain (by decide +kernel) (map_plain staleLine_plain _)

/-- No other heading stands through the trusted section. -/
theorem notMem_trustedPart {memory : MemorySnapshot} {heading : String}
    (known : heading ∈ promptHeadings) (other : heading ≠ currentMemoryHeader) :
    heading ∉ trustedPart memory := by
  intro member
  rcases List.mem_append.mp member with opening | later
  · exact opening_plain heading opening known
  · rcases List.mem_cons.mp later with same | inside
    · exact other same
    · exact trusted_plain memory heading inside known

/-- No other heading stands through the outdated section. -/
theorem notMem_outdatedPart {memory : MemorySnapshot} {heading : String}
    (known : heading ∈ promptHeadings) (other : heading ≠ currentMemoryHeader)
    (later : heading ≠ outdatedMemoryHeader) : heading ∉ outdatedPart memory := by
  intro member
  rcases List.mem_append.mp member with before | here
  · exact notMem_trustedPart known other before
  · rcases List.mem_cons.mp here with same | inside
    · exact later same
    · exact outdated_plain memory heading inside known

/-- The lines of a prompt without conflicts. -/
theorem promptLines_settled {memory : MemorySnapshot} (none : memory.conflicts = []) :
    promptLines memory = outdatedPart memory ++ rulesHeader :: promptRules := by
  simp [promptLines, outdatedPart, trustedPart, conflictPart, none]

/-- The lines of a prompt with conflicts. -/
theorem promptLines_contested {memory : MemorySnapshot} (some : memory.conflicts ≠ []) :
    promptLines memory = outdatedPart memory ++ conflictMemoryHeader ::
      (memory.conflicts.map conflictLine ++ [""]) ++ rulesHeader :: promptRules := by
  simp [promptLines, outdatedPart, trustedPart, conflictPart, some]

/-- The trusted section of such a snapshot has a line for each current claim. -/
theorem MemorySnapshot.OneLine.trusted {memory : MemorySnapshot} (single : memory.OneLine) :
    promptSection (buildSystemPrompt memory) currentMemoryHeader =
      sectionLines emptyMemoryLine (memory.current.map memoryLine) := by
  have shape : promptLines memory ++ [""] =
      [promptIntro, ""] ++ currentMemoryHeader ::
        sectionLines emptyMemoryLine (memory.current.map memoryLine) ++ outdatedMemoryHeader ::
        (sectionLines noStaleLine (memory.stale.map staleLine) ++
          conflictPart (memory.conflicts.map conflictLine) ++ rulesHeader :: promptRules ++ [""]) := by
    simp [promptLines]
  unfold promptSection
  rw [single.textLines, shape]
  apply sectionAfter_eq _ (trusted_plain memory) outdated_heading
  intro opening
  exact opening_plain _ opening current_heading

/-- The outdated section of such a snapshot has a line for each retired claim. -/
theorem MemorySnapshot.OneLine.outdated {memory : MemorySnapshot} (single : memory.OneLine) :
    promptSection (buildSystemPrompt memory) outdatedMemoryHeader =
      sectionLines noStaleLine (memory.stale.map staleLine) := by
  have front : outdatedMemoryHeader ∉ trustedPart memory :=
    notMem_trustedPart outdated_heading (by decide)
  have plain := outdated_plain memory
  unfold promptSection
  rw [single.textLines]
  by_cases none : memory.conflicts = []
  · rw [promptLines_settled none, List.append_assoc, List.cons_append]
    exact sectionAfter_eq front plain rules_heading
  · have shape : promptLines memory ++ [""] = outdatedPart memory ++ conflictMemoryHeader ::
        (memory.conflicts.map conflictLine ++ [""] ++ rulesHeader :: promptRules ++ [""]) := by
      rw [promptLines_contested none]
      simp
    rw [shape]
    exact sectionAfter_eq front plain conflict_heading

/-- The conflict section of such a snapshot has a line for each open conflict. -/
theorem MemorySnapshot.OneLine.conflicting {memory : MemorySnapshot} (single : memory.OneLine) :
    promptSection (buildSystemPrompt memory) conflictMemoryHeader =
      (conflictPart (memory.conflicts.map conflictLine)).drop 1 := by
  have front : conflictMemoryHeader ∉ outdatedPart memory :=
    notMem_outdatedPart conflict_heading (by decide) (by decide)
  unfold promptSection
  rw [single.textLines]
  by_cases none : memory.conflicts = []
  · have missing : conflictMemoryHeader ∉ promptLines memory ++ [""] := by
      rw [promptLines_settled none, List.append_assoc]
      intro member
      rcases List.mem_append.mp member with before | rules
      · exact front before
      · rcases List.mem_cons.mp rules with same | rule
        · exact absurd same (by decide)
        · exact rules_plain _ rule conflict_heading
    rw [sectionAfter_missing missing, none]
    rfl
  · have shape : conflictPart (memory.conflicts.map conflictLine) =
        conflictMemoryHeader :: (memory.conflicts.map conflictLine ++ [""]) := by
      simp [conflictPart, none]
    rw [promptLines_contested none, shape, List.drop_one, List.tail_cons, List.append_assoc,
      List.cons_append]
    apply sectionAfter_eq front _ rules_heading
    intro line member
    rcases List.mem_append.mp member with row | last
    · exact map_plain conflictLine_plain _ line row
    · rw [List.mem_singleton.mp last]
      decide

end Texo.Semantics
