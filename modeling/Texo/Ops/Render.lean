import Texo.Foundation.Fields
import Texo.Foundation.Template

/-! # The page of a workspace

The explorer page writes the claims, the stale lines and the conflicts of a workspace into a template.
Texts and messages are escaped on the way; the other fields stand in the page as they are.
-/
namespace Texo.Ops.Render
open Texo.Foundation

/-- `AgentSourceRow`. -/
structure AgentSourceRow where
  path : String
  lineStart : Nat

/-- `AgentReceiptRow`. -/
structure AgentReceiptRow where
  eventId : String
  sequence : Nat

/-- `AgentClaimRow`. -/
structure AgentClaimRow where
  claimId : String
  subjectHint : Option String
  text : String
  source : AgentSourceRow
  receipt : AgentReceiptRow
  supersedes : List String

/-- `AgentContextOutput`. -/
structure AgentContextOutput where
  replayedThroughSequence : Nat
  claims : List AgentClaimRow

/-- `StaleDiagnostic`. -/
structure StaleDiagnostic where
  file : String
  lineStart : Nat
  message : String

/-- `StalenessReport`. -/
structure StalenessReport where
  diagnostics : List StaleDiagnostic

/-- `ConflictEntry` of the heuristics. -/
structure ConflictEntry where
  conflictId : String
  claimA : String
  claimB : String
  subjectHint : String
  reason : String
  status : String

/-- `ConflictReport`. -/
structure ConflictReport where
  workspaceId : String
  conflicts : List ConflictEntry

/-- `serde_json::to_string_pretty`. -/
class PrettyJson where
  toStringPretty : ConflictReport → Except String (List Char)

/-- `str::replace` of one character. -/
def replaceChar (replaced : Char) (entity : String) (text : List Char) : List Char :=
  text.flatMap fun c => if c = replaced then entity.toList else [c]

/-- A quotation mark. -/
def quote : Char := Char.ofNat 0x22

/-- `html_escape`. -/
def htmlEscape (text : List Char) : List Char :=
  replaceChar quote "&quot;" (replaceChar '>' "&gt;" (replaceChar '<' "&lt;"
    (replaceChar '&' "&amp;" text)))

/-- A number in a page. -/
def number (value : Nat) : Piece Char := .field (Nat.toDigits 10 value)

/-- A field that stands in a page as it is. -/
def raw (text : String) : Piece Char := .field text.toList

/-- A field that is escaped. -/
def escaped (text : List Char) : Piece Char := .field (htmlEscape text)

/-- A part of the template. -/
def html (text : String) : Piece Char := .fixed text.toList

/-- The line of a claim about the claims it replaces. -/
def supersedesLine (supersedes : List String) : List (Piece Char) :=
  if supersedes.isEmpty then []
  else [html "<p><strong>supersedes:</strong> ",
    .field (", ".toList.intercalate (supersedes.map String.toList)), html "</p>"]

/-- The card of a claim, up to the line about replaced claims. -/
def claimCardHead (frontier : Nat) (claim : AgentClaimRow) : List (Piece Char) :=
  [html "<article class=\"claim-card\">\n  <h2>Claim ", raw claim.claimId,
    html "</h2>\n  <p><strong>status:</strong> current</p>\n  <p><strong>subject:</strong> ",
    raw (claim.subjectHint.getD ""), html "</p>\n  <p><strong>local sequence:</strong> ",
    number claim.receipt.sequence,
    html "</p>\n  <p><strong>frontier:</strong> replayed through seq ", number frontier,
    html "</p>\n  <p><strong>source:</strong> ", raw claim.source.path, html ":",
    number claim.source.lineStart, html "</p>\n  <p><strong>receipt:</strong> ",
    raw claim.receipt.eventId, html "</p>\n  "]

/-- The card of a claim, behind that line. -/
def claimCardText (claim : AgentClaimRow) : List (Piece Char) :=
  [html "\n  <blockquote>", escaped claim.text.toList, html "</blockquote>\n</article>"]

/-- The card of a claim. -/
def claimCard (frontier : Nat) (claim : AgentClaimRow) : List (Piece Char) :=
  claimCardHead frontier claim ++ supersedesLine claim.supersedes ++ claimCardText claim

/-- The card of a stale line. -/
def staleCard (diagnostic : StaleDiagnostic) : List (Piece Char) :=
  [html "<article class=\"claim-card stale\">\n  <h2>Stale line ", raw diagnostic.file, html ":",
    number diagnostic.lineStart, html "</h2>\n  <p>", escaped diagnostic.message.toList,
    html "</p>\n</article>"]

/-- The page up to the cards. -/
def pageHead : List (Piece Char) :=
  [html "<!DOCTYPE html>\n<html lang=\"en\">\n<head>\n  <meta charset=\"utf-8\" />\n",
    html "  <title>texo claim explorer</title>\n  <style>\n",
    html "    body \x7b font-family: system-ui, sans-serif; max-width: 960px; ",
    html "margin: 2rem auto; padding: 0 1rem; \x7d\n",
    html "    .claim-card \x7b border: 1px solid #ccc; border-radius: 8px; ",
    html "padding: 1rem; margin-bottom: 1rem; \x7d\n",
    html "    .stale \x7b border-color: #c90; background: #fff8e6; \x7d\n",
    html "    footer \x7b margin-top: 3rem; color: #666; font-size: 0.9rem; \x7d\n",
    html "  </style>\n</head>\n<body>\n  <header>\n",
    html "    <h1>A block explorer for stale team beliefs.</h1>\n",
    html "    <p>Every claim below was replayed from a BatPak journal.        ",
    html "The generated onboarding doc is a projection, not source truth.</p>\n",
    html "  </header>\n  <section>\n    <h2>Current claims</h2>\n    "]

/-- The page between the claims and the stale lines. -/
def pageStale : List (Piece Char) :=
  [html "\n  </section>\n  <section>\n    <h2>Stale diagnostics</h2>\n    "]

/-- The page behind the cards. -/
def pageEnd (conflictCount : Nat) (conflictsJson : List Char) : List (Piece Char) :=
  [html "\n  </section>\n  <section>\n    <h2>Conflicts (", number conflictCount,
    html ")</h2>\n    <pre>", escaped conflictsJson,
    html "</pre>\n  </section>\n  <footer>\n    texo uses one local BatPak journal. ",
    html "Sequences are per-store.     ",
    html "No global order, network consensus, or distributed replication is claimed.\n",
    html "  </footer>\n</body>\n</html>"]

/-- The parts of the page. -/
def pagePieces (context : AgentContextOutput) (stale : StalenessReport) (conflicts : ConflictReport)
    (conflictsJson : List Char) : List (Piece Char) :=
  pageHead ++ context.claims.flatMap (claimCard context.replayedThroughSequence) ++ pageStale ++
    stale.diagnostics.flatMap staleCard ++ pageEnd conflicts.conflicts.length conflictsJson

/-- `render_index_html`. -/
def renderIndexHtml [PrettyJson] (context : AgentContextOutput) (stale : StalenessReport)
    (conflicts : ConflictReport) : Except String (List Char) :=
  (PrettyJson.toStringPretty conflicts).map fun conflictsJson =>
    written (pagePieces context stale conflicts conflictsJson)

/-- A character of a tag or of an attribute. -/
def isMarkup (c : Char) : Bool := c = '<' || c = '>' || c = quote

/-- The tags and attributes of a page, by the characters that delimit them. -/
def markup (page : List Char) : List Char := page.filter isMarkup

/-- The page of a number of claims, of which some replace others, and of stale lines, with nothing in
it. -/
def emptyPage (supersedes : List Bool) (diagnostics : Nat) : List Char :=
  template pageHead ++
    supersedes.flatMap (fun replaces => template (claimCard 0
      ⟨"", none, "", ⟨"", 0⟩, ⟨"", 0⟩, if replaces then [""] else []⟩)) ++
    template pageStale ++
    (List.replicate diagnostics ()).flatMap (fun _ => template (staleCard ⟨"", 0, ""⟩)) ++
    template (pageEnd 0 [])

/-- No character of a tag is in a text. -/
def Clear (text : List Char) : Prop := ∀ c ∈ text, isMarkup c = false

/-- The fields that stand in the page as they are hold no character of a tag. -/
structure PlainFields (context : AgentContextOutput) (stale : StalenessReport) : Prop where
  claims : ∀ claim ∈ context.claims,
    ∀ text ∈ [claim.claimId, claim.subjectHint.getD "", claim.source.path, claim.receipt.eventId] ++
      claim.supersedes, Clear text.toList
  files : ∀ diagnostic ∈ stale.diagnostics, Clear diagnostic.file.toList

section Escaping

/-- What a replacement leaves of a text, and what it adds. -/
theorem mem_replaceChar {replaced c : Char} {entity : String} {text : List Char}
    (member : c ∈ replaceChar replaced entity text) :
    (c ∈ text ∧ c ≠ replaced) ∨ c ∈ entity.toList := by
  unfold replaceChar at member
  obtain ⟨other, inside, made⟩ := List.mem_flatMap.mp member
  by_cases same : other = replaced
  · rw [if_pos same] at made
    exact Or.inr made
  · rw [if_neg same, List.mem_singleton] at made
    rw [made]
    exact Or.inl ⟨inside, same⟩

/-- A replaced character is gone, unless the entity has it. -/
theorem notMem_replaceChar {replaced : Char} {entity : String} (other : replaced ∉ entity.toList)
    (text : List Char) : replaced ∉ replaceChar replaced entity text := by
  intro member
  rcases mem_replaceChar member with ⟨_, different⟩ | added
  · exact different rfl
  · exact other added

/-- A character that is gone stays gone. -/
theorem notMem_replaceChar_of {c replaced : Char} {entity : String} {text : List Char}
    (gone : c ∉ text) (other : c ∉ entity.toList) : c ∉ replaceChar replaced entity text := by
  intro member
  rcases mem_replaceChar member with ⟨inside, _⟩ | added
  · exact gone inside
  · exact other added

/-- An escaped text holds no character of a tag. -/
theorem clear_htmlEscape (text : List Char) : Clear (htmlEscape text) := by
  have less : '<' ∉ htmlEscape text := by
    apply notMem_replaceChar_of _ (by decide)
    apply notMem_replaceChar_of _ (by decide)
    exact notMem_replaceChar (by decide) _
  have greater : '>' ∉ htmlEscape text := by
    apply notMem_replaceChar_of _ (by decide)
    exact notMem_replaceChar (by decide) _
  have quoted : quote ∉ htmlEscape text := notMem_replaceChar (by decide) _
  intro c member
  have first : c ≠ '<' := by
    intro same
    rw [same] at member
    exact less member
  have second : c ≠ '>' := by
    intro same
    rw [same] at member
    exact greater member
  have third : c ≠ quote := by
    intro same
    rw [same] at member
    exact quoted member
  unfold isMarkup
  simp [first, second, third]

/-- A number holds no character of a tag. -/
theorem clear_decimal (value : Nat) : Clear (Nat.toDigits 10 value) := by
  intro c member
  have digit := isDigit_of_mem_decimal member
  have first : c ≠ '<' := by
    intro same
    rw [same] at digit
    exact absurd digit (by decide)
  have second : c ≠ '>' := by
    intro same
    rw [same] at digit
    exact absurd digit (by decide)
  have third : c ≠ quote := by
    intro same
    rw [same] at digit
    exact absurd digit (by decide)
  unfold isMarkup
  simp [first, second, third]

/-- A joined text is clear exactly where its entries are. -/
theorem clear_intercalate {separator : List Char} (clear : Clear separator)
    (entries : List (List Char)) :
    Clear (separator.intercalate entries) ↔ ∀ entry ∈ entries, Clear entry := by
  induction entries with
  | nil => exact iff_of_true (fun c member => nomatch member) (fun entry member => nomatch member)
  | cons entry rest ih =>
    cases rest with
    | nil =>
      rw [List.intercalate_singleton, List.forall_mem_singleton]
    | cons next rest =>
      rw [List.intercalate_cons_cons, List.forall_mem_cons, ← ih]
      unfold Clear
      simp only [List.forall_mem_append]
      exact ⟨fun all => ⟨all.1.1, all.2⟩, fun all => ⟨⟨all.1, clear⟩, all.2⟩⟩

end Escaping

section Pages

/-- The fields of the line about replaced claims. -/
theorem clear_supersedesLine (supersedes : List String) :
    (∀ text ∈ fields (supersedesLine supersedes), Clear text) ↔
      ∀ text ∈ supersedes, Clear text.toList := by
  cases supersedes with
  | nil => exact iff_of_true (fun text member => nomatch member) (fun text member => nomatch member)
  | cons first rest =>
    have separator : Clear ", ".toList := by
      have every : ", ".toList.all (fun c => !isMarkup c) = true := by decide +kernel
      intro c member
      simpa using List.all_eq_true.mp every c member
    have listed : fields (supersedesLine (first :: rest)) =
        [", ".toList.intercalate ((first :: rest).map String.toList)] := rfl
    rw [listed, List.forall_mem_singleton, clear_intercalate separator]
    simp

/-- The fields of a claim's card. -/
theorem clear_claimCard (frontier : Nat) (claim : AgentClaimRow) :
    (∀ text ∈ fields (claimCard frontier claim), Clear text) ↔
      ∀ text ∈ [claim.claimId, claim.subjectHint.getD "", claim.source.path,
        claim.receipt.eventId] ++ claim.supersedes, Clear text.toList := by
  have front : fields (claimCardHead frontier claim) = [claim.claimId.toList,
      (claim.subjectHint.getD "").toList, Nat.toDigits 10 claim.receipt.sequence,
      Nat.toDigits 10 frontier, claim.source.path.toList, Nat.toDigits 10 claim.source.lineStart,
      claim.receipt.eventId.toList] := rfl
  have back : fields (claimCardText claim) = [htmlEscape claim.text.toList] := rfl
  have line := clear_supersedesLine claim.supersedes
  unfold claimCard
  rw [fields_append, fields_append, front, back]
  simp only [List.forall_mem_append, List.forall_mem_cons, line]
  have numbers := clear_decimal
  have text := clear_htmlEscape claim.text.toList
  constructor
  · rintro ⟨⟨⟨id, subject, _, _, path, _, receipt, _⟩, supersedes⟩, _⟩
    exact ⟨⟨id, subject, path, receipt, List.forall_mem_nil _⟩, supersedes⟩
  · rintro ⟨⟨id, subject, path, receipt, _⟩, supersedes⟩
    have fields := And.intro receipt (List.forall_mem_nil fun text => Clear text)
    exact ⟨⟨⟨id, subject, numbers _, numbers _, path, numbers _, fields⟩, supersedes⟩,
      text, List.forall_mem_nil _⟩

/-- The fields of a stale line's card. -/
theorem clear_staleCard (diagnostic : StaleDiagnostic) :
    (∀ text ∈ fields (staleCard diagnostic), Clear text) ↔ Clear diagnostic.file.toList := by
  have listed : fields (staleCard diagnostic) = [diagnostic.file.toList,
      Nat.toDigits 10 diagnostic.lineStart, htmlEscape diagnostic.message.toList] := rfl
  rw [listed]
  simp only [List.forall_mem_cons]
  exact ⟨fun all => all.1,
    fun file => ⟨file, clear_decimal _, clear_htmlEscape _, List.forall_mem_nil _⟩⟩

/-- The fields of one card after the other. -/
theorem clear_flatMap {Row : Type} (card : Row → List (Piece Char)) (rows : List Row) :
    (∀ text ∈ fields (rows.flatMap card), Clear text) ↔
      ∀ row ∈ rows, ∀ text ∈ fields (card row), Clear text := by
  induction rows with
  | nil => exact iff_of_true (fun text member => nomatch member) (fun row member => nomatch member)
  | cons row rows ih =>
    rw [List.flatMap_cons, fields_append, List.forall_mem_append, List.forall_mem_cons, ih]

/-- The fields of the page are clear exactly where those that are not escaped are. -/
theorem clear_pagePieces (context : AgentContextOutput) (stale : StalenessReport)
    (conflicts : ConflictReport) (conflictsJson : List Char) :
    (∀ text ∈ fields (pagePieces context stale conflicts conflictsJson), Clear text) ↔
      PlainFields context stale := by
  have head : fields pageHead = [] := rfl
  have middle : fields pageStale = [] := rfl
  have ending : fields (pageEnd conflicts.conflicts.length conflictsJson) =
      [Nat.toDigits 10 conflicts.conflicts.length, htmlEscape conflictsJson] := rfl
  have none : ∀ text ∈ ([] : List (List Char)), Clear text := List.forall_mem_nil _
  unfold pagePieces
  simp only [fields_append, head, middle, ending, List.forall_mem_append, clear_flatMap,
    clear_claimCard, clear_staleCard, List.forall_mem_cons]
  constructor
  · rintro ⟨⟨⟨⟨_, claims⟩, _⟩, files⟩, _⟩
    refine ⟨?_, files⟩
    simpa only [List.forall_mem_append, List.forall_mem_cons] using claims
  · intro plain
    have claims := plain.claims
    simp only [List.forall_mem_append, List.forall_mem_cons] at claims
    exact ⟨⟨⟨⟨none, claims⟩, none⟩, plain.files⟩, clear_decimal _, clear_htmlEscape _, none⟩

/-- The template of one card after the other. -/
theorem template_flatMap {Row : Type} (card : Row → List (Piece Char)) (rows : List Row) :
    template (rows.flatMap card) = rows.flatMap fun row => template (card row) := by
  induction rows with
  | nil => rfl
  | cons row rows ih => rw [List.flatMap_cons, List.flatMap_cons, template_append, ih]

/-- The template of a claim's card depends on whether it replaces others. -/
theorem template_claimCard (frontier : Nat) (claim : AgentClaimRow) :
    template (claimCard frontier claim) = template (claimCard 0
      ⟨"", none, "", ⟨"", 0⟩, ⟨"", 0⟩, if !claim.supersedes.isEmpty then [""] else []⟩) := by
  cases replaced : claim.supersedes with
  | nil =>
    unfold claimCard
    rw [replaced]
    rfl
  | cons first rest =>
    unfold claimCard
    rw [replaced]
    rfl

/-- The template of the page depends on its shape alone. -/
theorem template_pagePieces (context : AgentContextOutput) (stale : StalenessReport)
    (conflicts : ConflictReport) (conflictsJson : List Char) :
    template (pagePieces context stale conflicts conflictsJson) =
      emptyPage (context.claims.map fun claim => !claim.supersedes.isEmpty)
        stale.diagnostics.length := by
  have claims : (context.claims.map fun claim => !claim.supersedes.isEmpty).flatMap
      (fun replaces => template (claimCard 0
        ⟨"", none, "", ⟨"", 0⟩, ⟨"", 0⟩, if replaces then [""] else []⟩)) =
      context.claims.flatMap fun claim =>
        template (claimCard context.replayedThroughSequence claim) := by
    rw [List.flatMap_map]
    congr 1
    funext claim
    exact (template_claimCard _ claim).symm
  have files : ∀ diagnostics : List StaleDiagnostic,
      (List.replicate diagnostics.length ()).flatMap (fun _ => template (staleCard ⟨"", 0, ""⟩)) =
        diagnostics.flatMap fun diagnostic => template (staleCard diagnostic) := by
    intro diagnostics
    induction diagnostics with
    | nil => rfl
    | cons diagnostic rest ih =>
      rw [List.length_cons, List.replicate_succ, List.flatMap_cons, List.flatMap_cons, ih]
      rfl
  unfold pagePieces emptyPage
  rw [claims, files]
  simp only [template_append, template_flatMap]
  rfl

end Pages

/-- The tags of a page are those of its shape exactly where the fields that are not escaped hold no
character of a tag; pages of one shape with such fields have the same tags. -/
theorem page_markup_iff [PrettyJson] (context : AgentContextOutput) (stale : StalenessReport)
    (conflicts : ConflictReport) (page : List Char)
    (rendered : renderIndexHtml context stale conflicts = .ok page) :
    markup page = markup (emptyPage (context.claims.map fun claim => !claim.supersedes.isEmpty)
        stale.diagnostics.length) ↔
      PlainFields context stale := by
  unfold renderIndexHtml at rendered
  cases json : PrettyJson.toStringPretty conflicts with
  | error detail =>
    rw [json] at rendered
    cases rendered
  | ok conflictsJson =>
    rw [json] at rendered
    cases rendered
    rw [← template_pagePieces context stale conflicts conflictsJson,
      ← clear_pagePieces context stale conflicts conflictsJson]
    exact filter_written_iff isMarkup _

section Inputs

/-- The JSON of a report without conflicts. -/
@[reducible] def noConflictsJson : PrettyJson where
  toStringPretty _ :=
    .ok "\x7b\n  \"workspace_id\": \"demo\",\n  \"conflicts\": []\n\x7d".toList

/-- A context with one claim, of some subject. -/
def subjectContext (subject : String) : AgentContextOutput :=
  ⟨4, [⟨"claim_9f2c", some subject, "Deploys happen on <b>Friday</b>.",
    ⟨"docs/deploy.md", 3⟩, ⟨"7a3e", 4⟩, []⟩]⟩

/-- A report of one stale line. -/
def oneStale : StalenessReport := ⟨[⟨"docs/deploy.md", 3, "stale: \"Deploys happen on Monday.\""⟩]⟩

/-- Tags in a text and quotation marks in a message are none in the page. -/
theorem page_markup_plain :
    let _ := noConflictsJson
    ∃ page, renderIndexHtml (subjectContext "deploy-process") oneStale ⟨"demo", []⟩ = .ok page ∧
      markup page = markup (emptyPage [false] 1) := by
  intro _
  refine ⟨_, rfl, ?_⟩
  apply (@page_markup_iff noConflictsJson (subjectContext "deploy-process") oneStale ⟨"demo", []⟩ _
    rfl).mpr
  have claims : (subjectContext "deploy-process").claims.all (fun claim =>
      ([claim.claimId, claim.subjectHint.getD "", claim.source.path, claim.receipt.eventId] ++
        claim.supersedes).all fun text => text.toList.all fun c => !isMarkup c) = true := by
    decide +kernel
  have files : oneStale.diagnostics.all (fun diagnostic =>
      diagnostic.file.toList.all fun c => !isMarkup c) = true := by decide +kernel
  constructor
  · intro claim member text listed c inside
    have each := List.all_eq_true.mp (List.all_eq_true.mp claims claim member) text listed
    simpa using List.all_eq_true.mp each c inside
  · intro diagnostic member c inside
    simpa using List.all_eq_true.mp (List.all_eq_true.mp files diagnostic member) c inside

/-- A subject with a tag puts it into the page. -/
theorem page_markup_subject :
    let _ := noConflictsJson
    ∃ page, renderIndexHtml (subjectContext "<script>") oneStale ⟨"demo", []⟩ = .ok page ∧
      markup page ≠ markup (emptyPage [false] 1) := by
  intro _
  refine ⟨_, rfl, ?_⟩
  intro same
  have shape := template_pagePieces (subjectContext "<script>") oneStale ⟨"demo", []⟩
    "\x7b\n  \"workspace_id\": \"demo\",\n  \"conflicts\": []\n\x7d".toList
  have clear := (filter_written_iff isMarkup _).mp
    (same.trans (congrArg markup shape.symm))
  have plain := (clear_pagePieces _ _ _ _).mp clear
  have subject := plain.claims _ List.mem_cons_self "<script>" (by decide)
  exact absurd (subject '<' (by decide)) (by decide)

end Inputs

end Texo.Ops.Render
