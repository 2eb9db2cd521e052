import Texo.Ingest.ClaimIds
import Texo.Ops.ClaimsSearch

/-! # Staleness checks

A check reads a markdown file and reports the superseded claims whose text still stands in one of its
lines. The claims of a file are found by the id of its present content, not by its path.
-/
namespace Texo.Ops.Staleness
open Texo.Events Texo.Extract Texo.Claims Texo.Ingest Texo.Store

/-- Where the claim stands that superseded another. -/
structure DiagnosticSource where
  path : String
  lineStart : Nat
deriving DecidableEq

/-- Severity of a diagnostic. -/
inductive DiagnosticSeverity where
  | warning
deriving DecidableEq, Repr

/-- One stale claim in a file. -/
structure StaleDiagnostic where
  file : String
  lineStart : Nat
  lineEnd : Nat
  severity : DiagnosticSeverity
  message : String
  claimId : String
  supersededBy : Option String
  source : Option DiagnosticSource
  receipt : Option AgentReceiptRow
deriving DecidableEq

/-- Output of `texo.staleness.check`. -/
structure StalenessReport where
  workspaceId : String
  checkedPath : String
  replayedThroughSequence : Nat
  diagnostics : List StaleDiagnostic
  snapshot : SnapshotRead
deriving DecidableEq

/-- `by_id`: of several claims under one id the last. -/
def byId (view : WorkspaceView) (claimId : String) : Option ClaimView :=
  (view.claims.filter fun claim => claim.card.claimId = claimId).getLast?

/-- Whether the normalized text of a line contains the one of a claim. -/
def holds (claim : ClaimView) (line : MarkdownLine) : Bool :=
  containsText (normalizeLine line.text).toList claim.card.normalizedText.toList

/-- The line of a document a claim is found in: the recorded one first. -/
def staleLine (document : MarkdownDocument) (claim : ClaimView) : Option MarkdownLine :=
  (document.lines.find? fun line => line.number = claim.card.lineStart && holds claim line).or
    (document.lines.find? (holds claim))

section
variable [EventNumbering]

/-- The diagnostic of a claim at a line. -/
def diagnosticAt (view : WorkspaceView) (store : JournalRead) (document : MarkdownDocument)
    (claim : ClaimView) (line : MarkdownLine) : StaleDiagnostic :=
  let supersededBy := claim.card.supersededBy
  let source := (supersededBy.bind (byId view)).map fun superseder =>
    { path := superseder.card.sourcePath, lineStart := superseder.card.lineStart }
  let receipt := (supersededBy.bind fun id => (claimReceipt store id).toOption).or
    (claimReceipt store claim.card.claimId).toOption
  { file := document.path
    lineStart := line.number
    lineEnd := line.number
    severity := .warning
    message := "Claim appears stale: superseded by " ++ supersededBy.getD "unknown" ++ " at " ++
      (receipt.elim "unknown seq" fun receipt => "local seq " ++ toString receipt.sequence) ++ "."
    claimId := claim.card.claimId
    supersededBy := supersededBy
    source := source
    receipt := receipt }

/-- The loop of `stale_diagnostics_for_path` at one claim. -/
def claimDiagnostic (view : WorkspaceView) (store : JournalRead) (document : MarkdownDocument)
    (sourceId : SourceId) (claim : ClaimView) : Option StaleDiagnostic :=
  if claim.card.phase ≠ 2 ∨ claim.card.sourceId ≠ sourceId.value then
    none
  else if claim.card.normalizedText = "" then
    none
  else
    (staleLine document claim).map (diagnosticAt view store document claim)

variable [Blake3]

/-- `stale_diagnostics_for_path`. -/
def staleDiagnosticsForPath (view : WorkspaceView) (store : JournalRead) (file : SourceFile) :
    Except TexoError (List StaleDiagnostic) :=
  match MarkdownDocument.fromPath file.relative file.body with
  | .error error => .error (.source file.path (sourceErrorText error))
  | .ok document =>
    (sourceIdOf document.sourceId).map fun sourceId =>
      view.claims.filterMap (claimDiagnostic view store document sourceId)

/-- `check_staleness_from_view`, on the files found under the input. -/
def checkStalenessFromView (view : WorkspaceView) (store : JournalRead)
    (workspaceId input checkedPath : String) (discovery : Except String MarkdownDiscovery)
    (snapshot : SnapshotRead) : Except TexoError StalenessReport := do
  match discovery with
  | .error error => .error (.source input error)
  | .ok found =>
    match found.failures with
    | (path, error) :: _ => .error (.source path error)
    | [] =>
      let diagnostics ← found.files.foldlM
        (fun diagnostics file =>
          (staleDiagnosticsForPath view store file).map (diagnostics ++ ·)) []
      .ok
        { workspaceId := workspaceId
          checkedPath := checkedPath
          replayedThroughSequence := view.frontier
          diagnostics := diagnostics
          snapshot := snapshot }

end

/-- A superseded claim recorded from the path of a document whose text still stands in it. -/
structure Due (document : MarkdownDocument) (claim : ClaimView) : Prop where
  superseded : claim.card.phase = 2
  recorded : claim.card.sourcePath = document.path
  nonempty : claim.card.normalizedText ≠ ""
  present : ∃ line ∈ document.lines, holds claim line = true

/-- The line a diagnostic owes: the recorded one while it holds the text, or else the first that
does. -/
structure OwedLine (document : MarkdownDocument) (claim : ClaimView) (line : MarkdownLine) :
    Prop where
  known : line ∈ document.lines
  holding : holds claim line = true
  place : line.number = claim.card.lineStart ∨
    (∀ other ∈ document.lines, other.number = claim.card.lineStart → holds claim other = false) ∧
      ∃ before after, document.lines = before ++ line :: after ∧
        ∀ earlier ∈ before, holds claim earlier = false

/-- The found line is the owed one. -/
theorem owedLine_of_staleLine {document : MarkdownDocument} {claim : ClaimView}
    {line : MarkdownLine} (found : staleLine document claim = some line) :
    OwedLine document claim line := by
  unfold staleLine at found
  cases recorded : document.lines.find? fun line =>
      line.number = claim.card.lineStart && holds claim line with
  | some first =>
    rw [recorded, Option.some_or] at found
    rw [← Option.some.inj found]
    have matched := List.find?_some recorded
    simp only [Bool.and_eq_true, decide_eq_true_eq] at matched
    exact ⟨List.mem_of_find?_eq_some recorded, matched.2, Or.inl matched.1⟩
  | none =>
    rw [recorded, Option.none_or] at found
    obtain ⟨matched, before, after, whole, earlier⟩ := List.find?_eq_some_iff_append.mp found
    refine ⟨List.mem_of_find?_eq_some found, matched, Or.inr ⟨?_, before, after, whole, ?_⟩⟩
    · intro other member number
      have missed := List.find?_eq_none.mp recorded other member
      simpa [number] using missed
    · intro other member
      simpa using earlier other member

/-- A line is found exactly when one holds the text. -/
theorem isSome_staleLine (document : MarkdownDocument) (claim : ClaimView) :
    (staleLine document claim).isSome = true ↔ ∃ line ∈ document.lines, holds claim line = true := by
  constructor
  · intro some
    obtain ⟨line, found⟩ := Option.isSome_iff_exists.mp some
    have owed := owedLine_of_staleLine found
    exact ⟨line, owed.known, owed.holding⟩
  · intro ⟨line, member, holding⟩
    unfold staleLine
    rw [Option.isSome_or, Bool.or_eq_true]
    right
    rw [List.find?_isSome]
    exact ⟨line, member, holding⟩

section
variable [EventNumbering]

/-- A diagnostic stands at the owed line. -/
theorem claimDiagnostic_owed {view : WorkspaceView} {store : JournalRead}
    {document : MarkdownDocument} {sourceId : SourceId} {claim : ClaimView}
    {diagnostic : StaleDiagnostic}
    (made : claimDiagnostic view store document sourceId claim = some diagnostic) :
    ∃ line, OwedLine document claim line ∧
      diagnostic = diagnosticAt view store document claim line := by
  unfold claimDiagnostic at made
  split at made
  · cases made
  · split at made
    · cases made
    · obtain ⟨line, found, same⟩ := Option.map_eq_some_iff.mp made
      exact ⟨line, owedLine_of_staleLine found, same.symm⟩

/-- The loop makes a diagnostic for a superseded claim of the content whose text still stands. -/
theorem isSome_claimDiagnostic (view : WorkspaceView) (store : JournalRead)
    (document : MarkdownDocument) (sourceId : SourceId) (claim : ClaimView) :
    (claimDiagnostic view store document sourceId claim).isSome = true ↔
      claim.card.phase = 2 ∧ claim.card.sourceId = sourceId.value ∧
        claim.card.normalizedText ≠ "" ∧ ∃ line ∈ document.lines, holds claim line = true := by
  unfold claimDiagnostic
  by_cases other : claim.card.phase ≠ 2 ∨ claim.card.sourceId ≠ sourceId.value
  · rw [if_pos other]
    refine iff_of_false (by simp) fun ⟨phase, source, _⟩ => ?_
    exact other.elim (fun apart => apart phase) (fun apart => apart source)
  · rw [if_neg other]
    have matched := not_or.mp other
    have phase : claim.card.phase = 2 := not_not.mp matched.1
    have source : claim.card.sourceId = sourceId.value := not_not.mp matched.2
    by_cases empty : claim.card.normalizedText = ""
    · rw [if_pos empty]
      exact iff_of_false (by simp) fun ⟨_, _, nonempty, _⟩ => nonempty empty
    · rw [if_neg empty, Option.isSome_map, isSome_staleLine]
      exact ⟨fun present => ⟨phase, source, empty, present⟩, fun due => due.2.2.2⟩

/-- Each due claim of a view has its one diagnostic, at the owed line, and no other claim has
any. -/
def ReportsDue (view : WorkspaceView) (store : JournalRead) (document : MarkdownDocument)
    (sourceId : SourceId) : Prop :=
  ∀ claim ∈ view.claims,
    (Due document claim → ∃ line, OwedLine document claim line ∧
      claimDiagnostic view store document sourceId claim =
        some (diagnosticAt view store document claim line)) ∧
    (¬ Due document claim → claimDiagnostic view store document sourceId claim = none)

end

/-- Superseded claims whose text still stands in a document belong to its content exactly where
they were recorded from its path. -/
def MatchesPath (view : WorkspaceView) (document : MarkdownDocument) : Prop :=
  ∀ claim ∈ view.claims, claim.card.phase = 2 → claim.card.normalizedText ≠ "" →
    (∃ line ∈ document.lines, holds claim line = true) →
      (claim.card.sourceId = document.sourceId ↔ claim.card.sourcePath = document.path)

section
variable [EventNumbering]

/-- The loop reports what is due exactly where contents match paths. -/
theorem reportsDue_iff (view : WorkspaceView) (store : JournalRead) {document : MarkdownDocument}
    {sourceId : SourceId} (named : sourceId.value = document.sourceId) :
    ReportsDue view store document sourceId ↔ MatchesPath view document := by
  constructor
  · intro reports claim member phase nonempty present
    obtain ⟨owed, none⟩ := reports claim member
    have some := isSome_claimDiagnostic view store document sourceId claim
    rw [named] at some
    constructor
    · intro source
      by_contra apart
      have silent := none fun due => apart due.recorded
      have made := some.mpr ⟨phase, source, nonempty, present⟩
      rw [silent] at made
      cases made
    · intro path
      obtain ⟨line, _, made⟩ := owed ⟨phase, path, nonempty, present⟩
      exact (some.mp (by rw [made]; rfl)).2.1
  · intro paths claim member
    have some := isSome_claimDiagnostic view store document sourceId claim
    rw [named] at some
    constructor
    · intro due
      have source := (paths claim member due.superseded due.nonempty due.present).mpr due.recorded
      have made := some.mpr ⟨due.superseded, source, due.nonempty, due.present⟩
      obtain ⟨diagnostic, found⟩ := Option.isSome_iff_exists.mp made
      obtain ⟨line, owed, same⟩ := claimDiagnostic_owed found
      exact ⟨line, owed, same ▸ found⟩
    · intro missing
      cases found : claimDiagnostic view store document sourceId claim with
      | none => rfl
      | some diagnostic =>
        obtain ⟨phase, source, nonempty, present⟩ := some.mp (by rw [found]; rfl)
        have path := (paths claim member phase nonempty present).mp source
        exact absurd ⟨phase, path, nonempty, present⟩ missing

variable [Blake3]

omit [EventNumbering] in
/-- The source id of a parsed document is well formed. -/
theorem sourceIdOf_document {path : String} {body : FileBody} {document : MarkdownDocument}
    (parsed : MarkdownDocument.fromPath path body = .ok document) :
    ∃ sourceId, sourceIdOf document.sourceId = .ok sourceId ∧
      sourceId.value = document.sourceId := by
  cases body with
  | unreadable detail => cases parsed
  | notUtf8 bytes detail =>
    simp only [MarkdownDocument.fromPath, MarkdownDocument.fromBytes] at parsed
    split at parsed <;> cases parsed
  | text contents =>
    simp only [MarkdownDocument.fromPath, MarkdownDocument.fromBytes] at parsed
    split at parsed
    · cases parsed
    · rename_i sourceId _
      have same := Except.ok.inj parsed
      refine ⟨sourceId, ?_, by rw [← same]⟩
      rw [← same, sourceIdOf, Branded.tryFrom_value sourceId (by decide)]

/-- A staleness check. For every view, journal and readable markdown file, the check reports, claim
by claim, exactly the superseded claims recorded from the path of the file whose text still stands
in it, at the owed line, if and only if the superseded claims whose text stands in the file were
recorded from its path exactly where they were recorded from its present content. -/
theorem staleness_check_iff (view : WorkspaceView) (store : JournalRead)
    (workspaceId input checkedPath : String) (file : SourceFile) (snapshot : SnapshotRead)
    {document : MarkdownDocument}
    (readable : MarkdownDocument.fromPath file.relative file.body = .ok document) :
    ∃ report sourceId,
      checkStalenessFromView view store workspaceId input checkedPath (.ok ⟨[file], []⟩) snapshot =
        .ok report ∧
      report.diagnostics = view.claims.filterMap (claimDiagnostic view store document sourceId) ∧
      (ReportsDue view store document sourceId ↔ MatchesPath view document) := by
  obtain ⟨sourceId, parsed, named⟩ := sourceIdOf_document readable
  have read : staleDiagnosticsForPath view store file =
      .ok (view.claims.filterMap (claimDiagnostic view store document sourceId)) := by
    unfold staleDiagnosticsForPath
    rw [readable]
    show (sourceIdOf document.sourceId).map _ = _
    rw [parsed]
    rfl
  refine ⟨⟨workspaceId, checkedPath, view.frontier,
    view.claims.filterMap (claimDiagnostic view store document sourceId), snapshot⟩, sourceId, ?_,
    rfl, reportsDue_iff view store named⟩
  unfold checkStalenessFromView
  simp only [List.foldlM_cons, List.foldlM_nil, read]
  rfl

end

/-- A digest that reads its bytes back in decimal. -/
@[reducible] def echoDigest : Blake3 where
  hex bytes := String.join (bytes.map fun byte => toString byte.toNat)

/-- What a demonstration file held when its claim was recorded. -/
def fridayText : String := "Deploys happen on Friday.\n"

/-- The same file after a line was put in front. -/
def editedText : String := "# Releases\nDeploys happen on Friday.\n"

/-- The file after that edit. -/
def editedFile : SourceFile := ⟨"/repo/notes.md", "notes.md", .text editedText⟩

/-- The claim recorded from the file before the edit, superseded since. -/
def fridayClaim : ClaimView where
  card :=
    { phase := 2
      claimId := "claim_aaaaaaaaaaaa"
      workspaceId := "demo"
      sourceId := "src_681011121081"
      sourcePath := "notes.md"
      lineStart := 1
      lineEnd := 1
      text := "Deploys happen on Friday."
      normalizedText := "deploys happen on friday."
      supersededBy := some "claim_bbbbbbbbbbbb" }
  status := .superseded
  supersedes := []

/-- A view of that claim alone. -/
def fridayView : WorkspaceView := ⟨"demo", 2, .fresh, [fridayClaim], [], []⟩

/-- A snapshot of the demonstration workspace. -/
def demoRead : SnapshotRead where
  token := ""
  descriptor := ⟨⟨"demo", Eq.refl true⟩, ⟨"canonical", Eq.refl true⟩, 2, "", none⟩

/-- The lines of the edited file. -/
def editedDocument : MarkdownDocument where
  path := "notes.md"
  bodyHashHex := "3532821011081019711510111510681011121081111211153210497112112101110321111103270114105100971214610"
  sourceId := "src_353282101108"
  lines := [⟨1, "# Releases", 0⟩, ⟨2, "Deploys happen on Friday.", 11⟩]

/-- The edited file parses. -/
theorem parse_edited :
    let _ := echoDigest
    MarkdownDocument.fromPath editedFile.relative editedFile.body = .ok editedDocument := by
  decide +kernel

/-- The check of the edited file reports what is due exactly where contents match paths. -/
theorem staleness_check_edited :
    let _ := demoNumbering
    let _ := echoDigest
    ∃ report sourceId,
      checkStalenessFromView fridayView (JournalRead.intact Journal.empty fun _ => none) "demo"
          "/repo/notes.md" "notes.md" (.ok ⟨[editedFile], []⟩) demoRead = .ok report ∧
      report.diagnostics = fridayView.claims.filterMap (claimDiagnostic fridayView
        (JournalRead.intact Journal.empty fun _ => none) editedDocument sourceId) ∧
      (ReportsDue fridayView (JournalRead.intact Journal.empty fun _ => none) editedDocument
          sourceId ↔ MatchesPath fridayView editedDocument) := by
  let _ := demoNumbering
  let _ := echoDigest
  exact staleness_check_iff fridayView (JournalRead.intact Journal.empty fun _ => none) "demo"
    "/repo/notes.md" "notes.md" editedFile demoRead parse_edited

/-- The claim was recorded from the earlier content of the edited file and its text still stands
there, and the check reports nothing. -/
theorem edited_file_unreported :
    let _ := demoNumbering
    let _ := echoDigest
    (MarkdownDocument.fromPath "notes.md" (.text fridayText)).toOption.map
        MarkdownDocument.sourceId = some fridayClaim.card.sourceId ∧
      Due editedDocument fridayClaim ∧
      MarkdownDocument.fromPath editedFile.relative editedFile.body = .ok editedDocument ∧
      ∃ report,
        checkStalenessFromView fridayView (JournalRead.intact Journal.empty fun _ => none) "demo"
            "/repo/notes.md" "notes.md" (.ok ⟨[editedFile], []⟩) demoRead = .ok report ∧
          report.diagnostics = [] ∧
          ∀ sourceId, sourceIdOf editedDocument.sourceId = .ok sourceId →
            ¬ ReportsDue fridayView (JournalRead.intact Journal.empty fun _ => none) editedDocument
              sourceId := by
  intro _ _
  have due : Due editedDocument fridayClaim := by
    refine ⟨by decide, by decide, by decide, ?_⟩
    exact ⟨⟨2, "Deploys happen on Friday.", 11⟩, by decide, by decide +kernel⟩
  refine ⟨by decide +kernel, due, parse_edited, ⟨"demo", "notes.md", 2, [], demoRead⟩, ?_, rfl, ?_⟩
  · decide +kernel
  · intro sourceId named reports
    have value := value_of_sourceIdOf named
    obtain ⟨line, _, made⟩ := (reports fridayClaim (by decide)).1 due
    have some := (isSome_claimDiagnostic fridayView
      (JournalRead.intact Journal.empty fun _ => none) editedDocument sourceId fridayClaim).mp
        (by rw [made]; rfl)
    rw [value] at some
    exact absurd some.2.1 (by decide)

end Texo.Ops.Staleness
