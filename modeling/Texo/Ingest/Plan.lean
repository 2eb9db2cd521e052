import Texo.Claims.Workspace
import Texo.Extract.Markdown
import Texo.Foundation.Folds

/-! # Planning an ingest

The plan of one ingest: which discovered files are new to the view and which claims they
hold. A file whose body hash the view already shows is not planned again; the claims of a
planned file come from the workspace's extractor command or from the line heuristics.
-/
namespace Texo.Ingest
open Texo.Events Texo.Extract Texo.Claims Texo.Foundation

/-- One line of an extractor command's output. -/
structure CmdClaimLine where
  lineStart : Nat
  text : String
  normalizedText : String
  subjectHint : Option String
  predicateHint : Option String
  objectHint : Option String
  confidencePpm : Nat
  charStart : Option Nat
  charEnd : Option Nat
  extractorModel : Option String
  promptVersion : Option String
deriving DecidableEq, Repr

/-- One output line as it is parsed. -/
inductive ExtractorLine where
  | blank
  | malformed (error : String)
  | claim (parsed : CmdClaimLine)
deriving DecidableEq, Repr

/-- What a confined extractor command gives. -/
inductive ExtractorRun where
  | failed (error : String)
  | notUtf8 (error : String)
  | lines (rows : List ExtractorLine)
deriving DecidableEq, Repr

/-- One discovered markdown file. -/
structure SourceFile where
  path : String
  relative : String
  body : FileBody
deriving DecidableEq

/-- Deterministically sorted discovery plus descendant failures. -/
structure MarkdownDiscovery where
  files : List SourceFile
  failures : List (String × String) := []
deriving DecidableEq

/-- The semantic part of a workspace configuration that ingest reads. -/
structure SemanticsConfig where
  enabled : Bool
deriving DecidableEq, Repr

/-- The part of a workspace configuration that ingest reads. -/
structure WorkspaceConfig where
  extractorCmd : Option String := none
  semantics : Option SemanticsConfig := none
deriving DecidableEq, Repr

/-- Closed class of a source that could not be read. -/
inductive SourceFailureCode where
  | utf8
  | io
deriving DecidableEq, Repr

/-- One source that planning skipped. -/
structure SourceSkipRow where
  path : String
  code : SourceFailureCode
  detail : String
deriving DecidableEq, Repr

/-- The files under an ingest path, the extractor command and the row encoder, all outside
the program. -/
structure SourceWorld where
  inputPath : String
  discovery : Except String MarkdownDiscovery
  runExtractor : String → String → ExtractorRun
  rowsJson : List SourceSkipRow → String

/-- One planned source with its claims. -/
structure PlannedSource where
  observed : SourceObservedV2
  claims : List ClaimRecordedV2
deriving DecidableEq

/-- The plan of one ingest. -/
structure SourcePlan where
  sources : List PlannedSource
  skipped : List SourceSkipRow
  empty : Bool
  succeeded : Nat
deriving DecidableEq

/-- `bounded_source_detail`. -/
def boundedSourceDetail (detail : String) : String := String.ofList (detail.toList.take 512)

/-- The text of an identifier error. -/
def idErrorText : IdParseError → String
  | .empty => "identifier must not be empty"
  | .badPrefix expected => "identifier must start with `" ++ expected ++ "`"
  | .invalidWorkspace => "invalid workspace id"
  | .hashTooShort min => "body hash must be at least " ++ toString min ++ " hex characters"

/-- The text of a source error. -/
def sourceErrorText : SourceError → String
  | .io detail => "io: " ++ detail
  | .utf8 detail => "utf8: " ++ detail
  | .id error => "id: " ++ idErrorText error

/-- The row of a file that could not be parsed. -/
def skipRow (path : String) (error : SourceError) : SourceSkipRow where
  path := path
  code := match error with
    | .utf8 _ => .utf8
    | .io _ => .io
    | .id _ => .io
  detail := boundedSourceDetail (sourceErrorText error)

/-- `saturating_u32`. -/
def saturatingU32 (value : Nat) : Nat := min value (2 ^ 32 - 1)

/-- `SourceId::try_from` with its error lifted. -/
def sourceIdOf (value : String) : Except TexoError SourceId :=
  match Branded.tryFrom "src_" value with
  | .error error => .error (.idParse error)
  | .ok sourceId => .ok sourceId

variable [Blake3]

/-- The claim of one heuristic line, if it is one. -/
def heuristicClaim (document : MarkdownDocument) (sourceId : SourceId) (workspaceId : String)
    (observedAtMs : Nat) (line : MarkdownLine) : Option ClaimRecordedV2 :=
  let normalized := normalizeLine line.text
  (hintsFromLineNormalized line.text normalized).map fun hints =>
    { claimId := (claimIdFromParts sourceId line.number normalized).value
      workspaceId := workspaceId
      sourceId := document.sourceId
      sourcePath := document.path
      lineStart := line.number
      lineEnd := line.number
      charStart := saturatingU32 line.charStart
      charEnd := saturatingU32 (line.charStart + byteLength line.text.toList)
      text := line.text
      normalizedText := normalized
      subjectHint := some hints.subjectHint
      predicateHint := some hints.predicateHint
      objectHint := some hints.objectHint
      confidencePpm := hints.confidencePpm
      extractorKind := "heuristic-v1"
      extractorModel := ""
      promptVersion := ""
      observedAtMs := observedAtMs }

/-- `extract_heuristic_claims`. -/
def extractHeuristicClaims (document : MarkdownDocument) (workspaceId : String)
    (observedAtMs : Nat) : Except TexoError (List ClaimRecordedV2) :=
  (sourceIdOf document.sourceId).map fun sourceId =>
    document.lines.filterMap (heuristicClaim document sourceId workspaceId observedAtMs)

/-- The claim of one extractor line. -/
def cmdClaim (document : MarkdownDocument) (sourceId : SourceId) (workspaceId : String)
    (observedAtMs : Nat) (parsed : CmdClaimLine) : ClaimRecordedV2 where
  claimId := (claimIdFromParts sourceId parsed.lineStart parsed.normalizedText).value
  workspaceId := workspaceId
  sourceId := document.sourceId
  sourcePath := document.path
  lineStart := parsed.lineStart
  lineEnd := parsed.lineStart
  charStart := parsed.charStart.getD 0
  charEnd := parsed.charEnd.getD 0
  text := parsed.text
  normalizedText := parsed.normalizedText
  subjectHint := parsed.subjectHint
  predicateHint := parsed.predicateHint
  objectHint := parsed.objectHint
  confidencePpm := parsed.confidencePpm
  extractorKind := "extractor-cmd"
  extractorModel := parsed.extractorModel.getD ""
  promptVersion := parsed.promptVersion.getD ""
  observedAtMs := observedAtMs

/-- One output line; a malformed one fails the extraction. -/
def cmdLine (op : String) (document : MarkdownDocument) (sourceId : SourceId)
    (workspaceId : String) (observedAtMs : Nat) (claims : List ClaimRecordedV2)
    (row : Nat × ExtractorLine) : Except TexoError (List ClaimRecordedV2) :=
  match row.2 with
  | .blank => .ok claims
  | .malformed error =>
    .error (.extract (op ++ ": extractor line " ++ toString (row.1 + 1) ++ " json error: " ++ error))
  | .claim parsed => .ok (claims ++ [cmdClaim document sourceId workspaceId observedAtMs parsed])

/-- `extract_cmd_claims`, on the output the command gave. -/
def extractCmdClaims (op : String) (run : ExtractorRun) (document : MarkdownDocument)
    (workspaceId : String) (observedAtMs : Nat) : Except TexoError (List ClaimRecordedV2) :=
  match run with
  | .failed error => .error (.extract (op ++ ": confined extractor failed: " ++ error))
  | .notUtf8 error => .error (.extract (op ++ ": extractor stdout was not utf-8: " ++ error))
  | .lines rows => do
    let sourceId ← sourceIdOf document.sourceId
    ((List.range rows.length).zip rows).foldlM
      (cmdLine op document sourceId workspaceId observedAtMs) []

/-- The claims of one document, by command or by heuristics. -/
def extractClaims (op : String) (config : WorkspaceConfig) (world : SourceWorld)
    (workspaceId : String) (observedAtMs : Nat) (path : String) (document : MarkdownDocument) :
    Except TexoError (List ClaimRecordedV2) :=
  match config.extractorCmd with
  | some cmd =>
    extractCmdClaims op (world.runExtractor cmd path) document workspaceId observedAtMs
  | none => extractHeuristicClaims document workspaceId observedAtMs

/-- The observation of one planned document. -/
def observation (workspaceId : String) (observedAtMs : Nat) (document : MarkdownDocument) :
    SourceObservedV2 where
  sourceId := document.sourceId
  workspaceId := workspaceId
  sourceKind := "markdown"
  path := document.path
  bodyHashHex := document.bodyHashHex
  observedAtMs := observedAtMs

/-- Body hashes the view shows. -/
def existingHashes (view : WorkspaceView) : List String :=
  view.sources.map fun source => source.bodyHashHex

/-- What planning has gathered before one file. -/
structure Planning where
  batchHashes : List String := []
  planned : List PlannedSource := []
  skipped : List SourceSkipRow := []
  succeeded : Nat := 0

/-- One file of the planning loop. -/
def planFile (op : String) (config : WorkspaceConfig) (world : SourceWorld) (workspaceId : String)
    (observedAtMs : Nat) (existing : List String) (planning : Planning) (file : SourceFile) :
    Except TexoError Planning :=
  match MarkdownDocument.fromPath file.relative file.body with
  | .error error =>
    .ok { planning with skipped := planning.skipped ++ [skipRow file.path error] }
  | .ok document =>
    let counted := { planning with succeeded := planning.succeeded + 1 }
    if document.bodyHashHex ∈ existing ∨ document.bodyHashHex ∈ planning.batchHashes then
      .ok counted
    else do
      let claims ← extractClaims op config world workspaceId observedAtMs file.path document
      .ok { counted with
        batchHashes := planning.batchHashes ++ [document.bodyHashHex]
        planned := planning.planned ++ [⟨observation workspaceId observedAtMs document, claims⟩] }

/-- The rows of descendants that could not be walked. -/
def discoveryRows (discovery : MarkdownDiscovery) : List SourceSkipRow :=
  discovery.failures.map fun failure =>
    { path := failure.1, code := .io, detail := boundedSourceDetail failure.2 }

/-- `plan_sources`. -/
def planSources (op : String) (config : WorkspaceConfig) (world : SourceWorld) (workspaceId : String)
    (observedAtMs : Nat) (view : WorkspaceView) : Except TexoError SourcePlan :=
  match world.discovery with
  | .error detail => .error (.source world.inputPath detail)
  | .ok discovery => do
    let planning ← discovery.files.foldlM
      (planFile op config world workspaceId observedAtMs (existingHashes view))
      { skipped := discoveryRows discovery }
    .ok
      { sources := planning.planned
        skipped := planning.skipped.insertionSort fun left right => left.path ≤ right.path
        empty := discovery.files.isEmpty
        succeeded := planning.succeeded }

/-- The events of a plan in the order they are appended. -/
def SourcePlan.events (plan : SourcePlan) : List Payload :=
  plan.sources.flatMap fun source =>
    .sourceObserved source.observed :: source.claims.map .claimRecorded

/-- The claims of a plan. -/
def SourcePlan.newClaims (plan : SourcePlan) : List ClaimRecordedV2 :=
  plan.sources.flatMap PlannedSource.claims

/-- The parsed files with the first file of each body hash kept, each with its path. -/
def distinctDocuments : List String → List SourceFile → List (String × MarkdownDocument)
  | _, [] => []
  | seen, file :: rest =>
    match MarkdownDocument.fromPath file.relative file.body with
    | .error _ => distinctDocuments seen rest
    | .ok document =>
      if document.bodyHashHex ∈ seen then
        distinctDocuments seen rest
      else
        (file.path, document) :: distinctDocuments (seen ++ [document.bodyHashHex]) rest

/-- The documents an ingest of these files is about. -/
def SourceWorld.documents (world : SourceWorld) : List (String × MarkdownDocument) :=
  match world.discovery with
  | .error _ => []
  | .ok discovery => distinctDocuments [] discovery.files

/-- The documents a view has not observed. -/
def SourceWorld.unobserved (world : SourceWorld) (view : WorkspaceView) :
    List (String × MarkdownDocument) :=
  world.documents.filter fun document => document.2.bodyHashHex ∉ existingHashes view

/-- A planned source is the observation of a document with the claims extracted from it. -/
structure PlannedFrom (op : String) (config : WorkspaceConfig) (world : SourceWorld)
    (workspaceId : String) (observedAtMs : Nat) (document : String × MarkdownDocument)
    (source : PlannedSource) : Prop where
  observed : source.observed = observation workspaceId observedAtMs document.2
  claims : extractClaims op config world workspaceId observedAtMs document.1 document.2 =
    .ok source.claims

/-- The planning loop plans, in order, the first file of each new body hash. -/
theorem foldlM_planFile {op : String} {config : WorkspaceConfig} {world : SourceWorld}
    {workspaceId : String} {observedAtMs : Nat} {existing : List String} {files : List SourceFile}
    {planning final : Planning} {seen : List String}
    (run : files.foldlM (planFile op config world workspaceId observedAtMs existing) planning =
      .ok final)
    (tracked : ∀ hash, hash ∉ existing → (hash ∈ seen ↔ hash ∈ planning.batchHashes)) :
    ∃ sources, final.planned = planning.planned ++ sources ∧
      List.Forall₂ (PlannedFrom op config world workspaceId observedAtMs)
        ((distinctDocuments seen files).filter fun document =>
          document.2.bodyHashHex ∉ existing) sources := by
  induction files generalizing planning seen with
  | nil =>
    have same : planning = final := Except.ok.inj run
    exact ⟨[], by simp [same], by simp [distinctDocuments]⟩
  | cons file rest ih =>
    rw [List.foldlM_cons] at run
    cases parsed : MarkdownDocument.fromPath file.relative file.body with
    | error error =>
      simp only [planFile, parsed, bind, Except.bind] at run
      obtain ⟨sources, planned, matched⟩ := ih run tracked
      exact ⟨sources, planned, by simpa [distinctDocuments, parsed] using matched⟩
    | ok document =>
      simp only [planFile, parsed] at run
      by_cases known : document.bodyHashHex ∈ existing ∨
          document.bodyHashHex ∈ planning.batchHashes
      · simp only [if_pos known, bind, Except.bind] at run
        by_cases before : document.bodyHashHex ∈ seen
        · obtain ⟨sources, planned, matched⟩ := ih run tracked
          exact ⟨sources, planned, by simpa [distinctDocuments, parsed, before] using matched⟩
        · have shown : document.bodyHashHex ∈ existing := by
            by_contra hidden
            rcases known with there | batch
            · exact hidden there
            · exact before ((tracked _ hidden).mpr batch)
          have tracked' : ∀ hash, hash ∉ existing →
              (hash ∈ seen ++ [document.bodyHashHex] ↔ hash ∈ planning.batchHashes) := by
            intro hash hidden
            have other : hash ≠ document.bodyHashHex := fun same => hidden (same ▸ shown)
            simpa [other] using tracked hash hidden
          obtain ⟨sources, planned, matched⟩ := ih run tracked'
          exact ⟨sources, planned, by simpa [distinctDocuments, parsed, before, shown] using matched⟩
      · simp only [if_neg known] at run
        obtain ⟨hidden, fresh⟩ := not_or.mp known
        have before : document.bodyHashHex ∉ seen := fun there =>
          fresh ((tracked _ hidden).mp there)
        cases extracted : extractClaims op config world workspaceId observedAtMs file.path document with
        | error error => simp [extracted, bind, Except.bind] at run
        | ok claims =>
          simp only [extracted, bind, Except.bind] at run
          have tracked' : ∀ hash, hash ∉ existing → (hash ∈ seen ++ [document.bodyHashHex] ↔
              hash ∈ planning.batchHashes ++ [document.bodyHashHex]) := by
            intro hash unseen
            simpa using or_congr (tracked hash unseen) Iff.rfl
          obtain ⟨sources, planned, matched⟩ := ih run tracked'
          refine ⟨⟨observation workspaceId observedAtMs document, claims⟩ :: sources, ?_, ?_⟩
          · simpa using planned
          · have first : PlannedFrom op config world workspaceId observedAtMs (file.path, document)
                ⟨observation workspaceId observedAtMs document, claims⟩ := ⟨rfl, extracted⟩
            simpa [distinctDocuments, parsed, before, hidden] using List.Forall₂.cons first matched

/-- The spec of planning: the plan holds exactly the unobserved documents, in order, each
with its claims. -/
theorem planSources_spec {op : String} {config : WorkspaceConfig} {world : SourceWorld}
    {workspaceId : String} {observedAtMs : Nat} {view : WorkspaceView} {plan : SourcePlan}
    (planned : planSources op config world workspaceId observedAtMs view = .ok plan) :
    List.Forall₂ (PlannedFrom op config world workspaceId observedAtMs) (world.unobserved view)
      plan.sources := by
  unfold planSources at planned
  cases found : world.discovery with
  | error detail => simp [found] at planned
  | ok discovery =>
    simp only [found] at planned
    cases run : discovery.files.foldlM
        (planFile op config world workspaceId observedAtMs (existingHashes view))
        { skipped := discoveryRows discovery } with
    | error error => simp [run, bind, Except.bind] at planned
    | ok planning =>
      simp only [run, bind, Except.bind, Except.ok.injEq] at planned
      have start : ∀ hash, hash ∉ existingHashes view → (hash ∈ ([] : List String) ↔
          hash ∈ ({ skipped := discoveryRows discovery } : Planning).batchHashes) := by
        simp
      obtain ⟨sources, same, matched⟩ := foldlM_planFile run start
      subst planned
      simpa [SourceWorld.unobserved, SourceWorld.documents, found, same] using matched

/-- The claims a document holds, read at some time; none where it cannot be read. -/
def offeredClaims (op : String) (config : WorkspaceConfig) (world : SourceWorld)
    (workspaceId : String) (observedAtMs : Nat) (document : String × MarkdownDocument) :
    List ClaimRecordedV2 :=
  match extractClaims op config world workspaceId observedAtMs document.1 document.2 with
  | .error _ => []
  | .ok claims => claims

/-- The ids of the claims a document holds; they do not depend on when it is read. -/
def offeredIds (op : String) (config : WorkspaceConfig) (world : SourceWorld) (workspaceId : String)
    (document : String × MarkdownDocument) : List String :=
  (offeredClaims op config world workspaceId 0 document).map ClaimRecordedV2.claimId

/-- Heuristic claims have the same ids whenever they are read. -/
theorem map_claimId_heuristicClaims (document : MarkdownDocument) (sourceId : SourceId)
    (workspaceId : String) (observedAtMs later : Nat) (lines : List MarkdownLine) :
    (lines.filterMap (heuristicClaim document sourceId workspaceId observedAtMs)).map
        ClaimRecordedV2.claimId =
      (lines.filterMap (heuristicClaim document sourceId workspaceId later)).map
        ClaimRecordedV2.claimId := by
  induction lines with
  | nil => rfl
  | cons line rest ih =>
    simp only [List.filterMap_cons, heuristicClaim]
    cases hintsFromLineNormalized line.text (normalizeLine line.text) with
    | none => exact ih
    | some hints =>
      simp only [Option.map_some, List.map_cons, List.cons.injEq, true_and]
      exact ih

/-- The output lines of a command give the same ids whenever they are read, in the workspace
they are read for. -/
theorem foldlM_cmdLine {op : String} {document : MarkdownDocument} {sourceId : SourceId}
    {workspaceId : String} {observedAtMs : Nat} (later : Nat) {rows : List (Nat × ExtractorLine)}
    {claims claims' done : List ClaimRecordedV2}
    (same : claims.map ClaimRecordedV2.claimId = claims'.map ClaimRecordedV2.claimId)
    (here : ∀ claim ∈ claims, claim.workspaceId = workspaceId)
    (run : rows.foldlM (cmdLine op document sourceId workspaceId observedAtMs) claims = .ok done) :
    (∃ done', rows.foldlM (cmdLine op document sourceId workspaceId later) claims' = .ok done' ∧
      done.map ClaimRecordedV2.claimId = done'.map ClaimRecordedV2.claimId) ∧
      ∀ claim ∈ done, claim.workspaceId = workspaceId := by
  induction rows generalizing claims claims' with
  | nil =>
    have last : claims = done := Except.ok.inj run
    subst last
    exact ⟨⟨claims', rfl, same⟩, here⟩
  | cons row rest ih =>
    rw [List.foldlM_cons] at run ⊢
    unfold cmdLine at run ⊢
    cases line : row.2 with
    | blank =>
      simp only [line, bind, Except.bind] at run ⊢
      exact ih same here run
    | malformed error => simp [line, bind, Except.bind] at run
    | claim parsed =>
      simp only [line, bind, Except.bind] at run ⊢
      refine ih (by simpa [cmdClaim] using same) ?_ run
      intro claim member
      rcases List.mem_append.mp member with early | late
      · exact here claim early
      · rw [List.mem_singleton.mp late]
        rfl

/-- Extraction at any time gives the offered ids, in the workspace it is asked for. -/
theorem extractClaims_ids {op : String} {config : WorkspaceConfig} {world : SourceWorld}
    {workspaceId : String} {observedAtMs : Nat} {document : String × MarkdownDocument}
    {claims : List ClaimRecordedV2}
    (extracted : extractClaims op config world workspaceId observedAtMs document.1 document.2 =
      .ok claims) :
    claims.map ClaimRecordedV2.claimId = offeredIds op config world workspaceId document ∧
      ∀ claim ∈ claims, claim.workspaceId = workspaceId := by
  unfold offeredIds offeredClaims
  unfold extractClaims at extracted ⊢
  cases command : config.extractorCmd with
  | none =>
    simp only [command, extractHeuristicClaims] at extracted ⊢
    cases source : sourceIdOf document.2.sourceId with
    | error error => simp [source, Except.map] at extracted
    | ok sourceId =>
      simp only [source, Except.map, Except.ok.injEq] at extracted ⊢
      subst extracted
      refine ⟨map_claimId_heuristicClaims _ _ _ _ _ _, ?_⟩
      intro claim member
      obtain ⟨line, _, made⟩ := List.mem_filterMap.mp member
      simp only [heuristicClaim, Option.map_eq_some_iff] at made
      obtain ⟨hints, _, rfl⟩ := made
      rfl
  | some cmd =>
    simp only [command, extractCmdClaims] at extracted ⊢
    cases output : world.runExtractor cmd document.1 with
    | failed error => simp [output] at extracted
    | notUtf8 error => simp [output] at extracted
    | lines rows =>
      simp only [output] at extracted ⊢
      cases source : sourceIdOf document.2.sourceId with
      | error error => simp [source, bind, Except.bind] at extracted
      | ok sourceId =>
        simp only [source, bind, Except.bind] at extracted ⊢
        have none : ([] : List ClaimRecordedV2).map ClaimRecordedV2.claimId =
            ([] : List ClaimRecordedV2).map ClaimRecordedV2.claimId := rfl
        obtain ⟨⟨done, run, ids⟩, here⟩ := foldlM_cmdLine 0 none (by simp) extracted
        simp only [run]
        exact ⟨ids, here⟩

/-- The claims of a plan are those its unobserved documents offer. -/
theorem newClaims_ids {op : String} {config : WorkspaceConfig} {world : SourceWorld}
    {workspaceId : String} {observedAtMs : Nat} {view : WorkspaceView} {plan : SourcePlan}
    (planned : planSources op config world workspaceId observedAtMs view = .ok plan) :
    plan.newClaims.map ClaimRecordedV2.claimId =
        (world.unobserved view).flatMap (offeredIds op config world workspaceId) ∧
      (∀ claim ∈ plan.newClaims, claim.workspaceId = workspaceId) ∧
      plan.newClaims =
        (world.unobserved view).flatMap (offeredClaims op config world workspaceId observedAtMs) := by
  have matched := planSources_spec planned
  unfold SourcePlan.newClaims
  generalize plan.sources = sources at matched ⊢
  generalize world.unobserved view = documents at matched ⊢
  induction matched with
  | nil => simp
  | cons first rest ih =>
    obtain ⟨ids, here⟩ := extractClaims_ids first.claims
    refine ⟨by simp only [List.flatMap_cons, List.map_append, ids, ih.1], ?_, ?_⟩
    · intro claim member
      rcases List.mem_append.mp member with head | tail
      · exact here claim head
      · exact ih.2.1 claim tail
    · rw [List.flatMap_cons, List.flatMap_cons, ih.2.2, offeredClaims, first.claims]

/-- Each claim of a list carries a claim id. -/
def AllBranded (claims : List ClaimRecordedV2) : Prop :=
  ∀ claim ∈ claims, ∃ own : ClaimId, claim.claimId = own.value

/-- One output line keeps the claims branded. -/
theorem cmdLine_branded {op : String} {document : MarkdownDocument} {sourceId : SourceId}
    {workspaceId : String} {observedAtMs : Nat} {claims next : List ClaimRecordedV2}
    {row : Nat × ExtractorLine}
    (moved : cmdLine op document sourceId workspaceId observedAtMs claims row = .ok next)
    (branded : AllBranded claims) : AllBranded next := by
  unfold cmdLine at moved
  split at moved
  · rw [← Except.ok.inj moved]
    exact branded
  · cases moved
  · rw [← Except.ok.inj moved]
    intro claim member
    rcases List.mem_append.mp member with early | late
    · exact branded claim early
    · rw [List.mem_singleton.mp late]
      exact ⟨_, rfl⟩

/-- Extracted claims carry ids derived from their parts. -/
theorem extractClaims_branded {op : String} {config : WorkspaceConfig} {world : SourceWorld}
    {workspaceId : String} {observedAtMs : Nat} {path : String} {document : MarkdownDocument}
    {claims : List ClaimRecordedV2}
    (extracted : extractClaims op config world workspaceId observedAtMs path document = .ok claims) :
    AllBranded claims := by
  unfold extractClaims at extracted
  cases command : config.extractorCmd with
  | none =>
    simp only [command, extractHeuristicClaims] at extracted
    cases source : sourceIdOf document.sourceId with
    | error error => simp [source, Except.map] at extracted
    | ok sourceId =>
      simp only [source, Except.map, Except.ok.injEq] at extracted
      subst extracted
      intro claim member
      obtain ⟨line, _, made⟩ := List.mem_filterMap.mp member
      obtain ⟨hints, _, rfl⟩ := Option.map_eq_some_iff.mp made
      exact ⟨_, rfl⟩
  | some cmd =>
    simp only [command, extractCmdClaims] at extracted
    cases output : world.runExtractor cmd path with
    | failed error => simp [output] at extracted
    | notUtf8 error => simp [output] at extracted
    | lines rows =>
      simp only [output] at extracted
      obtain ⟨sourceId, _, run⟩ := bind_eq_ok.mp extracted
      have none : AllBranded [] := by
        intro claim member
        cases member
      exact foldlM_preserves _ (fun _ _ _ _ moved branded => cmdLine_branded moved branded) run none

/-- A planned source is the observation of a document of the plan's files. -/
theorem planned_observation {op : String} {config : WorkspaceConfig} {world : SourceWorld}
    {workspaceId : String} {observedAtMs : Nat} {view : WorkspaceView} {plan : SourcePlan}
    (planned : planSources op config world workspaceId observedAtMs view = .ok plan)
    {source : PlannedSource} (inPlan : source ∈ plan.sources) :
    ∃ document ∈ world.unobserved view,
      source.observed = observation workspaceId observedAtMs document.2 := by
  have matched := planSources_spec planned
  generalize plan.sources = sources at matched inPlan
  generalize world.unobserved view = documents at matched ⊢
  induction matched with
  | nil => cases inPlan
  | cons first rest ih =>
    rcases List.mem_cons.mp inPlan with rfl | later
    · exact ⟨_, by simp, first.observed⟩
    · obtain ⟨document, member, observed⟩ := ih later
      exact ⟨document, by simp [member], observed⟩

/-- Planned claims carry claim ids. -/
theorem newClaims_branded {op : String} {config : WorkspaceConfig} {world : SourceWorld}
    {workspaceId : String} {observedAtMs : Nat} {view : WorkspaceView} {plan : SourcePlan}
    (planned : planSources op config world workspaceId observedAtMs view = .ok plan) :
    AllBranded plan.newClaims := by
  have matched := planSources_spec planned
  unfold SourcePlan.newClaims
  generalize plan.sources = sources at matched ⊢
  generalize world.unobserved view = documents at matched
  induction matched with
  | nil =>
    intro claim member
    cases member
  | cons first rest ih =>
    intro claim member
    rcases List.mem_append.mp member with head | tail
    · exact extractClaims_branded first.claims claim head
    · exact ih claim tail

/-- The name of the operation shows in the errors of extraction only. -/
theorem extractClaims_toOption (op op' : String) (config : WorkspaceConfig) (world : SourceWorld)
    (workspaceId : String) (observedAtMs : Nat) (path : String) (document : MarkdownDocument) :
    (extractClaims op config world workspaceId observedAtMs path document).toOption =
      (extractClaims op' config world workspaceId observedAtMs path document).toOption := by
  unfold extractClaims
  cases config.extractorCmd with
  | none => rfl
  | some cmd =>
    simp only [extractCmdClaims]
    cases world.runExtractor cmd path with
    | failed error => rfl
    | notUtf8 error => rfl
    | lines rows =>
      cases sourceIdOf document.sourceId with
      | error error => rfl
      | ok sourceId =>
        apply foldlM_toOption
        intro claims row
        unfold cmdLine
        cases row.2 <;> rfl

/-- The name of the operation shows in the errors of planning only. -/
theorem planFile_toOption (op op' : String) (config : WorkspaceConfig) (world : SourceWorld)
    (workspaceId : String) (observedAtMs : Nat) (existing : List String) (planning : Planning)
    (file : SourceFile) :
    (planFile op config world workspaceId observedAtMs existing planning file).toOption =
      (planFile op' config world workspaceId observedAtMs existing planning file).toOption := by
  unfold planFile
  cases MarkdownDocument.fromPath file.relative file.body with
  | error error => rfl
  | ok document =>
    simp only
    by_cases known : document.bodyHashHex ∈ existing ∨ document.bodyHashHex ∈ planning.batchHashes
    · rw [if_pos known, if_pos known]
    · rw [if_neg known, if_neg known]
      have same := extractClaims_toOption op op' config world workspaceId observedAtMs file.path
        document
      cases left : extractClaims op config world workspaceId observedAtMs file.path document <;>
        cases right : extractClaims op' config world workspaceId observedAtMs file.path document
      · rfl
      · simp [left, right, Except.toOption] at same
      · simp [left, right, Except.toOption] at same
      · have equal : _ = _ := Option.some.inj (by simpa [left, right, Except.toOption] using same)
        rw [equal]

/-- Two operations plan the same sources. -/
theorem planSources_toOption (op op' : String) (config : WorkspaceConfig) (world : SourceWorld)
    (workspaceId : String) (observedAtMs : Nat) (view : WorkspaceView) :
    (planSources op config world workspaceId observedAtMs view).toOption =
      (planSources op' config world workspaceId observedAtMs view).toOption := by
  unfold planSources
  cases world.discovery with
  | error detail => rfl
  | ok discovery =>
    simp only
    have same := foldlM_toOption (planFile_toOption op op' config world workspaceId observedAtMs
      (existingHashes view)) discovery.files { skipped := discoveryRows discovery }
    cases left : discovery.files.foldlM
        (planFile op config world workspaceId observedAtMs (existingHashes view))
        { skipped := discoveryRows discovery } <;>
      cases right : discovery.files.foldlM
        (planFile op' config world workspaceId observedAtMs (existingHashes view))
        { skipped := discoveryRows discovery }
    · rfl
    · simp [left, right, Except.toOption] at same
    · simp [left, right, Except.toOption] at same
    · have equal : _ = _ := Option.some.inj (by simpa [left, right, Except.toOption] using same)
      rw [equal]

end Texo.Ingest
