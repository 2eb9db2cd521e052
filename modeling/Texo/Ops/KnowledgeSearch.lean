import Texo.CodeIndex.Artifact
import Texo.Ops.ClaimsSearch
import Texo.Ops.Coverage

/-! # Searching claims and code

`texo.knowledge.search`: the claims of a pinned view and the code occurrences of its source
snapshot that match a query, ranked and page by page. The cursor of a page carries the number of
results before the next one and a digest of what was searched for.
-/
namespace Texo.Ops
open Texo.Events Texo.Knowledge Texo.Store Texo.Claims Texo.Extract Texo.Foundation Texo.CodeIndex

/-- `KnowledgeSearchInput`. -/
structure KnowledgeSearchInput where
  query : Option String := none
  subject : Option String := none
  status : Option ClaimStatus := none
  limit : Option Nat := none
  cursor : Option String := none
  snapshot : Option String := none
deriving DecidableEq

/-- `KnowledgeSearchResult`. -/
inductive KnowledgeSearchResult where
  | claim (claim : AgentClaimRow)
  | code (occurrence : CodeOccurrence)
deriving DecidableEq

/-- `RankedKnowledgeResult`. -/
structure RankedKnowledgeResult where
  rank : Nat
  key : String
  result : KnowledgeSearchResult
deriving DecidableEq

/-- The order of results: by rank, then by key. -/
def resultLe (left right : RankedKnowledgeResult) : Prop :=
  left.rank < right.rank ∨ left.rank = right.rank ∧ left.key ≤ right.key

instance : DecidableRel resultLe := fun left right => by
  unfold resultLe
  infer_instance

instance : Std.Total resultLe where
  total left right := by
    unfold resultLe
    rcases Nat.lt_trichotomy left.rank right.rank with less | same | more
    · exact Or.inl (Or.inl less)
    · rcases le_total left.key right.key with before | behind
      · exact Or.inl (Or.inr ⟨same, before⟩)
      · exact Or.inr (Or.inr ⟨same.symm, behind⟩)
    · exact Or.inr (Or.inl more)

instance : IsTrans RankedKnowledgeResult resultLe where
  trans := by
    intro first second third early late
    unfold resultLe at *
    rcases early with lower | ⟨same, before⟩
    · rcases late with lower' | ⟨same', _⟩
      · exact Or.inl (Nat.lt_trans lower lower')
      · exact Or.inl (same' ▸ lower)
    · rcases late with lower' | ⟨same', behind⟩
      · exact Or.inl (same ▸ lower')
      · exact Or.inr ⟨same.trans same', le_trans before behind⟩

/-- `KnowledgeSearchOutput`. -/
structure KnowledgeSearchOutput where
  workspaceId : String
  frontier : Nat
  total : Nat
  returned : Nat
  hasMore : Bool
  nextCursor : Option String
  results : List KnowledgeSearchResult
  codeIndexAvailable : Bool
  coverage : KnowledgeCoverage
  snapshot : SnapshotRead
deriving DecidableEq

/-- The name of the operation. -/
def knowledgeSearchOp : String := "texo.knowledge.search"

/-- The schema of a cursor. -/
def knowledgeCursorSchema : String := "texo-knowledge-v1:"

/-- `ClaimStatus::as_str`. -/
def claimStatusText : ClaimStatus → String
  | .current => "current"
  | .superseded => "superseded"
  | .conflicting => "conflicting"

/-- `claim_search_rank`. -/
def claimSearchRank (claim : AgentClaimRow) (query : List Char) : Option Nat :=
  if query.isEmpty then
    some 0
  else
    let text := toAsciiLowercase claim.text.toList
    let subject := toAsciiLowercase (claim.subjectHint.getD "").toList
    let path := toAsciiLowercase claim.source.path.toList
    if text = query ∨ subject = query then some 0
    else if query.isPrefixOf text ∨ query.isPrefixOf subject then some 1
    else if containsText text query ∨ containsText subject query then some 2
    else if containsText path query then some 3
    else none

/-- `code_search_rank`. -/
def codeSearchRank (occurrence : CodeOccurrence) (query : List Char) : Option Nat :=
  if query.isEmpty then
    some 1
  else
    let name := toAsciiLowercase occurrence.displayName.toList
    let symbol := toAsciiLowercase occurrence.symbol.toList
    let path := toAsciiLowercase occurrence.path.toList
    if name = query ∨ symbol = query then some 0
    else if query.isPrefixOf name then some 1
    else if containsText name query ∨ containsText symbol query then some 2
    else if containsText path query then some 3
    else none

/-- A claim with its rank. -/
def rankedClaim (query : List Char) (claim : AgentClaimRow) : Option RankedKnowledgeResult :=
  (claimSearchRank claim query).map fun rank => ⟨rank, "claim:" ++ claim.claimId, .claim claim⟩

/-- A code occurrence with its rank. -/
def rankedCode (query : List Char) (occurrence : CodeOccurrence) : Option RankedKnowledgeResult :=
  (codeSearchRank occurrence query).map fun rank =>
    ⟨rank, "code:" ++ occurrence.symbol ++ ":" ++ occurrence.path ++ ":" ++
      toString occurrence.byteRange.1, .code occurrence⟩

/-- `validated_knowledge_search`. -/
def validatedKnowledgeSearch (input : KnowledgeSearchInput) : Except TexoError (String × Nat) := do
  let query := input.query.getD ""
  require (query.utf8ByteSize ≤ 256) (.opInput knowledgeSearchOp "query exceeds 256 bytes")
  let limit := input.limit.getD 25
  require (1 ≤ limit ∧ limit ≤ 100)
    (.opInput knowledgeSearchOp "limit must be between 1 and 100")
  .ok (query, limit)

/-- `invalid_knowledge_cursor`. -/
def invalidKnowledgeCursor : TexoError :=
  .opInput knowledgeSearchOp "cursor is invalid for this query and snapshot"

/-- `parse_knowledge_search_cursor`. -/
def parseKnowledgeSearchCursor (cursor : Option String) (expectedIdentity : String) :
    Except TexoError Nat :=
  match cursor with
  | none => .ok 0
  | some cursor =>
    match stripPrefix knowledgeCursorSchema.toList cursor.toList with
    | none => .error invalidKnowledgeCursor
    | some rest =>
      match splitOnce [':'] rest with
      | none => .error invalidKnowledgeCursor
      | some (identity, offset) =>
        if identity ≠ expectedIdentity.toList then
          .error invalidKnowledgeCursor
        else
          match parseUnsigned (2 ^ 64) offset with
          | none => .error invalidKnowledgeCursor
          | some value => .ok value

/-- `LoadedCodeArtifact`. -/
structure LoadedCodeArtifact where
  artifact : Option CodeIndexArtifact := none
  coverage : Option KnowledgeCoverage := none
  unavailable : Bool := false

/-- A cursor as a search writes it. -/
def knowledgeCursor (identity : String) (offset : Nat) : String :=
  knowledgeCursorSchema ++ identity ++ ":" ++ toString offset

/-- What a search found: its results in order, the coverage and whether code was searched. -/
structure FoundKnowledge where
  ranked : List RankedKnowledgeResult
  coverage : KnowledgeCoverage
  codeIndexAvailable : Bool

/-- One page of what was found. -/
def FoundKnowledge.page (found : FoundKnowledge) (view : WorkspaceView) (snapshot : SnapshotRead)
    (identity : String) (limit offset : Nat) : KnowledgeSearchOutput :=
  let page := (found.ranked.drop offset).take limit
  let nextOffset := offset + page.length
  { workspaceId := view.workspaceId
    frontier := view.frontier
    total := found.ranked.length
    returned := page.length
    hasMore := nextOffset < found.ranked.length
    nextCursor :=
      if nextOffset < found.ranked.length then some (knowledgeCursor identity nextOffset) else none
    results := page.map RankedKnowledgeResult.result
    codeIndexAvailable := found.codeIndexAvailable
    coverage := found.coverage
    snapshot := snapshot }

/-- The text a cursor's digest is made of. -/
def knowledgeSearchMaterial (snapshot : SnapshotRead) (query : String)
    (input : KnowledgeSearchInput) : String :=
  "texo.knowledge.search.v1" ++ "\x1f" ++ snapshot.token ++ "\x1f" ++ query ++ "\x1f" ++
    input.subject.getD "" ++ "\x1f" ++ input.status.elim "" claimStatusText

section
variable [Blake3]

/-- `knowledge_search_identity`. -/
def knowledgeSearchIdentity (snapshot : SnapshotRead) (query : String)
    (input : KnowledgeSearchInput) : String :=
  cut (blake3HashHex (knowledgeSearchMaterial snapshot query input)) 16

/-- `coverage_for_view`. -/
def coverageForView (store : JournalRead) (workspaceId : String) (view : WorkspaceView)
    (snapshot : SnapshotRead) : Except TexoError KnowledgeCoverage := do
  let recorded ← latestSourceSnapshot store workspaceId (some view.frontier)
  .ok <| match recorded.filter fun recorded =>
      some recorded.snapshotId = snapshot.descriptor.sourceSnapshotId with
    | some recorded => recorded.coverage
    | none =>
      { analysisQuality := .unavailable
        sourcesExamined := view.sources.length
        occurrences := view.claims.length
        truncated := false
        gaps := [⟨none, .sourceSnapshotUnavailable⟩] }

variable [ArtifactCodec]

/-- `load_code_artifact_at`. -/
def loadCodeArtifactAt (store : JournalRead) (files : CodeIndexId → Option (List UInt8))
    (workspaceId : String) (frontier : Nat) (sourceSnapshotId : SourceSnapshotId) :
    Except TexoError LoadedCodeArtifact := do
  match ← latestCodeIndex store workspaceId (some frontier) sourceSnapshotId with
  | none => .ok { unavailable := true }
  | some recorded => do
    let artifact ← load files recorded.indexId recorded.artifactDigestHex
    require (artifact.all fun artifact => artifact.snapshotId = sourceSnapshotId)
      (.snapshot .sourceUnavailable
        "code-index artifact belongs to a different source snapshot")
    .ok { unavailable := artifact.isNone, coverage := some recorded.coverage, artifact := artifact }

/-- The code plane of a search, for the source snapshot whose code is searched. -/
def searchCode (store : JournalRead) (files : CodeIndexId → Option (List UInt8))
    (workspaceId : String) (frontier : Nat) (query : List Char) (coverage : KnowledgeCoverage) :
    Option SourceSnapshotId → Except TexoError FoundKnowledge
  | none => .ok ⟨[], coverage, false⟩
  | some sourceSnapshotId => do
    let loaded ← loadCodeArtifactAt store files workspaceId frontier sourceSnapshotId
    .ok {
      ranked := loaded.artifact.elim [] fun artifact =>
        artifact.occurrences.filterMap (rankedCode query)
      coverage := loaded.coverage.elim coverage (mergeCoverage coverage)
      codeIndexAvailable := loaded.artifact.isSome
    }

/-- A coverage that tells that the code index is unavailable. -/
def withoutCodeIndex (coverage : KnowledgeCoverage) : KnowledgeCoverage :=
  if coverage.gaps.any fun gap => gap.kind = .codeIndexUnavailable then
    coverage
  else
    { coverage with gaps := coverage.gaps ++ [⟨none, .codeIndexUnavailable⟩] }

variable [EventNumbering]

/-- The part of `search_knowledge_from_view` that finds: everything but the cursor and the page. -/
def findKnowledge (store : JournalRead) (files : CodeIndexId → Option (List UInt8))
    (workspaceId : String) (view : WorkspaceView) (snapshot : SnapshotRead) (query : String)
    (subject : Option String) (status : Option ClaimStatus) : Except TexoError FoundKnowledge := do
  let queryLower := toAsciiLowercase query.toList
  let rows ← claimListRows store workspaceId view subject
  let claims := (rows.filter fun claim => status.all fun status => claim.status = status).filterMap
    (rankedClaim queryLower)
  let coverage ← coverageForView store workspaceId view snapshot
  -- A subject or status filter searches the claim plane alone.
  let codeSearched := subject.isNone && status.isNone
  let code ← searchCode store files workspaceId view.frontier queryLower coverage
    (snapshot.descriptor.sourceSnapshotId.filter fun _ => codeSearched)
  .ok {
    ranked := (claims ++ code.ranked).insertionSort resultLe
    coverage := if codeSearched && !code.codeIndexAvailable then
      withoutCodeIndex code.coverage else code.coverage
    codeIndexAvailable := code.codeIndexAvailable
  }

/-- `search_knowledge_from_view`. -/
def searchKnowledgeFromView (store : JournalRead) (files : CodeIndexId → Option (List UInt8))
    (workspaceId : String) (view : WorkspaceView) (snapshot : SnapshotRead)
    (input : KnowledgeSearchInput) : Except TexoError KnowledgeSearchOutput := do
  let (query, limit) ← validatedKnowledgeSearch input
  let identity := knowledgeSearchIdentity snapshot query input
  let offset ← parseKnowledgeSearchCursor input.cursor identity
  let found ← findKnowledge store files workspaceId view snapshot query input.subject input.status
  .ok (found.page view snapshot identity limit offset)

/-- `knowledge_search`. -/
def knowledgeSearch (store : JournalRead) (files : CodeIndexId → Option (List UInt8))
    (workspaceId : String) (journalId : JournalId) (cache : WorkspaceCache)
    (input : KnowledgeSearchInput) : Except TexoError KnowledgeSearchOutput := do
  let (view, snapshot) ← assembleSnapshotView store workspaceId journalId cache input.snapshot
  searchKnowledgeFromView store files workspaceId view snapshot input

end

/-- The texts of the statuses are distinct, and none of them is empty. -/
theorem statusText_inj (status status' : Option ClaimStatus) :
    status.elim "" claimStatusText = status'.elim "" claimStatusText ↔ status = status' := by
  rcases status with _ | status <;> rcases status' with _ | status'
  · simp
  · cases status' <;> decide
  · cases status <;> decide
  · cases status <;> cases status' <;> decide

/-- No status is written with the separator of the material. -/
theorem separator_notMem_status (status : Option ClaimStatus) :
    '\x1f' ∉ (status.elim "" claimStatusText).toList := by
  rcases status with _ | status
  · decide
  · cases status <;> decide

section
variable [Blake3]

/-- No token that resolves is written with the separator of the material. -/
theorem separator_notMem_token (digests : ∀ bytes, isLowerHex (Blake3.hex bytes) 64 = true)
    {value : String} {workspaceId : WorkspaceId} {journalId : JournalId}
    {descriptor : SnapshotDescriptor}
    (resolved : SnapshotToken.resolveForJournal value workspaceId journalId = .ok descriptor) :
    '\x1f' ∉ (SnapshotToken.forDescriptor descriptor).toList := by
  obtain ⟨_, anchor, source, reads⟩ := resolveForJournal_eq_ok.mp resolved
  obtain ⟨anchored, sourced, _⟩ := reads.material
  have digits : ∀ {text : String} {length : Nat}, isLowerHex text length = true →
      '\x1f' ∉ text.toList := by
    intro text length hex member
    exact absurd ((isLowerHex_iff.mp hex).2 _ member) (by decide)
  have anchorClear : '\x1f' ∉ anchor.toList := by
    rcases reads.event with dash | hex
    · rw [dash]
      decide
    · exact digits hex
  have sourceClear : '\x1f' ∉ source.toList := by
    have parsed := reads.snapshot
    unfold parseSource at parsed
    split at parsed
    · rename_i none
      rw [none]
      decide
    · cases read : SourceSnapshotId.parse source with
      | error error =>
        rw [read] at parsed
        cases parsed
      | ok snapshotId =>
        unfold SourceSnapshotId.parse at read
        split at read
        · split at read
          · rename_i formed
            intro member
            simp only [wellFormedId, Bool.and_eq_true, List.all_eq_true] at formed
            exact absurd (formed.2 _ member) (by decide)
          · cases read
        · cases read
  have frontierClear : '\x1f' ∉ (toString descriptor.frontier).toList := by
    rw [Nat.toString_eq_repr, Nat.toList_repr]
    exact notMem_decimal (by decide) _
  have checksumClear := digits (isLowerHex_cut (digests (asBytes descriptor.material))
    (show 32 ≤ 64 by omega))
  have schemaClear : '\x1f' ∉ "texo_snap_v2".toList := by decide
  have dotClear : '\x1f' ∉ ".".toList := by decide
  rw [SnapshotToken.forDescriptor, anchored, sourced, String.toList_intercalate]
  simp only [List.map_cons, List.map_nil, List.intercalate_cons_cons, List.intercalate_singleton,
    List.mem_append, not_or]
  exact ⟨⟨schemaClear, dotClear⟩, ⟨frontierClear, dotClear⟩, ⟨anchorClear, dotClear⟩,
    ⟨sourceClear, dotClear⟩, checksumClear⟩

/-- The part of the material that says what is searched for in the text. -/
def searchedText (terms : SearchTerms) : String :=
  terms.query.getD "" ++ "\x1f" ++ terms.subject.getD ""

/-- The request of one page of a pinned search. -/
def SearchTerms.pinned (terms : SearchTerms) (token : String) (limit : Option Nat)
    (cursor : Option String) : KnowledgeSearchInput where
  query := terms.query
  subject := terms.subject
  status := terms.status
  limit := limit
  cursor := cursor
  snapshot := some token

/-- The digest a cursor of the terms carries. -/
def SearchTerms.identity (terms : SearchTerms) (snapshot : SnapshotRead) : String :=
  knowledgeSearchIdentity snapshot (terms.query.getD "") (terms.pinned snapshot.token none none)

/-- The text that digest is made of. -/
def SearchTerms.material (terms : SearchTerms) (snapshot : SnapshotRead) : String :=
  knowledgeSearchMaterial snapshot (terms.query.getD "") (terms.pinned snapshot.token none none)

omit [Blake3] in
/-- Materials of tokens without a separator are equal exactly where token, status and searched
text are. -/
theorem material_eq_iff {terms terms' : SearchTerms} {snapshot snapshot' : SnapshotRead}
    (clear : '\x1f' ∉ snapshot.token.toList)
    (clear' : '\x1f' ∉ snapshot'.token.toList) :
    terms.material snapshot = terms'.material snapshot' ↔
      snapshot.token = snapshot'.token ∧ terms.status = terms'.status ∧
        searchedText terms = searchedText terms' := by
  have separator : "\x1f".toList = ['\x1f'] := by decide
  have spelled : ∀ (terms : SearchTerms) (snapshot : SnapshotRead),
      (terms.material snapshot).toList = ("texo.knowledge.search.v1".toList ++ ['\x1f']) ++
        (snapshot.token.toList ++ '\x1f' :: ((searchedText terms).toList ++ '\x1f' ::
          (terms.status.elim "" claimStatusText).toList)) := by
    intro terms snapshot
    unfold SearchTerms.material knowledgeSearchMaterial SearchTerms.pinned searchedText
    simp only [String.toList_append, separator, List.append_assoc, List.cons_append,
      List.nil_append]
  constructor
  · intro same
    have chars := congrArg String.toList same
    rw [spelled, spelled, List.append_cancel_left_eq] at chars
    have tokens := splitOnce_singleton clear ((searchedText terms).toList ++ '\x1f' ::
      (terms.status.elim "" claimStatusText).toList)
    rw [chars, splitOnce_singleton clear'] at tokens
    obtain ⟨token, rest⟩ := Prod.mk.inj (Option.some.inj tokens)
    obtain ⟨text, status⟩ := append_cons_inj_last (separator_notMem_status _)
      (separator_notMem_status _) rest
    exact ⟨String.toList_injective token.symm,
      ((statusText_inj _ _).mp (String.toList_injective status)).symm,
      String.toList_injective text.symm⟩
  · rintro ⟨token, status, text⟩
    apply String.toList_injective
    rw [spelled, spelled, token, status, text]

/-- A digest's cut has no colon. -/
theorem colon_notMem_identity (digests : ∀ bytes, isLowerHex (Blake3.hex bytes) 64 = true)
    (terms : SearchTerms) (snapshot : SnapshotRead) :
    ':' ∉ (terms.identity snapshot).toList := by
  intro member
  have hex := isLowerHex_cut (digests (asBytes (terms.material snapshot)))
    (show 16 ≤ 64 by omega)
  exact absurd ((isLowerHex_iff.mp hex).2 _ member) (by decide)

omit [Blake3] in
/-- A cursor is cut into its digest and its count. -/
theorem knowledgeCursor_cut {identity : String} (clear : ':' ∉ identity.toList) (offset : Nat) :
    stripPrefix knowledgeCursorSchema.toList (knowledgeCursor identity offset).toList =
        some (identity.toList ++ ':' :: Nat.toDigits 10 offset) ∧
      splitOnce [':'] (identity.toList ++ ':' :: Nat.toDigits 10 offset) =
        some (identity.toList, Nat.toDigits 10 offset) := by
  have colon : ":".toList = [':'] := by decide
  constructor
  · rw [stripPrefix_eq_some, knowledgeCursor, Nat.toString_eq_repr]
    simp only [String.toList_append, Nat.toList_repr, colon, List.append_assoc,
      List.singleton_append]
  · exact splitOnce_singleton clear _

omit [Blake3] in
/-- A cursor is refused where another digest is expected. -/
theorem parse_other_identity {identity expected : String} (clear : ':' ∉ identity.toList)
    (offset : Nat) (other : identity ≠ expected) :
    parseKnowledgeSearchCursor (some (knowledgeCursor identity offset)) expected =
      .error invalidKnowledgeCursor := by
  obtain ⟨stripped, split⟩ := knowledgeCursor_cut clear offset
  unfold parseKnowledgeSearchCursor
  simp only [stripped, split]
  rw [if_pos]
  intro same
  exact other (String.toList_injective same)

omit [Blake3] in
/-- A cursor reads as its count where its own digest is expected. -/
theorem parse_own_identity {identity : String} (clear : ':' ∉ identity.toList) {offset : Nat}
    (bounded : offset < 2 ^ 64) :
    parseKnowledgeSearchCursor (some (knowledgeCursor identity offset)) identity = .ok offset := by
  obtain ⟨stripped, split⟩ := knowledgeCursor_cut clear offset
  unfold parseKnowledgeSearchCursor
  simp only [stripped, split, ne_eq, not_true_eq_false, if_false, parseUnsigned_decimal bounded]

/-- A search of a client that keeps to one token: the store and its files, and what is searched
for. -/
structure PinnedSearch where
  store : JournalRead
  files : CodeIndexId → Option (List UInt8)
  workspaceId : String
  journalId : JournalId
  token : String
  terms : SearchTerms

variable [ArtifactCodec] [EventNumbering]

/-- The answer to one page of a pinned search. -/
def PinnedSearch.page (search : PinnedSearch) (limit : Option Nat) (cursor : Option String) :
    Except TexoError KnowledgeSearchOutput :=
  knowledgeSearch search.store search.files search.workspaceId search.journalId {}
    (search.terms.pinned search.token limit cursor)

/-- What a pinned search reads: the view and snapshot of its token and what it finds there. -/
structure PinnedSearch.Reads (search : PinnedSearch) (view : WorkspaceView)
    (snapshot : SnapshotRead) (found : FoundKnowledge) : Prop where
  pinned : requestedSnapshotView search.store search.workspaceId search.journalId search.token =
    .ok (view, snapshot)
  finds : findKnowledge search.store search.files search.workspaceId view snapshot
    (search.terms.query.getD "") search.terms.subject search.terms.status = .ok found
  short : (search.terms.query.getD "").utf8ByteSize ≤ 256

/-- The spec of a page: a limit the operation takes, a cursor it reads, and the results behind
it. -/
theorem PinnedSearch.Reads.page_ok_iff {search : PinnedSearch} {view : WorkspaceView}
    {snapshot : SnapshotRead} {found : FoundKnowledge} (reads : search.Reads view snapshot found)
    {limit : Option Nat} {cursor : Option String} {output : KnowledgeSearchOutput} :
    search.page limit cursor = .ok output ↔
      (1 ≤ limit.getD 25 ∧ limit.getD 25 ≤ 100) ∧ ∃ offset,
        parseKnowledgeSearchCursor cursor (search.terms.identity snapshot) = .ok offset ∧
          found.page view snapshot (search.terms.identity snapshot) (limit.getD 25) offset =
            output := by
  have assembled : assembleSnapshotView search.store search.workspaceId search.journalId {}
      (search.terms.pinned search.token limit cursor).snapshot = .ok (view, snapshot) :=
    reads.pinned
  unfold PinnedSearch.page knowledgeSearch
  rw [assembled]
  show searchKnowledgeFromView _ _ _ view snapshot _ = _ ↔ _
  unfold searchKnowledgeFromView validatedKnowledgeSearch
  simp only [bind_eq_ok, require_eq_ok, Except.ok.injEq, Prod.exists, Prod.mk.injEq]
  constructor
  · rintro ⟨query, count, ⟨_, _, _, bounds, named, counted⟩, offset, parsed, results, finds, same⟩
    rw [← named] at finds parsed
    have agree : found = results := Except.ok.inj (reads.finds.symm.trans finds)
    rw [← counted, ← agree, ← named] at same
    exact ⟨bounds, offset, parsed, same⟩
  · rintro ⟨bounds, offset, parsed, same⟩
    exact ⟨_, _, ⟨(), reads.short, (), bounds, rfl, rfl⟩, offset, parsed, found, reads.finds, same⟩

/-- A cursor that is read gets its page. -/
theorem PinnedSearch.Reads.page_own {search : PinnedSearch} {view : WorkspaceView}
    {snapshot : SnapshotRead} {found : FoundKnowledge} (reads : search.Reads view snapshot found)
    {limit offset : Nat} {cursor : Option String} (low : 1 ≤ limit) (high : limit ≤ 100)
    (parsed : parseKnowledgeSearchCursor cursor (search.terms.identity snapshot) = .ok offset) :
    search.page (some limit) cursor =
      .ok (found.page view snapshot (search.terms.identity snapshot) limit offset) :=
  reads.page_ok_iff.mpr ⟨⟨low, high⟩, offset, parsed, rfl⟩

/-- A client that follows the cursors of a pinned search: how many pages it asked for, what it has
received and the cursor it holds. -/
inductive KnowledgeRun (search : PinnedSearch) :
    Nat → List KnowledgeSearchResult → Option String → Prop
  | first {limit : Option Nat} {output : KnowledgeSearchOutput}
      (answered : search.page limit none = .ok output) :
      KnowledgeRun search 1 output.results output.nextCursor
  | next {pages : Nat} {received : List KnowledgeSearchResult} {cursor : String}
      {limit : Option Nat} {output : KnowledgeSearchOutput}
      (earlier : KnowledgeRun search pages received (some cursor))
      (answered : search.page limit (some cursor) = .ok output) :
      KnowledgeRun search (pages + 1) (received ++ output.results) output.nextCursor

/-- What a client that follows the cursors can rely on: it has received the first results in order,
all of them once no cursor follows, and while one does, at least as many as it asked for pages,
and every limit the operation takes gets it the next page. -/
structure PagesThrough (search : PinnedSearch) (results received : List KnowledgeSearchResult)
    (pages : Nat) (cursor : Option String) : Prop where
  leading : received <+: results
  finished : cursor = none → received = results
  counted : cursor ≠ none → pages ≤ received.length ∧ received.length < results.length
  goesOn : ∀ text, cursor = some text → ∀ limit, 1 ≤ limit → limit ≤ 100 →
    ∃ output, search.page (some limit) (some text) = .ok output

omit [Blake3] [ArtifactCodec] [EventNumbering] in
/-- The step law of pages: one more behind what was received. -/
theorem FoundKnowledge.page_results (found : FoundKnowledge) (view : WorkspaceView)
    (snapshot : SnapshotRead) (identity : String) {limit : Nat} (atLeast : 1 ≤ limit)
    {received : List KnowledgeSearchResult}
    (leading : received <+: found.ranked.map RankedKnowledgeResult.result) :
    let output := found.page view snapshot identity limit received.length
    let whole := received ++ output.results
    whole <+: found.ranked.map RankedKnowledgeResult.result ∧
      (output.nextCursor = none → whole = found.ranked.map RankedKnowledgeResult.result) ∧
      ∀ text, output.nextCursor = some text →
        text = knowledgeCursor identity whole.length ∧ received.length + 1 ≤ whole.length ∧
          whole.length < (found.ranked.map RankedKnowledgeResult.result).length := by
  intro output whole
  obtain ⟨rest, split⟩ := leading
  have behind : (found.ranked.drop received.length).map RankedKnowledgeResult.result = rest := by
    rw [List.map_drop, ← split, List.drop_left]
  have results : output.results = rest.take limit := by
    show ((found.ranked.drop received.length).take limit).map _ = _
    rw [List.map_take, behind]
  have total : received.length + rest.length = found.ranked.length := by
    have lengths := congrArg List.length split
    rw [List.length_append, List.length_map] at lengths
    exact lengths
  have size : whole.length = received.length + output.results.length := List.length_append
  have pageSize : output.results.length = min limit rest.length := by
    rw [results, List.length_take]
  have returned : ((found.ranked.drop received.length).take limit).length =
      output.results.length := (List.length_map _).symm
  have cursor : output.nextCursor =
      if received.length + output.results.length < found.ranked.length then
        some (knowledgeCursor identity (received.length + output.results.length)) else none := by
    rw [← returned]
    rfl
  refine ⟨?_, ?_, ?_⟩
  · rw [← split]
    show received ++ output.results <+: _
    rw [results]
    exact (List.prefix_append_right_inj received).mpr (List.take_prefix limit rest)
  · intro done
    rw [cursor] at done
    split at done
    · cases done
    · show received ++ output.results = _
      have all : rest.length ≤ limit := by omega
      rw [results, List.take_of_length_le all, split]
  · intro text more
    rw [cursor] at more
    split at more
    · rename_i below
      have same := Option.some.inj more
      refine ⟨?_, ?_, ?_⟩
      · rw [← same, size]
      · omega
      · rw [List.length_map]
        omega
    · cases more

/-- The run law of pages. -/
theorem KnowledgeRun.through (digests : ∀ bytes, isLowerHex (Blake3.hex bytes) 64 = true)
    {search : PinnedSearch} {view : WorkspaceView} {snapshot : SnapshotRead}
    {found : FoundKnowledge} (reads : search.Reads view snapshot found)
    (bounded : found.ranked.length < 2 ^ 64) {pages : Nat}
    {received : List KnowledgeSearchResult} {cursor : Option String}
    (run : KnowledgeRun search pages received cursor) :
    PagesThrough search (found.ranked.map RankedKnowledgeResult.result) received pages cursor ∧
      ∀ text, cursor = some text →
        text = knowledgeCursor (search.terms.identity snapshot) received.length := by
  have clear := colon_notMem_identity digests search.terms snapshot
  -- One page behind what was received before it, for the first page and every later one.
  have page : ∀ {pages : Nat} {received : List KnowledgeSearchResult} {limit : Option Nat}
      {cursor : Option String} {output : KnowledgeSearchOutput},
      received <+: found.ranked.map RankedKnowledgeResult.result → pages ≤ received.length →
      parseKnowledgeSearchCursor cursor (search.terms.identity snapshot) = .ok received.length →
      search.page limit cursor = .ok output →
      PagesThrough search (found.ranked.map RankedKnowledgeResult.result)
          (received ++ output.results) (pages + 1) output.nextCursor ∧
        ∀ text, output.nextCursor = some text →
          text = knowledgeCursor (search.terms.identity snapshot)
            (received ++ output.results).length := by
    intro pages received limit cursor output leading counted parsed answered
    obtain ⟨bounds, offset, read, same⟩ := reads.page_ok_iff.mp answered
    have here : offset = received.length := Except.ok.inj (read.symm.trans parsed)
    rw [here] at same
    obtain ⟨prefixed, finished, more⟩ :=
      found.page_results view snapshot (search.terms.identity snapshot) bounds.1 leading
    rw [same] at prefixed finished more
    refine ⟨⟨prefixed, finished, ?_, ?_⟩, fun text issued => (more text issued).1⟩
    · intro issued
      obtain ⟨text, named⟩ := Option.ne_none_iff_exists'.mp issued
      obtain ⟨_, grown, below⟩ := more text named
      exact ⟨by omega, below⟩
    · intro text issued next low high
      obtain ⟨named, _, below⟩ := more text issued
      rw [List.length_map] at below
      rw [named]
      exact ⟨_, reads.page_own low high (parse_own_identity clear (Nat.lt_trans below bounded))⟩
  induction run with
  | first answered =>
    have start := @page 0 [] _ _ _ List.nil_prefix (Nat.le_refl 0) rfl answered
    exact start
  | next earlier answered ih =>
    obtain ⟨through, named⟩ := ih
    obtain ⟨counted, below⟩ := through.counted (Option.some_ne_none _)
    rw [List.length_map] at below
    apply page through.leading counted ?_ answered
    rw [named _ rfl]
    exact parse_own_identity clear (Nat.lt_trans below bounded)

/-- A search refuses a cursor with every limit. -/
def PinnedSearch.Rejects (search : PinnedSearch) (cursor : String) : Prop :=
  ∀ limit output, search.page limit (some cursor) ≠ .ok output

/-- A cursor of one search is refused by another exactly where their materials differ. -/
theorem PinnedSearch.rejects_iff (digests : ∀ bytes, isLowerHex (Blake3.hex bytes) 64 = true)
    {search other : PinnedSearch} {otherView : WorkspaceView}
    {snapshot otherSnapshot : SnapshotRead} {otherFound : FoundKnowledge}
    (otherReads : other.Reads otherView otherSnapshot otherFound)
    (apart : search.terms.identity snapshot = other.terms.identity otherSnapshot →
      search.terms.material snapshot = other.terms.material otherSnapshot) {offset : Nat}
    (bounded : offset < 2 ^ 64) :
    other.Rejects (knowledgeCursor (search.terms.identity snapshot) offset) ↔
      search.terms.material snapshot ≠ other.terms.material otherSnapshot := by
  have clear := colon_notMem_identity digests search.terms snapshot
  constructor
  · intro rejected same
    have identity : search.terms.identity snapshot = other.terms.identity otherSnapshot :=
      congrArg (fun material => cut (blake3HashHex material) 16) same
    have parsed := parse_own_identity clear bounded
    rw [identity] at rejected parsed
    exact rejected (some 1) _ (otherReads.page_own (Nat.le_refl 1) (by decide) parsed)
  · intro different limit output answered
    obtain ⟨_, value, parsed, _⟩ := otherReads.page_ok_iff.mp answered
    rw [parse_other_identity clear offset fun same => different (apart same)] at parsed
    cases parsed

omit [ArtifactCodec] in
/-- A pinned read answers with the token of the descriptor its own token resolves to. -/
theorem requestedSnapshotView_token {store : JournalRead} {workspaceId : String}
    {journalId : JournalId} {requested : String} {view : WorkspaceView} {snapshot : SnapshotRead}
    (read : requestedSnapshotView store workspaceId journalId requested = .ok (view, snapshot)) :
    ∃ named descriptor, SnapshotToken.resolveForJournal requested named journalId =
        .ok descriptor ∧ snapshot.token = SnapshotToken.forDescriptor descriptor := by
  unfold requestedSnapshotView at read
  obtain ⟨named, _, read⟩ := bind_eq_ok.mp read
  cases resolved : SnapshotToken.resolveForJournal requested named journalId with
  | error error =>
    rw [resolved] at read
    cases read
  | ok descriptor =>
    rw [resolved] at read
    obtain ⟨_, same, read⟩ := bind_eq_ok.mp read
    cases same
    obtain ⟨_, _, read⟩ := bind_eq_ok.mp read
    obtain ⟨_, _, read⟩ := bind_eq_ok.mp read
    obtain ⟨_, _, read⟩ := bind_eq_ok.mp read
    cases assembled : assembleThrough store workspaceId descriptor.frontier with
    | error error =>
      rw [assembled] at read
      cases read
    | ok assembledView =>
      rw [assembled] at read
      have same : SnapshotRead.new descriptor = snapshot :=
        congrArg Prod.snd (Except.ok.inj read)
      exact ⟨named, descriptor, resolved, by rw [← same]; rfl⟩

/-- The token of a pinned search is not written with the separator of the material. -/
theorem PinnedSearch.Reads.clear (digests : ∀ bytes, isLowerHex (Blake3.hex bytes) 64 = true)
    {search : PinnedSearch} {view : WorkspaceView} {snapshot : SnapshotRead}
    {found : FoundKnowledge} (reads : search.Reads view snapshot found) :
    '\x1f' ∉ snapshot.token.toList := by
  obtain ⟨named, descriptor, resolved, token⟩ := requestedSnapshotView_token reads.pinned
  rw [token]
  exact separator_notMem_token digests resolved

/-- What a search finds is in rank order. -/
theorem findKnowledge_sorted {store : JournalRead} {files : CodeIndexId → Option (List UInt8)}
    {workspaceId : String} {view : WorkspaceView} {snapshot : SnapshotRead} {query : String}
    {subject : Option String} {status : Option ClaimStatus} {found : FoundKnowledge}
    (finds : findKnowledge store files workspaceId view snapshot query subject status =
      .ok found) : found.ranked.Pairwise resultLe := by
  unfold findKnowledge at finds
  obtain ⟨_, _, finds⟩ := bind_eq_ok.mp finds
  obtain ⟨_, _, finds⟩ := bind_eq_ok.mp finds
  obtain ⟨_, _, finds⟩ := bind_eq_ok.mp finds
  rw [← Except.ok.inj finds]
  exact List.pairwise_insertionSort resultLe _

/-- Searches of pinned tokens. Whoever follows the cursors of a search from its first page gets
its results in rank order, each once, and comes to an end. A cursor is refused by every search for
something else exactly where the two searches do not agree in token, status and the text of
query and subject while differing in the query or in the subject. -/
theorem knowledge_search_iff (digests : ∀ bytes, isLowerHex (Blake3.hex bytes) 64 = true)
    {search other : PinnedSearch} {view otherView : WorkspaceView}
    {snapshot otherSnapshot : SnapshotRead} {found otherFound : FoundKnowledge}
    (reads : search.Reads view snapshot found)
    (otherReads : other.Reads otherView otherSnapshot otherFound)
    (bounded : found.ranked.length < 2 ^ 64)
    (apart : search.terms.identity snapshot = other.terms.identity otherSnapshot →
      search.terms.material snapshot = other.terms.material otherSnapshot) :
    found.ranked.Pairwise resultLe ∧
      ∀ {pages : Nat} {received : List KnowledgeSearchResult} {cursor : Option String},
        KnowledgeRun search pages received cursor →
          PagesThrough search (found.ranked.map RankedKnowledgeResult.result) received pages
              cursor ∧
            ∀ text, cursor = some text →
              ((¬(snapshot.token = otherSnapshot.token ∧
                    search.terms.query.getD "" = other.terms.query.getD "" ∧
                    search.terms.subject = other.terms.subject ∧
                    search.terms.status = other.terms.status) → other.Rejects text) ↔
                (snapshot.token = otherSnapshot.token → search.terms.status = other.terms.status →
                  searchedText search.terms = searchedText other.terms →
                    search.terms.query.getD "" = other.terms.query.getD "" ∧
                      search.terms.subject = other.terms.subject)) := by
  constructor
  · exact findKnowledge_sorted reads.finds
  · intro pages received cursor run
    obtain ⟨through, named⟩ := run.through digests reads bounded
    refine ⟨through, ?_⟩
    intro text issued
    have below := (through.counted (by rw [issued]; exact Option.some_ne_none _)).2
    rw [List.length_map] at below
    have rejects := PinnedSearch.rejects_iff digests otherReads apart (Nat.lt_trans below bounded)
    rw [← named text issued, ne_eq, material_eq_iff (reads.clear digests) (otherReads.clear digests)] at rejects
    rw [rejects]
    constructor
    · intro refused token status searched
      by_contra differs
      exact refused (fun same => differs ⟨same.2.1, same.2.2.1⟩) ⟨token, status, searched⟩
    · intro same different shared
      obtain ⟨query, subject⟩ := same shared.1 shared.2.1 shared.2.2
      exact different ⟨shared.1, query, subject, shared.2.1⟩

end

/-- A codec that knows no artifact. -/
@[reducible] def noArtifacts : ArtifactCodec where
  encode _ := .error "no artifacts"
  decode _ := .error "no artifacts"
  roundTrip := fun encoded => by cases encoded

/-- The snapshot of the two claims. -/
def searchedSnapshot : SnapshotRead :=
  let _ := numeralDigest
  SnapshotRead.new
    { workspaceId := ⟨"demo", Eq.refl true⟩
      journalId := ⟨"canonical", Eq.refl true⟩
      frontier := 2
      anchorEventIdHex := "000000000000000000000000000000ab"
      sourceSnapshotId := none }

/-- A search in the snapshot of the two claims. -/
def searchedKnowledge (terms : SearchTerms) : PinnedSearch where
  store := readable searchedFirst
  files := fun _ => none
  workspaceId := "demo"
  journalId := ⟨"canonical", Eq.refl true⟩
  token := searchedSnapshot.token
  terms := terms

/-- What such a search finds in the view of the two claims. -/
def searchedFound (terms : SearchTerms) : Except TexoError FoundKnowledge :=
  let _ := numeralDigest
  let _ := demoNumbering
  let _ := noArtifacts
  findKnowledge (readable searchedFirst) (fun _ => none) "demo" (viewOf "demo" searchedFirst)
    searchedSnapshot (terms.query.getD "") terms.subject terms.status

/-- How many results it finds. -/
def searchedCount (terms : SearchTerms) : Option Nat :=
  (searchedFound terms).toOption.map fun found => found.ranked.length

/-- What the searches of the demonstration read. -/
theorem searchedKnowledge_reads {terms : SearchTerms} {count : Nat}
    (short : (terms.query.getD "").utf8ByteSize ≤ 256)
    (counted : searchedCount terms = some count) :
    let _ := numeralDigest
    let _ := demoNumbering
    let _ := noArtifacts
    ∃ found, (searchedKnowledge terms).Reads (viewOf "demo" searchedFirst) searchedSnapshot found ∧
      found.ranked.length = count := by
  intro _ _ _
  have pinned : (requestedSnapshotView (readable searchedFirst) "demo"
      ⟨"canonical", by decide⟩ searchedSnapshot.token).toOption =
        some (viewOf "demo" searchedFirst, searchedSnapshot) := by decide +kernel
  cases read : requestedSnapshotView (readable searchedFirst) "demo"
      ⟨"canonical", by decide⟩ searchedSnapshot.token with
  | error error =>
    rw [read] at pinned
    cases pinned
  | ok shown =>
    rw [read] at pinned
    have same : shown = (viewOf "demo" searchedFirst, searchedSnapshot) := Option.some.inj pinned
    rw [same] at read
    unfold searchedCount at counted
    cases finds : searchedFound terms with
    | error error =>
      rw [finds] at counted
      cases counted
    | ok found =>
      rw [finds] at counted
      exact ⟨found, ⟨read, finds, short⟩, Option.some.inj counted⟩

/-- A page of one result of two leaves a cursor behind the first. -/
theorem searchedKnowledge_run :
    let _ := numeralDigest
    let _ := demoNumbering
    let _ := noArtifacts
    ∀ {found : FoundKnowledge}, (searchedKnowledge {}).Reads (viewOf "demo" searchedFirst)
      searchedSnapshot found → found.ranked.length = 2 →
        ∃ received, KnowledgeRun (searchedKnowledge {}) 1 received
          (some (knowledgeCursor (SearchTerms.identity {} searchedSnapshot) 1)) := by
  intro _ _ _ found reads count
  have answered := @PinnedSearch.Reads.page_own _ _ _ _ _ _ _ reads 1 0 none (Nat.le_refl 1)
    (by decide) rfl
  have run := KnowledgeRun.first answered
  have cursor : (found.page (viewOf "demo" searchedFirst) searchedSnapshot
      (SearchTerms.identity {} searchedSnapshot) 1 0).nextCursor =
        some (knowledgeCursor (SearchTerms.identity {} searchedSnapshot) 1) := by
    unfold FoundKnowledge.page
    simp [count]
  have named : (searchedKnowledge {}).terms = {} := rfl
  rw [named, cursor] at run
  exact ⟨_, run⟩

/-- Whoever pages through both claims gets the first, and a search for the second one alone refuses
the cursor. -/
theorem knowledge_search_demo :
    let _ := numeralDigest
    let _ := demoNumbering
    let _ := noArtifacts
    ∃ results received cursor,
      KnowledgeRun (searchedKnowledge {}) 1 received (some cursor) ∧
        PagesThrough (searchedKnowledge {}) results received 1 (some cursor) ∧
        results.length = 2 ∧
        (searchedKnowledge { query := some "claim_c" }).Rejects cursor := by
  intro _ _ _
  obtain ⟨found, reads, count⟩ := @searchedKnowledge_reads {} 2 (by decide) (by decide +kernel)
  obtain ⟨_, otherReads, _⟩ :=
    @searchedKnowledge_reads { query := some "claim_c" } 1 (by decide) (by decide +kernel)
  have bounded : found.ranked.length < 2 ^ 64 := by
    rw [count]
    omega
  have identities : SearchTerms.identity {} searchedSnapshot ≠
      SearchTerms.identity { query := some "claim_c" } searchedSnapshot := by decide +kernel
  obtain ⟨received, run⟩ := searchedKnowledge_run reads count
  obtain ⟨_, pages⟩ := knowledge_search_iff numeralDigest_isLowerHex reads otherReads bounded
    fun same => absurd same identities
  obtain ⟨through, rejects⟩ := pages run
  refine ⟨_, _, _, run, through, ?_, (rejects _ rfl).mpr ?_ ?_⟩
  · rw [List.length_map, count]
  · intro _ _ same
    exact absurd same (by decide)
  · intro same
    exact absurd same.2.1 (by decide)

/-- The cursor of a search without a subject is taken by the search for claims with the empty
subject, which finds nothing. -/
theorem absent_subject_cursor_taken :
    let _ := numeralDigest
    let _ := demoNumbering
    let _ := noArtifacts
    ∃ received cursor,
      KnowledgeRun (searchedKnowledge {}) 1 received (some cursor) ∧
        searchedCount {} = some 2 ∧ searchedCount { subject := some "" } = some 0 ∧
        ¬(searchedKnowledge { subject := some "" }).Rejects cursor := by
  intro _ _ _
  have both : searchedCount {} = some 2 := by decide +kernel
  have neither : searchedCount { subject := some "" } = some 0 := by decide +kernel
  obtain ⟨_, reads, count⟩ := @searchedKnowledge_reads {} 2 (by decide) both
  obtain ⟨_, otherReads, _⟩ := @searchedKnowledge_reads { subject := some "" } 0 (by decide) neither
  obtain ⟨received, run⟩ := searchedKnowledge_run reads count
  have clear := colon_notMem_identity numeralDigest_isLowerHex {} searchedSnapshot
  have parsed : parseKnowledgeSearchCursor
      (some (knowledgeCursor (SearchTerms.identity {} searchedSnapshot) 1))
      (SearchTerms.identity { subject := some "" } searchedSnapshot) = .ok 1 :=
    parse_own_identity clear (by omega)
  have taken := otherReads.page_own (Nat.le_refl 1) (by decide) parsed
  exact ⟨received, _, run, both, neither, fun rejected => rejected (some 1) _ taken⟩

end Texo.Ops
