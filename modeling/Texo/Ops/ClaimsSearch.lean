import Texo.Foundation.Fields
import Texo.Foundation.OffsetPaging
import Texo.Foundation.Search
import Texo.Extract.Words
import Texo.Ops.Orderly
import Texo.Ops.Snapshots

/-! # Searching claims

`texo.claims.search`: the claims of a view that match a query, page by page. The cursor of a page
is the number of rows before the next one, in whatever view that page is asked for.
-/
namespace Texo.Ops
open Texo.Events Texo.Knowledge Texo.Store Texo.Claims Texo.Extract Texo.Foundation

/-- `AgentSourceRow`. -/
structure AgentSourceRow where
  sourceId : String
  path : String
  lineStart : Nat
deriving DecidableEq

/-- `AgentReceiptRow`. -/
structure AgentReceiptRow where
  eventId : String
  sequence : Nat
deriving DecidableEq

/-- `AgentClaimRow`. -/
structure AgentClaimRow where
  claimId : String
  status : ClaimStatus
  subjectHint : Option String
  text : String
  source : AgentSourceRow
  receipt : AgentReceiptRow
  supersedes : List String
  supersededBy : Option String
deriving DecidableEq

/-- The row of a claim with its receipt. -/
def agentClaimRow (claim : ClaimView) (receipt : AgentReceiptRow) : AgentClaimRow where
  claimId := claim.card.claimId
  status := claim.status
  subjectHint := claim.card.subjectHint
  text := claim.card.text
  source := ⟨claim.card.sourceId, claim.card.sourcePath, claim.card.lineStart⟩
  receipt := receipt
  supersedes := claim.supersedes
  supersededBy := claim.card.supersededBy

section
variable [EventNumbering]

/-- The receipt of a row of the journal. -/
def receiptRow (row : Entry) : AgentReceiptRow :=
  ⟨lowerHex32 (EventNumbering.asU128 row.eventId), row.sequence⟩

/-- `claim_record_receipts`: the first recording of each claim in the scope of a workspace. -/
def claimRecordReceipt (store : JournalRead) (workspaceId claimId : String) :
    Option AgentReceiptRow :=
  ((workspaceRows store.journal workspaceId).find? fun row =>
    row.payload.kind = .claimRecorded ∧ row.entity = entityForClaim claimId).map receiptRow

/-- `claim_receipt`. -/
def claimReceipt (store : JournalRead) (claimId : String) : Except TexoError AgentReceiptRow :=
  match (store.journal.byEntity (entityForClaim claimId)).find? fun row =>
      row.payload.kind = .claimRecorded with
  | none => .error (.missingEntity (entityForClaim claimId))
  | some row => .ok (receiptRow row)

/-- One row of `claim_list_rows`. -/
def claimListRow (store : JournalRead) (workspaceId : String) (claim : ClaimView) :
    Except TexoError AgentClaimRow :=
  match claimRecordReceipt store workspaceId claim.card.claimId with
  | some receipt => .ok (agentClaimRow claim receipt)
  | none => (claimReceipt store claim.card.claimId).map (agentClaimRow claim)

/-- `claim_list_rows`. -/
def claimListRows (store : JournalRead) (workspaceId : String) (view : WorkspaceView)
    (subject : Option String) : Except TexoError (List AgentClaimRow) :=
  (view.claims.filter fun claim =>
    subject.all fun wanted => claim.card.subjectHint = some wanted).mapM
      (claimListRow store workspaceId)

end

/-- `ClaimsSearchInput`. -/
structure ClaimsSearchInput where
  query : Option String := none
  subject : Option String := none
  status : Option ClaimStatus := none
  limit : Option Nat := none
  cursor : Option String := none
  snapshot : Option String := none
deriving DecidableEq

/-- `ClaimsSearchOutput`. -/
structure ClaimsSearchOutput where
  workspaceId : String
  frontier : Nat
  freshness : ProjectionFreshness
  total : Nat
  returned : Nat
  hasMore : Bool
  nextCursor : Option String
  claims : List AgentClaimRow
  snapshot : SnapshotRead
deriving DecidableEq

/-- The name of the operation. -/
def claimsSearchOp : String := "texo.claims.search"

/-- The schema of a cursor. -/
def claimsCursorSchema : String := "texo-claims-v1:"

/-- `parse_claim_search_cursor`. -/
def parseClaimSearchCursor : Option String → Except TexoError Nat
  | none => .ok 0
  | some cursor =>
    match stripPrefix claimsCursorSchema.toList cursor.toList with
    | none => .error (.opInput claimsSearchOp "cursor has an unsupported schema")
    | some offset =>
      match parseUnsigned (2 ^ 64) offset with
      | none => .error (.opInput claimsSearchOp "cursor offset is invalid")
      | some value => .ok value

/-- The terms of a query. -/
def queryTerms (query : String) : List (List Char) :=
  (splitWhitespace query.toList).map toAsciiLowercase

/-- `claim_matches_query`. -/
def claimMatchesQuery (row : AgentClaimRow) (terms : List (List Char)) : Bool :=
  if terms.isEmpty then
    true
  else
    let searchable := toAsciiLowercase row.text.toList ++
      ' ' :: toAsciiLowercase row.source.path.toList
    let searchable := row.subjectHint.elim searchable fun subject =>
      searchable ++ ' ' :: toAsciiLowercase subject.toList
    terms.all fun term => containsText searchable term

section
variable [Blake3] [EventNumbering]

/-- `claims_search`. -/
def claimsSearch (store : JournalRead) (workspaceId : String) (journalId : JournalId)
    (cache : WorkspaceCache) (input : ClaimsSearchInput) : Except TexoError ClaimsSearchOutput := do
  let (view, snapshot) ← assembleSnapshotView store workspaceId journalId cache input.snapshot
  let query := input.query.getD ""
  require (query.utf8ByteSize ≤ 256) (.opInput claimsSearchOp "query exceeds 256 bytes")
  let limit := input.limit.getD 25
  require (1 ≤ limit ∧ limit ≤ 100) (.opInput claimsSearchOp "limit must be between 1 and 100")
  let offset ← parseClaimSearchCursor input.cursor
  let terms := queryTerms query
  let rows ← claimListRows store workspaceId view input.subject
  let rows := rows.filter fun row =>
    (input.status.all fun status => row.status = status) && claimMatchesQuery row terms
  let page := (rows.drop offset).take limit
  let nextOffset := offset + page.length
  .ok {
    workspaceId := view.workspaceId
    frontier := view.frontier
    freshness := view.freshness
    total := rows.length
    returned := page.length
    hasMore := nextOffset < rows.length
    nextCursor := if nextOffset < rows.length then
      some (claimsCursorSchema ++ toString nextOffset) else none
    claims := page
    snapshot := snapshot
  }

end

/-- What a client searches for. -/
structure SearchTerms where
  query : Option String := none
  subject : Option String := none
  status : Option ClaimStatus := none
deriving DecidableEq

/-- The request of one page, without a snapshot. -/
def SearchTerms.request (terms : SearchTerms) (limit : Option Nat) (cursor : Option String) :
    ClaimsSearchInput where
  query := terms.query
  subject := terms.subject
  status := terms.status
  limit := limit
  cursor := cursor

/-- The claim is one that is searched for. -/
def SearchTerms.selects (terms : SearchTerms) (claim : ClaimView) : Bool :=
  (terms.subject.all fun wanted => claim.card.subjectHint = some wanted) &&
    ((terms.status.all fun status => claim.status = status) &&
      claimMatchesQuery (agentClaimRow claim ⟨"", 0⟩) (queryTerms (terms.query.getD "")))

/-- The ids of the claims that are searched for, in the order of the view. -/
def SearchTerms.matched (terms : SearchTerms) (view : WorkspaceView) : List String :=
  (view.claims.filter terms.selects).map fun claim => claim.card.claimId

/-- A cursor that a search returned reads as the count it was made from, or not at all. -/
theorem parseClaimSearchCursor_own {number offset : Nat}
    (parsed : parseClaimSearchCursor (some (claimsCursorSchema ++ toString number)) = .ok offset) :
    offset = number := by
  have stripped : stripPrefix claimsCursorSchema.toList
      (claimsCursorSchema ++ toString number).toList = some (Nat.toDigits 10 number) := by
    rw [stripPrefix_eq_some, String.toList_append, Nat.toString_eq_repr, Nat.toList_repr]
  unfold parseClaimSearchCursor at parsed
  simp only [stripped] at parsed
  split at parsed
  · cases parsed
  · rename_i value read
    rw [← Except.ok.inj parsed]
    exact value_of_parse_decimal read

section
variable [EventNumbering]

/-- A listed row is that of its claim. -/
theorem claimListRow_ok {store : JournalRead} {workspaceId : String} {claim : ClaimView}
    {row : AgentClaimRow} (made : claimListRow store workspaceId claim = .ok row) :
    ∃ receipt, agentClaimRow claim receipt = row := by
  unfold claimListRow at made
  split at made
  · exact ⟨_, Except.ok.inj made⟩
  · cases read : claimReceipt store claim.card.claimId with
    | error error =>
      rw [read] at made
      cases made
    | ok receipt =>
      rw [read] at made
      exact ⟨receipt, Except.ok.inj made⟩

/-- The rows of a view that match are those of the claims searched for. -/
theorem claimListRows_matched {store : JournalRead} {workspaceId : String} {view : WorkspaceView}
    {terms : SearchTerms} {rows : List AgentClaimRow}
    (listed : claimListRows store workspaceId view terms.subject = .ok rows) :
    (rows.filter fun row => (terms.status.all fun status => row.status = status) &&
        claimMatchesQuery row (queryTerms (terms.query.getD ""))).map AgentClaimRow.claimId =
      terms.matched view := by
  have split : view.claims.filter terms.selects =
      (view.claims.filter fun claim =>
        terms.subject.all fun wanted => claim.card.subjectHint = some wanted).filter fun claim =>
          (terms.status.all fun status => claim.status = status) &&
            claimMatchesQuery (agentClaimRow claim ⟨"", 0⟩) (queryTerms (terms.query.getD "")) := by
    rw [List.filter_filter]
    apply List.filter_congr
    intro claim _
    exact Bool.and_comm _ _
  unfold SearchTerms.matched
  rw [split]
  unfold claimListRows at listed
  apply filter_of_mapM listed
  intro claim _ row made
  obtain ⟨receipt, same⟩ := claimListRow_ok made
  rw [← same]
  exact ⟨rfl, rfl⟩

variable [Blake3]

/-- A page of the latest view: as many matching claims as its limit allows, behind its offset. -/
theorem claimsSearch_page {journal : Journal} {workspaceId : String} {journalId : JournalId}
    {terms : SearchTerms} {limit : Option Nat} {cursor : Option String}
    {output : ClaimsSearchOutput}
    (searched : claimsSearch (readable journal) workspaceId journalId {}
      (terms.request limit cursor) = .ok output) :
    ∃ offset, parseClaimSearchCursor cursor = .ok offset ∧
      output.claims.map AgentClaimRow.claimId =
        ((terms.matched (viewOf workspaceId journal)).drop offset).take (limit.getD 25) ∧
      output.nextCursor =
        if offset + output.claims.length < (terms.matched (viewOf workspaceId journal)).length then
          some (claimsCursorSchema ++ toString (offset + output.claims.length))
        else none := by
  unfold claimsSearch at searched
  obtain ⟨⟨view, snapshot⟩, assembled, searched⟩ := bind_eq_ok.mp searched
  obtain ⟨_, _, searched⟩ := bind_eq_ok.mp searched
  obtain ⟨_, _, searched⟩ := bind_eq_ok.mp searched
  obtain ⟨offset, parsed, searched⟩ := bind_eq_ok.mp searched
  obtain ⟨rows, listed, searched⟩ := bind_eq_ok.mp searched
  have shown : viewOf workspaceId journal = view := by
    have current := assembleCurrentView_readable journal workspaceId
    unfold assembleCurrentView at current
    have latest : latestSnapshotView (readable journal) workspaceId journalId {} =
        .ok (view, snapshot) := assembled
    unfold latestSnapshotView at latest
    split at latest
    · cases latest
    · rename_i found next done
      rw [done] at current
      rw [← Except.ok.inj current]
      cases read : snapshotForView (readable journal) workspaceId journalId found with
      | error error =>
        rw [read] at latest
        cases latest
      | ok minted =>
        rw [read] at latest
        exact congrArg Prod.fst (Except.ok.inj latest)
  rw [← shown] at listed
  have keys := claimListRows_matched listed
  have lengths := congrArg List.length keys
  rw [List.length_map] at lengths
  refine ⟨offset, parsed, ?_, ?_⟩
  · rw [← Except.ok.inj searched, ← keys, List.map_take, List.map_drop]
    rfl
  · rw [← Except.ok.inj searched, ← lengths]
    rfl

/-- A client that asks for one page after another, each in the latest view of its time: the
journals of its pages, what it has received and the cursor it holds. -/
inductive SearchRun (permits : List String → List String → Prop) (workspaceId : String)
    (journalId : JournalId) (terms : SearchTerms) :
    List Journal → List AgentClaimRow → Option String → Prop
  | first {journal : Journal} {limit : Option Nat} {output : ClaimsSearchOutput}
      (searched : claimsSearch (readable journal) workspaceId journalId {}
        (terms.request limit none) = .ok output) :
      SearchRun permits workspaceId journalId terms [journal] output.claims output.nextCursor
  | next {journals : List Journal} {received : List AgentClaimRow} {cursor : String}
      {journal : Journal} {limit : Option Nat} {output : ClaimsSearchOutput}
      (earlier : SearchRun permits workspaceId journalId terms journals received (some cursor))
      (permitted : permits (received.map AgentClaimRow.claimId)
        (terms.matched (viewOf workspaceId journal)))
      (searched : claimsSearch (readable journal) workspaceId journalId {}
        (terms.request limit (some cursor)) = .ok output) :
      SearchRun permits workspaceId journalId terms (journals ++ [journal])
        (received ++ output.claims) output.nextCursor

omit [EventNumbering] in
/-- The matching claims of an orderly workspace are sorted by their ids. -/
theorem matched_sorted (terms : SearchTerms) {journal : Journal} {workspaceId : String}
    (orderly : Orderly journal workspaceId) :
    (terms.matched (viewOf workspaceId journal)).Pairwise (· < ·) := by
  have distinct := orderly.lawful.distinct orderly.conforming
  have sorted : ((viewOf workspaceId journal).claims.map fun claim =>
      claim.card.claimId).Pairwise (· ≤ ·) := by
    have cards := map_card_replayView workspaceId
      (journal.region (scopeForWorkspace workspaceId))
    have ids : (viewOf workspaceId journal).claims.map (fun claim => claim.card.claimId) =
        ((viewOf workspaceId journal).claims.map ClaimView.card).map ClaimCard.claimId := by
      rw [List.map_map]
      rfl
    rw [ids, viewOf, workspaceRows, cards, List.pairwise_map]
    exact List.pairwise_insertionSort _ _
  have increasing := (sorted.and distinct).imp fun both => lt_of_le_of_ne both.1 both.2
  unfold SearchTerms.matched
  exact increasing.sublist (List.filter_sublist.map _)

/-- What holds of a client whose pages were all asked for in a steady view. -/
theorem SearchRun.kept {workspaceId : String} {journalId : JournalId} {terms : SearchTerms}
    {journals : List Journal} {received : List AgentClaimRow} {cursor : Option String}
    (run : SearchRun Steady workspaceId journalId terms journals received cursor)
    (orderly : ∀ journal ∈ journals, Orderly journal workspaceId) :
    Kept (journals.map fun journal => terms.matched (viewOf workspaceId journal))
        (received.map AgentClaimRow.claimId) ∧
      (∀ text, cursor = some text → text = claimsCursorSchema ++ toString received.length) ∧
      (cursor = none → ∀ claimId,
        (∀ journal ∈ journals, claimId ∈ terms.matched (viewOf workspaceId journal)) →
          claimId ∈ received.map AgentClaimRow.claimId) := by
  -- One page behind what was received before it, for the first page and every later one.
  have page : ∀ {journals : List Journal} {received : List AgentClaimRow} {journal : Journal}
      {limit : Option Nat} {cursor : Option String} {output : ClaimsSearchOutput},
      Kept (journals.map fun journal => terms.matched (viewOf workspaceId journal))
        (received.map AgentClaimRow.claimId) →
      Steady (received.map AgentClaimRow.claimId) (terms.matched (viewOf workspaceId journal)) →
      Orderly journal workspaceId →
      (∀ offset, parseClaimSearchCursor cursor = .ok offset → offset = received.length) →
      claimsSearch (readable journal) workspaceId journalId {} (terms.request limit cursor) =
        .ok output →
      Kept ((journals ++ [journal]).map fun journal => terms.matched (viewOf workspaceId journal))
          ((received ++ output.claims).map AgentClaimRow.claimId) ∧
        (∀ text, output.nextCursor = some text →
          text = claimsCursorSchema ++ toString (received ++ output.claims).length) ∧
        (output.nextCursor = none → ∀ claimId,
          (∀ asked ∈ journals ++ [journal],
            claimId ∈ terms.matched (viewOf workspaceId asked)) →
          claimId ∈ (received ++ output.claims).map AgentClaimRow.claimId) := by
    intro journals received journal limit cursor output kept steady own count searched
    obtain ⟨offset, parsed, ids, following⟩ := claimsSearch_page searched
    have sorted := matched_sorted terms own
    rw [count offset parsed] at ids following
    have counted : (received.map AgentClaimRow.claimId).length = received.length :=
      List.length_map _
    have whole : (received ++ output.claims).map AgentClaimRow.claimId =
        received.map AgentClaimRow.claimId ++
          ((terms.matched (viewOf workspaceId journal)).drop
            (received.map AgentClaimRow.claimId).length).take (limit.getD 25) := by
      rw [List.map_append, ids, counted]
    refine ⟨?_, ?_, ?_⟩
    · rw [whole, List.map_append]
      exact kept.page sorted steady _
    · intro text more
      rw [following] at more
      split at more
      · rw [← Option.some.inj more, List.length_append]
      · cases more
    · intro done claimId everywhere
      rw [following] at done
      split at done
      · cases done
      · rename_i enough
        rw [whole]
        apply kept.finished sorted steady
        · rw [← whole, List.length_map, List.length_append]
          omega
        · intro list member
          rcases List.mem_append.mp member with early | last
          · obtain ⟨before, listed, rfl⟩ := List.mem_map.mp early
            exact everywhere before (List.mem_append_left _ listed)
          · rw [List.mem_singleton.mp last]
            exact everywhere journal (by simp)
  induction run with
  | first searched =>
    have start := @page [] [] _ _ _ _ kept_nil (by simp [Steady, upToLast])
      (orderly _ (by simp)) (by
        intro offset parsed
        exact (Except.ok.inj parsed).symm) searched
    exact start
  | next earlier permitted searched ih =>
    obtain ⟨kept, named, _⟩ := ih fun journal member =>
      orderly journal (List.mem_append_left _ member)
    exact page kept permitted (orderly _ (by simp)) (by
      intro offset parsed
      rw [named _ rfl] at parsed
      exact parseClaimSearchCursor_own parsed) searched

/-- A client whose pages are each asked for in a view with as many matching claims up to the last
received one as it has received gets no claim twice, and misses none that matched at every page:
none up to the last received one, and none at all once there is no further page. -/
theorem steady_search_consistent {workspaceId : String} {journalId : JournalId}
    {terms : SearchTerms} {journals : List Journal} {received : List AgentClaimRow}
    {cursor : Option String}
    (run : SearchRun Steady workspaceId journalId terms journals received cursor)
    (orderly : ∀ journal ∈ journals, Orderly journal workspaceId) :
    (received.map AgentClaimRow.claimId).Nodup ∧
      ∀ claimId, (∀ journal ∈ journals, claimId ∈ terms.matched (viewOf workspaceId journal)) →
        cursor = none ∨ upToLast (received.map AgentClaimRow.claimId) claimId = true →
          claimId ∈ received.map AgentClaimRow.claimId := by
  obtain ⟨kept, _, finished⟩ := run.kept orderly
  constructor
  · exact kept.increasing.imp fun before => ne_of_lt before
  · intro claimId everywhere done
    rcases done with last | early
    · exact finished last claimId everywhere
    · apply kept.complete claimId _ early
      intro keys member
      obtain ⟨journal, listed, rfl⟩ := List.mem_map.mp member
      exact everywhere journal listed

end

/-- The ids of a page and its cursor. -/
def shownPage (answer : Except TexoError ClaimsSearchOutput) :
    Option (List String × Option String) :=
  answer.toOption.map fun output => (output.claims.map AgentClaimRow.claimId, output.nextCursor)

/-- A shown page is that of an accepted request. -/
theorem shownPage_eq_some {answer : Except TexoError ClaimsSearchOutput} {ids : List String}
    {cursor : Option String} (shown : shownPage answer = some (ids, cursor)) :
    ∃ output, answer = .ok output ∧ output.claims.map AgentClaimRow.claimId = ids ∧
      output.nextCursor = cursor := by
  cases answer with
  | error error => cases shown
  | ok output =>
    have same := Option.some.inj shown
    exact ⟨output, rfl, congrArg Prod.fst same, congrArg Prod.snd same⟩

/-- Recording a plain claim keeps the demonstration workspace orderly. -/
theorem Orderly.recordPlain {journal : Journal} (claimId : String) :
    let _ := numeralDigest
    Orderly journal "demo" → Orderly (Claims.recordPlain journal claimId) "demo" := by
  intro _ orderly
  have appended : (⟨"demo", journal, []⟩ : OpEnv).append (.claimRecorded (plainClaim claimId)) =
      .ok ⟨"demo", Claims.recordPlain journal claimId,
        [(appendClaimRecorded journal (plainClaim claimId)).1.eventId]⟩ := rfl
  exact orderly.append appended (legal_recorded journal rfl)

/-- Two claims, the view of a first page. -/
def searchedFirst : Journal := recordPlain (recordPlain Journal.empty "claim_b") "claim_c"

/-- A third claim was recorded, whose id is before the others. -/
def searchedBefore : Journal := recordPlain searchedFirst "claim_a"

/-- A third claim was recorded, whose id is behind the others. -/
def searchedBehind : Journal := recordPlain searchedFirst "claim_d"

/-- The demonstration workspace is orderly in all three. -/
theorem searched_orderly :
    let _ := numeralDigest
    Orderly searchedFirst "demo" ∧ Orderly searchedBefore "demo" ∧
      Orderly searchedBehind "demo" := by
  intro _
  have first : Orderly searchedFirst "demo" :=
    Orderly.recordPlain _ (Orderly.recordPlain _ (orderly_empty "demo"))
  exact ⟨first, Orderly.recordPlain _ first, Orderly.recordPlain _ first⟩

/-- One page of the demonstration workspace. -/
def searchedPage (journal : Journal) (cursor : Option String) :
    Except TexoError ClaimsSearchOutput :=
  let _ := numeralDigest
  let _ := demoNumbering
  claimsSearch (readable journal) "demo" ⟨"canonical", Eq.refl true⟩ {}
    (SearchTerms.request {} (some 1) cursor)

/-- Two pages, with one more claim recorded behind the first one's. -/
theorem steady_search_consistent_demo :
    let _ := numeralDigest
    let _ := demoNumbering
    ∃ received cursor,
      SearchRun Steady "demo" ⟨"canonical", by decide⟩ {} [searchedFirst, searchedBehind] received
          cursor ∧
        received.map AgentClaimRow.claimId = ["claim_b", "claim_c"] ∧
        (received.map AgentClaimRow.claimId).Nodup ∧
          ∀ claimId,
            (∀ journal ∈ [searchedFirst, searchedBehind],
              claimId ∈ SearchTerms.matched {} (viewOf "demo" journal)) →
            cursor = none ∨ upToLast (received.map AgentClaimRow.claimId) claimId = true →
              claimId ∈ received.map AgentClaimRow.claimId := by
  intro _ _
  have firstPage : shownPage (searchedPage searchedFirst none) =
      some (["claim_b"], some "texo-claims-v1:1") := by decide +kernel
  have nextPage : shownPage (searchedPage searchedBehind (some "texo-claims-v1:1")) =
      some (["claim_c"], some "texo-claims-v1:2") := by decide +kernel
  obtain ⟨first, firstRun, firstIds, firstCursor⟩ := shownPage_eq_some firstPage
  obtain ⟨next, nextRun, nextIds, _⟩ := shownPage_eq_some nextPage
  have start := @SearchRun.first _ _ Steady _ _ _ _ _ _ firstRun
  rw [firstCursor] at start
  have steady : Steady (first.claims.map AgentClaimRow.claimId)
      (SearchTerms.matched {} (viewOf "demo" searchedBehind)) := by
    rw [firstIds, Steady]
    decide +kernel
  have run := start.next steady nextRun
  have orderly := searched_orderly
  refine ⟨_, _, run, ?_, steady_search_consistent run ?_⟩
  · rw [List.map_append, firstIds, nextIds]
    rfl
  · intro journal member
    rcases List.mem_pair.mp member with rfl | rfl
    · exact orderly.1
    · exact orderly.2.2

/-- Two pages, with one more claim recorded before the first one's: the second page has the claim of
the first one again, and its cursor is accepted. -/
theorem changed_search_repeats :
    let _ := numeralDigest
    let _ := demoNumbering
    Orderly searchedFirst "demo" ∧ Orderly searchedBefore "demo" ∧
      ∃ received cursor,
        SearchRun (fun _ _ => True) "demo" ⟨"canonical", by decide⟩ {}
            [searchedFirst, searchedBefore] received cursor ∧
          received.map AgentClaimRow.claimId = ["claim_b", "claim_b"] ∧
          ¬ (received.map AgentClaimRow.claimId).Nodup := by
  intro _ _
  have firstPage : shownPage (searchedPage searchedFirst none) =
      some (["claim_b"], some "texo-claims-v1:1") := by decide +kernel
  have nextPage : shownPage (searchedPage searchedBefore (some "texo-claims-v1:1")) =
      some (["claim_b"], some "texo-claims-v1:2") := by decide +kernel
  obtain ⟨first, firstRun, firstIds, firstCursor⟩ := shownPage_eq_some firstPage
  obtain ⟨next, nextRun, nextIds, _⟩ := shownPage_eq_some nextPage
  have start := @SearchRun.first _ _ (fun _ _ => True) _ _ _ _ _ _ firstRun
  rw [firstCursor] at start
  have run := start.next trivial nextRun
  have ids : (first.claims ++ next.claims).map AgentClaimRow.claimId = ["claim_b", "claim_b"] := by
    rw [List.map_append, firstIds, nextIds]
    rfl
  refine ⟨searched_orderly.1, searched_orderly.2.1, _, _, run, ids, ?_⟩
  rw [ids]
  decide

end Texo.Ops
