import Texo.Ops.Unresolved

/-! # Settled verdicts

Where no two pairs share a stream, the authority read off a store settles every ordered pair that
some row judges, with the verdict of the first such row, and no other pair.
-/
namespace Texo.Ops
open Texo.Events Texo.Knowledge Texo.Store Texo.Claims Texo.Semantics Texo.Foundation Texo.Ingest
  Texo.Relate

/-- The verdict a judgment gives, as the authority reads it. -/
def verdictOf : Payload → Option RelationVerdict
  | .relationJudged event => some ⟨ClaimRelation.ofSettled event.relation, event.scorePpm⟩
  | _ => none

/-- The verdict of the first row that judges a pair. -/
def firstVerdict (rows : List Entry) (pair : ClaimId × ClaimId) : Option RelationVerdict :=
  rows.findSome? fun row =>
    if judgedPair row.payload = some pair then verdictOf row.payload else none

/-- A payload is about a pair, deferred or judged. -/
def About (payload : Payload) (pair : ClaimId × ClaimId) : Prop :=
  deferredPair payload = some pair ∨ judgedPair payload = some pair

/-- Rows that do not answer can be left out of a search. -/
theorem findSome?_filter {Row Answer : Type} (answer : Row → Option Answer) (keep : Row → Bool)
    (rows : List Row) (answers : ∀ row ∈ rows, keep row = false → answer row = none) :
    (rows.filter keep).findSome? answer = rows.findSome? answer := by
  induction rows with
  | nil => rfl
  | cons row rest ih =>
    have later := ih fun other member => answers other (by simp [member])
    cases kept : keep row with
    | true =>
      rw [List.filter_cons_of_pos kept, List.findSome?_cons, List.findSome?_cons, later]
    | false =>
      rw [List.filter_cons_of_neg (by simp [kept]), List.findSome?_cons,
        answers row (by simp) kept, later]

/-- Answers that agree on all rows find the same. -/
theorem findSome?_congr {Row Answer : Type} {answer other : Row → Option Answer} {rows : List Row}
    (agree : ∀ row ∈ rows, answer row = other row) :
    rows.findSome? answer = rows.findSome? other := by
  induction rows with
  | nil => rfl
  | cons row rest ih =>
    rw [List.findSome?_cons, List.findSome?_cons, agree row (by simp),
      ih fun next member => agree next (by simp [member])]

/-- A pair that no row judges has no verdict. -/
theorem firstVerdict_none {rows : List Entry} {pair : ClaimId × ClaimId}
    (unjudged : pair ∉ judgedPairs rows) : firstVerdict rows pair = none := by
  unfold firstVerdict
  rw [List.findSome?_eq_none_iff]
  intro row member
  apply if_neg
  intro about
  exact unjudged (List.mem_filterMap.mpr ⟨row, member, about⟩)

/-- More rows leave a verdict as it is. -/
theorem firstVerdict_append {rows : List Entry} (more : List Entry) {pair : ClaimId × ClaimId}
    {verdict : RelationVerdict} (settled : firstVerdict rows pair = some verdict) :
    firstVerdict (rows ++ more) pair = some verdict := by
  unfold firstVerdict at settled ⊢
  rw [List.findSome?_append, settled]
  rfl

/-- A pair with a verdict is judged. -/
theorem mem_judgedPairs_of_firstVerdict {rows : List Entry} {pair : ClaimId × ClaimId}
    {verdict : RelationVerdict} (settled : firstVerdict rows pair = some verdict) :
    pair ∈ judgedPairs rows := by
  by_contra unjudged
  rw [firstVerdict_none unjudged] at settled
  cases settled

/-- A judged pair has a verdict. -/
theorem firstVerdict_isSome {rows : List Entry} {pair : ClaimId × ClaimId}
    (judged : pair ∈ judgedPairs rows) : (firstVerdict rows pair).isSome = true := by
  obtain ⟨row, member, about⟩ := List.mem_filterMap.mp judged
  unfold firstVerdict
  rw [List.findSome?_isSome_iff]
  refine ⟨row, member, ?_⟩
  rw [if_pos about]
  cases held : row.payload with
  | relationJudged event => rfl
  | _ =>
    rw [held] at about
    cases about

/-- A card keeps the verdict of its first judgment. -/
theorem cardOf_verdict (rows : List Entry) :
    ((cardOf rows).authoritative.map fun record =>
        (⟨ClaimRelation.ofSettled record.relation, record.scorePpm⟩ : RelationVerdict)) =
      rows.findSome? fun row => verdictOf row.payload := by
  induction rows using List.reverseRecOn with
  | nil => rfl
  | append_singleton rows row ih =>
    have folded : cardOf (rows ++ [row]) = (cardOf rows).applyEvent row.payload := by
      unfold cardOf
      rw [List.foldl_append]
      rfl
    rw [List.findSome?_append, ← ih, folded]
    unfold SettlementCard.applyEvent
    cases held : row.payload with
    | relationJudged event =>
      cases before : (cardOf rows).authoritative with
      | none => simp [SettlementCard.onJudged, before, held, verdictOf]
      | some record => simp [SettlementCard.onJudged, before]
    | relationDeferred event => simp [SettlementCard.onDeferred, held, verdictOf]
    | _ => simp [held, verdictOf]

/-- A card is named after a pair one of its rows is about. -/
theorem cardOf_named {rows : List Entry} {row : Entry} (member : row ∈ rows)
    {pair : ClaimId × ClaimId} (about : About row.payload pair) :
    ∃ named ∈ rows, ∃ other, About named.payload other ∧
      (cardOf rows).olderClaim = other.1.value ∧ (cardOf rows).newerClaim = other.2.value := by
  induction rows using List.reverseRecOn with
  | nil => cases member
  | append_singleton rows last ih =>
    have folded : cardOf (rows ++ [last]) = (cardOf rows).applyEvent last.payload := by
      unfold cardOf
      rw [List.foldl_append]
      rfl
    rw [folded]
    have earlier : ∀ payload, last.payload = payload →
        (∀ other, ¬About payload other) →
        (cardOf rows).applyEvent payload = cardOf rows →
        ∃ named ∈ rows ++ [last], ∃ other, About named.payload other ∧
          ((cardOf rows).applyEvent payload).olderClaim = other.1.value ∧
            ((cardOf rows).applyEvent payload).newerClaim = other.2.value := by
      intro payload held none unchanged
      rcases List.mem_append.mp member with before | here
      · obtain ⟨named, inside, other, found, names⟩ := ih before
        rw [unchanged]
        exact ⟨named, List.mem_append_left _ inside, other, found, names⟩
      · rw [List.mem_singleton.mp here, held] at about
        exact absurd about (none pair)
    have inside : last ∈ rows ++ [last] := by simp
    cases held : last.payload with
    | relationJudged event =>
      refine ⟨last, inside, (event.olderClaim, event.newerClaim), ?_, rfl, rfl⟩
      rw [held]
      exact Or.inr rfl
    | relationDeferred event =>
      refine ⟨last, inside, (event.olderClaim, event.newerClaim), ?_, rfl, rfl⟩
      rw [held]
      exact Or.inl rfl
    | _ =>
      refine earlier _ held ?_ rfl
      rintro other (deferred | judged)
      · cases deferred
      · cases judged

/-- A stream without judgments settles nothing. -/
theorem settle_unjudged (authority : SettlementAuthority) {rows : List Entry}
    (unjudged : judgedPairs rows = []) :
    ∃ next, authority.settle (cardOf rows) = .ok next ∧ next.verdicts = authority.verdicts := by
  have none := (cardOf_holds rows).judged.mpr unjudged
  unfold SettlementAuthority.settle
  rw [none]
  dsimp only
  split
  · exact ⟨_, rfl, rfl⟩
  · exact ⟨_, rfl, rfl⟩

/-- A stream of one pair settles it with its first verdict. -/
theorem settle_judged (authority : SettlementAuthority) {rows : List Entry}
    {pair : ClaimId × ClaimId} (judged : pair ∈ judgedPairs rows)
    (one : ∀ row ∈ rows, ∀ other, About row.payload other → other = pair) :
    ∃ next verdict, authority.settle (cardOf rows) = .ok next ∧
      firstVerdict rows pair = some verdict ∧
        next.verdicts = authority.verdicts.insert pair verdict := by
  have holds := cardOf_holds rows
  obtain ⟨row, member, about⟩ := List.mem_filterMap.mp judged
  obtain ⟨_, inside, other, found, older, newer⟩ := cardOf_named member (Or.inr about)
  rw [one _ inside other found] at older newer
  have first : firstVerdict rows pair = rows.findSome? fun row => verdictOf row.payload := by
    unfold firstVerdict
    apply findSome?_congr
    intro row member
    by_cases here : judgedPair row.payload = some pair
    · rw [if_pos here]
    · rw [if_neg here]
      cases held : row.payload with
      | relationJudged event =>
        have same := one row member (event.olderClaim, event.newerClaim)
          (by rw [held]; exact Or.inr rfl)
        rw [held, ← same] at here
        exact absurd rfl here
      | _ => rfl
  rw [first, ← cardOf_verdict]
  unfold SettlementAuthority.settle
  cases settled : (cardOf rows).authoritative with
  | none =>
    have empty := holds.judged.mp settled
    rw [empty] at judged
    cases judged
  | some record =>
    dsimp only
    rw [older, newer, claimIdOf_ok, claimIdOf_ok]
    exact ⟨_, _, rfl, rfl, rfl⟩

/-- A pair some row is about is deferred or judged. -/
theorem mem_of_about {rows : List Entry} {row : Entry} (member : row ∈ rows)
    {pair : ClaimId × ClaimId} (about : About row.payload pair) :
    pair ∈ deferredPairs rows ++ judgedPairs rows := by
  rcases about with deferred | judged
  · exact List.mem_append_left _ (List.mem_filterMap.mpr ⟨row, member, deferred⟩)
  · exact List.mem_append_right _ (List.mem_filterMap.mpr ⟨row, member, judged⟩)

section Streams

variable [Blake3]

/-- The verdicts of the streams read so far. -/
def ReadsVerdicts (workspaceId : String) (rows : List Entry) (streams : List String)
    (verdicts : SettledMap) : Prop :=
  ∀ pair : ClaimId × ClaimId, verdicts[pair]? =
    if pairEntity workspaceId pair ∈ streams then firstVerdict rows pair else none

/-- Rows that lie in the streams of their pairs, no two pairs in one stream. -/
structure Streams (workspaceId : String) (rows : List Entry) : Prop where
  lies : ∀ row ∈ rows, ∀ pair, About row.payload pair →
    row.entity = pairEntity workspaceId pair ∧ startsWith row.entity "relation:" = true
  apart : PairsApart workspaceId rows

/-- A stream is about one pair. -/
theorem Streams.one {workspaceId : String} {rows : List Entry} (streams : Streams workspaceId rows)
    {entity : String} {row : Entry} (member : row ∈ rows.filter fun row => row.entity = entity)
    {pair : ClaimId × ClaimId} (about : About row.payload pair) :
    pairEntity workspaceId pair = entity ∧
      ∀ other ∈ rows.filter fun row => row.entity = entity, ∀ also, About other.payload also →
        also = pair := by
  obtain ⟨inside, here⟩ := List.mem_filter.mp member
  have named := (streams.lies row inside pair about).1
  rw [of_decide_eq_true here] at named
  refine ⟨named.symm, ?_⟩
  intro other there also found
  obtain ⟨within, same⟩ := List.mem_filter.mp there
  have again := (streams.lies other within also found).1
  rw [of_decide_eq_true same] at again
  exact streams.apart also (mem_of_about within found) pair (mem_of_about inside about)
    (again.symm.trans named)

/-- A pair's verdict is found in its stream. -/
theorem Streams.firstVerdict {workspaceId : String} {rows : List Entry}
    (streams : Streams workspaceId rows) (pair : ClaimId × ClaimId) :
    firstVerdict (rows.filter fun row => row.entity = pairEntity workspaceId pair) pair =
      firstVerdict rows pair := by
  apply findSome?_filter
  intro row member elsewhere
  apply if_neg
  intro about
  have lies := (streams.lies row member pair (Or.inr about)).1
  rw [lies, decide_eq_true rfl] at elsewhere
  cases elsewhere

/-- The step law of reading: the next stream adds the verdict of its pair. -/
theorem ReadsVerdicts.settle {workspaceId : String} {rows : List Entry} {streams : List String}
    {authority : SettlementAuthority} (placed : Streams workspaceId rows)
    (reads : ReadsVerdicts workspaceId rows streams authority.verdicts) (entity : String) :
    ∃ next, authority.settle (cardOf (rows.filter fun row => row.entity = entity)) = .ok next ∧
      ReadsVerdicts workspaceId rows (streams ++ [entity]) next.verdicts := by
  by_cases judged : judgedPairs (rows.filter fun row => row.entity = entity) = []
  · obtain ⟨next, settles, same⟩ := settle_unjudged authority judged
    refine ⟨next, settles, ?_⟩
    intro pair
    rw [same, reads pair]
    by_cases here : pairEntity workspaceId pair = entity
    · have none : firstVerdict rows pair = none := by
        rw [← placed.firstVerdict pair, here]
        apply firstVerdict_none
        rw [judged]
        exact List.not_mem_nil
      simp [here, none]
    · simp [here]
  · obtain ⟨pair, member⟩ := List.exists_mem_of_ne_nil _ judged
    obtain ⟨row, inside, about⟩ := List.mem_filterMap.mp member
    obtain ⟨named, one⟩ := placed.one inside (Or.inr about)
    obtain ⟨next, verdict, settles, first, grown⟩ := settle_judged authority member one
    refine ⟨next, settles, ?_⟩
    intro other
    rw [grown, Std.ExtTreeMap.getElem?_insert, reads other]
    by_cases same : pair = other
    · rw [← same, if_pos (Std.LawfulEqCmp.compare_eq_iff_eq.mpr rfl),
        if_pos (show pairEntity workspaceId pair ∈ streams ++ [entity] by simp [named]),
        ← placed.firstVerdict pair, named, first]
    · rw [if_neg (fun equal => same (Std.LawfulEqCmp.compare_eq_iff_eq.mp equal))]
      by_cases here : pairEntity workspaceId other = entity
      · have none : firstVerdict rows other = none := by
          rw [← placed.firstVerdict other, here]
          apply firstVerdict_none
          intro also
          obtain ⟨second, there, judges⟩ := List.mem_filterMap.mp also
          exact same (one second there other (Or.inr judges)).symm
        simp [here, none]
      · simp [here]

/-- The run law of reading. -/
theorem ReadsVerdicts.settleAll {workspaceId : String} {rows : List Entry}
    (placed : Streams workspaceId rows) (entities : List String) {streams : List String}
    {authority : SettlementAuthority}
    (reads : ReadsVerdicts workspaceId rows streams authority.verdicts) :
    ∃ final, entities.foldlM (fun (authority : SettlementAuthority) entity =>
        authority.settle (cardOf (rows.filter fun row => row.entity = entity))) authority =
          .ok final ∧
      ReadsVerdicts workspaceId rows (streams ++ entities) final.verdicts := by
  induction entities generalizing streams authority with
  | nil => exact ⟨authority, rfl, by simpa using reads⟩
  | cons entity rest ih =>
    obtain ⟨next, settles, more⟩ := reads.settle placed entity
    obtain ⟨final, run, all⟩ := ih more
    refine ⟨final, ?_, by simpa using all⟩
    rw [List.foldlM_cons, settles]
    exact run

/-- The rows of an orderly store lie in the streams of their pairs. -/
theorem streams_of_orderly {journal : Journal} {workspaceId : String}
    (orderly : Orderly journal workspaceId) (apart : PairsApart workspaceId journal.entries) :
    Streams workspaceId journal.entries := by
  refine ⟨?_, apart⟩
  intro row member pair about
  have last : row ∈ rowsUpTo journal workspaceId row.sequence := by
    unfold rowsUpTo
    rw [orderly.region]
    exact List.mem_filter.mpr ⟨member, by simp⟩
  exact entity_of_pair orderly last about

omit [Blake3] in
/-- A scan without a frontier is one whose frontier comes after every row. -/
theorem authoritativeSettlements_whole {journal : Journal} {workspaceId : String}
    (own : journal.region (scopeForWorkspace workspaceId) = journal.entries) {frontier : Nat}
    (last : ∀ row ∈ journal.entries, row.sequence ≤ frontier) :
    authoritativeSettlements (readable journal) workspaceId none =
        authoritativeSettlements (readable journal) workspaceId (some frontier) ∧
      rowsUpTo journal workspaceId frontier = journal.entries := by
  have rows : rowsUpTo journal workspaceId frontier = journal.entries := by
    unfold rowsUpTo
    rw [own, List.filter_eq_self]
    intro row member
    simpa using last row member
  have streams : ∀ entity, streamRows (readable journal) entity none =
      streamRows (readable journal) entity (some frontier) := by
    intro entity
    rw [streamRows_upTo own, rows]
    rfl
  have scanned : scannedRows (readable journal) workspaceId none =
      scannedRows (readable journal) workspaceId (some frontier) := by
    rw [scannedRows_upTo, rows, ← own]
    exact ((readable journal).flatten_pages (scopeForWorkspace workspaceId) none).trans
      (rowsAfter_none _)
  refine ⟨?_, rows⟩
  unfold authoritativeSettlements settlementEntities settlementCard
  simp only [scanned, streams]

/-- The authority of an orderly store settles each pair with its first verdict. -/
theorem authoritativeSettlements_first {journal : Journal} {workspaceId : String}
    (orderly : Orderly journal workspaceId) (apart : PairsApart workspaceId journal.entries) :
    ∃ authority, authoritativeSettlements (readable journal) workspaceId none = .ok authority ∧
      ∀ pair : ClaimId × ClaimId,
        authority.verdicts[pair]? = firstVerdict journal.entries pair := by
  set frontier := journal.lastSequence
  obtain ⟨whole, rows⟩ := authoritativeSettlements_whole orderly.region
    (fun row member => journal.le_lastSequence member)
  have placed := streams_of_orderly orderly apart
  have listed := (settlementEntities_spec journal workspaceId frontier).2
  have start : ReadsVerdicts workspaceId journal.entries []
      ({} : SettlementAuthority).verdicts := by
    intro pair
    simp
  obtain ⟨final, run, reads⟩ := start.settleAll placed
    (settlementEntities (readable journal) workspaceId (some frontier))
  refine ⟨final, ?_, ?_⟩
  · rw [whole, ← run]
    unfold authoritativeSettlements
    congr 1
    funext authority entity
    rw [settlementCard_upTo orderly.region, rows]
    rfl
  · intro pair
    rw [reads pair, List.nil_append]
    by_cases read : pairEntity workspaceId pair ∈
        settlementEntities (readable journal) workspaceId (some frontier)
    · rw [if_pos read]
    · rw [if_neg read]
      symm
      apply firstVerdict_none
      intro judged
      obtain ⟨row, member, about⟩ := List.mem_filterMap.mp judged
      obtain ⟨lies, relation⟩ := placed.lies row member pair (Or.inr about)
      apply read
      rw [listed]
      refine ⟨by rw [← lies]; exact relation, row, by rw [rows]; exact member, lies⟩

end Streams

end Texo.Ops
