import Texo.Foundation.UnorderedPairs
import Texo.Ops.IndexOrder
import Texo.Ops.Runs
import Texo.Relate.Checkpoints

/-! # Unresolved pairs

The status of a workspace counts the relation streams that hold deferrals and no judgment. A stream
is about two claims in one order, so a pair deferred in one order and deferred or judged in the
other is counted under the first.
-/
namespace Texo.Ops
open Texo.Events Texo.Knowledge Texo.Store Texo.Claims Texo.Semantics Texo.Foundation Texo.Ingest
  Texo.Relate

/-- The claims a deferral is about, the older one first. -/
def deferredPair : Payload → Option (ClaimId × ClaimId)
  | .relationDeferred event => some (event.olderClaim, event.newerClaim)
  | _ => none

/-- The claims a judgment is about, the older one first. -/
def judgedPair : Payload → Option (ClaimId × ClaimId)
  | .relationJudged event => some (event.olderClaim, event.newerClaim)
  | _ => none

/-- The pairs deferred in some rows. -/
def deferredPairs (rows : List Entry) : List (ClaimId × ClaimId) :=
  rows.filterMap fun row => deferredPair row.payload

/-- The pairs judged in some rows. -/
def judgedPairs (rows : List Entry) : List (ClaimId × ClaimId) :=
  rows.filterMap fun row => judgedPair row.payload

/-- The rows of a workspace at or before a frontier. -/
def rowsUpTo (journal : Journal) (workspaceId : String) (frontier : Nat) : List Entry :=
  (journal.region (scopeForWorkspace workspaceId)).filter fun row => row.sequence ≤ frontier

/-- The unordered pairs with a deferral and no judgment, in either orientation. -/
def openPairs (rows : List Entry) : Finset (Sym2 ClaimId) :=
  unorderedPairs (deferredPairs rows).toFinset \ unorderedPairs (judgedPairs rows).toFinset

section

variable [Blake3]

/-- `unresolved_pairs` of `workspace_status`, whose view stands at the frontier. -/
def unresolvedPairs (store : JournalRead) (workspaceId : String) (frontier : Nat) :
    Except TexoError Nat :=
  (authoritativeSettlements store workspaceId (some frontier)).map
    SettlementAuthority.unresolvedPairs

/-- The relation stream of a pair in a workspace. -/
def pairEntity (workspaceId : String) (pair : ClaimId × ClaimId) : String :=
  match WorkspaceId.new workspaceId with
  | .error _ => ""
  | .ok workspace => entityForRelationPair (relationPairId workspace pair.1 pair.2).value

/-- No two pairs that some rows defer or judge have one pair id. -/
def PairsApart (workspaceId : String) (rows : List Entry) : Prop :=
  ∀ pair ∈ deferredPairs rows ++ judgedPairs rows,
    ∀ other ∈ deferredPairs rows ++ judgedPairs rows,
      pairEntity workspaceId pair = pairEntity workspaceId other → pair = other

section Cards

omit [Blake3]

/-- The card of some rows. -/
def cardOf (rows : List Entry) : SettlementCard :=
  rows.foldl (fun card row => card.applyEvent row.payload) {}

/-- What a card holds of the rows it folds. -/
structure CardHolds (rows : List Entry) (card : SettlementCard) : Prop where
  judged : card.authoritative = none ↔ judgedPairs rows = []
  deferred : card.deferrals = [] ↔ deferredPairs rows = []
  named : card.authoritative ≠ none →
    ∃ pair : ClaimId × ClaimId, card.olderClaim = pair.1.value ∧ card.newerClaim = pair.2.value

/-- A folded row is held. -/
theorem CardHolds.applyEvent {rows : List Entry} {card : SettlementCard}
    (holds : CardHolds rows card) (row : Entry) :
    CardHolds (rows ++ [row]) (card.applyEvent row.payload) := by
  have more : ∀ {Label : Type} (label : Payload → Option Label),
      (rows ++ [row]).filterMap (fun row => label row.payload) =
        rows.filterMap (fun row => label row.payload) ++ (label row.payload).toList := by
    intro Label label
    rw [List.filterMap_append]
    cases found : label row.payload with
    | none => simp [found]
    | some pair => simp [found]
  have judged := more judgedPair
  have deferred := more deferredPair
  unfold SettlementCard.applyEvent
  cases held : row.payload with
  | relationJudged event =>
    rw [held] at judged deferred
    refine ⟨?_, ?_, ?_⟩
    · refine iff_of_false ?_ ?_
      · cases before : card.authoritative <;> simp [SettlementCard.onJudged, before]
      · unfold judgedPairs
        rw [judged]
        simp [judgedPair]
    · unfold deferredPairs
      rw [deferred]
      simpa [deferredPair, SettlementCard.onJudged, deferredPairs] using holds.deferred
    · intro _
      exact ⟨(event.olderClaim, event.newerClaim), rfl, rfl⟩
  | relationDeferred event =>
    rw [held] at judged deferred
    refine ⟨?_, ?_, ?_⟩
    · unfold judgedPairs
      rw [judged]
      simpa [judgedPair, SettlementCard.onDeferred, judgedPairs] using holds.judged
    · refine iff_of_false ?_ ?_
      · simp [SettlementCard.onDeferred]
      · unfold deferredPairs
        rw [deferred]
        simp [deferredPair]
    · intro _
      exact ⟨(event.olderClaim, event.newerClaim), rfl, rfl⟩
  | _ =>
    rw [held] at judged deferred
    refine ⟨?_, ?_, holds.named⟩
    · unfold judgedPairs
      rw [judged]
      simpa [judgedPair, judgedPairs] using holds.judged
    · unfold deferredPairs
      rw [deferred]
      simpa [deferredPair, deferredPairs] using holds.deferred

/-- A card holds what its rows say. -/
theorem cardOf_holds (rows : List Entry) : CardHolds rows (cardOf rows) := by
  induction rows using List.reverseRecOn with
  | nil =>
    exact ⟨by simp [cardOf, judgedPairs], by simp [cardOf, deferredPairs],
      fun some => absurd rfl some⟩
  | append_singleton rows row ih =>
    unfold cardOf at ih ⊢
    rw [List.foldl_append]
    exact ih.applyEvent row

end Cards

section Streams

omit [Blake3]

/-- In ascending rows, those up to a frontier come first. -/
theorem takeWhile_ordered {rows : List Entry} (ordered : Ordered Entry.sequence rows)
    (frontier : Nat) :
    (rows.takeWhile fun row => row.sequence ≤ frontier) =
      rows.filter fun row => row.sequence ≤ frontier := by
  induction rows with
  | nil => rfl
  | cons row rest ih =>
    obtain ⟨first, later⟩ := List.pairwise_cons.mp ordered
    by_cases inside : row.sequence ≤ frontier
    · rw [List.takeWhile_cons_of_pos (by simpa using inside),
        List.filter_cons_of_pos (by simpa using inside), ih later]
    · rw [List.takeWhile_cons_of_neg (by simpa using inside),
        List.filter_cons_of_neg (by simpa using inside)]
      refine (List.filter_eq_nil_iff.mpr ?_).symm
      intro other member
      have after := first other member
      simp only [decide_eq_true_eq]
      omega

/-- The rows the settlement scan visits. -/
theorem scannedRows_upTo (journal : Journal) (workspaceId : String) (frontier : Nat) :
    scannedRows (readable journal) workspaceId (some frontier) =
      rowsUpTo journal workspaceId frontier := by
  show (readable journal).rowsThrough (scopeForWorkspace workspaceId) frontier = _
  rw [rowsThrough_readable]
  exact takeWhile_ordered (journal.region_ordered _) frontier

/-- The rows of a stream up to a frontier, where the store holds one workspace. -/
theorem streamRows_upTo {journal : Journal} {workspaceId : String}
    (own : journal.region (scopeForWorkspace workspaceId) = journal.entries) (entity : String)
    (frontier : Nat) :
    streamRows (readable journal) entity (some frontier) =
      (rowsUpTo journal workspaceId frontier).filter fun row => row.entity = entity := by
  have ordered : Ordered Entry.sequence (journal.byEntity entity) := journal.ordered.filter _
  unfold streamRows
  rw [rowsUpTo, own, List.filter_comm]
  exact takeWhile_ordered ordered frontier

/-- The streams of a scan: the relation streams its rows lie in, each once. -/
theorem settlementEntities_spec (journal : Journal) (workspaceId : String) (frontier : Nat) :
    (settlementEntities (readable journal) workspaceId (some frontier)).Nodup ∧
      ∀ entity, entity ∈ settlementEntities (readable journal) workspaceId (some frontier) ↔
        startsWith entity "relation:" = true ∧
          ∃ row ∈ rowsUpTo journal workspaceId frontier, row.entity = entity := by
  unfold settlementEntities
  rw [scannedRows_upTo]
  constructor
  · refine Std.ExtTreeSet.distinct_toList.imp ?_
    intro entity other apart same
    exact apart (Std.LawfulEqCmp.compare_eq_iff_eq.mpr same)
  · intro entity
    rw [Std.ExtTreeSet.mem_toList]
    have scan : ∀ (rows : List Entry) (found : Std.ExtTreeSet String),
        entity ∈ rows.foldl (fun (entities : Std.ExtTreeSet String) entry =>
          if startsWith entry.entity "relation:" then entities.insert entry.entity else entities)
            found ↔
          entity ∈ found ∨ (startsWith entity "relation:" = true ∧
            ∃ row ∈ rows, row.entity = entity) := by
      intro rows
      induction rows with
      | nil => simp
      | cons row rest ih =>
        intro found
        rw [List.foldl_cons, ih]
        by_cases relation : startsWith row.entity "relation:" = true
        · rw [if_pos relation, Std.ExtTreeSet.mem_insert, Std.LawfulEqCmp.compare_eq_iff_eq]
          constructor
          · rintro ((same | inside) | ⟨named, other, member, lies⟩)
            · exact Or.inr ⟨by rw [← same]; exact relation, row, by simp, same⟩
            · exact Or.inl inside
            · exact Or.inr ⟨named, other, by simp [member], lies⟩
          · rintro (inside | ⟨named, other, member, lies⟩)
            · exact Or.inl (Or.inr inside)
            · rcases List.mem_cons.mp member with rfl | later
              · exact Or.inl (Or.inl lies)
              · exact Or.inr ⟨named, other, later, lies⟩
        · rw [if_neg relation]
          constructor
          · rintro (inside | ⟨named, other, member, lies⟩)
            · exact Or.inl inside
            · exact Or.inr ⟨named, other, by simp [member], lies⟩
          · rintro (inside | ⟨named, other, member, lies⟩)
            · exact Or.inl inside
            · rcases List.mem_cons.mp member with rfl | later
              · rw [← lies] at named
                exact absurd named relation
              · exact Or.inr ⟨named, other, later, lies⟩
    rw [scan]
    simp

/-- A claim id parses back. -/
theorem claimIdOf_ok (claimId : ClaimId) : claimIdOf claimId.value = .ok claimId := by
  unfold claimIdOf
  rw [Branded.tryFrom_value claimId (by decide)]

/-- A stream that counts as unresolved: it holds deferrals and no judgment. -/
def Unresolved (rows : List Entry) (entity : String) : Prop :=
  judgedPairs (rows.filter fun row => row.entity = entity) = [] ∧
    deferredPairs (rows.filter fun row => row.entity = entity) ≠ []

instance (rows : List Entry) (entity : String) : Decidable (Unresolved rows entity) :=
  inferInstanceAs (Decidable (_ ∧ _))

/-- The card of a stream of a store that holds one workspace. -/
theorem settlementCard_upTo {journal : Journal} {workspaceId : String}
    (own : journal.region (scopeForWorkspace workspaceId) = journal.entries) (entity : String)
    (frontier : Nat) :
    settlementCard (readable journal) entity (some frontier) =
      .ok (cardOf ((rowsUpTo journal workspaceId frontier).filter
        fun row => row.entity = entity)) := by
  have folds : ∀ (rows : List Entry) (card : SettlementCard),
      rows.foldlM (fun (card : SettlementCard) entry =>
        ((readable journal).readRaw entry).map card.applyEvent) card =
        .ok (rows.foldl (fun card row => card.applyEvent row.payload) card) := by
    intro rows
    induction rows with
    | nil => intro card; rfl
    | cons row rest ih =>
      intro card
      rw [List.foldlM_cons]
      exact ih _
  unfold settlementCard
  rw [streamRows_upTo own, folds]
  rfl

/-- Settling a card counts it where its stream is unresolved, and does not fail. -/
theorem settle_counts (authority : SettlementAuthority) (rows : List Entry) :
    ∃ next, authority.settle (cardOf rows) = .ok next ∧
      next.unresolvedPairs = authority.unresolvedPairs +
        if judgedPairs rows = [] ∧ deferredPairs rows ≠ [] then 1 else 0 := by
  have holds := cardOf_holds rows
  unfold SettlementAuthority.settle
  cases settled : (cardOf rows).authoritative with
  | none =>
    have unjudged := holds.judged.mp settled
    refine ⟨_, rfl, ?_⟩
    by_cases none : (cardOf rows).deferrals = []
    · rw [if_pos none, if_neg (by rintro ⟨_, some⟩; exact some (holds.deferred.mp none))]
      rfl
    · rw [if_neg none, if_pos ⟨unjudged, fun empty => none (holds.deferred.mpr empty)⟩]
  | some record =>
    have some : (cardOf rows).authoritative ≠ none := by
      rw [settled]
      exact Option.some_ne_none record
    obtain ⟨pair, older, newer⟩ := holds.named some
    have judged : ¬(judgedPairs rows = [] ∧ deferredPairs rows ≠ []) := by
      rintro ⟨empty, _⟩
      exact some (holds.judged.mpr empty)
    rw [if_neg judged]
    dsimp only
    rw [older, newer, claimIdOf_ok, claimIdOf_ok]
    exact ⟨_, rfl, rfl⟩

end Streams

section Count

omit [Blake3] in
/-- Settling cards counts the unresolved streams. -/
theorem settleAll_counts (rowsOf : String → List Entry) (entities : List String)
    (authority : SettlementAuthority) :
    ∃ final, entities.foldlM (fun (authority : SettlementAuthority) entity =>
        authority.settle (cardOf (rowsOf entity))) authority = .ok final ∧
      final.unresolvedPairs = authority.unresolvedPairs +
        (entities.filter fun entity => judgedPairs (rowsOf entity) = [] ∧
          deferredPairs (rowsOf entity) ≠ []).length := by
  induction entities generalizing authority with
  | nil => exact ⟨authority, rfl, rfl⟩
  | cons entity rest ih =>
    obtain ⟨next, settles, counted⟩ := settle_counts authority (rowsOf entity)
    obtain ⟨final, run, total⟩ := ih next
    refine ⟨final, ?_, ?_⟩
    · rw [List.foldlM_cons, settles]
      exact run
    · rw [total, counted, List.filter_cons]
      by_cases unresolved : judgedPairs (rowsOf entity) = [] ∧ deferredPairs (rowsOf entity) ≠ []
      · rw [if_pos unresolved, if_pos (decide_eq_true unresolved), List.length_cons]
        omega
      · rw [if_neg unresolved, if_neg (by simpa using unresolved)]
        omega

omit [Blake3] in
/-- The status counts the unresolved streams. -/
theorem unresolvedPairs_counts {journal : Journal} {workspaceId : String}
    (own : journal.region (scopeForWorkspace workspaceId) = journal.entries) (frontier : Nat) :
    unresolvedPairs (readable journal) workspaceId frontier =
      .ok ((settlementEntities (readable journal) workspaceId (some frontier)).filter
        fun entity => Unresolved (rowsUpTo journal workspaceId frontier) entity).length := by
  obtain ⟨final, run, counted⟩ := settleAll_counts
    (fun entity => (rowsUpTo journal workspaceId frontier).filter fun row => row.entity = entity)
    (settlementEntities (readable journal) workspaceId (some frontier)) {}
  have settles : authoritativeSettlements (readable journal) workspaceId (some frontier) =
      .ok final := by
    unfold authoritativeSettlements
    rw [← run]
    congr 1
    funext authority entity
    rw [settlementCard_upTo own]
    rfl
  unfold unresolvedPairs
  rw [settles]
  exact congrArg Except.ok (counted.trans (Nat.zero_add _))

/-- A row about a pair lies in the pair's stream. -/
theorem entity_of_pair {journal : Journal} {workspaceId : String}
    (orderly : Orderly journal workspaceId) {frontier : Nat} {row : Entry}
    (member : row ∈ rowsUpTo journal workspaceId frontier)
    {pair : ClaimId × ClaimId}
    (about : deferredPair row.payload = some pair ∨ judgedPair row.payload = some pair) :
    row.entity = pairEntity workspaceId pair ∧ startsWith row.entity "relation:" = true := by
  have inside := (Journal.mem_region.mp (List.mem_filter.mp member).1).1
  have scope := orderly.own row inside
  have placed := (orderly.conforming row inside).placed
  have lies : ∃ workspace : WorkspaceId, row.entity =
      entityForRelationPair (relationPairId workspace pair.1 pair.2).value ∧
        row.scope = scopeForWorkspace workspace.value := by
    cases held : row.payload with
    | relationJudged event =>
      rw [held] at about placed
      have same : (event.olderClaim, event.newerClaim) = pair := by
        simpa [deferredPair, judgedPair] using about
      have coordinate := placed _ rfl
      rw [← same]
      exact ⟨event.workspaceId, (congrArg Coordinate.entity coordinate).symm,
        (congrArg Coordinate.scope coordinate).symm⟩
    | relationDeferred event =>
      rw [held] at about placed
      have same : (event.olderClaim, event.newerClaim) = pair := by
        simpa [deferredPair, judgedPair] using about
      have coordinate := placed _ rfl
      rw [← same]
      exact ⟨event.workspaceId, (congrArg Coordinate.entity coordinate).symm,
        (congrArg Coordinate.scope coordinate).symm⟩
    | _ =>
      rw [held] at about
      simp [deferredPair, judgedPair] at about
  obtain ⟨workspace, entity, placedScope⟩ := lies
  have named : workspace.value = workspaceId :=
    scopeForWorkspace_injective (placedScope.symm.trans scope)
  have made : WorkspaceId.new workspaceId = .ok workspace := by
    unfold WorkspaceId.new
    subst named
    rw [dif_pos workspace.valid]
  refine ⟨?_, ?_⟩
  · unfold pairEntity
    rw [entity, made]
  · rw [entity]
    exact startsWith_append _ _

/-- The unresolved streams are those of the pairs deferred and not judged. -/
theorem unresolved_iff {journal : Journal} {workspaceId : String}
    (orderly : Orderly journal workspaceId) {frontier : Nat}
    (apart : PairsApart workspaceId (rowsUpTo journal workspaceId frontier))
    (entity : String) :
    (entity ∈ settlementEntities (readable journal) workspaceId (some frontier) ∧
        Unresolved (rowsUpTo journal workspaceId frontier) entity) ↔
      entity ∈ ((deferredPairs (rowsUpTo journal workspaceId frontier)).toFinset \
        (judgedPairs (rowsUpTo journal workspaceId frontier)).toFinset).image
          (pairEntity workspaceId) := by
  set rows := rowsUpTo journal workspaceId frontier with defined
  have stream : ∀ {row : Entry} {pair : ClaimId × ClaimId}, row ∈ rows →
      (deferredPair row.payload = some pair ∨ judgedPair row.payload = some pair) →
        row.entity = pairEntity workspaceId pair ∧ startsWith row.entity "relation:" = true :=
    fun member about => entity_of_pair orderly member about
  constructor
  · intro ⟨_, unjudged, deferred⟩
    obtain ⟨pair, held⟩ := List.exists_mem_of_ne_nil _ deferred
    obtain ⟨row, member, about⟩ := List.mem_filterMap.mp held
    obtain ⟨inside, lies⟩ := List.mem_filter.mp member
    have named := (stream inside (Or.inl about)).1
    rw [of_decide_eq_true lies] at named
    refine Finset.mem_image.mpr ⟨pair, Finset.mem_sdiff.mpr ⟨?_, ?_⟩, named.symm⟩
    · exact List.mem_toFinset.mpr (List.mem_filterMap.mpr ⟨row, inside, about⟩)
    · intro judged
      obtain ⟨other, there, also⟩ := List.mem_filterMap.mp (List.mem_toFinset.mp judged)
      have same := (stream there (Or.inr also)).1.trans named.symm
      have listed : pair ∈ judgedPairs (rows.filter fun row => row.entity = entity) :=
        List.mem_filterMap.mpr ⟨other, List.mem_filter.mpr ⟨there, by simpa using same⟩, also⟩
      rw [unjudged] at listed
      cases listed
  · intro listed
    obtain ⟨pair, left, rfl⟩ := Finset.mem_image.mp listed
    obtain ⟨deferred, unjudged⟩ := Finset.mem_sdiff.mp left
    have held := List.mem_toFinset.mp deferred
    obtain ⟨row, inside, about⟩ := List.mem_filterMap.mp held
    obtain ⟨lies, relation⟩ := stream inside (Or.inl about)
    refine ⟨?_, ?_, ?_⟩
    · refine ((settlementEntities_spec journal workspaceId frontier).2 _).mpr
        ⟨?_, row, inside, lies⟩
      rw [← lies]
      exact relation
    · apply List.eq_nil_iff_forall_not_mem.mpr
      intro other judged
      obtain ⟨there, member, also⟩ := List.mem_filterMap.mp judged
      obtain ⟨within, same⟩ := List.mem_filter.mp member
      have listed : other ∈ judgedPairs rows := List.mem_filterMap.mpr ⟨there, within, also⟩
      have one : pair = other := apart pair (List.mem_append_left _ held) other
        (List.mem_append_right _ listed)
        ((of_decide_eq_true same).symm.trans (stream within (Or.inr also)).1)
      rw [one] at unjudged
      exact unjudged (List.mem_toFinset.mpr listed)
    · apply List.ne_nil_of_mem
      exact List.mem_filterMap.mpr ⟨row, List.mem_filter.mpr ⟨inside, by simpa using lies⟩, about⟩

/-- The count of an orderly store: one for each ordered pair deferred and not judged. -/
theorem unresolvedPairs_card {journal : Journal} {workspaceId : String}
    (orderly : Orderly journal workspaceId) {frontier : Nat}
    (apart : PairsApart workspaceId (rowsUpTo journal workspaceId frontier)) :
    unresolvedPairs (readable journal) workspaceId frontier =
      .ok ((deferredPairs (rowsUpTo journal workspaceId frontier)).toFinset \
        (judgedPairs (rowsUpTo journal workspaceId frontier)).toFinset).card := by
  rw [unresolvedPairs_counts orderly.region]
  congr 1
  have distinct := ((settlementEntities_spec journal workspaceId frontier).1.filter
    fun entity => Unresolved (rowsUpTo journal workspaceId frontier) entity)
  rw [← List.toFinset_card_of_nodup distinct]
  have streams : ((settlementEntities (readable journal) workspaceId (some frontier)).filter
      fun entity => Unresolved (rowsUpTo journal workspaceId frontier) entity).toFinset =
      ((deferredPairs (rowsUpTo journal workspaceId frontier)).toFinset \
        (judgedPairs (rowsUpTo journal workspaceId frontier)).toFinset).image
          (pairEntity workspaceId) := by
    ext entity
    rw [← unresolved_iff orderly apart, List.mem_toFinset, List.mem_filter, decide_eq_true_eq]
  rw [streams]
  apply Finset.card_image_of_injOn
  intro pair left other also same
  obtain ⟨deferred, _⟩ := Finset.mem_sdiff.mp (Finset.mem_coe.mp left)
  obtain ⟨deferred', _⟩ := Finset.mem_sdiff.mp (Finset.mem_coe.mp also)
  exact apart pair (List.mem_append_left _ (List.mem_toFinset.mp deferred)) other
    (List.mem_append_left _ (List.mem_toFinset.mp deferred')) same

/-- After any operations, and at any frontier, the status counts the unordered pairs with a deferral
and no judgment exactly where no pair deferred and not judged in one order is deferred or judged
in the other. -/
theorem unresolved_pairs_iff {Score : Type} (workspaceId : String)
    (operations : List (Nat × Operation Score)) (frontier : Nat)
    (apart : PairsApart workspaceId
      (rowsUpTo (runOperations workspaceId operations Journal.empty) workspaceId frontier)) :
    unresolvedPairs (readable (runOperations workspaceId operations Journal.empty)) workspaceId
        frontier =
        .ok (openPairs (rowsUpTo (runOperations workspaceId operations Journal.empty) workspaceId
          frontier)).card ↔
      OneOrientation
        (deferredPairs (rowsUpTo (runOperations workspaceId operations Journal.empty) workspaceId
          frontier)).toFinset
        (judgedPairs (rowsUpTo (runOperations workspaceId operations Journal.empty) workspaceId
          frontier)).toFinset := by
  have orderly : Orderly (runOperations workspaceId operations Journal.empty) workspaceId :=
    runOperations_orderly operations (orderly_empty workspaceId)
  rw [unresolvedPairs_card orderly apart, Except.ok.injEq]
  exact card_sdiff_iff _ _

end Count

/-- Two files of one claim each. -/
def twoFiles : SourceWorld where
  inputPath := "/w"
  discovery := .ok
    { files := [⟨"/w/a.md", "a.md", .text "Alpha is slow."⟩,
        ⟨"/w/b.md", "b.md", .text "Beta is fast."⟩] }
  runExtractor := fun _ _ => .failed "no command"
  rowsJson := fun _ => "[]"

/-- A repository state of some files, later than those before it. -/
def laterState (snapshotId : SourceSnapshotId) (files : List (String × String)) : GitWorld :=
  { repeatState snapshotId files with compareCommits := fun _ _ => .ok ⟨.before, none⟩ }

/-- Two claims are ingested, their pair is deferred, then the repository shows that the second one
is older, and the pair is judged. Both relate runs stop before their checkpoint. -/
def turnedOperations : List (Nat × Operation Nat) :=
  [(9, .ingest {} twoFiles { dryRun := false, observedAtMs := 1 }),
    (1, .relate { unrelatedWorld "A" with
      judge := fun _ _ _ => .error { failureClass := .deadline } } { observedAtMs := 2 }),
    (9, .index (laterState ⟨"snapshot_0", Eq.refl true⟩ [("b.md", "Beta is fast.")])
      ⟨3, none, none, none⟩),
    (9, .index (laterState ⟨"snapshot_1", Eq.refl true⟩ [("a.md", "Alpha is slow.")])
      ⟨4, none, none, none⟩),
    (1, .relate (unrelatedWorld "A") { observedAtMs := 5 })]

/-- The rows these operations leave. -/
def turnedRows : List Entry :=
  rowsUpTo (runOperations "demo" turnedOperations Journal.empty) "demo" 99

/-- Whether some rows defer one pair, and judge it in the other order, under another id. -/
def turnedIn (workspaceId : String) (rows : List Entry) : Bool :=
  match deferredPairs rows, judgedPairs rows with
  | [deferred], [judged] =>
    judged = deferred.swap && deferred ≠ judged &&
      pairEntity workspaceId deferred ≠ pairEntity workspaceId judged
  | _, _ => false

/-- The pair that some rows defer and judge turned around. -/
theorem pair_of_turnedIn {workspaceId : String} {rows : List Entry}
    (shown : turnedIn workspaceId rows = true) :
    ∃ pair, deferredPairs rows = [pair] ∧ judgedPairs rows = [pair.swap] ∧ pair ≠ pair.swap ∧
      pairEntity workspaceId pair ≠ pairEntity workspaceId pair.swap := by
  unfold turnedIn at shown
  split at shown
  · rename_i deferred judged one other
    rw [Bool.and_eq_true, Bool.and_eq_true, decide_eq_true_eq, decide_eq_true_eq,
      decide_eq_true_eq] at shown
    obtain ⟨⟨turned, apart⟩, named⟩ := shown
    rw [turned] at apart named other
    exact ⟨deferred, one, other, apart, named⟩
  · cases shown

end

/-- One pair is deferred, and judged turned around. -/
theorem turnedRows_turned :
    let _ := numeralDigest
    turnedIn "demo" turnedRows = true := by
  decide +kernel

/-- The two orders of the pair have two ids. -/
theorem turnedRows_apart :
    let _ := numeralDigest
    PairsApart "demo" turnedRows := by
  intro _
  obtain ⟨pair, deferred, judged, _, named⟩ := pair_of_turnedIn turnedRows_turned
  intro first listed second also same
  rw [deferred, judged] at listed also
  have either : ∀ other ∈ [pair] ++ [pair.swap], other = pair ∨ other = pair.swap := by
    intro other member
    simpa using member
  rcases either first listed with rfl | rfl
  · rcases either second also with equal | rfl
    · exact equal.symm
    · exact absurd same named
  · rcases either second also with rfl | equal
    · exact absurd same.symm named
    · exact equal.symm

/-- The turned pair, at the last frontier. -/
theorem unresolved_pairs_iff_turned :
    let _ := numeralDigest
    unresolvedPairs (readable (runOperations "demo" turnedOperations Journal.empty)) "demo" 99 =
        .ok (openPairs turnedRows).card ↔
      OneOrientation (deferredPairs turnedRows).toFinset (judgedPairs turnedRows).toFinset := by
  intro _
  exact unresolved_pairs_iff "demo" turnedOperations 99 turnedRows_apart

/-- A pair deferred in one order and judged in the other still counts as unresolved. -/
theorem turned_pair_counted :
    let _ := numeralDigest
    ¬ ∀ (workspaceId : String) (operations : List (Nat × Operation Nat)) (frontier : Nat),
      PairsApart workspaceId
          (rowsUpTo (runOperations workspaceId operations Journal.empty) workspaceId frontier) →
        unresolvedPairs (readable (runOperations workspaceId operations Journal.empty)) workspaceId
            frontier =
          .ok (openPairs (rowsUpTo (runOperations workspaceId operations Journal.empty) workspaceId
            frontier)).card := by
  intro _ counts
  have counted := counts "demo" turnedOperations 99 turnedRows_apart
  have orderly : Orderly (runOperations "demo" turnedOperations Journal.empty) "demo" :=
    runOperations_orderly turnedOperations (orderly_empty "demo")
  rw [unresolvedPairs_card orderly turnedRows_apart] at counted
  have one := (card_sdiff_iff _ _).mp (Except.ok.inj counted)
  obtain ⟨pair, deferred, judged, apart, _⟩ := pair_of_turnedIn turnedRows_turned
  have held : pair ∈ (deferredPairs turnedRows).toFinset := by simp [deferred]
  have unjudged : pair ∉ (judgedPairs turnedRows).toFinset := by simpa [judged] using apart
  have turned : pair.swap ∈ (judgedPairs turnedRows).toFinset := by simp [judged]
  exact (one pair held unjudged).1 turned

end Texo.Ops
