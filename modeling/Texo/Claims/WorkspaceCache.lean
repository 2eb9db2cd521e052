import Mathlib.Data.List.TakeWhile
import Texo.Claims.Workspace
import Texo.Foundation.Folds

/-! # What the projection cache knows

A cache is sound for a region when its cards are exactly the fold of a leading part
of the region that ends at its frontier, and its warm view, where it still stands at
the frontier, is the view of those cards. The laws here say how one call moves a
sound cache, and which failing calls leave it sound.
-/
namespace Texo.Claims
open Texo.Events Texo.Store Texo.Foundation

/-- Cards by entity string, without generations. -/
abbrev BareCards := Std.ExtTreeMap String CachedCard

/-- The cards of a cache without their generations. -/
def WorkspaceCache.bare (cache : WorkspaceCache) : BareCards :=
  cache.cards.map fun _ slot => slot.2

/-- What one entry does to the cards. -/
def foldCard (cards : BareCards) (entry : Entry) : BareCards :=
  match CardFamily.of entry.entity with
  | none => cards
  | some family =>
    if relevant family entry.payload.kind then
      cards.insert entry.entity
        ((cards[entry.entity]?.getD (emptyCard family)).applyEvent family entry.payload)
    else
      cards

/-- The cards of a whole replay. -/
def cardsOf (rows : List Entry) : BareCards := rows.foldl foldCard ∅

/-- The frontier of a replay. -/
def frontierOf (rows : List Entry) : Nat := (rows.getLast?.map Entry.sequence).getD 0

/-- The anchor of a replay. -/
def anchorOf (rows : List Entry) : Option EventId := rows.getLast?.map Entry.eventId

/-- The view of a replay, the purpose of the cache. -/
def replayView (workspaceId : String) (rows : List Entry) : WorkspaceView :=
  deriveView workspaceId (frontierOf rows) ((cardsOf rows).toList.map Prod.snd)

/-- An entry whose raw event is needed and cannot be read. -/
def blocked (store : JournalRead) (entry : Entry) : Bool :=
  (CardFamily.of entry.entity).isSome && store.unreadable entry.eventId

/-- An entry that changes a card. -/
def folds (entry : Entry) : Bool :=
  match CardFamily.of entry.entity with
  | none => false
  | some family => relevant family entry.payload.kind

/-- An entry that changes no card leaves the cards alone. -/
theorem foldCard_of_not_folds {cards : BareCards} {entry : Entry} (idle : folds entry = false) :
    foldCard cards entry = cards := by
  unfold folds at idle
  unfold foldCard
  cases family : CardFamily.of entry.entity with
  | none => rfl
  | some found => simp [family] at idle; simp [idle]

/-- Entries that change no card leave the cards alone. -/
theorem foldl_foldCard_of_not_folds (cards : BareCards) {rows : List Entry}
    (idle : ∀ entry ∈ rows, folds entry = false) : rows.foldl foldCard cards = cards := by
  induction rows with
  | nil => rfl
  | cons entry rows ih =>
    rw [List.foldl_cons, foldCard_of_not_folds (idle entry (by simp))]
    exact ih fun later member => idle later (by simp [member])

/-- Forgetting generations commutes with inserting a slot. -/
theorem map_insert (cards : CardMap) (entity : String) (slot : Nat × CachedCard) :
    (cards.insert entity slot).map (fun _ slot => slot.2) =
      (cards.map fun _ slot => slot.2).insert entity slot.2 := by
  apply Std.ExtTreeMap.ext_getElem?
  intro key
  simp only [Std.ExtTreeMap.getElem?_map, Std.ExtTreeMap.getElem?_insert]
  split <;> rfl

/-- Folding an event into a cache folds it into the bare cards. -/
theorem bare_foldEvent {cache : WorkspaceCache} {entry : Entry} {family : CardFamily}
    (found : CardFamily.of entry.entity = some family) :
    (foldEvent cache entry.entity family entry.payload).bare = foldCard cache.bare entry := by
  unfold foldEvent foldCard
  rw [found]
  by_cases kind : relevant family entry.payload.kind = true
  · simp only [kind, if_true, WorkspaceCache.bare, map_insert, Std.ExtTreeMap.getElem?_map]
    cases cache.cards[entry.entity]? <;> rfl
  · simp [kind]

/-- Everything a fold of entries leaves alone. -/
def WorkspaceCache.position (cache : WorkspaceCache) :
    Nat × Option EventId × Option WorkspaceView × ProjectionFreshness :=
  (cache.frontier, cache.anchorEventId, cache.view, cache.freshness)

@[simp] theorem position_foldEvent (cache : WorkspaceCache) (entity : String)
    (family : CardFamily) (payload : Payload) :
    (foldEvent cache entity family payload).position = cache.position := by
  unfold foldEvent
  split <;> rfl

@[simp] theorem cache_notePrior (folding : Folding) (entity : String) :
    (folding.notePrior entity).cache = folding.cache := by
  unfold Folding.notePrior
  split <;> rfl

/-- A blocked entry fails and leaves the cache alone. -/
theorem foldEntry_blocked {store : JournalRead} (folding : Folding) {entry : Entry}
    (stuck : blocked store entry = true) :
    ∃ failure, foldEntry store folding entry = .error failure ∧
      failure.left.cache = folding.cache := by
  simp only [blocked, Bool.and_eq_true, Option.isSome_iff_exists] at stuck
  obtain ⟨⟨family, found⟩, unread⟩ := stuck
  refine ⟨⟨.store "raw event is unreadable", folding.notePrior entry.entity⟩, ?_, by simp⟩
  simp [foldEntry, found, JournalRead.readRaw, unread]

/-- An entry that is not blocked folds into the cards and nothing else. -/
theorem foldEntry_clear {store : JournalRead} (folding : Folding) {entry : Entry}
    (clear : blocked store entry = false) :
    ∃ next, foldEntry store folding entry = .ok next ∧
      next.cache.bare = foldCard folding.cache.bare entry ∧
      next.cache.position = folding.cache.position := by
  cases found : CardFamily.of entry.entity with
  | none =>
    refine ⟨folding, by simp [foldEntry, found], ?_, rfl⟩
    simp [foldCard, found]
  | some family =>
    have readable : store.unreadable entry.eventId = false := by simpa [blocked, found] using clear
    refine ⟨{ folding.notePrior entry.entity with
      cache := foldEvent folding.cache entry.entity family entry.payload }, ?_, ?_, ?_⟩
    · simp [foldEntry, found, JournalRead.readRaw, readable]
    · exact bare_foldEvent found
    · simp

/-- The entries of a page that are folded before the first blocked one. -/
def foldedPart (store : JournalRead) (page : List Entry) : List Entry :=
  page.takeWhile fun entry => !blocked store entry

/-- A fold of entries stops at the first blocked one, with everything before it in
the cards and the position as it was. -/
theorem foldlM_foldEntry (store : JournalRead) (rows : List Entry) (folding : Folding) :
    (settled (rows.foldlM (foldEntry store) folding)).cache.bare =
        (foldedPart store rows).foldl foldCard folding.cache.bare ∧
      (settled (rows.foldlM (foldEntry store) folding)).cache.position = folding.cache.position ∧
      ((∃ failure, rows.foldlM (foldEntry store) folding = .error failure) ↔
        ∃ entry ∈ rows, blocked store entry = true) := by
  induction rows generalizing folding with
  | nil => simp [foldedPart, pure, Except.pure]
  | cons entry rows ih =>
    cases stuck : blocked store entry with
    | true =>
      obtain ⟨failure, failed, left⟩ := foldEntry_blocked folding stuck
      simp [foldedPart, stuck, List.foldlM_cons, failed, left, bind, Except.bind]
    | false =>
      obtain ⟨next, folded, bare, position⟩ := foldEntry_clear folding stuck
      obtain ⟨laterBare, laterPosition, laterError⟩ := ih next
      have unfolded : (entry :: rows).foldlM (foldEntry store) folding =
          rows.foldlM (foldEntry store) next := by
        simp [List.foldlM_cons, folded, bind, Except.bind]
      rw [unfolded]
      refine ⟨?_, laterPosition.trans position, ?_⟩
      · simp only [foldedPart, List.takeWhile_cons, stuck, Bool.not_false, if_true,
          List.foldl_cons]
        rw [← bare]
        exact laterBare
      · simp only [laterError, List.mem_cons, exists_eq_or_imp, stuck, Bool.false_eq_true,
          false_or]

/-- With nothing blocked, everything is folded. -/
theorem foldedPart_of_clear {store : JournalRead} {page : List Entry}
    (clear : ¬ ∃ entry ∈ page, blocked store entry = true) : foldedPart store page = page := by
  unfold foldedPart
  rw [List.takeWhile_eq_self_iff]
  intro entry member
  cases stuck : blocked store entry with
  | true => exact absurd ⟨entry, member, stuck⟩ clear
  | false => rfl

/-- A cache whose cards, frontier and anchor are those of one replayed part. -/
structure StandsAt (front : List Entry) (cache : WorkspaceCache) : Prop where
  cards : cache.bare = cardsOf front
  frontier : cache.frontier = frontierOf front
  anchor : cache.anchorEventId = anchorOf front

/-- A failed page stops cleanly when nothing before its first blocked entry changes
a card; only the page that fails matters. -/
def StopsCleanly (store : JournalRead) (pages : List (List Entry)) : Prop :=
  ∀ page ∈ pages.find? (fun page => page.any (blocked store)),
    ∀ entry ∈ foldedPart store page, folds entry = false

instance (store : JournalRead) (pages : List (List Entry)) : Decidable (StopsCleanly store pages) :=
  inferInstanceAs (Decidable (∀ page ∈ pages.find? (fun page => page.any (blocked store)),
    ∀ entry ∈ foldedPart store page, folds entry = false))

/-- One page either fails, with its position kept, or moves the whole cache past it. -/
theorem foldPage_cases (store : JournalRead) {front page : List Entry} {folding : Folding}
    (stands : StandsAt front folding.cache) (nonempty : page ≠ []) :
    (page.any (blocked store) = true ∧ ∃ failure, foldPage store folding page = .error failure ∧
      failure.left.cache.bare = (foldedPart store page).foldl foldCard (cardsOf front) ∧
      failure.left.cache.position = folding.cache.position) ∨
    (page.any (blocked store) = false ∧ ∃ next, foldPage store folding page = .ok next ∧
      StandsAt (front ++ page) next.cache ∧ next.cache.view = folding.cache.view ∧
      next.cache.freshness = folding.cache.freshness) := by
  obtain ⟨bare, position, error⟩ := foldlM_foldEntry store page (folding.countPage page)
  have start : (folding.countPage page).cache.bare = cardsOf front := stands.cards
  have same : (folding.countPage page).cache.position = folding.cache.position := rfl
  rw [start] at bare
  rw [same] at position
  cases run : page.foldlM (foldEntry store) (folding.countPage page) with
  | error failure =>
    rw [run, settled_error] at bare position
    have stuck := error.mp ⟨failure, run⟩
    exact Or.inl ⟨List.any_eq_true.mpr stuck, failure, by simp [foldPage, run], bare, position⟩
  | ok folded =>
    rw [run, settled_ok] at bare position
    have clear : ¬ ∃ entry ∈ page, blocked store entry = true := by
      intro stuck
      obtain ⟨failure, failed⟩ := error.mpr stuck
      rw [run] at failed
      cases failed
    rw [foldedPart_of_clear clear] at bare
    have idle : page.any (blocked store) = false := by
      rw [Bool.eq_false_iff]
      exact fun stuck => clear (List.any_eq_true.mp stuck)
    obtain ⟨last, final⟩ : ∃ last, page.getLast? = some last :=
      ⟨page.getLast nonempty, List.getLast?_eq_some_getLast nonempty⟩
    have whole : (front ++ page).getLast? = some last := by
      simp [List.getLast?_append, final]
    have kept : folded.cache.view = folding.cache.view ∧
        folded.cache.freshness = folding.cache.freshness := by
      simp only [WorkspaceCache.position, Prod.mk.injEq] at position
      exact ⟨position.2.2.1, position.2.2.2⟩
    refine Or.inr ⟨idle, folded.commitPage page, by simp [foldPage, run], ?_, ?_, ?_⟩
    · constructor
      · have cards : (folded.commitPage page).cache.bare = folded.cache.bare := by
          simp [Folding.commitPage, final, WorkspaceCache.bare]
        rw [cards, bare, cardsOf, cardsOf, List.foldl_append]
      · simp [Folding.commitPage, final, frontierOf, whole]
      · simp [Folding.commitPage, final, anchorOf, whole]
    · simpa [Folding.commitPage, final] using kept.1
    · simpa [Folding.commitPage, final] using kept.2

/-- The page loop either folds every page or stops in the first page that holds a
blocked entry, with the pages before it committed. -/
theorem foldlM_foldPage (store : JournalRead) (pages : List (List Entry))
    (nonempty : ∀ page ∈ pages, page ≠ []) {front : List Entry} {folding : Folding}
    (stands : StandsAt front folding.cache) :
    (∃ next, pages.foldlM (foldPage store) folding = .ok next ∧
      StandsAt (front ++ pages.flatten) next.cache ∧ next.cache.view = folding.cache.view) ∨
    (∃ failure before failed after, pages.foldlM (foldPage store) folding = .error failure ∧
      pages = before ++ failed :: after ∧
      pages.find? (fun page => page.any (blocked store)) = some failed ∧
      failure.left.cache.bare =
        (foldedPart store failed).foldl foldCard (cardsOf (front ++ before.flatten)) ∧
      failure.left.cache.frontier = frontierOf (front ++ before.flatten) ∧
      failure.left.cache.anchorEventId = anchorOf (front ++ before.flatten) ∧
      failure.left.cache.view = folding.cache.view) := by
  induction pages generalizing front folding with
  | nil => exact Or.inl ⟨folding, rfl, by simpa using stands, rfl⟩
  | cons page pages ih =>
    rcases foldPage_cases store stands (nonempty page (by simp)) with
      ⟨stuck, failure, failed, bare, position⟩ | ⟨clear, next, folded, moved, view, _⟩
    · simp only [WorkspaceCache.position, Prod.mk.injEq] at position
      obtain ⟨frontier, anchor, view, _⟩ := position
      refine Or.inr ⟨failure, [], page, pages, ?_, rfl, ?_, ?_, ?_, ?_, view⟩
      · simp [List.foldlM_cons, failed, bind, Except.bind]
      · simp [stuck]
      · simpa using bare
      · simpa using frontier.trans stands.frontier
      · simpa using anchor.trans stands.anchor
    · have unfolded : (page :: pages).foldlM (foldPage store) folding =
          pages.foldlM (foldPage store) next := by
        simp [List.foldlM_cons, folded, bind, Except.bind]
      rw [unfolded]
      rcases ih (fun later member => nonempty later (by simp [member])) moved with
        ⟨last, run, whole, kept⟩ | ⟨failure, before, stop, after, run, split, found, rest⟩
      · refine Or.inl ⟨last, run, ?_, kept.trans view⟩
        simpa [List.append_assoc] using whole
      · obtain ⟨bare, frontier, anchor, kept⟩ := rest
        refine Or.inr ⟨failure, page :: before, stop, after, run, by simp [split], ?_, ?_, ?_, ?_,
          kept.trans view⟩
        · simp [clear, found]
        · simpa [List.append_assoc] using bare
        · simpa [List.append_assoc] using frontier
        · simpa [List.append_assoc] using anchor

/-- The warm view of a cache standing at a leading part is behind it or is its view. -/
def WarmAt (workspaceId : String) (front : List Entry) (cache : WorkspaceCache) : Prop :=
  ∀ view, cache.view = some view → view.frontier ≤ cache.frontier ∧
    (view.frontier = cache.frontier → view = replayView workspaceId front)

/-- A cache is sound for a region when it stands at a leading part of the region and
a warm view at its frontier is the view of that part. -/
def Sound (workspaceId : String) (rows : List Entry) (cache : WorkspaceCache) : Prop :=
  ∃ front back, rows = front ++ back ∧ StandsAt front cache ∧ WarmAt workspaceId front cache

/-- In an ordered region a longer leading part has a greater frontier. -/
theorem frontierOf_lt {front more : List Entry} (ordered : Ordered Entry.sequence (front ++ more))
    (positive : ∀ entry ∈ front ++ more, 0 < entry.sequence) (nonempty : more ≠ []) :
    frontierOf front < frontierOf (front ++ more) := by
  obtain ⟨last, final⟩ : ∃ last, more.getLast? = some last :=
    ⟨more.getLast nonempty, List.getLast?_eq_some_getLast nonempty⟩
  have member : last ∈ more := List.mem_of_getLast? final
  have whole : frontierOf (front ++ more) = last.sequence := by
    simp [frontierOf, List.getLast?_append, final]
  rw [whole]
  cases early : front.getLast? with
  | none => simpa [frontierOf, early] using positive last (by simp [member])
  | some boundary =>
    obtain ⟨_, _, before⟩ := Ordered.of_append ordered
    simpa [frontierOf, early] using before boundary (List.mem_of_getLast? early) last member

/-- Reading a region after the frontier of a leading part gives the rest. -/
theorem rowsAfter_frontierOf {front back : List Entry}
    (ordered : Ordered Entry.sequence (front ++ back))
    (positive : ∀ entry ∈ front ++ back, 0 < entry.sequence) :
    rowsAfter Entry.sequence (some (frontierOf front)) (front ++ back) = back := by
  cases final : front.getLast? with
  | none =>
    have empty := List.getLast?_eq_none_iff.mp final
    subst empty
    simp only [frontierOf, List.getLast?_nil, Option.map_none, Option.getD_none, List.nil_append]
    simp only [rowsAfter, List.filter_eq_self, Option.all_some, decide_eq_true_eq]
    exact positive
  | some last => simpa [frontierOf, final] using rowsAfter_last ordered final

/-- Moving on from a leading part keeps the warm view condition: the view either
falls behind the frontier or nothing moved. -/
theorem view_moves {workspaceId : String} {front more : List Entry} {frontier : Nat}
    {kept : Option WorkspaceView} (ordered : Ordered Entry.sequence (front ++ more))
    (positive : ∀ entry ∈ front ++ more, 0 < entry.sequence)
    (stood : frontier = frontierOf front)
    (warm : ∀ view, kept = some view → view.frontier ≤ frontier ∧
      (view.frontier = frontier → view = replayView workspaceId front)) :
    ∀ view, kept = some view → view.frontier ≤ frontierOf (front ++ more) ∧
      (view.frontier = frontierOf (front ++ more) →
        view = replayView workspaceId (front ++ more)) := by
  intro view present
  obtain ⟨behind, exact⟩ := warm view present
  rw [stood] at behind exact
  by_cases nothing : more = []
  · subst nothing
    simpa using ⟨behind, exact⟩
  · have moved := frontierOf_lt ordered positive nothing
    exact ⟨by omega, fun same => absurd same (by omega)⟩

/-- Restamping the generation of a present card changes no card. -/
theorem bare_restamp {cards : CardMap} {entity : String} {slot : Nat × CachedCard}
    (generation : Nat) (found : cards[entity]? = some slot) :
    (cards.insert entity (generation, slot.2)).map (fun _ slot => slot.2) =
      cards.map fun _ slot => slot.2 := by
  rw [map_insert]
  apply Std.ExtTreeMap.ext_getElem?
  intro key
  rw [Std.ExtTreeMap.getElem?_insert]
  split
  · rename_i same
    have key_eq : entity = key := compare_eq_iff_eq.mp same
    subst key_eq
    simp [Std.ExtTreeMap.getElem?_map, found]
  · rfl

/-- Stamping generations changes neither cards nor position. -/
theorem stampGenerations_same (store : JournalRead) (priors : List (String × Nat))
    (cache : WorkspaceCache) :
    (stampGenerations store priors cache).2.bare = cache.bare ∧
      (stampGenerations store priors cache).2.position = cache.position := by
  induction priors generalizing cache with
  | nil => exact ⟨rfl, rfl⟩
  | cons prior priors ih =>
    rw [stampGenerations]
    split
    · exact ⟨rfl, rfl⟩
    · refine ⟨(ih _).1.trans ?_, (ih _).2⟩
      cases found : cache.cards[prior.1]? with
      | none => rfl
      | some slot => exact bare_restamp _ found

/-- One paging fold from a leading part: it ends at the whole region, or stops in a
page and is sound whenever it stopped cleanly. -/
theorem foldAfter_cases {store : JournalRead} {workspaceId scope : String}
    {after : Option Nat} {front back : List Entry} {cache : WorkspaceCache}
    (region : store.journal.region scope = front ++ back)
    (resume : rowsAfter Entry.sequence after (front ++ back) = back)
    (stands : StandsAt front cache) (warm : WarmAt workspaceId front cache) :
    (∃ outcome next, foldAfter store scope after cache = .ok (outcome, next) ∧
      StandsAt (front ++ back) next ∧ WarmAt workspaceId (front ++ back) next) ∨
    (∃ failure, foldAfter store scope after cache = .error failure ∧
      (∃ entry, blocked store entry = true) ∧
      (StopsCleanly store (store.pages scope after) →
        Sound workspaceId (front ++ back) failure.left)) := by
  have pages := store.flatten_pages scope after
  rw [region, resume] at pages
  have ordered := store.journal.region_ordered scope
  rw [region] at ordered
  have positive : ∀ entry ∈ front ++ back, 0 < entry.sequence := by
    intro entry member
    rw [← region] at member
    exact store.journal.positive entry (Journal.mem_region.mp member).1
  have starts : StandsAt front (Folding.cache { cache := cache }) := stands
  rcases foldlM_foldPage store (store.pages scope after)
      (fun page member => ne_nil_of_mem_pagesAfter member) starts with
    ⟨next, run, moved, view⟩ | ⟨failure, before, failed, later, run, split, found, bare, rest⟩
  · rw [pages] at moved
    have kept : WarmAt workspaceId (front ++ back) next.cache := by
      intro view' present
      rw [view] at present
      rw [moved.frontier]
      exact view_moves ordered positive stands.frontier warm view' present
    by_cases noPrior : next.priorGenerations.isEmpty = true
    · refine Or.inl ⟨.noDelta, next.cache, ?_, moved, kept⟩
      simp [foldAfter, run, noPrior]
    · obtain ⟨bare, position⟩ :=
        stampGenerations_same store next.priorGenerations.toList next.cache
      simp only [WorkspaceCache.position, Prod.mk.injEq] at position
      obtain ⟨frontier, anchor, view, _⟩ := position
      refine Or.inl ⟨(stampGenerations store next.priorGenerations.toList next.cache).1,
        (stampGenerations store next.priorGenerations.toList next.cache).2, ?_, ?_, ?_⟩
      · simp [foldAfter, run, noPrior]
      · exact ⟨bare.trans moved.cards, frontier.trans moved.frontier, anchor.trans moved.anchor⟩
      · intro view' present
        rw [view] at present
        rw [frontier]
        exact kept view' present
  · obtain ⟨frontier, anchor, view⟩ := rest
    have holds := List.find?_some found
    obtain ⟨entry, _, stuck⟩ := List.any_eq_true.mp holds
    refine Or.inr ⟨⟨failure.error, failure.left.cache⟩, by simp [foldAfter, run],
      ⟨entry, stuck⟩, ?_⟩
    intro clean
    have idle := foldl_foldCard_of_not_folds (cardsOf (front ++ before.flatten))
      (clean failed found)
    have whole : back = before.flatten ++ (failed :: later).flatten := by
      rw [← pages, split, List.flatten_append]
    have partOrdered : Ordered Entry.sequence (front ++ before.flatten) := by
      rw [whole, ← List.append_assoc] at ordered
      exact (Ordered.of_append ordered).1
    refine ⟨front ++ before.flatten, (failed :: later).flatten, ?_, ?_, ?_⟩
    · rw [whole, List.append_assoc]
    · exact ⟨bare.trans idle, frontier, anchor⟩
    · intro view' present
      rw [view] at present
      rw [frontier]
      refine view_moves partOrdered ?_ stands.frontier warm view' present
      intro entry member
      apply positive
      rw [whole, ← List.append_assoc]
      exact List.mem_append_left _ member

/-- A cleared cache stands at the empty part. -/
theorem standsAt_cleared (cache : WorkspaceCache) : StandsAt [] cache.cleared := by
  constructor
  · apply Std.ExtTreeMap.ext_getElem?
    intro key
    simp [WorkspaceCache.cleared, WorkspaceCache.bare, cardsOf]
  · rfl
  · rfl

/-- A rebuild ends at the whole region, or is sound whenever it stopped cleanly. -/
theorem rebuildCache_cases (store : JournalRead) (workspaceId scope : String)
    (cache : WorkspaceCache) :
    (∃ next, rebuildCache store scope cache = .ok next ∧
      StandsAt (store.journal.region scope) next ∧
      WarmAt workspaceId (store.journal.region scope) next) ∨
    (∃ failure, rebuildCache store scope cache = .error failure ∧
      (∃ entry, blocked store entry = true) ∧
      (StopsCleanly store (store.pages scope none) →
        Sound workspaceId (store.journal.region scope) failure.left)) := by
  have warm : WarmAt workspaceId [] cache.cleared := by
    intro view present
    cases present
  have region : store.journal.region scope = [] ++ store.journal.region scope := rfl
  have resume : rowsAfter Entry.sequence none ([] ++ store.journal.region scope) =
      store.journal.region scope := by simp
  rcases foldAfter_cases region resume (standsAt_cleared cache) warm with
    ⟨outcome, next, run, stands, kept⟩ | ⟨failure, run, stuck, sound⟩
  · refine Or.inl ⟨{ next with dirty := true, freshness := .stale }, ?_, ?_, kept⟩
    · simp [rebuildCache, run]
    · exact ⟨stands.cards, stands.frontier, stands.anchor⟩
  · exact Or.inr ⟨failure, by simp [rebuildCache, run], stuck, sound⟩

/-- The generation stamped on an entity, zero before the first stamp. -/
def generationOf (cards : CardMap) (entity : String) : Nat :=
  (cards[entity]?.map Prod.fst).getD 0

/-- Folding an event changes no generation. -/
theorem generationOf_foldEvent (cache : WorkspaceCache) (entity other : String)
    (family : CardFamily) (payload : Payload) :
    generationOf (foldEvent cache entity family payload).cards other =
      generationOf cache.cards other := by
  unfold foldEvent
  split
  · simp only [generationOf, Std.ExtTreeMap.getElem?_insert]
    split
    · rename_i same
      have key_eq : entity = other := compare_eq_iff_eq.mp same
      subst key_eq
      cases cache.cards[entity]? <;> rfl
    · rfl
  · rfl

/-- What a paging fold has noted: card entities of the rows it pages, each with the
generation it had before the fold. -/
structure Noted (rows : List Entry) (start : WorkspaceCache) (folding : Folding) : Prop where
  generations : ∀ entity, generationOf folding.cache.cards entity = generationOf start.cards entity
  priors : ∀ entity prior, folding.priorGenerations[entity]? = some prior →
    (∃ row ∈ rows, row.entity = entity ∧ (CardFamily.of entity).isSome = true) ∧
      prior = generationOf start.cards entity

/-- Folding one paged entry keeps the notes right. -/
theorem noted_foldEntry {store : JournalRead} {rows : List Entry} {start : WorkspaceCache}
    {folding next : Folding} {entry : Entry} (member : entry ∈ rows)
    (folded : foldEntry store folding entry = .ok next) (noted : Noted rows start folding) :
    Noted rows start next := by
  unfold foldEntry at folded
  cases found : CardFamily.of entry.entity with
  | none =>
    simp only [found, Except.ok.injEq] at folded
    exact folded ▸ noted
  | some family =>
    cases read : store.readRaw entry with
    | error error => simp [found, read] at folded
    | ok payload =>
      simp only [found, read, Except.ok.injEq] at folded
      subst folded
      constructor
      · intro entity
        rw [generationOf_foldEvent]
        exact noted.generations entity
      · intro entity prior present
        simp only [Folding.notePrior] at present
        split at present
        · exact noted.priors entity prior present
        · rw [Std.ExtTreeMap.getElem?_insert] at present
          split at present
          · rename_i same
            have key_eq : entry.entity = entity := compare_eq_iff_eq.mp same
            subst key_eq
            refine ⟨⟨entry, member, rfl, by simp [found]⟩, ?_⟩
            rw [← noted.generations]
            simpa [generationOf] using present.symm
          · exact noted.priors entity prior present

/-- Folding one page keeps the notes right. -/
theorem noted_foldPage {store : JournalRead} {rows : List Entry} {start : WorkspaceCache}
    {folding next : Folding} {page : List Entry} (members : ∀ entry ∈ page, entry ∈ rows)
    (folded : foldPage store folding page = .ok next) (noted : Noted rows start folding) :
    Noted rows start next := by
  unfold foldPage at folded
  cases run : page.foldlM (foldEntry store) (folding.countPage page) with
  | error failure => simp [run] at folded
  | ok last =>
    simp only [run, Except.ok.injEq] at folded
    subst folded
    have counted : Noted rows start (folding.countPage page) := ⟨noted.generations, noted.priors⟩
    have whole : Noted rows start last := foldlM_preserves _
      (fun state entry member next step kept => noted_foldEntry (members entry member) step kept)
      run counted
    unfold Folding.commitPage
    cases page.getLast? with
    | none => exact whole
    | some _ => exact ⟨whole.generations, whole.priors⟩

/-- A regressed stamp names an entity whose store generation is below its prior. -/
theorem stampGenerations_regressed {store : JournalRead} {priors : List (String × Nat)}
    {cache : WorkspaceCache}
    (regressed : (stampGenerations store priors cache).1 = .generationRegressed) :
    ∃ prior ∈ priors, (store.entityGeneration prior.1).getD 0 < prior.2 := by
  induction priors generalizing cache with
  | nil => simp [stampGenerations] at regressed
  | cons prior priors ih =>
    rw [stampGenerations] at regressed
    split at regressed
    · rename_i below
      exact ⟨prior, by simp, below⟩
    · obtain ⟨later, member, below⟩ := ih regressed
      exact ⟨later, by simp [member], below⟩

/-- Some card entity after the frontier has a store generation below its cached one. -/
def generationRegresses (store : JournalRead) (scope : String) (cache : WorkspaceCache) : Prop :=
  ∃ entry ∈ rowsAfter Entry.sequence (some cache.frontier) (store.journal.region scope),
    (CardFamily.of entry.entity).isSome = true ∧
    (store.entityGeneration entry.entity).getD 0 < generationOf cache.cards entry.entity

instance (store : JournalRead) (scope : String) (cache : WorkspaceCache) :
    Decidable (generationRegresses store scope cache) :=
  inferInstanceAs (Decidable (∃ entry ∈ rowsAfter Entry.sequence (some cache.frontier)
      (store.journal.region scope), (CardFamily.of entry.entity).isSome = true ∧
    (store.entityGeneration entry.entity).getD 0 < generationOf cache.cards entry.entity))

/-- A paging fold reports a regression only where one of its entities regressed. -/
theorem foldAfter_regressed {store : JournalRead} {scope : String} {cache next : WorkspaceCache}
    (run : foldAfter store scope (some cache.frontier) cache = .ok (.generationRegressed, next)) :
    generationRegresses store scope cache := by
  unfold foldAfter at run
  cases paged : (store.pages scope (some cache.frontier)).foldlM (foldPage store)
      { cache := cache } with
  | error failure => simp [paged] at run
  | ok folding =>
    simp only [paged] at run
    have noted : Noted (rowsAfter Entry.sequence (some cache.frontier) (store.journal.region scope))
        cache folding := by
      refine foldlM_preserves _ ?_ paged ⟨fun _ => rfl, by simp⟩
      intro state page member next step kept
      refine noted_foldPage ?_ step kept
      intro entry present
      rw [← store.flatten_pages]
      exact List.mem_flatten.mpr ⟨page, member, present⟩
    split at run
    · simp at run
    · simp only [Except.ok.injEq] at run
      obtain ⟨⟨entity, prior⟩, member, below⟩ :=
        stampGenerations_regressed (congrArg Prod.fst run)
      have present : folding.priorGenerations[entity]? = some prior :=
        Std.ExtTreeMap.mem_toList_iff_getElem?_eq_some.mp member
      obtain ⟨⟨row, paged, same, card⟩, prior_eq⟩ := noted.priors entity prior present
      subst same
      exact ⟨row, paged, card, prior_eq ▸ below⟩

/-- The condition under which a call leaves its cache sound even if it fails: in the
page it fails on, nothing before the unreadable entry changes a card. A call that
rebuilds pages from the start, any other from the frontier, and a regressed
generation adds a rebuild. -/
def FailsCleanly (store : JournalRead) (scope : String) (cache : WorkspaceCache) : Prop :=
  if (cache.checked store scope).freshness = .invalid then
    StopsCleanly store (store.pages scope none)
  else
    StopsCleanly store (store.pages scope (some cache.frontier)) ∧
      (generationRegresses store scope cache → StopsCleanly store (store.pages scope none))

instance (store : JournalRead) (scope : String) (cache : WorkspaceCache) :
    Decidable (FailsCleanly store scope cache) :=
  inferInstanceAs (Decidable (if (cache.checked store scope).freshness = .invalid then
    StopsCleanly store (store.pages scope none)
  else
    StopsCleanly store (store.pages scope (some cache.frontier)) ∧
      (generationRegresses store scope cache → StopsCleanly store (store.pages scope none))))

/-- The freshness check only touches freshness and counters. -/
theorem checked_same (store : JournalRead) (scope : String) (cache : WorkspaceCache) :
    (cache.checked store scope).cards = cache.cards ∧
      (cache.checked store scope).frontier = cache.frontier ∧
      (cache.checked store scope).anchorEventId = cache.anchorEventId ∧
      (cache.checked store scope).view = cache.view := by
  unfold WorkspaceCache.checked
  split <;> exact ⟨rfl, rfl, rfl, rfl⟩

/-- The replay half of a call takes a sound cache to the whole region, or fails with
a cache that is sound whenever the call failed cleanly. -/
theorem refreshCache_cases {store : JournalRead} {workspaceId scope : String}
    {cache : WorkspaceCache} (sound : Sound workspaceId (store.journal.region scope) cache) :
    (∃ next, refreshCache store scope (cache.checked store scope) = .ok next ∧
      StandsAt (store.journal.region scope) next ∧
      WarmAt workspaceId (store.journal.region scope) next) ∨
    (∃ failure, refreshCache store scope (cache.checked store scope) = .error failure ∧
      (∃ entry, blocked store entry = true) ∧
      (FailsCleanly store scope cache →
        Sound workspaceId (store.journal.region scope) failure.left)) := by
  obtain ⟨cards, frontier, anchor, view⟩ := checked_same store scope cache
  by_cases invalid : (cache.checked store scope).freshness = .invalid
  · rcases rebuildCache_cases store workspaceId scope
        (cache.checked store scope) with ⟨next, run, done⟩ | ⟨failure, run, stuck, sound⟩
    · exact Or.inl ⟨next, by simp [refreshCache, invalid, run], done⟩
    · refine Or.inr ⟨failure, by simp [refreshCache, invalid, run], stuck, ?_⟩
      intro clean
      rw [FailsCleanly, if_pos invalid] at clean
      exact sound clean
  · obtain ⟨front, back, region, stands, warm⟩ := sound
    have ordered := store.journal.region_ordered scope
    rw [region] at ordered
    have positive : ∀ entry ∈ front ++ back, 0 < entry.sequence := by
      intro entry member
      rw [← region] at member
      exact store.journal.positive entry (Journal.mem_region.mp member).1
    have resume : rowsAfter Entry.sequence (some (cache.checked store scope).frontier)
        (front ++ back) = back := by
      rw [frontier, stands.frontier]
      exact rowsAfter_frontierOf ordered positive
    have checkedStands : StandsAt front (cache.checked store scope) := by
      refine ⟨?_, frontier.trans stands.frontier, anchor.trans stands.anchor⟩
      rw [WorkspaceCache.bare, cards]
      exact stands.cards
    have checkedWarm : WarmAt workspaceId front (cache.checked store scope) := by
      intro view' present
      rw [frontier]
      exact warm view' (view ▸ present)
    have unfolded : refreshCache store scope (cache.checked store scope) =
        advanceCache store scope (cache.checked store scope) := by
      simp [refreshCache, invalid]
    rw [unfolded, region]
    rcases foldAfter_cases region resume checkedStands checkedWarm with
      ⟨outcome, next, run, moved, kept⟩ | ⟨failure, run, stuck, sound⟩
    · cases outcome with
      | noDelta =>
        refine Or.inl ⟨{ next with freshness := .fresh }, by simp [advanceCache, run], ?_, kept⟩
        exact ⟨moved.cards, moved.frontier, moved.anchor⟩
      | folded =>
        refine Or.inl ⟨{ next with dirty := true, freshness := .stale, view := none },
          by simp [advanceCache, run], ?_, ?_⟩
        · exact ⟨moved.cards, moved.frontier, moved.anchor⟩
        · intro view' present
          cases present
      | generationRegressed =>
        have regressed := foldAfter_regressed run
        rw [← region]
        rcases rebuildCache_cases store workspaceId scope
            { next with freshness := .invalid } with
          ⟨rebuilt, again, done⟩ | ⟨failure, again, stuck, sound⟩
        · exact Or.inl ⟨rebuilt, by simp [advanceCache, run, again], done⟩
        · refine Or.inr ⟨failure, by simp [advanceCache, run, again], stuck, ?_⟩
          intro clean
          rw [FailsCleanly, if_neg invalid] at clean
          apply sound
          apply clean.2
          obtain ⟨entry, member, card, below⟩ := regressed
          refine ⟨entry, ?_, card, ?_⟩
          · rwa [frontier] at member
          · rwa [cards] at below
    · refine Or.inr ⟨failure, by simp [advanceCache, run], stuck, ?_⟩
      intro clean
      rw [FailsCleanly, if_neg invalid] at clean
      apply sound
      rw [frontier]
      exact clean.1

/-- The answer half of a call on a cache at the whole region is the replayed view. -/
theorem serveView_replay {workspaceId : String} {rows : List Entry} {cache : WorkspaceCache}
    (stands : StandsAt rows cache) (warm : WarmAt workspaceId rows cache) :
    (serveView workspaceId cache).1 = replayView workspaceId rows ∧
      StandsAt rows (serveView workspaceId cache).2 ∧
      WarmAt workspaceId rows (serveView workspaceId cache).2 := by
  have derived : deriveView workspaceId cache.frontier (cache.cards.toList.map fun slot => slot.2.2) =
      replayView workspaceId rows := by
    rw [replayView, ← stands.frontier, ← stands.cards]
    congr 1
    simp [WorkspaceCache.bare, Std.ExtTreeMap.toList_map, List.map_map, Function.comp_def]
  have built : (buildView workspaceId cache).1 = replayView workspaceId rows ∧
      StandsAt rows (buildView workspaceId cache).2 ∧
      WarmAt workspaceId rows (buildView workspaceId cache).2 := by
    refine ⟨derived, ⟨stands.cards, stands.frontier, stands.anchor⟩, ?_⟩
    intro view present
    simp only [buildView, Option.some.injEq] at present
    subst present
    exact ⟨Nat.le_refl _, fun _ => derived⟩
  unfold serveView
  cases kept : cache.view with
  | none => exact built
  | some view =>
    by_cases hit : cache.freshness = .fresh ∧ view.frontier = cache.frontier
    · simp only [hit, and_self, if_true]
      have exact_ := (warm view kept).2 hit.2
      refine ⟨exact_, ⟨stands.cards, stands.frontier, stands.anchor⟩, ?_⟩
      intro view' present
      exact warm view' (kept.trans present)
    · simp only [hit, if_false]
      exact built

end Texo.Claims
