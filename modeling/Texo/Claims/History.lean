import Texo.Claims.CacheRuns

/-! # Historical workspace views

A historical view replays the region from its start and stops before the first row past the
requested frontier. Frontier and anchor move row by row, so a request that names no row of the
workspace is refused instead of answered with an earlier view.
-/
namespace Texo.Claims
open Texo.Events Texo.Store Texo.Foundation

/-- One row of a bounded replay: fold it, then move frontier and anchor to it. -/
def throughEntry (store : JournalRead) (cache : WorkspaceCache) (entry : Entry) :
    Except TexoError WorkspaceCache :=
  match CardFamily.of entry.entity with
  | none => .ok { cache with frontier := entry.sequence, anchorEventId := some entry.eventId }
  | some family =>
    (store.readRaw entry).map fun payload =>
      { foldEvent cache entry.entity family payload with
        frontier := entry.sequence
        anchorEventId := some entry.eventId }

/-- `fold_through`. -/
def foldThrough (store : JournalRead) (scope : String) (frontier : Nat) (cache : WorkspaceCache) :
    Except TexoError WorkspaceCache :=
  if frontier = 0 then
    .ok { cache with freshness := .stale }
  else
    ((store.rowsThrough scope frontier).foldlM (throughEntry store) cache).map fun folded =>
      { folded with freshness := .stale }

/-- `workspace::assemble_through`: only an exact workspace frontier has a view. -/
def assembleThrough (store : JournalRead) (workspaceId : String) (frontier : Nat) :
    Except TexoError WorkspaceView := do
  let cache ← foldThrough store (scopeForWorkspace workspaceId) frontier { freshness := .rebuilding }
  if cache.frontier ≠ frontier then
    .error (.decode ("workspace-snapshot:" ++ workspaceId)
      ("requested frontier " ++ toString frontier ++ " is not an exact workspace frontier"))
  else
    .ok (buildView workspaceId cache).1

/-- Folding one readable row moves a cache that stands at some rows to those and the row. -/
theorem standsAt_throughEntry (journal : Journal) (g : String → Option Nat)
    {front : List Entry} {cache : WorkspaceCache} (entry : Entry) (stands : StandsAt front cache)
    (cold : cache.view = none) :
    ∃ next, throughEntry (JournalRead.intact journal g) cache entry = .ok next ∧
      StandsAt (front ++ [entry]) next ∧ next.view = none := by
  have cards : cardsOf (front ++ [entry]) = foldCard (cardsOf front) entry := by
    simp [cardsOf, List.foldl_append]
  unfold throughEntry
  cases found : CardFamily.of entry.entity with
  | none =>
    have idle : foldCard (cardsOf front) entry = cardsOf front := by simp [foldCard, found]
    refine ⟨_, rfl, ⟨?_, ?_, ?_⟩, cold⟩
    · rw [cards, idle]
      exact stands.cards
    · simp [frontierOf]
    · simp [anchorOf]
  | some family =>
    refine ⟨_, rfl, ⟨?_, ?_, ?_⟩, ?_⟩
    · rw [cards, ← stands.cards]
      exact bare_foldEvent found
    · simp [frontierOf]
    · simp [anchorOf]
    · show (foldEvent cache entry.entity family entry.payload).view = none
      unfold foldEvent
      split <;> exact cold

/-- Folding readable rows moves a cache to them. -/
theorem standsAt_throughRows (journal : Journal) (g : String → Option Nat)
    (rows : List Entry) {front : List Entry} {cache : WorkspaceCache} (stands : StandsAt front cache)
    (cold : cache.view = none) :
    ∃ next, rows.foldlM (throughEntry (JournalRead.intact journal g)) cache = .ok next ∧
      StandsAt (front ++ rows) next ∧ next.view = none := by
  induction rows generalizing front cache with
  | nil => exact ⟨cache, rfl, by simpa using stands, cold⟩
  | cons row rest ih =>
    obtain ⟨next, folded, moved, still⟩ :=
      standsAt_throughEntry journal g row stands cold
    obtain ⟨final, run, arrived, quiet⟩ := ih moved still
    refine ⟨final, ?_, ?_, quiet⟩
    · rw [List.foldlM_cons, folded]
      exact run
    · rwa [List.append_assoc, List.singleton_append] at arrived

/-- Only the empty leading part of a region has frontier zero. -/
theorem frontierOf_eq_zero {journal : Journal} {scope : String} {front back : List Entry}
    (split : journal.region scope = front ++ back) (zero : frontierOf front = 0) : front = [] := by
  cases final : front.getLast? with
  | none => exact List.getLast?_eq_none_iff.mp final
  | some last =>
    have member : last ∈ journal.region scope := by
      rw [split]
      exact List.mem_append_left _ (List.mem_of_getLast? final)
    have positive := journal.positive last (Journal.mem_region.mp member).1
    have frontier : frontierOf front = last.sequence := by simp [frontierOf, final]
    omega

/-- The row asked for right before the frontier of a leading part is its last row. -/
theorem query_frontierOf {store : JournalRead} {scope : String} {front back : List Entry}
    {last : Entry} (split : store.journal.region scope = front ++ back)
    (final : front.getLast? = some last) :
    (store.queryEntriesAfter scope (some (frontierOf front - 1)) 1).head? = some last := by
  have ordered := store.journal.region_ordered scope
  obtain ⟨early, whole⟩ : ∃ early, front = early ++ [last] :=
    ⟨front.dropLast, (List.dropLast_append_getLast? last final).symm⟩
  have frontier : frontierOf front = last.sequence := by simp [frontierOf, final]
  have member : last ∈ store.journal.region scope := by simp [split, whole]
  have positive := store.journal.positive last (Journal.mem_region.mp member).1
  rw [split, whole, List.append_assoc] at ordered
  have passed : rowsAfter Entry.sequence (some (last.sequence - 1)) early = [] := by
    apply List.filter_eq_nil_iff.mpr
    intro entry there
    have before := (Ordered.of_append ordered).2.2 entry there last (by simp)
    have behind : ¬ last.sequence - 1 < entry.sequence := by omega
    simpa using behind
  have kept : last.sequence - 1 < last.sequence := by omega
  rw [JournalRead.queryEntriesAfter, pageAfter, frontier, split, whole, List.append_assoc,
    rowsAfter_append, passed]
  simp [rowsAfter, kept]

/-- A replay bounded by the frontier of a leading part of a region visits exactly that part,
whatever follows it. -/
theorem rowsThrough_frontierOf {store : JournalRead} {scope : String} {front back : List Entry}
    (split : store.journal.region scope = front ++ back) :
    store.rowsThrough scope (frontierOf front) = front := by
  have ordered := store.journal.region_ordered scope
  have positive : ∀ entry ∈ front ++ back, 0 < entry.sequence := by
    intro entry member
    rw [← split] at member
    exact store.journal.positive entry (Journal.mem_region.mp member).1
  rw [split] at ordered
  obtain ⟨early, late, before⟩ := Ordered.of_append ordered
  have visited : ∀ entry ∈ front, entry.sequence ≤ frontierOf front := by
    intro entry member
    cases final : front.getLast? with
    | none => simp [List.getLast?_eq_none_iff.mp final] at member
    | some last =>
      have bound := early.le_getLast final member
      simpa [frontierOf, final] using bound
  have beyond : ∀ entry ∈ back, frontierOf front < entry.sequence := by
    intro entry member
    cases final : front.getLast? with
    | none => simpa [frontierOf, final] using positive entry (by simp [member])
    | some last =>
      simpa [frontierOf, final] using before last (List.mem_of_getLast? final) entry member
  rw [JournalRead.rowsThrough, JournalRead.flatten_pages, rowsAfter_none, split,
    List.takeWhile_append_of_pos (by simpa using visited)]
  have stopped : back.takeWhile (fun entry => entry.sequence ≤ frontierOf front) = [] := by
    cases back with
    | nil => rfl
    | cons entry rest =>
      have later := beyond entry (by simp)
      have past : ¬ entry.sequence ≤ frontierOf front := by omega
      simp [past]
  rw [stopped, List.append_nil]

/-- The historical view at the frontier of a leading part is the replay of that part. -/
theorem assembleThrough_replay {journal : Journal} {g : String → Option Nat}
    {workspaceId : String} {front back : List Entry}
    (split : journal.region (scopeForWorkspace workspaceId) = front ++ back) :
    assembleThrough (JournalRead.intact journal g) workspaceId (frontierOf front) =
      .ok (replayView workspaceId front) := by
  have start : StandsAt [] ({ freshness := .rebuilding } : WorkspaceCache) := by
    obtain ⟨cards, frontier, anchor⟩ := standsAt_cleared {}
    exact ⟨cards, frontier, anchor⟩
  obtain ⟨folded, run, stands, cold⟩ :=
    standsAt_throughRows journal g front start rfl
  have reached : foldThrough (JournalRead.intact journal g)
      (scopeForWorkspace workspaceId) (frontierOf front) { freshness := .rebuilding } =
        .ok { folded with freshness := .stale } := by
    have visited : (JournalRead.intact journal g).rowsThrough
        (scopeForWorkspace workspaceId) (frontierOf front) = front := rowsThrough_frontierOf split
    unfold foldThrough
    by_cases zero : frontierOf front = 0
    · have none : front = [] := frontierOf_eq_zero split zero
      rw [if_pos zero]
      rw [none] at run
      rw [← Except.ok.inj run]
    · rw [if_neg zero, visited, run]
      rfl
  rw [List.nil_append] at stands
  have served : serveView workspaceId { folded with freshness := .stale } =
      buildView workspaceId { folded with freshness := .stale } := by
    simp [serveView, cold]
  have settled : StandsAt front ({ folded with freshness := .stale } : WorkspaceCache) :=
    ⟨stands.cards, stands.frontier, stands.anchor⟩
  have warm : WarmAt workspaceId front ({ folded with freshness := .stale } : WorkspaceCache) := by
    intro view present
    rw [show ({ folded with freshness := .stale } : WorkspaceCache).view = folded.view from rfl,
      cold] at present
    cases present
  have answer := (serveView_replay settled warm).1
  rw [served] at answer
  have named : ¬ ({ folded with freshness := .stale } : WorkspaceCache).frontier ≠ frontierOf front :=
    fun other => other stands.frontier
  rw [assembleThrough, reached]
  show (if _ then _ else _) = _
  rw [if_neg named, answer]

/-- A cache agrees with some rows when its cards and frontier are those of a leading part of them,
and a view it keeps warm at its frontier is the view of that part. -/
def Agrees (workspaceId : String) (rows : List Entry) (cache : WorkspaceCache) : Prop :=
  ∃ front back, rows = front ++ back ∧ cache.bare = cardsOf front ∧
    cache.frontier = frontierOf front ∧ (cache.frontier = 0 → cache.anchorEventId = none) ∧
    WarmAt workspaceId front cache

/-- A sound cache agrees with its rows. -/
theorem Sound.agrees {workspaceId : String} {rows : List Entry} {cache : WorkspaceCache}
    (sound : Sound workspaceId rows cache) (positive : ∀ row ∈ rows, 0 < row.sequence) :
    Agrees workspaceId rows cache := by
  obtain ⟨front, back, split, stands, warm⟩ := sound
  refine ⟨front, back, split, stands.cards, stands.frontier, ?_, warm⟩
  intro zero
  rw [stands.anchor, anchorOf]
  cases final : front.getLast? with
  | none => rfl
  | some last =>
    have member : last ∈ rows := by
      rw [split]
      exact List.mem_append_left _ (List.mem_of_getLast? final)
    have bound := positive last member
    have frontier : frontierOf front = last.sequence := by simp [frontierOf, final]
    have stood := stands.frontier
    omega

/-- A cache that agrees with a region is sound for it, or is rebuilt by its next call. -/
theorem Agrees.sound_or_rebuilt (store : JournalRead) {workspaceId scope : String}
    {cache : WorkspaceCache} (agrees : Agrees workspaceId (store.journal.region scope) cache)
    (kept : (cache.checked store scope).freshness ≠ .invalid) :
    Sound workspaceId (store.journal.region scope) cache := by
  obtain ⟨front, back, split, cards, frontier, cold, warm⟩ := agrees
  refine ⟨front, back, split, ⟨cards, frontier, ?_⟩, warm⟩
  by_cases zero : cache.frontier = 0
  · have none := frontierOf_eq_zero split (frontier.symm.trans zero)
    rw [cold zero, none]
    rfl
  · have matched : anchorMatches store scope cache = true := by
      by_contra differs
      apply kept
      have stale : 0 < cache.frontier ∧ ¬ anchorMatches store scope cache = true :=
        ⟨by omega, differs⟩
      rw [WorkspaceCache.checked, if_pos stale]
    cases final : front.getLast? with
    | none =>
      have empty := List.getLast?_eq_none_iff.mp final
      rw [empty] at frontier
      exact absurd frontier zero
    | some last =>
      have asked := query_frontierOf split final
      rw [anchorMatches, frontier, asked] at matched
      rw [anchorOf, final, Option.map_some]
      exact (of_decide_eq_true matched).2.symm

/-- On a readable journal a cache that agrees with it answers with the replayed view. -/
theorem Agrees.assemble {journal : Journal} {g : String → Option Nat} {workspaceId : String}
    {cache : WorkspaceCache}
    (agrees : Agrees workspaceId (journal.region (scopeForWorkspace workspaceId)) cache) :
    ∃ next, assemble (JournalRead.intact journal g) workspaceId cache =
      .ok (replayView workspaceId (journal.region (scopeForWorkspace workspaceId)), next) := by
  have refreshed : ∃ next, refreshCache (JournalRead.intact journal g)
        (scopeForWorkspace workspaceId)
        (cache.checked (JournalRead.intact journal g) (scopeForWorkspace workspaceId)) =
          .ok next ∧
      StandsAt (journal.region (scopeForWorkspace workspaceId)) next ∧
      WarmAt workspaceId (journal.region (scopeForWorkspace workspaceId)) next := by
    have clear : ∀ entry, blocked (JournalRead.intact journal g) entry = false := by
      simp [blocked, JournalRead.intact]
    by_cases invalid : (cache.checked (JournalRead.intact journal g)
        (scopeForWorkspace workspaceId)).freshness = .invalid
    · rcases rebuildCache_cases (JournalRead.intact journal g) workspaceId
          (scopeForWorkspace workspaceId) (cache.checked (JournalRead.intact journal g)
            (scopeForWorkspace workspaceId)) with ⟨next, run, done⟩ | ⟨_, _, ⟨entry, stuck⟩, _⟩
      · exact ⟨next, by simp [refreshCache, invalid, run], done⟩
      · rw [clear entry] at stuck
        cases stuck
    · have sound := Agrees.sound_or_rebuilt (JournalRead.intact journal g) agrees
        invalid
      rcases refreshCache_cases sound with done | ⟨_, _, ⟨entry, stuck⟩, _⟩
      · exact done
      · rw [clear entry] at stuck
        cases stuck
  obtain ⟨next, run, stands, warm⟩ := refreshed
  have answer := (serveView_replay stands warm).1
  refine ⟨(serveView workspaceId next).2, ?_⟩
  simp only [Claims.assemble, run]
  rw [← answer]

end Texo.Claims
