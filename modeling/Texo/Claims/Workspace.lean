import Mathlib.Data.List.Sort
import Std.Data.ExtTreeMap
import Texo.Claims.Cards
import Texo.Store.Journal

/-! # Deterministic workspace view assembly

The projection cache pages the workspace region and folds each card event into its
cached card. Cards change entry by entry, the frontier and its anchor once per
page, and a failed read returns at once with whatever has been folded.
-/
namespace Texo.Claims
open Texo.Events Texo.Store

/-- Explicit state of the disposable workspace projection. -/
inductive ProjectionFreshness where
  | fresh
  | stale
  | rebuilding
  | invalid
deriving DecidableEq, Repr

/-- Claim card plus derived relationships. -/
structure ClaimView where
  card : ClaimCard
  status : ClaimStatus
  supersedes : List String
deriving DecidableEq

/-- Assembled deterministic workspace view. -/
structure WorkspaceView where
  workspaceId : String
  frontier : Nat
  freshness : ProjectionFreshness
  claims : List ClaimView
  conflicts : List ConflictCard
  sources : List SourceCard
deriving DecidableEq

/-- Counters proving whether delta advancement is exercised. -/
structure WorkspaceCacheCounters where
  assembleCalls : Nat := 0
  discoveryEntriesPaged : Nat := 0
  foldedEvents : Nat := 0
  projectCalls : Nat := 0
  viewRebuilds : Nat := 0
  warmViewHits : Nat := 0
deriving DecidableEq

/-- Cards by entity string, each with the entity generation last stamped on it. -/
abbrev CardMap := Std.ExtTreeMap String (Nat × CachedCard)

/-- Projection cache for deterministic workspace assembly. The anchor is absent
where the source keeps an empty string. -/
structure WorkspaceCache where
  cards : CardMap := ∅
  frontier : Nat := 0
  anchorEventId : Option EventId := none
  view : Option WorkspaceView := none
  freshness : ProjectionFreshness := .invalid
  projectMisses : Nat := 0
  counters : WorkspaceCacheCounters := {}
  dirty : Bool := false

/-- Persisted sidecar: folded card states with their frontier and anchor. -/
structure PersistedWorkspace where
  version : Nat
  workspaceId : String
  journalId : String
  frontier : Nat
  anchorEventId : Option EventId
  cache : CardMap

/-- `SIDECAR_VERSION`. -/
def sidecarVersion : Nat := 3

/-- `WorkspaceCache::save_journal`: what the sidecar file holds afterwards. -/
def WorkspaceCache.saveJournal (cache : WorkspaceCache) (workspaceId journalId : String) :
    PersistedWorkspace where
  version := sidecarVersion
  workspaceId := workspaceId
  journalId := journalId
  frontier := cache.frontier
  anchorEventId := cache.anchorEventId
  cache := cache.cards

/-- `WorkspaceCache::load_journal`: a missing or foreign sidecar gives an invalid cache. -/
def WorkspaceCache.loadJournal (file : Option PersistedWorkspace)
    (workspaceId journalId : String) : WorkspaceCache :=
  match file with
  | none => {}
  | some persisted =>
    if persisted.version ≠ sidecarVersion ∨ persisted.workspaceId ≠ workspaceId ∨
        persisted.journalId ≠ journalId then
      {}
    else
      { cards := persisted.cache
        frontier := persisted.frontier
        anchorEventId := persisted.anchorEventId
        freshness := .stale }

/-- `fold_event`: apply one raw event to the cached card of its entity. -/
def foldEvent (cache : WorkspaceCache) (entity : String) (family : CardFamily)
    (payload : Payload) : WorkspaceCache :=
  if relevant family payload.kind then
    let slot := cache.cards[entity]?.getD (0, emptyCard family)
    { cache with
      cards := cache.cards.insert entity (slot.1, slot.2.applyEvent family payload)
      counters := { cache.counters with
        foldedEvents := saturatingAdd cache.counters.foldedEvents 1 } }
  else
    cache

/-- The state of one paging fold: the cache and the generation each dirty entity
had before it. -/
structure Folding where
  cache : WorkspaceCache
  priorGenerations : Std.ExtTreeMap String Nat := ∅

/-- Remember the generation of an entity before its first fold. -/
def Folding.notePrior (folding : Folding) (entity : String) : Folding :=
  if folding.priorGenerations.contains entity then
    folding
  else
    { folding with
      priorGenerations :=
        folding.priorGenerations.insert entity ((folding.cache.cards[entity]?.map Prod.fst).getD 0) }

/-- One entry of a page: entries outside the card families are not read. -/
def foldEntry (store : JournalRead) (folding : Folding) (entry : Entry) :
    Except (Failure Folding) Folding :=
  match CardFamily.of entry.entity with
  | none => .ok folding
  | some family =>
    match store.readRaw entry with
    | .error error => .error ⟨error, folding.notePrior entry.entity⟩
    | .ok payload =>
      .ok { folding.notePrior entry.entity with
        cache := foldEvent folding.cache entry.entity family payload }

/-- Count the entries of a page before they are folded. -/
def Folding.countPage (folding : Folding) (page : List Entry) : Folding :=
  { folding with
    cache := { folding.cache with
      counters := { folding.cache.counters with
        discoveryEntriesPaged :=
          saturatingAdd folding.cache.counters.discoveryEntriesPaged page.length } } }

/-- Move frontier and anchor to the last entry of a page. -/
def Folding.commitPage (folding : Folding) (page : List Entry) : Folding :=
  match page.getLast? with
  | none => folding
  | some last =>
    { folding with
      cache := { folding.cache with
        frontier := last.sequence
        anchorEventId := some last.eventId } }

/-- One page: fold every entry, then move frontier and anchor. -/
def foldPage (store : JournalRead) (folding : Folding) (page : List Entry) :
    Except (Failure Folding) Folding :=
  match page.foldlM (foldEntry store) (folding.countPage page) with
  | .error failure => .error failure
  | .ok folded => .ok (folded.commitPage page)

/-- How a paging fold ended. -/
inductive FoldOutcome where
  | noDelta
  | folded
  | generationRegressed
deriving DecidableEq

/-- Stamp authoritative generations in entity order; a store generation below the
prior one stops the loop. -/
def stampGenerations (store : JournalRead) :
    List (String × Nat) → WorkspaceCache → FoldOutcome × WorkspaceCache
  | [], cache => (.folded, cache)
  | (entity, prior) :: rest, cache =>
    let generation := (store.entityGeneration entity).getD 0
    if generation < prior then
      (.generationRegressed, cache)
    else
      stampGenerations store rest
        { cache with
          cards := match cache.cards[entity]? with
            | none => cache.cards
            | some slot => cache.cards.insert entity (generation, slot.2) }

/-- `fold_after`: page every entry after `initialAfter` and fold it. -/
def foldAfter (store : JournalRead) (scope : String) (initialAfter : Option Nat)
    (cache : WorkspaceCache) : Except (Failure WorkspaceCache) (FoldOutcome × WorkspaceCache) :=
  match (store.pages scope initialAfter).foldlM (foldPage store) { cache := cache } with
  | .error failure => .error ⟨failure.error, failure.left.cache⟩
  | .ok folding =>
    if folding.priorGenerations.isEmpty then
      .ok (.noDelta, folding.cache)
    else
      .ok (stampGenerations store folding.priorGenerations.toList folding.cache)

/-- The cache a rebuild starts from. -/
def WorkspaceCache.cleared (cache : WorkspaceCache) : WorkspaceCache :=
  { cache with
    freshness := .rebuilding
    cards := ∅
    frontier := 0
    anchorEventId := none
    view := none }

/-- `rebuild_cache`: replay the whole region into a cleared cache. -/
def rebuildCache (store : JournalRead) (scope : String) (cache : WorkspaceCache) :
    Except (Failure WorkspaceCache) WorkspaceCache :=
  match foldAfter store scope none cache.cleared with
  | .error failure => .error failure
  | .ok (_, folded) => .ok { folded with dirty := true, freshness := .stale }

/-- `advance_cache`: replay only what follows the frontier. -/
def advanceCache (store : JournalRead) (scope : String) (cache : WorkspaceCache) :
    Except (Failure WorkspaceCache) WorkspaceCache :=
  match foldAfter store scope (some cache.frontier) cache with
  | .error failure => .error failure
  | .ok (.noDelta, advanced) => .ok { advanced with freshness := .fresh }
  | .ok (.folded, advanced) =>
    .ok { advanced with dirty := true, freshness := .stale, view := none }
  | .ok (.generationRegressed, advanced) =>
    rebuildCache store scope { advanced with freshness := .invalid }

/-- `anchor_matches`: the entry at the frontier is the one the cache was built on. -/
def anchorMatches (store : JournalRead) (scope : String) (cache : WorkspaceCache) : Bool :=
  match (store.queryEntriesAfter scope (some (cache.frontier - 1)) 1).head? with
  | none => false
  | some entry => entry.sequence = cache.frontier ∧ some entry.eventId = cache.anchorEventId

/-- Claims named by an open conflict. -/
def openConflictClaims (conflicts : List ConflictCard) : List String :=
  conflicts.flatMap fun conflict =>
    if conflict.phase = 1 then [conflict.claimA, conflict.claimB] else []

/-- Record one claim under its successor. -/
def noteSuperseded (supersedes : Std.ExtTreeMap String (List String)) (claim : ClaimCard) :
    Std.ExtTreeMap String (List String) :=
  match claim.supersededBy with
  | none => supersedes
  | some newId => supersedes.insert newId ((supersedes[newId]?).getD [] ++ [claim.claimId])

/-- The inversion of `superseded_by`: old claim ids under each successor, sorted. -/
def supersessions (claims : List ClaimCard) : Std.ExtTreeMap String (List String) :=
  (claims.foldl noteSuperseded ∅).map fun _ (oldIds : List String) =>
    oldIds.insertionSort (· ≤ ·)

/-- Claim views in card order; each inversion entry is taken out once. -/
def claimViews (openConflicts : List String) :
    Std.ExtTreeMap String (List String) → List ClaimCard → List ClaimView
  | _, [] => []
  | supersedes, card :: rest =>
    { card := card
      status := claimStatus card (openConflicts.contains card.claimId)
      supersedes := (supersedes[card.claimId]?).getD [] } ::
      claimViews openConflicts (supersedes.erase card.claimId) rest

/-- The view derived from cards alone, without their generations. -/
def deriveView (workspaceId : String) (frontier : Nat) (cards : List CachedCard) : WorkspaceView :=
  let claims := (cards.filterMap fun | .claim card => some card | _ => none).insertionSort
    fun left right => left.claimId ≤ right.claimId
  let conflicts := (cards.filterMap fun | .conflict card => some card | _ => none).insertionSort
    fun left right => left.conflictId ≤ right.conflictId
  let sources := (cards.filterMap fun | .source card => some card | _ => none).insertionSort
    fun left right => left.sourceId ≤ right.sourceId
  { workspaceId := workspaceId
    frontier := frontier
    freshness := .fresh
    claims := claimViews (openConflictClaims conflicts) (supersessions claims) claims
    conflicts := conflicts
    sources := sources }

/-- `build_view`: derive the view and keep it warm. -/
def buildView (workspaceId : String) (cache : WorkspaceCache) : WorkspaceView × WorkspaceCache :=
  let view := deriveView workspaceId cache.frontier (cache.cards.toList.map fun slot => slot.2.2)
  (view, { cache with
    view := some view
    freshness := .fresh
    counters := { cache.counters with
      viewRebuilds := saturatingAdd cache.counters.viewRebuilds 1 } })

/-- The freshness check at the start of a call: a mismatched anchor invalidates. -/
def WorkspaceCache.checked (store : JournalRead) (scope : String) (cache : WorkspaceCache) :
    WorkspaceCache :=
  let counted := { cache with
    counters := { cache.counters with
      assembleCalls := saturatingAdd cache.counters.assembleCalls 1 } }
  if 0 < cache.frontier ∧ ¬ anchorMatches store scope cache then
    { counted with freshness := .invalid }
  else
    counted

/-- The replay half of `assemble`: rebuild an invalid cache, advance any other. -/
def refreshCache (store : JournalRead) (scope : String) (cache : WorkspaceCache) :
    Except (Failure WorkspaceCache) WorkspaceCache :=
  if cache.freshness = .invalid then
    rebuildCache store scope cache
  else
    advanceCache store scope cache

/-- The answer half of `assemble`: a warm view is served only at the frontier. -/
def serveView (workspaceId : String) (cache : WorkspaceCache) : WorkspaceView × WorkspaceCache :=
  match cache.view with
  | none => buildView workspaceId cache
  | some view =>
    if cache.freshness = .fresh ∧ view.frontier = cache.frontier then
      (view, { cache with
        counters := { cache.counters with
          warmViewHits := saturatingAdd cache.counters.warmViewHits 1 } })
    else
      buildView workspaceId cache

/-- `assemble`: the deterministic workspace view at the latest frontier. -/
def assemble (store : JournalRead) (workspaceId : String) (cache : WorkspaceCache) :
    Except (Failure WorkspaceCache) (WorkspaceView × WorkspaceCache) :=
  let scope := scopeForWorkspace workspaceId
  match refreshCache store scope (cache.checked store scope) with
  | .error failure => .error failure
  | .ok refreshed => .ok (serveView workspaceId refreshed)

end Texo.Claims
