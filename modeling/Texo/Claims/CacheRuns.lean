import Mathlib.Logic.Relation
import Texo.Claims.WorkspaceCache

/-! # Runs of one projection cache

A host keeps one journal, one warm cache and one sidecar file. Its journal only
grows; calls of `assemble` may fail on any read; the cache may be saved and loaded
at any time. The run law says which runs keep every later answer equal to a fresh
replay.
-/
namespace Texo.Claims
open Texo.Events Texo.Store Texo.Foundation

/-- A journal with one warm cache and its sidecar file. -/
structure CacheHost where
  journal : Journal
  cache : WorkspaceCache := {}
  sidecar : Option PersistedWorkspace := none

/-- The cache one call of `assemble` leaves behind. -/
def cacheAfter (store : JournalRead) (workspaceId : String) (cache : WorkspaceCache) :
    WorkspaceCache :=
  match assemble store workspaceId cache with
  | .error failure => failure.left
  | .ok (_, next) => next

/-- One step of a host; `permits` restricts the calls it makes. -/
inductive HostStep (permits : JournalRead → WorkspaceCache → Prop) (workspaceId journalId : String) :
    CacheHost → CacheHost → Prop
  | grow (host : CacheHost) (journal : Journal) (grown : host.journal.Extends journal) :
      HostStep permits workspaceId journalId host { host with journal := journal }
  | call (host : CacheHost) (store : JournalRead) (same : store.journal = host.journal)
      (permitted : permits store host.cache) :
      HostStep permits workspaceId journalId host
        { host with cache := cacheAfter store workspaceId host.cache }
  | save (host : CacheHost) :
      HostStep permits workspaceId journalId host
        { host with sidecar := some (host.cache.saveJournal workspaceId journalId) }
  | load (host : CacheHost) :
      HostStep permits workspaceId journalId host
        { host with cache := WorkspaceCache.loadJournal host.sidecar workspaceId journalId }

/-- Runs of a host. -/
def HostRun (permits : JournalRead → WorkspaceCache → Prop) (workspaceId journalId : String) :
    CacheHost → CacheHost → Prop :=
  Relation.ReflTransGen (HostStep permits workspaceId journalId)

/-- A cache sound for a region is sound for its continuation. -/
theorem Sound.grow {workspaceId : String} {rows later : List Entry} {cache : WorkspaceCache}
    (sound : Sound workspaceId rows cache) (grown : rows <+: later) : Sound workspaceId later cache := by
  obtain ⟨front, back, split, stands, warm⟩ := sound
  obtain ⟨more, rfl⟩ := grown
  exact ⟨front, back ++ more, by simp [split], stands, warm⟩

/-- The default cache is sound for every region. -/
theorem sound_default (workspaceId : String) (rows : List Entry) : Sound workspaceId rows {} := by
  obtain ⟨cards, frontier, anchor⟩ := standsAt_cleared {}
  refine ⟨[], rows, rfl, ⟨cards, frontier, anchor⟩, ?_⟩
  intro view present
  cases present

/-- A sound cache saved and loaded is sound. -/
theorem sound_load {workspaceId journalId : String} {rows : List Entry} {cache : WorkspaceCache}
    (sound : Sound workspaceId rows cache) :
    Sound workspaceId rows (WorkspaceCache.loadJournal
      (some (cache.saveJournal workspaceId journalId)) workspaceId journalId) := by
  obtain ⟨front, back, split, stands, warm⟩ := sound
  refine ⟨front, back, split, ?_, ?_⟩
  · simp only [WorkspaceCache.loadJournal, WorkspaceCache.saveJournal, ne_eq, not_true_eq_false,
      or_self, if_false]
    exact ⟨stands.cards, stands.frontier, stands.anchor⟩
  · intro view present
    simp [WorkspaceCache.loadJournal, WorkspaceCache.saveJournal] at present

/-- The call law: an answer of a sound cache is the view of a fresh replay, and the
call leaves the cache sound unless it failed in the middle of a page's cards. -/
theorem assemble_sound {store : JournalRead} {workspaceId : String} {cache : WorkspaceCache}
    (sound : Sound workspaceId (store.journal.region (scopeForWorkspace workspaceId)) cache) :
    (∀ view next, assemble store workspaceId cache = .ok (view, next) →
      view = replayView workspaceId (store.journal.region (scopeForWorkspace workspaceId))) ∧
    (FailsCleanly store (scopeForWorkspace workspaceId) cache →
      Sound workspaceId (store.journal.region (scopeForWorkspace workspaceId))
        (cacheAfter store workspaceId cache)) := by
  rcases refreshCache_cases sound with ⟨refreshed, run, stands, warm⟩ | ⟨failure, run, _, left⟩
  · obtain ⟨served, servedStands, servedWarm⟩ := serveView_replay stands warm
    constructor
    · intro view next answered
      simp only [assemble, run, Except.ok.injEq] at answered
      rw [← served, answered]
    · intro _
      refine ⟨_, [], (List.append_nil _).symm, ?_, ?_⟩
      · simpa [cacheAfter, assemble, run] using servedStands
      · simpa [cacheAfter, assemble, run] using servedWarm
  · constructor
    · intro view next answered
      simp [assemble, run] at answered
    · intro clean
      simpa [cacheAfter, assemble, run] using left clean

/-- A fresh default cache on an intact store always answers, with the replayed view. -/
theorem assemble_default (journal : Journal) (entityGeneration : String → Option Nat)
    (workspaceId : String) :
    ∃ next, assemble (JournalRead.intact journal entityGeneration) workspaceId {} =
      .ok (replayView workspaceId (journal.region (scopeForWorkspace workspaceId)), next) := by
  have sound := sound_default workspaceId
    ((JournalRead.intact journal entityGeneration).journal.region (scopeForWorkspace workspaceId))
  rcases refreshCache_cases sound with ⟨refreshed, run, stands, warm⟩ | ⟨failure, _, ⟨entry, stuck⟩, _⟩
  · refine ⟨(serveView workspaceId refreshed).2, ?_⟩
    obtain ⟨served, _, _⟩ := serveView_replay stands warm
    simp only [assemble, run]
    rw [show serveView workspaceId refreshed =
      ((serveView workspaceId refreshed).1, (serveView workspaceId refreshed).2) from rfl, served]
    rfl
  · simp [blocked, JournalRead.intact] at stuck

/-- What a run of a host keeps: its cache and what its sidecar would load are sound. -/
structure HostSound (workspaceId journalId : String) (host : CacheHost) : Prop where
  cache : Sound workspaceId (host.journal.region (scopeForWorkspace workspaceId)) host.cache
  sidecar : Sound workspaceId (host.journal.region (scopeForWorkspace workspaceId))
    (WorkspaceCache.loadJournal host.sidecar workspaceId journalId)

/-- The calls whose failures leave the cache sound. -/
def cleanCalls (workspaceId : String) (store : JournalRead) (cache : WorkspaceCache) : Prop :=
  FailsCleanly store (scopeForWorkspace workspaceId) cache

/-- The step law of a host. -/
theorem hostSound_step {workspaceId journalId : String} {host next : CacheHost}
    (step : HostStep (cleanCalls workspaceId) workspaceId journalId host next)
    (sound : HostSound workspaceId journalId host) : HostSound workspaceId journalId next := by
  cases step with
  | grow journal grown =>
    exact ⟨sound.cache.grow (grown.region _), sound.sidecar.grow (grown.region _)⟩
  | call store same permitted =>
    obtain ⟨journal, cache, sidecar⟩ := host
    subst same
    exact ⟨(assemble_sound sound.cache).2 permitted, sound.sidecar⟩
  | save => exact ⟨sound.cache, sound_load sound.cache⟩
  | load => exact ⟨sound.sidecar, sound.sidecar⟩

/-- The run law of a host. -/
theorem hostSound_run {workspaceId journalId : String} {host next : CacheHost}
    (run : HostRun (cleanCalls workspaceId) workspaceId journalId host next)
    (sound : HostSound workspaceId journalId host) : HostSound workspaceId journalId next := by
  induction run with
  | refl => exact sound
  | tail _ step ih => exact hostSound_step step ih

/-- What callers rely on: an answer of the host's cache is the answer of a fresh
default cache over the same journal. -/
def AnswersFresh (workspaceId : String) (host : CacheHost) : Prop :=
  ∀ store : JournalRead, store.journal = host.journal →
    ∀ view next, assemble store workspaceId host.cache = .ok (view, next) →
      (∃ fresh, assemble (JournalRead.intact host.journal store.entityGeneration) workspaceId {} =
        .ok (view, fresh)) ∧
      ∀ other : JournalRead, other.journal = host.journal →
        ∀ view' next', assemble other workspaceId {} = .ok (view', next') → view' = view

/-- In every run whose failing calls stop cleanly, every later call that answers
gives the view of a fresh default cache over the same journal. -/
theorem later_answers_fresh {workspaceId journalId : String} {journal : Journal} {host : CacheHost}
    (run : HostRun (cleanCalls workspaceId) workspaceId journalId { journal := journal } host) :
    AnswersFresh workspaceId host := by
  intro store same view next answered
  have start : HostSound workspaceId journalId { journal := journal } :=
    ⟨sound_default workspaceId _, sound_default workspaceId _⟩
  have sound := (hostSound_run run start).cache
  rw [← same] at sound
  have replayed := (assemble_sound sound).1 view next answered
  constructor
  · rw [replayed, same]
    exact assemble_default host.journal store.entityGeneration workspaceId
  · intro other otherSame view' next' fresh
    rw [(assemble_sound (sound_default workspaceId _)).1 view' next' fresh, replayed, same, otherSame]

/-- A recorded claim that differs from others only in its id. -/
def plainClaim (claimId : String) : ClaimRecordedV2 where
  claimId := claimId
  workspaceId := "demo"
  sourceId := "src_a"
  sourcePath := "a.md"
  lineStart := 1
  lineEnd := 1
  charStart := 0
  charEnd := 1
  text := claimId
  normalizedText := claimId
  subjectHint := none
  predicateHint := none
  objectHint := none
  confidencePpm := 0
  extractorKind := "heuristic"
  extractorModel := "none"
  promptVersion := "v1"
  observedAtMs := 0

/-- Record one plain claim. -/
def recordPlain (journal : Journal) (claimId : String) : Journal :=
  (journal.append (some (.forOperation "texo.claim.recorded.v2" ["demo", claimId]))
    (scopeForWorkspace "demo") (entityForClaim claimId) (.claimRecorded (plainClaim claimId))).2

/-- Two claims recorded in one workspace. -/
def twoClaims : Journal := recordPlain (recordPlain Journal.empty "claim_a") "claim_b"

/-- A handle on which the raw event of one claim cannot be read. -/
def unreadableClaim (claimId : String) : JournalRead where
  journal := twoClaims
  unreadable := fun eventId =>
    eventId = .forOperation "texo.claim.recorded.v2" ["demo", claimId]
  entityGeneration := fun _ => none

/-- The anomalies an answer shows, claim by claim. -/
def shownAnomalies (answer : Except (Failure WorkspaceCache) (WorkspaceView × WorkspaceCache)) :
    Option (List (List String)) :=
  match answer with
  | .error _ => none
  | .ok (view, _) => some (view.claims.map fun claim => claim.card.anomalies)

/-- A call that cannot read the first of two claims fails with nothing folded, and the
next call gives the fresh view. -/
theorem later_answers_fresh_after_first_read :
    AnswersFresh "demo"
      { journal := twoClaims, cache := cacheAfter (unreadableClaim "claim_a") "demo" {} } :=
  @later_answers_fresh "demo" "canonical" twoClaims _
    (Relation.ReflTransGen.single
      (HostStep.call { journal := twoClaims } (unreadableClaim "claim_a") rfl (by
        show FailsCleanly (unreadableClaim "claim_a") (scopeForWorkspace "demo") {}
        decide)))

/-- A call that cannot read the second of two claims on one page leaves the first one
folded; the next call folds it again and answers with a duplicate record. -/
theorem failed_call_folds_twice :
    ∃ host : CacheHost,
      HostRun (fun _ _ => True) "demo" "canonical" { journal := twoClaims } host ∧
        ¬ AnswersFresh "demo" host := by
  refine ⟨{ journal := twoClaims, cache := cacheAfter (unreadableClaim "claim_b") "demo" {} },
    Relation.ReflTransGen.single
      (HostStep.call { journal := twoClaims } (unreadableClaim "claim_b") rfl trivial), ?_⟩
  intro fresh
  have second : shownAnomalies (assemble (JournalRead.intact twoClaims fun _ => none) "demo"
      (cacheAfter (unreadableClaim "claim_b") "demo" {})) = some [["duplicate-record"], []] := by
    decide
  have first : shownAnomalies (assemble (JournalRead.intact twoClaims fun _ => none) "demo" {}) =
      some [[], []] := by
    decide
  cases answered : assemble (JournalRead.intact twoClaims fun _ => none) "demo"
      (cacheAfter (unreadableClaim "claim_b") "demo" {}) with
  | error failure => simp [answered, shownAnomalies] at second
  | ok answer =>
    obtain ⟨⟨left, again⟩, _⟩ := fresh _ rfl answer.1 answer.2 answered
    have same : shownAnomalies (.ok (answer.1, left)) = some [[], []] :=
      (congrArg shownAnomalies again.symm).trans first
    have shown : shownAnomalies (.ok answer) = some [[], []] := same
    rw [answered, shown] at second
    simp at second

end Texo.Claims
