import Texo.Error
import Texo.Events.Payloads
import Texo.Foundation.Paging

/-! # The journal store

One append-only journal of domain events in global sequence order. A keyed append
commits under its idempotency key, so a key already used gives back the entry it
committed first and adds nothing. Readers see the journal through bounded pages of
one workspace scope.
-/
namespace Texo.Store
open Texo.Events Texo.Foundation

/-- Identity of a committed event. A keyed append commits under its key; keys are
taken as collision free, so they are the material they are derived from. -/
inductive EventId where
  | unkeyed (ordinal : Nat)
  | forOperation (operation : String) (parts : List String)
  | forPayload (operation : String) (parts : List String) (identity : Payload)
  | forTransition (operation : String) (parts : List String) (predecessor : EventId)
      (identity : Payload)
deriving DecidableEq

/-- Counter of an event committed without a key. -/
def EventId.ordinal : EventId → Nat
  | .unkeyed ordinal => ordinal
  | .forOperation .. => 0
  | .forPayload .. => 0
  | .forTransition .. => 0

/-- One committed event with its index row. -/
structure Entry where
  sequence : Nat
  eventId : EventId
  scope : String
  entity : String
  payload : Payload
deriving DecidableEq

/-- A journal: rows in strictly increasing sequence, each under its own identity.
Sequence zero belongs to the store's own lifecycle event. -/
structure Journal where
  entries : List Entry
  ordered : Ordered Entry.sequence entries
  positive : ∀ entry ∈ entries, 0 < entry.sequence
  distinct : (entries.map Entry.eventId).Nodup

/-- The journal of a freshly opened store. -/
def Journal.empty : Journal where
  entries := []
  ordered := List.Pairwise.nil
  positive := by simp
  distinct := List.nodup_nil

/-- Journals with the same rows are the same journal. -/
theorem Journal.eq_of_entries {a b : Journal} (same : a.entries = b.entries) : a = b := by
  cases a
  cases b
  cases same
  rfl

instance : DecidableEq Journal := fun a b =>
  decidable_of_iff (a.entries = b.entries)
    ⟨Journal.eq_of_entries, fun same => congrArg Journal.entries same⟩

/-- The sequence of the last committed row, zero for a fresh store. -/
def Journal.lastSequence (journal : Journal) : Nat :=
  (journal.entries.getLast?.map Entry.sequence).getD 0

/-- No row is past the last one. -/
theorem Journal.le_lastSequence (journal : Journal) {entry : Entry}
    (member : entry ∈ journal.entries) : entry.sequence ≤ journal.lastSequence := by
  cases final : journal.entries.getLast? with
  | none => simp [List.getLast?_eq_none_iff.mp final] at member
  | some last =>
    have bound := journal.ordered.le_getLast final member
    simpa [Journal.lastSequence, final] using bound

/-- A counter no unkeyed row has used. -/
def Journal.freshOrdinal (journal : Journal) : Nat :=
  (journal.entries.map fun entry => entry.eventId.ordinal).foldr max 0 + 1

/-- Every used counter is below the fresh one. -/
theorem Journal.ordinal_lt_fresh (journal : Journal) {entry : Entry}
    (member : entry ∈ journal.entries) : entry.eventId.ordinal < journal.freshOrdinal := by
  have bound : ∀ rows : List Entry, entry ∈ rows →
      entry.eventId.ordinal ≤ (rows.map fun row => row.eventId.ordinal).foldr max 0 := by
    intro rows
    induction rows with
    | nil => simp
    | cons row rows ih =>
      intro present
      simp only [List.map_cons, List.foldr_cons]
      rcases List.mem_cons.mp present with rfl | later
      · exact Nat.le_max_left _ _
      · exact Nat.le_trans (ih later) (Nat.le_max_right _ _)
  exact Nat.lt_succ_of_le (bound journal.entries member)

/-- The row an event identity was committed under. -/
def Journal.find? (journal : Journal) (eventId : EventId) : Option Entry :=
  journal.entries.find? fun entry => entry.eventId = eventId

/-- A found row carries the identity it was asked for. -/
theorem Journal.find?_some {journal : Journal} {eventId : EventId} {entry : Entry}
    (found : journal.find? eventId = some entry) :
    entry ∈ journal.entries ∧ entry.eventId = eventId :=
  ⟨List.mem_of_find?_eq_some found, by simpa using List.find?_some found⟩

/-- An identity with no row is unused. -/
theorem Journal.find?_none {journal : Journal} {eventId : EventId}
    (missing : journal.find? eventId = none) :
    ∀ entry ∈ journal.entries, entry.eventId ≠ eventId := by
  simpa [Journal.find?] using missing

/-- An unused identity can be committed after the last row. -/
def Journal.commit (journal : Journal) (eventId : EventId) (scope entity : String)
    (payload : Payload) (unused : ∀ entry ∈ journal.entries, entry.eventId ≠ eventId) : Journal where
  entries := journal.entries ++ [⟨journal.lastSequence + 1, eventId, scope, entity, payload⟩]
  ordered := by
    refine List.pairwise_append.mpr ⟨journal.ordered, List.pairwise_singleton _ _, ?_⟩
    intro entry member row final
    rw [List.mem_singleton.mp final]
    exact Nat.lt_succ_of_le (journal.le_lastSequence member)
  positive := by
    intro entry member
    rcases List.mem_append.mp member with early | late
    · exact journal.positive entry early
    · rw [List.mem_singleton.mp late]
      exact Nat.succ_pos _
  distinct := by
    rw [List.map_append]
    refine List.nodup_append.mpr ⟨journal.distinct, by simp, ?_⟩
    intro used present other final
    obtain ⟨entry, member, rfl⟩ := List.mem_map.mp present
    rw [List.map_singleton, List.mem_singleton] at final
    subst final
    exact unused entry member

/-- The identity a new row is committed under. -/
def Journal.assignedId (journal : Journal) (key : Option EventId) : EventId :=
  key.getD (.unkeyed journal.freshOrdinal)

/-- `Store::append_typed_with_options`: a used key returns its original row and
appends nothing. -/
def Journal.append (journal : Journal) (key : Option EventId) (scope entity : String)
    (payload : Payload) : Entry × Journal :=
  match missing : journal.find? (journal.assignedId key) with
  | some original => (original, journal)
  | none =>
    (⟨journal.lastSequence + 1, journal.assignedId key, scope, entity, payload⟩,
      journal.commit (journal.assignedId key) scope entity payload (Journal.find?_none missing))

/-- The journal `later` continues the journal `earlier`. -/
def Journal.Extends (earlier later : Journal) : Prop := earlier.entries <+: later.entries

/-- Every journal continues itself. -/
theorem Journal.Extends.refl (journal : Journal) : journal.Extends journal := List.prefix_rfl

/-- Continuations compose. -/
theorem Journal.Extends.trans {a b c : Journal} (first : a.Extends b) (second : b.Extends c) :
    a.Extends c :=
  List.IsPrefix.trans first second

/-- A continuation keeps every row. -/
theorem Journal.Extends.mem {earlier later : Journal} (grown : earlier.Extends later) {entry : Entry}
    (member : entry ∈ earlier.entries) : entry ∈ later.entries :=
  grown.subset member

/-- What one append can do: nothing under a used key, one new row otherwise. -/
theorem Journal.append_cases (journal : Journal) (key : Option EventId) (scope entity : String)
    (payload : Payload) :
    (∃ original ∈ journal.entries, original.eventId = journal.assignedId key ∧
      journal.append key scope entity payload = (original, journal)) ∨
    ((∀ entry ∈ journal.entries, entry.eventId ≠ journal.assignedId key) ∧
      (journal.append key scope entity payload).1 =
        ⟨journal.lastSequence + 1, journal.assignedId key, scope, entity, payload⟩ ∧
      (journal.append key scope entity payload).2.entries = journal.entries ++
        [⟨journal.lastSequence + 1, journal.assignedId key, scope, entity, payload⟩]) := by
  rw [Journal.append]
  split
  · rename_i original found
    obtain ⟨member, identity⟩ := Journal.find?_some found
    exact Or.inl ⟨original, member, identity, rfl⟩
  · rename_i missing
    exact Or.inr ⟨Journal.find?_none missing, rfl, rfl⟩

/-- Appending only extends. -/
theorem Journal.extends_append (journal : Journal) (key : Option EventId) (scope entity : String)
    (payload : Payload) : journal.Extends (journal.append key scope entity payload).2 := by
  rcases journal.append_cases key scope entity payload with ⟨_, _, _, same⟩ | ⟨_, _, grown⟩
  · rw [same]
    exact Journal.Extends.refl journal
  · exact ⟨_, grown.symm⟩

/-- An unkeyed append always adds a row. -/
theorem Journal.append_unkeyed (journal : Journal) (scope entity : String) (payload : Payload) :
    (journal.append none scope entity payload).2.entries = journal.entries ++
      [⟨journal.lastSequence + 1, .unkeyed journal.freshOrdinal, scope, entity, payload⟩] := by
  rcases journal.append_cases none scope entity payload with ⟨original, member, used, _⟩ | ⟨_, _, grown⟩
  · have below := journal.ordinal_lt_fresh member
    rw [used] at below
    exact absurd below (Nat.lt_irrefl _)
  · exact grown

/-- Rows of one scope, `Region::scope`. -/
def Journal.region (journal : Journal) (scope : String) : List Entry :=
  journal.entries.filter fun entry => entry.scope = scope

/-- A region is ordered as the journal is. -/
theorem Journal.region_ordered (journal : Journal) (scope : String) :
    Ordered Entry.sequence (journal.region scope) :=
  journal.ordered.filter _

/-- Region rows are journal rows of the scope. -/
theorem Journal.mem_region {journal : Journal} {scope : String} {entry : Entry} :
    entry ∈ journal.region scope ↔ entry ∈ journal.entries ∧ entry.scope = scope := by
  simp [Journal.region]

/-- A continuation extends every region. -/
theorem Journal.Extends.region {earlier later : Journal} (grown : earlier.Extends later)
    (scope : String) : earlier.region scope <+: later.region scope :=
  List.IsPrefix.filter _ grown

/-- What a continuation adds lies past the last row of the journal it continues. -/
theorem Journal.Extends.later {earlier later : Journal} (grown : earlier.Extends later) :
    ∃ more, later.entries = earlier.entries ++ more ∧
      ∀ entry ∈ more, earlier.lastSequence < entry.sequence := by
  obtain ⟨more, split⟩ := grown
  refine ⟨more, split.symm, ?_⟩
  intro entry member
  have ordered := later.ordered
  rw [← split] at ordered
  cases final : earlier.entries.getLast? with
  | none =>
    have there : entry ∈ later.entries := by
      rw [← split]
      exact List.mem_append_right _ member
    simpa [Journal.lastSequence, final] using later.positive entry there
  | some last =>
    have before := (Ordered.of_append ordered).2.2 last (List.mem_of_getLast? final) entry member
    simpa [Journal.lastSequence, final] using before

/-- Up to a frontier of a journal, a continuation has the rows the journal has. -/
theorem Journal.Extends.rows_through {earlier later : Journal} (grown : earlier.Extends later)
    (keep : Entry → Bool) {frontier : Nat} (bound : frontier ≤ earlier.lastSequence) :
    ((later.entries.filter keep).takeWhile fun entry => entry.sequence ≤ frontier) =
      (earlier.entries.filter keep).takeWhile fun entry => entry.sequence ≤ frontier := by
  obtain ⟨more, split, beyond⟩ := grown.later
  have stopped : ((more.filter keep).takeWhile fun entry => entry.sequence ≤ frontier) = [] := by
    cases rows : more.filter keep with
    | nil => rfl
    | cons entry rest =>
      have member : entry ∈ more.filter keep := by simp [rows]
      have past := beyond entry (List.mem_filter.mp member).1
      have stop : ¬ entry.sequence ≤ frontier := by omega
      simp [stop]
  rw [split, List.filter_append, List.takeWhile_append, stopped, List.append_nil]
  split
  · rename_i whole
    have passed := List.takeWhile_prefix (fun entry : Entry => decide (entry.sequence ≤ frontier))
      (l := earlier.entries.filter keep)
    exact (passed.eq_of_length whole).symm
  · rfl

/-- One read handle on a journal: which raw events cannot be read now, and the
entity generations the store reports. -/
structure JournalRead where
  journal : Journal
  unreadable : EventId → Bool
  entityGeneration : String → Option Nat

/-- A handle on which every read succeeds. -/
def JournalRead.intact (journal : Journal) (entityGeneration : String → Option Nat) :
    JournalRead where
  journal := journal
  unreadable := fun _ => false
  entityGeneration := entityGeneration

/-- `JournalRead::query_entries_after`. -/
def JournalRead.queryEntriesAfter (store : JournalRead) (scope : String) (after : Option Nat)
    (limit : Nat) : List Entry :=
  pageAfter Entry.sequence limit (store.journal.region scope) after

/-- `JournalRead::read_raw`. -/
def JournalRead.readRaw (store : JournalRead) (entry : Entry) : Except TexoError Payload :=
  if store.unreadable entry.eventId then
    .error (.store "raw event is unreadable")
  else
    .ok entry.payload

/-- Rows asked for in one page. -/
def pageLimit : Nat := 256

/-- The pages a replay receives until one is empty. -/
def JournalRead.pages (store : JournalRead) (scope : String) (after : Option Nat) :
    List (List Entry) :=
  pagesAfter Entry.sequence pageLimit (store.journal.region scope)
    (store.journal.region scope).length after

/-- The rows a bounded replay visits: page by page, up to the first row past the frontier. -/
def JournalRead.rowsThrough (store : JournalRead) (scope : String) (frontier : Nat) : List Entry :=
  (store.pages scope none).flatten.takeWhile fun entry => entry.sequence ≤ frontier

/-- A replay's pages in order are the region rows after its starting point. -/
theorem JournalRead.flatten_pages (store : JournalRead) (scope : String) (after : Option Nat) :
    (store.pages scope after).flatten =
      rowsAfter Entry.sequence after (store.journal.region scope) :=
  flatten_pagesAfter (by decide) (store.journal.region_ordered scope) _ after
    (List.length_filter_le _ _)

end Texo.Store
