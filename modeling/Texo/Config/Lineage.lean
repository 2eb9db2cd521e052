import Texo.Config.Topology

/-! # Journal lineages

`validate_all` follows the upstream of every journal until a journal declares none, and refuses a
journal it has seen before. The loop has no bound of its own: every turn sees one declared journal
more, so it ends. In a topology that passes, every lineage leads to a canonical journal.
-/
namespace Texo.Config
open Texo.Foundation

/-- The journal some steps up a lineage. -/
def Journals.ancestor (journals : Journals) : Nat → String → Option String
  | 0, id => some id
  | steps + 1, id => (journals.upstream id).bind (journals.ancestor steps)

/-- The loop of `validate_all` over one lineage, behind the journals it has seen: whether it ends
without a cycle. -/
inductive LineageLoop (journals : Journals) : List String → String → Bool → Prop
  | ended {seen : List String} {cursor : String} (root : journals.upstream cursor = none) :
      LineageLoop journals seen cursor true
  | cycle {seen : List String} {cursor source : String}
      (above : journals.upstream cursor = some source) (known : cursor ∈ seen) :
      LineageLoop journals seen cursor false
  | climb {seen : List String} {cursor source : String} {ends : Bool}
      (above : journals.upstream cursor = some source) (fresh : cursor ∉ seen)
      (later : LineageLoop journals (cursor :: seen) source ends) :
      LineageLoop journals seen cursor ends

/-- A journal with an upstream is declared. -/
theorem Journals.mem_of_upstream {journals : Journals} {id source : String}
    (above : journals.upstream id = some source) : id ∈ journals.entries.map Prod.fst := by
  obtain ⟨entry, found, _⟩ := Option.bind_eq_some_iff.mp above
  exact List.mem_map_of_mem (f := Prod.fst) (OrderedMap.find?_eq_some.mp found)

/-- The loop ends within the journals it has not seen yet, and `lineageEnds` is what it ends with. -/
theorem lineageEnds_loop {journals : Journals} (fuel : Nat) (seen : List String) (cursor : String)
    (distinct : seen.Nodup) (declared : seen ⊆ journals.entries.map Prod.fst)
    (enough : journals.entries.length < fuel + seen.length) :
    LineageLoop journals seen cursor (lineageEnds journals fuel seen cursor) := by
  induction fuel generalizing seen cursor with
  | zero =>
    have bound : seen.length ≤ (journals.entries.map Prod.fst).length :=
      distinct.length_le_of_subset declared
    rw [List.length_map] at bound
    omega
  | succ fuel ih =>
    unfold lineageEnds
    cases above : journals.upstream cursor with
    | none => exact .ended above
    | some source =>
      by_cases known : cursor ∈ seen
      · show LineageLoop journals seen cursor (if cursor ∈ seen then false else _)
        rw [if_pos known]
        exact .cycle above known
      · show LineageLoop journals seen cursor (if cursor ∈ seen then false else _)
        rw [if_neg known]
        apply LineageLoop.climb above known
        apply ih
        · exact List.nodup_cons.mpr ⟨known, distinct⟩
        · exact List.cons_subset.mpr ⟨Journals.mem_of_upstream above, declared⟩
        · rw [List.length_cons]
          omega

/-- A lineage the loop ends without a cycle leads to a journal without an upstream. -/
theorem ancestor_of_lineageEnds {journals : Journals} {fuel : Nat} {seen : List String}
    {cursor : String} (ends : lineageEnds journals fuel seen cursor = true) :
    ∃ steps root, steps < fuel ∧ journals.ancestor steps cursor = some root ∧
      journals.upstream root = none := by
  induction fuel generalizing seen cursor with
  | zero => cases ends
  | succ fuel ih =>
    unfold lineageEnds at ends
    cases above : journals.upstream cursor with
    | none => exact ⟨0, cursor, Nat.succ_pos fuel, rfl, above⟩
    | some source =>
      rw [above] at ends
      have later : lineageEnds journals fuel (cursor :: seen) source = true := by
        by_cases known : cursor ∈ seen
        · simp [known] at ends
        · simpa [known] using ends
      obtain ⟨steps, root, within, reached, top⟩ := ih later
      refine ⟨steps + 1, root, Nat.succ_lt_succ within, ?_, top⟩
      rw [Journals.ancestor, above]
      exact reached

/-- Climbing on from where one has climbed to. -/
theorem Journals.ancestor_add (journals : Journals) (steps more : Nat) (id : String) :
    journals.ancestor (steps + more) id = (journals.ancestor steps id).bind (journals.ancestor more) := by
  induction steps generalizing id with
  | zero =>
    rw [Nat.zero_add]
    rfl
  | succ steps ih =>
    rw [Nat.add_right_comm, Journals.ancestor, Journals.ancestor, Option.bind_assoc]
    exact Option.bind_congr fun source _ => ih source

/-- Nothing is above a journal without an upstream. -/
theorem Journals.ancestor_past_root {journals : Journals} {steps : Nat} {id root : String}
    (reached : journals.ancestor steps id = some root) (top : journals.upstream root = none)
    (more : Nat) : journals.ancestor (steps + (more + 1)) id = none := by
  rw [Journals.ancestor_add, reached]
  show (journals.upstream root).bind (journals.ancestor more) = none
  rw [top]
  rfl

/-- A journal above itself is above itself any number of times over. -/
theorem Journals.ancestor_round {journals : Journals} {steps : Nat} {id : String}
    (back : journals.ancestor steps id = some id) (rounds : Nat) :
    journals.ancestor (steps * rounds) id = some id := by
  induction rounds with
  | zero => rfl
  | succ rounds ih =>
    rw [Nat.mul_succ, Journals.ancestor_add, ih]
    exact back

/-- A lineage that leads to a journal without an upstream never comes back. -/
theorem Journals.ancestor_ne_self {journals : Journals} {steps : Nat} {id root : String}
    (reached : journals.ancestor steps id = some root) (top : journals.upstream root = none)
    {turn : Nat} (positive : 0 < turn) : journals.ancestor turn id ≠ some id := by
  intro back
  have round := journals.ancestor_round back (steps + 1)
  have far : steps + 1 ≤ turn * (steps + 1) := Nat.le_mul_of_pos_left _ positive
  have past := Journals.ancestor_past_root reached top (turn * (steps + 1) - (steps + 1))
  rw [show steps + (turn * (steps + 1) - (steps + 1) + 1) = turn * (steps + 1) by omega] at past
  rw [round] at past
  cases past

/-- Every journal leads, in at most as many steps as there are journals, to a canonical journal
without a source; every named source is declared; no two journals share a store path. -/
structure Journals.Rooted (journals : Journals) : Prop where
  ends : ∀ id ∈ journals.entries.map Prod.fst, ∃ steps root entry,
    steps ≤ journals.entries.length ∧ journals.ancestor steps id = some root ∧
      journals.find? root = some entry ∧ entry.role = .canonical ∧ entry.sourceJournal = none
  named : ∀ declared ∈ journals.entries, ∀ source ∈ declared.2.sourceJournal,
    journals.contains source = true
  apart : (journals.entries.map fun declared => declared.2.storePath).Nodup

/-- A lineage of the map comes back to one of its journals, or names a source that the map does
not declare. A journal that follows itself comes back in one step. -/
def Journals.Broken (journals : Journals) : Prop :=
  (∃ id ∈ journals.entries.map Prod.fst, ∃ start steps turn, journals.ancestor steps id = some start ∧
    0 < turn ∧ journals.ancestor turn start = some start) ∨
  ∃ declared ∈ journals.entries, ∃ source ∈ declared.2.sourceJournal,
    journals.contains source = false

/-- A rooted map is not broken. -/
theorem Journals.Rooted.not_broken {journals : Journals} (rooted : journals.Rooted) :
    ¬journals.Broken := by
  rintro (⟨id, member, start, steps, turn, reached, positive, back⟩ |
    ⟨declared, member, source, names, absent⟩)
  · have inside : start ∈ journals.entries.map Prod.fst := by
      obtain ⟨less, rfl⟩ : ∃ less, turn = less + 1 := ⟨turn - 1, by omega⟩
      obtain ⟨source, above, _⟩ := Option.bind_eq_some_iff.mp back
      exact Journals.mem_of_upstream above
    obtain ⟨climbed, root, entry, _, found, located, _, top⟩ := rooted.ends start inside
    have none_ : journals.upstream root = none := by
      unfold Journals.upstream
      rw [located]
      exact top
    exact Journals.ancestor_ne_self found none_ positive back
  · rw [rooted.named declared member source names] at absent
    cases absent

section
variable [PrivateEndpoints]

/-- What the role fields of a declaration that pass say of its source. -/
theorem validateRole_source {journals : Journals} {id : JournalId} {entry : JournalEntry}
    {done : Unit} (passed : validateRole journals id entry = .ok done) :
    (entry.sourceJournal = none ∧ entry.role = .canonical) ∨
      ∃ source, entry.sourceJournal = some source ∧ journals.contains source = true := by
  unfold validateRole at passed
  cases role : entry.role with
  | canonical =>
    left
    rw [role] at passed
    cases declared : entry.sourceJournal with
    | none => exact ⟨rfl, rfl⟩
    | some source => simp [declared] at passed
  | replica =>
    right
    rw [role] at passed
    obtain ⟨declared, found, rest⟩ := bind_eq_ok.mp passed
    obtain ⟨source, valid, rest⟩ := bind_eq_ok.mp rest
    obtain ⟨_, _, rest⟩ := bind_eq_ok.mp rest
    obtain ⟨_, known, _⟩ := bind_eq_ok.mp rest
    have same : source.value = declared := by
      unfold JournalId.new at valid
      split at valid
      · cases valid
        rfl
      · cases valid
    cases given : entry.sourceJournal with
    | none =>
      rw [given] at found
      cases found
    | some value =>
      rw [given] at found
      cases found
      exact ⟨declared, rfl, same ▸ require_eq_ok.mp known⟩

/-- A declaration that passes: its store path is new, and its source is sound. -/
theorem validateEntry_spec {journals : Journals} {paths after : List (String × String)}
    {declared : String × JournalEntry} (passed : validateEntry journals paths declared = .ok after) :
    declared.2.storePath ∉ paths.map Prod.fst ∧
      after.map Prod.fst = declared.2.storePath :: paths.map Prod.fst ∧
      ((declared.2.sourceJournal = none ∧ declared.2.role = .canonical) ∨
        ∃ source, declared.2.sourceJournal = some source ∧ journals.contains source = true) := by
  obtain ⟨id, _, rest⟩ := bind_eq_ok.mp passed
  obtain ⟨_, _, rest⟩ := bind_eq_ok.mp rest
  cases shared : paths.find? fun path => path.1 = declared.2.storePath with
  | some first =>
    rw [shared] at rest
    cases rest
  | none =>
    rw [shared] at rest
    obtain ⟨_, role, rest⟩ := bind_eq_ok.mp rest
    cases rest
    refine ⟨?_, rfl, validateRole_source role⟩
    intro member
    obtain ⟨path, inside, same⟩ := List.mem_map.mp member
    have apart := List.find?_eq_none.mp shared path inside
    simp [same] at apart

/-- Declarations that pass one behind the other: their store paths are apart, and their sources
are sound. -/
theorem validateEntries_spec {journals : Journals} (entries : List (String × JournalEntry))
    {paths after : List (String × String)}
    (passed : entries.foldlM (validateEntry journals) paths = .ok after) :
    (entries.map fun declared => declared.2.storePath).Nodup ∧
      (∀ declared ∈ entries, declared.2.storePath ∉ paths.map Prod.fst) ∧
      ∀ declared ∈ entries, (declared.2.sourceJournal = none ∧ declared.2.role = .canonical) ∨
        ∃ source, declared.2.sourceJournal = some source ∧ journals.contains source = true := by
  induction entries generalizing paths with
  | nil => exact ⟨List.nodup_nil, by simp, by simp⟩
  | cons declared rest ih =>
    obtain ⟨next, here, later⟩ := bind_eq_ok.mp passed
    obtain ⟨new, grown, sound⟩ := validateEntry_spec here
    obtain ⟨apart, fresh, sounds⟩ := ih later
    refine ⟨?_, ?_, ?_⟩
    · rw [List.map_cons, List.nodup_cons]
      refine ⟨?_, apart⟩
      intro member
      obtain ⟨other, inside, same⟩ := List.mem_map.mp member
      apply fresh other inside
      rw [grown, same]
      exact List.mem_cons_self
    · intro other member
      rcases List.mem_cons.mp member with rfl | inside
      · exact new
      · intro known
        apply fresh other inside
        rw [grown]
        exact List.mem_cons_of_mem _ known
    · intro other member
      rcases List.mem_cons.mp member with rfl | inside
      · exact sound
      · exact sounds other inside

/-- A topology that passes is rooted. -/
theorem validateAll_rooted {journals : Journals} {done : Unit}
    (passed : validateAll journals = .ok done) : journals.Rooted := by
  obtain ⟨_, _, rest⟩ := bind_eq_ok.mp passed
  obtain ⟨paths, entries, lineages⟩ := bind_eq_ok.mp rest
  obtain ⟨apart, _, sound⟩ := validateEntries_spec journals.entries entries
  have lineage : ∀ id ∈ journals.entries.map Prod.fst,
      lineageEnds journals (journals.entries.length + 1) [] id = true := by
    intro id member
    have each : ∀ ids : List String, ∀ done : Unit,
        ids.forM (validateLineage journals) = .ok done → id ∈ ids →
        lineageEnds journals (journals.entries.length + 1) [] id = true := by
      intro ids
      induction ids with
      | nil =>
        intro _ _ inside
        cases inside
      | cons first others ih =>
        intro done all inside
        obtain ⟨_, here, later⟩ := bind_eq_ok.mp all
        rcases List.mem_cons.mp inside with rfl | further
        · exact require_eq_ok.mp here
        · exact ih done later further
    exact each _ _ lineages member
  have stays : ∀ steps id root, id ∈ journals.entries.map Prod.fst →
      journals.ancestor steps id = some root → root ∈ journals.entries.map Prod.fst := by
    intro steps
    induction steps with
    | zero =>
      intro id root member reached
      cases reached
      exact member
    | succ steps ih =>
      intro id root member reached
      obtain ⟨source, above, later⟩ := Option.bind_eq_some_iff.mp reached
      obtain ⟨entry, found, names⟩ := Option.bind_eq_some_iff.mp above
      rcases sound _ (OrderedMap.find?_eq_some.mp found) with ⟨none_, _⟩ | ⟨value, some_, known⟩
      · rw [show entry.sourceJournal = none from none_] at names
        cases names
      · rw [show entry.sourceJournal = some value from some_] at names
        cases names
        obtain ⟨upper, located⟩ := Option.isSome_iff_exists.mp known
        exact ih _ root (List.mem_map_of_mem (f := Prod.fst) (OrderedMap.find?_eq_some.mp located)) later
  refine ⟨?_, ?_, apart⟩
  · intro id member
    obtain ⟨steps, root, within, reached, top⟩ := ancestor_of_lineageEnds (lineage id member)
    obtain ⟨declared, inside, rfl⟩ := List.mem_map.mp (stays steps id root member reached)
    have found := OrderedMap.find?_eq_some.mpr inside
    have bare : declared.2.sourceJournal = none := by
      unfold Journals.upstream at top
      rw [found] at top
      exact top
    refine ⟨steps, declared.1, declared.2, Nat.le_of_lt_succ within, reached, found, ?_, bare⟩
    rcases sound declared inside with ⟨_, canonical⟩ | ⟨source, some_, _⟩
    · exact canonical
    · rw [bare] at some_
      cases some_
  · intro declared member source names
    rcases sound declared member with ⟨none_, _⟩ | ⟨value, some_, known⟩
    · rw [none_] at names
      cases names
    · rw [some_] at names
      cases names
      exact known

/-- The lineage loop of every journal ends; a topology that resolves any journal is rooted; and a
broken one resolves none. -/
theorem resolveJournal_lineage (primary : String) (journals : Journals) (selected : Option String) :
    (∀ id, LineageLoop journals [] id
      (lineageEnds journals (journals.entries.length + 1) [] id)) ∧
    (∀ resolved, resolveJournal primary journals selected = .ok resolved → journals.Rooted) ∧
    (journals.Broken → ∃ error, resolveJournal primary journals selected = .error error) := by
  have rooted : ∀ resolved, resolveJournal primary journals selected = .ok resolved →
      journals.Rooted := by
    intro resolved passed
    obtain ⟨_, _, rest⟩ := bind_eq_ok.mp passed
    obtain ⟨_, _, rest⟩ := bind_eq_ok.mp rest
    obtain ⟨_, _, rest⟩ := bind_eq_ok.mp rest
    obtain ⟨_, valid, _⟩ := bind_eq_ok.mp rest
    exact validateAll_rooted valid
  refine ⟨?_, rooted, ?_⟩
  · intro id
    apply lineageEnds_loop
    · exact List.nodup_nil
    · exact List.nil_subset _
    · simp
  · intro broken
    cases resolution : resolveJournal primary journals selected with
    | error error => exact ⟨error, rfl⟩
    | ok resolved => exact absurd broken (rooted resolved resolution).not_broken

end

end Texo.Config
