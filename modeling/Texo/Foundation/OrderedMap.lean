import Mathlib.Algebra.GroupWithZero.Nat
import Mathlib.Data.List.Nodup
import Mathlib.Data.String.Basic

/-! # Ordered maps

A finite map kept as its entries in ascending key order, which is the order it is visited
in. Replacing a value in place keeps the keys.
-/
namespace Texo.Foundation

/-- `BTreeMap`: entries in strictly ascending key order. -/
structure OrderedMap (Key Value : Type) [LT Key] where
  entries : List (Key × Value)
  ordered : (entries.map Prod.fst).Pairwise (· < ·)

namespace OrderedMap

variable {Key Value : Type} [LinearOrder Key]

/-- The map without entries. -/
def empty : OrderedMap Key Value := ⟨[], List.Pairwise.nil⟩

/-- The map of one entry. -/
def singleton (key : Key) (value : Value) : OrderedMap Key Value :=
  ⟨[(key, value)], List.pairwise_singleton _ _⟩

/-- `BTreeMap::get`. -/
def find? (map : OrderedMap Key Value) (key : Key) : Option Value :=
  (map.entries.find? fun entry => entry.1 = key).map Prod.snd

/-- `BTreeMap::contains_key`. -/
def contains (map : OrderedMap Key Value) (key : Key) : Bool := (map.find? key).isSome

/-- The entry of a key, rewritten. -/
def rewrite (key : Key) (change : Value → Value) (entry : Key × Value) : Key × Value :=
  if entry.1 = key then (entry.1, change entry.2) else entry

/-- Rewriting keeps the key. -/
theorem rewrite_key (key : Key) (change : Value → Value) (entry : Key × Value) :
    (rewrite key change entry).1 = entry.1 := by
  unfold rewrite
  split
  · rfl
  · rfl

/-- `BTreeMap::get_mut`: the value of a key changed in place. -/
def modify (map : OrderedMap Key Value) (key : Key) (change : Value → Value) :
    OrderedMap Key Value where
  entries := map.entries.map (rewrite key change)
  ordered := by
    rw [List.map_map]
    have same : (Prod.fst ∘ rewrite key change) = (Prod.fst : Key × Value → Key) :=
      funext fun entry => rewrite_key key change entry
    rw [same]
    exact map.ordered

/-- The keys of a map are distinct. -/
theorem keys_nodup (map : OrderedMap Key Value) : (map.entries.map Prod.fst).Nodup :=
  map.ordered.imp fun below => ne_of_lt below

/-- A value is found where its entry is listed. -/
theorem find?_eq_some {map : OrderedMap Key Value} {key : Key} {value : Value} :
    map.find? key = some value ↔ (key, value) ∈ map.entries := by
  constructor
  · intro found
    obtain ⟨entry, located, rfl⟩ := Option.map_eq_some_iff.mp found
    have named : entry.1 = key := by simpa using List.find?_some located
    rw [← named]
    exact List.mem_of_find?_eq_some located
  · intro member
    unfold find?
    cases located : map.entries.find? fun entry => entry.1 = key with
    | none =>
      have absent := List.find?_eq_none.mp located (key, value) member
      simp at absent
    | some entry =>
      have named : entry.1 = key := by simpa using List.find?_some located
      have inside := List.mem_of_find?_eq_some located
      have same : entry = (key, value) :=
        List.inj_on_of_nodup_map map.keys_nodup inside member named
      rw [same, Option.map_some]

/-- The entries of a map that pass a test keep their order. -/
def filter (map : OrderedMap Key Value) (keeps : Key × Value → Bool) : OrderedMap Key Value where
  entries := map.entries.filter keeps
  ordered := map.ordered.sublist (List.filter_sublist.map Prod.fst)

/-- `BTreeMap::remove`. -/
def erase (map : OrderedMap Key Value) (key : Key) : OrderedMap Key Value :=
  map.filter fun entry => entry.1 ≠ key

/-- `BTreeMap::insert`. -/
def insert (map : OrderedMap Key Value) (key : Key) (value : Value) : OrderedMap Key Value where
  entries := map.entries.filter (fun entry => entry.1 < key) ++
    (key, value) :: map.entries.filter fun entry => key < entry.1
  ordered := by
    rw [List.map_append, List.map_cons, List.pairwise_append, List.pairwise_cons]
    have sorted : ∀ keeps : Key × Value → Bool,
        ((map.entries.filter keeps).map Prod.fst).Pairwise (· < ·) :=
      fun keeps => (map.filter keeps).ordered
    have below : ∀ first ∈ (map.entries.filter fun entry => entry.1 < key).map Prod.fst,
        first < key := by
      intro first member
      obtain ⟨entry, inside, rfl⟩ := List.mem_map.mp member
      exact of_decide_eq_true (List.mem_filter.mp inside).2
    have above : ∀ last ∈ (map.entries.filter fun entry => key < entry.1).map Prod.fst,
        key < last := by
      intro last member
      obtain ⟨entry, inside, rfl⟩ := List.mem_map.mp member
      exact of_decide_eq_true (List.mem_filter.mp inside).2
    refine ⟨sorted _, ⟨above, sorted _⟩, ?_⟩
    intro first firstIn other otherIn
    have lower := below first firstIn
    rcases List.mem_cons.mp otherIn with same | upper
    · rw [same]
      exact lower
    · exact lt_trans lower (above other upper)

/-- A lookup after a removal. -/
theorem find?_erase (map : OrderedMap Key Value) (key other : Key) :
    (map.erase key).find? other = if other = key then none else map.find? other := by
  apply Option.ext
  intro value
  rw [find?_eq_some]
  show (other, value) ∈ map.entries.filter _ ↔ _
  rw [List.mem_filter]
  by_cases same : other = key
  · simp [same]
  · simp only [same, if_false, find?_eq_some]
    simp [same]

/-- A lookup after an insertion. -/
theorem find?_insert (map : OrderedMap Key Value) (key : Key) (value : Value) (other : Key) :
    (map.insert key value).find? other = if other = key then some value else map.find? other := by
  apply Option.ext
  intro found
  rw [find?_eq_some]
  show (other, found) ∈ map.entries.filter _ ++ (key, value) :: map.entries.filter _ ↔ _
  rw [List.mem_append, List.mem_cons, List.mem_filter, List.mem_filter]
  by_cases same : other = key
  · simp only [same, Prod.mk.injEq, true_and, lt_irrefl, decide_false, Bool.false_eq_true, and_false,
      or_false, false_or, if_true, Option.some.injEq]
    exact eq_comm
  · have sides : other < key ∨ key < other := lt_or_gt_of_ne same
    simp only [same, Prod.mk.injEq, false_and, false_or, if_false, find?_eq_some, decide_eq_true_eq]
    constructor
    · intro either
      rcases either with ⟨inside, _⟩ | ⟨inside, _⟩
      · exact inside
      · exact inside
    · intro inside
      rcases sides with below | above
      · exact Or.inl ⟨inside, below⟩
      · exact Or.inr ⟨inside, above⟩

/-- Maps that answer every lookup alike are one map. -/
theorem ext_find? {left right : OrderedMap Key Value}
    (same : ∀ key, left.find? key = right.find? key) : left = right := by
  have members : ∀ entry, entry ∈ left.entries ↔ entry ∈ right.entries := by
    intro entry
    have found := same entry.1
    have left_ : left.find? entry.1 = some entry.2 ↔ entry ∈ left.entries := find?_eq_some
    rw [← left_, found, find?_eq_some]
  have distinct : ∀ map : OrderedMap Key Value, map.entries.Nodup :=
    fun map => map.keys_nodup.of_map
  have listed := (List.perm_ext_iff_of_nodup (distinct left) (distinct right)).mpr members
  have sorted : ∀ map : OrderedMap Key Value, map.entries.Pairwise fun a b => a.1 < b.1 :=
    fun map => List.pairwise_map.mp map.ordered
  have entries := listed.eq_of_pairwise
    (fun a b _ _ before after => absurd (lt_trans before after) (lt_irrefl a.1))
    (sorted left) (sorted right)
  cases left
  cases right
  cases entries
  rfl

/-- An empty map answers nothing. -/
theorem find?_empty (key : Key) : (empty : OrderedMap Key Value).find? key = none := rfl

/-- The sum of a size over the values of a map. -/
def total (map : OrderedMap Key Value) (size : Value → Nat) : Nat :=
  (map.entries.map fun entry => size entry.2).sum

/-- A sum over entries is the sum below a key, at it and above it. -/
theorem sum_sides (entries : List (Key × Value)) (key : Key) (size : Value → Nat) :
    (entries.map fun entry => size entry.2).sum =
      ((entries.filter fun entry => entry.1 < key).map fun entry => size entry.2).sum +
        ((entries.filter fun entry => entry.1 = key).map fun entry => size entry.2).sum +
        ((entries.filter fun entry => key < entry.1).map fun entry => size entry.2).sum := by
  induction entries with
  | nil => rfl
  | cons entry rest ih =>
    rcases lt_trichotomy entry.1 key with below | same | above
    · have apart : entry.1 ≠ key := ne_of_lt below
      have under : ¬ key < entry.1 := not_lt_of_gt below
      simp only [List.filter_cons, below, apart, under, decide_true, decide_false, if_true,
        Bool.false_eq_true, if_false, List.map_cons, List.sum_cons, ih]
      omega
    · have apart : ¬ key < key := lt_irrefl key
      simp only [List.filter_cons, same, apart, decide_true, decide_false, if_true,
        Bool.false_eq_true, if_false, List.map_cons, List.sum_cons, ih]
      omega
    · have apart : entry.1 ≠ key := ne_of_gt above
      have notBelow : ¬ entry.1 < key := not_lt_of_gt above
      simp only [List.filter_cons, notBelow, apart, above, decide_true, decide_false, if_true,
        Bool.false_eq_true, if_false, List.map_cons, List.sum_cons, ih]
      omega

/-- The entries at a key are the one found there. -/
theorem filter_key (map : OrderedMap Key Value) (key : Key) :
    map.entries.filter (fun entry => entry.1 = key) =
      ((map.find? key).map fun value => (key, value)).toList := by
  have single : ∀ entries : List (Key × Value), (entries.map Prod.fst).Nodup →
      entries.filter (fun entry => entry.1 = key) =
        (entries.find? fun entry => entry.1 = key).toList := by
    intro entries distinct
    induction entries with
    | nil => rfl
    | cons entry rest ih =>
      obtain ⟨fresh, distinct⟩ := List.nodup_cons.mp distinct
      by_cases same : entry.1 = key
      · have none : rest.filter (fun entry => entry.1 = key) = [] := by
          rw [List.filter_eq_nil_iff]
          intro other inside
          have apart : other.1 ≠ key := by
            intro named
            exact fresh (same.trans named.symm ▸ List.mem_map_of_mem inside)
          simpa using apart
        simp [same, none]
      · simp [same, ih distinct]
  rw [single _ map.keys_nodup]
  unfold find?
  cases located : map.entries.find? fun entry => entry.1 = key with
  | none => rfl
  | some entry =>
    have named : entry.1 = key := by simpa using List.find?_some located
    simp [← named]

/-- A total is what stands at a key beside the total without it. -/
theorem total_erase (map : OrderedMap Key Value) (key : Key) (size : Value → Nat) :
    (map.erase key).total size + (map.find? key).elim 0 size = map.total size := by
  have here := sum_sides map.entries key size
  have kept := sum_sides (map.erase key).entries key size
  have below : (map.erase key).entries.filter (fun entry => entry.1 < key) =
      map.entries.filter fun entry => entry.1 < key := by
    show (map.entries.filter _).filter _ = _
    rw [List.filter_filter]
    apply List.filter_congr
    intro entry _
    by_cases lower : entry.1 < key
    · simp [lower, ne_of_lt lower]
    · simp [lower]
  have above : (map.erase key).entries.filter (fun entry => key < entry.1) =
      map.entries.filter fun entry => key < entry.1 := by
    show (map.entries.filter _).filter _ = _
    rw [List.filter_filter]
    apply List.filter_congr
    intro entry _
    by_cases upper : key < entry.1
    · simp [upper, ne_of_gt upper]
    · simp [upper]
  have gone : (map.erase key).find? key = none := by rw [find?_erase, if_pos rfl]
  rw [below, above, filter_key, gone] at kept
  rw [filter_key] at here
  unfold total
  cases found : map.find? key with
  | none =>
    rw [found] at here
    simp only [Option.map_none, Option.toList_none, List.map_nil, List.sum_nil] at here kept
    simp only [Option.elim_none]
    omega
  | some value =>
    rw [found] at here
    simp only [Option.map_some, Option.toList_some, List.map_cons, List.map_nil, List.sum_cons,
      List.sum_nil, Option.map_none, Option.toList_none] at here kept
    simp only [Option.elim_some]
    omega

/-- A total after an insertion: what stood at the key is replaced. -/
theorem total_insert (map : OrderedMap Key Value) (key : Key) (value : Value)
    (size : Value → Nat) :
    (map.insert key value).total size + (map.find? key).elim 0 size =
      map.total size + size value := by
  have here := sum_sides map.entries key size
  have placed : (map.insert key value).total size =
      ((map.entries.filter fun entry => entry.1 < key).map fun entry => size entry.2).sum +
        (size value +
          ((map.entries.filter fun entry => key < entry.1).map fun entry => size entry.2).sum) := by
    show (List.map _ (_ ++ _ :: _)).sum = _
    rw [List.map_append, List.map_cons, List.sum_append, List.sum_cons]
  rw [filter_key] at here
  rw [placed]
  unfold total
  cases found : map.find? key with
  | none =>
    rw [found] at here
    simp only [Option.map_none, Option.toList_none, List.map_nil, List.sum_nil] at here
    simp only [Option.elim_none]
    omega
  | some held =>
    rw [found] at here
    simp only [Option.map_some, Option.toList_some, List.map_cons, List.map_nil, List.sum_cons,
      List.sum_nil] at here
    simp only [Option.elim_some]
    omega

/-- As many entries as a total of ones. -/
theorem total_one (map : OrderedMap Key Value) :
    map.total (fun _ => 1) = map.entries.length := by
  unfold total
  simp

end OrderedMap
end Texo.Foundation
