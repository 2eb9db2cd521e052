import Mathlib.Data.List.Basic
import Mathlib.Data.List.Nodup
import Mathlib.Data.List.Range
import Mathlib.Tactic.Ring

/-! # Lexicographic pair enumeration

All index pairs `left < right` below a length, row by row, and a cursor that walks
any list by seeking once and then stepping. The laws here say that such a walk from
an ordinal visits exactly a window of the list, each element under its ordinal.
-/
namespace Texo.Foundation

/-- The rows from `left` on, when `width` further indices follow it. -/
def pairRows : Nat → Nat → List (Nat × Nat)
  | 0, _ => []
  | width + 1, left =>
    ((List.range (width + 1)).map fun step => (left, left + 1 + step)) ++ pairRows width (left + 1)

/-- All pairs of indices below a length in lexicographic order. -/
def indexPairs (length : Nat) : List (Nat × Nat) := pairRows (length - 1) 0

/-- There are half as many pairs as ordered choices of two. -/
theorem length_pairRows (width left : Nat) :
    (pairRows width left).length = width * (width + 1) / 2 := by
  induction width generalizing left with
  | zero => simp [pairRows]
  | succ width ih =>
    rw [pairRows, List.length_append, List.length_map, List.length_range, ih]
    have split : (width + 1) * (width + 1 + 1) = width * (width + 1) + (width + 1) * 2 := by ring
    rw [split, Nat.add_mul_div_right _ _ (by decide)]
    omega

/-- The pair count of a length. -/
theorem length_indexPairs (length : Nat) :
    (indexPairs length).length = length * (length - 1) / 2 := by
  rw [indexPairs, length_pairRows]
  cases length with
  | zero => rfl
  | succ width => rw [Nat.add_sub_cancel, Nat.mul_comm]

/-- Which pairs a row enumeration holds. -/
theorem mem_pairRows {width left : Nat} {pair : Nat × Nat} :
    pair ∈ pairRows width left ↔ left ≤ pair.1 ∧ pair.1 < pair.2 ∧ pair.2 ≤ left + width := by
  induction width generalizing left with
  | zero =>
    simp only [pairRows, List.not_mem_nil, false_iff]
    omega
  | succ width ih =>
    rw [pairRows, List.mem_append, ih]
    constructor
    · rintro (first | later)
      · obtain ⟨step, below, rfl⟩ := List.mem_map.mp first
        have bound := List.mem_range.mp below
        refine ⟨Nat.le_refl _, ?_, ?_⟩
        · show left < left + 1 + step
          omega
        · show left + 1 + step ≤ left + (width + 1)
          omega
      · omega
    · rintro ⟨atLeast, less, atMost⟩
      by_cases first : pair.1 = left
      · refine Or.inl (List.mem_map.mpr ⟨pair.2 - left - 1, ?_, ?_⟩)
        · rw [List.mem_range]
          omega
        · apply Prod.ext
          · exact first.symm
          · show left + 1 + (pair.2 - left - 1) = pair.2
            omega
      · exact Or.inr (by omega)

/-- The enumeration holds every pair `left < right` below the length and no other. -/
theorem mem_indexPairs {length : Nat} {pair : Nat × Nat} :
    pair ∈ indexPairs length ↔ pair.1 < pair.2 ∧ pair.2 < length := by
  rw [indexPairs, mem_pairRows]
  omega

/-- No pair is enumerated twice. -/
theorem nodup_pairRows (width left : Nat) : (pairRows width left).Nodup := by
  induction width generalizing left with
  | zero => simp [pairRows]
  | succ width ih =>
    rw [pairRows]
    refine List.nodup_append.mpr ⟨?_, ih (left + 1), ?_⟩
    · refine List.Nodup.map ?_ List.nodup_range
      intro a b same
      have right := congrArg Prod.snd same
      have sum : left + 1 + a = left + 1 + b := right
      omega
    · intro pair first other later same
      subst same
      obtain ⟨step, _, rfl⟩ := List.mem_map.mp first
      have bound := (mem_pairRows.mp later).1
      have impossible : left + 1 ≤ left := bound
      omega

/-- No pair is enumerated twice. -/
theorem nodup_indexPairs (length : Nat) : (indexPairs length).Nodup := nodup_pairRows _ _

/-- The pair at an offset of a row enumeration. -/
def seekRow : Nat → Nat → Nat → Option (Nat × Nat)
  | 0, _, _ => none
  | width + 1, left, offset =>
    if offset < width + 1 then some (left, left + 1 + offset)
    else seekRow width (left + 1) (offset - (width + 1))

/-- Seeking computes the lookup. -/
theorem seekRow_eq (width left offset : Nat) :
    seekRow width left offset = (pairRows width left)[offset]? := by
  induction width generalizing left offset with
  | zero => simp [seekRow, pairRows]
  | succ width ih =>
    rw [seekRow, pairRows]
    by_cases inside : offset < width + 1
    · rw [if_pos inside, List.getElem?_append_left (by simpa using inside)]
      simp [inside]
    · rw [if_neg inside, List.getElem?_append_right (by simpa using inside), ih]
      simp

/-- The pair after a given one below a length. -/
def nextRow (length : Nat) (left right : Nat) : Option (Nat × Nat) :=
  if right + 1 < length then some (left, right + 1)
  else if left + 2 < length then some (left + 1, left + 2)
  else none

/-- Stepping computes the successor in the enumeration. -/
theorem nextRow_eq {width start offset left right : Nat}
    (found : (pairRows width start)[offset]? = some (left, right)) :
    nextRow (start + width + 1) left right = (pairRows width start)[offset + 1]? := by
  induction width generalizing start offset with
  | zero => simp [pairRows] at found
  | succ width ih =>
    rw [pairRows] at found ⊢
    by_cases inside : offset < width + 1
    · rw [List.getElem?_append_left (by simpa using inside)] at found
      simp only [List.getElem?_map, List.getElem?_range inside, Option.map_some,
        Option.some.injEq, Prod.mk.injEq] at found
      obtain ⟨rfl, rfl⟩ := found
      by_cases more : offset + 1 < width + 1
      · rw [List.getElem?_append_left (by simpa using more)]
        have below : start + 1 + offset + 1 < start + (width + 1) + 1 := by omega
        simp [nextRow, below, more]
        omega
      · have last : offset = width := by omega
        subst last
        have past : ¬ start + 1 + offset + 1 < start + (offset + 1) + 1 := by omega
        rw [List.getElem?_append_right (by simp)]
        simp only [nextRow, past, if_false, List.length_map, List.length_range, Nat.sub_self]
        cases offset with
        | zero =>
          have none_left : ¬ start + 2 < start + (0 + 1) + 1 := by omega
          simp [pairRows]
        | succ width =>
          have below : start + 2 < start + (width + 1 + 1) + 1 := by omega
          simp [pairRows, below]
    · rw [List.getElem?_append_right (by simpa using inside)] at found
      rw [List.getElem?_append_right (by simp; omega)]
      have step := ih found
      simp only [List.length_map, List.length_range] at step ⊢
      have reach : start + (width + 1) + 1 = start + 1 + width + 1 := by omega
      rw [reach, step]
      congr 1
      omega

variable {Item : Type}

/-- A walk of at most so many steps from a position, each item under its ordinal. -/
def walk (next : Item → Option Item) : Nat → Nat → Option Item → List (Nat × Item)
  | 0, _, _ => []
  | _ + 1, _, none => []
  | count + 1, ordinal, some item => (ordinal, item) :: walk next count (ordinal + 1) (next item)

/-- A window of a list, each item under its ordinal. -/
def window (items : List Item) (start count : Nat) : List (Nat × Item) :=
  ((items.drop start).take count).zipIdx start |>.map Prod.swap

/-- A walk that starts at an ordinal and steps to the successor visits a window. -/
theorem walk_eq_window {next : Item → Option Item} {items : List Item}
    (steps : ∀ ordinal item, items[ordinal]? = some item → next item = items[ordinal + 1]?)
    (count start : Nat) : walk next count start items[start]? = window items start count := by
  induction count generalizing start with
  | zero => simp [walk, window]
  | succ count ih =>
    cases found : items[start]? with
    | none =>
      have past : items.length ≤ start := List.getElem?_eq_none_iff.mp found
      simp [walk, window, List.drop_eq_nil_of_le past]
    | some item =>
      rw [walk, steps start item found, ih (start + 1)]
      obtain ⟨inside, at_start⟩ := List.getElem?_eq_some_iff.mp found
      have split : items.drop start = item :: items.drop (start + 1) := by
        rw [← at_start]
        exact List.drop_eq_getElem_cons inside
      simp [window, split]

/-- What a window holds: the items at its ordinals. -/
theorem mem_window {items : List Item} {start count ordinal : Nat} {item : Item} :
    (ordinal, item) ∈ window items start count ↔
      start ≤ ordinal ∧ ordinal < start + count ∧ items[ordinal]? = some item := by
  simp only [window, List.mem_map, Prod.exists, Prod.swap_prod_mk, Prod.mk.injEq]
  constructor
  · rintro ⟨value, index, member, rfl, rfl⟩
    obtain ⟨atLeast, lookup⟩ := List.mk_mem_zipIdx_iff_le_and_getElem?_sub.mp member
    rw [List.getElem?_take] at lookup
    split at lookup
    · rename_i inside
      rw [List.getElem?_drop] at lookup
      have whole : start + (index - start) = index := by omega
      rw [whole] at lookup
      exact ⟨atLeast, by omega, lookup⟩
    · cases lookup
  · rintro ⟨atLeast, below, lookup⟩
    refine ⟨item, ordinal, ?_, rfl, rfl⟩
    rw [List.mk_mem_zipIdx_iff_le_and_getElem?_sub]
    refine ⟨atLeast, ?_⟩
    rw [List.getElem?_take, if_pos (by omega), List.getElem?_drop]
    have whole : start + (ordinal - start) = ordinal := by omega
    rw [whole]
    exact lookup

/-- Two windows that meet are one. -/
theorem window_append (items : List Item) (start count more : Nat) :
    window items start count ++ window items (start + count) more =
      window items start (count + more) := by
  induction count generalizing start with
  | zero => simp [window]
  | succ count ih =>
    by_cases inside : start < items.length
    · have split : items.drop start = items[start] :: items.drop (start + 1) :=
        List.drop_eq_getElem_cons inside
      have rest := ih (start + 1)
      have meet : start + 1 + count = start + (count + 1) := by omega
      have whole : count + 1 + more = count + more + 1 := by omega
      rw [meet] at rest
      simp only [window, split, whole, List.take_succ_cons, List.zipIdx_cons, List.map_cons,
        List.cons_append] at rest ⊢
      rw [rest]
    · have past : items.drop start = [] := List.drop_eq_nil_of_le (by omega)
      have further : items.drop (start + (count + 1)) = [] := List.drop_eq_nil_of_le (by omega)
      simp [window, past, further]

/-- The window over a whole list is the list under its ordinals. -/
theorem map_snd_window (items : List Item) (start count : Nat) :
    (window items start count).map Prod.snd = (items.drop start).take count := by
  rw [window, List.map_map]
  exact List.zipIdx_map_fst start _

end Texo.Foundation
