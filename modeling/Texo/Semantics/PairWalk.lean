import Texo.Semantics.Candidate
import Texo.Semantics.Score

/-! # Walking the pair order in machine words

The slots of a list of clusters stand in one order: cluster, left position, right position. The
walk seeks its first slot by counting pairs in 64-bit words and then steps. The steps are always
right; the count is, up to the size at which its product saturates.
-/
namespace Texo.Semantics
open Texo.Foundation

/-- `pair_count`, in 64-bit words. -/
def pairCount64 (length : Nat) : Nat := saturatingMul length (length - 1) / 2

/-- `seek_pair` in 64-bit words, from one cluster on. -/
def seekPair64From : Nat → List (List Nat) → Nat → Option (Nat × Nat × Nat)
  | _, [], _ => none
  | clusterIdx, cluster :: rest, offset =>
    if pairCount64 cluster.length ≤ offset then
      seekPair64From (clusterIdx + 1) rest (offset - pairCount64 cluster.length)
    else
      (seekRow (cluster.length - 1) 0 offset).map fun pair => (clusterIdx, pair.1, pair.2)

/-- `seek_pair`, in 64-bit words. -/
def seekPair64 (clusters : List (List Nat)) (offset : Nat) : Option (Nat × Nat × Nat) :=
  seekPair64From 0 clusters offset

/-- The pairs of some clusters. -/
def totalPairs (clusters : List (List Nat)) : Nat :=
  (clusters.map fun cluster => pairCount cluster.length).sum

/-- The slots of clusters from one on, in order. -/
def slotsFrom : Nat → List (List Nat) → List (Nat × Nat × Nat)
  | _, [] => []
  | clusterIdx, cluster :: rest =>
    ((indexPairs cluster.length).map fun pair => (clusterIdx, pair.1, pair.2)) ++
      slotsFrom (clusterIdx + 1) rest

/-- The slots of some clusters, in order. -/
def slots (clusters : List (List Nat)) : List (Nat × Nat × Nat) := slotsFrom 0 clusters

/-- The order of slots: cluster, left position, right position. -/
def slotLt (first second : Nat × Nat × Nat) : Prop :=
  first.1 < second.1 ∨ (first.1 = second.1 ∧ (first.2.1 < second.2.1 ∨
    (first.2.1 = second.2.1 ∧ first.2.2 < second.2.2)))

/-- The slots a page visits, each under its number. -/
def pageSlots (clusters : List (List Nat)) (start stop : Nat) : List (Nat × Nat × Nat × Nat) :=
  walk (nextPair clusters) (stop - start) start (seekPair64 clusters start)

/-- There are as many slots as pairs. -/
theorem length_slotsFrom (clusterIdx : Nat) (clusters : List (List Nat)) :
    (slotsFrom clusterIdx clusters).length = totalPairs clusters := by
  induction clusters generalizing clusterIdx with
  | nil => rfl
  | cons cluster rest ih =>
    have here := length_indexPairs cluster.length
    have later := ih (clusterIdx + 1)
    simp only [slotsFrom, List.length_append, List.length_map, totalPairs, List.map_cons,
      List.sum_cons] at later ⊢
    rw [here, later, pairCount]

/-- Seeking with exact counts finds the slot at its number. -/
theorem seekPairFrom_eq (clusterIdx : Nat) (clusters : List (List Nat)) (offset : Nat) :
    seekPairFrom clusterIdx clusters offset = (slotsFrom clusterIdx clusters)[offset]? := by
  induction clusters generalizing clusterIdx offset with
  | nil => rfl
  | cons cluster rest ih =>
    have count : (indexPairs cluster.length).length = pairCount cluster.length :=
      length_indexPairs cluster.length
    rw [seekPairFrom, slotsFrom]
    by_cases past : pairCount cluster.length ≤ offset
    · rw [if_pos past, List.getElem?_append_right (by simpa [count] using past),
        List.length_map, count]
      exact ih (clusterIdx + 1) (offset - pairCount cluster.length)
    · have inside : offset < (indexPairs cluster.length).length := by
        rw [count]
        exact Nat.lt_of_not_le past
      rw [if_neg past, List.getElem?_append_left (by simpa using inside), List.getElem?_map,
        seekRow_eq]
      rfl

/-- The first slot of the clusters from one on is the first pair of the first that has one. -/
theorem head_slotsFrom (clusterIdx : Nat) (clusters : List (List Nat)) :
    (slotsFrom clusterIdx clusters)[0]? =
      ((clusters.zipIdx clusterIdx).find? fun row => 2 ≤ row.1.length).map fun row =>
        (row.2, 0, 1) := by
  induction clusters generalizing clusterIdx with
  | nil => rfl
  | cons cluster rest ih =>
    rw [slotsFrom, List.zipIdx_cons, List.find?_cons]
    by_cases paired : 2 ≤ cluster.length
    · obtain ⟨more, size⟩ : ∃ more, cluster.length = more + 2 := ⟨cluster.length - 2, by omega⟩
      simp [size, indexPairs, pairRows, List.range_succ_eq_map]
    · have small : cluster.length - 1 = 0 := by omega
      simp only [paired, decide_false, indexPairs, small, pairRows, List.map_nil, List.nil_append]
      exact ih (clusterIdx + 1)

/-- Stepping finds the next slot. -/
theorem nextPair_eq {before rest : List (List Nat)} {ordinal : Nat} {slot : Nat × Nat × Nat}
    (found : (slotsFrom before.length rest)[ordinal]? = some slot) :
    nextPair (before ++ rest) slot = (slotsFrom before.length rest)[ordinal + 1]? := by
  induction rest generalizing before ordinal with
  | nil => cases found
  | cons cluster rest ih =>
    rw [slotsFrom] at found ⊢
    by_cases inside : ordinal < (indexPairs cluster.length).length
    · rw [List.getElem?_append_left (by simpa using inside), List.getElem?_map] at found
      obtain ⟨pair, lookup, rfl⟩ := Option.map_eq_some_iff.mp found
      have here : (before ++ cluster :: rest).getD before.length [] = cluster := by simp
      have later : (before ++ cluster :: rest).zipIdx.drop (before.length + 1) =
          rest.zipIdx (before.length + 1) := by
        rw [List.zipIdx_append, List.zipIdx_cons, List.drop_append]
        simp [List.drop_eq_nil_of_le]
      have bounds := mem_indexPairs.mp (List.mem_of_getElem? lookup)
      have width : 0 + (cluster.length - 1) + 1 = cluster.length := by omega
      have step : nextRow (0 + (cluster.length - 1) + 1) pair.1 pair.2 =
          (indexPairs cluster.length)[ordinal + 1]? := nextRow_eq lookup
      rw [width] at step
      simp only [nextPair, here, step, later]
      by_cases more : ordinal + 1 < (indexPairs cluster.length).length
      · rw [List.getElem?_append_left (by simpa using more), List.getElem?_map,
          List.getElem?_eq_getElem more]
        rfl
      · have last : ordinal + 1 = (indexPairs cluster.length).length := by omega
        rw [List.getElem?_append_right (by simp [last]), List.length_map, ← last, Nat.sub_self,
          List.getElem?_eq_none (by omega), head_slotsFrom]
    · rw [List.getElem?_append_right (by simpa using inside)] at found
      rw [List.getElem?_append_right (by simp; omega)]
      have grown : (before ++ [cluster]).length = before.length + 1 := by simp
      have joined : before ++ cluster :: rest = (before ++ [cluster]) ++ rest := by simp
      rw [← grown] at found ⊢
      rw [joined, ih found]
      congr 1
      simp only [List.length_map]
      omega

/-- A walk from a slot visits a window of the order. -/
theorem walk_slots (clusters : List (List Nat)) (count start : Nat) :
    walk (nextPair clusters) count start (seekPair clusters start) =
      window (slots clusters) start count := by
  have steps : ∀ ordinal slot, (slots clusters)[ordinal]? = some slot →
      nextPair clusters slot = (slots clusters)[ordinal + 1]? := by
    intro ordinal slot found
    have step : nextPair ([] ++ clusters) slot = (slotsFrom 0 clusters)[ordinal + 1]? :=
      nextPair_eq found
    exact step
  rw [seekPair, seekPairFrom_eq]
  exact walk_eq_window steps count start

/-- The rows of a triangle ascend. -/
theorem pairRows_sorted (width left : Nat) :
    (pairRows width left).Pairwise fun first second =>
      first.1 < second.1 ∨ (first.1 = second.1 ∧ first.2 < second.2) := by
  induction width generalizing left with
  | zero => exact List.Pairwise.nil
  | succ width ih =>
    rw [pairRows, List.pairwise_append]
    refine ⟨?_, ih (left + 1), ?_⟩
    · rw [List.pairwise_map]
      apply List.pairwise_lt_range.imp
      intro a b before
      exact Or.inr ⟨rfl, by omega⟩
    · intro first early second late
      obtain ⟨step, _, rfl⟩ := List.mem_map.mp early
      have above := (mem_pairRows.mp late).1
      exact Or.inl above

/-- A slot of the clusters from one on. -/
theorem mem_slotsFrom {clusterIdx : Nat} {clusters : List (List Nat)} {slot : Nat × Nat × Nat} :
    slot ∈ slotsFrom clusterIdx clusters ↔ clusterIdx ≤ slot.1 ∧
      ∃ cluster, clusters[slot.1 - clusterIdx]? = some cluster ∧
        slot.2.1 < slot.2.2 ∧ slot.2.2 < cluster.length := by
  induction clusters generalizing clusterIdx with
  | nil => simp [slotsFrom]
  | cons cluster rest ih =>
    rw [slotsFrom, List.mem_append, ih]
    constructor
    · intro member
      rcases member with here | ⟨above, other, found, inside⟩
      · obtain ⟨pair, listed, rfl⟩ := List.mem_map.mp here
        have bounds := mem_indexPairs.mp listed
        refine ⟨Nat.le_refl _, cluster, ?_, bounds⟩
        simp
      · have shifted : slot.1 - clusterIdx = slot.1 - (clusterIdx + 1) + 1 := by omega
        refine ⟨by omega, other, ?_, inside⟩
        rw [shifted, List.getElem?_cons_succ]
        exact found
    · intro ⟨atLeast, other, found, inside⟩
      by_cases here : slot.1 = clusterIdx
      · rw [here, Nat.sub_self, List.getElem?_cons_zero] at found
        have same := Option.some.inj found
        rw [← same] at inside
        refine Or.inl (List.mem_map.mpr ⟨slot.2, mem_indexPairs.mpr inside, ?_⟩)
        rw [← here]
      · have shifted : slot.1 - clusterIdx = slot.1 - (clusterIdx + 1) + 1 := by omega
        rw [shifted, List.getElem?_cons_succ] at found
        exact Or.inr ⟨by omega, other, found, inside⟩

/-- The slots ascend. -/
theorem slotsFrom_sorted (clusterIdx : Nat) (clusters : List (List Nat)) :
    (slotsFrom clusterIdx clusters).Pairwise slotLt := by
  induction clusters generalizing clusterIdx with
  | nil => exact List.Pairwise.nil
  | cons cluster rest ih =>
    rw [slotsFrom, List.pairwise_append]
    refine ⟨?_, ih (clusterIdx + 1), ?_⟩
    · rw [List.pairwise_map]
      apply (pairRows_sorted (cluster.length - 1) 0).imp
      intro first second before
      exact Or.inr ⟨rfl, before⟩
    · intro first early second late
      obtain ⟨pair, _, rfl⟩ := List.mem_map.mp early
      have above := (mem_slotsFrom.mp late).1
      exact Or.inl above

/-- No slot stands twice. -/
theorem slotsFrom_nodup (clusterIdx : Nat) (clusters : List (List Nat)) :
    (slotsFrom clusterIdx clusters).Nodup := by
  apply (slotsFrom_sorted clusterIdx clusters).imp
  intro first second before same
  rw [same] at before
  unfold slotLt at before
  omega

/-- Two clusters large enough to saturate a count do not fit together. -/
theorem pairCount_large {length : Nat} (large : 2 ^ 32 < length) :
    pairCount64 length = 2 ^ 63 - 1 ∧ 2 ^ 63 ≤ pairCount length := by
  have product : (2 ^ 32 + 1) * 2 ^ 32 ≤ length * (length - 1) :=
    Nat.mul_le_mul (by omega) (by omega)
  unfold pairCount64 saturatingMul pairCount
  omega

/-- A small cluster is counted exactly. -/
theorem pairCount_small {length : Nat} (small : length ≤ 2 ^ 32) :
    pairCount64 length = pairCount length := by
  have product : length * (length - 1) ≤ 2 ^ 32 * (2 ^ 32 - 1) :=
    Nat.mul_le_mul small (by omega)
  unfold pairCount64 saturatingMul pairCount
  rw [Nat.min_eq_left (by omega)]

/-- The walk starts below the pair at which the count of a large cluster saturates. -/
def StartsBelow (clusters : List (List Nat)) (start : Nat) : Prop :=
  ∀ before large after, clusters = before ++ large :: after → 2 ^ 32 < large.length →
    start < totalPairs before + (2 ^ 63 - 1)

/-- Below the pair at which a count saturates, seeking is exact. -/
theorem seekPair64From_eq {clusterIdx : Nat} {clusters : List (List Nat)} {offset : Nat}
    (below : StartsBelow clusters offset) :
    seekPair64From clusterIdx clusters offset = seekPairFrom clusterIdx clusters offset := by
  induction clusters generalizing clusterIdx offset with
  | nil => rfl
  | cons cluster rest ih =>
    rw [seekPair64From, seekPairFrom]
    by_cases large : 2 ^ 32 < cluster.length
    · have reach := below [] cluster rest rfl large
      obtain ⟨saturated, exact⟩ := pairCount_large large
      have none : totalPairs [] = 0 := rfl
      rw [if_neg (by omega), if_neg (by omega)]
    · rw [pairCount_small (by omega)]
      by_cases past : pairCount cluster.length ≤ offset
      · rw [if_pos past, if_pos past]
        apply ih
        intro before other after split size
        have reach := below (cluster :: before) other after (by rw [split]; rfl) size
        have sum : totalPairs (cluster :: before) =
            pairCount cluster.length + totalPairs before := rfl
        omega
      · rw [if_neg past, if_neg past]

/-- Small clusters before the start are skipped exactly. -/
theorem seekPair64From_skip {clusterIdx : Nat} {before rest : List (List Nat)} {offset : Nat}
    (small : ∀ cluster ∈ before, cluster.length ≤ 2 ^ 32) (past : totalPairs before ≤ offset) :
    seekPair64From clusterIdx (before ++ rest) offset =
      seekPair64From (clusterIdx + before.length) rest (offset - totalPairs before) := by
  induction before generalizing clusterIdx offset with
  | nil => rfl
  | cons cluster before ih =>
    have sum : totalPairs (cluster :: before) =
        pairCount cluster.length + totalPairs before := rfl
    rw [List.cons_append, seekPair64From, pairCount_small (small cluster List.mem_cons_self),
      if_pos (by omega), ih (fun other member => small other (List.mem_cons_of_mem _ member))
        (by omega), sum, List.length_cons]
    congr 1 <;> omega

/-- Past the pair at which a count saturates, seeking misses the slot. -/
theorem seekPair64_misses {before after : List (List Nat)} {large : List Nat} {start : Nat}
    (fits : totalPairs (before ++ large :: after) < 2 ^ 64) (size : 2 ^ 32 < large.length)
    (past : totalPairs before + (2 ^ 63 - 1) ≤ start)
    (within : start < totalPairs (before ++ large :: after)) :
    seekPair64 (before ++ large :: after) start ≠ (slots (before ++ large :: after))[start]? := by
  have split : totalPairs (before ++ large :: after) =
      totalPairs before + (pairCount large.length + totalPairs after) := by
    simp [totalPairs]
  obtain ⟨saturated, exact⟩ := pairCount_large size
  have small : ∀ clusters : List (List Nat), totalPairs clusters < 2 ^ 63 →
      ∀ cluster ∈ clusters, cluster.length ≤ 2 ^ 32 := by
    intro clusters bound cluster member
    by_contra beyond
    have whole : pairCount cluster.length ≤ totalPairs clusters :=
      List.le_sum_of_mem (List.mem_map.mpr ⟨cluster, member, rfl⟩)
    have counted := (pairCount_large (Nat.lt_of_not_le beyond)).2
    omega
  have earlier := small before (by omega)
  have later := small after (by omega)
  -- What is sought: a slot of the clusters after the large one, too far on.
  have sought : seekPair64 (before ++ large :: after) start =
      (slotsFrom (before.length + 1) after)[start - totalPairs before - (2 ^ 63 - 1)]? := by
    have none : StartsBelow after (start - totalPairs before - (2 ^ 63 - 1)) := by
      intro front other back shape beyond
      have listed : other ∈ after := by
        rw [shape]
        simp
      have bound := later other listed
      omega
    rw [seekPair64, seekPair64From_skip earlier (by omega), seekPair64From, saturated,
      if_pos (by omega), seekPair64From_eq none, seekPairFrom_eq, Nat.zero_add]
  -- What stands there: a slot of the large cluster, or of those after it at its own number.
  have whole : slots (before ++ large :: after) =
      slotsFrom 0 before ++ slotsFrom before.length (large :: after) := by
    have joined : ∀ idx (front back : List (List Nat)), slotsFrom idx (front ++ back) =
        slotsFrom idx front ++ slotsFrom (idx + front.length) back := by
      intro idx front back
      induction front generalizing idx with
      | nil => rfl
      | cons cluster front ih =>
        rw [List.cons_append, slotsFrom, slotsFrom, ih, List.append_assoc, List.length_cons,
          Nat.add_right_comm, Nat.add_assoc]
    rw [slots, joined, Nat.zero_add]
  have stands : (slots (before ++ large :: after))[start]? =
      (slotsFrom before.length (large :: after))[start - totalPairs before]? := by
    rw [whole, List.getElem?_append_right (by rw [length_slotsFrom]; omega), length_slotsFrom]
  have count : (indexPairs large.length).length = pairCount large.length :=
    length_indexPairs large.length
  intro same
  rw [sought, stands, slotsFrom] at same
  by_cases inside : start - totalPairs before < pairCount large.length
  · obtain ⟨pair, held⟩ : ∃ pair, (indexPairs large.length)[start - totalPairs before]? = some pair :=
      ⟨_, List.getElem?_eq_getElem (by rw [count]; exact inside)⟩
    rw [List.getElem?_append_left (by simpa [count] using inside), List.getElem?_map, held] at same
    have member := List.mem_of_getElem? same
    have above := (mem_slotsFrom.mp member).1
    exact Nat.not_succ_le_self _ above
  · rw [List.getElem?_append_right (by simpa [count] using inside), List.length_map, count] at same
    have reach : start - totalPairs before - pairCount large.length <
        (slotsFrom (before.length + 1) after).length := by
      rw [length_slotsFrom]
      omega
    have equal := (List.getElem?_inj reach (slotsFrom_nodup _ _)).mp same.symm
    omega

/-- When a page visits its pairs. The slots are all pairs of positions in one cluster, left before
right, in the order of cluster, left and right position. A page between two numbers visits
exactly the slots between them when it is empty, or starts below the pair at which the count of a
cluster of more than 2^32 members saturates; otherwise it does not. Pages that meet make one
page. -/
theorem page_visits_iff {clusters : List (List Nat)} {start stop : Nat}
    (fits : totalPairs clusters < 2 ^ 64) (ordered : start ≤ stop)
    (within : stop ≤ totalPairs clusters) :
    (slots clusters).Pairwise slotLt ∧
      (∀ slot, slot ∈ slots clusters ↔ ∃ cluster, clusters[slot.1]? = some cluster ∧
        slot.2.1 < slot.2.2 ∧ slot.2.2 < cluster.length) ∧
      (slots clusters).length = totalPairs clusters ∧
      (pageSlots clusters start stop = window (slots clusters) start (stop - start) ↔
        start = stop ∨ StartsBelow clusters start) ∧
      ∀ middle, start ≤ middle → middle ≤ stop →
        window (slots clusters) start (middle - start) ++
            window (slots clusters) middle (stop - middle) =
          window (slots clusters) start (stop - start) := by
  refine ⟨slotsFrom_sorted 0 clusters, ?_, length_slotsFrom 0 clusters, ?_, ?_⟩
  · intro slot
    have member : slot ∈ slotsFrom 0 clusters ↔ _ := mem_slotsFrom
    simpa [slots] using member
  · constructor
    · intro visits
      by_cases empty : start = stop
      · exact Or.inl empty
      · refine Or.inr ?_
        by_contra above
        obtain ⟨before, large, after, split, size, past⟩ : ∃ before large after,
            clusters = before ++ large :: after ∧ 2 ^ 32 < large.length ∧
              totalPairs before + (2 ^ 63 - 1) ≤ start := by
          by_contra none
          apply above
          intro before large after split size
          by_contra past
          exact none ⟨before, large, after, split, size, Nat.le_of_not_lt past⟩
        obtain ⟨more, width⟩ : ∃ more, stop - start = more + 1 := ⟨stop - start - 1, by omega⟩
        have reach : start < (slots clusters).length := by
          rw [slots, length_slotsFrom]
          omega
        have found : (slots clusters)[start]? = some (slots clusters)[start] :=
          List.getElem?_eq_getElem reach
        rw [split] at fits
        have missed := seekPair64_misses fits size past (by rw [← split]; omega)
        rw [← split, found] at missed
        have first : (pageSlots clusters start stop).head? =
            some (start, (slots clusters)[start]) := by
          rw [visits, width, window, List.drop_eq_getElem_cons reach]
          rfl
        rw [pageSlots, width] at first
        cases sought : seekPair64 clusters start with
        | none =>
          rw [sought] at first
          cases first
        | some slot =>
          rw [sought] at first missed
          have equal := congrArg Prod.snd (Option.some.inj first)
          exact missed (congrArg some equal)
    · intro condition
      rcases condition with empty | below
      · rw [empty, pageSlots, Nat.sub_self]
        simp [walk, window]
      · rw [pageSlots, seekPair64, seekPair64From_eq below]
        exact walk_slots clusters (stop - start) start
  · intro middle lower upper
    have first : start + (middle - start) = middle := by omega
    have rest : middle - start + (stop - middle) = stop - start := by omega
    have joined := window_append (slots clusters) start (middle - start) (stop - middle)
    rwa [first, rest] at joined

/-- A page over the boundary of two small clusters. -/
theorem page_visits_small :
    pageSlots [[0, 1, 2], [3, 4]] 1 4 = window (slots [[0, 1, 2], [3, 4]]) 1 3 ∧
      window (slots [[0, 1, 2], [3, 4]]) 1 1 ++ window (slots [[0, 1, 2], [3, 4]]) 2 2 =
        window (slots [[0, 1, 2], [3, 4]]) 1 3 := by
  have below : StartsBelow [[0, 1, 2], [3, 4]] 1 := by
    intro before large after _ _
    omega
  obtain ⟨_, _, _, visits, joins⟩ :=
    @page_visits_iff [[0, 1, 2], [3, 4]] 1 4 (by decide) (by decide) (by decide)
  exact ⟨visits.mpr (Or.inr below), joins 2 (by decide) (by decide)⟩

/-- In a cluster of one member more than 2^32, the page of the pair numbered 2^63 - 1 visits
nothing. -/
theorem page_misses_large :
    totalPairs [List.range (2 ^ 32 + 1)] < 2 ^ 64 ∧
      2 ^ 63 ≤ totalPairs [List.range (2 ^ 32 + 1)] ∧
      pageSlots [List.range (2 ^ 32 + 1)] (2 ^ 63 - 1) (2 ^ 63) ≠
        window (slots [List.range (2 ^ 32 + 1)]) (2 ^ 63 - 1) (2 ^ 63 - (2 ^ 63 - 1)) := by
  have total : totalPairs [List.range (2 ^ 32 + 1)] = 2 ^ 63 + 2 ^ 31 := by
    simp [totalPairs, pairCount]
  have missed : seekPair64 [List.range (2 ^ 32 + 1)] (2 ^ 63 - 1) = none := by
    rw [seekPair64, seekPair64From, List.length_range]
    rfl
  refine ⟨by omega, by omega, ?_⟩
  have reach : 2 ^ 63 - 1 < (slots [List.range (2 ^ 32 + 1)]).length := by
    rw [slots, length_slotsFrom]
    omega
  have one : 2 ^ 63 - (2 ^ 63 - 1) = 1 := by decide
  have nothing : pageSlots [List.range (2 ^ 32 + 1)] (2 ^ 63 - 1) (2 ^ 63) = [] := by
    rw [pageSlots, missed, one]
    rfl
  rw [nothing, one, window, List.drop_eq_getElem_cons reach]
  exact (List.cons_ne_nil _ _).symm

end Texo.Semantics
