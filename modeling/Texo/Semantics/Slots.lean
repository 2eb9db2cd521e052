import Texo.Semantics.Runtime

/-! # Slots of the global pair order

The page a pass examines is a window of the lexicographic pair order of its claims.
Which slots are candidates depends on the claims alone; the settled map and the
source order only orient them.
-/
namespace Texo.Semantics
open Texo.Events Texo.Knowledge Texo.Foundation

/-- The slot order of one cluster that holds every claim. -/
def globalSlots (length : Nat) : List (Nat × Nat × Nat) :=
  (indexPairs length).map fun pair => (0, pair.1, pair.2)

/-- The code's pair count is the length of the slot order. -/
theorem length_globalSlots (length : Nat) : (globalSlots length).length = pairCount length := by
  rw [globalSlots, List.length_map, length_indexPairs, pairCount]

/-- Seeking finds the slot at its ordinal. -/
theorem seekPair_global (length offset : Nat) :
    seekPair [List.range length] offset = (globalSlots length)[offset]? := by
  rw [seekPair, seekPairFrom, List.length_range]
  by_cases past : pairCount length ≤ offset
  · rw [if_pos past, seekPairFrom]
    symm
    rw [List.getElem?_eq_none_iff, length_globalSlots]
    exact past
  · rw [if_neg past, seekRow_eq, globalSlots, List.getElem?_map]
    rfl

/-- Stepping finds the next slot. -/
theorem nextPair_global {length ordinal : Nat} {slot : Nat × Nat × Nat}
    (found : (globalSlots length)[ordinal]? = some slot) :
    nextPair [List.range length] slot = (globalSlots length)[ordinal + 1]? := by
  rw [globalSlots, List.getElem?_map] at found
  obtain ⟨pair, lookup, rfl⟩ := Option.map_eq_some_iff.mp found
  have member : pair ∈ indexPairs length := List.mem_of_getElem? lookup
  have bounds := mem_indexPairs.mp member
  have width : 0 + (length - 1) + 1 = length := by omega
  have step : nextRow (0 + (length - 1) + 1) pair.1 pair.2 = (indexPairs length)[ordinal + 1]? :=
    nextRow_eq lookup
  rw [width] at step
  have rest : ((([List.range length] : List (List Nat)).zipIdx.drop 1).find?
      fun row => 2 ≤ row.1.length) = none := rfl
  simp only [nextPair, List.getD_cons_zero, List.length_range, step, globalSlots,
    List.getElem?_map]
  cases next : (indexPairs length)[ordinal + 1]? with
  | none =>
    simp
  | some pair =>
    simp

variable {Score : Type}

/-- What a pass is given besides settled verdicts and its cursor. -/
structure RelateInputs (Score : Type) where
  claims : List ClaimView
  embedder : Embedder Score
  thresholds : RelateThresholds Score
  embeddings : List (List Score)
  embedded : embedder.embedBatch (claims.map embeddingText) = .ok embeddings

/-- The claim id at an index. -/
def RelateInputs.idAt (inputs : RelateInputs Score) (idx : Nat) : ClaimId :=
  (claimAt inputs.claims idx).claimId

/-- A pair whose similarity reaches the prefilter and whose texts differ. -/
def RelateInputs.candidate (inputs : RelateInputs Score) (pair : Nat × Nat) : Bool :=
  inputs.embedder.atLeast
      (inputs.embedder.cosineSimilarity (inputs.embeddings.getD pair.1 [])
        (inputs.embeddings.getD pair.2 [])) inputs.thresholds.prefilter &&
    (claimAt inputs.claims pair.1).normalizedText ≠ (claimAt inputs.claims pair.2).normalizedText

/-- The number of slots. -/
def RelateInputs.total (inputs : RelateInputs Score) : Nat := pairCount inputs.claims.length

/-- The pair at a slot ordinal. -/
def RelateInputs.slot? (inputs : RelateInputs Score) (ordinal : Nat) : Option (Nat × Nat) :=
  (indexPairs inputs.claims.length)[ordinal]?

/-- A slot ordinal below the total names a pair. -/
theorem RelateInputs.slot?_isSome {inputs : RelateInputs Score} {ordinal : Nat} :
    (inputs.slot? ordinal).isSome = true ↔ ordinal < inputs.total := by
  rw [RelateInputs.slot?, RelateInputs.total, pairCount, ← length_indexPairs]
  simp

/-- A pair at a slot is a pair of distinct claim indices. -/
theorem RelateInputs.slot?_bounds {inputs : RelateInputs Score} {ordinal : Nat} {pair : Nat × Nat}
    (found : inputs.slot? ordinal = some pair) :
    ordinal < inputs.total ∧ pair.1 < pair.2 ∧ pair.2 < inputs.claims.length := by
  have some_ : (inputs.slot? ordinal).isSome = true := by rw [found]; rfl
  exact ⟨RelateInputs.slot?_isSome.mp some_, mem_indexPairs.mp (List.mem_of_getElem? found)⟩

/-- Every pair of distinct claim indices has a slot. -/
theorem RelateInputs.exists_slot {inputs : RelateInputs Score} {pair : Nat × Nat}
    (less : pair.1 < pair.2) (below : pair.2 < inputs.claims.length) :
    ∃ ordinal, inputs.slot? ordinal = some pair :=
  List.mem_iff_getElem?.mp (mem_indexPairs.mpr ⟨less, below⟩)

/-- Either orientation of a pair carries a settled verdict. -/
def RelateInputs.SettledIn (inputs : RelateInputs Score) (settled : SettledMap)
    (pair : Nat × Nat) : Prop :=
  (inputs.idAt pair.1, inputs.idAt pair.2) ∈ settled ∨
    (inputs.idAt pair.2, inputs.idAt pair.1) ∈ settled

/-- The pending pair a candidate slot becomes. -/
def RelateInputs.pendingAt (inputs : RelateInputs Score) (settled : SettledMap)
    (temporal : RelateTemporalPolicy) (ordinal : Nat) (pair : Nat × Nat) : PendingPair :=
  let ordered := orderPair inputs.claims pair.1 pair.2 settled temporal
  { oldIdx := ordered.1.1
    newIdx := ordered.1.2
    older := inputs.idAt ordered.1.1
    newer := inputs.idAt ordered.1.2
    temporalFailure := ordered.2
    cursor := ordinal }

/-- Journal order orients a pair one way or the other. -/
theorem sequenceOrder_cases (claims : List ClaimView) (left right : Nat) :
    sequenceOrder claims left right = (left, right) ∨
      sequenceOrder claims left right = (right, left) := by
  unfold sequenceOrder
  split
  · exact Or.inl rfl
  · exact Or.inr rfl

/-- A pair is oriented one way or the other. -/
theorem orderPair_cases (claims : List ClaimView) (left right : Nat) (settled : SettledMap)
    (temporal : RelateTemporalPolicy) :
    (orderPair claims left right settled temporal).1 = (left, right) ∨
      (orderPair claims left right settled temporal).1 = (right, left) := by
  have fallback := sequenceOrder_cases claims left right
  unfold orderPair
  simp only
  split
  · exact Or.inl rfl
  · split
    · exact Or.inr rfl
    · split <;> simp [fallback]

/-- Whether a slot is a candidate does not depend on how its pair is oriented. -/
theorem candidateAt_global (inputs : RelateInputs Score) (settled : SettledMap)
    (temporal : RelateTemporalPolicy) (ordinal : Nat) {pair : Nat × Nat}
    (less : pair.1 < pair.2) (below : pair.2 < inputs.claims.length) :
    candidateAt inputs.claims inputs.embedder inputs.embeddings inputs.thresholds.prefilter settled
        temporal [List.range inputs.claims.length] ordinal (0, pair.1, pair.2) =
      if inputs.candidate pair then
        some (inputs.pendingAt settled temporal ordinal pair) else none := by
  have left : (List.range inputs.claims.length).getD pair.1 0 = pair.1 := by
    simp [List.getD_eq_getElem?_getD, List.getElem?_range (Nat.lt_trans less below)]
  have right : (List.range inputs.claims.length).getD pair.2 0 = pair.2 := by
    simp [List.getD_eq_getElem?_getD, List.getElem?_range below]
  simp only [candidateAt, List.getD_cons_zero, left, right, RelateInputs.candidate,
    RelateInputs.pendingAt, RelateInputs.idAt]
  by_cases near : inputs.embedder.atLeast
      (inputs.embedder.cosineSimilarity (inputs.embeddings.getD pair.1 [])
        (inputs.embeddings.getD pair.2 [])) inputs.thresholds.prefilter = true
  · simp only [near, if_true, Bool.true_and, decide_not, Bool.not_eq_eq_eq_not, Bool.not_true,
      decide_eq_false_iff_not]
    rcases orderPair_cases inputs.claims pair.1 pair.2 settled temporal with forward | backward
    · rw [forward]
    · rw [backward]
      simp only [ne_comm (a := (claimAt inputs.claims pair.2).normalizedText), ne_eq]
  · rw [Bool.not_eq_true] at near
    simp only [near, Bool.false_and, Bool.false_eq_true, if_false]

/-- The first slot of a page. -/
def RelateInputs.pageStart (inputs : RelateInputs Score) (cursor : Nat) : Nat :=
  min cursor inputs.total

/-- The slot after the last one of a page. -/
def RelateInputs.pageStop (inputs : RelateInputs Score) (cursor budget : Nat) : Nat :=
  min (inputs.pageStart cursor + budget) inputs.total

/-- The pending pairs of a page: its candidate slots, in slot order. -/
def RelateInputs.pagePending (inputs : RelateInputs Score) (settled : SettledMap)
    (temporal : RelateTemporalPolicy) (cursor budget : Nat) : List PendingPair :=
  (window (indexPairs inputs.claims.length) (inputs.pageStart cursor)
      (inputs.pageStop cursor budget - inputs.pageStart cursor)).filterMap fun slot =>
    if inputs.candidate slot.2 then some (inputs.pendingAt settled temporal slot.1 slot.2) else none

/-- A window of mapped items is the mapped window. -/
theorem window_map {α β : Type} (f : α → β) (items : List α) (start count : Nat) :
    window (items.map f) start count = (window items start count).map fun row => (row.1, f row.2) := by
  simp only [window, ← List.map_drop, ← List.map_take, List.zipIdx_map, List.map_map]
  rfl

/-- The page law of `prepare_pairs`. -/
theorem preparePairs_eq (inputs : RelateInputs Score) (settled : SettledMap)
    (temporal : RelateTemporalPolicy) (budget cursor : Nat)
    (several : 2 ≤ inputs.claims.length) :
    preparePairs inputs.claims inputs.embedder inputs.thresholds settled temporal budget cursor =
      .ok (some
        { pending := inputs.pagePending settled temporal cursor budget
          examinedPairs := inputs.pageStop cursor budget - inputs.pageStart cursor
          nextCursor := if inputs.pageStop cursor budget < inputs.total then
            some (inputs.pageStop cursor budget) else none
          claimClusters := List.replicate inputs.claims.length 0 }) := by
  have few : ¬ inputs.claims.length < 2 := by omega
  have total : (([List.range inputs.claims.length] : List (List Nat)).map
      fun cluster => pairCount cluster.length).sum = inputs.total := by
    simp [RelateInputs.total]
  simp only [preparePairs, if_neg few, inputs.embedded, total]
  have steps : ∀ ordinal slot, (globalSlots inputs.claims.length)[ordinal]? = some slot →
      nextPair [List.range inputs.claims.length] slot =
        (globalSlots inputs.claims.length)[ordinal + 1]? :=
    fun ordinal slot found => nextPair_global found
  have walked := walk_eq_window steps
    (inputs.pageStop cursor budget - inputs.pageStart cursor) (inputs.pageStart cursor)
  rw [← seekPair_global] at walked
  have pending : (walk (nextPair [List.range inputs.claims.length])
      (inputs.pageStop cursor budget - inputs.pageStart cursor) (inputs.pageStart cursor)
      (seekPair [List.range inputs.claims.length] (inputs.pageStart cursor))).filterMap
        (fun slot => candidateAt inputs.claims inputs.embedder inputs.embeddings
          inputs.thresholds.prefilter settled temporal [List.range inputs.claims.length]
          slot.1 slot.2) = inputs.pagePending settled temporal cursor budget := by
    rw [walked, globalSlots, window_map, List.filterMap_map, RelateInputs.pagePending]
    apply List.filterMap_congr
    rintro ⟨ordinal, pair⟩ member
    obtain ⟨_, _, lookup⟩ := mem_window.mp member
    have bounds := mem_indexPairs.mp (List.mem_of_getElem? lookup)
    exact candidateAt_global inputs settled temporal ordinal bounds.1 bounds.2
  simp only [RelateInputs.pageStop, RelateInputs.pageStart] at pending ⊢
  rw [pending]
  rfl

/-- What the page holds: the candidate slots it examines. -/
theorem mem_pagePending {inputs : RelateInputs Score} {settled : SettledMap}
    {temporal : RelateTemporalPolicy} {cursor budget : Nat} {pending : PendingPair} :
    pending ∈ inputs.pagePending settled temporal cursor budget ↔
      ∃ ordinal pair, inputs.pageStart cursor ≤ ordinal ∧ ordinal < inputs.pageStop cursor budget ∧
        inputs.slot? ordinal = some pair ∧ inputs.candidate pair = true ∧
        pending = inputs.pendingAt settled temporal ordinal pair := by
  have stop : inputs.pageStart cursor ≤ inputs.pageStop cursor budget := by
    simp only [RelateInputs.pageStop, RelateInputs.pageStart]
    omega
  simp only [RelateInputs.pagePending, List.mem_filterMap, RelateInputs.slot?]
  constructor
  · rintro ⟨⟨ordinal, pair⟩, member, taken⟩
    obtain ⟨atLeast, below, lookup⟩ := mem_window.mp member
    by_cases candidate : inputs.candidate pair = true
    · simp only [candidate, if_true, Option.some.injEq] at taken
      exact ⟨ordinal, pair, atLeast, by omega, lookup, candidate, taken.symm⟩
    · simp [candidate] at taken
  · rintro ⟨ordinal, pair, atLeast, below, lookup, candidate, rfl⟩
    exact ⟨(ordinal, pair), mem_window.mpr ⟨atLeast, by omega, lookup⟩, by simp [candidate]⟩

end Texo.Semantics
