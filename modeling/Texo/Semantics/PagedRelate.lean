import Texo.Semantics.Decisions
import Texo.Semantics.Edges
import Texo.Semantics.RelateRuns

/-! # Paging does not change what is decided

With a judge that always answers and pairs the source order can orient, a page adds to
the settled map what its slots would add one at a time. Windows that meet therefore add
up, whatever their budgets, and the last page reduces the same authority that a single
pass over all slots would.
-/
namespace Texo.Semantics
open Texo.Events Texo.Knowledge Texo.Foundation

section Keys

variable {Score : Type}

/-- The claim ids are distinct. -/
def RelateInputs.Distinct (inputs : RelateInputs Score) : Prop :=
  (inputs.claims.map ClaimView.claimId).Nodup

/-- Distinct ids name distinct claims. -/
theorem RelateInputs.Distinct.injective {inputs : RelateInputs Score} (distinct : inputs.Distinct)
    {i j : Nat} (iBelow : i < inputs.claims.length) (jBelow : j < inputs.claims.length)
    (same : inputs.idAt i = inputs.idAt j) : i = j :=
  claimAt_injective distinct iBelow jBelow same

/-- A key of a pair, in either orientation. -/
def RelateInputs.IsKey (inputs : RelateInputs Score) (pair : Nat × Nat)
    (key : ClaimId × ClaimId) : Prop :=
  key = (inputs.idAt pair.1, inputs.idAt pair.2) ∨ key = (inputs.idAt pair.2, inputs.idAt pair.1)

/-- A pair is settled when one of its keys is. -/
theorem settledIn_iff {inputs : RelateInputs Score} {settled : SettledMap} {pair : Nat × Nat} :
    inputs.SettledIn settled pair ↔ ∃ key, inputs.IsKey pair key ∧ key ∈ settled := by
  constructor
  · rintro (forward | backward)
    · exact ⟨_, Or.inl rfl, forward⟩
    · exact ⟨_, Or.inr rfl, backward⟩
  · rintro ⟨key, rfl | rfl, held⟩
    · exact Or.inl held
    · exact Or.inr held

instance (inputs : RelateInputs Score) (settled : SettledMap) (pair : Nat × Nat) :
    Decidable (inputs.SettledIn settled pair) :=
  inferInstanceAs (Decidable (_ ∨ _))

/-- Different slots share no key. -/
theorem isKey_unique {inputs : RelateInputs Score} (distinct : inputs.Distinct)
    {i j : Nat} {p q : Nat × Nat} (pSlot : inputs.slot? i = some p) (qSlot : inputs.slot? j = some q)
    {key : ClaimId × ClaimId} (pKey : inputs.IsKey p key) (qKey : inputs.IsKey q key) : p = q := by
  obtain ⟨_, pLess, pBelow⟩ := RelateInputs.slot?_bounds pSlot
  obtain ⟨_, qLess, qBelow⟩ := RelateInputs.slot?_bounds qSlot
  have aligned : ∀ {a b c d : Nat}, a < inputs.claims.length → b < inputs.claims.length →
      c < inputs.claims.length → d < inputs.claims.length →
      (inputs.idAt a, inputs.idAt b) = (inputs.idAt c, inputs.idAt d) → a = c ∧ b = d := by
    intro a b c d aBelow bBelow cBelow dBelow same
    obtain ⟨left, right⟩ := Prod.mk.inj same
    exact ⟨distinct.injective aBelow cBelow left, distinct.injective bBelow dBelow right⟩
  rcases pKey with rfl | rfl
  · rcases qKey with same | same
    · have ends := aligned (by omega) pBelow (by omega) qBelow same
      exact Prod.ext ends.1 ends.2
    · have ends := aligned (by omega) pBelow qBelow (by omega) same
      omega
  · rcases qKey with same | same
    · have ends := aligned pBelow (by omega) (by omega) qBelow same
      omega
    · have ends := aligned pBelow (by omega) qBelow (by omega) same
      exact Prod.ext ends.2 ends.1

/-- Two settled maps hold the same at a pair. -/
def RelateInputs.AgreeAt (inputs : RelateInputs Score) (a b : SettledMap)
    (pair : Nat × Nat) : Prop :=
  ∀ key, inputs.IsKey pair key → a[key]? = b[key]?

/-- Maps that agree at a pair settle it alike. -/
theorem RelateInputs.AgreeAt.settledIn {inputs : RelateInputs Score} {a b : SettledMap}
    {pair : Nat × Nat} (agree : inputs.AgreeAt a b pair) :
    inputs.SettledIn a pair ↔ inputs.SettledIn b pair := by
  rw [settledIn_iff, settledIn_iff]
  have sides : ∀ key, inputs.IsKey pair key → (key ∈ a ↔ key ∈ b) := by
    intro key named
    rw [← Std.ExtTreeMap.isSome_getElem?_iff_mem, ← Std.ExtTreeMap.isSome_getElem?_iff_mem,
      agree key named]
  constructor
  · rintro ⟨key, named, held⟩
    exact ⟨key, named, (sides key named).mp held⟩
  · rintro ⟨key, named, held⟩
    exact ⟨key, named, (sides key named).mpr held⟩

/-- Settling another slot leaves a pair alone. -/
theorem agreeAt_insert {inputs : RelateInputs Score} (distinct : inputs.Distinct)
    {i j : Nat} {p q : Nat × Nat} (pSlot : inputs.slot? i = some p) (qSlot : inputs.slot? j = some q)
    (different : p ≠ q) {key : ClaimId × ClaimId} (named : inputs.IsKey q key)
    (settled : SettledMap) (verdict : RelationVerdict) :
    inputs.AgreeAt (settled.insert key verdict) settled p := by
  intro other pNamed
  rw [Std.ExtTreeMap.getElem?_insert]
  split
  · rename_i same
    have equal := Std.LawfulEqCmp.eq_of_compare same
    subst equal
    exact (different (isKey_unique distinct pSlot qSlot pNamed named)).elim
  · rfl

/-- Inserting what is already there changes nothing. -/
theorem insert_same {settled : SettledMap} {key : ClaimId × ClaimId} {verdict : RelationVerdict}
    (held : settled[key]? = some verdict) : settled.insert key verdict = settled := by
  apply Std.ExtTreeMap.ext_getElem?
  intro other
  rw [Std.ExtTreeMap.getElem?_insert]
  split
  · rename_i same
    rw [← Std.LawfulEqCmp.eq_of_compare same, held]
  · rfl

/-- What one slot adds to the settled map: its fresh verdict, if it needs and has one. -/
def RelateInputs.settleSlot (inputs : RelateInputs Score) (judge : Judge)
    (temporal : RelateTemporalPolicy) (settled : SettledMap) (slot : Nat × (Nat × Nat)) :
    SettledMap :=
  if inputs.candidate slot.2 = true ∧ ¬ inputs.SettledIn settled slot.2 then
    match inputs.ask judge temporal slot.2 with
    | .ok verdict => settled.insert (inputs.freshKey temporal slot.2) verdict
    | .error _ => settled
  else
    settled

/-- The slots of a window, one after another. -/
def RelateInputs.settleSlots (inputs : RelateInputs Score) (judge : Judge)
    (temporal : RelateTemporalPolicy) (settled : SettledMap)
    (slots : List (Nat × (Nat × Nat))) : SettledMap :=
  slots.foldl (inputs.settleSlot judge temporal) settled

/-- A slot of a window with the bounds of its pair. -/
def RelateInputs.slots (inputs : RelateInputs Score) (start stop : Nat) :
    List (Nat × (Nat × Nat)) :=
  window (indexPairs inputs.claims.length) start (stop - start)

/-- A slot of a window sits at its ordinal. -/
theorem mem_slots {inputs : RelateInputs Score} {start stop : Nat} {slot : Nat × (Nat × Nat)} :
    slot ∈ inputs.slots start stop ↔
      start ≤ slot.1 ∧ slot.1 < stop ∧ inputs.slot? slot.1 = some slot.2 := by
  obtain ⟨ordinal, pair⟩ := slot
  rw [RelateInputs.slots, mem_window, RelateInputs.slot?]
  constructor
  · rintro ⟨atLeast, below, found⟩
    exact ⟨atLeast, by omega, found⟩
  · rintro ⟨atLeast, below, found⟩
    exact ⟨atLeast, by omega, found⟩

/-- Windows that meet add up. -/
theorem slots_append (inputs : RelateInputs Score) {start middle stop : Nat}
    (first : start ≤ middle) (second : middle ≤ stop) :
    inputs.slots start middle ++ inputs.slots middle stop = inputs.slots start stop := by
  have meet : start + (middle - start) = middle := by omega
  have whole : middle - start + (stop - middle) = stop - start := by omega
  have joined := window_append (indexPairs inputs.claims.length) start (middle - start)
    (stop - middle)
  rw [meet, whole] at joined
  exact joined

/-- No pair has two slots in a window. -/
theorem nodup_slots (inputs : RelateInputs Score) (start stop : Nat) :
    ((inputs.slots start stop).map Prod.snd).Nodup := by
  rw [RelateInputs.slots, map_snd_window]
  exact ((nodup_indexPairs _).sublist (List.drop_sublist _ _)).sublist (List.take_sublist _ _)

/-- The judge and the source order answer for every candidate pair. -/
structure RelateInputs.Answering (inputs : RelateInputs Score) (judge : Judge)
    (temporal : RelateTemporalPolicy) : Prop where
  distinct : inputs.Distinct
  answers : ∀ ordinal pair, inputs.slot? ordinal = some pair → inputs.candidate pair = true →
    (inputs.oriented temporal pair).2 = none ∧
      ∃ verdict, inputs.ask judge temporal pair = .ok verdict

/-- A slot settled by an earlier one is settled already. -/
theorem settledIn_settleSlots {inputs : RelateInputs Score} (judge : Judge)
    (temporal : RelateTemporalPolicy) (distinct : inputs.Distinct) {ordinal : Nat}
    {pair : Nat × Nat} (slot : inputs.slot? ordinal = some pair)
    {slots : List (Nat × (Nat × Nat))}
    (others : ∀ other ∈ slots, inputs.slot? other.1 = some other.2 ∧ pair ≠ other.2)
    (settled : SettledMap) :
    inputs.SettledIn (inputs.settleSlots judge temporal settled slots) pair ↔
      inputs.SettledIn settled pair := by
  induction slots generalizing settled with
  | nil => rfl
  | cons other slots ih =>
    obtain ⟨there, different⟩ := others other (by simp)
    rw [RelateInputs.settleSlots, List.foldl_cons]
    rw [show slots.foldl (inputs.settleSlot judge temporal)
        (inputs.settleSlot judge temporal settled other) =
      inputs.settleSlots judge temporal (inputs.settleSlot judge temporal settled other) slots
      from rfl]
    rw [ih fun later member => others later (by simp [member])]
    rw [RelateInputs.settleSlot]
    split
    · split
      · exact (agreeAt_insert distinct slot there different
          (freshKey_cases inputs temporal other.2) _ _).settledIn
      · rfl
    · rfl

/-- The judgment a page makes of one slot. -/
def RelateInputs.slotJudgment (inputs : RelateInputs Score) (judge : Judge)
    (settled : SettledMap) (temporal : RelateTemporalPolicy) (slot : Nat × (Nat × Nat)) :
    Option PairJudgment :=
  if inputs.candidate slot.2 = true then
    judgmentOf (inputs.pendingAt settled temporal slot.1 slot.2,
      (acquireSequential inputs.claims judge settled (fun _ => false)
        (inputs.pendingAt settled temporal slot.1 slot.2)).outcome)
  else
    none

/-- The judgments of a page are those of its slots. -/
theorem pageAcquired_judgments (inputs : RelateInputs Score) (judge : Judge)
    (settled : SettledMap) (temporal : RelateTemporalPolicy) (cursor budget : Nat) :
    (inputs.pageAcquired judge settled (pageOptions temporal budget cursor)).filterMap judgmentOf =
      (inputs.slots (inputs.pageStart cursor) (inputs.pageStop cursor budget)).filterMap
        (inputs.slotJudgment judge settled temporal) := by
  rw [RelateInputs.pageAcquired, RelateInputs.pagePending, List.filterMap_map,
    List.filterMap_filterMap]
  apply List.filterMap_congr
  intro slot _
  rw [RelateInputs.slotJudgment]
  by_cases candidate : inputs.candidate slot.2 = true
  · simp only [candidate, if_true, Option.bind_some, Function.comp]
  · simp [candidate]

/-- Inserting a page's judgments settles its slots one after another: the pages's own
orientation of a slot is not changed by the slots before it. -/
theorem foldl_slotJudgments {inputs : RelateInputs Score} {judge : Judge}
    {temporal : RelateTemporalPolicy} (answering : inputs.Answering judge temporal)
    (settled : SettledMap) {slots : List (Nat × (Nat × Nat))}
    (placed : ∀ slot ∈ slots, inputs.slot? slot.1 = some slot.2)
    (apart : (slots.map Prod.snd).Nodup) {current : SettledMap}
    (agree : ∀ slot ∈ slots, inputs.AgreeAt current settled slot.2) :
    (slots.filterMap (inputs.slotJudgment judge settled temporal)).foldl insertJudgment current =
      inputs.settleSlots judge temporal current slots := by
  induction slots generalizing current with
  | nil => rfl
  | cons slot slots ih =>
    have here := placed slot (by simp)
    have agreeHere := agree slot (by simp)
    rw [List.map_cons, List.nodup_cons] at apart
    have rest : ∀ next : SettledMap, (∀ other ∈ slots, inputs.AgreeAt next settled other.2) →
        (slots.filterMap (inputs.slotJudgment judge settled temporal)).foldl insertJudgment next =
          inputs.settleSlots judge temporal next slots :=
      fun next => ih (fun other member => placed other (by simp [member])) apart.2
    rw [RelateInputs.settleSlots, List.foldl_cons, List.filterMap_cons]
    by_cases candidate : inputs.candidate slot.2 = true
    · by_cases held : inputs.SettledIn settled slot.2
      · -- a reused verdict is inserted over itself
        obtain ⟨verdict, lookup, outcome⟩ :=
          acquire_settled judge temporal (fun _ => false) slot.1 held
        have judged : inputs.slotJudgment judge settled temporal slot =
            some ⟨(inputs.pendingAt settled temporal slot.1 slot.2).older,
              (inputs.pendingAt settled temporal slot.1 slot.2).newer, verdict, true⟩ := by
          rw [RelateInputs.slotJudgment, if_pos candidate, outcome]
          rfl
        have still : inputs.SettledIn current slot.2 := agreeHere.settledIn.mpr held
        have named : inputs.IsKey slot.2 ((inputs.pendingAt settled temporal slot.1 slot.2).older,
            (inputs.pendingAt settled temporal slot.1 slot.2).newer) := by
          rcases orderPair_cases inputs.claims slot.2.1 slot.2.2 settled temporal with forward | backward
          · left
            simp only [RelateInputs.pendingAt, forward]
          · right
            simp only [RelateInputs.pendingAt, backward]
        have unchanged : insertJudgment current
            ⟨(inputs.pendingAt settled temporal slot.1 slot.2).older,
              (inputs.pendingAt settled temporal slot.1 slot.2).newer, verdict, true⟩ = current :=
          insert_same (by rw [agreeHere _ named, lookup])
        have skipped : inputs.settleSlot judge temporal current slot = current := by
          rw [RelateInputs.settleSlot, if_neg (fun both => both.2 still)]
        rw [judged]
        simp only [List.foldl_cons, unchanged, skipped]
        exact rest current fun other member => agree other (by simp [member])
      · obtain ⟨_, verdict, answer⟩ := answering.answers slot.1 slot.2 here candidate
        have outcome := acquire_unsettled judge temporal (fun _ => false) slot.1 held rfl
        have judged : inputs.slotJudgment judge settled temporal slot =
            some ⟨(inputs.freshKey temporal slot.2).1, (inputs.freshKey temporal slot.2).2,
              verdict, false⟩ := by
          rw [RelateInputs.slotJudgment, if_pos candidate, outcome, answer,
            pendingAt_unsettled temporal slot.1 held]
          rfl
        have open_ : ¬ inputs.SettledIn current slot.2 := fun still =>
          held (agreeHere.settledIn.mp still)
        have settles : inputs.settleSlot judge temporal current slot =
            current.insert (inputs.freshKey temporal slot.2) verdict := by
          rw [RelateInputs.settleSlot, if_pos ⟨candidate, open_⟩, answer]
        rw [judged]
        simp only [List.foldl_cons, settles]
        apply rest
        intro other member key named
        have there := placed other (by simp [member])
        have different : other.2 ≠ slot.2 := by
          intro same
          exact apart.1 (List.mem_map.mpr ⟨other, member, same⟩)
        rw [← agree other (by simp [member]) key named]
        exact agreeAt_insert answering.distinct there here different
          (freshKey_cases inputs temporal slot.2) current verdict key named
    · have judged : inputs.slotJudgment judge settled temporal slot = none := by
        rw [RelateInputs.slotJudgment, if_neg candidate]
      have skipped : inputs.settleSlot judge temporal current slot = current := by
        rw [RelateInputs.settleSlot, if_neg (fun both => candidate both.1)]
      rw [judged]
      simp only [skipped]
      exact rest current fun other member => agree other (by simp [member])

/-- A page of answered slots adds what its window adds. -/
theorem page_settles {inputs : RelateInputs Score} {judge : Judge}
    {temporal : RelateTemporalPolicy} (answering : inputs.Answering judge temporal)
    (settled : SettledMap) (cursor budget : Nat) :
    ((inputs.pageAcquired judge settled (pageOptions temporal budget cursor)).filterMap judgmentOf).foldl insertJudgment settled =
      inputs.settleSlots judge temporal settled
        (inputs.slots (inputs.pageStart cursor) (inputs.pageStop cursor budget)) := by
  rw [pageAcquired_judgments]
  apply foldl_slotJudgments answering settled
  · intro slot member
    exact (mem_slots.mp member).2.2
  · exact nodup_slots inputs _ _
  · intro slot _ key _
    rfl

/-- No slot of such a page fails. -/
theorem page_never_fails {inputs : RelateInputs Score} {judge : Judge}
    {temporal : RelateTemporalPolicy} (answering : inputs.Answering judge temporal)
    (settled : SettledMap) (cursor budget : Nat) :
    failedCursors (inputs.pageAcquired judge settled (pageOptions temporal budget cursor)) = [] := by
  apply List.eq_nil_iff_forall_not_mem.mpr
  intro failed member
  obtain ⟨_, _, pair, slot, candidate, _, late | ⟨failure, refused⟩⟩ := failedCursors_bounds member
  · cases late
  · obtain ⟨_, verdict, answer⟩ := answering.answers failed pair slot candidate
    rw [answer] at refused
    cases refused

/-- The keys of the slots that need an answer. -/
def RelateInputs.openKeys (inputs : RelateInputs Score) (temporal : RelateTemporalPolicy)
    (settled : SettledMap) (pairs : List (Nat × Nat)) : List (ClaimId × ClaimId) :=
  (pairs.filter fun pair => inputs.candidate pair && !decide (inputs.SettledIn settled pair)).map
    (inputs.freshKey temporal)

/-- Such a page asks about its open slots, each once and in order. -/
theorem page_asks {inputs : RelateInputs Score} {judge : Judge}
    {temporal : RelateTemporalPolicy} (answering : inputs.Answering judge temporal)
    (settled : SettledMap) (cursor budget : Nat) :
    inputs.pageAsked judge settled (pageOptions temporal budget cursor) =
      inputs.openKeys temporal settled
        ((inputs.slots (inputs.pageStart cursor) (inputs.pageStop cursor budget)).map Prod.snd) := by
  have slotwise : ∀ slots : List (Nat × (Nat × Nat)),
      (∀ slot ∈ slots, inputs.slot? slot.1 = some slot.2) →
      (((slots.filterMap fun slot =>
        if inputs.candidate slot.2 then some (inputs.pendingAt settled temporal slot.1 slot.2)
        else none).filter fun pending =>
          (acquireSequential inputs.claims judge settled (fun _ => false) pending).asked).map
            fun pending => (pending.older, pending.newer)) =
        inputs.openKeys temporal settled (slots.map Prod.snd) := by
    intro slots placed
    induction slots with
    | nil => rfl
    | cons slot slots ih =>
      have rest := ih fun other member => placed other (by simp [member])
      simp only [RelateInputs.openKeys] at rest ⊢
      rw [List.filterMap_cons, List.map_cons, List.filter_cons]
      by_cases candidate : inputs.candidate slot.2 = true
      · by_cases held : inputs.SettledIn settled slot.2
        · obtain ⟨_, _, outcome⟩ := acquire_settled judge temporal (fun _ => false) slot.1 held
          simp only [candidate, if_true, List.filter_cons, outcome, Bool.false_eq_true, if_false,
            held, decide_true, Bool.not_true, Bool.and_false]
          exact rest
        · have needed := answering.answers slot.1 slot.2 (placed slot (by simp)) candidate
          obtain ⟨_, verdict, answer⟩ := needed
          have outcome := acquire_unsettled judge temporal (fun _ => false) slot.1 held rfl
          rw [answer] at outcome
          have key : ((inputs.pendingAt settled temporal slot.1 slot.2).older,
              (inputs.pendingAt settled temporal slot.1 slot.2).newer) =
              inputs.freshKey temporal slot.2 := by
            rw [pendingAt_unsettled temporal slot.1 held]
          simp only [candidate, if_true, List.filter_cons, outcome, held, decide_false,
            Bool.not_false, Bool.and_self, List.map_cons, key]
          rw [rest]
      · simp only [candidate, Bool.false_eq_true, if_false, Bool.false_and]
        exact rest
  exact slotwise _ fun slot member => (mem_slots.mp member).2.2

/-- A pair has one slot. -/
theorem slot?_inj {inputs : RelateInputs Score} {i j : Nat} {pair : Nat × Nat}
    (first : inputs.slot? i = some pair) (second : inputs.slot? j = some pair) : i = j := by
  rw [RelateInputs.slot?] at first second
  obtain ⟨iBelow, iFound⟩ := List.getElem?_eq_some_iff.mp first
  obtain ⟨jBelow, jFound⟩ := List.getElem?_eq_some_iff.mp second
  rw [← jFound] at iFound
  exact (List.Nodup.getElem_inj_iff (nodup_indexPairs _)).mp iFound

/-- Slots before a window leave its open keys open. -/
theorem openKeys_settleSlots {inputs : RelateInputs Score} (judge : Judge)
    (temporal : RelateTemporalPolicy) (distinct : inputs.Distinct) (settled : SettledMap)
    (start middle stop : Nat) :
    inputs.openKeys temporal
        (inputs.settleSlots judge temporal settled (inputs.slots start middle))
        ((inputs.slots middle stop).map Prod.snd) =
      inputs.openKeys temporal settled ((inputs.slots middle stop).map Prod.snd) := by
  rw [RelateInputs.openKeys, RelateInputs.openKeys]
  congr 1
  apply List.filter_congr
  intro pair member
  obtain ⟨slot, inside, rfl⟩ := List.mem_map.mp member
  obtain ⟨atLeast, _, here⟩ := mem_slots.mp inside
  have others : ∀ other ∈ inputs.slots start middle,
      inputs.slot? other.1 = some other.2 ∧ slot.2 ≠ other.2 := by
    intro other before
    obtain ⟨_, below, there⟩ := mem_slots.mp before
    refine ⟨there, ?_⟩
    intro same
    rw [← same] at there
    have equal := slot?_inj here there
    omega
  simp only [settledIn_settleSlots judge temporal distinct here others settled]

/-- Open keys of meeting windows add up. -/
theorem openKeys_append (inputs : RelateInputs Score) (temporal : RelateTemporalPolicy)
    (settled : SettledMap) (first second : List (Nat × Nat)) :
    inputs.openKeys temporal settled first ++ inputs.openKeys temporal settled second =
      inputs.openKeys temporal settled (first ++ second) := by
  rw [RelateInputs.openKeys, RelateInputs.openKeys, RelateInputs.openKeys, List.filter_append,
    List.map_append]

/-- No pair of candidate claims is concurrent or unknown in the source order. -/
def RelateInputs.SourceOrdered (inputs : RelateInputs Score) (temporal : RelateTemporalPolicy) :
    Prop :=
  ∀ ordinal pair, inputs.slot? ordinal = some pair → inputs.candidate pair = true →
    temporal.compareClaims (inputs.idAt pair.1) (inputs.idAt pair.2) ≠ some .concurrent ∧
      temporal.compareClaims (inputs.idAt pair.1) (inputs.idAt pair.2) ≠ some .unknown

/-- Ordered candidates and a judge that never fails are all answered. -/
theorem RelateInputs.SourceOrdered.answering {inputs : RelateInputs Score}
    {temporal : RelateTemporalPolicy} (ordered : inputs.SourceOrdered temporal)
    (distinct : inputs.Distinct) {judge : Judge}
    (decisive : ∀ older newer, ∃ verdict, judge older newer = .ok verdict) :
    inputs.Answering judge temporal := by
  refine ⟨distinct, ?_⟩
  intro ordinal pair slot candidate
  obtain ⟨comparable, known⟩ := ordered ordinal pair slot candidate
  have oriented : (inputs.oriented temporal pair).2 = none := by
    simp only [RelateInputs.oriented, orderPair, Std.ExtTreeMap.contains_empty, Bool.false_eq_true,
      if_false]
    simp only [RelateInputs.idAt] at comparable known
    cases order : temporal.compareClaims (claimAt inputs.claims pair.1).claimId
        (claimAt inputs.claims pair.2).claimId with
    | none => rfl
    | some relation =>
      rw [order] at comparable known
      cases relation with
      | same => rfl
      | before => rfl
      | after => rfl
      | concurrent => exact (comparable rfl).elim
      | unknown => exact (known rfl).elim
  refine ⟨oriented, ?_⟩
  rw [RelateInputs.ask, oriented]
  exact decisive _ _

/-- As many pages as a smallest budget can need, and at least one: every run makes a pass. -/
def pagesNeeded (total smallest : Nat) : Nat := max 1 ((total + smallest - 1) / smallest)

/-- Pages of the smallest budget cover the order. -/
theorem total_le_pagesNeeded (total : Nat) {smallest : Nat} (positive : 1 ≤ smallest) :
    total ≤ pagesNeeded total smallest * smallest := by
  have ceiling : total ≤ (total + smallest - 1) / smallest * smallest := by
    have division := Nat.div_add_mod (total + smallest - 1) smallest
    have remainder := Nat.mod_lt (total + smallest - 1) positive
    have commuted := Nat.mul_comm smallest ((total + smallest - 1) / smallest)
    omega
  have larger : (total + smallest - 1) / smallest * smallest ≤
      pagesNeeded total smallest * smallest :=
    Nat.mul_le_mul_right smallest (Nat.le_max_right _ _)
  omega

/-- Fewer than two claims have no slots and need one pass. -/
theorem pagesNeeded_few {inputs : RelateInputs Score} (few : inputs.claims.length < 2)
    {smallest : Nat} (positive : 1 ≤ smallest) :
    indexPairs inputs.claims.length = [] ∧ pagesNeeded inputs.total smallest = 1 := by
  have small : inputs.claims.length = 0 ∨ inputs.claims.length = 1 := by omega
  have noPairs : indexPairs inputs.claims.length = [] := by
    rcases small with zero | one
    · rw [zero]
      rfl
    · rw [one]
      rfl
  have total : inputs.total = 0 := by
    rw [RelateInputs.total, pairCount, ← length_indexPairs, noPairs]
    rfl
  have rounded : (0 + smallest - 1) / smallest = 0 := Nat.div_eq_of_lt (by omega)
  exact ⟨noPairs, by rw [total, pagesNeeded, rounded]; rfl⟩

/-- No open key is listed twice. -/
theorem nodup_openKeys {inputs : RelateInputs Score} (distinct : inputs.Distinct)
    (temporal : RelateTemporalPolicy) (settled : SettledMap) :
    (inputs.openKeys temporal settled (indexPairs inputs.claims.length)).Nodup := by
  rw [RelateInputs.openKeys]
  apply List.Nodup.map_on
  · intro p pMember q qMember same
    obtain ⟨pLess, pBelow⟩ := mem_indexPairs.mp (List.mem_filter.mp pMember).1
    obtain ⟨qLess, qBelow⟩ := mem_indexPairs.mp (List.mem_filter.mp qMember).1
    obtain ⟨i, pSlot⟩ := RelateInputs.exists_slot pLess pBelow
    obtain ⟨j, qSlot⟩ := RelateInputs.exists_slot qLess qBelow
    have qKey := freshKey_cases inputs temporal q
    rw [← same] at qKey
    exact isKey_unique distinct pSlot qSlot (freshKey_cases inputs temporal p) qKey
  · exact (nodup_indexPairs _).filter _

end Keys

section Outcomes

variable [Blake3] {Score : Type}

/-- The complete outcome an authority reduces to. -/
def RelateInputs.completeOutcome (inputs : RelateInputs Score) (temporal : RelateTemporalPolicy)
    (authority : SettledMap) (fresh : List (ClaimId × ClaimId)) (budget : Nat) :
    CompleteRelateOutcome :=
  let complete := reduceOutcomes inputs.claims temporal
    (authoritativePairs inputs.claims authority fresh (List.replicate inputs.claims.length 0))
  { related := complete.related
    held := complete.held
    candidatePairs := complete.related.judgments.length
    candidatePairBudget := budget }

/-- A page that leaves slots behind resumes at its end with its window settled. -/
theorem pageOutcome_more {inputs : RelateInputs Score} {judge : Judge}
    {temporal : RelateTemporalPolicy} (answering : inputs.Answering judge temporal)
    (settled : SettledMap) {cursor budget : Nat}
    (more : inputs.pageStop cursor budget < inputs.total) :
    (inputs.pageOutcome judge settled (pageOptions temporal budget cursor)).nextCursor =
        some (inputs.pageStop cursor budget) ∧
      (inputs.pageOutcome judge settled (pageOptions temporal budget cursor)).judgments.foldl
          insertJudgment settled =
        inputs.settleSlots judge temporal settled
          (inputs.slots (inputs.pageStart cursor) (inputs.pageStop cursor budget)) := by
  have named : (inputs.pageCompletion settled (pageOptions temporal budget cursor)).nextCursor =
      some (inputs.pageStop cursor budget) := pageCompletion_nextCursor.mpr ⟨more, rfl⟩
  cases resume : (inputs.pageOutcome judge settled (pageOptions temporal budget cursor)).nextCursor with
  | none =>
    have last := (finishPage_complete resume).2.1
    rw [named] at last
    cases last
  | some next =>
    obtain ⟨judgments, source, _, _⟩ := finishPage_incomplete resume
    constructor
    · rw [page_never_fails answering] at source
      rcases source with absent | stop
      · cases absent
      · rw [named] at stop
        exact stop.symm
    · rw [RelateInputs.pageOutcome, judgments, page_settles answering]

/-- The last page reduces everything settled by then. -/
theorem pageOutcome_last {inputs : RelateInputs Score} {judge : Judge}
    {temporal : RelateTemporalPolicy} (answering : inputs.Answering judge temporal)
    (settled : SettledMap) {cursor budget : Nat}
    (last : inputs.pageStop cursor budget = inputs.total) :
    ∃ fresh, inputs.pageOutcome judge settled (pageOptions temporal budget cursor) =
      .complete (inputs.completeOutcome temporal
        (inputs.settleSlots judge temporal settled
          (inputs.slots (inputs.pageStart cursor) inputs.total)) fresh budget) := by
  have noStop : (inputs.pageCompletion settled (pageOptions temporal budget cursor)).nextCursor =
      none := by
    simp only [RelateInputs.pageCompletion]
    rw [if_neg (by omega)]
  have settles := page_settles answering settled cursor budget
  rw [last] at settles
  refine ⟨(((inputs.pageAcquired judge settled (pageOptions temporal budget cursor)).filterMap
    judgmentOf).filter fun judgment => !judgment.reusedAuthority).map PairJudgment.key, ?_⟩
  rw [RelateInputs.pageOutcome, finishPage, page_never_fails answering, noStop]
  simp only [List.min?_nil, Option.toList_none, List.append_nil]
  rw [judgments_reduceOutcomes, ← settles]
  rfl

/-- A run after so many passes whose budgets are at least the smallest. -/
structure RelateInputs.Paged (inputs : RelateInputs Score) (judge : Judge)
    (temporal : RelateTemporalPolicy) (initial : SettledMap) (smallest passes : Nat)
    (run : RelateRun) : Prop where
  reached : ∀ cursor, run.cursor = some cursor →
    passes * smallest ≤ cursor ∧ (cursor < inputs.total ∨ (passes = 0 ∧ cursor = 0))
  settles : ∀ cursor, run.cursor = some cursor →
    run.settled = inputs.settleSlots judge temporal initial (inputs.slots 0 cursor)
  asks : ∀ cursor, run.cursor = some cursor →
    run.asked = inputs.openKeys temporal initial ((inputs.slots 0 cursor).map Prod.snd)
  behind : ∀ cursor, run.cursor = some cursor → ∀ earlier ∈ run.cursors, earlier < cursor
  increasing : run.cursors.Pairwise (· < ·)
  counted : run.cursors.length ≤ passes
  completed : run.cursor = none → ∃ fresh budget,
    run.outcome = some (.complete (inputs.completeOutcome temporal
      (inputs.settleSlots judge temporal initial (inputs.slots 0 inputs.total)) fresh budget)) ∧
    run.asked = inputs.openKeys temporal initial ((inputs.slots 0 inputs.total).map Prod.snd)

/-- One more pass. -/
theorem RelateInputs.Paged.next {inputs : RelateInputs Score} {judge : Judge}
    {temporal : RelateTemporalPolicy} (answering : inputs.Answering judge temporal)
    (several : 2 ≤ inputs.claims.length) {initial : SettledMap} {smallest passes : Nat}
    {run : RelateRun} (paged : inputs.Paged judge temporal initial smallest passes run)
    (positive : 1 ≤ smallest) {budget : Nat} (least : smallest ≤ budget) :
    ∃ later, RelateRun.next inputs.claims inputs.embedder judge inputs.thresholds temporal run
        budget = .ok later ∧ inputs.Paged judge temporal initial smallest (passes + 1) later := by
  cases resumes : run.cursor with
  | none =>
    refine ⟨run, by rw [RelateRun.next, resumes], ?_, ?_, ?_, ?_, paged.increasing, ?_,
      paged.completed⟩
    · intro cursor absent
      rw [resumes] at absent
      cases absent
    · intro cursor absent
      rw [resumes] at absent
      cases absent
    · intro cursor absent
      rw [resumes] at absent
      cases absent
    · intro cursor absent
      rw [resumes] at absent
      cases absent
    · have counted := paged.counted
      omega
  | some cursor =>
    obtain ⟨floor, place⟩ := paged.reached cursor resumes
    have start : inputs.pageStart cursor = cursor := by
      simp only [RelateInputs.pageStart]
      omega
    have reach : cursor ≤ inputs.pageStop cursor budget ∧
        inputs.pageStop cursor budget ≤ inputs.total := by
      simp only [RelateInputs.pageStop, RelateInputs.pageStart]
      omega
    have window : inputs.settleSlots judge temporal run.settled
        (inputs.slots (inputs.pageStart cursor) (inputs.pageStop cursor budget)) =
        inputs.settleSlots judge temporal initial
          (inputs.slots 0 (inputs.pageStop cursor budget)) := by
      rw [paged.settles cursor resumes, start, RelateInputs.settleSlots, RelateInputs.settleSlots,
        RelateInputs.settleSlots, ← List.foldl_append, slots_append inputs (by omega) reach.1]
    have asked : run.asked ++ inputs.pageAsked judge run.settled (pageOptions temporal budget cursor) =
        inputs.openKeys temporal initial
          ((inputs.slots 0 (inputs.pageStop cursor budget)).map Prod.snd) := by
      rw [page_asks answering, paged.asks cursor resumes, paged.settles cursor resumes, start,
        openKeys_settleSlots judge temporal answering.distinct, openKeys_append, ← List.map_append,
        slots_append inputs (by omega) reach.1]
    have increasing : (run.cursors ++ [cursor]).Pairwise (· < ·) := by
      rw [List.pairwise_append]
      refine ⟨paged.increasing, List.pairwise_singleton _ _, ?_⟩
      intro earlier member last same
      rw [List.mem_singleton.mp same]
      exact paged.behind cursor resumes earlier member
    have counted : (run.cursors ++ [cursor]).length ≤ passes + 1 := by
      have before := paged.counted
      rw [List.length_append, List.length_singleton]
      omega
    refine ⟨_, RelateRun.next_page inputs judge temporal resumes budget several, ?_⟩
    by_cases more : inputs.pageStop cursor budget < inputs.total
    · obtain ⟨next, settles⟩ := pageOutcome_more answering run.settled more
      have named : ∀ other, (run.afterPage inputs judge temporal cursor budget).cursor =
          some other → other = inputs.pageStop cursor budget := by
        intro other same
        rw [RelateRun.afterPage] at same
        simp only [next, Option.some.injEq] at same
        exact same.symm
      constructor
      · intro other same
        have stop := named other same
        rw [Nat.add_mul]
        simp only [RelateInputs.pageStop, RelateInputs.pageStart] at stop more
        omega
      · intro other same
        rw [named other same, ← window, ← settles]
        rfl
      · intro other same
        rw [named other same, ← asked]
        rfl
      · intro other same earlier member
        have stop := named other same
        simp only [RelateInputs.pageStop, RelateInputs.pageStart] at stop more
        rcases List.mem_append.mp member with before | here
        · have lower := paged.behind cursor resumes earlier before
          omega
        · have equal := List.mem_singleton.mp here
          omega
      · exact increasing
      · exact counted
      · intro absent
        rw [RelateRun.afterPage] at absent
        simp only [next] at absent
        cases absent
    · have last : inputs.pageStop cursor budget = inputs.total := by omega
      obtain ⟨fresh, outcome⟩ := pageOutcome_last answering run.settled last
      have done : ∀ other, (run.afterPage inputs judge temporal cursor budget).cursor ≠
          some other := by
        intro other same
        rw [RelateRun.afterPage] at same
        simp only [outcome, RelateOutcome.nextCursor] at same
        cases same
      constructor
      · intro other same
        exact (done other same).elim
      · intro other same
        exact (done other same).elim
      · intro other same
        exact (done other same).elim
      · intro other same
        exact (done other same).elim
      · exact increasing
      · exact counted
      · intro _
        rw [last] at window asked
        refine ⟨fresh, budget, ?_, asked⟩
        rw [← window, ← outcome]
        rfl

/-- Passes whose budgets are at least the smallest, one by one. -/
theorem RelateInputs.Paged.passes {inputs : RelateInputs Score} {judge : Judge}
    {temporal : RelateTemporalPolicy} (answering : inputs.Answering judge temporal)
    (several : 2 ≤ inputs.claims.length) {initial : SettledMap} {smallest : Nat}
    (positive : 1 ≤ smallest) {budgets : List Nat} (least : ∀ budget ∈ budgets, smallest ≤ budget)
    {passes : Nat} {run : RelateRun} (paged : inputs.Paged judge temporal initial smallest passes run) :
    ∃ later, relatePasses inputs.claims inputs.embedder judge inputs.thresholds temporal run
        budgets = .ok later ∧
      inputs.Paged judge temporal initial smallest (passes + budgets.length) later := by
  induction budgets generalizing passes run with
  | nil => exact ⟨run, rfl, paged⟩
  | cons budget budgets ih =>
    obtain ⟨middle, first, made⟩ := paged.next answering several positive (least budget (by simp))
    obtain ⟨later, rest, done⟩ := ih (fun other member => least other (by simp [member])) made
    refine ⟨later, ?_, ?_⟩
    · rw [relatePasses, List.foldlM_cons, first]
      exact rest
    · rw [List.length_cons, Nat.add_comm budgets.length 1, ← Nat.add_assoc]
      exact done

/-- Two complete outcomes decide alike: the same edges, conflicts and held decisions, and
the same verdict for every pair. -/
structure DecidesLike (a b : CompleteRelateOutcome) : Prop where
  supersessions : a.related.supersessions = b.related.supersessions
  conflicts : a.related.conflicts = b.related.conflicts
  verdicts : a.related.judgments.map (fun judgment => (judgment.key, judgment.verdict)) =
    b.related.judgments.map fun judgment => (judgment.key, judgment.verdict)
  held : a.held = b.held

/-- One authority is decided one way. -/
theorem decidesLike_completeOutcome (inputs : RelateInputs Score)
    (temporal : RelateTemporalPolicy) (authority : SettledMap)
    (fresh other : List (ClaimId × ClaimId)) (budget whole : Nat) :
    DecidesLike (inputs.completeOutcome temporal authority fresh budget)
      (inputs.completeOutcome temporal authority other whole) := by
  have same := sameDecisions_of_forgetReuse inputs.claims temporal
    (forgetReuse_authoritativePairs inputs.claims authority fresh other
      (List.replicate inputs.claims.length 0))
  refine ⟨same.supersessions, same.conflicts, ?_, same.held⟩
  have verdicts := congrArg
    (List.map fun judgment : PairJudgment => (judgment.key, judgment.verdict)) same.verdicts
  simp only [List.map_map] at verdicts
  exact verdicts

/-- Before the first pass. -/
theorem RelateInputs.Paged.start (inputs : RelateInputs Score) (judge : Judge)
    (temporal : RelateTemporalPolicy) (settled : SettledMap) (smallest : Nat) :
    inputs.Paged judge temporal settled smallest 0 { settled := settled } := by
  have empty : inputs.slots 0 0 = [] := by simp [RelateInputs.slots, window]
  constructor
  · intro cursor same
    have zero : 0 = cursor := Option.some.inj same
    omega
  · intro cursor same
    have zero : 0 = cursor := Option.some.inj same
    subst zero
    rw [empty]
    rfl
  · intro cursor same
    have zero : 0 = cursor := Option.some.inj same
    subst zero
    rw [empty]
    rfl
  · intro cursor _ earlier member
    cases member
  · exact List.Pairwise.nil
  · exact Nat.le_refl _
  · intro absent
    cases absent

/-- Enough passes complete the run. -/
theorem RelateInputs.Paged.done {inputs : RelateInputs Score} {judge : Judge}
    {temporal : RelateTemporalPolicy} {settled : SettledMap} {smallest : Nat} {run : RelateRun}
    (paged : inputs.Paged judge temporal settled smallest (pagesNeeded inputs.total smallest) run)
    (positive : 1 ≤ smallest) : run.cursor = none := by
  cases resumes : run.cursor with
  | none => rfl
  | some cursor =>
    obtain ⟨floor, place⟩ := paged.reached cursor resumes
    have enough := total_le_pagesNeeded inputs.total positive
    have one : 1 ≤ pagesNeeded inputs.total smallest := Nat.le_max_left _ _
    omega

/-- Paging by any budgets ends, decides what one pass over all pairs decides, moves its
cursor forward only, and asks about every open candidate pair once. -/
theorem paged_relate_decides_like_single_pass (inputs : RelateInputs Score) (judge : Judge)
    (temporal : RelateTemporalPolicy) (settled : SettledMap) (distinct : inputs.Distinct)
    (ordered : inputs.SourceOrdered temporal)
    (decisive : ∀ older newer, ∃ verdict, judge older newer = .ok verdict)
    (budgets : Nat → Nat) (smallest : Nat) (positive : 1 ≤ smallest)
    (least : ∀ page, smallest ≤ budgets page) (whole : Nat) (covers : inputs.total ≤ whole) :
    ∃ run outcome single asked,
      relatePasses inputs.claims inputs.embedder judge inputs.thresholds temporal
          { settled := settled }
          ((List.range (pagesNeeded inputs.total smallest)).map budgets) = .ok run ∧
      run.cursor = none ∧ run.outcome = some (.complete outcome) ∧
      relateClaimsSettled inputs.claims inputs.embedder judge inputs.thresholds settled
          (pageOptions temporal whole 0) = .ok ⟨.complete single, asked⟩ ∧
      DecidesLike outcome single ∧
      run.cursors.Pairwise (· < ·) ∧
      run.cursors.length ≤ pagesNeeded inputs.total smallest ∧
      run.asked = inputs.openKeys temporal settled (indexPairs inputs.claims.length) ∧
      run.asked.Nodup := by
  have once_each := nodup_openKeys distinct temporal settled
  have answering := ordered.answering distinct decisive
  by_cases several : 2 ≤ inputs.claims.length
  · have allowed : ∀ budget ∈ (List.range (pagesNeeded inputs.total smallest)).map budgets,
        smallest ≤ budget := by
      intro budget member
      obtain ⟨page, _, rfl⟩ := List.mem_map.mp member
      exact least page
    obtain ⟨run, ran, paged⟩ := (RelateInputs.Paged.start inputs judge temporal settled
      smallest).passes answering several positive allowed
    rw [List.length_map, List.length_range, Nat.zero_add] at paged
    have done := paged.done positive
    obtain ⟨fresh, budget, outcome, asked⟩ := paged.completed done
    have last : inputs.pageStop 0 whole = inputs.total := by
      simp only [RelateInputs.pageStop, RelateInputs.pageStart]
      omega
    have start : inputs.pageStart 0 = 0 := by simp [RelateInputs.pageStart]
    obtain ⟨other, page⟩ := pageOutcome_last answering settled last
    have single := relateClaimsSettled_eq inputs judge settled (pageOptions temporal whole 0) several
    rw [page, start] at single
    have pairs : (inputs.slots 0 inputs.total).map Prod.snd = indexPairs inputs.claims.length := by
      rw [RelateInputs.slots, map_snd_window, List.drop_zero, List.take_of_length_le]
      rw [length_indexPairs, Nat.sub_zero]
      exact Nat.le_refl _
    rw [pairs] at asked
    exact ⟨run, _, _, _, ran, done, outcome, single, decidesLike_completeOutcome _ _ _ _ _ _ _,
      paged.increasing, paged.counted, asked, asked ▸ once_each⟩
  · have few : inputs.claims.length < 2 := by omega
    obtain ⟨noPairs, once⟩ := pagesNeeded_few few positive
    have fresh : (RelateRun.cursor { settled := settled }) = some 0 := rfl
    have ran := RelateRun.next_few judge temporal fresh (budgets 0) few
    have none_open : inputs.openKeys temporal settled (indexPairs inputs.claims.length) = [] := by
      rw [noPairs]
      rfl
    refine ⟨{ settled := settled, cursor := none, cursors := [0], outcome := some .default }, _, _, _,
      ?_, rfl, rfl, relateClaimsSettled_few judge settled _ few, ⟨rfl, rfl, rfl, rfl⟩,
      List.pairwise_singleton _ _, ?_, none_open.symm, List.nodup_nil⟩
    · rw [once, relatePasses]
      show List.foldlM _ _ [budgets 0] = _
      rw [List.foldlM_cons, ran]
      rfl
    · rw [once]
      exact Nat.le_refl _

end Outcomes

/-- A judge that finds every pair unrelated. -/
def unrelatedJudge : Judge := fun _ _ => .ok ⟨.unrelated, 0⟩

/-- Three claims, related one slot a page, end like one pass over their three slots. -/
theorem paged_relate_decides_like_single_pass_three :
    let _ := decimalDigest
    ∃ run outcome single asked,
      relatePasses threeInputs.claims threeInputs.embedder unrelatedJudge threeInputs.thresholds {}
          { settled := ∅ } ((List.range (pagesNeeded threeInputs.total 1)).map fun _ => 1) =
        .ok run ∧
      run.cursor = none ∧ run.outcome = some (.complete outcome) ∧
      relateClaimsSettled threeInputs.claims threeInputs.embedder unrelatedJudge
          threeInputs.thresholds ∅ (pageOptions {} 3 0) = .ok ⟨.complete single, asked⟩ ∧
      DecidesLike outcome single ∧
      run.cursors.Pairwise (· < ·) ∧
      run.cursors.length ≤ pagesNeeded threeInputs.total 1 ∧
      run.asked = threeInputs.openKeys {} ∅ (indexPairs threeInputs.claims.length) ∧
      run.asked.Nodup :=
  let _ := decimalDigest
  paged_relate_decides_like_single_pass threeInputs unrelatedJudge {} ∅
    (by rw [RelateInputs.Distinct]; decide)
    (fun _ pair _ _ => by simp [RelateTemporalPolicy.compareClaims]) (fun _ _ => ⟨_, rfl⟩)
    (fun _ => 1) 1 (by decide) (fun _ => by decide) 3 (by decide)

/-- A single claim under the near embedder. -/
def loneInputs : RelateInputs Nat where
  claims := threeClaims.take 1
  embedder := nearEmbedder
  thresholds := { cluster := 1, prefilter := 1 }
  embeddings := [[1]]
  embedded := rfl

/-- A single claim has no slots, so the ceiling of the quotient is zero; yet no pass leaves no
outcome, and the run that completes makes one. -/
theorem lone_claim_needs_a_pass :
    let _ := decimalDigest
    (loneInputs.total + 1 - 1) / 1 = 0 ∧
      relatePasses loneInputs.claims loneInputs.embedder unrelatedJudge loneInputs.thresholds {} {}
        [] = .ok {} ∧
      ∃ run, relatePasses loneInputs.claims loneInputs.embedder unrelatedJudge
          loneInputs.thresholds {} {} [1] = .ok run ∧
        run.outcome = some .default ∧ run.cursor = none ∧ run.cursors.length = 1 :=
  let _ := decimalDigest
  ⟨by decide, rfl, _, rfl, rfl, rfl, rfl⟩

end Texo.Semantics
