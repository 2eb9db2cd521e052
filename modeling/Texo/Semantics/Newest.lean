import Texo.Foundation.Contest
import Texo.Semantics.Successors

/-! # The newest successor

An old claim that several claims supersede goes to the newest of them. The verdicts are folded one
by one, and a mark of doubt once made stays: what the fold says of the old claim is what a contest
of its successors says, in the order of their verdicts.
-/
namespace Texo.Semantics
open Texo.Events Texo.Knowledge Texo.Foundation

/-- The claims judged to supersede one old claim, in the order of their verdicts. -/
def successorsOf (old : Nat) (acquired : List (PendingPair × PairOutcome)) : List Nat :=
  acquired.filterMap fun pair =>
    match pair.2 with
    | .judged verdict _ =>
      if verdict.relation = .supersedes ∧ pair.1.oldIdx = old then some pair.1.newIdx else none
    | .failed _ => none

/-- A successor is newer than all the others: after them in time, or later in the journal where
time does not tell them apart. -/
def NewestSuccessor (claims : List ClaimView) (temporal : RelateTemporalPolicy)
    (successors : List Nat) (top : Nat) : Prop :=
  top ∈ successors ∧ ∀ other ∈ successors, other ≠ top →
    temporal.compareClaims (claimAt claims top).claimId (claimAt claims other).claimId =
        some .after ∨
      ((temporal.compareClaims (claimAt claims top).claimId (claimAt claims other).claimId = none ∨
          temporal.compareClaims (claimAt claims top).claimId (claimAt claims other).claimId =
            some .same) ∧
        laterInSequence claims other top = true)

/-- Of two claims one is later in the journal. -/
theorem laterInSequence_total (claims : List ClaimView) {a b : Nat} (apart : a ≠ b) :
    laterInSequence claims a b = !laterInSequence claims b a := by
  rw [Bool.eq_iff_iff, Bool.not_eq_true', Bool.eq_false_iff]
  simp only [ne_eq, laterInSequence_iff]
  omega

/-- A successor turned around: the candidate wins where the current one would be kept. -/
theorem compareSuccessors_turned (claims : List ClaimView) {temporal : RelateTemporalPolicy}
    (antisymmetric : temporal.Antisymmetric) {a b : Nat} (apart : a ≠ b) :
    compareSuccessors claims b a temporal = match compareSuccessors claims a b temporal with
      | .current => .candidate
      | .candidate => .current
      | .ambiguous => .ambiguous := by
  have turned := antisymmetric (claimAt claims a).claimId (claimAt claims b).claimId
  have later := laterInSequence_total claims apart
  have ties : (if laterInSequence claims b a = true then SuccessorOrder.candidate else .current) =
      match (if laterInSequence claims a b = true then SuccessorOrder.candidate else .current) with
      | .current => .candidate
      | .candidate => .current
      | .ambiguous => .ambiguous := by
    rw [later]
    cases laterInSequence claims b a with
    | true => rfl
    | false => rfl
  unfold compareSuccessors
  rw [turned]
  cases temporal.compareClaims (claimAt claims a).claimId (claimAt claims b).claimId with
  | none => exact ties
  | some relation =>
    cases relation with
    | same => exact ties
    | before => rfl
    | after => rfl
    | concurrent => rfl
    | unknown => rfl

/-- Successors as entrants: newer by source order or else by the journal, with the journal as the
tiebreak. -/
def successorRivalry (claims : List ClaimView) {temporal : RelateTemporalPolicy}
    (antisymmetric : temporal.Antisymmetric) : Rivalry Nat where
  newer a b := decide (compareSuccessors claims a b temporal = .candidate)
  later a b := laterInSequence claims a b
  asymmetric a b newer := by
    rw [decide_eq_true_eq] at newer
    rw [decide_eq_false_iff_not]
    intro older
    by_cases same : a = b
    · rw [same] at newer
      exact precedes_irrefl claims temporal b newer
    · rw [compareSuccessors_turned claims antisymmetric same, newer] at older
      cases older
  total _ _ apart := laterInSequence_total claims apart

/-- The newest successor is the newest entrant. -/
theorem newestSuccessor_iff {claims : List ClaimView} {temporal : RelateTemporalPolicy}
    (antisymmetric : temporal.Antisymmetric) {successors : List Nat} {top : Nat} :
    NewestSuccessor claims temporal successors top ↔
      (successorRivalry claims antisymmetric).Newest successors top := by
  have newer : ∀ other, (successorRivalry claims antisymmetric).newer other top = true ↔
      temporal.compareClaims (claimAt claims top).claimId (claimAt claims other).claimId =
          some .after ∨
        ((temporal.compareClaims (claimAt claims top).claimId (claimAt claims other).claimId = none ∨
            temporal.compareClaims (claimAt claims top).claimId (claimAt claims other).claimId =
              some .same) ∧
          laterInSequence claims other top = true) := by
    intro other
    show decide (compareSuccessors claims other top temporal = .candidate) = true ↔ _
    rw [decide_eq_true_eq]
    change Precedes claims temporal other top ↔ _
    rw [precedes_iff,
      antisymmetric (claimAt claims other).claimId (claimAt claims top).claimId]
    cases temporal.compareClaims (claimAt claims other).claimId (claimAt claims top).claimId with
    | none => simp
    | some relation =>
      cases relation with
      | same => simp [TemporalRelation.invert]
      | before => simp [TemporalRelation.invert]
      | after => simp [TemporalRelation.invert]
      | concurrent => simp [TemporalRelation.invert]
      | unknown => simp [TemporalRelation.invert]
  constructor
  · intro newest
    exact ⟨newest.1, fun other member apart => (newer other).mpr (newest.2 other member apart)⟩
  · intro newest
    exact ⟨newest.1, fun other member apart => (newer other).mp (newest.2 other member apart)⟩

/-- What a reduction says of an old claim: its winner, and whether it is ambiguous. -/
def PairReduction.reading (reduction : PairReduction) (old : Nat) : Option (Nat × Bool) :=
  (reduction.winners[old]?).map fun winner => (winner, decide (old ∈ reduction.ambiguousWinners))

/-- Only an old claim with a winner is ambiguous. -/
def PairReduction.Led (reduction : PairReduction) : Prop :=
  ∀ old ∈ reduction.ambiguousWinners, old ∈ reduction.winners

/-- What noting a winner does to the reading of its old claim. -/
theorem noteWinner_reading {reduction : PairReduction} (led : reduction.Led)
    (claims : List ClaimView) {temporal : RelateTemporalPolicy}
    (antisymmetric : temporal.Antisymmetric) (old new : Nat)
    (fresh : ∀ current, reduction.winners[old]? = some current → current ≠ new) :
    (reduction.noteWinner claims temporal old new).reading old =
      some ((successorRivalry claims antisymmetric).enter (reduction.reading old) new) := by
  have inserted : (reduction.winners.insert old new)[old]? = some new := by
    rw [Std.ExtTreeMap.getElem?_insert, if_pos Std.ReflCmp.compare_self]
  cases found : reduction.winners[old]? with
  | none =>
    have clear : old ∉ reduction.ambiguousWinners := by
      intro doubted
      have held := Std.ExtTreeMap.isSome_getElem?_iff_mem.mpr (led old doubted)
      rw [found] at held
      cases held
    have noted : reduction.noteWinner claims temporal old new =
        { reduction with winners := reduction.winners.insert old new } := by
      unfold PairReduction.noteWinner
      rw [found]
    rw [noted]
    simp only [PairReduction.reading, inserted, found, Option.map_some, Option.map_none,
      Rivalry.enter]
    rw [decide_eq_false clear]
  | some current =>
    have apart := fresh current found
    have turned := compareSuccessors_turned claims antisymmetric apart
    cases compared : compareSuccessors claims current new temporal with
    | candidate =>
      have noted : reduction.noteWinner claims temporal old new =
          { reduction with winners := reduction.winners.insert old new } := by
        unfold PairReduction.noteWinner
        rw [found]
        simp only [compared]
      rw [noted]
      simp only [PairReduction.reading, inserted, found, Option.map_some, Rivalry.enter,
        Rivalry.bout]
      rw [if_pos (show (successorRivalry claims antisymmetric).newer current new = true from
        decide_eq_true compared)]
    | current =>
      have noted : reduction.noteWinner claims temporal old new = reduction := by
        unfold PairReduction.noteWinner
        rw [found]
        simp only [compared]
      rw [compared] at turned
      have notNewer : ¬ (successorRivalry claims antisymmetric).newer current new = true := by
        show ¬ decide (compareSuccessors claims current new temporal = .candidate) = true
        rw [compared]
        decide
      rw [noted]
      simp only [PairReduction.reading, found, Option.map_some, Rivalry.enter,
        Rivalry.bout]
      rw [if_neg notNewer, if_pos (show (successorRivalry claims antisymmetric).newer new current =
        true from decide_eq_true turned)]
    | ambiguous =>
      have noted : reduction.noteWinner claims temporal old new =
          { reduction with
            ambiguousWinners := reduction.ambiguousWinners ++ [old]
            winners := if laterInSequence claims current new then
              reduction.winners.insert old new else reduction.winners } := by
        unfold PairReduction.noteWinner
        rw [found]
        simp only [compared]
      rw [compared] at turned
      have notNewer : ¬ (successorRivalry claims antisymmetric).newer current new = true := by
        show ¬ decide (compareSuccessors claims current new temporal = .candidate) = true
        rw [compared]
        decide
      have notOlder : ¬ (successorRivalry claims antisymmetric).newer new current = true := by
        show ¬ decide (compareSuccessors claims new current temporal = .candidate) = true
        rw [turned]
        decide
      have marked : decide (old ∈ reduction.ambiguousWinners ++ [old]) = true := by simp
      rw [noted]
      simp only [PairReduction.reading, found, Option.map_some, Rivalry.enter,
        Rivalry.bout]
      rw [if_neg notNewer, if_neg notOlder, marked]
      show Option.map (fun winner => (winner, true)) (if laterInSequence claims current new = true
        then reduction.winners.insert old new else reduction.winners)[old]? =
          some (if laterInSequence claims current new = true then new else current, true)
      by_cases later : laterInSequence claims current new = true
      · rw [if_pos later, if_pos later, inserted]
        rfl
      · rw [if_neg later, if_neg later, found]
        rfl

/-- Noting a winner changes no other old claim's reading. -/
theorem noteWinner_other (reduction : PairReduction) (claims : List ClaimView)
    (temporal : RelateTemporalPolicy) {oldIdx newIdx old : Nat} (other : oldIdx ≠ old) :
    (reduction.noteWinner claims temporal oldIdx newIdx).reading old = reduction.reading old := by
  have kept : (reduction.winners.insert oldIdx newIdx)[old]? = reduction.winners[old]? := by
    rw [Std.ExtTreeMap.getElem?_insert, if_neg]
    intro same
    exact other (Std.LawfulEqCmp.eq_of_compare same)
  have unmarked : decide (old ∈ reduction.ambiguousWinners ++ [oldIdx]) =
      decide (old ∈ reduction.ambiguousWinners) := by
    simp [Ne.symm other]
  unfold PairReduction.noteWinner
  cases reduction.winners[oldIdx]? with
  | none => simp only [PairReduction.reading, kept]
  | some current =>
    simp only
    cases compareSuccessors claims current newIdx temporal with
    | candidate => simp only [PairReduction.reading, kept]
    | current => rfl
    | ambiguous =>
      simp only [PairReduction.reading]
      rw [unmarked]
      by_cases later : laterInSequence claims current newIdx = true
      · rw [if_pos later, kept]
      · rw [if_neg later]

/-- Noting a winner leaves every ambiguous old claim with a winner. -/
theorem PairReduction.Led.noteWinner {reduction : PairReduction} (led : reduction.Led)
    (claims : List ClaimView) (temporal : RelateTemporalPolicy) (oldIdx newIdx : Nat) :
    (reduction.noteWinner claims temporal oldIdx newIdx).Led := by
  have inserted : ∀ idx, idx ∈ reduction.winners → idx ∈ reduction.winners.insert oldIdx newIdx :=
    fun idx member => Std.ExtTreeMap.mem_insert.mpr (Or.inr member)
  unfold PairReduction.noteWinner
  cases found : reduction.winners[oldIdx]? with
  | none => exact fun idx doubted => inserted idx (led idx doubted)
  | some current =>
    have present : oldIdx ∈ reduction.winners :=
      Std.ExtTreeMap.isSome_getElem?_iff_mem.mp (by rw [found]; rfl)
    simp only
    cases compareSuccessors claims current newIdx temporal with
    | candidate => exact fun idx doubted => inserted idx (led idx doubted)
    | current => exact led
    | ambiguous =>
      intro idx doubted
      have held : idx ∈ reduction.winners := by
        rcases List.mem_append.mp doubted with earlier | own
        · exact led idx earlier
        · rw [List.mem_singleton.mp own]
          exact present
      show idx ∈ if laterInSequence claims current newIdx = true then
        reduction.winners.insert oldIdx newIdx else reduction.winners
      by_cases later : laterInSequence claims current newIdx = true
      · rw [if_pos later]
        exact inserted idx held
      · rw [if_neg later]
        exact held

/-- A reduction reads an old claim as the contest of its successors. -/
theorem reading_collectPairReduction (claims : List ClaimView) {temporal : RelateTemporalPolicy}
    (antisymmetric : temporal.Antisymmetric) (old : Nat)
    (acquired : List (PendingPair × PairOutcome)) (distinct : (successorsOf old acquired).Nodup) :
    (collectPairReduction claims temporal acquired).reading old =
        (successorRivalry claims antisymmetric).contest (successorsOf old acquired) ∧
      (collectPairReduction claims temporal acquired).Led := by
  induction acquired using List.reverseRecOn with
  | nil => exact ⟨rfl, by intro old doubted; cases doubted⟩
  | append_singleton earlier pair ih =>
    obtain ⟨pending, outcome⟩ := pair
    have folded : collectPairReduction claims temporal (earlier ++ [(pending, outcome)]) =
        collectPair claims temporal (collectPairReduction claims temporal earlier)
          (pending, outcome) := by
      unfold collectPairReduction
      rw [List.foldl_append, List.foldl_cons, List.foldl_nil]
    have split : successorsOf old (earlier ++ [(pending, outcome)]) =
        successorsOf old earlier ++ successorsOf old [(pending, outcome)] :=
      List.filterMap_append
    have before : (successorsOf old earlier).Nodup := by
      rw [split] at distinct
      exact (List.nodup_append.mp distinct).1
    obtain ⟨reads, led⟩ := ih before
    rw [folded, split]
    cases outcome with
    | failed failure =>
      refine ⟨?_, led⟩
      rw [show successorsOf old [(pending, PairOutcome.failed failure)] = [] from rfl,
        List.append_nil]
      exact reads
    | judged verdict reused =>
      obtain ⟨relation, score⟩ := verdict
      cases relation with
      | supersedes =>
        let judged : PairReduction :=
          { collectPairReduction claims temporal earlier with
            judgments := (collectPairReduction claims temporal earlier).judgments ++
              [⟨pending.older, pending.newer, ⟨.supersedes, score⟩, reused⟩] }
        have judgedLed : judged.Led := led
        have judgedReads : judged.reading old =
            (successorRivalry claims antisymmetric).contest (successorsOf old earlier) := reads
        refine ⟨?_, judgedLed.noteWinner claims temporal pending.oldIdx pending.newIdx⟩
        show (judged.noteWinner claims temporal pending.oldIdx pending.newIdx).reading old = _
        by_cases here : pending.oldIdx = old
        · have own : successorsOf old [(pending, PairOutcome.judged ⟨.supersedes, score⟩ reused)] =
              [pending.newIdx] := by
            simp [successorsOf, here]
          rw [split, own] at distinct
          rw [own, Rivalry.contest_append, ← judgedReads, here]
          refine noteWinner_reading judgedLed claims antisymmetric old pending.newIdx ?_
          intro current found same
          -- The winner so far is an earlier successor.
          have entered : current ∈ successorsOf old earlier := by
            have read : judged.reading old =
                some (current, decide (old ∈ judged.ambiguousWinners)) := by
              simp only [PairReduction.reading, found, Option.map_some]
            rw [judgedReads] at read
            cases listed : successorsOf old earlier with
            | nil =>
              rw [listed] at read
              cases read
            | cons first rest =>
              rw [listed] at read
              have champion := congrArg Prod.fst (Option.some.inj read)
              rw [← (show _ = current from champion)]
              exact (successorRivalry claims antisymmetric).champion_mem rest (first, false)
          rw [same] at entered
          exact (List.nodup_append.mp distinct).2.2 _ entered _ (List.mem_singleton.mpr rfl) rfl
        · have none : successorsOf old [(pending, PairOutcome.judged ⟨.supersedes, score⟩ reused)] =
              [] := by
            simp [successorsOf, here]
          rw [none, List.append_nil, noteWinner_other judged claims temporal here]
          exact judgedReads
      | conflict =>
        refine ⟨?_, led⟩
        rw [show successorsOf old [(pending, PairOutcome.judged ⟨.conflict, score⟩ reused)] = [] by
          simp [successorsOf], List.append_nil]
        exact reads
      | duplicate =>
        refine ⟨?_, led⟩
        rw [show successorsOf old [(pending, PairOutcome.judged ⟨.duplicate, score⟩ reused)] = [] by
          simp [successorsOf], List.append_nil]
        exact reads
      | unrelated =>
        refine ⟨?_, led⟩
        rw [show successorsOf old [(pending, PairOutcome.judged ⟨.unrelated, score⟩ reused)] = [] by
          simp [successorsOf], List.append_nil]
        exact reads

/-- Verdicts that reach the reduction in any order are read by the newest of the successors. -/
def ReadsNewest (claims : List ClaimView) (temporal : RelateTemporalPolicy) (old : Nat)
    (successors : List Nat) (acquired : List (PendingPair × PairOutcome)) : Prop :=
  (∀ top, NewestSuccessor claims temporal successors top →
    (collectPairReduction claims temporal acquired).winners[old]? = some top ∧
      old ∉ (collectPairReduction claims temporal acquired).ambiguousWinners) ∧
  (old ∈ (collectPairReduction claims temporal acquired).ambiguousWinners ↔
    ¬ ∃ top, NewestSuccessor claims temporal successors top)

/-- Two orders of the verdicts leave an old claim with the same winner and the same mark. -/
def SameReading (claims : List ClaimView) (temporal : RelateTemporalPolicy) (old : Nat)
    (acquired other : List (PendingPair × PairOutcome)) : Prop :=
  (collectPairReduction claims temporal acquired).winners[old]? =
      (collectPairReduction claims temporal other).winners[old]? ∧
    (old ∈ (collectPairReduction claims temporal acquired).ambiguousWinners ↔
      old ∈ (collectPairReduction claims temporal other).ambiguousWinners)

/-- A verdict that a claim supersedes the old one. -/
def supersedingPair (claims : List ClaimView) (old new : Nat) : PendingPair × PairOutcome :=
  ({ oldIdx := old
     newIdx := new
     older := (claimAt claims old).claimId
     newer := (claimAt claims new).claimId
     temporalFailure := none
     cursor := 0 }, .judged ⟨.supersedes, 900000⟩ false)

/-- Superseding verdicts name the successors in their order. -/
theorem successorsOf_superseding (claims : List ClaimView) (old : Nat) (order : List Nat) :
    successorsOf old (order.map (supersedingPair claims old)) = order := by
  induction order with
  | nil => rfl
  | cons new rest ih =>
    have own : successorsOf old ((new :: rest).map (supersedingPair claims old)) =
        new :: successorsOf old (rest.map (supersedingPair claims old)) := by
      simp [successorsOf, supersedingPair]
    rw [own, ih]

/-- Every order of its verdicts reads an old claim by the newest successor, if and only if one
successor is newest and any two are comparable, or no chain of ever newer ones ends above all of
them and one prevails against each other. -/
theorem newest_read_iff (claims : List ClaimView) {temporal : RelateTemporalPolicy}
    (antisymmetric : temporal.Antisymmetric) (old : Nat) {successors : List Nat}
    (distinct : successors.Nodup) (judged : successors ≠ []) :
    ((∀ acquired, (successorsOf old acquired).Perm successors →
        ReadsNewest claims temporal old successors acquired) ∧
      ∀ acquired other, (successorsOf old acquired).Perm successors →
        (successorsOf old other).Perm successors → SameReading claims temporal old acquired other) ↔
      ((∃ top, NewestSuccessor claims temporal successors top) ∧
          (successorRivalry claims antisymmetric).Comparable successors) ∨
        (¬ (successorRivalry claims antisymmetric).Dominated successors ∧
          ∃ winner ∈ successors, ∀ other ∈ successors, other ≠ winner →
            (successorRivalry claims antisymmetric).Prevails winner other) := by
  let rivalry := successorRivalry claims antisymmetric
  have newest : (∃ top, NewestSuccessor claims temporal successors top) ↔
      ∃ top, rivalry.Newest successors top :=
    exists_congr fun top => newestSuccessor_iff antisymmetric
  -- Each order is read as its contest, and some verdicts reach the reduction in it.
  have read : ∀ acquired, (successorsOf old acquired).Perm successors →
      ∃ state, rivalry.contest (successorsOf old acquired) = some state ∧
        (collectPairReduction claims temporal acquired).winners[old]? = some state.1 ∧
        (old ∈ (collectPairReduction claims temporal acquired).ambiguousWinners ↔
          state.2 = true) := by
    intro acquired arranged
    obtain ⟨reads, _⟩ := reading_collectPairReduction claims antisymmetric old acquired
      (arranged.nodup_iff.mpr distinct)
    cases listed : successorsOf old acquired with
    | nil =>
      rw [listed] at arranged
      exact absurd arranged.symm.eq_nil judged
    | cons first rest =>
      refine ⟨_, rfl, ?_⟩
      rw [listed] at reads
      obtain ⟨winner, found, same⟩ := Option.map_eq_some_iff.mp reads
      rw [found, ← same]
      exact ⟨rfl, by simp⟩
  have reached : ∀ order : List Nat, order.Perm successors → ∃ acquired,
      successorsOf old acquired = order :=
    fun order _ => ⟨_, successorsOf_superseding claims old order⟩
  rw [newest, ← rivalry.orderly_iff distinct judged]
  constructor
  · rintro ⟨reads, agree⟩
    constructor
    · intro order arranged state ended
      obtain ⟨acquired, rfl⟩ := reached order arranged
      obtain ⟨state', ended', _, marked⟩ := read acquired arranged
      rw [ended] at ended'
      rw [Option.some.inj ended', ← marked, (reads acquired arranged).2, newest]
    · intro order other arranged arranged'
      obtain ⟨acquired, rfl⟩ := reached order arranged
      obtain ⟨acquired', rfl⟩ := reached other arranged'
      obtain ⟨state, ended, won, marked⟩ := read acquired arranged
      obtain ⟨state', ended', won', marked'⟩ := read acquired' arranged'
      obtain ⟨sameWinner, sameMark⟩ := agree acquired acquired' arranged arranged'
      rw [ended, ended']
      rw [won, won'] at sameWinner
      rw [marked, marked'] at sameMark
      exact congrArg some (Prod.ext (Option.some.inj sameWinner) (Bool.eq_iff_iff.mpr sameMark))
  · rintro ⟨disputes, agree⟩
    constructor
    · intro acquired arranged
      obtain ⟨state, ended, won, marked⟩ := read acquired arranged
      have disputed := disputes _ arranged state ended
      constructor
      · intro top isNewest
        have isTop := (newestSuccessor_iff antisymmetric).mp isNewest
        have champion : state.1 = top := rivalry.champion_of_newest isTop arranged ended
        rw [won, champion, marked, disputed]
        exact ⟨rfl, fun none => none ⟨top, isTop⟩⟩
      · rw [marked, disputed, newest]
    · intro acquired other arranged arranged'
      obtain ⟨state, ended, won, marked⟩ := read acquired arranged
      obtain ⟨state', ended', won', marked'⟩ := read other arranged'
      have same := agree _ _ arranged arranged'
      rw [ended, ended'] at same
      have states := Option.some.inj same
      constructor
      · rw [won, won', states]
      · rw [marked, marked', states]

/-- Without evidence the journal orders any two successors. -/
theorem newest_read_journal :
    (∀ acquired, (successorsOf 0 acquired).Perm [1, 2] →
        ReadsNewest [] {} 0 [1, 2] acquired) ∧
      ∀ acquired other, (successorsOf 0 acquired).Perm [1, 2] →
        (successorsOf 0 other).Perm [1, 2] → SameReading [] {} 0 acquired other := by
  have antisymmetric : ({} : RelateTemporalPolicy).Antisymmetric := by
    intro left right
    rw [compareClaims_empty, compareClaims_empty]
    rfl
  refine (newest_read_iff [] antisymmetric 0 (by decide) (by decide)).mpr (Or.inl ⟨⟨2, ?_⟩, ?_⟩)
  · refine ⟨by decide, ?_⟩
    intro other member apart
    rw [compareClaims_empty]
    have first : other = 1 := by
      simp at member
      omega
    rw [first]
    exact Or.inr ⟨Or.inl rfl, by decide⟩
  · intro a aIn b bIn apart
    have compared : ∀ a b, a < b → (successorRivalry [] antisymmetric).newer a b = true := by
      intro a b below
      apply decide_eq_true
      apply precedes_iff.mpr
      right
      refine ⟨Or.inl (compareClaims_empty _ _), laterInSequence_iff.mpr (Or.inr ⟨rfl, below⟩)⟩
    rcases Nat.lt_or_gt_of_ne apart with below | above
    · exact Or.inl (compared a b below)
    · exact Or.inr (compared b a above)

/-- Four claims, the last three of revisions of their own. -/
def mergedClaims : List ClaimView :=
  [ { claimId := ⟨"claim_o", Eq.refl true⟩, text := "o", normalizedText := "o", sequence := 1 },
    { claimId := ⟨"claim_a", Eq.refl true⟩, text := "a", normalizedText := "a", sequence := 2 },
    { claimId := ⟨"claim_b", Eq.refl true⟩, text := "b", normalizedText := "b", sequence := 3 },
    { claimId := ⟨"claim_m", Eq.refl true⟩, text := "m", normalizedText := "m", sequence := 4 } ]

/-- Two concurrent revisions and the merge after both. -/
def mergePolicy : RelateTemporalPolicy where
  claimSnapshots := ((∅ : Std.ExtTreeMap String String).insert "claim_a" "s").insert "claim_b" "t"
    |>.insert "claim_m" "u"
  snapshotRelations := ((∅ : PairMap String TemporalRelation).insert ("s", "t") .concurrent).insert
    ("s", "u") .before |>.insert ("t", "u") .before

/-- The facts of the merge policy, looked up. -/
theorem mergePolicy_fact {pair : String × String} {relation : TemporalRelation}
    (found : mergePolicy.snapshotRelations[pair]? = some relation) :
    (pair, relation) ∈ [(("s", "t"), TemporalRelation.concurrent), (("s", "u"), .before),
      (("t", "u"), .before)] := by
  simp only [mergePolicy, Std.ExtTreeMap.getElem?_insert,
    Std.LawfulEqCmp.compare_eq_iff_eq] at found
  split at found
  · rename_i same
    rw [← same, ← Option.some.inj found]
    decide
  · split at found
    · rename_i same
      rw [← same, ← Option.some.inj found]
      decide
    · split at found
      · rename_i same
        rw [← same, ← Option.some.inj found]
        decide
      · simp at found

/-- The merge policy is antisymmetric and transitive. -/
theorem mergePolicy_ordered : mergePolicy.Antisymmetric ∧ mergePolicy.Transitive := by
  constructor
  · apply RelateTemporalPolicy.antisymmetric_of_directed
    intro left right forward backward
    have listed : ∀ pair, pair ∈ mergePolicy.snapshotRelations →
        pair ∈ [("s", "t"), ("s", "u"), ("t", "u")] := by
      intro pair member
      obtain ⟨relation, found⟩ :=
        Option.isSome_iff_exists.mp (Std.ExtTreeMap.isSome_getElem?_iff_mem.mpr member)
      exact List.mem_map_of_mem (f := Prod.fst) (mergePolicy_fact found)
    have directed : ∀ pair ∈ [("s", "t"), ("s", "u"), ("t", "u")],
        (pair.2, pair.1) ∉ [("s", "t"), ("s", "u"), ("t", "u")] := by decide
    exact directed _ (listed _ forward) (listed _ backward)
  · have steps : ∀ left right, mergePolicy.compareClaims left right = some .before →
        ∃ early late, mergePolicy.claimSnapshots[left.value]? = some early ∧
          mergePolicy.claimSnapshots[right.value]? = some late ∧
            (early, late) ∈ [("s", "u"), ("t", "u")] := by
      intro left right before
      obtain ⟨early, late, bound, boundNext, fact⟩ := compareClaims_before before
      refine ⟨early, late, bound, boundNext, ?_⟩
      rcases fact with forward | backward
      · have fact := mergePolicy_fact forward
        simp at fact
        simpa using fact
      · have fact := mergePolicy_fact backward
        simp at fact
    intro first second third before beforeNext
    obtain ⟨_, middle, _, here, one⟩ := steps first second before
    obtain ⟨middle', _, here', _, other⟩ := steps second third beforeNext
    rw [here] at here'
    rw [← Option.some.inj here'] at other
    have apart : ∀ one ∈ [("s", "u"), ("t", "u")], ∀ other ∈ [("s", "u"), ("t", "u")],
        one.2 ≠ other.1 := by decide
    exact absurd rfl (apart _ one _ other)

/-- The merge is the newest successor of the first claim, and an order in which the branches come
first leaves the claim ambiguous while another does not. -/
theorem merge_read_ambiguous :
    mergePolicy.Antisymmetric ∧ mergePolicy.Transitive ∧
      NewestSuccessor mergedClaims mergePolicy [1, 2, 3] 3 ∧
      0 ∈ (collectPairReduction mergedClaims mergePolicy
        ([1, 2, 3].map (supersedingPair mergedClaims 0))).ambiguousWinners ∧
      0 ∉ (collectPairReduction mergedClaims mergePolicy
        ([3, 1, 2].map (supersedingPair mergedClaims 0))).ambiguousWinners := by
  refine ⟨mergePolicy_ordered.1, mergePolicy_ordered.2, ⟨by decide, ?_⟩, by decide +kernel,
    by decide +kernel⟩
  have after : ∀ other ∈ [1, 2, 3], other ≠ 3 → mergePolicy.compareClaims
      (claimAt mergedClaims 3).claimId (claimAt mergedClaims other).claimId = some .after := by
    decide +kernel
  exact fun other member apart => Or.inl (after other member apart)

end Texo.Semantics
