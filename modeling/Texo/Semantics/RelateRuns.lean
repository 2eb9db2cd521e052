import Texo.Semantics.Passes

/-! # Runs of relate passes

A run repeats passes, carrying the settled map and the returned cursor from one to the
next. The cursor stops at the earliest slot that cannot be judged: such a slot is asked
again by every pass, and the slots a budget or more behind it are never reached.
-/
namespace Texo.Semantics
open Texo.Events Texo.Knowledge Texo.Foundation

/-- A run of passes: what it has settled, where it resumes (nowhere once complete), where
each pass started, what was asked, and the last outcome. -/
structure RelateRun where
  settled : SettledMap := ∅
  cursor : Option Nat := some 0
  cursors : List Nat := []
  asked : List (ClaimId × ClaimId) := []
  outcome : Option RelateOutcome := none

/-- The options of one page of a run, which sets no wall budget. -/
abbrev pageOptions (temporal : RelateTemporalPolicy) (budget cursor : Nat) : RelateOptions where
  temporal := temporal
  candidatePairBudget := budget
  candidateCursor := cursor

section Runs

variable [Blake3] {Score : Type}

/-- One more pass; a complete run makes none. -/
def RelateRun.next (claims : List ClaimView) (embedder : Embedder Score) (judge : Judge)
    (thresholds : RelateThresholds Score) (temporal : RelateTemporalPolicy) (run : RelateRun)
    (budget : Nat) : Except TexoError RelateRun :=
  match run.cursor with
  | none => .ok run
  | some cursor =>
    match relateClaimsSettled claims embedder judge thresholds run.settled
        (pageOptions temporal budget cursor) with
    | .error error => .error error
    | .ok pass =>
      .ok
        { settled := pass.outcome.judgments.foldl insertJudgment run.settled
          cursor := pass.outcome.nextCursor
          cursors := run.cursors ++ [cursor]
          asked := run.asked ++ pass.asked
          outcome := some pass.outcome }

/-- Passes with these page budgets, one after another. -/
def relatePasses (claims : List ClaimView) (embedder : Embedder Score) (judge : Judge)
    (thresholds : RelateThresholds Score) (temporal : RelateTemporalPolicy) (run : RelateRun)
    (budgets : List Nat) : Except TexoError RelateRun :=
  budgets.foldlM (RelateRun.next claims embedder judge thresholds temporal) run

section Stuck

omit [Blake3]

/-- Whether a slot holds a candidate pair that can never be judged. -/
def RelateInputs.stuckAt (inputs : RelateInputs Score) (judge : Judge)
    (temporal : RelateTemporalPolicy) (ordinal : Nat) : Bool :=
  match inputs.slot? ordinal with
  | none => false
  | some pair =>
    inputs.candidate pair &&
      match inputs.ask judge temporal pair with
      | .ok _ => false
      | .error _ => true

/-- The first slot that can never be judged, or the end of the order. -/
def RelateInputs.firstStuck (inputs : RelateInputs Score) (judge : Judge)
    (temporal : RelateTemporalPolicy) : Nat :=
  ((List.range inputs.total).find? (inputs.stuckAt judge temporal)).getD inputs.total

/-- A slot before the first stuck one is not stuck. -/
theorem RelateInputs.firstStuck_le {inputs : RelateInputs Score} {judge : Judge}
    {temporal : RelateTemporalPolicy} {ordinal : Nat} {pair : Nat × Nat}
    {failure : PairFailureView} (slot : inputs.slot? ordinal = some pair)
    (candidate : inputs.candidate pair = true)
    (refused : inputs.ask judge temporal pair = .error failure) :
    inputs.firstStuck judge temporal ≤ ordinal := by
  have stuck : inputs.stuckAt judge temporal ordinal = true := by
    simp only [RelateInputs.stuckAt, slot, candidate, refused, Bool.and_self]
  have below := (RelateInputs.slot?_bounds slot).1
  rw [RelateInputs.firstStuck]
  cases found : (List.range inputs.total).find? (inputs.stuckAt judge temporal) with
  | none =>
    have clear := List.find?_eq_none.mp found ordinal (List.mem_range.mpr below)
    rw [stuck] at clear
    exact (clear rfl).elim
  | some first =>
    rw [Option.getD_some]
    by_cases earlier : ordinal < first
    · have clear := (List.find?_range_eq_some.mp found).2.2 ordinal earlier
      rw [stuck] at clear
      cases clear
    · omega

/-- Nothing lies behind the end of the order. -/
theorem RelateInputs.firstStuck_le_total (inputs : RelateInputs Score) (judge : Judge)
    (temporal : RelateTemporalPolicy) : inputs.firstStuck judge temporal ≤ inputs.total := by
  rw [RelateInputs.firstStuck]
  cases found : (List.range inputs.total).find? (inputs.stuckAt judge temporal) with
  | none => exact Nat.le_refl _
  | some first =>
    have below := List.mem_range.mp (List.mem_of_find?_eq_some found)
    rw [Option.getD_some]
    omega

/-- A settled pair stays settled. -/
theorem RelateInputs.SettledIn.later {inputs : RelateInputs Score} {settled : SettledMap}
    {pair : Nat × Nat} (held : inputs.SettledIn settled pair) (judgments : List PairJudgment) :
    inputs.SettledIn (judgments.foldl insertJudgment settled) pair :=
  RelateInputs.Decided.settledIn (Or.inl held)

end Stuck

/-- A run after a page over at least two claims. -/
def RelateRun.afterPage (inputs : RelateInputs Score) (judge : Judge)
    (temporal : RelateTemporalPolicy) (run : RelateRun) (cursor budget : Nat) : RelateRun :=
  let options := pageOptions temporal budget cursor
  let outcome := inputs.pageOutcome judge run.settled options
  { settled := outcome.judgments.foldl insertJudgment run.settled
    cursor := outcome.nextCursor
    cursors := run.cursors ++ [cursor]
    asked := run.asked ++ inputs.pageAsked judge run.settled options
    outcome := some outcome }

/-- What a pass of a run does to it. -/
theorem RelateRun.next_page (inputs : RelateInputs Score) (judge : Judge)
    (temporal : RelateTemporalPolicy) {run : RelateRun} {cursor : Nat}
    (resumes : run.cursor = some cursor) (budget : Nat) (several : 2 ≤ inputs.claims.length) :
    RelateRun.next inputs.claims inputs.embedder judge inputs.thresholds temporal run budget =
      .ok (run.afterPage inputs judge temporal cursor budget) := by
  rw [RelateRun.next, resumes]
  simp only [relateClaimsSettled_eq inputs judge run.settled _ several]
  rfl

/-- A pass over fewer than two claims completes the run. -/
theorem RelateRun.next_few {inputs : RelateInputs Score} (judge : Judge)
    (temporal : RelateTemporalPolicy) {run : RelateRun} {cursor : Nat}
    (resumes : run.cursor = some cursor) (budget : Nat) (few : inputs.claims.length < 2) :
    RelateRun.next inputs.claims inputs.embedder judge inputs.thresholds temporal run budget =
      .ok
        { settled := run.settled
          cursor := none
          cursors := run.cursors ++ [cursor]
          asked := run.asked
          outcome := some .default } := by
  rw [RelateRun.next, resumes]
  simp only [relateClaimsSettled_few judge run.settled _ few, List.append_nil]
  rfl

/-- The progress of a run after so many passes of one budget. -/
structure RelateInputs.Progress (inputs : RelateInputs Score) (judge : Judge)
    (temporal : RelateTemporalPolicy) (budget passes : Nat) (run : RelateRun) : Prop where
  behind : ∀ ordinal pair verdict, inputs.slot? ordinal = some pair →
    inputs.candidate pair = true → inputs.ask judge temporal pair = .ok verdict →
    (∀ cursor, run.cursor = some cursor → ordinal < cursor) → inputs.SettledIn run.settled pair
  advanced : ∀ cursor, run.cursor = some cursor →
    min passes (inputs.firstStuck judge temporal) ≤ cursor
  opened : inputs.firstStuck judge temporal < passes → ∀ ordinal pair verdict,
    inputs.slot? ordinal = some pair → inputs.candidate pair = true →
    inputs.ask judge temporal pair = .ok verdict →
    ordinal < inputs.firstStuck judge temporal + budget → inputs.SettledIn run.settled pair

/-- One pass of a positive budget makes progress. -/
theorem RelateInputs.Progress.next {inputs : RelateInputs Score} {judge : Judge}
    {temporal : RelateTemporalPolicy} {budget passes : Nat} {run : RelateRun}
    (progress : inputs.Progress judge temporal budget passes run) (positive : 1 ≤ budget) :
    ∃ later, RelateRun.next inputs.claims inputs.embedder judge inputs.thresholds temporal run
        budget = .ok later ∧ inputs.Progress judge temporal budget (passes + 1) later := by
  cases resumes : run.cursor with
  | none =>
    refine ⟨run, by rw [RelateRun.next, resumes], progress.behind, ?_, ?_⟩
    · intro cursor absent
      rw [resumes] at absent
      cases absent
    · intro _ ordinal pair verdict slot candidate answer _
      apply progress.behind ordinal pair verdict slot candidate answer
      intro cursor absent
      rw [resumes] at absent
      cases absent
  | some cursor =>
    by_cases several : 2 ≤ inputs.claims.length
    · refine ⟨_, RelateRun.next_page inputs judge temporal resumes budget several, ?_, ?_, ?_⟩
      · intro ordinal pair verdict slot candidate answer before
        by_cases earlier : ordinal < cursor
        · have held := progress.behind ordinal pair verdict slot candidate answer (by
            intro other same
            rw [resumes] at same
            have equal := Option.some.inj same
            omega)
          exact held.later _
        · have start : inputs.pageStart cursor ≤ ordinal := by
            simp only [RelateInputs.pageStart]
            omega
          exact (pageOutcome_passes slot candidate start before).settledIn
      · intro next resume
        have floor := progress.advanced cursor resumes
        obtain ⟨atLeast, below, stop | ⟨_, pair, slot, candidate, _, why⟩⟩ :=
          pageOutcome_resumes resume
        · simp only [RelateInputs.pageStop, RelateInputs.pageStart] at atLeast stop
          omega
        · rcases why with late | ⟨failure, refused⟩
          · cases late
          · have stuck : inputs.firstStuck judge temporal ≤ next :=
              RelateInputs.firstStuck_le slot candidate refused
            omega
      · intro reached ordinal pair verdict slot candidate answer near
        by_cases opened : inputs.firstStuck judge temporal < passes
        · exact (progress.opened opened ordinal pair verdict slot candidate answer near).later _
        · have floor := progress.advanced cursor resumes
          by_cases earlier : ordinal < cursor
          · have held := progress.behind ordinal pair verdict slot candidate answer (by
              intro other same
              rw [resumes] at same
              have equal := Option.some.inj same
              omega)
            exact held.later _
          · have below := (RelateInputs.slot?_bounds slot).1
            have start : inputs.pageStart cursor ≤ ordinal := by
              simp only [RelateInputs.pageStart]
              omega
            have stop : ordinal < inputs.pageStop cursor budget := by
              simp only [RelateInputs.pageStop, RelateInputs.pageStart]
              omega
            exact (pageOutcome_answers slot candidate start stop rfl answer).settledIn
    · have few : inputs.claims.length < 2 := by omega
      have noSlot : ∀ ordinal pair, inputs.slot? ordinal = some pair → False := by
        intro ordinal pair slot
        have bounds := RelateInputs.slot?_bounds slot
        omega
      refine ⟨_, RelateRun.next_few judge temporal resumes budget few, ?_, ?_, ?_⟩
      · intro ordinal pair _ slot
        exact (noSlot ordinal pair slot).elim
      · intro next absent
        cases absent
      · intro _ ordinal pair _ slot
        exact (noSlot ordinal pair slot).elim

/-- Passes of a positive budget make progress one by one. -/
theorem RelateInputs.Progress.passes {inputs : RelateInputs Score} {judge : Judge}
    {temporal : RelateTemporalPolicy} {budget : Nat} (positive : 1 ≤ budget) (more : Nat)
    {passes : Nat} {run : RelateRun} (progress : inputs.Progress judge temporal budget passes run) :
    ∃ later, relatePasses inputs.claims inputs.embedder judge inputs.thresholds temporal run
        (List.replicate more budget) = .ok later ∧
      inputs.Progress judge temporal budget (passes + more) later := by
  induction more generalizing passes run with
  | zero => exact ⟨run, rfl, progress⟩
  | succ more ih =>
    obtain ⟨middle, first, made⟩ := progress.next positive
    obtain ⟨later, rest, done⟩ := ih made
    refine ⟨later, ?_, ?_⟩
    · rw [relatePasses, List.replicate_succ, List.foldlM_cons, first]
      exact rest
    · rw [Nat.add_right_comm, Nat.add_assoc] at done
      exact done

end Runs

/-- Three claims of distinct texts. -/
def threeClaims : List ClaimView :=
  [ { claimId := ⟨"claim_a", Eq.refl true⟩, text := "a", normalizedText := "a", sequence := 1 },
    { claimId := ⟨"claim_b", Eq.refl true⟩, text := "b", normalizedText := "b", sequence := 2 },
    { claimId := ⟨"claim_c", Eq.refl true⟩, text := "c", normalizedText := "c", sequence := 3 } ]

/-- An embedder under which all claims are equally near. -/
def nearEmbedder : Embedder Nat where
  embedBatch := fun texts => .ok (texts.map fun _ => [1])
  cosineSimilarity := fun _ _ => 1
  atLeast := fun similarity floor => floor ≤ similarity

/-- A judge that fails on the first two of the three claims only. -/
def refusesFirstPair : Judge := fun older newer =>
  if older = "a" ∧ newer = "b" then .error { failureClass := .parse }
  else .ok ⟨.unrelated, 0⟩

/-- The three claims under the near embedder. -/
def threeInputs : RelateInputs Nat where
  claims := threeClaims
  embedder := nearEmbedder
  thresholds := { cluster := 1, prefilter := 1 }
  embeddings := [[1], [1], [1]]
  embedded := rfl

/-- A digest that reads its bytes back in decimal. -/
@[reducible] def decimalDigest : Blake3 where
  hex := fun bytes => String.join (bytes.map fun byte => toString byte.toNat)

end Texo.Semantics
