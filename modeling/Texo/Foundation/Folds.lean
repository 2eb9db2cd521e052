import Mathlib.Data.List.Basic

/-! # Steps, folds and maps that can fail

Inversion of a sequence of failing steps; the invariant rule for a monadic fold over
`Except`: what every successful step keeps, a successful fold keeps; and where the results
of a successful map come from.
-/
namespace Texo.Foundation

/-- A check that fails with an error of its own. -/
def require {Error : Type} (holds : Prop) [Decidable holds] (error : Error) : Except Error Unit :=
  if holds then .ok () else .error error

/-- A check passes exactly when its condition holds. -/
theorem require_eq_ok {Error : Type} {holds : Prop} [Decidable holds] {error : Error} {done : Unit} :
    require holds error = .ok done ↔ holds := by
  unfold require
  split
  · rename_i passed
    exact iff_of_true rfl passed
  · rename_i failed
    exact iff_of_false (fun ok => by cases ok) failed

/-- A step that succeeds hands its result on. -/
theorem ok_bind {Error First Second : Type} (value : First) (next : First → Except Error Second) :
    (Except.ok value >>= next) = next value := rfl

/-- Two steps succeed exactly when both do. -/
theorem bind_eq_ok {Error First Second : Type} {first : Except Error First}
    {second : First → Except Error Second} {result : Second} :
    (first >>= second) = .ok result ↔ ∃ value, first = .ok value ∧ second value = .ok result := by
  cases first with
  | error error =>
    constructor
    · intro ok
      cases ok
    · intro ⟨_, ok, _⟩
      cases ok
  | ok value =>
    constructor
    · intro ok
      exact ⟨value, rfl, ok⟩
    · intro ⟨_, same, ok⟩
      cases same
      exact ok

/-- The run law of a failing fold. -/
theorem foldlM_preserves {State Item Error : Type} {step : State → Item → Except Error State}
    (holds : State → Prop) {items : List Item}
    (kept : ∀ state, ∀ item ∈ items, ∀ next, step state item = .ok next → holds state → holds next)
    {state final : State} (run : items.foldlM step state = .ok final) (start : holds state) :
    holds final := by
  induction items generalizing state with
  | nil =>
    simp only [List.foldlM_nil, pure, Except.pure, Except.ok.injEq] at run
    exact run ▸ start
  | cons item items ih =>
    rw [List.foldlM_cons] at run
    cases first : step state item with
    | error error => simp [first, bind, Except.bind] at run
    | ok next =>
      simp only [first, bind, Except.bind] at run
      have moved := kept state item (by simp) next first start
      exact ih (fun later other member => kept later other (by simp [member])) run moved

/-- A `mapM` whose steps all succeed gives their results. -/
theorem mapM_of_ok {Item Result Error : Type} {f : Item → Except Error Result}
    {result : Item → Result} {items : List Item} (each : ∀ item ∈ items, f item = .ok (result item)) :
    items.mapM f = .ok (items.map result) := by
  induction items with
  | nil => rfl
  | cons item items ih =>
    rw [List.mapM_cons, each item List.mem_cons_self,
      ih fun other member => each other (List.mem_cons_of_mem item member)]
    rfl

/-- A successful `mapM` gives one result for each item. -/
theorem mem_of_mapM {Item Result Error : Type} {f : Item → Except Error Result} {items : List Item}
    {results : List Result} (run : items.mapM f = .ok results) {result : Result}
    (member : result ∈ results) : ∃ item ∈ items, f item = .ok result := by
  induction items generalizing results with
  | nil =>
    rw [List.mapM_nil] at run
    have none : [] = results := Except.ok.inj run
    simp [← none] at member
  | cons item items ih =>
    rw [List.mapM_cons] at run
    cases first : f item with
    | error error => simp [first, bind, Except.bind] at run
    | ok head =>
      cases others : items.mapM f with
      | error error => simp [first, others, bind, Except.bind] at run
      | ok tail =>
        simp only [first, others, bind, Except.bind, pure, Except.pure, Except.ok.injEq] at run
        rw [← run] at member
        rcases List.mem_cons.mp member with rfl | later
        · exact ⟨item, by simp, first⟩
        · obtain ⟨other, there, same⟩ := ih others later
          exact ⟨other, by simp [there], same⟩

/-- A `mapM` that succeeds does so on each item. -/
theorem each_of_mapM {Item Result Error : Type} {f : Item → Except Error Result} {items : List Item}
    {results : List Result} (run : items.mapM f = .ok results) {item : Item}
    (member : item ∈ items) : ∃ result, f item = .ok result := by
  induction items generalizing results with
  | nil => cases member
  | cons head items ih =>
    rw [List.mapM_cons] at run
    obtain ⟨result, first, rest⟩ := bind_eq_ok.mp run
    obtain ⟨others, later, _⟩ := bind_eq_ok.mp rest
    rcases List.mem_cons.mp member with rfl | inside
    · exact ⟨result, first⟩
    · exact ih later inside

/-- The results of a selection are those of the selected items. -/
theorem filter_of_mapM {Item Result Key Error : Type} {f : Item → Except Error Result}
    {items : List Item} {results : List Result} (run : items.mapM f = .ok results)
    {key : Item → Key} {resultKey : Result → Key} {keep : Item → Bool} {keepResult : Result → Bool}
    (kept : ∀ item ∈ items, ∀ result, f item = .ok result →
      resultKey result = key item ∧ keepResult result = keep item) :
    (results.filter keepResult).map resultKey = (items.filter keep).map key := by
  induction items generalizing results with
  | nil =>
    rw [List.mapM_nil] at run
    rw [← Except.ok.inj run]
    rfl
  | cons item items ih =>
    rw [List.mapM_cons] at run
    obtain ⟨head, first, rest⟩ := bind_eq_ok.mp run
    obtain ⟨tail, later, whole⟩ := bind_eq_ok.mp rest
    obtain ⟨keys, selected⟩ := kept item List.mem_cons_self head first
    have others := ih later fun other member => kept other (List.mem_cons_of_mem _ member)
    rw [← Except.ok.inj whole]
    by_cases held : keep item = true
    · rw [List.filter_cons_of_pos (selected.trans held), List.filter_cons_of_pos held,
        List.map_cons, List.map_cons, keys, others]
    · rw [List.filter_cons_of_neg (fun also => held (selected.symm.trans also)),
        List.filter_cons_of_neg held, others]

/-- What a successful `mapM` gives keeps what its steps keep. -/
theorem map_of_mapM {Item Result Key Error : Type} {f : Item → Except Error Result}
    {items : List Item} {results : List Result} (run : items.mapM f = .ok results)
    {key : Item → Key} {resultKey : Result → Key}
    (kept : ∀ item ∈ items, ∀ result, f item = .ok result → resultKey result = key item) :
    results.map resultKey = items.map key := by
  have all := @filter_of_mapM _ _ _ _ f items results run key resultKey (fun _ => true)
    (fun _ => true) fun item member result made => ⟨kept item member result made, rfl⟩
  rw [List.filter_true, List.filter_true] at all
  exact all

/-- Two folds whose steps differ in their errors alone give the same result. -/
theorem foldlM_toOption {State Item Error : Type} {step step' : State → Item → Except Error State}
    (same : ∀ state item, (step state item).toOption = (step' state item).toOption)
    (items : List Item) (state : State) :
    (items.foldlM step state).toOption = (items.foldlM step' state).toOption := by
  induction items generalizing state with
  | nil => rfl
  | cons item items ih =>
    rw [List.foldlM_cons, List.foldlM_cons]
    have first := same state item
    cases left : step state item with
    | error error =>
      cases right : step' state item with
      | error error' => rfl
      | ok next => simp [left, right, Except.toOption] at first
    | ok next =>
      cases right : step' state item with
      | error error => simp [left, right, Except.toOption] at first
      | ok next' =>
        have moved : next = next' := by simpa [left, right, Except.toOption] using first
        rw [← moved]
        exact ih next

/-- A fold whose steps all succeed succeeds. -/
theorem foldlM_total {State Item Error : Type} {step : State → Item → Except Error State}
    {items : List Item} (total : ∀ state, ∀ item ∈ items, ∃ next, step state item = .ok next)
    (state : State) : ∃ final, items.foldlM step state = .ok final := by
  induction items generalizing state with
  | nil => exact ⟨state, rfl⟩
  | cons item items ih =>
    obtain ⟨next, moved⟩ := total state item (by simp)
    obtain ⟨final, run⟩ := ih (fun state later member => total state later (by simp [member])) next
    refine ⟨final, ?_⟩
    rw [List.foldlM_cons, moved]
    exact run

/-- A map whose every result is known gives the results in order. -/
theorem mapM_eq_filterMap {Item Result Error : Type} {f : Item → Except Error Result}
    {items : List Item} (total : ∀ item ∈ items, ∃ result, f item = .ok result) :
    items.mapM f = .ok (items.filterMap fun item => (f item).toOption) := by
  induction items with
  | nil => rfl
  | cons item items ih =>
    obtain ⟨result, made⟩ := total item (by simp)
    have rest := ih fun later member => total later (by simp [member])
    rw [List.mapM_cons, rest, List.filterMap_cons, made]
    rfl

end Texo.Foundation
