import Mathlib.Data.List.Basic
import Mathlib.Data.List.Sort

/-! # Bounded paging over an ordered log

A log is a list of rows carrying strictly increasing sequence numbers. A reader
asks for at most `limit` rows after an exclusive sequence and continues from the
last row it received. The laws here say what such a reader sees: its pages, in
order, are exactly the rows after its starting point, and every page boundary is
a prefix of the log.
-/
namespace Texo.Foundation

variable {Row : Type} (seq : Row → Nat)

/-- The log order: sequence numbers strictly increase along the list. -/
def Ordered (rows : List Row) : Prop := rows.Pairwise fun a b => seq a < seq b

/-- Rows strictly after an exclusive sequence; `none` asks for the whole log. -/
def rowsAfter (after : Option Nat) (rows : List Row) : List Row :=
  rows.filter fun row => after.all fun bound => decide (bound < seq row)

/-- One bounded page of the rows after an exclusive sequence. -/
def pageAfter (limit : Nat) (rows : List Row) (after : Option Nat) : List Row :=
  (rowsAfter seq after rows).take limit

/-- The pages a reader receives until one is empty, each asked for after the last
row of the page before it. -/
def pagesAfter (limit : Nat) (rows : List Row) : Nat → Option Nat → List (List Row)
  | 0, _ => []
  | fuel + 1, after =>
    match (pageAfter seq limit rows after).getLast? with
    | none => []
    | some last =>
      pageAfter seq limit rows after :: pagesAfter limit rows fuel (some (seq last))

variable {seq}

@[simp] theorem rowsAfter_none (rows : List Row) : rowsAfter seq none rows = rows := by
  simp [rowsAfter]

/-- A row is after the bound exactly when its sequence exceeds it. -/
theorem mem_rowsAfter_some {bound : Nat} {rows : List Row} {row : Row} :
    row ∈ rowsAfter seq (some bound) rows ↔ row ∈ rows ∧ bound < seq row := by
  simp [rowsAfter]

/-- Reading after a bound is compositional in the log. -/
theorem rowsAfter_append (after : Option Nat) (front back : List Row) :
    rowsAfter seq after (front ++ back) = rowsAfter seq after front ++ rowsAfter seq after back := by
  simp [rowsAfter]

/-- A part of an ordered log is ordered. -/
theorem Ordered.of_append {front back : List Row} (ordered : Ordered seq (front ++ back)) :
    Ordered seq front ∧ Ordered seq back ∧ ∀ a ∈ front, ∀ b ∈ back, seq a < seq b :=
  List.pairwise_append.mp ordered

/-- Filtering keeps the log order. -/
theorem Ordered.filter {rows : List Row} (ordered : Ordered seq rows) (keep : Row → Bool) :
    Ordered seq (rows.filter keep) :=
  List.Pairwise.filter keep ordered

/-- What is kept below a later bound is what is kept below the earlier one, then what is kept
between the two. -/
theorem Ordered.filter_below {rows : List Row} (ordered : Ordered seq rows) (keep : Row → Prop)
    [DecidablePred keep] {bound later : Nat} (forward : bound ≤ later) :
    rows.filter (fun row => decide (keep row ∧ seq row < later)) =
      rows.filter (fun row => decide (keep row ∧ seq row < bound)) ++
        rows.filter fun row => decide (keep row ∧ bound ≤ seq row ∧ seq row < later) := by
  induction rows with
  | nil => rfl
  | cons row rest ih =>
    obtain ⟨front, behind⟩ := List.pairwise_cons.mp ordered
    by_cases early : seq row < bound
    · have late : seq row < later := Nat.lt_of_lt_of_le early forward
      have past : ¬ bound ≤ seq row := Nat.not_le.mpr early
      rw [List.filter_cons, List.filter_cons, List.filter_cons, ih behind]
      by_cases kept : keep row
      · rw [if_pos (decide_eq_true ⟨kept, late⟩), if_pos (decide_eq_true ⟨kept, early⟩),
          if_neg (fun told => past (of_decide_eq_true told).2.1), List.cons_append]
      · rw [if_neg (fun told => kept (of_decide_eq_true told).1),
          if_neg (fun told => kept (of_decide_eq_true told).1),
          if_neg (fun told => kept (of_decide_eq_true told).1)]
    · have nothing : (row :: rest).filter (fun row => decide (keep row ∧ seq row < bound)) = [] := by
        apply List.filter_eq_nil_iff.mpr
        intro other member
        have above : seq row ≤ seq other := by
          rcases List.mem_cons.mp member with rfl | inside
          · exact Nat.le_refl _
          · exact Nat.le_of_lt (front other inside)
        simp only [decide_eq_true_eq]
        omega
      rw [nothing, List.nil_append]
      apply List.filter_congr
      intro other member
      have above : seq row ≤ seq other := by
        rcases List.mem_cons.mp member with rfl | inside
        · exact Nat.le_refl _
        · exact Nat.le_of_lt (front other inside)
      have reached : bound ≤ seq other := by omega
      simp [reached]

/-- The last row of an ordered log has the greatest sequence. -/
theorem Ordered.le_getLast {rows : List Row} (ordered : Ordered seq rows) {last row : Row}
    (final : rows.getLast? = some last) (member : row ∈ rows) : seq row ≤ seq last := by
  obtain ⟨front, rfl⟩ := List.getLast?_eq_some_iff.mp final
  obtain ⟨-, -, before⟩ := Ordered.of_append ordered
  rcases List.mem_append.mp member with early | late
  · exact Nat.le_of_lt (before row early last (by simp))
  · rw [List.mem_singleton.mp late]

/-- Reading an ordered log after the last row of a prefix gives the rest. -/
theorem rowsAfter_last {front back : List Row} (ordered : Ordered seq (front ++ back)) {last : Row}
    (final : front.getLast? = some last) :
    rowsAfter seq (some (seq last)) (front ++ back) = back := by
  obtain ⟨frontOrdered, -, before⟩ := Ordered.of_append ordered
  rw [rowsAfter_append]
  have empty : rowsAfter seq (some (seq last)) front = [] := by
    simp only [rowsAfter, List.filter_eq_nil_iff, Option.all_some, decide_eq_true_eq]
    exact fun row member => Nat.not_lt.mpr (frontOrdered.le_getLast final member)
  have whole : rowsAfter seq (some (seq last)) back = back := by
    simp only [rowsAfter, List.filter_eq_self, Option.all_some, decide_eq_true_eq]
    exact fun row member => before last (List.mem_of_getLast? final) row member
  rw [empty, whole, List.nil_append]

/-- Reading after a later bound only drops rows from an earlier reading. -/
theorem rowsAfter_rowsAfter {after : Option Nat} {bound : Nat} (rows : List Row)
    (later : ∀ earlier ∈ after, earlier ≤ bound) :
    rowsAfter seq (some bound) (rowsAfter seq after rows) = rowsAfter seq (some bound) rows := by
  simp only [rowsAfter, List.filter_filter]
  apply List.filter_congr
  intro row _
  cases after with
  | none => simp
  | some earlier =>
    have := later earlier rfl
    simp only [Option.all_some]
    by_cases h : bound < seq row
    · simp [h, Nat.lt_of_le_of_lt this h]
    · simp [h]

/-- The step law of a paging reader: what follows the page just read is what a
reader asks for next. -/
theorem rowsAfter_page {limit : Nat} {rows : List Row} {after : Option Nat} {last : Row}
    (ordered : Ordered seq rows) (final : (pageAfter seq limit rows after).getLast? = some last) :
    rowsAfter seq (some (seq last)) rows = (rowsAfter seq after rows).drop limit := by
  have bounded : ∀ earlier ∈ after, earlier ≤ seq last := by
    intro earlier present
    have member : last ∈ rowsAfter seq after rows :=
      List.mem_of_mem_take (List.mem_of_getLast? final)
    rw [Option.mem_def] at present
    subst present
    exact Nat.le_of_lt (mem_rowsAfter_some.mp member).2
  rw [← rowsAfter_rowsAfter rows bounded]
  have split := List.take_append_drop limit (rowsAfter seq after rows)
  have sorted : Ordered seq ((rowsAfter seq after rows).take limit ++
      (rowsAfter seq after rows).drop limit) := by
    rw [split]
    exact ordered.filter _
  conv_lhs => rw [← split]
  exact rowsAfter_last sorted final

/-- An empty page means that nothing is left after the bound. -/
theorem rowsAfter_eq_nil {limit : Nat} {rows : List Row} {after : Option Nat} (positive : 0 < limit)
    (final : (pageAfter seq limit rows after).getLast? = none) : rowsAfter seq after rows = [] := by
  have empty := List.getLast?_eq_none_iff.mp final
  rcases List.take_eq_nil_iff.mp empty with zero | nothing
  · omega
  · exact nothing

/-- The run law of a paging reader: with fuel for every row, its pages in order are
exactly the rows after its starting bound. -/
theorem flatten_pagesAfter {limit : Nat} {rows : List Row} (positive : 0 < limit)
    (ordered : Ordered seq rows) (fuel : Nat) (after : Option Nat)
    (enough : (rowsAfter seq after rows).length ≤ fuel) :
    (pagesAfter seq limit rows fuel after).flatten = rowsAfter seq after rows := by
  induction fuel generalizing after with
  | zero =>
    have empty := List.length_eq_zero_iff.mp (Nat.le_zero.mp enough)
    simp [pagesAfter, empty]
  | succ fuel ih =>
    rw [pagesAfter]
    cases final : (pageAfter seq limit rows after).getLast? with
    | none => simp [rowsAfter_eq_nil positive final]
    | some last =>
      have next := rowsAfter_page ordered final
      have nonempty : 0 < (rowsAfter seq after rows).length :=
        List.length_pos_of_mem (List.mem_of_mem_take (List.mem_of_getLast? final))
      have shorter : (rowsAfter seq (some (seq last)) rows).length ≤ fuel := by
        rw [next, List.length_drop]
        omega
      simp only [List.flatten_cons]
      rw [ih (some (seq last)) shorter, next]
      exact List.take_append_drop limit _

/-- No page a reader acts on is empty. -/
theorem ne_nil_of_mem_pagesAfter {limit : Nat} {rows : List Row} {fuel : Nat} {after : Option Nat}
    {page : List Row} (member : page ∈ pagesAfter seq limit rows fuel after) : page ≠ [] := by
  induction fuel generalizing after with
  | zero => simp [pagesAfter] at member
  | succ fuel ih =>
    rw [pagesAfter] at member
    cases final : (pageAfter seq limit rows after).getLast? with
    | none => simp [final] at member
    | some last =>
      simp only [final, List.mem_cons] at member
      rcases member with rfl | later
      · intro empty
        simp [empty] at final
      · exact ih later

end Texo.Foundation
