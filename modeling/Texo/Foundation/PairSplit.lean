import Mathlib.Data.List.Basic
import Mathlib.Data.List.Infix

/-! # Splitting at a pair

A text split at every place where two given items stand one behind the other. The two items differ,
so that no two such places overlap: the parts of a text around a pair are those of its two sides.
-/
namespace Texo.Foundation

variable {Item : Type} [DecidableEq Item]

/-- `str::split` at a pair of items. -/
def splitPair (first second : Item) : List Item → List (List Item)
  | [] => [[]]
  | [item] => [[item]]
  | item :: next :: rest =>
    if item = first ∧ next = second then
      [] :: splitPair first second rest
    else
      (splitPair first second (next :: rest)).modifyHead (item :: ·)

/-- A text has at least one part. -/
theorem splitPair_ne_nil (first second : Item) (text : List Item) :
    splitPair first second text ≠ [] := by
  induction text using splitPair.induct first second with
  | case1 => simp [splitPair]
  | case2 item => simp [splitPair]
  | case3 item next rest pair ih => simp [splitPair, pair]
  | case4 item next rest pair ih =>
    unfold splitPair
    rw [if_neg pair]
    obtain ⟨head, tail, split⟩ := List.exists_cons_of_ne_nil ih
    rw [split]
    exact List.cons_ne_nil _ _

/-- An item in front of a text joins its first part where it does not begin a pair. -/
theorem splitPair_cons {first second item : Item} {text : List Item}
    (other : ∀ rest, item = first → text ≠ second :: rest) :
    splitPair first second (item :: text) =
      (splitPair first second text).modifyHead (item :: ·) := by
  cases text with
  | nil => rfl
  | cons next rest =>
    rw [splitPair, if_neg]
    rintro ⟨same, follows⟩
    exact other rest same (by rw [follows])

/-- The parts around a pair are those of its two sides. -/
theorem splitPair_append {first second : Item} (apart : first ≠ second) (front back : List Item) :
    splitPair first second (front ++ first :: second :: back) =
      splitPair first second front ++ splitPair first second back := by
  have begins : splitPair first second (first :: second :: back) =
      [] :: splitPair first second back := by
    rw [splitPair, if_pos ⟨rfl, rfl⟩]
  have modified : ∀ {item : Item} {parts : List (List Item)}, parts ≠ [] →
      (parts ++ splitPair first second back).modifyHead (item :: ·) =
        parts.modifyHead (item :: ·) ++ splitPair first second back := by
    intro item parts nonempty
    obtain ⟨head, tail, split⟩ := List.exists_cons_of_ne_nil nonempty
    rw [split]
    rfl
  induction front using splitPair.induct first second with
  | case1 =>
    rw [List.nil_append, begins]
    rfl
  | case2 item =>
    rw [List.singleton_append, splitPair_cons, begins]
    · rfl
    · intro rest _ starts
      exact apart (List.cons.inj starts).1
  | case3 item next rest pair ih =>
    rw [List.cons_append, List.cons_append, splitPair, if_pos pair, ih, splitPair, if_pos pair,
      List.cons_append]
  | case4 item next rest pair ih =>
    rw [List.cons_append, List.cons_append, splitPair, if_neg pair, ← List.cons_append, ih,
      modified (splitPair_ne_nil first second _), splitPair, if_neg pair]

/-- A text without the first item of the pair is one part. -/
theorem splitPair_clear {first second : Item} {text : List Item} (clear : first ∉ text) :
    splitPair first second text = [text] := by
  induction text with
  | nil => rfl
  | cons item rest ih =>
    rw [List.mem_cons, not_or] at clear
    rw [splitPair_cons (fun _ same => absurd same.symm clear.1), ih clear.2]
    rfl

/-- A text without the first item of the pair joins the first part of what is behind it. -/
theorem splitPair_clear_append {first second : Item} {lead : List Item} (clear : first ∉ lead)
    (text : List Item) :
    splitPair first second (lead ++ text) =
      (splitPair first second text).modifyHead (lead ++ ·) := by
  induction lead with
  | nil =>
    obtain ⟨head, tail, split⟩ := List.exists_cons_of_ne_nil (splitPair_ne_nil first second text)
    rw [List.nil_append, split]
    rfl
  | cons item rest ih =>
    rw [List.mem_cons, not_or] at clear
    rw [List.cons_append, splitPair_cons (fun _ same => absurd same.symm clear.1), ih clear.2]
    obtain ⟨head, tail, split⟩ := List.exists_cons_of_ne_nil (splitPair_ne_nil first second text)
    rw [split]
    rfl

/-- The parts of a text fall into two groups only around a pair. -/
theorem splitPair_eq_append {first second : Item} {text : List Item} {front back : List (List Item)}
    (split : splitPair first second text = front ++ back) (before : front ≠ [])
    (behind : back ≠ []) :
    ∃ left right, text = left ++ first :: second :: right ∧
      splitPair first second left = front ∧ splitPair first second right = back := by
  induction text using splitPair.induct first second generalizing front with
  | case1 =>
    have count := congrArg List.length split
    have one := List.length_pos_of_ne_nil before
    have two := List.length_pos_of_ne_nil behind
    rw [splitPair, List.length_singleton, List.length_append] at count
    omega
  | case2 item =>
    have count := congrArg List.length split
    have one := List.length_pos_of_ne_nil before
    have two := List.length_pos_of_ne_nil behind
    rw [splitPair, List.length_singleton, List.length_append] at count
    omega
  | case3 item next rest pair ih =>
    obtain ⟨part, more, parts⟩ := List.exists_cons_of_ne_nil before
    rw [splitPair, if_pos pair, parts, List.cons_append] at split
    obtain ⟨empty, tails⟩ := List.cons.inj split
    rw [← empty] at parts
    by_cases last : more = []
    · rw [last, List.nil_append] at tails
      refine ⟨[], rest, by rw [pair.1, pair.2]; rfl, ?_, tails⟩
      rw [parts, last]
      rfl
    · obtain ⟨left, right, whole, leftParts, rightParts⟩ := ih tails last
      refine ⟨item :: next :: left, right, by rw [whole]; rfl, ?_, rightParts⟩
      rw [splitPair, if_pos pair, leftParts, parts]
  | case4 item next rest pair ih =>
    obtain ⟨part, more, parts⟩ := List.exists_cons_of_ne_nil before
    obtain ⟨head, tail, inner⟩ :=
      List.exists_cons_of_ne_nil (splitPair_ne_nil first second (next :: rest))
    rw [splitPair, if_neg pair, inner, parts, List.cons_append] at split
    obtain ⟨opening, tails⟩ := List.cons.inj split
    rw [tails, ← List.cons_append] at inner
    obtain ⟨left, right, whole, leftParts, rightParts⟩ := ih inner (List.cons_ne_nil _ _)
    refine ⟨item :: left, right, by rw [whole]; rfl, ?_, rightParts⟩
    have joined : splitPair first second (item :: left) =
        (splitPair first second left).modifyHead (item :: ·) := by
      apply splitPair_cons
      intro later same starts
      rw [starts, List.cons_append] at whole
      exact pair ⟨same, (List.cons.inj whole).1⟩
    rw [joined, leftParts, parts, ← opening]
    rfl

/-- A text whose only part is empty is empty. -/
theorem eq_nil_of_splitPair {first second : Item} {text : List Item}
    (empty : splitPair first second text = [[]]) : text = [] := by
  cases text with
  | nil => rfl
  | cons item rest =>
    cases rest with
    | nil => simp [splitPair] at empty
    | cons next rest =>
      rw [splitPair] at empty
      split at empty
      · exact absurd (List.cons.inj empty).2 (splitPair_ne_nil first second rest)
      · obtain ⟨head, tail, split⟩ :=
          List.exists_cons_of_ne_nil (splitPair_ne_nil first second (next :: rest))
        rw [split] at empty
        simp at empty

end Texo.Foundation
