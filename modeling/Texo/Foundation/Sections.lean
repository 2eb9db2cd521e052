import Mathlib.Data.List.TakeWhile

/-! # Sections of a text of lines

A text is written as lines, each with a mark at its end. The section of a heading is made of the
lines after it, up to the next heading.
-/
namespace Texo.Foundation

variable {Item : Type} [DecidableEq Item]

/-- Lines, each with the mark that ends it. -/
def endLines (mark : Item) (lines : List (List Item)) : List Item :=
  lines.flatMap fun line => line ++ [mark]

/-- Lines that hold no mark are read back, with an empty one after the last mark. -/
theorem splitOn_endLines {mark : Item} {lines : List (List Item)}
    (clear : ∀ line ∈ lines, mark ∉ line) :
    (endLines mark lines).splitOn mark = lines ++ [[]] := by
  induction lines with
  | nil => exact List.splitOn_nil mark
  | cons line lines ih =>
    have here : mark ∉ line := clear line List.mem_cons_self
    have later := ih fun other member => clear other (List.mem_cons_of_mem _ member)
    have shape : endLines mark (line :: lines) = line ++ mark :: endLines mark lines := by
      unfold endLines
      rw [List.flatMap_cons, List.append_assoc, List.singleton_append]
    rw [shape, List.splitOn_append_cons_self_of_not_mem here, later, List.cons_append]

/-- A line that is read holds no mark. -/
theorem notMem_of_mem_splitOn {mark : Item} {text line : List Item}
    (member : line ∈ text.splitOn mark) : mark ∉ line := by
  induction text generalizing line with
  | nil =>
    rw [List.splitOn_nil] at member
    rw [List.mem_singleton.mp member]
    exact List.not_mem_nil
  | cons c text ih =>
    rw [List.splitOn_cons_eq_if_modifyHead] at member
    by_cases same : (c == mark) = true
    · rw [if_pos same] at member
      rcases List.mem_cons.mp member with empty | later
      · rw [empty]
        exact List.not_mem_nil
      · exact ih later
    · rw [if_neg same] at member
      cases split : text.splitOn mark with
      | nil => exact absurd split (List.splitOn_ne_nil mark text)
      | cons first others =>
        rw [split, List.modifyHead_cons] at member
        rcases List.mem_cons.mp member with here | later
        · have apart : mark ≠ c := fun equal => same (by simp [equal])
          have listed : first ∈ text.splitOn mark := by
            rw [split]
            exact List.mem_cons_self
          have clear := ih listed
          rw [here, List.mem_cons]
          intro inside
          exact inside.elim apart clear
        · exact ih (by rw [split]; exact List.mem_cons_of_mem _ later)

variable {Line : Type} [DecidableEq Line]

/-- The lines after the first line that is a heading, up to the next heading. -/
def sectionAfter (headings : List Line) (heading : Line) (lines : List Line) : List Line :=
  ((lines.dropWhile fun line => line ≠ heading).drop 1).takeWhile fun line => line ∉ headings

/-- The section of a heading is what stands between it and the next heading. -/
theorem sectionAfter_eq {headings before body after : List Line} {heading next : Line}
    (first : heading ∉ before) (plain : ∀ line ∈ body, line ∉ headings) (ends : next ∈ headings) :
    sectionAfter headings heading (before ++ heading :: body ++ next :: after) = body := by
  unfold sectionAfter
  have passed : ∀ line ∈ before, decide (line ≠ heading) = true := by
    intro line member
    exact decide_eq_true fun same => first (same ▸ member)
  have stays : ∀ line ∈ body, decide (line ∉ headings) = true :=
    fun line member => decide_eq_true (plain line member)
  rw [List.append_assoc, List.dropWhile_append_of_pos passed, List.cons_append,
    List.dropWhile_cons_of_neg (by simp), List.drop_one, List.tail_cons,
    List.takeWhile_append_of_pos stays, List.takeWhile_cons_of_neg (by simp [ends]),
    List.append_nil]

/-- A heading that is missing has no section. -/
theorem sectionAfter_missing {headings lines : List Line} {heading : Line}
    (missing : heading ∉ lines) : sectionAfter headings heading lines = [] := by
  unfold sectionAfter
  have passed : ∀ line ∈ lines, decide (line ≠ heading) = true := by
    intro line member
    exact decide_eq_true fun same => missing (same ▸ member)
  rw [List.dropWhile_eq_nil_iff.mpr passed, List.drop_nil, List.takeWhile_nil]

/-- The lines of a section are lines of the text. -/
theorem mem_of_mem_sectionAfter {headings lines : List Line} {heading line : Line}
    (member : line ∈ sectionAfter headings heading lines) : line ∈ lines := by
  have dropped := (List.takeWhile_sublist _).subset member
  exact (List.dropWhile_sublist _).subset ((List.drop_sublist _ _).subset dropped)

end Texo.Foundation
