import Mathlib.Data.List.Basic

/-! # Keyed logs

A log that commits a row only where its key is new, and the last row of a kind. A row that is committed
again under its key leaves the log as it is, so the last row need not be the one appended.
-/
namespace Texo.Foundation

variable {Row Key : Type} [DecidableEq Key]

/-- A row appended under its key. -/
def commit (key : Row → Key) (rows : List Row) (row : Row) : List Row :=
  if ∃ other ∈ rows, key other = key row then rows else rows ++ [row]

/-- The last row of a kind. -/
def latest (kind : Row → Bool) (rows : List Row) : Option Row := (rows.filter kind).getLast?

/-- A key in use commits nothing. -/
theorem commit_known {key : Row → Key} {rows : List Row} {row : Row}
    (known : ∃ other ∈ rows, key other = key row) : commit key rows row = rows := if_pos known

/-- A new key commits its row. -/
theorem commit_fresh {key : Row → Key} {rows : List Row} {row : Row}
    (fresh : ∀ other ∈ rows, key other ≠ key row) : commit key rows row = rows ++ [row] := by
  apply if_neg
  rintro ⟨other, member, same⟩
  exact fresh other member same

/-- The last row of a kind is a row of the log. -/
theorem mem_of_latest {kind : Row → Bool} {rows : List Row} {row : Row}
    (found : latest kind rows = some row) : row ∈ rows ∧ kind row = true :=
  List.mem_filter.mp (List.mem_of_getLast? found)

/-- A row of a kind that is appended is the last of it. -/
theorem latest_append {kind : Row → Bool} (rows : List Row) {row : Row} (held : kind row = true) :
    latest kind (rows ++ [row]) = some row := by
  have last : [row].filter kind = [row] := by simp [held]
  unfold latest
  rw [List.filter_append, last, List.getLast?_append]
  rfl

/-- The last row of a kind has the key of the one just committed exactly where the key was new or
was the last one's already. -/
theorem latest_commit_iff {key : Row → Key} {kind : Row → Bool} {rows : List Row} {row : Row}
    (held : kind row = true) :
    (∃ last, latest kind (commit key rows row) = some last ∧ key last = key row) ↔
      (∀ other ∈ rows, key other ≠ key row) ∨
        ∃ last, latest kind rows = some last ∧ key last = key row := by
  by_cases known : ∃ other ∈ rows, key other = key row
  · rw [commit_known known]
    constructor
    · exact Or.inr
    · rintro (fresh | last)
      · obtain ⟨other, member, same⟩ := known
        exact absurd same (fresh other member)
      · exact last
  · have fresh : ∀ other ∈ rows, key other ≠ key row := by
      intro other member same
      exact known ⟨other, member, same⟩
    rw [commit_fresh fresh, latest_append rows held]
    exact ⟨fun _ => Or.inl fresh, fun _ => ⟨row, rfl, rfl⟩⟩

end Texo.Foundation
