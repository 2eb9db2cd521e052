import Mathlib.Data.List.Sort

/-! # Paging by offset

A reader counts what it has received and asks for as many items behind that many. The list may
change between two pages. As long as as many of its keys are up to the last received one as the
reader has received, each page continues where the one before it stopped.
-/
namespace Texo.Foundation

variable {Key : Type} [LinearOrder Key]

/-- The key is up to the last received one. -/
def upToLast (received : List Key) (key : Key) : Bool := received.getLast?.any fun last => key ≤ last

/-- The list has as many keys up to the last received one as are received. -/
def Steady (received keys : List Key) : Prop :=
  (keys.filter (upToLast received)).length = received.length

/-- A sorted list is its keys up to the last received one and those behind it. -/
theorem sorted_around (received : List Key) {keys : List Key} (sorted : keys.Pairwise (· < ·)) :
    keys = keys.filter (upToLast received) ++ keys.filter fun key => !upToLast received key := by
  unfold upToLast
  cases received.getLast? with
  | none => simp
  | some last =>
    simp only [Option.any_some]
    induction keys with
    | nil => rfl
    | cons key rest ih =>
      obtain ⟨before, later⟩ := List.pairwise_cons.mp sorted
      by_cases small : key ≤ last
      · rw [List.filter_cons_of_pos (by simpa using small),
          List.filter_cons_of_neg (by simpa using small), List.cons_append, ← ih later]
      · have none : rest.filter (fun key => decide (key ≤ last)) = [] := by
          rw [List.filter_eq_nil_iff]
          intro other member
          have above := before other member
          simpa using lt_trans (not_le.mp small) above
        have all := ih later
        rw [none, List.nil_append] at all
        rw [List.filter_cons_of_neg (by simpa using small), none, List.nil_append,
          List.filter_cons_of_pos (by simpa using small), ← all]

/-- Behind a steady count are the keys behind the last received one. -/
theorem drop_steady {received keys : List Key} (sorted : keys.Pairwise (· < ·))
    (steady : Steady received keys) :
    keys.drop received.length = keys.filter fun key => !upToLast received key := by
  have whole := sorted_around received sorted
  have dropped := congrArg (List.drop received.length) whole
  rw [← steady, List.drop_left, steady] at dropped
  exact dropped

/-- What a reader has received of the lists it was served from: each key once and in order, and
every key of all of them up to the last received one. -/
structure Kept (lists : List (List Key)) (received : List Key) : Prop where
  increasing : received.Pairwise (· < ·)
  complete : ∀ key, (∀ keys ∈ lists, key ∈ keys) → upToLast received key = true → key ∈ received

/-- Before its first page a reader has received nothing. -/
theorem kept_nil : Kept ([] : List (List Key)) [] where
  increasing := List.Pairwise.nil
  complete := by
    intro key _ early
    cases early

/-- A received key is up to the last received one. -/
theorem upToLast_of_mem {received : List Key} (increasing : received.Pairwise (· < ·)) {key : Key}
    (member : key ∈ received) : upToLast received key = true := by
  unfold upToLast
  rcases List.eq_nil_or_concat received with rfl | ⟨front, last, rfl⟩
  · cases member
  · rw [List.concat_eq_append] at increasing member ⊢
    rw [List.getLast?_concat]
    simp only [Option.any_some, decide_eq_true_eq]
    rcases List.mem_append.mp member with early | final
    · exact le_of_lt ((List.pairwise_append.mp increasing).2.2 key early last (by simp))
    · rw [List.mem_singleton.mp final]

/-- The step law: one more page of a steady list. -/
theorem Kept.page {lists : List (List Key)} {received keys : List Key} (kept : Kept lists received)
    (sorted : keys.Pairwise (· < ·)) (steady : Steady received keys) (limit : Nat) :
    Kept (lists ++ [keys]) (received ++ (keys.drop received.length).take limit) := by
  have behind : ∀ key ∈ keys.drop received.length, upToLast received key = false := by
    intro key member
    rw [drop_steady sorted steady, List.mem_filter] at member
    simpa using member.2
  constructor
  · rw [List.pairwise_append]
    refine ⟨kept.increasing, (sorted.sublist (List.drop_sublist _ _)).sublist
      (List.take_sublist _ _), ?_⟩
    intro early before late after
    have far := behind late (List.mem_of_mem_take after)
    have near := upToLast_of_mem kept.increasing before
    unfold upToLast at far near
    cases last : received.getLast? with
    | none => simp [last] at near
    | some last' =>
      simp only [last, Option.any_some, decide_eq_true_eq, decide_eq_false_iff_not, not_le] at far near
      exact lt_of_le_of_lt near far
  · intro key everywhere early
    have before : ∀ list ∈ lists, key ∈ list := fun list member =>
      everywhere list (List.mem_append_left _ member)
    have now : key ∈ keys := everywhere keys (by simp)
    by_cases old : upToLast received key = true
    · exact List.mem_append_left _ (kept.complete key before old)
    · apply List.mem_append_right
      rw [Bool.not_eq_true] at old
      have later : key ∈ keys.drop received.length := by
        rw [drop_steady sorted steady, List.mem_filter, old]
        exact ⟨now, rfl⟩
      -- The page ends at a key that is not before this one, so it holds this one.
      have remaining := sorted.sublist (List.drop_sublist received.length keys)
      rw [← List.take_append_drop limit (keys.drop received.length)] at later remaining
      rcases List.mem_append.mp later with inside | outside
      · exact inside
      · have above := (List.pairwise_append.mp remaining).2.2
        unfold upToLast at early old
        rw [List.getLast?_append] at early
        cases final : ((keys.drop received.length).take limit).getLast? with
        | none =>
          rw [final, Option.none_or] at early
          rw [early] at old
          cases old
        | some last =>
          rw [final, Option.some_or, Option.any_some, decide_eq_true_eq] at early
          have earlier := above last (List.mem_of_getLast? final) key outside
          exact absurd early (not_le.mpr earlier)

/-- A reader that has been told there is no more has received every key of all lists. -/
theorem Kept.finished {lists : List (List Key)} {received keys : List Key} {limit : Nat}
    (kept : Kept lists received) (sorted : keys.Pairwise (· < ·)) (steady : Steady received keys)
    (enough : keys.length ≤ (received ++ (keys.drop received.length).take limit).length) {key : Key}
    (everywhere : ∀ list ∈ lists ++ [keys], key ∈ list) :
    key ∈ received ++ (keys.drop received.length).take limit := by
  have page := kept.page sorted steady limit
  by_cases old : upToLast received key = true
  · exact List.mem_append_left _ (kept.complete key
      (fun list member => everywhere list (List.mem_append_left _ member)) old)
  · apply List.mem_append_right
    rw [Bool.not_eq_true] at old
    have later : key ∈ keys.drop received.length := by
      rw [drop_steady sorted steady, List.mem_filter, old]
      exact ⟨everywhere keys (by simp), rfl⟩
    have all : (keys.drop received.length).take limit = keys.drop received.length := by
      apply List.take_of_length_le
      rw [List.length_append, List.length_take, List.length_drop] at enough
      rw [List.length_drop]
      omega
    rw [all]
    exact later

end Texo.Foundation
