import Mathlib.Data.List.Basic

/-! # Interleaved work of two parties

A trace lists what two parties have done, in the order it was done. Where a kind of work is done
by at most one of the two, the trace holds it in the order that party did it.
-/
namespace Texo.Foundation

variable {Party Item : Type} [DecidableEq Party]

/-- What one party has done in a trace. -/
def doneBy (party : Party) (trace : List (Party × Item)) : List Item :=
  (trace.filter fun work => work.1 = party).map Prod.snd

@[simp] theorem doneBy_nil (party : Party) : doneBy party ([] : List (Party × Item)) = [] := rfl

theorem doneBy_append (party : Party) (trace later : List (Party × Item)) :
    doneBy party (trace ++ later) = doneBy party trace ++ doneBy party later := by
  unfold doneBy
  rw [List.filter_append, List.map_append]

/-- A party's own work in order. -/
theorem doneBy_own (party : Party) (items : List Item) :
    doneBy party (items.map (Prod.mk party)) = items := by
  induction items with
  | nil => rfl
  | cons item rest ih =>
    unfold doneBy at ih ⊢
    simpa using ih

/-- Another party's work is not its own. -/
theorem doneBy_other {party other : Party} (apart : other ≠ party) (items : List Item) :
    doneBy party (items.map (Prod.mk other)) = [] := by
  unfold doneBy
  rw [List.filter_eq_nil_iff.mpr, List.map_nil]
  intro work member
  obtain ⟨item, _, rfl⟩ := List.mem_map.mp member
  simpa using apart

theorem mem_doneBy {party : Party} {trace : List (Party × Item)} {item : Item} :
    item ∈ doneBy party trace ↔ (party, item) ∈ trace := by
  unfold doneBy
  constructor
  · intro member
    obtain ⟨⟨own, what⟩, listed, rfl⟩ := List.mem_map.mp member
    obtain ⟨inside, same⟩ := List.mem_filter.mp listed
    rw [← of_decide_eq_true same]
    exact inside
  · intro member
    exact List.mem_map.mpr ⟨_, List.mem_filter.mpr ⟨member, by simp⟩, rfl⟩

/-- Work of a kind that one of two parties never does is the other's. -/
theorem filter_of_alone {first second : Party} (parties : ∀ party, party = first ∨ party = second)
    {trace : List (Party × Item)} {kind : Item → Bool}
    (alone : (doneBy second trace).filter kind = []) :
    (trace.map Prod.snd).filter kind = (doneBy first trace).filter kind := by
  induction trace with
  | nil => rfl
  | cons work rest ih =>
    have split : work :: rest = [work] ++ rest := rfl
    rw [split, doneBy_append, List.filter_append] at alone
    obtain ⟨now, later⟩ := List.append_eq_nil_iff.mp alone
    rw [split, doneBy_append, List.map_append, List.filter_append, List.filter_append, ih later]
    congr 1
    obtain ⟨party, item⟩ := work
    by_cases own : party = first
    · simp [doneBy, own]
    · have other : party = second := (parties party).resolve_left own
      have idle : kind item = false := by
        simpa [doneBy, other] using now
      simp [doneBy, own, idle]

/-- Work of a kind that at most one of two parties does, party by party. -/
theorem filter_of_either {first second : Party} (parties : ∀ party, party = first ∨ party = second)
    {trace : List (Party × Item)} {kind : Item → Bool}
    (either : (doneBy first trace).filter kind = [] ∨ (doneBy second trace).filter kind = []) :
    (trace.map Prod.snd).filter kind =
      (doneBy first trace).filter kind ++ (doneBy second trace).filter kind := by
  rcases either with idle | idle
  · rw [filter_of_alone (fun party => (parties party).symm) idle, idle, List.nil_append]
  · rw [filter_of_alone parties idle, idle, List.append_nil]

end Texo.Foundation
