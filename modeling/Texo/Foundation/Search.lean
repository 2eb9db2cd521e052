import Mathlib.Data.List.Basic
import Mathlib.Data.List.Infix

/-! # First occurrences

A text cut around the first occurrence of a needle. What the cut returns is the only way to write
the text as two parts around the needle with nothing of it found earlier.
-/
namespace Texo.Foundation

variable {Item : Type} [DecidableEq Item]

/-- `str::split_once`: the text before and after the first occurrence of a needle. -/
def splitOnce (needle : List Item) : List Item → Option (List Item × List Item)
  | [] => if needle = [] then some ([], []) else none
  | item :: rest =>
    if needle <+: item :: rest then
      some ([], (item :: rest).drop needle.length)
    else
      (splitOnce needle rest).map fun parts => (item :: parts.1, parts.2)

/-- `str::rsplit_once`: the text before and after the last occurrence of an item. -/
def rsplitOnce (separator : Item) (text : List Item) : Option (List Item × List Item) :=
  (splitOnce [separator] text.reverse).map fun parts => (parts.2.reverse, parts.1.reverse)

/-- `str::strip_prefix`: the text behind its first part. -/
def stripPrefix (lead text : List Item) : Option (List Item) :=
  if lead <+: text then some (text.drop lead.length) else none

/-- A text that starts with its first part goes on with the rest. -/
theorem stripPrefix_eq_some {lead text rest : List Item} :
    stripPrefix lead text = some rest ↔ text = lead ++ rest := by
  unfold stripPrefix
  constructor
  · intro stripped
    split at stripped
    · rename_i leads
      obtain ⟨tail, whole⟩ := leads
      rw [← whole, List.drop_left] at stripped
      rw [← whole, Option.some.inj stripped]
    · cases stripped
  · intro whole
    rw [whole, if_pos (List.prefix_append lead rest), List.drop_left]

/-- The text is its parts around the needle. -/
theorem splitOnce_eq {needle text front back : List Item}
    (cut : splitOnce needle text = some (front, back)) : text = front ++ (needle ++ back) := by
  induction text generalizing front with
  | nil =>
    unfold splitOnce at cut
    split at cut
    · rename_i empty
      cases cut
      rw [empty]
      rfl
    · cases cut
  | cons item rest ih =>
    unfold splitOnce at cut
    split at cut
    · rename_i here
      cases cut
      obtain ⟨tail, whole⟩ := here
      rw [← whole, List.drop_left]
      rfl
    · obtain ⟨⟨first, last⟩, later, same⟩ := Option.map_eq_some_iff.mp cut
      cases same
      rw [ih later]
      rfl

/-- Nothing of the needle is found before the cut. -/
theorem splitOnce_first {needle text front back : List Item}
    (cut : splitOnce needle text = some (front, back)) {early late : List Item}
    (found : text = early ++ (needle ++ late)) : front.length ≤ early.length := by
  induction text generalizing front early with
  | nil =>
    unfold splitOnce at cut
    split at cut
    · cases cut
      exact Nat.zero_le _
    · cases cut
  | cons item rest ih =>
    unfold splitOnce at cut
    split at cut
    · cases cut
      exact Nat.zero_le _
    · rename_i absent
      obtain ⟨⟨first, last⟩, later, same⟩ := Option.map_eq_some_iff.mp cut
      cases same
      cases early with
      | nil => exact absurd ⟨late, found.symm⟩ absent
      | cons lead early =>
        rw [List.cons_append] at found
        have tails : rest = early ++ (needle ++ late) := (List.cons.inj found).2
        exact Nat.succ_le_succ (ih later tails)

omit [DecidableEq Item] in
/-- A needle is not found in front of its first occurrence. -/
theorem notInfix_front {needle text front back : List Item} (nonempty : needle ≠ [])
    (whole : text = front ++ (needle ++ back))
    (first : ∀ early late, text = early ++ (needle ++ late) → front.length ≤ early.length) :
    ¬needle <:+: front := by
  rintro ⟨early, late, split⟩
  have bound : front.length ≤ early.length := by
    apply first early (late ++ (needle ++ back))
    rw [whole, ← split, List.append_assoc, List.append_assoc]
  have size := congrArg List.length split
  have positive := List.length_pos_iff.mpr nonempty
  rw [List.length_append, List.length_append] at size
  omega

/-- The needle is not found in front of the cut. -/
theorem splitOnce_front {needle text front back : List Item} (nonempty : needle ≠ [])
    (cut : splitOnce needle text = some (front, back)) : ¬needle <:+: front :=
  notInfix_front nonempty (splitOnce_eq cut) fun _ _ => splitOnce_first cut

/-- A needle that is not empty is not found exactly where the text does not hold it. -/
theorem splitOnce_eq_none {needle text : List Item} (nonempty : needle ≠ []) :
    splitOnce needle text = none ↔ ¬needle <:+: text := by
  induction text with
  | nil =>
    unfold splitOnce
    rw [if_neg nonempty]
    exact iff_of_true rfl fun inside => nonempty (List.eq_nil_of_infix_nil inside)
  | cons item rest ih =>
    unfold splitOnce
    split
    · rename_i here
      exact iff_of_false (by simp) fun absent => absent here.isInfix
    · rename_i absent
      rw [Option.map_eq_none_iff, ih, List.infix_cons_iff]
      constructor
      · rintro later (here | inside)
        · exact absent here
        · exact later inside
      · intro neither inside
        exact neither (Or.inr inside)

/-- A needle with nothing of it found earlier is where the text is cut. -/
theorem splitOnce_append {needle front back : List Item} (nonempty : needle ≠ [])
    (clear : ∀ early late, front ++ (needle ++ back) = early ++ (needle ++ late) →
      front.length ≤ early.length) :
    splitOnce needle (front ++ (needle ++ back)) = some (front, back) := by
  cases cut : splitOnce needle (front ++ (needle ++ back)) with
  | none =>
    have absent := (splitOnce_eq_none nonempty).mp cut
    exact absurd ⟨front, back, by rw [List.append_assoc]⟩ absent
  | some parts =>
    obtain ⟨first, last⟩ := parts
    have whole := splitOnce_eq cut
    have below := splitOnce_first cut rfl
    have above := clear first last whole
    obtain ⟨same, tails⟩ := List.append_inj whole (Nat.le_antisymm above below)
    rw [same, List.append_cancel_left tails]

/-- One item that the front does not hold is where the text is cut. -/
theorem splitOnce_singleton {separator : Item} {front : List Item} (clear : separator ∉ front)
    (back : List Item) : splitOnce [separator] (front ++ separator :: back) = some (front, back) := by
  apply splitOnce_append (List.cons_ne_nil _ _)
  intro early late same
  by_contra short
  have place : (front ++ ([separator] ++ back))[early.length]? = some separator := by
    rw [same, List.getElem?_append_right (Nat.le_refl _), Nat.sub_self]
    rfl
  rw [List.getElem?_append_left (by omega)] at place
  exact clear (List.mem_of_getElem? place)

/-- The part before one item does not hold it. -/
theorem notMem_of_splitOnce {separator : Item} {text front back : List Item}
    (cut : splitOnce [separator] text = some (front, back)) : separator ∉ front := by
  intro member
  obtain ⟨early, late, rfl⟩ := List.append_of_mem member
  have whole := splitOnce_eq cut
  have bound : (early ++ separator :: late).length ≤ early.length := by
    apply splitOnce_first cut
    rw [whole, List.append_assoc]
    rfl
  rw [List.length_append, List.length_cons] at bound
  omega

/-- A text is cut around one item exactly where it holds it. -/
theorem splitOnce_isSome {separator : Item} {text : List Item} :
    (splitOnce [separator] text).isSome = true ↔ separator ∈ text := by
  have absent : splitOnce [separator] text = none ↔ ¬[separator] <:+: text :=
    splitOnce_eq_none (List.cons_ne_nil separator [])
  rw [List.singleton_infix_iff] at absent
  cases cut : splitOnce [separator] text with
  | none => exact iff_of_false (by simp) (absent.mp cut)
  | some parts =>
    refine iff_of_true rfl ?_
    by_contra missing
    rw [absent.mpr missing] at cut
    cases cut

omit [DecidableEq Item] in
/-- What does not hold an item lies on one side of it. -/
theorem aside {early needle late front back : List Item} {separator : Item}
    (clear : separator ∉ needle) (whole : early ++ (needle ++ late) = front ++ separator :: back) :
    early.length + needle.length ≤ front.length ∨ front.length < early.length := by
  by_contra across
  have place : (early ++ (needle ++ late))[front.length]? = some separator := by
    rw [whole, List.getElem?_append_right (Nat.le_refl _), Nat.sub_self]
    rfl
  rw [List.getElem?_append_right (by omega), List.getElem?_append_left (by omega)] at place
  exact clear (List.mem_of_getElem? place)

omit [DecidableEq Item] in
/-- A needle that ends within the front is found in it. -/
theorem infix_front {early needle late front back : List Item}
    (whole : early ++ (needle ++ late) = front ++ back)
    (inside : early.length + needle.length ≤ front.length) : needle <:+: front := by
  have lead : early ++ needle <+: front := by
    apply List.prefix_of_prefix_length_le ⟨late, rfl⟩
    · rw [List.append_assoc, whole]
      exact List.prefix_append front back
    · rw [List.length_append]
      exact inside
  exact (List.suffix_append early needle).isInfix.trans lead.isInfix

omit [DecidableEq Item] in
/-- A needle that does not hold an item is found on one side of it. -/
theorem infix_around {needle front back : List Item} {separator : Item}
    (clear : separator ∉ needle) (found : needle <:+: front ++ separator :: back) :
    needle <:+: front ∨ needle <:+: back := by
  obtain ⟨early, late, whole⟩ := found
  rw [List.append_assoc] at whole
  rcases aside clear whole with before | behind
  · exact Or.inl (infix_front whole before)
  · right
    have lead : front ++ [separator] <+: early := by
      apply List.prefix_of_prefix_length_le ⟨back, rfl⟩
      · rw [List.append_assoc, List.singleton_append, ← whole]
        exact List.prefix_append early _
      · rw [List.length_append, List.length_singleton]
        exact behind
    obtain ⟨rest, split⟩ := lead
    rw [← split] at whole
    have tails : separator :: (rest ++ (needle ++ late)) = separator :: back := by
      apply List.append_cancel_left
      rw [← whole]
      simp
    exact ⟨rest, late, by rw [List.append_assoc]; exact (List.cons.inj tails).2⟩

/-- A text behind a line that does not hold the needle is cut at the needle it starts with. -/
theorem splitOnce_behind {needle front : List Item} {separator : Item} (nonempty : needle ≠ [])
    (clear : separator ∉ needle) (absent : ¬needle <:+: front) (back : List Item) :
    splitOnce needle (front ++ separator :: (needle ++ back)) =
      some (front ++ [separator], back) := by
  have whole : front ++ separator :: (needle ++ back) = (front ++ [separator]) ++ (needle ++ back) := by
    rw [List.append_assoc, List.singleton_append]
  rw [whole]
  apply splitOnce_append nonempty
  intro early late same
  rw [← whole] at same
  rcases aside clear same.symm with before | behind
  · exact absurd (infix_front same.symm before) absent
  · rw [List.length_append, List.length_singleton]
    exact behind

end Texo.Foundation
