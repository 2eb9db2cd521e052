import Texo.Foundation.Search

/-! # Rewriting hits

A text is searched from left to right for a lead; each hit is the lead with the items right behind it
that are of a kind, and something is put in its place. What is put there is the hit itself or a
marker, and a needle that does not reach into a marker was in the text before.
-/
namespace Texo.Foundation

variable {Item : Type} [DecidableEq Item]

/-- The loop of a rewriting: every hit is replaced, what stands between hits is kept. -/
def rewriteHits (lead : List Item) (more : Item → Bool) (put : List Item → List Item) :
    Nat → List Item → List Item
  | 0, text => text
  | fuel + 1, text =>
    match splitOnce lead text with
    | none => text
    | some (front, rest) =>
      front ++ (put (lead ++ rest.takeWhile more) ++
        rewriteHits lead more put fuel (rest.dropWhile more))

/-- A text with its hits rewritten. -/
def rewritten (lead : List Item) (more : Item → Bool) (put : List Item → List Item)
    (text : List Item) : List Item :=
  rewriteHits lead more put text.length text

/-- The parts of a text outside its hits, in the loop of a rewriting. -/
def partsFrom (lead : List Item) (more : Item → Bool) : Nat → List Item → List (List Item)
  | 0, text => [text]
  | fuel + 1, text =>
    match splitOnce lead text with
    | none => [text]
    | some (front, rest) => front :: partsFrom lead more fuel (rest.dropWhile more)

/-- The parts of a text outside its hits. -/
def partsOutside (lead : List Item) (more : Item → Bool) (text : List Item) : List (List Item) :=
  partsFrom lead more text.length text

/-- How a text is rewritten, hit by hit. -/
inductive Rewrites (lead : List Item) (more : Item → Bool) (put : List Item → List Item) :
    List Item → List Item → Prop
  | done {text : List Item} (absent : ¬lead <:+: text) : Rewrites lead more put text text
  | hit {text front rest out : List Item} (cut : splitOnce lead text = some (front, rest))
      (later : Rewrites lead more put (rest.dropWhile more) out) :
      Rewrites lead more put text (front ++ (put (lead ++ rest.takeWhile more) ++ out))

/-- Enough fuel rewrites the whole text. -/
theorem rewrites_rewriteHits {lead : List Item} (nonempty : lead ≠ []) (more : Item → Bool)
    (put : List Item → List Item) {fuel : Nat} {text : List Item} (enough : text.length ≤ fuel) :
    Rewrites lead more put text (rewriteHits lead more put fuel text) := by
  induction fuel generalizing text with
  | zero =>
    have empty : text = [] := List.length_eq_zero_iff.mp (Nat.le_zero.mp enough)
    rw [empty]
    exact Rewrites.done fun inside => nonempty (List.eq_nil_of_infix_nil inside)
  | succ fuel ih =>
    unfold rewriteHits
    cases cut : splitOnce lead text with
    | none => exact Rewrites.done ((splitOnce_eq_none nonempty).mp cut)
    | some parts =>
      obtain ⟨front, rest⟩ := parts
      apply Rewrites.hit cut
      apply ih
      have size := congrArg List.length (splitOnce_eq cut)
      have positive := List.length_pos_iff.mpr nonempty
      have shorter := (List.dropWhile_suffix (l := rest) more).length_le
      rw [List.length_append, List.length_append] at size
      omega

/-- A rewriting rewrites the whole text. -/
theorem rewrites_rewritten {lead : List Item} (nonempty : lead ≠ []) (more : Item → Bool)
    (put : List Item → List Item) (text : List Item) :
    Rewrites lead more put text (rewritten lead more put text) :=
  rewrites_rewriteHits nonempty more put (Nat.le_refl _)

omit [DecidableEq Item] in
/-- A needle that does not hold the ends of a marker is found on one side of it, or within. -/
theorem infix_marker {needle front inside back : List Item} {left right : Item}
    (leftClear : left ∉ needle) (rightClear : right ∉ needle)
    (found : needle <:+: front ++ (left :: (inside ++ [right]) ++ back)) :
    needle <:+: front ∨ needle <:+: inside ∨ needle <:+: back := by
  have whole : front ++ (left :: (inside ++ [right]) ++ back) =
      front ++ left :: (inside ++ right :: back) := by simp
  rw [whole] at found
  rcases infix_around leftClear found with before | behind
  · exact Or.inl before
  · exact Or.inr (infix_around rightClear behind)

/-- A needle that no marker holds and that is found in a rewritten text behind some text is found in
the text behind it as well. -/
theorem Rewrites.infix_of_infix {lead : List Item} {more : Item → Bool}
    {put : List Item → List Item} {needle inside : List Item} {left right : Item}
    (leftClear : left ∉ needle) (rightClear : right ∉ needle) (outside : ¬needle <:+: inside)
    (puts : ∀ hit, put hit = hit ∨ put hit = left :: (inside ++ [right]))
    {text out : List Item} (rewrites : Rewrites lead more put text out) (before : List Item)
    (found : needle <:+: before ++ out) : needle <:+: before ++ text := by
  induction rewrites generalizing before with
  | done _ => exact found
  | @hit text front rest out cut later ih =>
    have whole := splitOnce_eq cut
    have split : rest.takeWhile more ++ rest.dropWhile more = rest :=
      List.takeWhile_append_dropWhile
    have spelled : before ++ text =
        before ++ front ++ (lead ++ rest.takeWhile more) ++ rest.dropWhile more := by
      rw [whole, ← split]
      simp only [List.append_assoc, List.takeWhile_append_dropWhile]
    rcases puts (lead ++ rest.takeWhile more) with kept | hidden
    · rw [kept, ← List.append_assoc, ← List.append_assoc] at found
      rw [spelled]
      exact ih _ found
    · rw [hidden, ← List.append_assoc] at found
      rcases infix_marker leftClear rightClear found with early | within | late
      · rw [spelled]
        exact early.trans ⟨[], (lead ++ rest.takeWhile more) ++ rest.dropWhile more, by simp⟩
      · exact absurd within outside
      · rw [spelled]
        have inRest := ih [] late
        rw [List.nil_append] at inRest
        exact inRest.trans (List.suffix_append _ _).isInfix

/-- A needle that is the lead itself and has nothing behind it is nowhere left. -/
theorem Rewrites.lead_gone {lead : List Item} {put : List Item → List Item}
    {inside : List Item} {left right : Item} (leftClear : left ∉ lead) (rightClear : right ∉ lead)
    (nonempty : lead ≠ []) (outside : ¬lead <:+: inside)
    (puts : ∀ hit, put hit = left :: (inside ++ [right])) {more : Item → Bool}
    {text out : List Item} (rewrites : Rewrites lead more put text out) : ¬lead <:+: out := by
  induction rewrites with
  | done absent => exact absent
  | @hit text front rest out cut later ih =>
    intro found
    rw [puts] at found
    rcases infix_marker leftClear rightClear found with early | within | late
    · exact splitOnce_front nonempty cut early
    · exact outside within
    · exact ih late

/-- A text whose hits are all replaced by one marker is its parts around that marker. -/
theorem rewriteHits_const (lead : List Item) (more : Item → Bool) (marker : List Item) (fuel : Nat)
    (text : List Item) :
    rewriteHits lead more (fun _ => marker) fuel text =
      marker.intercalate (partsFrom lead more fuel text) := by
  induction fuel generalizing text with
  | zero => simp [rewriteHits, partsFrom]
  | succ fuel ih =>
    unfold rewriteHits partsFrom
    cases cut : splitOnce lead text with
    | none => simp
    | some parts =>
      have leftover : partsFrom lead more fuel (parts.2.dropWhile more) ≠ [] := by
        cases fuel with
        | zero => exact List.cons_ne_nil _ _
        | succ fuel =>
          unfold partsFrom
          split <;> exact List.cons_ne_nil _ _
      obtain ⟨first, others, named⟩ := List.exists_cons_of_ne_nil leftover
      simp only [ih, named, List.intercalate_cons_cons, List.append_assoc]

omit [DecidableEq Item] in
/-- A needle that neither the marker nor any part holds is not found in the parts around the
marker. -/
theorem infix_intercalate {needle inside : List Item} {left right : Item}
    (leftClear : left ∉ needle) (rightClear : right ∉ needle) (outside : ¬needle <:+: inside)
    {parts : List (List Item)} (nonempty : needle ≠ [])
    (absent : ∀ part ∈ parts, ¬needle <:+: part) :
    ¬needle <:+: (left :: (inside ++ [right])).intercalate parts := by
  induction parts with
  | nil =>
    intro found
    exact nonempty (List.eq_nil_of_infix_nil found)
  | cons part rest ih =>
    cases rest with
    | nil => simpa using absent part (by simp)
    | cons next rest =>
      rw [List.intercalate_cons_cons]
      intro found
      rw [List.append_assoc] at found
      rcases infix_marker leftClear rightClear found with early | within | late
      · exact absent part (by simp) early
      · exact outside within
      · exact ih (fun other member => absent other (List.mem_cons_of_mem _ member)) late

end Texo.Foundation
