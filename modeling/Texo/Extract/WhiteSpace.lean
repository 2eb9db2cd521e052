import Mathlib.Data.List.Induction
import Texo.Extract.Words

/-! # White space

How the words of a text follow from the words of its parts.
-/
namespace Texo.Extract

/-- A letter, digit or another visible ASCII character is no white space. -/
theorem isWhitespace_visible {c : Char} (low : 0x20 < c.toNat) (high : c.toNat < 0x80) :
    isWhitespace c = false := by
  unfold isWhitespace
  simp only [Bool.or_eq_false_iff, Bool.and_eq_false_iff, decide_eq_false_iff_not]
  omega

/-- The words around a character of white space are those of the two sides. -/
theorem splitWhitespace_append_cons (front back : List Char) {c : Char}
    (blank : isWhitespace c = true) :
    splitWhitespace (front ++ c :: back) = splitWhitespace front ++ splitWhitespace back := by
  unfold splitWhitespace
  rw [List.splitOnP_append_cons front back blank, List.filter_append]

/-- A text of no characters has no words. -/
theorem splitWhitespace_nil : splitWhitespace [] = [] := by decide

/-- A text begins with white space or is empty. -/
def StartsBlank (text : List Char) : Prop := ∀ c rest, text = c :: rest → isWhitespace c = true

/-- The words of a text behind another are words of their own where it begins with white space. -/
theorem splitWhitespace_append (front : List Char) {back : List Char} (blank : StartsBlank back) :
    splitWhitespace (front ++ back) = splitWhitespace front ++ splitWhitespace back := by
  cases back with
  | nil => rw [List.append_nil, splitWhitespace_nil, List.append_nil]
  | cons c rest =>
    have white := blank c rest rfl
    have alone : splitWhitespace (c :: rest) = splitWhitespace rest := by
      have split := splitWhitespace_append_cons [] rest white
      rw [List.nil_append, splitWhitespace_nil, List.nil_append] at split
      exact split
    rw [splitWhitespace_append_cons front rest white, alone]

/-- What is left behind a run of other characters begins with white space. -/
theorem startsBlank_dropWhile (text : List Char) :
    StartsBlank (text.dropWhile fun c => !isWhitespace c) := by
  intro c rest left
  have head := List.head?_dropWhile_not (fun c => !isWhitespace c) text
  rw [left] at head
  simpa using head

/-- A text without white space is one word. -/
theorem splitWhitespace_solid {word : List Char} (nonempty : word ≠ [])
    (solid : ∀ c ∈ word, isWhitespace c = false) : splitWhitespace word = [word] := by
  unfold splitWhitespace
  rw [List.splitOnP_eq_singleton solid]
  cases word with
  | nil => exact absurd rfl nonempty
  | cons c rest => rfl

/-- A text is a part that ends in white space, or no part, and a run of other characters. -/
theorem lastRun_split (text : List Char) :
    ∃ front last, text = front ++ last ∧ (∀ c ∈ last, isWhitespace c = false) ∧
      ∀ back, splitWhitespace (front ++ back) = splitWhitespace front ++ splitWhitespace back := by
  induction text using List.reverseRecOn with
  | nil => exact ⟨[], [], rfl, by simp, fun back => by simp [splitWhitespace_nil]⟩
  | append_singleton text c ih =>
    cases blank : isWhitespace c with
    | true =>
      refine ⟨text ++ [c], [], by rw [List.append_nil], by simp, ?_⟩
      intro back
      have whole := splitWhitespace_append_cons text back blank
      have alone := splitWhitespace_append_cons text [] blank
      rw [splitWhitespace_nil, List.append_nil] at alone
      rw [List.append_assoc, List.singleton_append, whole, alone]
    | false =>
      obtain ⟨front, last, split, solid, words⟩ := ih
      refine ⟨front, last ++ [c], by rw [split, List.append_assoc], ?_, words⟩
      intro other member
      rcases List.mem_append.mp member with early | final
      · exact solid other early
      · rw [List.mem_singleton.mp final]
        exact blank

/-- A part between characters of white space has none. -/
theorem solid_of_mem_splitOnP {word : List Char} (text : List Char)
    (member : word ∈ text.splitOnP isWhitespace) : ∀ c ∈ word, isWhitespace c = false := by
  induction text generalizing word with
  | nil =>
    rw [List.splitOnP_nil, List.mem_singleton] at member
    rw [member]
    exact fun c inside => absurd inside List.not_mem_nil
  | cons lead text ih =>
    rw [List.splitOnP_cons_eq_if_modifyHead] at member
    split at member
    · rcases List.mem_cons.mp member with rfl | later
      · exact fun c inside => absurd inside List.not_mem_nil
      · exact ih later
    · rename_i visible
      obtain ⟨head, tail, split⟩ := List.exists_cons_of_ne_nil
        (List.splitOnP_ne_nil isWhitespace text)
      rw [split, List.modifyHead_cons] at member
      rcases List.mem_cons.mp member with rfl | later
      · intro c inside
        rcases List.mem_cons.mp inside with rfl | behind
        · exact Bool.eq_false_iff.mpr visible
        · exact ih (by rw [split]; exact List.mem_cons_self) c behind
      · exact ih (by rw [split]; exact List.mem_cons_of_mem _ later)

/-- A word has no white space. -/
theorem solid_of_mem_splitWhitespace {text word : List Char}
    (member : word ∈ splitWhitespace text) : ∀ c ∈ word, isWhitespace c = false :=
  solid_of_mem_splitOnP text (List.mem_of_mem_filter member)

/-- A text without white space is left as it is. -/
theorem trim_solid {text : List Char} (solid : ∀ c ∈ text, isWhitespace c = false) :
    trim text = text := by
  have kept : ∀ part : List Char, (∀ c ∈ part, isWhitespace c = false) →
      part.dropWhile isWhitespace = part := by
    intro part visible
    cases part with
    | nil => rfl
    | cons c rest => exact List.dropWhile_cons_of_neg (by simp [visible c List.mem_cons_self])
  unfold trim trimEndMatches trimStart
  rw [kept text solid, kept text.reverse (fun c member => solid c (List.mem_reverse.mp member)),
    List.reverse_reverse]

/-- White space in front of a text is trimmed. -/
theorem trim_cons {c : Char} (blank : isWhitespace c = true) (text : List Char) :
    trim (c :: text) = trim text := by
  unfold trim trimStart
  rw [List.dropWhile_cons_of_pos blank]

/-- A word is found in its text. -/
theorem infix_of_mem_splitWhitespace {text word : List Char}
    (member : word ∈ splitWhitespace text) : word <:+: text := by
  have split : word ∈ text.splitOnP isWhitespace := List.mem_of_mem_filter member
  clear member
  induction size : text.length using Nat.strong_induction_on generalizing text with
  | _ size' ih =>
    have solid : ∀ c ∈ text.takeWhile fun c => !isWhitespace c, isWhitespace c = false := by
      intro c inside
      simpa using List.all_eq_true.mp List.all_takeWhile c inside
    have whole : text.takeWhile (fun c => !isWhitespace c) ++
        text.dropWhile (fun c => !isWhitespace c) = text := List.takeWhile_append_dropWhile
    cases left : text.dropWhile fun c => !isWhitespace c with
    | nil =>
      rw [left, List.append_nil] at whole
      rw [whole] at solid
      rw [List.splitOnP_eq_singleton solid, List.mem_singleton] at split
      exact split ▸ List.infix_rfl
    | cons c rest =>
      have blank := startsBlank_dropWhile text c rest left
      rw [left] at whole
      rw [← whole, List.splitOnP_append_cons_of_forall_mem solid c blank] at split
      rcases List.mem_cons.mp split with first | later
      · rw [first]
        exact ⟨[], c :: rest, whole⟩
      · have shorter : rest.length < size' := by
          rw [← size, ← whole, List.length_append, List.length_cons]
          omega
        have inside := ih rest.length shorter later rfl
        rw [← whole]
        exact inside.trans ((List.suffix_cons c rest).trans (List.suffix_append _ _)).isInfix

end Texo.Extract
