import Texo.Extract.Heuristics
import Texo.Extract.WhiteSpace
import Texo.Foundation.Rewriting

/-! # Redacting provider messages

An error text of a model provider is shown with the API key, the tokens behind `Bearer` and the
secret keys in it replaced by a mark, and cut to a length.
-/
namespace Texo.Surfaces
open Texo.Extract Texo.Foundation

/-- `MAX_PROVIDER_MESSAGE`. -/
def maxProviderMessage : Nat := 200

/-- What a secret is replaced by. -/
def redactedMark : List Char := "[redacted]".toList

/-- `redact_prefixed_token`: the tokens that a lead begins, up to the next white space. -/
def redactPrefixedToken (lead : List Char) (shouldRedact : List Char → Bool) (value : List Char) :
    List Char :=
  rewritten lead (fun c => !isWhitespace c)
    (fun token => if shouldRedact token then redactedMark else token) value

/-- `redact_bearer`. -/
def redactBearer (value : List Char) : List Char :=
  redactPrefixedToken "Bearer ".toList (fun _ => true) value

/-- A character of a secret key. -/
def isKeyChar (c : Char) : Bool := c.isAlphanum || c = '_' || c = '-'

/-- The tokens `redact_sk_tokens` replaces. -/
def isSecretToken (token : List Char) : Bool :=
  11 ≤ byteLength token && (token.drop 3).all isKeyChar

/-- `redact_sk_tokens`. -/
def redactSkTokens (value : List Char) : List Char :=
  redactPrefixedToken "sk-".toList isSecretToken value

/-- The message with the API key replaced, `str::replace`. -/
def replaceKey (value apiKey : List Char) : List Char :=
  if apiKey.isEmpty then
    value
  else
    rewritten apiKey (fun _ => false) (fun _ => redactedMark) value

/-- `redact_and_cap`. -/
def redactAndCap (value apiKey : List Char) : List Char :=
  (redactSkTokens (redactBearer (replaceKey value apiKey))).take maxProviderMessage

/-- The text holds `sk-` with eight characters of a key behind it. -/
def HasKeyRun (text : List Char) : Prop :=
  ∃ run, run.length = 8 ∧ (∀ c ∈ run, isKeyChar c = true) ∧ "sk-".toList ++ run <:+: text

/-- A word that `redact_sk_tokens` reads as a key where it holds one: behind its first `sk-` it has
characters of a key alone. -/
def PlainWord (word : List Char) : Prop :=
  ∀ front back, splitOnce "sk-".toList word = some (front, back) →
    HasKeyRun ("sk-".toList ++ back) → ∀ c ∈ back, isKeyChar c = true

/-- A word without the punctuation around it. -/
def bareWord (word : List Char) : List Char :=
  trimEndMatches (fun c => !c.isAlphanum) (word.dropWhile fun c => !c.isAlphanum)

/-- The words that follow the word `Bearer`. -/
def bearerTokens (message : List Char) : List (List Char) :=
  let words := splitWhitespace message
  (words.zip words.tail).filterMap fun pair =>
    if bareWord pair.1 = "Bearer".toList then some pair.2 else none

/-- What a redacted message is meant to be. -/
structure Redacts (message apiKey : List Char) : Prop where
  short : (redactAndCap message apiKey).length ≤ maxProviderMessage
  keyless : ¬apiKey <:+: redactAndCap message apiKey
  runless : ¬HasKeyRun (redactAndCap message apiKey)
  tokenless : ∀ token ∈ bearerTokens message, ¬token <:+: redactAndCap message apiKey

/-- A message whose secrets all stand where they are looked for. With the API key replaced, a token
behind `Bearer` stands only in the stretches that go from `Bearer` and one space to the next white
space (unless it holds the API key, a bracket or is a part of the mark); with those stretches
replaced as well, every word is a plain one. -/
structure Redactable (message apiKey : List Char) : Prop where
  tokens : ∀ token ∈ bearerTokens message, apiKey <:+: token ∨
    '[' ∉ token ∧ ']' ∉ token ∧ ¬token <:+: "redacted".toList ∧
      ∀ part ∈ partsOutside "Bearer ".toList (fun c => !isWhitespace c) (replaceKey message apiKey),
        ¬token <:+: part
  words : ∀ word ∈ splitWhitespace (redactBearer (replaceKey message apiKey)), PlainWord word

/-- A character of a key is no white space and no bracket. -/
theorem isKeyChar_clear {c : Char} (key : isKeyChar c = true) :
    isWhitespace c = false ∧ c ≠ '[' ∧ c ≠ ']' ∧ c.utf8Size = 1 := by
  have range : 0x20 < c.toNat ∧ c.toNat < 0x80 ∧ c.toNat ≠ 0x5B ∧ c.toNat ≠ 0x5D := by
    have toNat : c.toNat = c.val.toNat := rfl
    delta isKeyChar Char.isAlphanum Char.isAlpha Char.isUpper Char.isLower Char.isDigit at key
    simp only [Bool.or_eq_true, Bool.and_eq_true, decide_eq_true_eq,
      UInt32.le_iff_toNat_le] at key
    have bounds : ('A'.val.toNat = 65 ∧ 'Z'.val.toNat = 90) ∧ ('a'.val.toNat = 97 ∧
        'z'.val.toNat = 122) ∧ '0'.val.toNat = 48 ∧ '9'.val.toNat = 57 := by decide
    rcases key with ((letter | digit) | line) | dash
    · omega
    · omega
    · rw [line]
      decide
    · rw [dash]
      decide
  have size : c.utf8Size = 1 := by
    rw [Char.utf8Size_eq_one_iff, UInt32.le_iff_toNat_le]
    have limit : (127 : UInt32).toNat = 127 := rfl
    have toNat : c.toNat = c.val.toNat := rfl
    omega
  refine ⟨isWhitespace_visible range.1 range.2.1, ?_, ?_, size⟩
  · intro same
    exact range.2.2.1 (by rw [same]; rfl)
  · intro same
    exact range.2.2.2 (by rw [same]; rfl)

/-- The mark in its brackets. -/
theorem redactedMark_eq : redactedMark = '[' :: ("redacted".toList ++ [']']) := by decide

/-- The lead of a key is made of characters of a key. -/
theorem skLead_key : ∀ c ∈ "sk-".toList, isKeyChar c = true := by
  intro c member
  have chars : "sk-".toList = ['s', 'k', '-'] := by decide
  rw [chars] at member
  simp only [List.mem_cons, List.not_mem_nil, or_false] at member
  rcases member with rfl | rfl | rfl <;> decide

/-- A text of characters of a key has no white space, no brackets and as many bytes as
characters. -/
theorem keyText_clear {text : List Char} (key : ∀ c ∈ text, isKeyChar c = true) :
    (∀ c ∈ text, isWhitespace c = false) ∧ '[' ∉ text ∧ ']' ∉ text ∧
      byteLength text = text.length := by
  refine ⟨fun c member => (isKeyChar_clear (key c member)).1, ?_, ?_, ?_⟩
  · intro member
    exact (isKeyChar_clear (key _ member)).2.1 rfl
  · intro member
    exact (isKeyChar_clear (key _ member)).2.2.1 rfl
  · induction text with
    | nil => rfl
    | cons c rest ih =>
      have one := (isKeyChar_clear (key c (by simp))).2.2.2
      have later := ih fun other member => key other (List.mem_cons_of_mem c member)
      unfold byteLength at later ⊢
      rw [List.map_cons, List.sum_cons, one, later, List.length_cons]
      omega

/-- The lead and characters of a key behind it are characters of a key. -/
theorem keyRun_key {run : List Char} (key : ∀ c ∈ run, isKeyChar c = true) :
    ∀ c ∈ "sk-".toList ++ run, isKeyChar c = true := by
  intro c member
  rcases List.mem_append.mp member with lead | behind
  · exact skLead_key c lead
  · exact key c behind

/-- No key is found in the mark. -/
theorem keyRun_notIn_mark (run : List Char) : ¬"sk-".toList ++ run <:+: "redacted".toList := by
  intro inside
  have found : 's' ∈ "redacted".toList := inside.subset (List.mem_append_left run (by decide))
  exact absurd found (by decide)

/-- What is found in a text is found where more text is around it. -/
theorem HasKeyRun.mono {text more : List Char} (inside : text <:+: more) (run : HasKeyRun text) :
    HasKeyRun more := by
  obtain ⟨key, size, chars, found⟩ := run
  exact ⟨key, size, chars, found.trans inside⟩

/-- A key is found on one side of white space. -/
theorem hasKeyRun_append {front back : List Char} (blank : StartsBlank back) :
    HasKeyRun (front ++ back) ↔ HasKeyRun front ∨ HasKeyRun back := by
  constructor
  · rintro ⟨run, size, key, found⟩
    cases back with
    | nil =>
      rw [List.append_nil] at found
      exact Or.inl ⟨run, size, key, found⟩
    | cons c rest =>
      have clear : c ∉ "sk-".toList ++ run := by
        intro member
        have solid := (keyText_clear (keyRun_key key)).1 c member
        rw [blank c rest rfl] at solid
        cases solid
      rcases infix_around clear found with before | behind
      · exact Or.inl ⟨run, size, key, before⟩
      · exact Or.inr ⟨run, size, key, behind.trans (List.suffix_cons c rest).isInfix⟩
  · rintro (before | behind)
    · exact before.mono (List.prefix_append _ _).isInfix
    · exact behind.mono (List.suffix_append _ _).isInfix

/-- A rewriting of tokens keeps the white space a text begins with. -/
theorem Rewrites.startsBlank {put : List Char → List Char} {text out : List Char}
    (rewrites : Rewrites "sk-".toList (fun c => !isWhitespace c) put text out)
    (blank : StartsBlank text) : StartsBlank out := by
  cases rewrites with
  | done _ => exact blank
  | @hit _ front rest out cut later =>
    have whole := splitOnce_eq cut
    cases front with
    | nil =>
      have white : isWhitespace 's' = true := by
        apply blank 's' ("k-".toList ++ rest)
        rw [whole]
        rfl
      exact absurd white (by decide)
    | cons c front =>
      intro first others starts
      rw [List.cons_append] at starts whole
      rw [← (List.cons.inj starts).1]
      exact blank c _ whole

/-- A lead that is found in front of a word's own lead would have been found earlier. -/
theorem hasKeyRun_behind {text front rest token back : List Char}
    (cut : splitOnce "sk-".toList text = some (front, rest))
    (whole : text = front ++ (token ++ back)) :
    HasKeyRun (front ++ token) ↔ HasKeyRun token := by
  constructor
  · rintro ⟨run, size, key, early, late, found⟩
    have bound : front.length ≤ early.length := by
      apply splitOnce_first cut
      rw [whole, ← List.append_assoc, ← found]
      simp only [List.append_assoc]
      rfl
    have lead : front <+: early := by
      apply List.prefix_of_prefix_length_le (List.prefix_append front token) _ bound
      rw [← found, List.append_assoc]
      exact List.prefix_append _ _
    obtain ⟨between, split⟩ := lead
    rw [← split, List.append_assoc, List.append_assoc] at found
    refine ⟨run, size, key, between, late, ?_⟩
    rw [List.append_assoc]
    exact List.append_cancel_left found
  · exact HasKeyRun.mono (List.suffix_append _ _).isInfix

/-- The word a hit stands in, and the words around it. -/
theorem splitWhitespace_hit {text front rest : List Char}
    (cut : splitOnce "sk-".toList text = some (front, rest)) :
    ∃ words last, splitWhitespace text = words ++
        (last ++ ("sk-".toList ++ rest.takeWhile fun c => !isWhitespace c)) ::
          splitWhitespace (rest.dropWhile fun c => !isWhitespace c) ∧
      (∀ word ∈ words, PlainWord word) ∧
        splitOnce "sk-".toList (last ++ ("sk-".toList ++ rest.takeWhile fun c => !isWhitespace c)) =
          some (last, rest.takeWhile fun c => !isWhitespace c) := by
  obtain ⟨before, last, split, solid, words⟩ := lastRun_split front
  have whole := splitOnce_eq cut
  have parts : rest.takeWhile (fun c => !isWhitespace c) ++
      rest.dropWhile (fun c => !isWhitespace c) = rest := List.takeWhile_append_dropWhile
  have spelled : text = before ++ ((last ++ ("sk-".toList ++
      rest.takeWhile fun c => !isWhitespace c)) ++ rest.dropWhile fun c => !isWhitespace c) := by
    rw [whole, split]
    conv => lhs; rw [← parts]
    simp only [List.append_assoc]
  refine ⟨splitWhitespace before, last, ?_, ?_, ?_⟩
  · have run : ∀ c ∈ last ++ ("sk-".toList ++ rest.takeWhile fun c => !isWhitespace c),
        isWhitespace c = false := by
      intro c member
      rcases List.mem_append.mp member with early | late
      · exact solid c early
      · rcases List.mem_append.mp late with lead | behind
        · exact (isKeyChar_clear (skLead_key c lead)).1
        · simpa using List.all_eq_true.mp List.all_takeWhile c behind
    have nonempty : last ++ ("sk-".toList ++ rest.takeWhile fun c => !isWhitespace c) ≠ [] := by
      intro empty
      have none := (List.append_eq_nil_iff.mp (List.append_eq_nil_iff.mp empty).2).1
      exact absurd none (by decide)
    rw [spelled, words, splitWhitespace_append _ (startsBlank_dropWhile rest),
      splitWhitespace_solid nonempty run, List.singleton_append]
  · intro word member inner outer found
    have inside := infix_of_mem_splitWhitespace member
    have lead : "sk-".toList <:+: word :=
      ⟨inner, outer, by rw [List.append_assoc]; exact (splitOnce_eq found).symm⟩
    obtain ⟨early, late, place⟩ := lead.trans inside
    have bound : front.length ≤ early.length := by
      apply splitOnce_first cut
      rw [spelled, ← place]
      simp only [List.append_assoc]
      rfl
    have size := congrArg List.length place
    have three : "sk-".toList.length = 3 := by decide
    rw [List.length_append, List.length_append, three] at size
    rw [split, List.length_append] at bound
    omega
  · apply splitOnce_append (by decide)
    intro early late found
    have bound : front.length ≤ (before ++ early).length := by
      apply splitOnce_first cut
      rw [spelled, found]
      simp only [List.append_assoc]
      rfl
    rw [split, List.length_append, List.length_append] at bound
    omega

/-- The key a word holds begins at its first lead. -/
theorem plainWord_iff {word last back : List Char}
    (cut : splitOnce "sk-".toList word = some (last, back)) :
    PlainWord word ↔ (HasKeyRun ("sk-".toList ++ back) → ∀ c ∈ back, isKeyChar c = true) := by
  constructor
  · intro plain
    exact plain last back cut
  · intro all front back' cut'
    have same : back = back' := congrArg Prod.snd (Option.some.inj (cut.symm.trans cut'))
    rw [← same]
    exact all

/-- Redacting keys leaves one exactly where a word holds one and is not a plain word. -/
theorem Rewrites.hasKeyRun_iff {text out : List Char}
    (rewrites : Rewrites "sk-".toList (fun c => !isWhitespace c)
      (fun token => if isSecretToken token then redactedMark else token) text out) :
    HasKeyRun out ↔ ∃ word ∈ splitWhitespace text, ¬PlainWord word := by
  induction rewrites with
  | @done text absent =>
    apply iff_of_false
    · rintro ⟨run, _, _, found⟩
      exact absent ((List.prefix_append _ _).isInfix.trans found)
    · rintro ⟨word, member, notPlain⟩
      apply notPlain
      intro front back cut
      have lead : "sk-".toList <:+: word :=
        ⟨front, back, by rw [List.append_assoc]; exact (splitOnce_eq cut).symm⟩
      exact absurd (lead.trans (infix_of_mem_splitWhitespace member)) absent
  | @hit text front rest out cut later ih =>
    obtain ⟨words, last, split, plain, first⟩ := splitWhitespace_hit cut
    have blank := Rewrites.startsBlank later (startsBlank_dropWhile rest)
    have members : (∃ word ∈ splitWhitespace text, ¬PlainWord word) ↔
        ¬PlainWord (last ++ ("sk-".toList ++ rest.takeWhile fun c => !isWhitespace c)) ∨
          HasKeyRun out := by
      rw [split, ih]
      constructor
      · rintro ⟨word, member, notPlain⟩
        rcases List.mem_append.mp member with early | late
        · exact absurd (plain word early) notPlain
        · rcases List.mem_cons.mp late with same | behind
          · exact Or.inl (same ▸ notPlain)
          · exact Or.inr ⟨word, behind, notPlain⟩
      · rintro (notPlain | ⟨word, member, notPlain⟩)
        · exact ⟨_, List.mem_append_right _ (List.mem_cons_self ..), notPlain⟩
        · exact ⟨word, List.mem_append_right _ (List.mem_cons_of_mem _ member), notPlain⟩
    rw [members, ← List.append_assoc, hasKeyRun_append blank]
    apply or_congr_left
    rw [plainWord_iff first]
    have whole : text = front ++ (("sk-".toList ++ rest.takeWhile fun c => !isWhitespace c) ++
        rest.dropWhile fun c => !isWhitespace c) := by
      have parts : rest.takeWhile (fun c => !isWhitespace c) ++
          rest.dropWhile (fun c => !isWhitespace c) = rest := List.takeWhile_append_dropWhile
      rw [splitOnce_eq cut]
      conv => lhs; rw [← parts]
      simp only [List.append_assoc]
    generalize rest.takeWhile (fun c => !isWhitespace c) = token at whole
    by_cases secret : isSecretToken ("sk-".toList ++ token) = true
    · -- The token is replaced, and no key is found in front of it.
      rw [if_pos secret]
      have chars : ∀ c ∈ token, isKeyChar c = true := by
        simp only [isSecretToken, Bool.and_eq_true, List.all_eq_true] at secret
        exact secret.2
      apply iff_of_false
      · rintro ⟨run, _, key, found⟩
        obtain ⟨_, left, right, _⟩ := keyText_clear (keyRun_key key)
        have padded : "sk-".toList ++ run <:+:
            front ++ ('[' :: ("redacted".toList ++ [']']) ++ []) := by
          rw [List.append_nil, ← redactedMark_eq]
          exact found
        rcases infix_marker left right padded with early | within | none
        · have lead : "sk-".toList <:+: front := (List.prefix_append _ run).isInfix.trans early
          exact splitOnce_front (by decide) cut lead
        · exact keyRun_notIn_mark run within
        · have empty := (List.append_eq_nil_iff.mp (List.eq_nil_of_infix_nil none)).1
          exact absurd empty (by decide)
      · exact fun notPlain => notPlain fun _ => chars
    · rw [if_neg secret, hasKeyRun_behind cut whole]
      constructor
      · intro run all
        have chars := all run
        obtain ⟨key, size, _, found⟩ := run
        have long := found.length_le
        have three : "sk-".toList.length = 3 := by decide
        have bytes := (keyText_clear (keyRun_key chars)).2.2.2
        rw [List.length_append, List.length_append, three, size] at long
        rw [List.length_append, three] at bytes
        apply secret
        simp only [isSecretToken, Bool.and_eq_true, decide_eq_true_eq, List.all_eq_true]
        exact ⟨by omega, chars⟩
      · intro notPlain
        by_contra none
        exact notPlain fun run => absurd run none

/-- Redacting keys leaves one exactly where a word is not a plain one. -/
theorem redactSkTokens_hasKeyRun (value : List Char) :
    HasKeyRun (redactSkTokens value) ↔ ∃ word ∈ splitWhitespace value, ¬PlainWord word :=
  Rewrites.hasKeyRun_iff (rewrites_rewritten (by decide) _ _ value)

/-- What redacting keys leaves was there before. -/
theorem infix_of_redactSkTokens {needle value : List Char} (left : '[' ∉ needle)
    (right : ']' ∉ needle) (outside : ¬needle <:+: "redacted".toList)
    (found : needle <:+: redactSkTokens value) : needle <:+: value := by
  have rewrites := rewrites_rewritten (show "sk-".toList ≠ [] by decide) (fun c => !isWhitespace c)
    (fun token => if isSecretToken token then redactedMark else token) value
  have puts : ∀ hit, (if isSecretToken hit then redactedMark else hit) = hit ∨
      (if isSecretToken hit then redactedMark else hit) = '[' :: ("redacted".toList ++ [']']) := by
    intro hit
    split
    · exact Or.inr redactedMark_eq
    · exact Or.inl rfl
  exact Rewrites.infix_of_infix left right outside puts rewrites [] found

/-- Redacting what is behind `Bearer` leaves the parts outside. -/
theorem redactBearer_eq (value : List Char) :
    redactBearer value = ('[' :: ("redacted".toList ++ [']'])).intercalate
      (partsOutside "Bearer ".toList (fun c => !isWhitespace c) value) := by
  rw [← redactedMark_eq]
  exact rewriteHits_const _ _ _ _ value

/-- What redacting `Bearer` leaves was there before. -/
theorem infix_of_redactBearer {needle value : List Char} (left : '[' ∉ needle)
    (right : ']' ∉ needle) (outside : ¬needle <:+: "redacted".toList)
    (found : needle <:+: redactBearer value) : needle <:+: value := by
  have rewrites := rewrites_rewritten (show "Bearer ".toList ≠ [] by decide)
    (fun c => !isWhitespace c) (fun _ => redactedMark) value
  exact Rewrites.infix_of_infix left right outside (fun _ => Or.inr redactedMark_eq) rewrites []
    found

/-- What a redacted message shows was in the message with the `Bearer` stretches redacted. -/
theorem infix_of_redactAndCap {needle message apiKey : List Char} (left : '[' ∉ needle)
    (right : ']' ∉ needle) (outside : ¬needle <:+: "redacted".toList)
    (found : needle <:+: redactAndCap message apiKey) :
    needle <:+: redactBearer (replaceKey message apiKey) :=
  infix_of_redactSkTokens left right outside (found.trans (List.take_prefix _ _).isInfix)

/-- The API key is not left where it was replaced. -/
theorem replaceKey_gone {message apiKey : List Char} (nonempty : apiKey ≠ [])
    (left : '[' ∉ apiKey) (right : ']' ∉ apiKey) (outside : ¬apiKey <:+: "redacted".toList) :
    ¬apiKey <:+: replaceKey message apiKey := by
  have filled : ¬apiKey.isEmpty = true := fun empty => nonempty (List.isEmpty_iff.mp empty)
  unfold replaceKey
  rw [if_neg filled]
  exact Rewrites.lead_gone left right nonempty outside (fun _ => redactedMark_eq)
    (rewrites_rewritten nonempty _ _ message)

/-- A check that a word is a plain one. -/
theorem plainWord_of_check {word : List Char}
    (checked : ((splitOnce "sk-".toList word).all fun parts => parts.2.all isKeyChar) = true) :
    PlainWord word := by
  intro front back cut _
  rw [cut, Option.all_some] at checked
  exact List.all_eq_true.mp checked

end Texo.Surfaces
