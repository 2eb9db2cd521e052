import Mathlib.Data.List.Basic
import Mathlib.Data.String.Basic

/-! # Text, words and the replacement lexicon

The string operations that claim extraction rests on, computed on characters, and the
closed list of replacement wording. A needle is matched as a run of whole words, never as
a substring.
-/
namespace Texo.Extract

/-- `char::is_whitespace`: the Unicode `White_Space` property. -/
def isWhitespace (c : Char) : Bool :=
  (0x9 ≤ c.toNat && c.toNat ≤ 0xD) || c.toNat = 0x20 || c.toNat = 0x85 || c.toNat = 0xA0 ||
    c.toNat = 0x1680 || (0x2000 ≤ c.toNat && c.toNat ≤ 0x200A) || c.toNat = 0x2028 ||
    c.toNat = 0x2029 || c.toNat = 0x202F || c.toNat = 0x205F || c.toNat = 0x3000

/-- `str::trim_start`. -/
def trimStart (text : List Char) : List Char := text.dropWhile isWhitespace

/-- `str::trim_end_matches`. -/
def trimEndMatches (trimmed : Char → Bool) (text : List Char) : List Char :=
  (text.reverse.dropWhile trimmed).reverse

/-- `str::trim`. -/
def trim (text : List Char) : List Char := trimEndMatches isWhitespace (trimStart text)

/-- `str::trim_start_matches` of one character. -/
def trimStartChar (lead : Char) (text : List Char) : List Char := text.dropWhile (· = lead)

/-- `str::split_whitespace`. -/
def splitWhitespace (text : List Char) : List (List Char) :=
  (text.splitOnP isWhitespace).filter fun word => !word.isEmpty

/-- `str::to_ascii_lowercase`. -/
def toAsciiLowercase (text : List Char) : List Char := text.map Char.toLower

/-- `str::eq_ignore_ascii_case`. -/
def eqIgnoreAsciiCase (left right : List Char) : Bool :=
  toAsciiLowercase left = toAsciiLowercase right

/-- `str::find`, with the text after the first occurrence of a needle. -/
def findAfter (needle : List Char) : List Char → Option (List Char)
  | [] => if needle.isEmpty then some [] else none
  | c :: rest =>
    if needle.isPrefixOf (c :: rest) then
      some ((c :: rest).drop needle.length)
    else
      findAfter needle rest

/-- `str::contains`. -/
def containsText (text needle : List Char) : Bool := (findAfter needle text).isSome

/-- `words`: the runs of ASCII letters and digits. -/
def words (text : List Char) : List (List Char) :=
  (text.splitOnP fun c => !c.isAlphanum).filter fun word => !word.isEmpty

/-- `slice::windows`. -/
def windows {Item : Type} (size : Nat) (items : List Item) : List (List Item) :=
  (items.tails.map fun tail => tail.take size).filter fun window => window.length = size

/-- Whether a run of words is a wanted phrase. -/
def matchesPhrase (window wanted : List (List Char)) : Bool :=
  (window.zip wanted).all fun pair => eqIgnoreAsciiCase pair.1 pair.2

/-- `contains_word`. -/
def containsWord (text : List Char) (needle : String) : Bool :=
  let needle := trim needle.toList
  !needle.isEmpty && (words text).any fun word => eqIgnoreAsciiCase word needle

/-- `contains_phrase`: a consecutive run of whole words. -/
def containsPhrase (text : List Char) (phrase : String) : Bool :=
  match splitWhitespace phrase.toList with
  | [] => false
  | [needle] => containsWord text (String.ofList needle)
  | wanted => (windows wanted.length (words text)).any fun window => matchesPhrase window wanted

/-- `contains_any`. -/
def containsAny (text : List Char) (needles : List String) : Bool :=
  needles.any fun needle =>
    let wanted := splitWhitespace needle.toList
    !wanted.isEmpty &&
      (windows wanted.length (words text)).any fun window => matchesPhrase window wanted

/-- `REPLACEMENT_SIGNALS`: wording that marks a claim as replacing an earlier one. -/
def replacementSignals : List String :=
  ["moved", "changed", "now", "no longer", "replaced", "instead", "new process", "as of", "decided"]

/-- `contains_replacement_signal`. -/
def containsReplacementSignal (text : String) : Bool :=
  replacementSignals.any (containsPhrase text.toList)

/-- `normalize_line`: lowercased words joined by single spaces. -/
def normalizeLine (line : String) : String :=
  String.ofList ([' '].intercalate (splitWhitespace (toAsciiLowercase (trim line.toList))))

/-- A signal is a whole word, not a part of one. -/
example : containsReplacementSignal "the target now ships on tuesday" = true ∧
    containsReplacementSignal "this is a known issue" = false := by decide

end Texo.Extract
