import Texo.Foundation.Utf8
import Texo.Git.Capture

/-! # What a snapshot id determines

The material of a snapshot id determines the commit, the tree, the limits and the digests; the
index digest determines the index, and the overlay digest the overlay where no captured path holds
a separator.
-/
namespace Texo.Git
open Texo.Events Texo.Knowledge Texo.Ops Texo.Foundation

/-- A separator that no leading part holds splits in one way. -/
theorem append_cons_inj_first {Item : Type} {separator : Item} {left left' right right' : List Item}
    (clear : separator ∉ left) (clear' : separator ∉ left')
    (same : left ++ separator :: right = left' ++ separator :: right') :
    left = left' ∧ right = right' := by
  have reversed := congrArg List.reverse same
  rw [List.reverse_append, List.reverse_append, List.reverse_cons, List.reverse_cons,
    List.append_assoc, List.append_assoc, List.singleton_append, List.singleton_append] at reversed
  have parts := append_cons_inj_last (by simpa using clear) (by simpa using clear') reversed
  exact ⟨List.reverse_injective parts.2, List.reverse_injective parts.1⟩

/-- The last field of a text behind a separator. -/
theorem split_last {front front' last last' : String} (clear : '\x1f' ∉ last.toList)
    (clear' : '\x1f' ∉ last'.toList) (same : front ++ "\x1f" ++ last = front' ++ "\x1f" ++ last') :
    front = front' ∧ last = last' := by
  have lists := congrArg String.toList same
  simp only [String.toList_append] at lists
  have separator : ("\x1f" : String).toList = ['\x1f'] := rfl
  rw [separator, List.append_assoc, List.append_assoc, List.singleton_append,
    List.singleton_append] at lists
  have parts := append_cons_inj_last clear clear' lists
  exact ⟨String.toList_inj.mp parts.1, String.toList_inj.mp parts.2⟩

/-- Lowercase hexadecimal digits are no separators. -/
theorem notMem_of_hex {text : String} (hex : ∀ c ∈ text.toList, lowerHexChar c = true) :
    '\x1f' ∉ text.toList := by
  intro member
  have digit := hex '\x1f' member
  exact absurd digit (by decide)

/-- Decimal digits are no separators. -/
theorem notMem_toString (value : Nat) : '\x1f' ∉ (toString value).toList := by
  show '\x1f' ∉ value.repr.toList
  rw [Nat.toList_repr]
  exact notMem_decimal (by decide) value

/-- Decimal texts of one spelling are of one number. -/
theorem toString_inj {value other : Nat} (same : toString value = toString other) :
    value = other := by
  have digits := congrArg String.toList same
  have lists : Nat.toDigits 10 value = Nat.toDigits 10 other := by
    rw [← Nat.toList_repr, ← Nat.toList_repr]
    exact digits
  have numbers := congrArg (fun digits => Nat.ofDigitChars 10 digits 0) lists
  simpa only [Nat.ofDigitChars_ten_toDigits] using numbers

/-- The material of a snapshot id of a repository determines its fields. -/
theorem snapshotMaterial_inj {repositoryId : RepositoryId} {baseCommit baseTree : GitObjectId}
    {otherCommit otherTree : GitObjectId} {index otherIndex overlay otherOverlay : String}
    {limits otherLimits : CaptureLimits}
    (treeHex : ∀ c ∈ baseTree.hex.toList, lowerHexChar c = true)
    (otherTreeHex : ∀ c ∈ otherTree.hex.toList, lowerHexChar c = true)
    (commitHex : ∀ c ∈ baseCommit.hex.toList, lowerHexChar c = true)
    (otherCommitHex : ∀ c ∈ otherCommit.hex.toList, lowerHexChar c = true)
    (indexHex : ∀ c ∈ index.toList, lowerHexChar c = true)
    (otherIndexHex : ∀ c ∈ otherIndex.toList, lowerHexChar c = true)
    (overlayHex : ∀ c ∈ overlay.toList, lowerHexChar c = true)
    (otherOverlayHex : ∀ c ∈ otherOverlay.toList, lowerHexChar c = true)
    (same : snapshotMaterial repositoryId baseCommit baseTree index overlay limits =
      snapshotMaterial repositoryId otherCommit otherTree otherIndex otherOverlay otherLimits) :
    baseCommit.hex = otherCommit.hex ∧ index = otherIndex ∧ overlay = otherOverlay ∧
      limits = otherLimits := by
  unfold snapshotMaterial at same
  have totals := split_last (notMem_toString _) (notMem_toString _) same
  have sizes := split_last (notMem_toString _) (notMem_toString _) totals.1
  have counts := split_last (notMem_toString _) (notMem_toString _) sizes.1
  have overlays := split_last (notMem_of_hex overlayHex) (notMem_of_hex otherOverlayHex) counts.1
  have indexes := split_last (notMem_of_hex indexHex) (notMem_of_hex otherIndexHex) overlays.1
  have trees := split_last (notMem_of_hex treeHex) (notMem_of_hex otherTreeHex) indexes.1
  have commits := split_last (notMem_of_hex commitHex) (notMem_of_hex otherCommitHex) trees.1
  refine ⟨commits.2, indexes.2, overlays.2, ?_⟩
  cases limits
  cases otherLimits
  have files := toString_inj counts.2
  have fileBytes := toString_inj sizes.2
  have totalBytes := toString_inj totals.2
  simp only at files fileBytes totalBytes
  rw [files, fileBytes, totalBytes]

/-- Big-endian bytes are as many as asked for. -/
theorem length_bigEndian (width value : Nat) : (bigEndian width value).length = width := by
  induction width generalizing value with
  | zero => rfl
  | succ width ih =>
    have shorter := ih (value / 256)
    simp [bigEndian, shorter]

/-- Big-endian bytes determine a number they have room for. -/
theorem bigEndian_inj {width value other : Nat} (fits : value < 256 ^ width)
    (otherFits : other < 256 ^ width) (same : bigEndian width value = bigEndian width other) :
    value = other := by
  induction width generalizing value other with
  | zero =>
    have none : value = 0 := by simpa using fits
    have otherNone : other = 0 := by simpa using otherFits
    omega
  | succ width ih =>
    have parts := List.append_inj' same rfl
    have bytes := List.singleton_inj.mp parts.2
    have low : value % 256 = other % 256 := by
      have numbers := congrArg UInt8.toNat bytes
      simpa using numbers
    have smaller : value / 256 < 256 ^ width := by
      rw [Nat.div_lt_iff_lt_mul (by decide)]
      rwa [Nat.pow_succ] at fits
    have otherSmaller : other / 256 < 256 ^ width := by
      rw [Nat.div_lt_iff_lt_mul (by decide)]
      rwa [Nat.pow_succ] at otherFits
    have high := ih smaller otherSmaller parts.1
    omega

/-- The material of an index entry with an id of known length, and what follows it. -/
theorem entry_material_inj {entry other : IndexEntry} (ids : entry.id.length = other.id.length)
    {rest otherRest : List UInt8}
    (same : entry.material ++ rest = other.material ++ otherRest) :
    entry = other ∧ rest = otherRest := by
  unfold IndexEntry.material at same
  simp only [List.append_assoc] at same
  have lengths := List.append_inj same (by rw [length_bigEndian, length_bigEndian])
  have sizes : entry.path.length = other.path.length := by
    have room : (256 : Nat) ^ 8 = 2 ^ 64 := by decide
    exact bigEndian_inj (room ▸ entry.short) (room ▸ other.short) lengths.1
  have paths := List.append_inj lengths.2 sizes
  have oids := List.append_inj paths.2 ids
  have modes := List.append_inj oids.2 (by rw [length_bigEndian, length_bigEndian])
  have stages := List.append_inj modes.2 (by rw [length_bigEndian, length_bigEndian])
  have room : (256 : Nat) ^ 4 = 2 ^ 32 := by decide
  have mode : entry.mode = other.mode :=
    BitVec.eq_of_toNat_eq (bigEndian_inj (room ▸ entry.mode.isLt) (room ▸ other.mode.isLt) modes.1)
  have stage : entry.stage = other.stage :=
    BitVec.eq_of_toNat_eq
      (bigEndian_inj (room ▸ entry.stage.isLt) (room ▸ other.stage.isLt) stages.1)
  refine ⟨?_, stages.2⟩
  cases entry
  cases other
  simp only at mode stage
  simp only [IndexEntry.mk.injEq]
  exact ⟨paths.1, oids.1, mode, stage⟩

/-- The material of an index determines its entries, for ids of one length. -/
theorem indexMaterial_inj {width : Nat} {index other : List IndexEntry}
    (ids : ∀ entry ∈ index, entry.id.length = width)
    (otherIds : ∀ entry ∈ other, entry.id.length = width)
    (same : indexMaterial index = indexMaterial other) : index = other := by
  have entries := List.append_cancel_left same
  clear same
  have filled : ∀ entry : IndexEntry, entry.material ≠ [] := by
    intro entry empty
    have size := congrArg List.length empty
    simp [IndexEntry.material, length_bigEndian] at size
  induction index generalizing other with
  | nil =>
    cases other with
    | nil => rfl
    | cons entry rest =>
      have nothing := (List.append_eq_nil_iff.mp entries.symm).1
      exact absurd nothing (filled entry)
  | cons entry rest ih =>
    cases other with
    | nil =>
      have nothing := (List.append_eq_nil_iff.mp entries).1
      exact absurd nothing (filled entry)
    | cons entry' rest' =>
      have sizes : entry.id.length = entry'.id.length := by
        rw [ids entry List.mem_cons_self, otherIds entry' List.mem_cons_self]
      have parts := entry_material_inj sizes entries
      have later := ih (fun entry member => ids entry (List.mem_cons_of_mem _ member))
        (fun entry member => otherIds entry (List.mem_cons_of_mem _ member)) parts.2
      rw [parts.1, later]

/-- Texts are their bytes. -/
theorem asBytes_inj {text other : String} (same : asBytes text = asBytes other) : text = other := by
  have chars := congrArg fromUtf8Lossy same
  have read : ∀ text : String, fromUtf8Lossy (asBytes text) = text.toList :=
    fun text => fromUtf8Lossy_encode text.toList
  rw [read, read] at chars
  exact String.toList_inj.mp chars

/-- A path without the separators of the overlay digest. -/
def PlainPath (path : String) : Prop := 0x1E ∉ asBytes path ∧ 0x1F ∉ asBytes path

instance (path : String) : Decidable (PlainPath path) := inferInstanceAs (Decidable (_ ∧ _))

/-- The labels of omitted overlay entries. -/
def overlayLabels : List String := ["conflict", "symlink", "source-too-large"]

section
variable [Blake3]

/-- An overlay entry as a capture writes it. -/
def OverlayDigestEntry.Written : OverlayDigestEntry → Prop
  | .bytes digest => ∃ content, digest = Blake3.hex content
  | .deleted => True
  | .omitted label => label ∈ overlayLabels

variable (hexDigits : ∀ bytes, ∀ c ∈ (Blake3.hex bytes).toList, lowerHexChar c = true)
include hexDigits

/-- The bytes of lowercase hexadecimal digits. -/
theorem byte_of_hex {byte : UInt8} {content : List UInt8}
    (member : byte ∈ asBytes (Blake3.hex content)) : byte ≠ 0x1F := by
  obtain ⟨c, inside, encoded⟩ := List.mem_flatMap.mp member
  have digit := hexDigits content c inside
  have small : c.toNat < 128 := by
    have size := utf8Size_lowerHexChar digit
    rw [Char.utf8Size_eq_one_iff] at size
    have bound : c.val.toNat ≤ 127 := size
    show c.val.toNat < 128
    omega
  have table : ∀ number < 128, lowerHexChar (Char.ofNat number) = true →
      0x1F ∉ String.utf8EncodeChar (Char.ofNat number) := by decide
  rw [← Char.ofNat_toNat c] at digit encoded
  intro separator
  rw [separator] at encoded
  exact table c.toNat small digit encoded

/-- The text of a written entry holds no entry separator. -/
theorem separator_notMem_text {entry : OverlayDigestEntry} (written : entry.Written) :
    0x1F ∉ asBytes entry.text := by
  cases entry with
  | bytes digest =>
    obtain ⟨content, rfl⟩ := written
    intro member
    exact byte_of_hex hexDigits member rfl
  | deleted => decide
  | omitted label =>
    have labels : ∀ label ∈ overlayLabels, 0x1F ∉ asBytes label := by decide
    exact labels label written

/-- A digest is not a word with another letter. -/
theorem hex_ne_word {content : List UInt8} {word : String}
    (letter : ∃ c ∈ word.toList, lowerHexChar c = false) : Blake3.hex content ≠ word := by
  intro same
  obtain ⟨c, inside, other⟩ := letter
  rw [← same] at inside
  have digit := hexDigits content c inside
  rw [digit] at other
  cases other

omit [Blake3] hexDigits in
/-- A word with some character that is no hexadecimal digit. -/
theorem exists_letter {word : String}
    (lettered : word.toList.any (fun c => !lowerHexChar c) = true) :
    ∃ c ∈ word.toList, lowerHexChar c = false := by
  obtain ⟨c, inside, other⟩ := List.any_eq_true.mp lettered
  exact ⟨c, inside, by simpa using other⟩

/-- Written entries of one text are one entry. -/
theorem text_inj {entry other : OverlayDigestEntry} (written : entry.Written)
    (otherWritten : other.Written) (same : entry.text = other.text) : entry = other := by
  have words : ∀ label ∈ overlayLabels, ∃ c ∈ label.toList, lowerHexChar c = false := by
    have lettered : ∀ label ∈ overlayLabels,
        label.toList.any (fun c => !lowerHexChar c) = true := by decide
    exact fun label member => exists_letter (lettered label member)
  have deletedWord : ∃ c ∈ ("deleted" : String).toList, lowerHexChar c = false :=
    exists_letter (by decide)
  have apart : ∀ label ∈ overlayLabels, label ≠ "deleted" := by decide
  cases entry with
  | bytes digest =>
    obtain ⟨content, rfl⟩ := written
    cases other with
    | bytes digest => exact congrArg _ same
    | deleted => exact absurd same (hex_ne_word hexDigits deletedWord)
    | omitted label => exact absurd same (hex_ne_word hexDigits (words label otherWritten))
  | deleted =>
    cases other with
    | bytes digest =>
      obtain ⟨content, rfl⟩ := otherWritten
      exact absurd same.symm (hex_ne_word hexDigits deletedWord)
    | deleted => rfl
    | omitted label => exact absurd same.symm (apart label otherWritten)
  | omitted label =>
    cases other with
    | bytes digest =>
      obtain ⟨content, rfl⟩ := otherWritten
      exact absurd same.symm (hex_ne_word hexDigits (words label written))
    | deleted => exact absurd same (apart label written)
    | omitted label => exact congrArg _ same

/-- The material of overlay entries at plain paths determines them. -/
theorem overlayEntries_inj {entries others : List (String × OverlayDigestEntry)}
    (plain : ∀ entry ∈ entries, PlainPath entry.1 ∧ entry.2.Written)
    (otherPlain : ∀ entry ∈ others, PlainPath entry.1 ∧ entry.2.Written)
    (same : entries.flatMap overlayEntryMaterial = others.flatMap overlayEntryMaterial) :
    entries = others := by
  have opened : ∀ (entry : String × OverlayDigestEntry) rest,
      (entry :: rest).flatMap overlayEntryMaterial = 0x1F :: (asBytes entry.1 ++
        0x1E :: (asBytes entry.2.text ++ rest.flatMap overlayEntryMaterial)) := by
    intro entry rest
    rw [List.flatMap_cons, overlayEntryMaterial]
    simp only [List.cons_append, List.append_assoc]
  -- What follows an entry is nothing or opens with the entry separator.
  have opens : ∀ rest : List (String × OverlayDigestEntry),
      rest.flatMap overlayEntryMaterial = [] ∨
        ∃ more, rest.flatMap overlayEntryMaterial = 0x1F :: more := by
    intro rest
    cases rest with
    | nil => exact Or.inl rfl
    | cons entry rest => exact Or.inr ⟨_, rfl⟩
  have cutText : ∀ {text other front back : List UInt8}, 0x1F ∉ text → 0x1F ∉ other →
      (front = [] ∨ ∃ more, front = 0x1F :: more) → (back = [] ∨ ∃ more, back = 0x1F :: more) →
      text ++ front = other ++ back → text = other ∧ front = back := by
    intro text other front back clear otherClear frontOpens backOpens joined
    rcases frontOpens with rfl | ⟨more, rfl⟩
    · rcases backOpens with rfl | ⟨more, rfl⟩
      · exact ⟨by simpa using joined, rfl⟩
      · rw [List.append_nil] at joined
        have inside : 0x1F ∈ text := by
          rw [joined]
          simp
        exact absurd inside clear
    · rcases backOpens with rfl | ⟨later, rfl⟩
      · rw [List.append_nil] at joined
        have inside : 0x1F ∈ other := by
          rw [← joined]
          simp
        exact absurd inside otherClear
      · have parts := append_cons_inj_first clear otherClear joined
        exact ⟨parts.1, by rw [parts.2]⟩
  induction entries generalizing others with
  | nil =>
    cases others with
    | nil => rfl
    | cons entry rest => cases same
  | cons entry rest ih =>
    cases others with
    | nil => cases same
    | cons other rest' =>
      obtain ⟨here, written⟩ := plain entry List.mem_cons_self
      obtain ⟨there, otherWritten⟩ := otherPlain other List.mem_cons_self
      have bytes : asBytes entry.1 ++ 0x1E :: (asBytes entry.2.text ++
          rest.flatMap overlayEntryMaterial) =
          asBytes other.1 ++ 0x1E :: (asBytes other.2.text ++
            rest'.flatMap overlayEntryMaterial) := by
        rw [opened, opened] at same
        exact (List.cons.inj same).2
      have parts := append_cons_inj_first here.1 there.1 bytes
      have texts := cutText (separator_notMem_text hexDigits written)
        (separator_notMem_text hexDigits otherWritten) (opens rest) (opens rest') parts.2
      have paths := asBytes_inj parts.1
      have values := text_inj hexDigits written otherWritten (asBytes_inj texts.1)
      have later := ih (fun entry member => plain entry (List.mem_cons_of_mem _ member))
        (fun entry member => otherPlain entry (List.mem_cons_of_mem _ member)) texts.2
      rw [later, Prod.ext paths values]

end

end Texo.Git
