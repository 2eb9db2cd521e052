import Mathlib.Data.List.Nodup
import Texo.Events.Ids
import Texo.Foundation.Utf8

/-! # Backup directory trees

What a backup directory holds: regular files, directories and symbolic links under names
that are any bytes a file system admits. The reads are bounded and never follow a link;
names are shown as text, ill-formed bytes replaced.
-/
namespace Texo.Backup

open Texo.Foundation

/-- A name a directory entry can have: not empty, no separator, no NUL, neither dot name. -/
def validEntryName (bytes : List UInt8) : Bool :=
  bytes ≠ [] && bytes ≠ [0x2E] && bytes ≠ [0x2E, 0x2E] && !bytes.contains 0x2F && !bytes.contains 0

/-- The name of a directory entry. -/
structure EntryName where
  bytes : List UInt8
  valid : validEntryName bytes = true
deriving DecidableEq

/-- The entry name of some bytes, if they can be one. -/
def EntryName.of? (bytes : List UInt8) : Option EntryName :=
  if valid : validEntryName bytes = true then some ⟨bytes, valid⟩ else none

/-- `OsStr::to_string_lossy`. -/
def EntryName.shown (name : EntryName) : String := String.ofList (fromUtf8Lossy name.bytes)

/-- The name is the bytes of some text. -/
def EntryName.IsUtf8 (name : EntryName) : Prop := ∃ chars, name.bytes = encodeChars chars

/-- What stands at a path. -/
inductive EntryKind where
  | file (content : List UInt8)
  | directory
  | symlink (target : List UInt8)
deriving DecidableEq, Repr

/-- A directory tree: what stands at each path below the root, every path below a directory
of the tree. -/
structure Tree where
  entries : List (List EntryName × EntryKind)
  distinct : (entries.map Prod.fst).Nodup
  rooted : ∀ entry ∈ entries, entry.1 ≠ [] ∧
    (entry.1.dropLast = [] ∨ (entry.1.dropLast, .directory) ∈ entries)

/-- `symlink_metadata`: what stands at a path. -/
def Tree.find? (tree : Tree) (path : List EntryName) : Option EntryKind :=
  (tree.entries.find? fun entry => entry.1 = path).map Prod.snd

/-- `read_dir`: the names in a directory, in the order they are listed. -/
def Tree.children (tree : Tree) (path : List EntryName) : List EntryName :=
  tree.entries.filterMap fun entry => if entry.1.dropLast = path then entry.1.getLast? else none

/-- `read_regular_bounded`. -/
def Tree.readRegularBounded (tree : Tree) (shown : String) (path : List EntryName) (limit : Nat) :
    Except String (List UInt8) :=
  match tree.find? path with
  | none => .error (shown ++ ": No such file or directory (os error 2)")
  | some (.file content) =>
    if limit < content.length then
      .error (shown ++ " exceeds the " ++ toString limit ++ "-byte limit")
    else .ok content
  | some _ => .error (shown ++ " is not a regular file")

/-- `hash_regular_bounded`: the digest and the length of a regular file. -/
def Tree.hashRegularBounded [Events.Blake3] (tree : Tree) (shown : String) (path : List EntryName)
    (limit : Nat) : Except String (String × Nat) :=
  match tree.find? path with
  | none => .error (shown ++ ": No such file or directory (os error 2)")
  | some (.file content) =>
    if limit < content.length then .error (shown ++ " is not a bounded regular file")
    else .ok (Events.Blake3.hex content, content.length)
  | some _ => .error (shown ++ " is not a bounded regular file")

/-- What is found is listed, once. -/
theorem Tree.find?_eq_some {tree : Tree} {path : List EntryName} {kind : EntryKind} :
    tree.find? path = some kind ↔ (path, kind) ∈ tree.entries := by
  constructor
  · intro found
    obtain ⟨entry, located, rfl⟩ := Option.map_eq_some_iff.mp found
    have named : entry.1 = path := by simpa using List.find?_some located
    rw [← named]
    exact List.mem_of_find?_eq_some located
  · intro member
    unfold find?
    cases located : tree.entries.find? fun entry => entry.1 = path with
    | none =>
      have absent := List.find?_eq_none.mp located (path, kind) member
      simp at absent
    | some entry =>
      have named : entry.1 = path := by simpa using List.find?_some located
      have inside := List.mem_of_find?_eq_some located
      have same : entry = (path, kind) :=
        List.inj_on_of_nodup_map tree.distinct inside member named
      rw [same, Option.map_some]

/-- Nothing is found at the root itself, which is no entry of its own. -/
theorem Tree.find?_root (tree : Tree) : tree.find? [] = none := by
  cases found : tree.find? [] with
  | none => rfl
  | some kind => exact absurd rfl (tree.rooted _ (Tree.find?_eq_some.mp found)).1

/-- A name is listed in a directory where something stands under it. -/
theorem Tree.mem_children {tree : Tree} {path : List EntryName} {name : EntryName} :
    name ∈ tree.children path ↔ ∃ kind, tree.find? (path ++ [name]) = some kind := by
  unfold children
  rw [List.mem_filterMap]
  constructor
  · intro ⟨entry, member, taken⟩
    by_cases here : entry.1.dropLast = path
    · rw [if_pos here] at taken
      have whole : path ++ [name] = entry.1 := by
        rw [← here]
        exact List.dropLast_append_getLast? name taken
      exact ⟨entry.2, by rw [whole]; exact Tree.find?_eq_some.mpr member⟩
    · rw [if_neg here] at taken
      cases taken
  · intro ⟨kind, found⟩
    exact ⟨(path ++ [name], kind), Tree.find?_eq_some.mp found, by simp⟩

/-- Whatever stands below a path stands below a directory. -/
theorem Tree.find?_below {tree : Tree} {path : List EntryName} {name : EntryName}
    {kind : EntryKind} (found : tree.find? (path ++ [name]) = some kind) (inner : path ≠ []) :
    tree.find? path = some .directory := by
  have above := (tree.rooted _ (Tree.find?_eq_some.mp found)).2
  rw [List.dropLast_concat] at above
  rcases above with top | directory
  · exact absurd top inner
  · exact Tree.find?_eq_some.mpr directory

/-- A bounded read returns the content of a regular file. -/
theorem Tree.readRegularBounded_ok {tree : Tree} {shown : String} {path : List EntryName}
    {limit : Nat} {content : List UInt8}
    (read : tree.readRegularBounded shown path limit = .ok content) :
    tree.find? path = some (.file content) := by
  unfold readRegularBounded at read
  cases found : tree.find? path with
  | none =>
    rw [found] at read
    cases read
  | some kind =>
    rw [found] at read
    cases kind with
    | file held =>
      by_cases exceeds : limit < held.length
      · simp [exceeds] at read
      · simp only [exceeds, if_false, Except.ok.injEq] at read
        rw [read]
    | directory => cases read
    | symlink target => cases read

/-- A bounded hash is of the content of a regular file. -/
theorem Tree.hashRegularBounded_ok [Events.Blake3] {tree : Tree} {shown : String}
    {path : List EntryName} {limit : Nat} {digest : String × Nat}
    (hashed : tree.hashRegularBounded shown path limit = .ok digest) :
    ∃ content, tree.find? path = some (.file content) ∧
      digest = (Events.Blake3.hex content, content.length) := by
  unfold hashRegularBounded at hashed
  cases found : tree.find? path with
  | none =>
    rw [found] at hashed
    cases hashed
  | some kind =>
    rw [found] at hashed
    cases kind with
    | file held =>
      by_cases exceeds : limit < held.length
      · simp [exceeds] at hashed
      · simp only [exceeds, if_false, Except.ok.injEq] at hashed
        exact ⟨held, rfl, hashed.symm⟩
    | directory => cases hashed
    | symlink target => cases hashed

/-- A name of well-formed text is shown as that text. -/
theorem EntryName.asBytes_shown {name : EntryName} (wellFormed : name.IsUtf8) :
    Events.asBytes name.shown = name.bytes := by
  obtain ⟨chars, encoded⟩ := wellFormed
  unfold Events.asBytes EntryName.shown
  rw [encoded, fromUtf8Lossy_encode, String.toList_ofList]
  rfl

/-- A name shown without a replacement character is the bytes of what is shown. -/
theorem EntryName.asBytes_shown_of_clean {name : EntryName}
    (clean : replacementChar ∉ name.shown.toList) : Events.asBytes name.shown = name.bytes := by
  unfold EntryName.shown at clean ⊢
  rw [String.toList_ofList] at clean
  unfold Events.asBytes
  rw [String.toList_ofList]
  exact encode_fromUtf8Lossy clean

end Texo.Backup
