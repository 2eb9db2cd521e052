import Texo.Backup.Files
import Texo.Backup.Verify
import Texo.Foundation.Effects

/-! # Calls on a file system

A file system is changed call by call. Any call may fail: a failed write leaves some of its bytes,
every other failed call leaves the file system as it was. What a call may change is told path by
path, by what stood there before and what stands there after.
-/
namespace Texo.Backup

open Texo.Foundation

/-- `TexoError`, as far as a backup raises it. -/
inductive BackupError where
  | io (detail : String)
  | store (detail : String)
  | backup (detail : String)
  | refused (error : TexoError)
deriving DecidableEq, Repr

/-- A call that fails: its error, and how many bytes of what it writes get through before. -/
structure Fault where
  error : String
  written : Nat

/-- Which calls fail, by their number. -/
abbrev Faults := Nat → Option Fault

/-- A file system, and how many calls were made on it. -/
structure Disk where
  tree : Tree
  calls : Nat

/-- What is done on a file system. -/
abbrev DiskEffect := Effect Disk BackupError

/-- One call, and what it leaves where it fails. -/
def call {Value : Type} (faults : Faults) (perform : Tree → Except BackupError (Value × Tree))
    (broken : Nat → Tree → Tree) : DiskEffect Value :=
  .of fun disk =>
    match faults disk.calls with
    | some fault => (.error (.io fault.error), ⟨broken fault.written disk.tree, disk.calls + 1⟩)
    | none =>
      match perform disk.tree with
      | .ok (value, tree) => (.ok value, ⟨tree, disk.calls + 1⟩)
      | .error error => (.error error, ⟨disk.tree, disk.calls + 1⟩)

/-- A call that changes nothing. -/
def look {Value : Type} (faults : Faults) (read : Tree → Except BackupError Value) :
    DiskEffect Value :=
  call faults (fun tree => (read tree).map fun value => (value, tree)) fun _ tree => tree

/-- What is computed without a call. -/
def give {Value : Type} (result : Except BackupError Value) : DiskEffect Value :=
  .reads fun _ => result

/-- `Path::display`. -/
def shownPath (path : List EntryName) : String :=
  String.join (path.map fun name => "/" ++ name.shown)

/-- `symlink_metadata`, of a root that is no entry of its own. -/
def Tree.metadata (tree : Tree) (path : List EntryName) : Option EntryKind :=
  if path = [] then some .directory else tree.find? path

/-- Why nothing can be put at a path. -/
def Tree.refusal (tree : Tree) (path : List EntryName) : BackupError :=
  match tree.metadata path.dropLast with
  | none => .io "No such file or directory (os error 2)"
  | some _ => .io "Not a directory (os error 20)"

/-- Something put at a path where nothing stands. -/
def Tree.placeNew (tree : Tree) (path : List EntryName) (kind : EntryKind) :
    Except BackupError (Unit × Tree) :=
  if (tree.metadata path).isSome then .error (.io "File exists (os error 17)")
  else if tree.Placeable path then .ok ((), tree.place path kind)
  else .error (tree.refusal path)

/-- `symlink_metadata`. -/
def symlinkMetadata (faults : Faults) (path : List EntryName) : DiskEffect (Option EntryKind) :=
  look faults fun tree => .ok (tree.metadata path)

/-- `create_dir`. -/
def createDir (faults : Faults) (path : List EntryName) : DiskEffect Unit :=
  call faults (fun tree => tree.placeNew path .directory) fun _ tree => tree

/-- One directory of `create_dir_all`, which may be there already. -/
def ensureDir (faults : Faults) (path : List EntryName) : DiskEffect Unit :=
  call faults
    (fun tree =>
      if tree.metadata path = some .directory then .ok ((), tree)
      else tree.placeNew path .directory)
    fun _ tree => tree

/-- `create_dir_all`, from a directory downwards. -/
def createDirAll (faults : Faults) : List EntryName → List EntryName → DiskEffect Unit
  | _, [] => pure ()
  | base, name :: rest => do
    ensureDir faults (base ++ [name])
    createDirAll faults (base ++ [name]) rest

/-- `write_new_synced`: the file is opened, written and synced. -/
def writeNewSynced (faults : Faults) (path : List EntryName) (bytes : List UInt8) :
    DiskEffect Unit := do
  call faults (fun tree => tree.placeNew path (.file [])) fun _ tree => tree
  call faults (fun tree => .ok ((), tree.place path (.file bytes)))
    fun written tree => tree.place path (.file (bytes.take written))
  look faults fun _ => .ok ()

/-- `sync_directory`. -/
def syncDirectory (faults : Faults) (path : List EntryName) : DiskEffect Unit :=
  look faults fun tree =>
    if (tree.metadata path).isSome then .ok ()
    else .error (.io "No such file or directory (os error 2)")

/-- `remove_dir_all`, whose own errors are ignored. -/
def Disk.removeAll (path : List EntryName) (disk : Disk) : Disk :=
  { disk with tree := disk.tree.removeAll path }

/-- What may become of each path: what stood there before, and what stands there after. -/
structure Allowed where
  allows : List EntryName → Option EntryKind → Option EntryKind → Prop
  refl : ∀ path kind, allows path kind kind
  trans : ∀ path first second third, allows path first second → allows path second third →
    allows path first third

/-- Every path became what it may become. -/
def Allowed.Holds (allowed : Allowed) (before after : Disk) : Prop :=
  ∀ path, allowed.allows path (before.tree.find? path) (after.tree.find? path)

/-- Only some paths may change. -/
def within (inside : List EntryName → Prop) : Allowed where
  allows path before after := inside path ∨ after = before
  refl _ _ := Or.inr rfl
  trans _ _ _ _ := by
    rintro (here | same) (there | again)
    · exact Or.inl here
    · exact Or.inl here
    · exact Or.inl there
    · exact Or.inr (again.trans same)

/-- A destination may change, and directories may appear above it. -/
def around (dest : List EntryName) : Allowed where
  allows path before after := dest <+: path ∨ after = before ∨
    path <+: dest ∧ before = none ∧ after = some .directory
  refl _ _ := Or.inr (Or.inl rfl)
  trans _ _ _ _ := by
    rintro (here | same | ⟨above, absent, made⟩) (there | again | ⟨higher, missing, later⟩)
    · exact Or.inl here
    · exact Or.inl here
    · exact Or.inl here
    · exact Or.inl there
    · exact Or.inr (Or.inl (again.trans same))
    · exact Or.inr (Or.inr ⟨higher, same.symm.trans missing, later⟩)
    · exact Or.inl there
    · exact Or.inr (Or.inr ⟨above, absent, again.trans made⟩)
    · rw [made] at missing
      cases missing

section Laws

variable {Value : Type} {faults : Faults} {allowed : Allowed} {disk last : Disk}

/-- What changes nothing is allowed. -/
theorem Allowed.stays (disk : Disk) : allowed.Holds disk disk := fun _ => allowed.refl _ _

/-- Two changes that are allowed are allowed together. -/
theorem Allowed.joins (first second third : Disk) (head : allowed.Holds first second)
    (tail : allowed.Holds second third) : allowed.Holds first third :=
  fun path => allowed.trans path _ _ _ (head path) (tail path)

/-- Where only some paths may change, the others have not. -/
theorem kept_of_within {inside : List EntryName → Prop} (holds : (within inside).Holds disk last)
    {path : List EntryName} (outside : ¬ inside path) :
    last.tree.find? path = disk.tree.find? path := (holds path).resolve_left outside

/-- A call succeeds where it does not fail and what it performs succeeds. -/
theorem call_ok {perform : Tree → Except BackupError (Value × Tree)} {broken : Nat → Tree → Tree}
    {value : Value} (done : (call faults perform broken).outcome disk = (.ok value, last)) :
    ∃ tree, perform disk.tree = .ok (value, tree) ∧ last = ⟨tree, disk.calls + 1⟩ := by
  unfold call at done
  rw [Effect.outcome_of] at done
  cases fails : faults disk.calls with
  | some fault =>
    rw [fails] at done
    cases done
  | none =>
    rw [fails] at done
    dsimp only at done
    cases made : perform disk.tree with
    | error error =>
      rw [made] at done
      cases done
    | ok pair =>
      rw [made] at done
      cases done
      exact ⟨pair.2, rfl, rfl⟩

/-- A call that fails leaves what it has broken, or what stood. -/
theorem call_error {perform : Tree → Except BackupError (Value × Tree)}
    {broken : Nat → Tree → Tree} {error : BackupError}
    (failed : (call faults perform broken).outcome disk = (.error error, last)) :
    (∃ written, last.tree = broken written disk.tree) ∨ last.tree = disk.tree := by
  unfold call at failed
  rw [Effect.outcome_of] at failed
  cases fails : faults disk.calls with
  | some fault =>
    rw [fails] at failed
    cases failed
    exact Or.inl ⟨fault.written, rfl⟩
  | none =>
    rw [fails] at failed
    dsimp only at failed
    cases made : perform disk.tree with
    | error other =>
      rw [made] at failed
      cases failed
      exact Or.inr rfl
    | ok pair =>
      rw [made] at failed
      cases failed

/-- A call does what is allowed if what it performs does, and what it leaves broken. -/
theorem call_keeps {perform : Tree → Except BackupError (Value × Tree)}
    {broken : Nat → Tree → Tree}
    (performs : ∀ tree value after, perform tree = .ok (value, after) →
      ∀ path, allowed.allows path (tree.find? path) (after.find? path))
    (breaks : ∀ written tree path,
      allowed.allows path (tree.find? path) ((broken written tree).find? path)) :
    (call faults perform broken).Keeps allowed.Holds := by
  intro disk path
  cases done : (call faults perform broken).outcome disk with
  | mk result last =>
    cases result with
    | ok value =>
      obtain ⟨tree, made, rfl⟩ := call_ok done
      exact performs _ _ _ made path
    | error error =>
      rcases call_error done with ⟨written, same⟩ | same
      · rw [same]
        exact breaks written disk.tree path
      · rw [same]
        exact allowed.refl _ _

/-- A look succeeds with what is read. -/
theorem look_ok {read : Tree → Except BackupError Value} {value : Value}
    (done : (look faults read).outcome disk = (.ok value, last)) :
    read disk.tree = .ok value ∧ last = ⟨disk.tree, disk.calls + 1⟩ := by
  obtain ⟨tree, made, same⟩ := call_ok done
  cases held : read disk.tree with
  | error error =>
    rw [held] at made
    cases made
  | ok found =>
    rw [held] at made
    cases made
    exact ⟨rfl, same⟩

/-- A call that leaves nothing broken leaves what stood where it fails. -/
theorem call_unbroken {perform : Tree → Except BackupError (Value × Tree)} {error : BackupError}
    (failed : (call faults perform fun _ tree => tree).outcome disk = (.error error, last)) :
    last.tree = disk.tree := by
  rcases call_error failed with ⟨_, same⟩ | same
  · exact same
  · exact same

/-- A look leaves what stood. -/
theorem look_tree {read : Tree → Except BackupError Value} {result : Except BackupError Value}
    (done : (look faults read).outcome disk = (result, last)) : last.tree = disk.tree := by
  cases result with
  | ok value =>
    obtain ⟨_, rfl⟩ := look_ok done
    rfl
  | error error => exact call_unbroken done

/-- A look changes nothing. -/
theorem look_keeps (read : Tree → Except BackupError Value) :
    (look faults read).Keeps allowed.Holds := by
  intro disk path
  cases done : (look faults read).outcome disk with
  | mk result last =>
    rw [look_tree done]
    exact allowed.refl _ _

/-- What is given changes nothing. -/
theorem give_keeps (result : Except BackupError Value) : (give result).Keeps allowed.Holds :=
  Effect.Keeps.reads Allowed.stays _

/-- What is given succeeds as it is. -/
theorem give_ok {result : Except BackupError Value} {value : Value}
    (done : (give result).outcome disk = (.ok value, last)) : result = .ok value ∧ disk = last :=
  ⟨congrArg Prod.fst done, congrArg Prod.snd done⟩

/-- What is given leaves what stood. -/
theorem give_tree {result ended : Except BackupError Value}
    (done : (give result).outcome disk = (ended, last)) : last = disk :=
  (congrArg Prod.snd done).symm

/-- Something new is put where nothing stood. -/
theorem Tree.placeNew_ok {tree after : Tree} {path : List EntryName} {kind : EntryKind}
    {value : Unit} (done : tree.placeNew path kind = .ok (value, after)) :
    tree.find? path = none ∧ tree.Placeable path ∧ after = tree.place path kind := by
  unfold placeNew at done
  by_cases stands : (tree.metadata path).isSome = true
  · rw [if_pos stands] at done
    cases done
  · rw [if_neg stands] at done
    have absent := Option.not_isSome_iff_eq_none.mp stands
    by_cases free : tree.Placeable path
    · rw [if_pos free] at done
      unfold metadata at absent
      rw [if_neg free.named] at absent
      cases done
      exact ⟨absent, free, rfl⟩
    · rw [if_neg free] at done
      cases done

/-- What is put at a path is allowed if that path may become it. -/
theorem place_allowed {tree : Tree} {path : List EntryName} {kind : EntryKind}
    (made : tree.Placeable path → allowed.allows path (tree.find? path) (some kind))
    (other : List EntryName) :
    allowed.allows other (tree.find? other) ((tree.place path kind).find? other) := by
  by_cases free : tree.Placeable path
  · rw [Tree.find?_place free]
    by_cases same : other = path
    · rw [if_pos same, same]
      exact made free
    · rw [if_neg same]
      exact allowed.refl _ _
  · unfold Tree.place
    rw [dif_neg free]
    exact allowed.refl _ _

/-- What is newly put is allowed if its path may become it. -/
theorem Tree.placeNew_allowed {path : List EntryName} {kind : EntryKind}
    (made : allowed.allows path none (some kind)) (tree : Tree) (value : Unit) (after : Tree)
    (done : tree.placeNew path kind = .ok (value, after)) (other : List EntryName) :
    allowed.allows other (tree.find? other) (after.find? other) := by
  obtain ⟨absent, _, rfl⟩ := Tree.placeNew_ok done
  apply place_allowed
  intro _
  rw [absent]
  exact made

/-- A directory is made where it may appear. -/
theorem createDir_keeps {path : List EntryName}
    (made : allowed.allows path none (some .directory)) :
    (createDir faults path).Keeps allowed.Holds :=
  call_keeps (Tree.placeNew_allowed made) fun _ _ _ => allowed.refl _ _

/-- A directory is ensured where it may appear. -/
theorem ensureDir_keeps {path : List EntryName}
    (made : allowed.allows path none (some .directory)) :
    (ensureDir faults path).Keeps allowed.Holds := by
  refine call_keeps ?_ fun _ _ _ => allowed.refl _ _
  intro tree value after done other
  split at done
  · cases done
    exact allowed.refl _ _
  · exact Tree.placeNew_allowed made tree value after done other

/-- Directories are ensured where they may appear. -/
theorem createDirAll_keeps {base names : List EntryName}
    (made : ∀ part, part ≠ [] → part <+: names →
      allowed.allows (base ++ part) none (some .directory)) :
    (createDirAll faults base names).Keeps allowed.Holds := by
  induction names generalizing base with
  | nil => exact Allowed.stays
  | cons name rest ih =>
    refine Effect.Keeps.bind Allowed.joins (ensureDir_keeps ?_) fun _ => ih ?_
    · exact made [name] (by simp) ⟨rest, rfl⟩
    · intro part named below
      rw [List.append_assoc]
      exact made (name :: part) (by simp) (List.cons_prefix_cons.mpr ⟨rfl, below⟩)

/-- A file is written where it may come to stand, with whatever bytes get through. -/
theorem writeNewSynced_keeps {path : List EntryName} (bytes : List UInt8)
    (made : ∀ kind content, allowed.allows path kind (some (.file content))) :
    (writeNewSynced faults path bytes).Keeps allowed.Holds := by
  refine Effect.Keeps.bind Allowed.joins
    (call_keeps (Tree.placeNew_allowed (made none [])) fun _ _ _ => allowed.refl _ _) fun _ =>
    Effect.Keeps.bind Allowed.joins (call_keeps ?_ ?_) fun _ => look_keeps _
  · intro tree value after done
    cases done
    exact place_allowed fun _ => made _ _
  · exact fun written tree => place_allowed fun _ => made _ _

/-- What is written and synced is found. -/
theorem writeNewSynced_ok {path : List EntryName} {bytes : List UInt8} {value : Unit}
    (done : (writeNewSynced faults path bytes).outcome disk = (.ok value, last)) :
    last.tree.find? path = some (.file bytes) := by
  unfold writeNewSynced at done
  obtain ⟨_, opened, first, done⟩ := Effect.bind_ok.mp done
  obtain ⟨tree, made, rfl⟩ := call_ok first
  obtain ⟨_, free, rfl⟩ := Tree.placeNew_ok made
  obtain ⟨_, written, second, done⟩ := Effect.bind_ok.mp done
  obtain ⟨tree, put, rfl⟩ := call_ok second
  obtain ⟨_, rfl⟩ := look_ok done
  cases put
  have again : (disk.tree.place path (.file [])).Placeable path := by
    refine ⟨free.named, ?_, ?_⟩
    · rw [Tree.find?_place_of_ne (dropLast_ne free.named)]
      exact free.inside
    · rw [Tree.find?_place free, if_pos rfl]
      intro same
      cases same
  rw [Tree.find?_place again, if_pos rfl]

end Laws

end Texo.Backup
