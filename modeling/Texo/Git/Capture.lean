import Texo.Git.Accumulator

/-! # Capturing a repository

The committed files of the head, then the worktree overlay: the conflicts of the index and the
items of the status, in the order the status gives them. The snapshot id is drawn from the commit,
the digests of the index and of the overlay, and the limits.
-/
namespace Texo.Git
open Texo.Events Texo.Knowledge Texo.Ops Texo.Backup Texo.Foundation

/-- `CAPTURE_SCHEMA`. -/
def captureSchema : String := "texo.git-capture.v1"

/-- The mode of a file in a tree. -/
inductive TreeMode where
  | blob
  | link
  | commit
deriving DecidableEq, Repr

/-- One file of a commit tree. -/
structure TreeFile where
  filepath : List UInt8
  mode : TreeMode
  oid : GitObjectId
deriving DecidableEq

/-- Content-addressed objects: the tree of a commit, the files of a tree, the bytes of a blob. -/
class GitObjects where
  commitTree : GitObjectId → GitObjectId
  treeFiles : GitObjectId → List TreeFile
  blob : GitObjectId → List UInt8
  /-- An object id is shown in lowercase hexadecimal digits. -/
  treeHex : ∀ commit, ∀ c ∈ (commitTree commit).hex.toList, lowerHexChar c = true

/-- The bytes of an object id. -/
def idWidth : GitObjectFormat → Nat
  | .sha1 => 20
  | .sha256 => 32

/-- One entry of the index. -/
structure IndexEntry where
  path : List UInt8
  id : List UInt8
  mode : BitVec 32
  stage : BitVec 32
  /-- The length of a path is a `u64`. -/
  short : path.length < 2 ^ 64

/-- What a path of the worktree is found to be. -/
inductive WorktreeEntry where
  | missing
  | failed (failure : TexoError)
  | symlink
  | other
  | file (bytes : List UInt8)
  | changing (length : Nat) (failure : TexoError)

/-- A repository as one capture meets it. -/
structure Repository where
  format : GitObjectFormat
  opened : Except TexoError Unit
  head : Except TexoError GitObjectId
  /-- Reading the size and the bytes of an object. -/
  reads : GitObjectId → Except TexoError Unit
  index : List IndexEntry
  endingIndex : List IndexEntry
  indexPath : String
  status : Except TexoError (List (Except TexoError (List UInt8)))
  worktree : String → WorktreeEntry
  /-- Object ids have the format of the repository. -/
  headHex : ∀ commit, head = .ok commit →
    commit.format = format ∧ isLowerHex commit.hex (2 * idWidth format) = true
  indexIds : ∀ entry ∈ index, entry.id.length = idWidth format

/-- The big-endian bytes of a number. -/
def bigEndian : Nat → Nat → List UInt8
  | 0, _ => []
  | width + 1, value => bigEndian width (value / 256) ++ [UInt8.ofNat (value % 256)]

/-- The material of one index entry. -/
def IndexEntry.material (entry : IndexEntry) : List UInt8 :=
  bigEndian 8 entry.path.length ++ entry.path ++ entry.id ++ bigEndian 4 entry.mode.toNat ++
    bigEndian 4 entry.stage.toNat

/-- The material of `semantic_index_digest`. -/
def indexMaterial (index : List IndexEntry) : List UInt8 :=
  asBytes "texo.git-index.v1" ++ index.flatMap IndexEntry.material

/-- One overlay entry as its digest sees it. -/
inductive OverlayDigestEntry where
  | bytes (digest : String)
  | deleted
  | omitted (label : String)
deriving DecidableEq, Repr

/-- The text of an overlay entry. -/
def OverlayDigestEntry.text : OverlayDigestEntry → String
  | .bytes digest => digest
  | .deleted => "deleted"
  | .omitted label => label

/-- The overlay entries by path. -/
abbrev Overlay := OrderedMap String OverlayDigestEntry

/-- The material of one overlay entry. -/
def overlayEntryMaterial (entry : String × OverlayDigestEntry) : List UInt8 :=
  0x1F :: asBytes entry.1 ++ 0x1E :: asBytes entry.2.text

/-- The material of `overlay_digest`. -/
def overlayMaterial (entries : Overlay) : List UInt8 :=
  asBytes captureSchema ++ entries.entries.flatMap overlayEntryMaterial

/-- What one item of the status comes to. -/
inductive StatusStep where
  | pass
  | note (path : Option String) (kind : CoverageGapKind)
  | delete (path : String)
  | skip (path : String) (kind : CoverageGapKind) (label : String)
  | read (path : String) (bytes : List UInt8)
deriving DecidableEq, Repr

/-- The paths of the index entries in conflict. -/
def conflictPaths (index : List IndexEntry) : OrderedMap String Unit :=
  (index.filterMap fun entry => if entry.stage ≠ 0 then fromUtf8 entry.path else none).foldl
    (fun paths path => paths.insert path ()) .empty

/-- A captured path. -/
def capturesPath (path : String) : Bool := sourcePathIsInScope path && safeRelativePath path

/-- An item at a path that is captured, by what the worktree holds there. -/
def worktreeStep (limits : CaptureLimits) (path : String) :
    WorktreeEntry → Except TexoError StatusStep
  | .missing => .ok (.delete path)
  | .failed failure => .error failure
  | .symlink => .ok (.skip path .symlink "symlink")
  | .other => .ok .pass
  | .file bytes =>
    if limits.maxFileBytes < bytes.length then
      .ok (.skip path .sourceTooLarge "source-too-large")
    else
      .ok (.read path bytes)
  | .changing length failure =>
    if limits.maxFileBytes < length then
      .ok (.skip path .sourceTooLarge "source-too-large")
    else
      .error failure

/-- What an item of the status comes to, by its location. -/
def statusStep (limits : CaptureLimits) (conflicts : OrderedMap String Unit)
    (worktree : String → WorktreeEntry) (location : List UInt8) : Except TexoError StatusStep :=
  match fromUtf8 location with
  | none => .ok (.note none .unsupportedEncoding)
  | some path =>
    if capturesPath path then
      if conflicts.contains path then .ok .pass else worktreeStep limits path (worktree path)
    else if safeRelativePath path && (pathExtension path).isNone then
      .ok (.note (some path) .outOfScope)
    else
      .ok .pass

section
variable [Blake3]

/-- The accumulator with the overlay that the digest is drawn from. -/
structure OverlayState where
  accumulator : CaptureAccumulator
  overlay : Overlay

/-- What a step does to the accumulator and the overlay. -/
def OverlayState.apply (state : OverlayState) : StatusStep → OverlayState
  | .pass => state
  | .note path kind => { state with accumulator := state.accumulator.gap path kind }
  | .delete path =>
    { accumulator := state.accumulator.remove path, overlay := state.overlay.insert path .deleted }
  | .skip path kind label =>
    { accumulator := (state.accumulator.omitSource path).gap (some path) kind
      overlay := state.overlay.insert path (.omitted label) }
  | .read path bytes =>
    { accumulator := state.accumulator.insert path bytes none .worktree
      overlay := state.overlay.insert path (.bytes (Blake3.hex bytes)) }

omit [Blake3] in
/-- The conflicts of `capture_overlay`: a gap for each, and nothing kept at the captured ones. -/
def captureConflicts (conflicts : OrderedMap String Unit) (accumulator : CaptureAccumulator) :
    OverlayState :=
  let paths := conflicts.entries.map Prod.fst
  let noted := paths.foldl (fun accumulator path => accumulator.gap (some path) .worktreeConflict)
    accumulator
  (paths.filter capturesPath).foldl (fun state path =>
    { accumulator := state.accumulator.omitSource path
      overlay := state.overlay.insert path (.omitted "conflict") })
    { accumulator := noted, overlay := .empty }

/-- `capture_overlay`. -/
def captureOverlay (repository : Repository) (accumulator : CaptureAccumulator) :
    Except TexoError OverlayState := do
  let conflicts := conflictPaths repository.index
  let status ← repository.status
  status.foldlM (fun state item => do
    let location ← item
    let step ← statusStep accumulator.limits conflicts repository.worktree location
    .ok (state.apply step)) (captureConflicts conflicts accumulator)

variable [GitObjects]

omit [Blake3] in
/-- One file of `capture_committed`. -/
def captureTreeFile (repository : Repository) (accumulator : CaptureAccumulator) (file : TreeFile) :
    Except TexoError CaptureAccumulator :=
  match fromUtf8 file.filepath with
  | none => .ok (accumulator.gap none .unsupportedEncoding)
  | some path =>
    if sourcePathIsInScope path then
      match file.mode with
      | .commit => .ok (accumulator.gap (some path) .gitlink)
      | .link => .ok (accumulator.gap (some path) .symlink)
      | .blob => do
        repository.reads file.oid
        let bytes := GitObjects.blob file.oid
        if accumulator.limits.maxFileBytes < bytes.length then
          .ok (accumulator.gap (some path) .sourceTooLarge)
        else
          .ok (accumulator.insert path bytes (some file.oid) .committed)
    else
      .ok (noteOutOfScope accumulator path)

omit [Blake3] in
/-- `capture_committed`. -/
def captureCommitted (repository : Repository) (tree : GitObjectId)
    (accumulator : CaptureAccumulator) : Except TexoError CaptureAccumulator :=
  ((GitObjects.treeFiles tree).insertionSort fun left right =>
    left.filepath ≤ right.filepath).foldlM (captureTreeFile repository) accumulator

omit [GitObjects] in
/-- `SourceSnapshotId::derive`. -/
def sourceSnapshotId (material : String) : SourceSnapshotId :=
  ⟨"snapshot_" ++ cut (blake3HashHex material) 24, startsWith_append _ _⟩

omit [Blake3] [GitObjects] in
/-- The material of the snapshot id. -/
def snapshotMaterial (repositoryId : RepositoryId) (baseCommit baseTree : GitObjectId)
    (indexDigestHex overlayDigestHex : String) (limits : CaptureLimits) : String :=
  captureSchema ++ "\x1f" ++ repositoryId.value ++ "\x1f" ++ baseCommit.hex ++ "\x1f" ++
    baseTree.hex ++ "\x1f" ++ indexDigestHex ++ "\x1f" ++ overlayDigestHex ++ "\x1f" ++
    toString limits.maxFiles ++ "\x1f" ++ toString limits.maxFileBytes ++ "\x1f" ++
    toString limits.maxTotalBytes

/-- The whole result of a capture: `GitCapture` with its deleted paths and the id's material. -/
structure CaptureResult where
  capture : GitCapture
  deleted : List String
  material : String
  overlay : Overlay

/-- `capture`. -/
def capture (repository : Repository) (repositoryId : RepositoryId) (limits : CaptureLimits) :
    Except TexoError CaptureResult := do
  repository.opened
  let baseCommit ← repository.head
  let baseTree := GitObjects.commitTree baseCommit
  let committed ← captureCommitted repository baseTree (.new limits)
  let indexDigestHex := Blake3.hex (indexMaterial repository.index)
  let overlaid ← captureOverlay repository committed
  require (Blake3.hex (indexMaterial repository.endingIndex) = indexDigestHex)
    (.source repository.indexPath "Git index changed while the snapshot was being captured")
  let overlayDigestHex := Blake3.hex (overlayMaterial overlaid.overlay)
  let material := snapshotMaterial repositoryId baseCommit baseTree indexDigestHex overlayDigestHex
    limits
  .ok
    { capture :=
        { repositoryId := repositoryId
          baseCommit := baseCommit
          baseTree := baseTree
          indexDigestHex := indexDigestHex
          overlayDigestHex := overlayDigestHex
          snapshotId := sourceSnapshotId material
          dirty := !overlaid.overlay.entries.isEmpty
          sources := overlaid.accumulator.captured
          coverage := overlaid.accumulator.coverage }
      deleted := overlaid.accumulator.deletions
      material := material
      overlay := overlaid.overlay }

end

end Texo.Git
