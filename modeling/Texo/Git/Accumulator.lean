import Texo.Backup.Paths
import Texo.Foundation.OrderedMap
import Texo.Ops.Capture

/-! # What a capture keeps

The scope of captured paths and the accumulator that keeps captured sources within its budgets.
A later layer replaces what an earlier one kept at the same path; what is not kept leaves a gap.
-/
namespace Texo.Git
open Texo.Knowledge Texo.Ops Texo.Backup Texo.Foundation

/-- `str::to_ascii_lowercase`. -/
def asciiLowercase (text : List Char) : List Char := text.map Char.toLower

/-- `Path::extension`. -/
def pathExtension (path : String) : Option (List Char) :=
  (fileName path.toList).bind extension

/-- `is_wellknown_source_basename`. -/
def isWellknownSourceBasename (name : List Char) : Bool :=
  ["Makefile", "makefile", "GNUmakefile", "Dockerfile", "Containerfile", "justfile", "Justfile",
    "Rakefile", "Gemfile", "Procfile", "Jenkinsfile", "BUILD", "WORKSPACE"].any
    fun known => known.toList = name

/-- The extensions of captured sources. -/
def sourceExtensions : List String :=
  ["md", "rs", "py", "js", "jsx", "ts", "tsx", "go", "java", "kt", "c", "h", "cc", "cpp", "hpp",
    "toml", "yaml", "yml", "json", "sh"]

/-- The text is one of some words. -/
def isOneOf (words : List String) (text : List Char) : Bool := words.any fun word => word.toList = text

/-- `source_path_is_in_scope`. -/
def sourcePathIsInScope (path : String) : Bool :=
  if Events.startsWith path ".texo/" || Events.startsWith path "target/" ||
      Events.startsWith path ".git/" then
    false
  else if (fileName path.toList).any isWellknownSourceBasename then
    true
  else
    (pathExtension path).any fun found => isOneOf sourceExtensions (asciiLowercase found)

/-- `safe_relative_path`. -/
def safeRelativePath (path : String) : Bool :=
  !path.toList.isEmpty && (components path.toList).all Component.isNormal

/-- `LFS_HEADER`. -/
def lfsHeader : List UInt8 := Events.asBytes "version https://git-lfs.github.com/spec/v1\n"

/-- `MAX_GAPS`. -/
def maxGaps : Nat := 256

/-- `CaptureAccumulator`. -/
structure CaptureAccumulator where
  limits : CaptureLimits
  sources : OrderedMap String CapturedSource
  deleted : OrderedMap String Unit
  totalBytes : Nat
  sourcesExamined : Nat
  truncated : Bool
  gaps : List CoverageGap

namespace CaptureAccumulator

/-- `CaptureAccumulator::new`. -/
def new (limits : CaptureLimits) : CaptureAccumulator where
  limits := limits
  sources := .empty
  deleted := .empty
  totalBytes := 0
  sourcesExamined := 0
  truncated := false
  gaps := []

/-- `CaptureAccumulator::gap`. -/
def gap (accumulator : CaptureAccumulator) (path : Option String) (kind : CoverageGapKind) :
    CaptureAccumulator :=
  if accumulator.gaps.length < maxGaps then
    { accumulator with gaps := accumulator.gaps ++ [⟨path, kind⟩] }
  else
    { accumulator with truncated := true }

/-- `CaptureAccumulator::omit`. -/
def omitSource (accumulator : CaptureAccumulator) (path : String) : CaptureAccumulator :=
  match accumulator.sources.find? path with
  | none => accumulator
  | some source =>
    { accumulator with
      sources := accumulator.sources.erase path
      totalBytes := accumulator.totalBytes - source.bytes.length }

/-- `CaptureAccumulator::remove`. -/
def remove (accumulator : CaptureAccumulator) (path : String) : CaptureAccumulator :=
  let accumulator := accumulator.omitSource path
  { accumulator with deleted := accumulator.deleted.insert path () }

/-- The total once bytes are kept at a path. -/
def totalWith (accumulator : CaptureAccumulator) (path : String) (bytes : List UInt8) : Nat :=
  accumulator.totalBytes - ((accumulator.sources.find? path).elim 0 fun source =>
    source.bytes.length) + bytes.length

/-- A budget has no room for bytes at a path. -/
def Refuses (accumulator : CaptureAccumulator) (path : String) (bytes : List UInt8) : Prop :=
  (accumulator.limits.maxFiles ≤ accumulator.sources.entries.length ∧
      accumulator.sources.contains path = false) ∨
    accumulator.limits.maxTotalBytes < accumulator.totalWith path bytes

instance (accumulator : CaptureAccumulator) (path : String) (bytes : List UInt8) :
    Decidable (accumulator.Refuses path bytes) :=
  inferInstanceAs (Decidable (_ ∨ _))

/-- `CaptureAccumulator::insert`. -/
def insert (accumulator : CaptureAccumulator) (path : String) (bytes : List UInt8)
    (blobId : Option GitObjectId) (layer : CapturedLayer) : CaptureAccumulator :=
  let accumulator := { accumulator with sourcesExamined := accumulator.sourcesExamined + 1 }
  if lfsHeader.isPrefixOf bytes then
    (accumulator.omitSource path).gap (some path) .lfsPointer
  else if accumulator.limits.maxFileBytes < bytes.length then
    (accumulator.omitSource path).gap (some path) .sourceTooLarge
  else if accumulator.Refuses path bytes then
    { accumulator.omitSource path with truncated := true }.gap (some path) .budgetExceeded
  else
    { accumulator with
      totalBytes := accumulator.totalWith path bytes
      deleted := accumulator.deleted.erase path
      sources := accumulator.sources.insert path ⟨path, bytes, blobId, layer⟩ }

/-- The captured sources of `CaptureAccumulator::finish`. -/
def captured (accumulator : CaptureAccumulator) : List CapturedSource :=
  accumulator.sources.entries.map Prod.snd

/-- The deleted paths of `CaptureAccumulator::finish`. -/
def deletions (accumulator : CaptureAccumulator) : List String :=
  accumulator.deleted.entries.map Prod.fst

/-- The coverage of `CaptureAccumulator::finish`. -/
def coverage (accumulator : CaptureAccumulator) : KnowledgeCoverage where
  analysisQuality := .unavailable
  sourcesExamined := accumulator.sourcesExamined
  occurrences := accumulator.sources.entries.length
  truncated := accumulator.truncated
  gaps := accumulator.gaps

end CaptureAccumulator

/-- `note_out_of_scope`. -/
def noteOutOfScope (accumulator : CaptureAccumulator) (path : String) : CaptureAccumulator :=
  if (pathExtension path).isNone then accumulator.gap (some path) .outOfScope else accumulator

end Texo.Git
