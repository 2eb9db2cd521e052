import Mathlib.Algebra.GroupWithZero.Nat
import Texo.Extract.Words

/-! # Claim lines and their hints

Which markdown lines become claims, and the subject, predicate and object read off such a
line.
-/
namespace Texo.Extract

/-- `str::len`: bytes of the UTF-8 encoding. -/
def byteLength (text : List Char) : Nat := (text.map Char.utf8Size).sum

/-- The wording of a line that claims something. -/
def claimSignals : List String :=
  ["is", "are", "uses", "use", "must", "should", "owner", "owns", "process", "decided", "decision",
    "moved", "changed", "replaced", "no longer", "deprecated", "deploy", "deploys", "release",
    "releases", "approval", "friday", "tuesday", "monday", "wednesday", "thursday"]

/-- `has_claim_signal`. -/
def hasClaimSignal (line : List Char) : Bool := containsAny line claimSignals

/-- `is_list_marker_only`. -/
def isListMarkerOnly (line : List Char) : Bool :=
  (trim (trimStartChar '+' (trimStartChar '*' (trimStartChar '-' line)))).isEmpty

/-- The headings that claim something. -/
def headingSignals : List String :=
  ["process", "deploy", "release", "owner", "approval", "policy", "decision"]

/-- `is_claim_line`. -/
def isClaimLine (line : List Char) : Bool :=
  let trimmed := trim line
  let title := trim (trimStartChar '#' trimmed)
  if trimmed.isEmpty then
    false
  else if "##".toList.isPrefixOf trimmed then
    4 ≤ byteLength title &&
      headingSignals.any fun needle => containsText (toAsciiLowercase title) needle.toList
  else if ['#'].isPrefixOf trimmed && byteLength title < 4 then
    false
  else if isListMarkerOnly trimmed then
    false
  else if "Decision:".toList.isPrefixOf trimmed || "decision:".toList.isPrefixOf trimmed then
    true
  else if "- ".toList.isPrefixOf trimmed || "* ".toList.isPrefixOf trimmed then
    hasClaimSignal (trim (trimStartChar '*' (trimStartChar '-' trimmed)))
  else
    hasClaimSignal line

/-- Parsed hint triple from a claim line. -/
structure ClaimHints where
  subjectHint : String
  predicateHint : String
  objectHint : String
  confidencePpm : Nat
deriving DecidableEq, Repr

/-- `DEFAULT_CONFIDENCE_PPM`. -/
def defaultConfidencePpm : Nat := 500000

/-- `KEYWORDS`: wording with the confidence it gives. -/
def keywords : List (String × Nat) :=
  [("decided", 900000), ("decision", 900000), ("changed", 900000), ("owner", 800000),
    ("owns", 800000), ("process", 800000), ("approval", 800000), ("is", 650000), ("are", 650000),
    ("uses", 650000), ("use", 650000), ("must", 650000), ("should", 650000), ("moved", 650000),
    ("replaced", 650000), ("no longer", 650000), ("deprecated", 650000), ("deploy", 650000),
    ("release", 650000), ("friday", 700000), ("tuesday", 700000), ("monday", 700000),
    ("wednesday", 700000), ("thursday", 700000)]

/-- `detect_confidence`. -/
def detectConfidence (lower : List Char) : Nat × Bool :=
  match keywords.find? fun keyword => containsPhrase lower keyword.1 with
  | some keyword => (keyword.2, true)
  | none => (defaultConfidencePpm, false)

/-- `detect_predicate`. -/
def detectPredicate (lower : List Char) : String :=
  if containsWord lower "uses" || containsWord lower "use" then
    "uses"
  else if containsWord lower "is" then
    "is"
  else if containsWord lower "must" then
    "must"
  else if containsWord lower "should" then
    "should"
  else if containsWord lower "owns" || containsWord lower "owner" then
    "owns"
  else if containsWord lower "changed" || containsWord lower "moved" ||
      containsWord lower "replaced" then
    "changed"
  else
    "unknown"

/-- `slugify_words`. -/
def slugifyWords (text : List Char) (least most : Nat) : String :=
  let taken := (splitWhitespace text).take most
  let count := max least (min taken.length most)
  String.ofList (['-'].intercalate
    (((taken.take count).map fun word => word.filter Char.isAlphanum).filter fun word => !word.isEmpty))

/-- `detect_subject`. -/
def detectSubject (lower normalized : List Char) : String :=
  if containsWord lower "deploy" || containsWord lower "deploys" then
    "deploy-process"
  else if containsWord lower "release" || containsWord lower "releases" then
    "release-process"
  else if containsWord lower "owner" || containsWord lower "owns" then
    "ownership"
  else if containsWord lower "approval" then
    "approval-process"
  else
    slugifyWords normalized 3 6

/-- `detect_object`. -/
def detectObject (normalized : List Char) (predicate : String) : String :=
  match ["monday", "tuesday", "wednesday", "thursday", "friday"].find? (containsWord normalized) with
  | some day => day
  | none =>
    if predicate = "unknown" then
      String.ofList normalized
    else
      match findAfter predicate.toList normalized with
      | none => String.ofList normalized
      | some rest =>
        if (trim rest).isEmpty then String.ofList normalized else String.ofList (trim rest)

/-- `hints_from_line_normalized`. -/
def hintsFromLineNormalized (line normalized : String) : Option ClaimHints :=
  if !isClaimLine line.toList || normalized = "" then
    none
  else
    let lower := toAsciiLowercase line.toList
    some
      { subjectHint := detectSubject lower normalized.toList
        predicateHint := detectPredicate lower
        objectHint := detectObject normalized.toList (detectPredicate lower)
        confidencePpm := (detectConfidence lower).1 }

/-- A decision line names its subject and its day. -/
example : hintsFromLineNormalized "Decision: deploys moved to Tuesday."
    "decision: deploys moved to tuesday." =
    some ⟨"deploy-process", "changed", "tuesday", 900000⟩ := by decide

end Texo.Extract
