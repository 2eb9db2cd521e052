import Texo.Extract.Words
import Texo.Ops.Common

/-! # Heuristic conflict detection

Two current claims of one subject conflict when their wording says so: a replacement keyword, a
negation on one side, a change of predicate, owner or day, or a gap in confidence.
-/
namespace Texo.Relate
open Texo.Events Texo.Extract Texo.Claims Texo.Ops

/-- `CONTRADICTION_SUBJECTS`. -/
def contradictionSubjects : List String :=
  ["deploy-process", "release-process", "approval-process", "ownership"]

/-- `SCHEDULE_DAYS`. -/
def scheduleDays : List String := ["monday", "tuesday", "wednesday", "thursday", "friday"]

/-- One conflict the heuristic reports. -/
structure ReportedConflict where
  conflictId : ConflictId
  claimA : String
  claimB : String
  subjectHint : String
  reason : String
  status : String := "open"
deriving DecidableEq

/-- `str::replace`, `fuel` being at least the length of the text. -/
def replaceWithin (needle replacement : List Char) : Nat → List Char → List Char
  | 0, text => text
  | _ + 1, [] => []
  | fuel + 1, c :: rest =>
    if needle.isPrefixOf (c :: rest) then
      replacement ++ replaceWithin needle replacement fuel ((c :: rest).drop needle.length)
    else
      c :: replaceWithin needle replacement fuel rest

/-- `str::replace` of a nonempty needle. -/
def replaceText (needle replacement : String) (text : List Char) : List Char :=
  replaceWithin needle.toList replacement.toList text.length text

/-- A text without its negations. -/
def stripNegation (text : String) : List Char :=
  replaceText "not " "" (replaceText " not " " " text.toList)

/-- `negation_mismatch`. -/
def negationMismatch (a b : ClaimCard) : Bool :=
  containsWord a.normalizedText.toList "not" ≠ containsWord b.normalizedText.toList "not" &&
    stripNegation a.normalizedText = stripNegation b.normalizedText

/-- The first schedule day an object names. -/
def scheduleDay (object : String) : Option String :=
  scheduleDays.find? fun day => containsWord object.toList day

/-- `schedule_object_clash`. -/
def scheduleObjectClash (aObject bObject subject : String) : Bool :=
  if subject ≠ "deploy-process" ∧ subject ≠ "release-process" then
    false
  else
    match scheduleDay aObject, scheduleDay bObject with
    | some left, some right => left ≠ right
    | _, _ => false

/-- `confidence_gap`. -/
def confidenceGap (a b : ClaimCard) : Bool :=
  250000 < max a.confidencePpm b.confidencePpm - min a.confidencePpm b.confidencePpm &&
    a.normalizedText ≠ b.normalizedText

/-- `has_contradiction_signal`. -/
def hasContradictionSignal (a b : ClaimCard) (subject : String) : Bool :=
  let aPredicate := a.predicateHint.getD ""
  let bPredicate := b.predicateHint.getD ""
  let aObject := a.objectHint.getD ""
  let bObject := b.objectHint.getD ""
  containsReplacementSignal a.text || containsReplacementSignal a.normalizedText ||
    containsReplacementSignal b.text || containsReplacementSignal b.normalizedText ||
    negationMismatch a b ||
    (aPredicate ≠ bPredicate && (aPredicate = "changed" || bPredicate = "changed")) ||
    (aPredicate = "owns" && bPredicate = "owns" && aObject ≠ bObject) ||
    scheduleObjectClash aObject bObject subject ||
    confidenceGap a b ||
    (contradictionSubjects.contains subject && aObject ≠ bObject && aObject ≠ "" && bObject ≠ "")

/-- One claim of `by_subject`. -/
def noteSubject (groups : Std.ExtTreeMap String (List ClaimCard)) (card : ClaimCard) :
    Std.ExtTreeMap String (List ClaimCard) :=
  let subject := card.subjectHint.getD ""
  groups.insert subject ((groups[subject]?).getD [] ++ [card])

/-- The current claims of a view by subject hint. -/
def currentBySubject (view : WorkspaceView) : Std.ExtTreeMap String (List ClaimCard) :=
  ((view.claims.map ClaimView.card).filter fun card => card.phase = 1).foldl noteSubject ∅

/-- The pairs of a group, earlier element first. -/
def pairsOf {Item : Type} : List Item → List (Item × Item)
  | [] => []
  | item :: rest => rest.map (fun other => (item, other)) ++ pairsOf rest

variable [Blake3]

/-- One pair of `detect_conflicts`. -/
def detectPair (subject : String) (pair : ClaimCard × ClaimCard) :
    Except TexoError (Option ReportedConflict) :=
  if pair.1.normalizedText = pair.2.normalizedText ∨
      hasContradictionSignal pair.1 pair.2 subject = false then
    .ok none
  else do
    let aId ← claimIdOf pair.1.claimId
    let bId ← claimIdOf pair.2.claimId
    .ok (some
      { conflictId := conflictIdFromPair aId bId
        claimA := pair.1.claimId
        claimB := pair.2.claimId
        subjectHint := subject
        reason := "contradictory current claims on " ++ subject ++ ": \"" ++ pair.1.text ++
          "\" vs \"" ++ pair.2.text ++ "\"" })

/-- `detect_conflicts`. -/
def detectConflicts (view : WorkspaceView) : Except TexoError (List ReportedConflict) := do
  let found ← ((currentBySubject view).toList.flatMap fun group =>
    (pairsOf group.2).map fun pair => (group.1, pair)).mapM fun item => detectPair item.1 item.2
  .ok ((found.filterMap id).insertionSort fun left right =>
    left.conflictId.value ≤ right.conflictId.value)

/-- Negation is stripped wherever it stands. -/
example : stripNegation "we do not deploy" = stripNegation "we do deploy" := by decide

end Texo.Relate
