import Texo.Ingest.Plan
import Texo.Knowledge.Token
import Texo.Store.Policy

/-! # Claim ids of a source

The id of a claim is drawn from its source id, its line number in decimal and its text, one behind
the other. The number and the text of two lines can run into each other.
-/
namespace Texo.Ingest
open Texo.Events Texo.Extract Texo.Store Texo.Foundation Texo.Knowledge

/-- The material of a claim id. -/
def claimMaterial (claim : ClaimRecordedV2) : String :=
  claim.sourceId ++ toString claim.lineStart ++ claim.normalizedText

/-- The line number of one claim goes on with digits that the text of another starts with, and
their texts are the same behind them. -/
def RunsInto (first second : ClaimRecordedV2) : Prop :=
  ∃ digits : List Char, digits ≠ [] ∧
    Nat.toDigits 10 second.lineStart = Nat.toDigits 10 first.lineStart ++ digits ∧
    first.normalizedText.toList = digits ++ second.normalizedText.toList

/-- The key a claim is recorded under. -/
def claimRecordedKey (claim : ClaimRecordedV2) : EventId :=
  .forOperation "texo.claim.recorded.v2" [claim.workspaceId, claim.claimId]

/-- A claim as one document gives it. -/
structure ClaimOf [Blake3] (document : MarkdownDocument) (workspaceId : String)
    (claim : ClaimRecordedV2) : Prop where
  claimId : claim.claimId = "claim_" ++ cut (blake3HashHex (claimMaterial claim)) 12
  sourceId : claim.sourceId = document.sourceId
  workspaceId : claim.workspaceId = workspaceId

section
variable [Blake3] {op : String} {document : MarkdownDocument} {workspaceId : String}
  {observedAtMs : Nat} {claims : List ClaimRecordedV2}

omit [Blake3] in
/-- A source id reads back as it is written. -/
theorem value_of_sourceIdOf {value : String} {sourceId : SourceId}
    (read : sourceIdOf value = .ok sourceId) : sourceId.value = value := by
  unfold sourceIdOf Branded.tryFrom at read
  by_cases empty : value = ""
  · rw [if_pos empty] at read
    cases read
  · rw [if_neg empty] at read
    by_cases branded : startsWith value "src_" = true
    · rw [dif_pos branded] at read
      rw [← Except.ok.inj read]
    · rw [dif_neg branded] at read
      cases read

/-- A claim with an id of its parts is a claim of its document. -/
theorem claimOf_parts {sourceId : SourceId} {claim : ClaimRecordedV2}
    (named : sourceIdOf document.sourceId = .ok sourceId) (source : claim.sourceId = document.sourceId)
    (workspace : claim.workspaceId = workspaceId)
    (id : claim.claimId = (claimIdFromParts sourceId claim.lineStart claim.normalizedText).value) :
    ClaimOf document workspaceId claim := by
  refine ⟨?_, source, workspace⟩
  rw [id]
  show "claim_" ++ cut (blake3HashHex (sourceId.value ++ _ ++ _)) 12 = _
  unfold claimMaterial
  rw [source, value_of_sourceIdOf named]

/-- The heuristics give claims of the document. -/
theorem extractHeuristicClaims_of
    (extracted : extractHeuristicClaims document workspaceId observedAtMs = .ok claims) :
    ∀ claim ∈ claims, ClaimOf document workspaceId claim := by
  unfold extractHeuristicClaims at extracted
  cases named : sourceIdOf document.sourceId with
  | error error =>
    rw [named] at extracted
    cases extracted
  | ok sourceId =>
    rw [named] at extracted
    intro claim member
    rw [← Except.ok.inj extracted] at member
    obtain ⟨line, _, given⟩ := List.mem_filterMap.mp member
    obtain ⟨hints, _, rfl⟩ := Option.map_eq_some_iff.mp given
    exact claimOf_parts named rfl rfl rfl

/-- An extractor command gives claims of the document. -/
theorem extractCmdClaims_of {run : ExtractorRun}
    (extracted : extractCmdClaims op run document workspaceId observedAtMs = .ok claims) :
    ∀ claim ∈ claims, ClaimOf document workspaceId claim := by
  unfold extractCmdClaims at extracted
  cases run with
  | failed error => cases extracted
  | notUtf8 error => cases extracted
  | lines rows =>
    obtain ⟨sourceId, named, read⟩ := bind_eq_ok.mp extracted
    refine foldlM_preserves (fun claims => ∀ claim ∈ claims, ClaimOf document workspaceId claim) ?_
      read (by simp)
    intro before row _ after stepped kept
    unfold cmdLine at stepped
    split at stepped
    · rw [← Except.ok.inj stepped]
      exact kept
    · cases stepped
    · rename_i parsed _
      rw [← Except.ok.inj stepped]
      intro claim member
      rcases List.mem_append.mp member with old | new
      · exact kept claim old
      · rw [List.mem_singleton.mp new]
        exact claimOf_parts named rfl rfl rfl

/-- What is extracted from a document are claims of it. -/
theorem extractClaims_of {config : WorkspaceConfig} {world : SourceWorld} {path : String}
    (extracted : extractClaims op config world workspaceId observedAtMs path document = .ok claims) :
    ∀ claim ∈ claims, ClaimOf document workspaceId claim := by
  unfold extractClaims at extracted
  split at extracted
  · exact extractCmdClaims_of extracted
  · exact extractHeuristicClaims_of extracted

omit [Blake3] in
/-- Claims of one document have one material exactly where they are of one line and text, or run
into each other. -/
theorem claimMaterial_eq_iff {first second : ClaimRecordedV2}
    (sources : first.sourceId = second.sourceId) :
    claimMaterial first = claimMaterial second ↔
      (first.lineStart, first.normalizedText) = (second.lineStart, second.normalizedText) ∨
        RunsInto first second ∨ RunsInto second first := by
  have lists : ∀ claim : ClaimRecordedV2, (claimMaterial claim).toList = claim.sourceId.toList ++
      (Nat.toDigits 10 claim.lineStart ++ claim.normalizedText.toList) := by
    intro claim
    unfold claimMaterial
    rw [String.toList_append, String.toList_append, List.append_assoc]
    show _ ++ (claim.lineStart.repr.toList ++ _) = _
    rw [Nat.toList_repr]
  have numbers : ∀ number other : Nat, Nat.toDigits 10 number = Nat.toDigits 10 other →
      number = other := by
    intro number other same
    have values := congrArg (fun digits => Nat.ofDigitChars 10 digits 0) same
    simpa only [Nat.ofDigitChars_ten_toDigits] using values
  rw [← String.toList_inj, lists, lists, sources, List.append_cancel_left_eq,
    List.append_eq_append_iff]
  constructor
  · rintro (⟨digits, longer, behind⟩ | ⟨digits, longer, behind⟩)
    · by_cases none : digits = []
      · rw [none, List.append_nil] at longer
        rw [none, List.nil_append] at behind
        rw [numbers _ _ longer, String.toList_inj.mp behind]
        exact Or.inl rfl
      · exact Or.inr (Or.inl ⟨digits, none, longer, behind⟩)
    · by_cases none : digits = []
      · rw [none, List.append_nil] at longer
        rw [none, List.nil_append] at behind
        rw [numbers _ _ longer, String.toList_inj.mp behind]
        exact Or.inl rfl
      · exact Or.inr (Or.inr ⟨digits, none, longer, behind⟩)
  · rintro (same | ⟨digits, _, longer, behind⟩ | ⟨digits, _, longer, behind⟩)
    · obtain ⟨lines, texts⟩ := Prod.mk.inj same
      exact Or.inl ⟨[], by rw [lines, List.append_nil], by rw [texts, List.nil_append]⟩
    · exact Or.inl ⟨digits, longer, behind⟩
    · exact Or.inr ⟨digits, longer, behind⟩

omit [Blake3] in
/-- A claim does not run into one of the same line. -/
theorem RunsInto.line_ne {first second : ClaimRecordedV2} (runs : RunsInto first second) :
    (first.lineStart, first.normalizedText) ≠ (second.lineStart, second.normalizedText) := by
  intro same
  obtain ⟨digits, some, longer, _⟩ := runs
  rw [(Prod.mk.inj same).1] at longer
  exact some (List.append_right_eq_self.mp longer.symm)

/-- The claims of a source on different lines or with different texts have different ids, entities
and keys exactly where no two of them run into each other. -/
theorem claim_ids_distinct_iff {config : WorkspaceConfig} {world : SourceWorld} {path : String}
    (extracted : extractClaims op config world workspaceId observedAtMs path document = .ok claims)
    (uncollided : ∀ first ∈ claims, ∀ second ∈ claims,
      cut (blake3HashHex (claimMaterial first)) 12 = cut (blake3HashHex (claimMaterial second)) 12 →
        claimMaterial first = claimMaterial second) :
    (∀ first ∈ claims, ∀ second ∈ claims,
        (first.lineStart, first.normalizedText) ≠ (second.lineStart, second.normalizedText) →
        first.claimId ≠ second.claimId ∧
          coordinateOf (.claimRecorded first) ≠ coordinateOf (.claimRecorded second) ∧
          claimRecordedKey first ≠ claimRecordedKey second) ↔
      ∀ first ∈ claims, ∀ second ∈ claims, ¬ RunsInto first second := by
  have given := extractClaims_of extracted
  have material : ∀ first ∈ claims, ∀ second ∈ claims,
      first.claimId = second.claimId ↔ claimMaterial first = claimMaterial second := by
    intro first member second member'
    rw [(given first member).claimId, (given second member').claimId]
    constructor
    · intro same
      apply uncollided first member second member'
      have lists := congrArg String.toList same
      rw [String.toList_append, String.toList_append] at lists
      exact String.toList_inj.mp (List.append_cancel_left lists)
    · intro same
      rw [same]
  have sources : ∀ first ∈ claims, ∀ second ∈ claims, first.sourceId = second.sourceId := by
    intro first member second member'
    rw [(given first member).sourceId, (given second member').sourceId]
  constructor
  · intro distinct first member second member' runs
    have same := (claimMaterial_eq_iff (sources first member second member')).mpr
      (Or.inr (Or.inl runs))
    exact (distinct first member second member' runs.line_ne).1
      ((material first member second member').mpr same)
  · intro apart first member second member' different
    have ids : first.claimId ≠ second.claimId := by
      intro same
      rcases (claimMaterial_eq_iff (sources first member second member')).mp
        ((material first member second member').mp same) with line | runs | runs
      · exact different line
      · exact apart first member second member' runs
      · exact apart second member' first member runs
    refine ⟨ids, ?_, ?_⟩
    · intro same
      have entities := congrArg (Option.map Coordinate.entity) same
      exact ids (entityForClaim_injective (Option.some.inj entities))
    · intro same
      have keys := congrArg (fun id => match id with
        | EventId.forOperation _ parts => parts
        | _ => []) same
      exact ids (List.cons_eq_cons.mp (List.cons_eq_cons.mp keys).2).1

end

/-- A document of some lines. -/
def numberedDocument (text : String) : MarkdownDocument where
  path := "plan.md"
  bodyHashHex := "0123456789ab"
  sourceId := "src_0123456789ab"
  lines := parseLines text

/-- The claims the heuristics find in a text. -/
def claimsOf (text : String) : Except TexoError (List ClaimRecordedV2) :=
  @extractHeuristicClaims numeralDigest (numberedDocument text) "demo" 1

/-- A claim as far as ids tell claims apart. -/
def shownClaim (claim : ClaimRecordedV2) : String × Nat × String :=
  (claim.claimId, claim.lineStart, claim.normalizedText)

/-- The twelfth item of a numbered list on the first line, the second on the eleventh. -/
def numberedItems : String := "12. deploy is friday\n\n\n\n\n\n\n\n\n\n2. deploy is friday\n"

/-- What is extracted where it shows. -/
theorem claimsOf_shown {text : String} {shown : List (String × Nat × String)}
    (found : (claimsOf text).toOption.map (List.map shownClaim) = some shown) :
    ∃ claims, claimsOf text = .ok claims ∧ claims.map shownClaim = shown := by
  obtain ⟨claims, given, same⟩ := Option.map_eq_some_iff.mp found
  refine ⟨claims, ?_, same⟩
  cases run : claimsOf text with
  | error error =>
    rw [run] at given
    cases given
  | ok taken =>
    rw [run] at given
    rw [← Option.some.inj given]

/-- Two items of a numbered list share one claim id and one key. -/
theorem numbered_items_share_id : ∃ claims first second,
    @extractHeuristicClaims numeralDigest (numberedDocument numberedItems) "demo" 1 = .ok claims ∧
      first ∈ claims ∧ second ∈ claims ∧
      (first.lineStart, first.normalizedText) = (1, "12. deploy is friday") ∧
      (second.lineStart, second.normalizedText) = (11, "2. deploy is friday") ∧
      claimMaterial first = claimMaterial second ∧ first.claimId = second.claimId := by
  let _ := numeralDigest
  have found : (claimsOf numberedItems).toOption.map (List.map shownClaim) =
      some [("claim_186c687c0267", 1, "12. deploy is friday"),
        ("claim_186c687c0267", 11, "2. deploy is friday")] := by decide +kernel
  obtain ⟨claims, given, shown⟩ := claimsOf_shown found
  obtain ⟨first, rest, rfl, firstShown, behind⟩ := List.map_eq_cons_iff.mp shown
  obtain ⟨second, last, rfl, secondShown, _⟩ := List.map_eq_cons_iff.mp behind
  obtain ⟨firstId, firstLine⟩ := Prod.mk.inj firstShown
  obtain ⟨secondId, secondLine⟩ := Prod.mk.inj secondShown
  have of := @extractHeuristicClaims_of numeralDigest _ _ _ _ given
  have sources : first.sourceId = second.sourceId := by
    rw [(of first (by simp)).sourceId, (of second (by simp)).sourceId]
  refine ⟨_, first, second, given, by simp, by simp, firstLine, secondLine, ?_,
    firstId.trans secondId.symm⟩
  rw [claimMaterial_eq_iff sources]
  obtain ⟨line, text⟩ := Prod.mk.inj firstLine
  obtain ⟨line', text'⟩ := Prod.mk.inj secondLine
  refine Or.inr (Or.inl ⟨['1'], by decide, ?_, ?_⟩)
  · rw [line, line']
    decide
  · rw [text, text']
    decide

/-- Two lines about two days. -/
def twoDays : String := "deploy is friday\ndeploy is monday\n"

/-- What the heuristics find in them. -/
def twoDaysShown : List (String × Nat × String) :=
  [("claim_0d0f23104c95", 1, "deploy is friday"), ("claim_ad62ee072087", 2, "deploy is monday")]

/-- Two lines of a document with different ids. -/
theorem claim_ids_distinct_iff_demo : ∃ claims,
    @extractHeuristicClaims numeralDigest (numberedDocument twoDays) "demo" 1 = .ok claims ∧
      ∀ first ∈ claims, ∀ second ∈ claims,
        (first.lineStart, first.normalizedText) ≠ (second.lineStart, second.normalizedText) →
        first.claimId ≠ second.claimId := by
  let _ := numeralDigest
  have found : (claimsOf twoDays).toOption.map (List.map shownClaim) = some twoDaysShown := by
    decide +kernel
  obtain ⟨claims, given, shown⟩ := claimsOf_shown found
  have listed : ∀ claim ∈ claims, shownClaim claim ∈ twoDaysShown := by
    intro claim member
    rw [← shown]
    exact List.mem_map_of_mem member
  have of := @extractHeuristicClaims_of numeralDigest _ _ _ _ given
  have uncollided : ∀ first ∈ claims, ∀ second ∈ claims,
      cut (@blake3HashHex numeralDigest (claimMaterial first)) 12 =
        cut (@blake3HashHex numeralDigest (claimMaterial second)) 12 →
          claimMaterial first = claimMaterial second := by
    intro first member second member' same
    have ids : first.claimId = second.claimId := by
      rw [(of first member).claimId, (of second member').claimId, same]
    have lines : (shownClaim first).2 = (shownClaim second).2 := by
      have distinct : ∀ one ∈ twoDaysShown, ∀ other ∈ twoDaysShown,
          one.1 = other.1 → one.2 = other.2 := by decide
      exact distinct _ (listed first member) _ (listed second member') ids
    rw [claimMaterial_eq_iff]
    · exact Or.inl lines
    · rw [(of first member).sourceId, (of second member').sourceId]
  have apart : ∀ first ∈ claims, ∀ second ∈ claims, ¬ RunsInto first second := by
    intro first member second member' runs
    obtain ⟨digits, some, longer, _⟩ := runs
    have single : ∀ claim ∈ claims, (Nat.toDigits 10 claim.lineStart).length = 1 := by
      intro claim member
      have one : ∀ shown ∈ twoDaysShown, (Nat.toDigits 10 shown.2.1).length = 1 := by decide
      exact one _ (listed claim member)
    have sizes := congrArg List.length longer
    rw [List.length_append, single first member, single second member'] at sizes
    exact some (List.length_eq_zero_iff.mp (by omega))
  have distinct := (@claim_ids_distinct_iff numeralDigest "" (numberedDocument twoDays) "demo" 1
    claims {} ⟨"", .ok ⟨[], []⟩, fun _ _ => .lines [], fun _ => ""⟩ "" given uncollided).mpr apart
  exact ⟨claims, given, fun first member second member' different =>
    (distinct first member second member' different).1⟩

end Texo.Ingest
