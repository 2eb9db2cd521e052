import Texo.CodeIndex.Artifact
import Texo.Foundation.Quotas
import Texo.Foundation.Utf8
import Texo.Knowledge.Token
import Texo.Ops.Reconcile

/-! # Candidates of a reconciliation

`plan_candidates`: every claim is paired with the code occurrences that share words with it, the
pairs of a claim are ordered by rank, and a limit for each claim and a limit of all cut the plan.
-/
namespace Texo.Ops
open Texo.Events Texo.Knowledge Texo.Claims Texo.CodeIndex Texo.Foundation Texo.Extract Texo.Backup

/-- The tables of the Unicode standard that words are read with. -/
class CharTables where
  isAlphanumeric : Char → Bool
  isLowercase : Char → Bool
  toLowercase : Char → List Char

/-- `ReconcileClaim`. -/
structure ReconcileClaim where
  claimId : ClaimId
  text : String
  subjectHint : String
  predicateHint : String
  objectHint : String
deriving DecidableEq

/-- `ReconcileCandidate` with the rank it was planned at. -/
structure RankedCandidate extends ReconcileCandidate where
  rank : Nat
deriving DecidableEq

/-- `CandidatePlan`. -/
structure CandidatePlan where
  candidates : List RankedCandidate
  truncated : Bool
deriving DecidableEq

/-- The extensions of code paths. -/
def codeExtensions : List String :=
  ["rs", "py", "js", "jsx", "ts", "tsx", "go", "java", "kt", "kts", "rb", "php", "c", "cc", "cpp",
    "cxx", "h", "hpp", "cs", "swift", "scala", "sh", "bash", "zsh", "fish", "sql", "toml", "yaml",
    "yml", "json", "proto", "tf", "hcl", "ex", "exs", "erl", "hrl", "clj", "cljs", "vue", "svelte"]

/-- `is_code_path`. -/
def isCodePath (path : String) : Bool :=
  (fileName path.toList).any Git.isWellknownSourceBasename ||
    (Git.pathExtension path).any fun found => Git.isOneOf codeExtensions (Git.asciiLowercase found)

/-- `STOP_WORDS`. -/
def stopWords : List String :=
  ["and", "are", "for", "from", "into", "not", "our", "the", "this", "that", "use", "uses", "with"]

section
variable [CharTables]

/-- One character of a text that `tokens` reads: the text so far, and whether the character was
a lowercase one. -/
def normalizeChar (state : List Char × Bool) (ch : Char) : List Char × Bool :=
  let normalized := if ch.isUpper && state.2 then state.1 ++ [' '] else state.1
  if CharTables.isAlphanumeric ch then
    (normalized ++ CharTables.toLowercase ch, CharTables.isLowercase ch)
  else
    (normalized ++ [' '], false)

/-- `tokens`: the words of a text as a set. -/
def tokens (text : String) : List (List Char) :=
  let normalized := (text.toList.foldl normalizeChar ([], false)).1
  ((splitWhitespace normalized).filter fun token =>
    3 ≤ (encodeChars token).length ∧ ¬Git.isOneOf stopWords token).dedup

/-- `claim_tokens`. -/
def claimTokens (claim : ReconcileClaim) : List (List Char) :=
  tokens (claim.text ++ " " ++ claim.subjectHint ++ " " ++ claim.predicateHint ++ " " ++
    claim.objectHint)

/-- `BTreeSet::intersection`, counted. -/
def sharedTokens (left right : List (List Char)) : Nat :=
  (left.filter fun token => right.contains token).length

/-- `candidate_rank`. -/
def candidateRank (claimTokens : List (List Char)) (code : CodeOccurrence) : Nat :=
  let display := tokens (code.symbol ++ " " ++ code.displayName)
  let context := tokens (code.path ++ " " ++ code.context)
  sharedTokens claimTokens display * 4 + sharedTokens claimTokens context

end

/-- The text an occurrence's evidence is told apart by. -/
def evidenceMaterial (snapshotId : SourceSnapshotId) (code : CodeOccurrence) : String :=
  String.intercalate "\x1f" ["texo.code.evidence.v1", snapshotId.value, code.symbol, code.path,
    toString code.contextByteRange.1, toString code.contextByteRange.2, code.sourceDigestHex]

/-- The source of an occurrence's evidence. -/
def evidenceKindOf : AnalysisQuality → EvidenceSourceKind
  | .precise => .scip
  | .syntactic => .syntactic
  | .lexical => .lexical
  | .unavailable => .lexical

section
variable [Blake3]

/-- `candidate`. -/
def candidateOf (claim : ReconcileClaim) (snapshotId : SourceSnapshotId) (code : CodeOccurrence)
    (rank : Nat) : RankedCandidate where
  claimId := claim.claimId
  claimText := claim.text
  occurrence := {
    occurrenceId := evidenceOccurrenceId (evidenceMaterial snapshotId code)
    snapshotId := snapshotId
    sourceKind := evidenceKindOf code.analysisQuality
    path := code.path
    byteRange := code.contextByteRange
    lineRange := code.contextLineRange
    gitBlob := none
    sourceDigestHex := code.sourceDigestHex
    excerpt := code.context
    analyzerFingerprint := code.analyzerFingerprint
    analysisQuality := code.analysisQuality
  }
  codePrompt := policyVersion ++ "\nCode evidence for symbol `" ++ code.symbol ++ "` at " ++
    code.path ++ ":" ++ toString code.contextLineRange.1 ++ ":\n" ++ code.context
  rank := rank

/-- Candidates are ordered by descending rank, then by occurrence id. -/
def rankLe (left right : RankedCandidate) : Prop :=
  right.rank < left.rank ∨ (left.rank = right.rank ∧
    left.occurrence.occurrenceId.value ≤ right.occurrence.occurrenceId.value)

instance : DecidableRel rankLe := fun left right =>
  inferInstanceAs (Decidable (right.rank < left.rank ∨ (left.rank = right.rank ∧
    left.occurrence.occurrenceId.value ≤ right.occurrence.occurrenceId.value)))

variable [CharTables]

/-- The pairs of a claim: the code occurrences that share words with it. -/
def pairsOf (artifact : CodeIndexArtifact) (claim : ReconcileClaim) : List RankedCandidate :=
  (artifact.occurrences.filter fun code => isCodePath code.path).filterMap fun code =>
    let rank := candidateRank (claimTokens claim) code
    if 0 < rank then some (candidateOf claim artifact.snapshotId code rank) else none

/-- The pairs of a claim in their order. -/
def rankedPairs (artifact : CodeIndexArtifact) (claim : ReconcileClaim) : List RankedCandidate :=
  (pairsOf artifact claim).insertionSort rankLe

/-- The loop of `plan_candidates` over the claims. -/
def planFrom (artifact : CodeIndexArtifact) (limits : ReconcileLimits) :
    CandidatePlan → List ReconcileClaim → CandidatePlan
  | plan, [] => plan
  | plan, claim :: rest =>
    let ranked := rankedPairs artifact claim
    let truncated := plan.truncated || decide (limits.perClaim < ranked.length)
    let candidates := plan.candidates ++ ranked.take limits.perClaim
    if limits.total < candidates.length then
      ⟨candidates.take limits.total, true⟩
    else
      planFrom artifact limits ⟨candidates, truncated⟩ rest

/-- `plan_candidates`. -/
def planCandidates (claims : List ReconcileClaim) (artifact : CodeIndexArtifact)
    (limits : ReconcileLimits) : CandidatePlan :=
  planFrom artifact limits ⟨[], false⟩ claims

/-- The loop lists the leading pairs of each claim, cut to the limit of all. -/
theorem planFrom_candidates (artifact : CodeIndexArtifact) (limits : ReconcileLimits)
    {plan : CandidatePlan} (claims : List ReconcileClaim)
    (within : plan.candidates.length ≤ limits.total) :
    (planFrom artifact limits plan claims).candidates =
      (plan.candidates ++ takeEach limits.perClaim (claims.map (rankedPairs artifact))).take
        limits.total := by
  induction claims generalizing plan with
  | nil =>
    have none : takeEach limits.perClaim ([] : List (List RankedCandidate)) = [] := rfl
    rw [planFrom, List.map_nil, none, List.append_nil, List.take_of_length_le within]
  | cons claim rest ih =>
    rw [planFrom, List.map_cons, takeEach_cons, ← List.append_assoc]
    split
    · rename_i exceeds
      rw [List.take_append_of_le_length (Nat.le_of_lt exceeds)]
    · rename_i room
      exact ih (Nat.le_of_not_lt room)

/-- The loop tells exactly whether it left a pair out. -/
theorem planFrom_truncated (artifact : CodeIndexArtifact) (limits : ReconcileLimits)
    {plan : CandidatePlan} (claims : List ReconcileClaim)
    (within : plan.candidates.length ≤ limits.total) :
    (planFrom artifact limits plan claims).truncated = true ↔ plan.truncated = true ∨
      (planFrom artifact limits plan claims).candidates.length <
        plan.candidates.length + (claims.map (rankedPairs artifact)).flatten.length := by
  induction claims generalizing plan with
  | nil =>
    rw [planFrom]
    simp
  | cons claim rest ih =>
    have kept := List.length_take (i := limits.perClaim) (l := rankedPairs artifact claim)
    have later := (takeEach_sublist limits.perClaim (rest.map (rankedPairs artifact))).length_le
    have whole := planFrom_candidates artifact limits (claim :: rest) within
    rw [planFrom] at whole ⊢
    have total : (rankedPairs artifact claim ++ (rest.map (rankedPairs artifact)).flatten).length =
        (rankedPairs artifact claim).length + (rest.map (rankedPairs artifact)).flatten.length :=
      List.length_append
    rw [List.map_cons, List.flatten_cons, total]
    by_cases exceeds : limits.total <
        (plan.candidates ++ (rankedPairs artifact claim).take limits.perClaim).length
    · rw [if_pos exceeds]
      refine iff_of_true rfl (Or.inr ?_)
      rw [List.length_append, kept] at exceeds
      show (List.take _ _).length < _
      rw [List.length_take]
      omega
    · rw [if_neg exceeds] at whole ⊢
      have grown : (plan.candidates ++ (rankedPairs artifact claim).take limits.perClaim).length =
          plan.candidates.length + ((rankedPairs artifact claim).take limits.perClaim).length :=
        List.length_append
      rw [ih (Nat.le_of_not_lt exceeds), Bool.or_eq_true, decide_eq_true_iff, grown,
        or_assoc]
      apply or_congr_right
      have length := congrArg List.length whole
      rw [List.map_cons, takeEach_cons, List.length_take, List.length_append,
        List.length_append] at length
      have below := Nat.min_le_right limits.total (plan.candidates.length +
        ((List.take limits.perClaim (rankedPairs artifact claim)).length +
          (takeEach limits.perClaim (rest.map (rankedPairs artifact))).length))
      rw [← length] at below
      omega

/-- The candidates of a plan are the leading pairs of each claim, cut to the limit of all. -/
theorem planCandidates_candidates (claims : List ReconcileClaim) (artifact : CodeIndexArtifact)
    (limits : ReconcileLimits) :
    (planCandidates claims artifact limits).candidates =
      (takeEach limits.perClaim (claims.map (rankedPairs artifact))).take limits.total :=
  planFrom_candidates artifact limits claims (Nat.zero_le _)

/-- The pair of a claim at an occurrence. -/
def pairAt (artifact : CodeIndexArtifact) (claim : ReconcileClaim) (code : CodeOccurrence) :
    RankedCandidate :=
  candidateOf claim artifact.snapshotId code (candidateRank (claimTokens claim) code)

/-- The code occurrences that share words with a claim, in the order of its pairs. -/
def sharingOccurrences (artifact : CodeIndexArtifact) (claim : ReconcileClaim) :
    List CodeOccurrence :=
  ((artifact.occurrences.filter fun code => isCodePath code.path).filter fun code =>
    0 < candidateRank (claimTokens claim) code).insertionSort fun left right =>
      rankLe (pairAt artifact claim left) (pairAt artifact claim right)

/-- The pairs of a claim are those at the occurrences that share words with it. -/
theorem rankedPairs_eq (artifact : CodeIndexArtifact) (claim : ReconcileClaim) :
    rankedPairs artifact claim = (sharingOccurrences artifact claim).map (pairAt artifact claim) := by
  have pairs : pairsOf artifact claim =
      ((artifact.occurrences.filter fun code => isCodePath code.path).filter fun code =>
        0 < candidateRank (claimTokens claim) code).map (pairAt artifact claim) :=
    filterMap_if (fun code => 0 < candidateRank (claimTokens claim) code)
      (pairAt artifact claim) _
  unfold rankedPairs sharingOccurrences
  rw [pairs]
  symm
  apply List.map_insertionSort
  intro left _ right _
  exact Iff.rfl

/-- A pair is of its claim. -/
theorem claimId_of_rankedPairs {artifact : CodeIndexArtifact} {claim : ReconcileClaim}
    {candidate : RankedCandidate} (member : candidate ∈ rankedPairs artifact claim) :
    candidate.claimId = claim.claimId := by
  rw [rankedPairs_eq] at member
  obtain ⟨code, _, rfl⟩ := List.mem_map.mp member
  rfl

/-- What a pair is told apart by. -/
def pairKey (candidate : RankedCandidate) : ClaimId × EvidenceOccurrenceId :=
  (candidate.claimId, candidate.occurrence.occurrenceId)

/-- A lawful plan: within both limits, the leading pairs of each claim in the order of rank and
occurrence id, marked exactly where a pair was left out, and no pair twice. -/
structure PlanLawful (claims : List ReconcileClaim) (artifact : CodeIndexArtifact)
    (limits : ReconcileLimits) (plan : CandidatePlan) : Prop where
  total : plan.candidates.length ≤ limits.total
  perClaim : ∀ claim ∈ claims,
    (plan.candidates.filter fun candidate => candidate.claimId = claim.claimId).length ≤
      limits.perClaim
  leading : ∀ claim ∈ claims, ∃ sorted, sorted.Perm (pairsOf artifact claim) ∧
    sorted.Pairwise rankLe ∧
    plan.candidates.filter (fun candidate => candidate.claimId = claim.claimId) <+: sorted
  truncated : plan.truncated = true ↔ ∃ pair,
    plan.candidates.count pair < (claims.flatMap (pairsOf artifact)).count pair
  distinct : (plan.candidates.map pairKey).Nodup

/-- No claim has one piece of evidence twice among the leading occurrences that the limits leave
it room for. -/
def ApartWithinRoom (claims : List ReconcileClaim) (artifact : CodeIndexArtifact)
    (limits : ReconcileLimits) : Prop :=
  ∀ front claim back, claims = front ++ claim :: back →
    ((sharingOccurrences artifact claim).take (roomBehind limits.perClaim limits.total
      (front.map (sharingOccurrences artifact)))).Pairwise fun left right =>
        evidenceMaterial artifact.snapshotId left ≠ evidenceMaterial artifact.snapshotId right

/-- No two occurrences of the index have evidence of one digest but of different texts. -/
def EvidenceIdsApart (artifact : CodeIndexArtifact) : Prop :=
  ∀ left ∈ artifact.occurrences, ∀ right ∈ artifact.occurrences,
    evidenceOccurrenceId (evidenceMaterial artifact.snapshotId left) =
      evidenceOccurrenceId (evidenceMaterial artifact.snapshotId right) →
    evidenceMaterial artifact.snapshotId left = evidenceMaterial artifact.snapshotId right

omit [CharTables] [Blake3] in
instance : Std.Total rankLe where
  total left right := by
    unfold rankLe
    rcases Nat.lt_trichotomy left.rank right.rank with lower | same | higher
    · exact Or.inr (Or.inl lower)
    · rcases le_total left.occurrence.occurrenceId.value right.occurrence.occurrenceId.value with
        before | after
      · exact Or.inl (Or.inr ⟨same, before⟩)
      · exact Or.inr (Or.inr ⟨same.symm, after⟩)
    · exact Or.inl (Or.inl higher)

omit [CharTables] [Blake3] in
instance : IsTrans RankedCandidate rankLe where
  trans left middle right first second := by
    unfold rankLe at first second ⊢
    rcases first with higher | ⟨same, before⟩
    · left
      rcases second with again | ⟨level, _⟩ <;> omega
    · rcases second with higher | ⟨level, later⟩
      · left
        omega
      · exact Or.inr ⟨same.trans level, le_trans before later⟩

/-- The candidates of one claim lead its pairs, and are as many as its limit at most. -/
theorem planCandidates_leading {claims : List ReconcileClaim} (artifact : CodeIndexArtifact)
    (limits : ReconcileLimits) (distinct : (claims.map ReconcileClaim.claimId).Nodup)
    {claim : ReconcileClaim} (member : claim ∈ claims) :
    (planCandidates claims artifact limits).candidates.filter
        (fun candidate => candidate.claimId = claim.claimId) <+:
      (rankedPairs artifact claim).take limits.perClaim := by
  obtain ⟨front, back, rfl⟩ := List.append_of_mem member
  have alone : claim.claimId ∉ (front ++ back).map ReconcileClaim.claimId := by
    have moved : ((front ++ claim :: back).map ReconcileClaim.claimId).Perm
        ((claim :: (front ++ back)).map ReconcileClaim.claimId) := List.perm_middle.map _
    exact (List.nodup_cons.mp (moved.nodup distinct)).1
  have own := @filter_takeEach RankedCandidate ClaimId _ (fun candidate => candidate.claimId)
    limits.perClaim _ (front.map (rankedPairs artifact)) (back.map (rankedPairs artifact))
    (rankedPairs artifact claim) claim.claimId rfl (fun _ inside => claimId_of_rankedPairs inside) (by
      intro other listed candidate inside
      rw [← List.map_append] at listed
      obtain ⟨different, among, rfl⟩ := List.mem_map.mp listed
      rw [claimId_of_rankedPairs inside]
      intro same
      exact alone (List.mem_map.mpr ⟨different, among, same⟩))
  rw [planCandidates_candidates, List.map_append, List.map_cons, ← own]
  exact (List.take_prefix _ _).filter _

/-- A plan is marked exactly where it lacks a pair. -/
theorem planCandidates_truncated (claims : List ReconcileClaim) (artifact : CodeIndexArtifact)
    (limits : ReconcileLimits) :
    (planCandidates claims artifact limits).truncated = true ↔ ∃ pair,
      (planCandidates claims artifact limits).candidates.count pair <
        (claims.flatMap (pairsOf artifact)).count pair := by
  have sorted : (claims.map (rankedPairs artifact)).flatten.Perm
      (claims.flatMap (pairsOf artifact)) := by
    rw [← List.flatMap_def]
    apply List.Perm.flatMap_left
    intro claim _
    exact List.perm_insertionSort _ _
  have inside : (planCandidates claims artifact limits).candidates.Sublist
      (claims.map (rankedPairs artifact)).flatten := by
    rw [planCandidates_candidates]
    exact (List.take_sublist _ _).trans (takeEach_sublist _ _)
  have marked := @planFrom_truncated _ _ artifact limits ⟨[], false⟩ claims (Nat.zero_le _)
  have lacks := lacks_iff_shorter inside
  unfold planCandidates at lacks ⊢
  rw [marked]
  simp only [← sorted.count_eq, lacks]
  simp

/-- Two occurrences have one pair key exactly where they have one piece of evidence. -/
theorem pairKey_pairAt {artifact : CodeIndexArtifact} (apart : EvidenceIdsApart artifact)
    (claim : ReconcileClaim) {left right : CodeOccurrence} (leftIn : left ∈ artifact.occurrences)
    (rightIn : right ∈ artifact.occurrences) :
    pairKey (pairAt artifact claim left) = pairKey (pairAt artifact claim right) ↔
      evidenceMaterial artifact.snapshotId left = evidenceMaterial artifact.snapshotId right := by
  constructor
  · intro same
    exact apart left leftIn right rightIn (Prod.mk.inj same).2
  · intro same
    show (claim.claimId, evidenceOccurrenceId (evidenceMaterial artifact.snapshotId left)) = _
    rw [same]
    rfl

/-- No pair is planned twice exactly where every claim's evidence is apart within its room. -/
theorem planCandidates_distinct {claims : List ReconcileClaim} {artifact : CodeIndexArtifact}
    (limits : ReconcileLimits) (distinct : (claims.map ReconcileClaim.claimId).Nodup)
    (apart : EvidenceIdsApart artifact) :
    ((planCandidates claims artifact limits).candidates.map pairKey).Nodup ↔
      ApartWithinRoom claims artifact limits := by
  have separate : (claims.map (rankedPairs artifact)).Pairwise fun left right =>
      ∀ x ∈ left, ∀ y ∈ right, pairKey x ≠ pairKey y := by
    rw [List.pairwise_map]
    apply (List.pairwise_map.mp distinct).imp
    intro left right different x leftIn y rightIn same
    apply different
    rw [← claimId_of_rankedPairs leftIn, ← claimId_of_rankedPairs rightIn]
    exact (Prod.mk.inj same).1
  have room : ∀ front : List ReconcileClaim,
      roomBehind limits.perClaim limits.total (front.map (rankedPairs artifact)) =
        roomBehind limits.perClaim limits.total (front.map (sharingOccurrences artifact)) := by
    intro front
    unfold roomBehind
    rw [length_takeEach, length_takeEach, List.map_map, List.map_map]
    have lengths : ∀ claim, (rankedPairs artifact claim).length =
        (sharingOccurrences artifact claim).length := by
      intro claim
      rw [rankedPairs_eq, List.length_map]
    simp only [Function.comp_def, lengths]
  have share : ∀ claim count, (((rankedPairs artifact claim).take count).map pairKey).Nodup ↔
      ((sharingOccurrences artifact claim).take count).Pairwise fun left right =>
        evidenceMaterial artifact.snapshotId left ≠ evidenceMaterial artifact.snapshotId right := by
    intro claim count
    have known : ∀ code ∈ (sharingOccurrences artifact claim).take count,
        code ∈ artifact.occurrences := by
      intro code member
      have listed := (List.mem_insertionSort _).mp (List.mem_of_mem_take member)
      exact List.mem_of_mem_filter (List.mem_of_mem_filter listed)
    rw [rankedPairs_eq, ← List.map_take, List.map_map, List.Nodup, List.pairwise_map]
    apply List.Pairwise.iff_of_mem
    intro left right leftIn rightIn
    exact not_congr (pairKey_pairAt apart claim (known left leftIn) (known right rightIn))
  rw [planCandidates_candidates, nodup_takeEach separate]
  constructor
  · intro all front claim back split
    rw [← room, ← share]
    apply all _ _ (back.map (rankedPairs artifact))
    rw [split, List.map_append, List.map_cons]
  · intro all front group back split
    obtain ⟨before, tail, rfl, rfl, later⟩ := List.map_eq_append_iff.mp split
    obtain ⟨claim, after, rfl, rfl, rfl⟩ := List.map_eq_cons_iff.mp later
    rw [room, share]
    exact all before claim after rfl

/-- A plan over claims of distinct ids is lawful exactly where no claim has one piece of evidence
twice within the room its limits leave. -/
theorem planCandidates_lawful_iff {claims : List ReconcileClaim} {artifact : CodeIndexArtifact}
    (limits : ReconcileLimits) (distinct : (claims.map ReconcileClaim.claimId).Nodup)
    (apart : EvidenceIdsApart artifact) :
    PlanLawful claims artifact limits (planCandidates claims artifact limits) ↔
      ApartWithinRoom claims artifact limits := by
  rw [← planCandidates_distinct limits distinct apart]
  constructor
  · exact PlanLawful.distinct
  · intro once
    refine ⟨?_, ?_, ?_, planCandidates_truncated claims artifact limits, once⟩
    · rw [planCandidates_candidates, List.length_take]
      exact Nat.min_le_left _ _
    · intro claim member
      have leading := (planCandidates_leading artifact limits distinct member).length_le
      rw [List.length_take] at leading
      exact le_trans leading (Nat.min_le_left _ _)
    · intro claim member
      refine ⟨rankedPairs artifact claim, List.perm_insertionSort _ _,
        List.pairwise_insertionSort _ _, ?_⟩
      exact (planCandidates_leading artifact limits distinct member).trans (List.take_prefix _ _)

end

/-- The tables of the first 128 characters. -/
@[reducible] def asciiTables : CharTables where
  isAlphanumeric := Char.isAlphanum
  isLowercase := Char.isLower
  toLowercase ch := [ch.toLower]

/-- A use of one symbol, with the text around it. -/
def symbolUse (byteRange contextRange : Nat × Nat) (context : String) : CodeOccurrence where
  symbol := "retries"
  displayName := "retries"
  roles := [.reference]
  path := "a.rs"
  byteRange := byteRange
  lineRange := (1, 1)
  sourceDigestHex := "d"
  excerpt := "retries"
  context := context
  contextByteRange := contextRange
  contextLineRange := (1, 1)
  analyzerFingerprint := "lexical"
  analysisQuality := .lexical

/-- An index of some uses. -/
def usesIndex (uses : List CodeOccurrence) : CodeIndexArtifact where
  schemaName := "texo.code-index.v1"
  snapshotId := ⟨"snapshot_a", Eq.refl true⟩
  indexId := ⟨"code_index_a", Eq.refl true⟩
  format := .lexical
  analyzerFingerprint := "lexical"
  occurrences := uses
  coverage := ⟨.lexical, 1, uses.length, false, []⟩

/-- A claim about the symbol. -/
def retriesClaim : ReconcileClaim := ⟨⟨"claim_a", Eq.refl true⟩, "retries", "", "", ""⟩

/-- Two uses on lines of their own. -/
def usesApart : CodeIndexArtifact :=
  usesIndex [symbolUse (0, 7) (0, 7) "retries", symbolUse (8, 15) (8, 15) "retries"]

/-- Two uses on one line, which is the context of both. -/
def usesTogether : CodeIndexArtifact :=
  usesIndex [symbolUse (0, 7) (0, 15) "retries retries", symbolUse (8, 15) (0, 15) "retries retries"]

/-- The evidence of two uses on lines of their own is apart. -/
theorem usesApart_apart :
    let _ := numeralDigest
    EvidenceIdsApart usesApart := by
  intro _
  have different : evidenceOccurrenceId (evidenceMaterial usesApart.snapshotId
        (symbolUse (0, 7) (0, 7) "retries")) ≠
      evidenceOccurrenceId (evidenceMaterial usesApart.snapshotId
        (symbolUse (8, 15) (8, 15) "retries")) := by
    decide +kernel
  intro left leftIn right rightIn same
  rcases List.mem_pair.mp leftIn with rfl | rfl <;>
    rcases List.mem_pair.mp rightIn with rfl | rfl
  · rfl
  · exact absurd same different
  · exact absurd same.symm different
  · rfl

/-- Two uses on lines of their own are planned lawfully, exactly as their evidence is apart. -/
theorem planCandidates_lawful_apart :
    let _ := numeralDigest
    let _ := asciiTables
    ([retriesClaim].map ReconcileClaim.claimId).Nodup ∧ EvidenceIdsApart usesApart ∧
      (PlanLawful [retriesClaim] usesApart {} (planCandidates [retriesClaim] usesApart {}) ↔
        ApartWithinRoom [retriesClaim] usesApart {}) := by
  let _ := numeralDigest
  let _ := asciiTables
  exact ⟨by decide, usesApart_apart, planCandidates_lawful_iff {} (by decide) usesApart_apart⟩

/-- Two uses on one line are one piece of evidence, and the plan holds its pair twice. -/
theorem one_line_planned_twice :
    let _ := numeralDigest
    let _ := asciiTables
    ([retriesClaim].map ReconcileClaim.claimId).Nodup ∧ EvidenceIdsApart usesTogether ∧
      ¬PlanLawful [retriesClaim] usesTogether {} (planCandidates [retriesClaim] usesTogether {}) := by
  let _ := numeralDigest
  let _ := asciiTables
  refine ⟨by decide, ?_, fun lawful => ?_⟩
  · intro left leftIn right rightIn _
    rcases List.mem_pair.mp leftIn with rfl | rfl <;>
      rcases List.mem_pair.mp rightIn with rfl | rfl <;> rfl
  · have once := lawful.distinct
    revert once
    decide +kernel

end Texo.Ops
