import Texo.Extract.Prose
import Texo.Extract.WhiteSpace
import Texo.Ingest.ClaimIds
import Texo.Sessions.Turns

/-! # Claims of a transcript

A session is written as a transcript and its claims are extracted from the lines of that transcript.
Each user turn is one line of prose, so its claims depend on its own text alone; the header line
with the session id goes through the same extraction.
-/
namespace Texo.Ingest
open Texo.Events Texo.Extract Texo.Claims Texo.Sessions

/-- The text of a turn with its white space collapsed. -/
def cleanText (turn : TurnEntry) : String :=
  String.intercalate " " ((splitWhitespace turn.text.toList).map String.ofList)

/-- The transcript line of a user turn, if it has one. -/
def userLine (turn : TurnEntry) : Option String :=
  if turn.speaker = "user" ∧ cleanText turn ≠ "" then
    some ("User: " ++ cleanText turn ++ "\n")
  else
    none

/-- The transcript lines of user turns. -/
def userLines (turns : List TurnEntry) : List String := turns.filterMap userLine

/-- The header line of a transcript. -/
def headerLine (sessionId : String) : String := "# Session " ++ sessionId

/-- A claim without its ids, line numbers and offsets. -/
def apart (claim : ClaimRecordedV2) : ClaimRecordedV2 :=
  { claim with claimId := "", sourceId := "", lineStart := 0, lineEnd := 0, charStart := 0, charEnd := 0 }

/-- The header begins with a hash. -/
theorem toList_headerLine (sessionId : String) :
    (headerLine sessionId).toList = '#' :: (" Session ".toList ++ sessionId.toList) := by
  unfold headerLine
  rw [String.toList_append]
  rfl

/-- The characters of a joined text are those of the separator and of its parts. -/
theorem mem_intercalate {separator : List Char} {parts : List (List Char)} {c : Char}
    (member : c ∈ separator.intercalate parts) : c ∈ separator ∨ ∃ part ∈ parts, c ∈ part := by
  induction parts with
  | nil => cases member
  | cons part parts ih =>
    cases parts with
    | nil =>
      rw [List.intercalate_singleton] at member
      exact Or.inr ⟨part, List.mem_cons_self, member⟩
    | cons next parts =>
      rw [List.intercalate_cons_cons] at member
      rcases List.mem_append.mp member with front | later
      · rcases List.mem_append.mp front with here | between
        · exact Or.inr ⟨part, List.mem_cons_self, here⟩
        · exact Or.inl between
      · rcases ih later with between | ⟨other, known, inside⟩
        · exact Or.inl between
        · exact Or.inr ⟨other, List.mem_cons_of_mem _ known, inside⟩

/-- The characters of a collapsed text are blanks and visible characters. -/
theorem mem_cleanText {turn : TurnEntry} {c : Char} (member : c ∈ (cleanText turn).toList) :
    c = ' ' ∨ isWhitespace c = false := by
  unfold cleanText at member
  rw [String.toList_intercalate, List.map_map] at member
  rcases mem_intercalate member with blank | ⟨part, known, inside⟩
  · exact Or.inl (List.mem_singleton.mp blank)
  · obtain ⟨word, split, same⟩ := List.mem_map.mp known
    rw [← same, Function.comp_apply, String.toList_ofList] at inside
    exact Or.inr (solid_of_mem_splitWhitespace split c inside)

/-- One turn of rendering without assistant turns. -/
def renderTurn (out : String) (turn : TurnEntry) : String :=
  let speaker : Option Speaker :=
    if turn.speaker = "user" then some .user
    else if turn.speaker = "assistant" then if false then some .assistant else none
    else none
  match speaker with
  | none => out
  | some speaker =>
    if cleanText turn = "" then out else out ++ "\n" ++ speaker.lead ++ cleanText turn ++ "\n"

/-- Rendering goes turn by turn. -/
theorem renderTranscript_eq (sessionId : String) (turns : List TurnEntry) :
    renderTranscript sessionId turns false = turns.foldl renderTurn (headerLine sessionId ++ "\n") :=
  rfl

/-- What rendering adds for a turn. -/
theorem toList_renderTurn (out : String) (turn : TurnEntry) :
    (renderTurn out turn).toList =
      out.toList ++ (userLine turn).toList.flatMap fun line => '\n' :: line.toList := by
  unfold renderTurn userLine
  by_cases user : turn.speaker = "user"
  · by_cases blank : cleanText turn = ""
    · simp [user, blank]
    · simp only [user, blank, if_true, if_false, not_false_eq_true, and_self, Option.toList_some,
        List.flatMap_cons, List.flatMap_nil, List.append_nil, ne_eq]
      show (out ++ "\n" ++ "User: " ++ cleanText turn ++ "\n").toList = _
      simp only [String.toList_append, List.append_assoc]
      rfl
  · by_cases assistant : turn.speaker = "assistant"
    · simp [assistant]
    · simp [user, assistant]

/-- A transcript is its header and the lines of its user turns, each behind an empty line. -/
theorem toList_renderTranscript (sessionId : String) (turns : List TurnEntry) :
    (renderTranscript sessionId turns false).toList =
      (headerLine sessionId ++ "\n").toList ++
        (userLines turns).flatMap fun line => '\n' :: line.toList := by
  rw [renderTranscript_eq]
  generalize headerLine sessionId ++ "\n" = out
  induction turns generalizing out with
  | nil => exact (List.append_nil _).symm
  | cons turn turns ih =>
    rw [List.foldl_cons, ih, toList_renderTurn, List.append_assoc, ← List.flatMap_append]
    congr 2
    unfold userLines
    cases line : userLine turn with
    | none => rw [List.filterMap_cons_none line]; rfl
    | some text => rw [List.filterMap_cons_some line]; rfl

/-- The line of a user turn without its line feed. -/
def spokenLine (turn : TurnEntry) : List Char := "User: ".toList ++ (cleanText turn).toList

/-- The spoken lines of user turns. -/
def spokenLines (turns : List TurnEntry) : List (List Char) :=
  (turns.filter fun turn => turn.speaker = "user" ∧ cleanText turn ≠ "").map spokenLine

/-- The lines of user turns are the spoken ones with their line feeds. -/
theorem userLines_eq (turns : List TurnEntry) :
    (userLines turns).map String.toList = (spokenLines turns).map (· ++ ['\n']) := by
  induction turns with
  | nil => rfl
  | cons turn turns ih =>
    unfold userLines spokenLines at ih ⊢
    by_cases spoken : turn.speaker = "user" ∧ cleanText turn ≠ ""
    · have line : userLine turn = some ("User: " ++ cleanText turn ++ "\n") := if_pos spoken
      rw [List.filterMap_cons_some line, List.filter_cons_of_pos (by simpa using spoken),
        List.map_cons, List.map_cons, List.map_cons, ih, String.toList_append,
        String.toList_append]
      rfl
    · have line : userLine turn = none := if_neg spoken
      rw [List.filterMap_cons_none line, List.filter_cons_of_neg (by simpa using spoken), ih]

/-- A spoken line is prose. -/
theorem proseLine_spoken (turn : TurnEntry) : ProseLine (spokenLine turn) := by
  have clear : ∀ c : Char, isWhitespace c = true → c ≠ ' ' → c ∉ spokenLine turn := by
    intro c white blank member
    rcases List.mem_append.mp member with lead | text
    · have known : ("User: ".toList.all fun d => d = ' ' || !isWhitespace d) = true := by decide
      have shown := List.all_eq_true.mp known c lead
      rw [white, decide_eq_false blank] at shown
      cases shown
    · rcases mem_cleanText text with same | visible
      · exact blank same
      · rw [white] at visible
        cases visible
  exact ProseLine.of_head (c := 'U') (by decide) (by decide) (by decide)
    (clear '\n' (by decide) (by decide)) (clear '\r' (by decide) (by decide))

/-- The header of a valid session is prose. -/
theorem proseLine_header {sessionId : String} (valid : validSessionId sessionId = true) :
    ProseLine (headerLine sessionId).toList := by
  unfold validSessionId at valid
  simp only [Bool.and_eq_true, List.all_eq_true] at valid
  have clear : ∀ c : Char, c ∉ "# Session ".toList →
      (c.isAlphanum || c = '-' || c = '_') = false → c ∉ (headerLine sessionId).toList := by
    intro c lead other member
    unfold headerLine at member
    rw [String.toList_append] at member
    rcases List.mem_append.mp member with front | id
    · exact lead front
    · have fine := valid.2 c id
      rw [other] at fine
      cases fine
  have feed := clear '\n' (by decide) (by decide)
  have carriage := clear '\r' (by decide) (by decide)
  rw [toList_headerLine] at feed carriage ⊢
  exact ProseLine.of_head (by decide) (by decide) (by decide) feed carriage

/-- The header of a valid session is short enough to be extracted. -/
theorem extractable_header {sessionId : String} (valid : validSessionId sessionId = true) :
    extractable (headerLine sessionId).toList = some (headerLine sessionId) := by
  unfold validSessionId at valid
  simp only [Bool.and_eq_true, decide_eq_true_eq] at valid
  have short : byteLength (headerLine sessionId).toList ≤ 10 + 64 := by
    have size : byteLength (headerLine sessionId).toList =
        byteLength "# Session ".toList + byteLength sessionId.toList := by
      unfold headerLine byteLength
      rw [String.toList_append, List.map_append, List.sum_append]
    have lead : byteLength "# Session ".toList = 10 := by decide
    have id := byteLength_toList sessionId
    have bound : sessionId.utf8ByteSize ≤ 64 := valid.1.2
    omega
  unfold extractable
  rw [if_neg (by unfold maxExtractableLineBytes; omega), String.ofList_toList]

/-- The lines of a transcript. -/
def transcriptLines (sessionId : String) (turns : List TurnEntry) : List (List Char) :=
  (headerLine sessionId).toList :: (spokenLines turns).flatMap fun line => [[], line]

/-- A transcript is made of its lines. -/
theorem feedLines_transcript (sessionId : String) (turns : List TurnEntry) :
    (renderTranscript sessionId turns false).toList =
      feedLines (transcriptLines sessionId turns) := by
  have lines : ((userLines turns).flatMap fun line => '\n' :: line.toList) =
      feedLines ((spokenLines turns).flatMap fun line => [[], line]) := by
    have split : ((userLines turns).flatMap fun line => '\n' :: line.toList) =
        ((userLines turns).map String.toList).flatMap fun line => '\n' :: line := by
      rw [List.flatMap_map]
    rw [split, userLines_eq, List.flatMap_map]
    unfold feedLines
    rw [List.flatMap_assoc]
    congr 1
    funext line
    show '\n' :: (line ++ ['\n']) = [] ++ ['\n'] ++ (line ++ ['\n'] ++ [])
    rw [List.append_nil]
    rfl
  rw [toList_renderTranscript, lines, String.toList_append]
  unfold transcriptLines feedLines
  rw [List.flatMap_cons]
  rfl

/-- Every line of a transcript of a valid session is prose. -/
theorem proseLine_transcript {sessionId : String} (valid : validSessionId sessionId = true)
    (turns : List TurnEntry) : ∀ line ∈ transcriptLines sessionId turns, ProseLine line := by
  intro line member
  unfold transcriptLines at member
  rcases List.mem_cons.mp member with header | later
  · rw [header]
    exact proseLine_header valid
  · obtain ⟨spoken, known, inside⟩ := List.mem_flatMap.mp later
    obtain ⟨turn, _, same⟩ := List.mem_map.mp known
    rcases List.mem_cons.mp inside with empty | last
    · rw [empty]
      exact ProseLine.nil
    · rw [List.mem_singleton.mp last, ← same]
      exact proseLine_spoken turn

section
variable [Blake3]

/-- The claims the extractor finds in a text, read in the place of a document's own, without their
ids, line numbers and offsets. -/
def claimsFound (document : MarkdownDocument) (workspaceId : String) (observedAtMs : Nat)
    (text : String) : Except TexoError (List ClaimRecordedV2) :=
  (extractHeuristicClaims { document with lines := parseLines text } workspaceId observedAtMs).map
    (List.map apart)

/-- The claim of the text of a line. -/
def textClaim (document : MarkdownDocument) (sourceId : SourceId) (workspaceId : String)
    (observedAtMs : Nat) (text : String) : Option ClaimRecordedV2 :=
  (heuristicClaim document sourceId workspaceId observedAtMs ⟨0, text, 0⟩).map apart

/-- Apart from ids, numbers and offsets a claim follows from the text of its line. -/
theorem heuristicClaim_apart (document : MarkdownDocument) (sourceId : SourceId)
    (workspaceId : String) (observedAtMs : Nat) (line : MarkdownLine) :
    (heuristicClaim document sourceId workspaceId observedAtMs line).map apart =
      textClaim document sourceId workspaceId observedAtMs line.text := by
  unfold textClaim heuristicClaim
  simp only [Option.map_map]
  rfl

/-- Apart from ids, numbers and offsets the claims of a text follow from the texts of its lines. -/
theorem claimsFound_eq {document : MarkdownDocument} {sourceId : SourceId}
    (named : sourceIdOf document.sourceId = .ok sourceId) (workspaceId : String)
    (observedAtMs : Nat) (text : String) :
    claimsFound document workspaceId observedAtMs text =
      .ok (((parseLines text).map MarkdownLine.text).filterMap
        (textClaim document sourceId workspaceId observedAtMs)) := by
  unfold claimsFound extractHeuristicClaims
  show ((sourceIdOf document.sourceId).map _).map _ = _
  rw [named]
  show Except.ok _ = _
  rw [List.map_filterMap, List.filterMap_map]
  congr 1
  apply List.filterMap_congr
  intro line _
  exact heuristicClaim_apart document sourceId workspaceId observedAtMs line

/-- An empty line claims nothing. -/
theorem textClaim_empty (document : MarkdownDocument) (sourceId : SourceId) (workspaceId : String)
    (observedAtMs : Nat) : textClaim document sourceId workspaceId observedAtMs "" = none := by
  have silent : ∀ normalized, hintsFromLineNormalized "" normalized = none := by
    intro normalized
    have blank : isClaimLine "".toList = false := by decide
    unfold hintsFromLineNormalized
    rw [if_pos (by rw [blank]; rfl)]
  unfold textClaim heuristicClaim
  simp only [silent]
  rfl

/-- A line claims something exactly where it is a claim line. -/
theorem textClaim_eq_none {document : MarkdownDocument} {sourceId : SourceId}
    {workspaceId : String} {observedAtMs : Nat} {text : String}
    (wordy : normalizeLine text ≠ "") :
    textClaim document sourceId workspaceId observedAtMs text = none ↔
      isClaimLine text.toList = false := by
  unfold textClaim heuristicClaim hintsFromLineNormalized
  cases claims : isClaimLine text.toList with
  | false => simp
  | true => simp [wordy]

/-- The claims of a prose text, line by line. -/
theorem claimsFound_prose {document : MarkdownDocument} {sourceId : SourceId}
    (named : sourceIdOf document.sourceId = .ok sourceId) (workspaceId : String)
    (observedAtMs : Nat) {lines : List (List Char)} (prose : ∀ line ∈ lines, ProseLine line)
    {text : String} (whole : text.toList = feedLines lines) :
    claimsFound document workspaceId observedAtMs text =
      .ok (lines.filterMap fun line =>
        (extractable line).bind (textClaim document sourceId workspaceId observedAtMs)) := by
  rw [claimsFound_eq named, texts_parseLines prose whole, List.filterMap_filterMap]

/-- The claim of a line, if it is short enough to be extracted. -/
def lineClaim (document : MarkdownDocument) (sourceId : SourceId) (workspaceId : String)
    (observedAtMs : Nat) (line : List Char) : Option ClaimRecordedV2 :=
  (extractable line).bind (textClaim document sourceId workspaceId observedAtMs)

omit [Blake3] in
/-- Empty lines between others add no claim. -/
theorem filterMap_spaced {claim : List Char → Option ClaimRecordedV2} (silent : claim [] = none)
    (lines : List (List Char)) :
    (lines.flatMap fun line => [[], line]).filterMap claim = lines.filterMap claim := by
  induction lines with
  | nil => rfl
  | cons line lines ih =>
    rw [List.flatMap_cons, List.filterMap_append, ih, List.filterMap_cons_none silent,
      ← List.filterMap_append]
    rfl

/-- The claims of a transcript are those of its header and of the spoken lines. -/
theorem claimsFound_transcript {document : MarkdownDocument} {sourceId : SourceId}
    (named : sourceIdOf document.sourceId = .ok sourceId) {sessionId : String}
    (valid : validSessionId sessionId = true) (turns : List TurnEntry) (workspaceId : String)
    (observedAtMs : Nat) :
    claimsFound document workspaceId observedAtMs (renderTranscript sessionId turns false) =
      .ok ((textClaim document sourceId workspaceId observedAtMs (headerLine sessionId)).toList ++
        (spokenLines turns).filterMap
          (lineClaim document sourceId workspaceId observedAtMs)) := by
  have silent : lineClaim document sourceId workspaceId observedAtMs [] = none :=
    textClaim_empty document sourceId workspaceId observedAtMs
  have header : lineClaim document sourceId workspaceId observedAtMs (headerLine sessionId).toList =
      textClaim document sourceId workspaceId observedAtMs (headerLine sessionId) := by
    unfold lineClaim
    rw [extractable_header valid]
    rfl
  rw [claimsFound_prose named workspaceId observedAtMs (proseLine_transcript valid turns)
    (feedLines_transcript sessionId turns)]
  show Except.ok ((transcriptLines sessionId turns).filterMap
    (lineClaim document sourceId workspaceId observedAtMs)) = _
  congr 1
  have spaced := filterMap_spaced silent (spokenLines turns)
  unfold transcriptLines
  rw [← spaced, ← header]
  cases first : lineClaim document sourceId workspaceId observedAtMs (headerLine sessionId).toList with
  | none => exact List.filterMap_cons_none first
  | some claim => exact List.filterMap_cons_some first

/-- The claims of the lines of user turns, each alone, are those of the spoken lines. -/
theorem claimsFound_userLines {document : MarkdownDocument} {sourceId : SourceId}
    (named : sourceIdOf document.sourceId = .ok sourceId) (turns : List TurnEntry)
    (workspaceId : String) (observedAtMs : Nat) :
    ((userLines turns).mapM (claimsFound document workspaceId observedAtMs)).map List.flatten =
      .ok ((spokenLines turns).filterMap
        (lineClaim document sourceId workspaceId observedAtMs)) := by
  have each : ∀ line ∈ userLines turns,
      claimsFound document workspaceId observedAtMs line =
        .ok ([line.toList.dropLast].filterMap
          (lineClaim document sourceId workspaceId observedAtMs)) := by
    intro line member
    have known : line.toList ∈ (spokenLines turns).map (· ++ ['\n']) := by
      rw [← userLines_eq]
      exact List.mem_map.mpr ⟨line, member, rfl⟩
    obtain ⟨spoken, inside, same⟩ := List.mem_map.mp known
    obtain ⟨turn, _, said⟩ := List.mem_map.mp inside
    have prose : ∀ other ∈ [spoken], ProseLine other := by
      intro other only
      rw [List.mem_singleton.mp only, ← said]
      exact proseLine_spoken turn
    have whole : line.toList = feedLines [spoken] := by
      rw [← same]
      exact (List.append_nil _).symm
    rw [claimsFound_prose named workspaceId observedAtMs prose whole, ← same, List.dropLast_concat]
    rfl
  rw [Foundation.mapM_of_ok each]
  show Except.ok (List.flatten _) = _
  congr 1
  rw [← List.flatMap_def]
  have split : (userLines turns).flatMap (fun line => [line.toList.dropLast].filterMap
      (lineClaim document sourceId workspaceId observedAtMs)) =
      ((userLines turns).map String.toList).flatMap fun line => [line.dropLast].filterMap
        (lineClaim document sourceId workspaceId observedAtMs) := by
    rw [List.flatMap_map]
  rw [split, userLines_eq, List.flatMap_map]
  have single : ∀ line : List Char,
      [line].filterMap (lineClaim document sourceId workspaceId observedAtMs) =
        (lineClaim document sourceId workspaceId observedAtMs line).toList := by
    intro line
    cases found : lineClaim document sourceId workspaceId observedAtMs line with
    | none => exact List.filterMap_cons_none found
    | some claim => exact List.filterMap_cons_some found
  simp only [List.dropLast_concat, single]
  exact (List.filterMap_eq_flatMap_toList _ _).symm

/-- The claims of a transcript. For every valid session and stored turns, the claims extracted from
the transcript that session end writes are, apart from ids, line numbers and offsets, those of the
lines of its user turns each alone, in turn order, if and only if the header line with the session
id is no claim line. -/
theorem transcript_claims_iff {path sessionId : String} {turns : List TurnEntry}
    {document : MarkdownDocument} (valid : validSessionId sessionId = true)
    (parsed : MarkdownDocument.fromPath path (.text (renderTranscript sessionId turns false)) =
      .ok document) (workspaceId : String) (observedAtMs : Nat) :
    (extractHeuristicClaims document workspaceId observedAtMs).map (List.map apart) =
        ((userLines turns).mapM (claimsFound document workspaceId observedAtMs)).map List.flatten ↔
      isClaimLine (headerLine sessionId).toList = false := by
  simp only [MarkdownDocument.fromPath, MarkdownDocument.fromBytes] at parsed
  split at parsed
  · cases parsed
  · rename_i sourceId _
    have same := Except.ok.inj parsed
    have named : sourceIdOf document.sourceId = .ok sourceId := by
      rw [← same, sourceIdOf, Branded.tryFrom_value sourceId (by decide)]
    have own : extractHeuristicClaims document workspaceId observedAtMs =
        extractHeuristicClaims
          { document with lines := parseLines (renderTranscript sessionId turns false) }
          workspaceId observedAtMs := by
      rw [← same]
    have whole := claimsFound_transcript named valid turns workspaceId observedAtMs
    unfold claimsFound at whole
    rw [own, whole, claimsFound_userLines named]
    have wordy : normalizeLine (headerLine sessionId) ≠ "" :=
      normalizeLine_ne_empty (toList_headerLine sessionId) (by decide) (by decide)
    rw [Except.ok.injEq, List.append_left_eq_self, Option.toList_eq_nil_iff]
    exact textClaim_eq_none wordy

end

/-- The size of some bytes, in place of their digest. -/
@[reducible] def longDigest : Blake3 where
  hex bytes := toString (1000000000000 + bytes.length)

/-- A user turn that claims nothing. -/
def helloTurn (sessionId : String) : TurnEntry := ⟨sessionId, "demo", "user", "hello", 1, 1⟩

/-- The document of a transcript of that turn alone. -/
def helloDocument (sessionId bodyHashHex sourceId : String) : MarkdownDocument where
  path := "sessions/" ++ sessionId ++ ".md"
  bodyHashHex := bodyHashHex
  sourceId := sourceId
  lines := parseLines (renderTranscript sessionId [helloTurn sessionId] false)

/-- The transcript of session `s1` has the claims of its user turns. -/
theorem transcript_claims_s1 :
    let _ := longDigest
    (extractHeuristicClaims (helloDocument "s1" "1000000000026" "src_100000000002") "demo" 1).map
        (List.map apart) =
      ((userLines [helloTurn "s1"]).mapM (claimsFound
        (helloDocument "s1" "1000000000026" "src_100000000002") "demo" 1)).map List.flatten := by
  let _ := longDigest
  have parsed : MarkdownDocument.fromPath "sessions/s1.md"
      (.text (renderTranscript "s1" [helloTurn "s1"] false)) =
        .ok (helloDocument "s1" "1000000000026" "src_100000000002") := by decide +kernel
  exact (transcript_claims_iff (by decide) parsed "demo" 1).mpr (by decide +kernel)

/-- The header of session `friday` is a claim of its transcript, which its one user turn does not
make. -/
theorem friday_header_claims :
    let _ := longDigest
    MarkdownDocument.fromPath "sessions/friday.md"
        (.text (renderTranscript "friday" [helloTurn "friday"] false)) =
        .ok (helloDocument "friday" "1000000000030" "src_100000000003") ∧
      (extractHeuristicClaims (helloDocument "friday" "1000000000030" "src_100000000003") "demo"
          1).map (List.map ClaimRecordedV2.text) = .ok ["# Session friday"] ∧
      (extractHeuristicClaims (helloDocument "friday" "1000000000030" "src_100000000003") "demo"
          1).map (List.map apart) ≠
        ((userLines [helloTurn "friday"]).mapM (claimsFound
          (helloDocument "friday" "1000000000030" "src_100000000003") "demo" 1)).map
            List.flatten := by
  decide +kernel

end Texo.Ingest
