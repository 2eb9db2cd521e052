import Texo.CodeIndex.Scip
import Texo.CodeIndex.Context

/-! # The ranges of imported occurrences

A SCIP range names two lines and a column on each. `resolve_range` adds the columns to the starts of
the lines and compares the sum with the end of the file alone, so a column may run past the end of
its line, and an empty range may stand inside a character. Every other range that is imported
denotes the text it names.
-/
namespace Texo.CodeIndex
open Texo.Foundation Texo.Events Texo.Knowledge Texo.Ops

/-- An offset falls on a zero-based line, on its content or its terminator: so many line feeds come
before it. -/
def OnLine (bytes : List UInt8) (line offset : Nat) : Prop :=
  offset ≤ bytes.length ∧ countNewlines (bytes.take offset) = line

/-- A recorded line start lies behind its line feed. -/
theorem lineOffsetsFrom_spec {bytes : List UInt8} {offset place start : Nat}
    (located : (lineOffsetsFrom bytes offset)[place]? = some start) :
    offset < start ∧ start ≤ offset + bytes.length ∧
      countNewlines (bytes.take (start - offset)) = place + 1 := by
  induction bytes generalizing offset place with
  | nil => cases located
  | cons byte rest ih =>
    have step : ∀ less, start = offset + 1 + less → countNewlines ((byte :: rest).take (start - offset)) =
        countNewlines (rest.take less) + if byte = 10 then 1 else 0 := by
      intro less same
      rw [show start - offset = less + 1 by omega, List.take_succ_cons]
      unfold countNewlines
      rw [List.countP_cons]
      simp
    unfold lineOffsetsFrom at located
    by_cases feed : byte = 10
    · rw [if_pos feed] at located
      cases place with
      | zero =>
        cases located
        refine ⟨by omega, by rw [List.length_cons]; omega, ?_⟩
        rw [step 0 rfl, if_pos feed]
        rfl
      | succ place =>
        obtain ⟨after, within, counted⟩ := ih located
        refine ⟨by omega, by rw [List.length_cons]; omega, ?_⟩
        rw [step (start - (offset + 1)) (by omega), counted, if_pos feed]
    · rw [if_neg feed] at located
      obtain ⟨after, within, counted⟩ := ih located
      refine ⟨by omega, by rw [List.length_cons]; omega, ?_⟩
      rw [step (start - (offset + 1)) (by omega), counted, if_neg feed]

/-- A line starts on itself. -/
theorem lineOffsets_onLine {bytes : List UInt8} {line start : Nat}
    (located : (lineOffsets bytes)[line]? = some start) : OnLine bytes line start := by
  unfold lineOffsets at located
  cases line with
  | zero =>
    cases located
    exact ⟨Nat.zero_le _, rfl⟩
  | succ line =>
    obtain ⟨_, within, counted⟩ := lineOffsetsFrom_spec located
    rw [Nat.sub_zero] at counted
    exact ⟨by omega, counted⟩

/-- A column stays on its line as far as it passes no line feed. -/
theorem OnLine.add_iff {bytes : List UInt8} {line start column : Nat} (starts : OnLine bytes line start)
    (within : start + column ≤ bytes.length) :
    OnLine bytes line (start + column) ↔ 10 ∉ byteSlice bytes (start, start + column) := by
  have slice : byteSlice bytes (start, start + column) = (bytes.drop start).take column := by
    unfold byteSlice
    rw [Nat.add_sub_cancel_left]
  have counted : countNewlines (bytes.take (start + column)) =
      line + countNewlines (byteSlice bytes (start, start + column)) := by
    rw [slice, List.take_add]
    unfold countNewlines
    rw [List.countP_append]
    exact congrArg (· + _) starts.2
  have free : countNewlines (byteSlice bytes (start, start + column)) = 0 ↔
      10 ∉ byteSlice bytes (start, start + column) := by
    unfold countNewlines
    rw [List.countP_eq_zero]
    constructor
    · intro all member
      exact all 10 member rfl
    · intro clear byte member same
      rw [beq_iff_eq.mp same] at member
      exact clear member
  constructor
  · intro on
    apply free.mp
    have same := on.2
    omega
  · intro clear
    refine ⟨within, ?_⟩
    rw [counted, free.mpr clear, Nat.add_zero]

/-- The range of an occurrence resolves: its lines are there and in order, and its bytes are in
order and inside the file. -/
structure Resolves (bytes : List UInt8) (occurrence : ScipOccurrence) (range : ZeroRange)
    (startLine endLine : Nat) : Prop where
  named : scipRange occurrence = some range
  startAt : (lineOffsets bytes)[range.startLine]? = some startLine
  endAt : (lineOffsets bytes)[range.endLine]? = some endLine
  ordered : range.startLine ≤ range.endLine
  forward : startLine + range.startCharacter ≤ endLine + range.endCharacter
  within : endLine + range.endCharacter ≤ bytes.length

/-- What resolving gives. -/
theorem resolveRange_eq_some {bytes : List UInt8} {occurrence : ScipOccurrence}
    {byteRange lineRange : Nat × Nat} :
    (scipRange occurrence).bind (resolveRange (lineOffsets bytes) bytes) =
        some (byteRange, lineRange) ↔
      ∃ range startLine endLine, Resolves bytes occurrence range startLine endLine ∧
        byteRange = (startLine + range.startCharacter, endLine + range.endCharacter) ∧
        lineRange = (range.startLine + 1, range.endLine + 1) := by
  rw [Option.bind_eq_some_iff]
  constructor
  · rintro ⟨range, named, resolved⟩
    unfold resolveRange at resolved
    obtain ⟨startLine, startAt, rest⟩ := Option.bind_eq_some_iff.mp resolved
    obtain ⟨endLine, endAt, rest⟩ := Option.bind_eq_some_iff.mp rest
    simp only at rest
    split at rest
    · cases rest
    · rename_i inside
      obtain ⟨bytes_, ordered, rest⟩ := Option.bind_eq_some_iff.mp rest
      obtain ⟨lines, named_, rest⟩ := Option.bind_eq_some_iff.mp rest
      cases rest
      unfold byteRangeOf at ordered
      rw [if_neg (by show ¬ _ < _; omega)] at ordered
      cases ordered
      unfold lineRangeOf at named_
      split at named_
      · cases named_
      · rename_i lawful
        cases named_
        exact ⟨range, startLine, endLine, ⟨named, startAt, endAt, by omega, by omega, by omega⟩, rfl,
          rfl⟩
  · rintro ⟨range, startLine, endLine, resolves, rfl, rfl⟩
    have forward := resolves.forward
    have within := resolves.within
    have ordered := resolves.ordered
    refine ⟨range, resolves.named, ?_⟩
    unfold resolveRange
    rw [resolves.startAt, resolves.endAt]
    show (if _ ∨ _ then _ else _) = _
    rw [if_neg (by omega)]
    unfold byteRangeOf lineRangeOf
    rw [if_neg (by show ¬ _ < _; omega), if_neg (by omega)]
    rfl

/-- Where a character opens, no byte continues one. -/
theorem not_continues_of_opensAt {bytes : List UInt8} {offset : Nat} (opens : OpensAt bytes offset) :
    ¬(bytes[offset]?).any continuesChar = true := by
  cases located : bytes[offset]? with
  | none => simp
  | some byte =>
    intro continues
    exact opens byte located (beq_iff_eq.mp continues)

/-- A move forward over continuing bytes does not pass an offset where a character opens. -/
theorem skipForward_le {bytes : List UInt8} {room first opening : Nat} (ahead : first ≤ opening)
    (inside : opening ≤ first + room) (fresh : OpensAt bytes opening) :
    skipForward bytes room first ≤ opening := by
  induction room generalizing first with
  | zero => exact ahead
  | succ room ih =>
    unfold skipForward
    by_cases continuing : (bytes[first]?).any continuesChar = true
    · rw [if_pos continuing]
      apply ih _ (by omega)
      by_contra here
      have same : first = opening := by omega
      rw [same] at continuing
      exact not_continues_of_opensAt fresh continuing
    · rw [if_neg continuing]
      exact ahead

/-- A move back over continuing bytes does not pass an offset where a character opens. -/
theorem le_skipBackward {bytes : List UInt8} {room last opening : Nat} (behind : opening ≤ last)
    (inside : last ≤ opening + room) (fresh : OpensAt bytes opening) :
    opening ≤ skipBackward bytes room last := by
  induction room generalizing last with
  | zero => exact behind
  | succ room ih =>
    unfold skipBackward
    by_cases continuing : (bytes[last]?).any continuesChar = true
    · rw [if_pos continuing]
      apply ih _ (by omega)
      by_contra here
      have same : last = opening := by omega
      rw [same] at continuing
      exact not_continues_of_opensAt fresh continuing
    · rw [if_neg continuing]
      exact behind

/-- The window around an empty occurrence inside a character reaches both ends of the character. -/
theorem contextWindow_inside {bytes : List UInt8} {offset start stop : Nat}
    (inside : InsideChar bytes offset start stop) :
    (contextWindow bytes offset offset).1 ≤ start ∧ stop ≤ (contextWindow bytes offset offset).2 := by
  have after := inside.after
  have before := inside.before
  have near := inside.near
  have whole := inside.within
  have within : offset ≤ bytes.length := by omega
  obtain ⟨low, _⟩ := lineStartOf_spec within
  obtain ⟨high, _, _⟩ := lineEndOf_spec within
  have left : lineStartOf bytes offset ≤ start := by
    by_contra beyond
    have feed := lineStartOf_feed within (by omega)
    exact inside.oneLine _ (by omega) (by omega) feed
  have right : stop ≤ lineEndOf bytes offset := by
    by_contra short
    have feed := lineEndOf_feed (by omega : lineEndOf bytes offset < bytes.length)
    exact inside.oneLine _ (by omega) (by omega) feed
  have room : 16 ≤ maxEvidenceExcerptBytes := by decide
  unfold contextWindow
  generalize maxEvidenceExcerptBytes = cap at room ⊢
  generalize lineStartOf bytes offset = lineStart at left low ⊢
  generalize lineEndOf bytes offset = lineEnd at right high ⊢
  simp only
  split
  · simp only
    omega
  · simp only
    omega

/-- An empty occurrence has a context wherever it stands. -/
theorem sourceContext_empty {text : String} {offset : Nat} (within : offset ≤ (asBytes text).length) :
    ∃ found, sourceContext (asBytes text) offset offset = some found := by
  by_cases boundary : CharBoundary text offset
  · obtain ⟨found, read, _⟩ := sourceContext_exists (Nat.le_refl offset) boundary boundary (by omega)
    exact ⟨found, read⟩
  · obtain ⟨start, stop, inside⟩ : ∃ start stop, InsideChar (asBytes text) offset start stop :=
      inside_of_not_boundary within boundary
    have short : offset - offset ≤ maxEvidenceExcerptBytes := by omega
    have widened := contextRange_widened (Nat.le_refl offset) within short
    obtain ⟨low, high⟩ := contextWindow_inside inside
    have after := inside.after
    have before := inside.before
    have left : (contextRange (asBytes text) offset offset).1 ≤ start := by
      apply skipForward_le low
      · omega
      · exact inside.opens
    have right : stop ≤ (contextRange (asBytes text) offset offset).2 := by
      apply le_skipBackward high
      · omega
      · exact inside.closes
    have opens : CharBoundary text (contextRange (asBytes text) offset offset).1 := by
      rcases widened.opens with same | free
      · omega
      · exact boundary_of_continues (by omega) free
    have closes : CharBoundary text (contextRange (asBytes text) offset offset).2 := by
      rcases widened.closes with same | free
      · omega
      · exact boundary_of_continues widened.within free
    have ordered : (contextRange (asBytes text) offset offset).1 ≤
        (contextRange (asBytes text) offset offset).2 := by omega
    obtain ⟨context, read⟩ := Option.isSome_iff_exists.mp
      ((fromUtf8_slice ordered widened.within).mpr (Or.inr ⟨opens, closes⟩))
    rw [sourceContext_eq (Nat.le_refl offset) within short]
    show ∃ found, (fromUtf8 (byteSlice (asBytes text) ((contextRange (asBytes text) offset offset).1,
      (contextRange (asBytes text) offset offset).2))).map _ = some found
    rw [read]
    exact ⟨_, rfl⟩

/-- The text between two offsets of a file is as long as they are apart. -/
theorem length_byteSlice {bytes : List UInt8} {first last : Nat} (within : last ≤ bytes.length) :
    (byteSlice bytes (first, last)).length = last - first := by
  unfold byteSlice
  rw [List.length_take, List.length_drop]
  omega

/-- What a recorded occurrence has to denote: bytes in order between characters of the source, each
end on the line that the range names for it, and the text and the lines of the same bytes. -/
structure Denotes (text : String) (occurrence : ScipOccurrence) (found : CodeOccurrence) : Prop where
  forward : found.byteRange.1 ≤ found.byteRange.2
  opens : CharBoundary text found.byteRange.1
  closes : CharBoundary text found.byteRange.2
  excerpt : asBytes found.excerpt = byteSlice (asBytes text) found.byteRange
  onLines : ∃ range, scipRange occurrence = some range ∧
    OnLine (asBytes text) range.startLine found.byteRange.1 ∧
    OnLine (asBytes text) range.endLine found.byteRange.2 ∧
    found.lineRange = (range.startLine + 1, range.endLine + 1)

/-- Where the range of an occurrence resolves to at most an excerpt of bytes and cuts no character,
neither column passes the end of its line, and an empty range stands inside no character. -/
def RangeSound (text : String) (occurrence : ScipOccurrence) : Prop :=
  ∀ range startLine endLine, Resolves (asBytes text) occurrence range startLine endLine →
    endLine + range.endCharacter - (startLine + range.startCharacter) ≤ maxEvidenceExcerptBytes →
    (startLine + range.startCharacter = endLine + range.endCharacter ∨
      (CharBoundary text (startLine + range.startCharacter) ∧
        CharBoundary text (endLine + range.endCharacter))) →
    10 ∉ byteSlice (asBytes text) (startLine, startLine + range.startCharacter) ∧
      10 ∉ byteSlice (asBytes text) (endLine, endLine + range.endCharacter) ∧
      CharBoundary text (startLine + range.startCharacter)

section
variable [Blake3]

/-- What a recorded occurrence records of its range. -/
theorem importScipOccurrence_found {document : ScipDocument} {source : CapturedSource}
    {analyzer text : String} {occurrence : ScipOccurrence} {found : CodeOccurrence}
    (reads : source.bytes = asBytes text)
    (recorded : importScipOccurrence document source analyzer occurrence = .found found) :
    occurrence.symbol ≠ "" ∧ ∃ range startLine endLine,
      Resolves (asBytes text) occurrence range startLine endLine ∧
      found.byteRange = (startLine + range.startCharacter, endLine + range.endCharacter) ∧
      found.lineRange = (range.startLine + 1, range.endLine + 1) ∧
      asBytes found.excerpt = byteSlice (asBytes text) found.byteRange ∧
      endLine + range.endCharacter - (startLine + range.startCharacter) ≤ maxEvidenceExcerptBytes ∧
      (startLine + range.startCharacter = endLine + range.endCharacter ∨
        (CharBoundary text (startLine + range.startCharacter) ∧
          CharBoundary text (endLine + range.endCharacter))) := by
  unfold importScipOccurrence at recorded
  rw [reads] at recorded
  split at recorded
  · cases recorded
  · rename_i named
    split at recorded
    · cases recorded
    · rename_i byteRange lineRange resolved
      obtain ⟨range, startLine, endLine, resolves, bytes, lines⟩ := resolveRange_eq_some.mp resolved
      split at recorded
      · cases recorded
      · rename_i excerpt read
        split at recorded
        · cases recorded
        · rename_i short
          split at recorded
          · cases recorded
          · cases recorded
            have listed := fromUtf8_eq_some.mp read
            have size : excerpt.utf8ByteSize =
                endLine + range.endCharacter - (startLine + range.startCharacter) := by
              rw [← length_encodeChars_toList]
              show (asBytes excerpt).length = _
              rw [listed, bytes]
              exact length_byteSlice resolves.within
            refine ⟨named, range, startLine, endLine, resolves, bytes, lines, listed, by omega, ?_⟩
            apply (fromUtf8_slice resolves.forward resolves.within).mp
            rw [← bytes, read]
            rfl

/-- An occurrence is recorded where its range resolves to at most an excerpt of bytes and cuts no
character, even where it is empty inside one. -/
theorem importScipOccurrence_records {document : ScipDocument} {source : CapturedSource}
    {text : String} {occurrence : ScipOccurrence} {range : ZeroRange} {startLine endLine : Nat}
    (reads : source.bytes = asBytes text) (analyzer : String) (named : occurrence.symbol ≠ "")
    (resolves : Resolves (asBytes text) occurrence range startLine endLine)
    (short : endLine + range.endCharacter - (startLine + range.startCharacter) ≤
      maxEvidenceExcerptBytes)
    (whole : startLine + range.startCharacter = endLine + range.endCharacter ∨
      (CharBoundary text (startLine + range.startCharacter) ∧
        CharBoundary text (endLine + range.endCharacter))) :
    ∃ found, importScipOccurrence document source analyzer occurrence = .found found := by
  have resolved := resolveRange_eq_some.mpr ⟨range, startLine, endLine, resolves, rfl, rfl⟩
  obtain ⟨excerpt, read⟩ := Option.isSome_iff_exists.mp
    ((fromUtf8_slice resolves.forward resolves.within).mpr whole)
  have size : excerpt.utf8ByteSize =
      endLine + range.endCharacter - (startLine + range.startCharacter) := by
    rw [← length_encodeChars_toList]
    show (asBytes excerpt).length = _
    rw [fromUtf8_eq_some.mp read]
    exact length_byteSlice resolves.within
  obtain ⟨⟨context, byteRange, lineRange⟩, around⟩ : ∃ found, sourceContext (asBytes text)
      (startLine + range.startCharacter) (endLine + range.endCharacter) = some found := by
    rcases whole with same | ⟨opens, closes⟩
    · rw [same]
      exact sourceContext_empty resolves.within
    · obtain ⟨found, around, _⟩ := sourceContext_exists resolves.forward opens closes short
      exact ⟨found, around⟩
  unfold importScipOccurrence
  rw [if_neg named, reads, resolved]
  dsimp only
  rw [read]
  dsimp only
  rw [if_neg (by omega), around]
  exact ⟨_, rfl⟩

/-- What an occurrence records denotes its range exactly where the range is sound. -/
theorem denotes_iff {document : ScipDocument} {source : CapturedSource} {text : String}
    (reads : source.bytes = asBytes text) (analyzer : String) (occurrence : ScipOccurrence) :
    (∀ found, importScipOccurrence document source analyzer occurrence = .found found →
      Denotes text occurrence found) ↔ occurrence.symbol = "" ∨ RangeSound text occurrence := by
  constructor
  · intro denotes
    by_cases named : occurrence.symbol = ""
    · exact Or.inl named
    · right
      intro range startLine endLine resolves short whole
      obtain ⟨found, recorded⟩ := importScipOccurrence_records reads analyzer named resolves short whole
      have good := denotes found recorded
      obtain ⟨_, range', startLine', endLine', resolves', bytes, _⟩ :=
        importScipOccurrence_found reads recorded
      have sameRange : range' = range := by
        have both := resolves'.named
        rw [resolves.named] at both
        cases both
        rfl
      subst sameRange
      have sameStart : startLine' = startLine := by
        have both := resolves'.startAt
        rw [resolves.startAt] at both
        cases both
        rfl
      have sameEnd : endLine' = endLine := by
        have both := resolves'.endAt
        rw [resolves.endAt] at both
        cases both
        rfl
      subst sameStart sameEnd
      obtain ⟨range'', named', startOn, endOn, _⟩ := good.onLines
      rw [resolves.named] at named'
      cases named'
      have opens := good.opens
      rw [bytes] at startOn endOn opens
      have within := resolves.within
      have forward := resolves.forward
      refine ⟨?_, ?_, opens⟩
      · exact ((lineOffsets_onLine resolves.startAt).add_iff (by omega)).mp startOn
      · exact ((lineOffsets_onLine resolves.endAt).add_iff within).mp endOn
  · rintro (unnamed | sound) found recorded
    · obtain ⟨named, _⟩ := importScipOccurrence_found reads recorded
      exact absurd unnamed named
    · obtain ⟨_, range, startLine, endLine, resolves, bytes, lines, excerpt, short, whole⟩ :=
        importScipOccurrence_found reads recorded
      obtain ⟨startClear, endClear, opens⟩ := sound range startLine endLine resolves short whole
      have within := resolves.within
      have forward := resolves.forward
      refine ⟨?_, ?_, ?_, excerpt, ⟨range, resolves.named, ?_, ?_, lines⟩⟩
      · rw [bytes]
        exact forward
      · rw [bytes]
        exact opens
      · rw [bytes]
        rcases whole with same | ⟨_, closes⟩
        · show CharBoundary text (endLine + range.endCharacter)
          rw [← same]
          exact opens
        · exact closes
      · rw [bytes]
        exact ((lineOffsets_onLine resolves.startAt).add_iff (by omega)).mpr startClear
      · rw [bytes]
        exact ((lineOffsets_onLine resolves.endAt).add_iff within).mpr endClear

end

/-- The coverage reports a gap: it lists the gap, or says that it is truncated. -/
def ArtifactBuilder.Reports (builder : ArtifactBuilder) (gap : CoverageGap) : Prop :=
  gap ∈ builder.gaps ∨ builder.truncated = true

/-- A noted gap is reported. -/
theorem ArtifactBuilder.gap_reports (builder : ArtifactBuilder) (path : Option String)
    (kind : CoverageGapKind) : (builder.gap path kind).Reports ⟨path, kind⟩ := by
  unfold ArtifactBuilder.gap
  split
  · split
    · rename_i known
      exact Or.inl known
    · exact Or.inl (List.mem_append_right _ List.mem_cons_self)
  · exact Or.inr rfl

/-- Noting a gap takes back no report and records nothing. -/
theorem ArtifactBuilder.gap_keeps (builder : ArtifactBuilder) (path : Option String)
    (kind : CoverageGapKind) : (builder.gap path kind).occurrences = builder.occurrences ∧
      (builder.truncated = true → (builder.gap path kind).truncated = true) ∧
      ∀ noted, builder.Reports noted → (builder.gap path kind).Reports noted := by
  unfold ArtifactBuilder.gap
  split
  · split
    · exact ⟨rfl, id, fun _ reported => reported⟩
    · refine ⟨rfl, id, ?_⟩
      rintro noted (listed | cut)
      · exact Or.inl (List.mem_append_left _ listed)
      · exact Or.inr cut
  · exact ⟨rfl, fun _ => rfl, fun _ _ => Or.inr rfl⟩

/-- Pushing an occurrence takes back no report; it records the occurrence, or the coverage is
truncated. -/
theorem ArtifactBuilder.push_spec (builder : ArtifactBuilder) (found : CodeOccurrence) :
    (∀ noted, builder.Reports noted → (builder.push found).1.Reports noted) ∧
      ((builder.push found).2 = true →
        (builder.push found).1.occurrences = builder.occurrences ++ [found]) ∧
      ((builder.push found).2 = false →
        (builder.push found).1.occurrences = builder.occurrences ∧
          (builder.push found).1.truncated = true) := by
  unfold ArtifactBuilder.push
  split
  · have kept := ArtifactBuilder.gap_keeps { builder with truncated := true } none .budgetExceeded
    refine ⟨?_, ?_, ?_⟩
    · intro noted _
      exact kept.2.2 noted (Or.inr rfl)
    · intro pushed
      cases pushed
    · intro _
      exact ⟨kept.1, kept.2.1 rfl⟩
  · refine ⟨fun _ reported => reported, fun _ => rfl, ?_⟩
    intro refused
    cases refused

section
variable [Blake3]

/-- What the loop over some occurrences of a document leaves: it records what they give, keeps every
report and reports every gap they give. -/
structure Imports (document : ScipDocument) (source : CapturedSource) (analyzer : String)
    (occurrences : List ScipOccurrence) (before after : ArtifactBuilder) : Prop where
  records : ∃ kept, after.occurrences = before.occurrences ++ kept ∧ ∀ found ∈ kept,
    ∃ occurrence ∈ occurrences,
      importScipOccurrence document source analyzer occurrence = .found found
  keeps : ∀ noted, before.Reports noted → after.Reports noted
  gaps : ∀ occurrence ∈ occurrences, ∀ kind,
    importScipOccurrence document source analyzer occurrence = .gap kind →
    after.Reports ⟨some document.relativePath, kind⟩

/-- One occurrence, and then the others. -/
theorem Imports.cons {document : ScipDocument} {source : CapturedSource} {analyzer : String}
    {occurrence : ScipOccurrence} {rest : List ScipOccurrence} {before next after : ArtifactBuilder}
    (first : Imports document source analyzer [occurrence] before next)
    (later : Imports document source analyzer rest next after) :
    Imports document source analyzer (occurrence :: rest) before after := by
  obtain ⟨here, grown, gives⟩ := first.records
  obtain ⟨kept, further, gave⟩ := later.records
  refine ⟨⟨here ++ kept, ?_, ?_⟩, ?_, ?_⟩
  · rw [further, grown, List.append_assoc]
  · intro found member
    rcases List.mem_append.mp member with early | late
    · obtain ⟨other, inside, outcome⟩ := gives found early
      exact ⟨other, List.mem_cons.mpr (Or.inl (List.mem_singleton.mp inside)), outcome⟩
    · obtain ⟨other, inside, outcome⟩ := gave found late
      exact ⟨other, List.mem_cons_of_mem _ inside, outcome⟩
  · intro noted reported
    exact later.keeps noted (first.keeps noted reported)
  · intro other member kind outcome
    rcases List.mem_cons.mp member with rfl | inside
    · exact later.keeps _ (first.gaps other List.mem_cons_self kind outcome)
    · exact later.gaps other inside kind outcome

/-- The loop over the occurrences of a document. -/
theorem importScipOccurrences_imports (document : ScipDocument) (source : CapturedSource)
    (analyzer : String) (occurrences : List ScipOccurrence) (builder : ArtifactBuilder) :
    Imports document source analyzer occurrences builder
      (importScipOccurrences document source analyzer occurrences builder) := by
  induction occurrences generalizing builder with
  | nil => exact ⟨⟨[], by simp [importScipOccurrences], by simp⟩, fun _ reported => reported, by simp⟩
  | cons occurrence rest ih =>
    unfold importScipOccurrences
    cases outcome : importScipOccurrence document source analyzer occurrence with
    | skip =>
      apply Imports.cons _ (ih builder)
      refine ⟨⟨[], by simp, by simp⟩, fun _ reported => reported, ?_⟩
      intro other member kind gave
      rw [List.mem_singleton.mp member, outcome] at gave
      cases gave
    | gap kind =>
      obtain ⟨same, _, keeps⟩ := builder.gap_keeps (some document.relativePath) kind
      apply Imports.cons _ (ih _)
      refine ⟨⟨[], by simp [same], by simp⟩, keeps, ?_⟩
      intro other member kind' gave
      rw [List.mem_singleton.mp member, outcome] at gave
      cases gave
      exact builder.gap_reports _ _
    | found found =>
      obtain ⟨keeps, pushed, refused⟩ := builder.push_spec found
      dsimp only
      cases kept : (builder.push found).2 with
      | true =>
        rw [if_pos rfl]
        apply Imports.cons _ (ih _)
        refine ⟨⟨[found], pushed kept, ?_⟩, keeps, ?_⟩
        · intro other member
          rw [List.mem_singleton.mp member]
          exact ⟨occurrence, List.mem_cons_self, outcome⟩
        · intro other member kind gave
          rw [List.mem_singleton.mp member, outcome] at gave
          cases gave
      | false =>
        rw [if_neg (by simp)]
        obtain ⟨same, cut⟩ := refused kept
        exact ⟨⟨[], by simp [same], by simp⟩, keeps, fun _ _ _ _ => Or.inr cut⟩

/-- The importer accepts a document: its path is safe and captured, its positions count UTF-8 code
units, and its source is the bytes of a text. -/
structure Accepted (sources : List CapturedSource) (document : ScipDocument)
    (source : CapturedSource) (text : String) : Prop where
  safe : Git.safeRelativePath document.relativePath = true
  captured : sourceAt sources document.relativePath = some source
  utf8 : positionIsUtf8 document = true
  reads : fromUtf8 source.bytes = some text

/-- The import of an accepted document is the loop over its occurrences. -/
theorem Accepted.importScipDocument_eq {sources : List CapturedSource} {document : ScipDocument}
    {source : CapturedSource} {text : String} (accepted : Accepted sources document source text)
    (analyzer : String) (builder : ArtifactBuilder) :
    (importScipDocument sources analyzer document builder).1 =
      importScipOccurrences document source analyzer document.occurrences builder.examine := by
  unfold importScipDocument
  simp only
  rw [accepted.safe, accepted.captured]
  dsimp only
  rw [accepted.utf8, accepted.reads]
  rfl

end

/-- A source of two lines. -/
def twoLines : CapturedSource :=
  { path := "a.rs", bytes := asBytes "ab\ncd", blobId := none, layer := .committed }

/-- An occurrence whose end column is past the end of its line. -/
def pastLine : ScipOccurrence :=
  { range := [0, 0, 4], typedRange := none, symbol := "s", symbolRoles := 0 }

/-- A document of one occurrence. -/
def pastLineDocument : ScipDocument :=
  { relativePath := "a.rs"
    positionEncoding := .utf8CodeUnitOffsetFromLineStart
    occurrences := [pastLine] }

/-- The document is accepted. -/
theorem pastLine_accepted : Accepted [twoLines] pastLineDocument twoLines "ab\ncd" where
  safe := by decide +kernel
  captured := by decide +kernel
  utf8 := by decide
  reads := fromUtf8_eq_some.mpr rfl

/-- The range of the occurrence resolves, to the first four bytes. -/
theorem pastLine_resolves : Resolves (asBytes "ab\ncd") pastLine ⟨0, 0, 0, 4⟩ 0 0 where
  named := by decide
  startAt := rfl
  endAt := rfl
  ordered := Nat.le_refl 0
  forward := by decide
  within := by decide +kernel

end Texo.CodeIndex
