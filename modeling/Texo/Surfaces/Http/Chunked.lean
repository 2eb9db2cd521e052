import Texo.Extract.Words
import Texo.Foundation.CharBoundary
import Texo.Foundation.Fields
import Texo.Foundation.Folds
import Texo.Foundation.Search
import Texo.Ops.Capture

/-! # Chunked bodies

A chunked body is a run of chunks, each behind a line with its size, a line of size zero and the
trailers up to an empty line. The decoder reads exactly these; the size of a chunk may be signed.
-/
namespace Texo.Surfaces.Http
open Texo.Events Texo.Extract Texo.Foundation Texo.Ops

/-- `HttpClientError`, the failures of decoding a body. -/
inductive DecodeError where
  | malformedResponse (detail : String)
  | bodyTooLarge
deriving DecidableEq, Repr

section Decoder

/-- `BufRead::read_until`: the bytes through the delimiter, and what is left. -/
def readUntil (delimiter : UInt8) (stream : List UInt8) : List UInt8 × List UInt8 :=
  match splitOnce [delimiter] stream with
  | none => (stream, [])
  | some (front, rest) => (front ++ [delimiter], rest)

/-- The text of a line, without its end. -/
def lineText (bytes : List UInt8) : Except DecodeError (List Char) :=
  if bytes = [] then
    .error (.malformedResponse "truncated chunked body")
  else if [13, 10] <:+ bytes then
    match fromUtf8 (bytes.take (bytes.length - 2)) with
    | none => .error (.malformedResponse "chunk line was not UTF-8")
    | some text => .ok text.toList
  else
    .error (.malformedResponse "chunk line missing CRLF")

/-- `read_line`. -/
def readLine (stream : List UInt8) : Except DecodeError (List Char × List UInt8) := do
  let line ← lineText (readUntil 10 stream).1
  .ok (line, (readUntil 10 stream).2)

/-- `read_exact_chunk`. -/
def readExactChunk (count : Nat) (during : String) (stream : List UInt8) :
    Except DecodeError (List UInt8 × List UInt8) :=
  if stream.length < count then .error (.malformedResponse ("truncated " ++ during))
  else .ok (stream.take count, stream.drop count)

/-- `char::to_digit`, of base 16. -/
def hexDigit (c : Char) : Option Nat :=
  if '0' ≤ c ∧ c ≤ '9' then some (c.toNat - '0'.toNat)
  else if 'a' ≤ c ∧ c ≤ 'f' then some (c.toNat - 'a'.toNat + 10)
  else if 'A' ≤ c ∧ c ≤ 'F' then some (c.toNat - 'A'.toNat + 10)
  else none

/-- The value of hexadecimal digits. -/
def hexValue (digits : List Char) : Nat :=
  digits.foldl (fun value c => value * 16 + (hexDigit c).getD 0) 0

/-- `usize::from_str_radix`, of base 16. -/
def fromStrRadix (text : List Char) : Option Nat :=
  if numeralDigits text ≠ [] ∧ ((numeralDigits text).all fun c => (hexDigit c).isSome) = true ∧
      hexValue (numeralDigits text) < 2 ^ 64 then
    some (hexValue (numeralDigits text))
  else
    none

/-- The size field of a line: what stands before an extension, without the white space around. -/
def sizeText (line : List Char) : List Char :=
  match splitOnce [';'] line with
  | none => trim line
  | some (head, _) => trim head

/-- The size a line announces. -/
def chunkSize (line : List Char) : Except DecodeError Nat :=
  if sizeText line = [] then
    .error (.malformedResponse "empty chunk size")
  else
    match fromStrRadix (sizeText line) with
    | none => .error (.malformedResponse "invalid chunk size")
    | some size => .ok size

/-- `consume_trailers`, for at most as many lines as there are bytes. -/
def consumeTrailers : Nat → List UInt8 → Except DecodeError (List UInt8)
  | 0, _ => .error (.malformedResponse "truncated chunked body")
  | fuel + 1, stream => do
    let (line, rest) ← readLine stream
    if line = [] then .ok rest else consumeTrailers fuel rest

/-- The loop of `decode_chunked`, for at most as many chunks as there are bytes. -/
def decodeChunks (bodyCap : Nat) :
    Nat → List UInt8 → List UInt8 → Except DecodeError (List UInt8 × List UInt8)
  | 0, _, _ => .error (.malformedResponse "truncated chunked body")
  | fuel + 1, body, stream => do
    let (line, rest) ← readLine stream
    let size ← chunkSize line
    if size = 0 then do
      let left ← consumeTrailers (rest.length + 1) rest
      .ok (body, left)
    else do
      require (body.length + size ≤ bodyCap) .bodyTooLarge
      let (data, rest) ← readExactChunk size "chunk data" rest
      let (crlf, rest) ← readExactChunk 2 "chunk delimiter" rest
      require (crlf = [13, 10]) (.malformedResponse "chunk data was not followed by CRLF")
      decodeChunks bodyCap fuel (body ++ data) rest

/-- `decode_chunked`: the body and what is left of the stream. -/
def decodeChunked (bodyCap : Nat) (stream : List UInt8) :
    Except DecodeError (List UInt8 × List UInt8) :=
  decodeChunks bodyCap (stream.length + 1) [] stream

end Decoder

section Format

/-- A line and its end. -/
def writeLine (line : List Char) : List UInt8 := encodeChars line ++ [13, 10]

/-- A chunk: the line with its size, and its data. -/
structure Chunk where
  line : List Char
  data : List UInt8

/-- The bytes of a chunk. -/
def Chunk.write (chunk : Chunk) : List UInt8 := writeLine chunk.line ++ (chunk.data ++ [13, 10])

/-- A chunked body: its chunks, the line of size zero and the trailers. -/
structure ChunkedBody where
  chunks : List Chunk
  last : List Char
  trailers : List (List Char)

/-- The body that is cut into the chunks. -/
def ChunkedBody.body (sent : ChunkedBody) : List UInt8 := sent.chunks.flatMap Chunk.data

/-- The bytes of the closing line and the trailers. -/
def ChunkedBody.writeEnd (sent : ChunkedBody) : List UInt8 :=
  writeLine sent.last ++ (sent.trailers.flatMap writeLine ++ writeLine [])

/-- The bytes of a chunked body. -/
def ChunkedBody.write (sent : ChunkedBody) : List UInt8 :=
  sent.chunks.flatMap Chunk.write ++ sent.writeEnd

/-- The size fields of a chunked body. -/
def ChunkedBody.sizeFields (sent : ChunkedBody) : List (List Char) :=
  (sent.chunks.map Chunk.line ++ [sent.last]).map sizeText

/-- A chunked body whose sizes are read in one way: each chunk has the data its line announces. -/
structure ChunkedBody.SizedBy (Sized : List Char → Nat → Prop) (sent : ChunkedBody) : Prop where
  chunks : ∀ chunk ∈ sent.chunks,
    '\n' ∉ chunk.line ∧ chunk.data ≠ [] ∧ Sized (sizeText chunk.line) chunk.data.length
  last : '\n' ∉ sent.last ∧ Sized (sizeText sent.last) 0
  trailers : ∀ trailer ∈ sent.trailers, '\n' ∉ trailer ∧ trailer ≠ []

/-- A size spelled in hexadecimal digits, within the machine's range. -/
def HexSpelled (field : List Char) (size : Nat) : Prop :=
  field ≠ [] ∧ (∀ c ∈ field, (hexDigit c).isSome = true) ∧ hexValue field = size ∧ size < 2 ^ 64

/-- A size as the decoder reads it: a plus sign may stand before the digits. -/
def SignSpelled (field : List Char) (size : Nat) : Prop := HexSpelled (numeralDigits field) size

end Format

section Lines

/-- A byte ten is a line feed. -/
theorem notMem_encodeChars {text : List Char} (clear : '\n' ∉ text) : 10 ∉ encodeChars text := by
  intro member
  obtain ⟨early, late, bytes⟩ := List.append_of_mem member
  obtain ⟨front, back, parts, _, _⟩ :=
    encodeChars_around (show String.utf8EncodeChar '\n' = [10] by decide) bytes
  rw [parts] at clear
  exact clear (List.mem_append_right _ List.mem_cons_self)

/-- A text with a line feed has a byte ten. -/
theorem notMem_of_encodeChars {text : List Char} (clear : 10 ∉ encodeChars text) : '\n' ∉ text := by
  intro member
  apply clear
  exact List.mem_flatMap.mpr ⟨'\n', member, by decide⟩

/-- The spec of the text of a line. -/
theorem lineText_eq_ok {bytes : List UInt8} {line : List Char} :
    lineText bytes = .ok line ↔ bytes = writeLine line := by
  unfold lineText writeLine
  constructor
  · intro read
    split at read
    · cases read
    · split at read
      · rename_i ends
        obtain ⟨front, whole⟩ := ends
        have size : front.length = bytes.length - 2 := by
          rw [← whole, List.length_append]
          rfl
        have taken : bytes.take (bytes.length - 2) = front := by
          rw [← size, ← whole, List.take_left]
        rw [taken] at read
        split at read
        · cases read
        · rename_i text found
          cases read
          have encoded : encodeChars text.toList = front := fromUtf8_eq_some.mp found
          rw [encoded, whole]
      · cases read
  · intro whole
    have some : bytes ≠ [] := by
      rw [whole]
      exact List.append_ne_nil_of_right_ne_nil _ (List.cons_ne_nil _ _)
    have ends : [13, 10] <:+ bytes := ⟨encodeChars line, whole.symm⟩
    have size : (encodeChars line).length = bytes.length - 2 := by
      rw [whole, List.length_append]
      rfl
    have taken : bytes.take (bytes.length - 2) = encodeChars line := by
      rw [← size, whole, List.take_left]
    have read : fromUtf8 (encodeChars line) = Option.some (String.ofList line) := by
      apply fromUtf8_eq_some.mpr
      unfold asBytes encodeChars
      rw [String.toList_ofList]
    rw [if_neg some, if_pos ends, taken, read]
    exact congrArg Except.ok String.toList_ofList

/-- The spec of `read_line`: a line up to the first line feed. -/
theorem readLine_eq_ok {stream rest : List UInt8} {line : List Char} :
    readLine stream = .ok (line, rest) ↔ '\n' ∉ line ∧ stream = writeLine line ++ rest := by
  unfold readLine readUntil
  simp only [bind_eq_ok, lineText_eq_ok]
  cases cut : splitOnce [10] stream with
  | none =>
    have absent : 10 ∉ stream := by
      intro member
      have found := splitOnce_isSome.mpr member
      rw [cut] at found
      cases found
    constructor
    · rintro ⟨_, whole, _⟩
      dsimp only at whole
      rw [whole] at absent
      exact absurd (List.mem_append_right _ (by decide)) absent
    · rintro ⟨_, whole⟩
      rw [whole] at absent
      exact absurd (List.mem_append_left _ (List.mem_append_right _ (by decide))) absent
  | some parts =>
    have whole : stream = parts.1 ++ 10 :: parts.2 := splitOnce_eq cut
    have clear := notMem_of_splitOnce cut
    constructor
    · rintro ⟨text, bytes, done⟩
      cases done
      dsimp only at bytes
      have front : parts.1 = encodeChars line ++ [13] := by
        apply List.append_cancel_right
        rw [bytes, List.append_assoc]
        rfl
      refine ⟨?_, ?_⟩
      · apply notMem_of_encodeChars
        intro member
        rw [front] at clear
        exact clear (List.mem_append_left _ member)
      · rw [← bytes, whole, List.append_assoc]
        rfl
    · rintro ⟨single, split⟩
      have first : 10 ∉ encodeChars line ++ [13] := by
        intro member
        rcases List.mem_append.mp member with inside | last
        · exact notMem_encodeChars single inside
        · exact absurd last (by decide)
      have around : stream = (encodeChars line ++ [13]) ++ 10 :: rest := by
        rw [split]
        unfold writeLine
        simp
      rw [around, splitOnce_singleton first] at cut
      cases cut
      refine ⟨line, ?_, rfl⟩
      dsimp only
      rw [List.append_assoc]
      rfl

/-- A written line is read as it is. -/
theorem readLine_write {line : List Char} (single : '\n' ∉ line) (rest : List UInt8) :
    readLine (writeLine line ++ rest) = .ok (line, rest) := readLine_eq_ok.mpr ⟨single, rfl⟩

end Lines

section Sizes

/-- The spec of `usize::from_str_radix`. -/
theorem fromStrRadix_eq_some {text : List Char} {size : Nat} :
    fromStrRadix text = some size ↔ HexSpelled (numeralDigits text) size := by
  unfold fromStrRadix HexSpelled
  constructor
  · intro read
    split at read
    · rename_i held
      cases read
      exact ⟨held.1, List.all_eq_true.mp held.2.1, rfl, held.2.2⟩
    · cases read
  · rintro ⟨some, digits, value, small⟩
    rw [if_pos ⟨some, List.all_eq_true.mpr digits, by rw [value]; exact small⟩, value]

/-- The spec of a size line. -/
theorem chunkSize_eq_ok {line : List Char} {size : Nat} :
    chunkSize line = .ok size ↔ SignSpelled (sizeText line) size := by
  have spec := @fromStrRadix_eq_some (sizeText line) size
  unfold SignSpelled
  rw [← spec]
  unfold chunkSize
  by_cases empty : sizeText line = []
  · have none : fromStrRadix [] = none := by decide
    rw [if_pos empty, empty, none]
    simp
  · rw [if_neg empty]
    cases fromStrRadix (sizeText line) with
    | none => simp
    | some found => simp

/-- A size that is read is spelled in digits exactly where no plus sign leads it. -/
theorem hexSpelled_iff {field : List Char} {size : Nat} (read : SignSpelled field size) :
    HexSpelled field size ↔ field.head? ≠ some '+' := by
  constructor
  · intro spelled sign
    have member : '+' ∈ field := List.mem_of_mem_head? (by simp [sign])
    have digit := spelled.2.1 '+' member
    exact absurd digit (by decide)
  · intro unsigned
    unfold SignSpelled numeralDigits at read
    rw [if_neg unsigned] at read
    exact read

/-- Digits are read as they stand. -/
theorem signSpelled_of_hex {field : List Char} {size : Nat} (spelled : HexSpelled field size) :
    SignSpelled field size := by
  have unsigned : field.head? ≠ some '+' := by
    intro sign
    have member : '+' ∈ field := List.mem_of_mem_head? (by simp [sign])
    exact absurd (spelled.2.1 '+' member) (by decide)
  unfold SignSpelled numeralDigits
  rw [if_neg unsigned]
  exact spelled

/-- Both spellings frame a body alike. -/
theorem ChunkedBody.SizedBy.mono {Sized Sized' : List Char → Nat → Prop} {sent : ChunkedBody}
    (each : ∀ field size, Sized field size → Sized' field size) (sized : sent.SizedBy Sized) :
    sent.SizedBy Sized' := by
  constructor
  · intro chunk member
    obtain ⟨single, some, spelled⟩ := sized.chunks chunk member
    exact ⟨single, some, each _ _ spelled⟩
  · exact ⟨sized.last.1, each _ _ sized.last.2⟩
  · exact sized.trailers

end Sizes

section Decoding

/-- The spec of `read_exact_chunk`. -/
theorem readExactChunk_eq_ok {count : Nat} {during : String} {stream got rest : List UInt8} :
    readExactChunk count during stream = .ok (got, rest) ↔
      stream = got ++ rest ∧ got.length = count := by
  unfold readExactChunk
  constructor
  · intro read
    split at read
    · cases read
    · rename_i enough
      cases read
      refine ⟨(List.take_append_drop count stream).symm, ?_⟩
      rw [List.length_take]
      omega
  · rintro ⟨whole, size⟩
    have enough : ¬stream.length < count := by
      rw [whole, List.length_append]
      omega
    rw [if_neg enough, whole, ← size, List.take_left, List.drop_left]

/-- A line takes at least its end. -/
theorem length_writeLine (line : List Char) :
    (writeLine line).length = (encodeChars line).length + 2 := by
  unfold writeLine
  rw [List.length_append]
  rfl

/-- The bytes of a body, chunk by chunk. -/
theorem write_cons (chunk : Chunk) (chunks : List Chunk) (last : List Char)
    (trailers : List (List Char)) (left : List UInt8) :
    (ChunkedBody.mk (chunk :: chunks) last trailers).write ++ left = writeLine chunk.line ++
      (chunk.data ++ ([13, 10] ++ ((ChunkedBody.mk chunks last trailers).write ++ left))) := by
  unfold ChunkedBody.write ChunkedBody.writeEnd Chunk.write
  simp

/-- The bytes of a body without chunks. -/
theorem write_nil (last : List Char) (trailers : List (List Char)) (left : List UInt8) :
    (ChunkedBody.mk [] last trailers).write ++ left =
      writeLine last ++ (trailers.flatMap writeLine ++ (writeLine [] ++ left)) := by
  unfold ChunkedBody.write ChunkedBody.writeEnd
  simp

/-- The trailers are read through the first empty line. -/
theorem consumeTrailers_eq_ok {fuel : Nat} {stream left : List UInt8} (enough : stream.length < fuel) :
    consumeTrailers fuel stream = .ok left ↔
      ∃ trailers : List (List Char), (∀ trailer ∈ trailers, '\n' ∉ trailer ∧ trailer ≠ []) ∧
        stream = trailers.flatMap writeLine ++ (writeLine [] ++ left) := by
  induction fuel generalizing stream with
  | zero => omega
  | succ fuel ih =>
    unfold consumeTrailers
    simp only [bind_eq_ok]
    constructor
    · rintro ⟨⟨line, rest⟩, read, more⟩
      obtain ⟨single, whole⟩ := readLine_eq_ok.mp read
      dsimp only at more
      by_cases empty : line = []
      · rw [if_pos empty] at more
        cases more
        exact ⟨[], (by intro trailer member; cases member), by rw [whole, empty]; rfl⟩
      · rw [if_neg empty] at more
        have shorter : rest.length < fuel := by
          rw [whole, List.length_append, length_writeLine] at enough
          omega
        obtain ⟨trailers, each, parts⟩ := (ih shorter).mp more
        refine ⟨line :: trailers, ?_, by rw [whole, parts]; simp⟩
        intro trailer member
        rcases List.mem_cons.mp member with same | later
        · rw [same]
          exact ⟨single, empty⟩
        · exact each trailer later
    · rintro ⟨trailers, each, whole⟩
      cases trailers with
      | nil =>
        refine ⟨([], left), ?_, if_pos rfl⟩
        rw [whole]
        exact readLine_write List.not_mem_nil left
      | cons line trailers =>
        obtain ⟨single, some⟩ := each line List.mem_cons_self
        have split : stream =
            writeLine line ++ (trailers.flatMap writeLine ++ (writeLine [] ++ left)) := by
          rw [whole, List.flatMap_cons]
          simp
        refine ⟨(line, trailers.flatMap writeLine ++ (writeLine [] ++ left)), ?_, ?_⟩
        · rw [split]
          exact readLine_write single _
        · dsimp only
          rw [if_neg some]
          have shorter : (trailers.flatMap writeLine ++ (writeLine [] ++ left)).length < fuel := by
            rw [split, List.length_append, length_writeLine] at enough
            omega
          apply (ih shorter).mpr
          exact ⟨trailers, fun trailer member => each trailer (List.mem_cons_of_mem _ member), rfl⟩

/-- A written body is decoded within the cap, and refused where it is larger. -/
theorem decodeChunks_write {bodyCap : Nat} {last : List Char} {trailers : List (List Char)}
    (chunks : List Chunk) (sized : (ChunkedBody.mk chunks last trailers).SizedBy SignSpelled)
    {fuel : Nat} (enough : chunks.length < fuel) {body : List UInt8} (within : body.length ≤ bodyCap)
    (left : List UInt8) :
    decodeChunks bodyCap fuel body ((ChunkedBody.mk chunks last trailers).write ++ left) =
      if (body ++ (ChunkedBody.mk chunks last trailers).body).length ≤ bodyCap then
        .ok (body ++ (ChunkedBody.mk chunks last trailers).body, left)
      else .error .bodyTooLarge := by
  induction chunks generalizing fuel body with
  | nil =>
    obtain ⟨single, spelled⟩ := sized.last
    have tail : consumeTrailers
        ((trailers.flatMap writeLine ++ (writeLine [] ++ left)).length + 1)
        (trailers.flatMap writeLine ++ (writeLine [] ++ left)) = .ok left :=
      (consumeTrailers_eq_ok (Nat.lt_succ_self _)).mpr ⟨trailers, sized.trailers, rfl⟩
    have same : body ++ (ChunkedBody.mk [] last trailers).body = body := List.append_nil body
    obtain ⟨less, rfl⟩ := Nat.exists_eq_add_of_lt enough
    rw [same, if_pos within, write_nil]
    unfold decodeChunks
    rw [readLine_write single, ok_bind]
    dsimp only
    rw [chunkSize_eq_ok.mpr spelled, ok_bind, if_pos rfl, tail]
    rfl
  | cons chunk chunks ih =>
    obtain ⟨single, some, spelled⟩ := sized.chunks chunk List.mem_cons_self
    have later : (ChunkedBody.mk chunks last trailers).SizedBy SignSpelled :=
      ⟨fun other member => sized.chunks other (List.mem_cons_of_mem _ member), sized.last,
        sized.trailers⟩
    have parts : (ChunkedBody.mk (chunk :: chunks) last trailers).body =
        chunk.data ++ (ChunkedBody.mk chunks last trailers).body := List.flatMap_cons
    have positive : chunk.data.length ≠ 0 := by
      intro empty
      exact some (List.eq_nil_of_length_eq_zero empty)
    cases fuel with
    | zero => omega
    | succ fuel =>
      rw [write_cons, parts, ← List.append_assoc body]
      unfold decodeChunks
      rw [readLine_write single, ok_bind]
      dsimp only
      rw [chunkSize_eq_ok.mpr spelled, ok_bind, if_neg positive]
      by_cases fits : body.length + chunk.data.length ≤ bodyCap
      · have data : ∀ more, readExactChunk chunk.data.length "chunk data" (chunk.data ++ more) =
            .ok (chunk.data, more) := fun more => readExactChunk_eq_ok.mpr ⟨rfl, rfl⟩
        have ends : ∀ more, readExactChunk 2 "chunk delimiter" ([13, 10] ++ more) =
            .ok ([13, 10], more) := fun more => readExactChunk_eq_ok.mpr ⟨rfl, rfl⟩
        have passed : ∀ error : DecodeError,
            require (body.length + chunk.data.length ≤ bodyCap) error = .ok () :=
          fun error => require_eq_ok.mpr fits
        have closed : ∀ error : DecodeError,
            require (([13, 10] : List UInt8) = [13, 10]) error = .ok () :=
          fun error => require_eq_ok.mpr rfl
        rw [passed, ok_bind, data, ok_bind]
        dsimp only
        rw [ends, ok_bind]
        dsimp only
        rw [closed, ok_bind]
        have size : chunks.length < fuel := by
          rw [List.length_cons] at enough
          omega
        apply ih later size
        rw [List.length_append]
        exact fits
      · have refused : require (body.length + chunk.data.length ≤ bodyCap) DecodeError.bodyTooLarge =
            .error .bodyTooLarge := if_neg fits
        have large : ¬(body ++ chunk.data ++ (ChunkedBody.mk chunks last trailers).body).length ≤
            bodyCap := by
          rw [List.length_append, List.length_append]
          omega
        rw [refused, if_neg large]
        rfl

/-- What is decoded is a written body. -/
theorem write_of_decodeChunks {bodyCap fuel : Nat} {body stream got left : List UInt8}
    (decoded : decodeChunks bodyCap fuel body stream = .ok (got, left))
    (within : body.length ≤ bodyCap) :
    ∃ sent : ChunkedBody, sent.SizedBy SignSpelled ∧ stream = sent.write ++ left ∧
      got = body ++ sent.body ∧ got.length ≤ bodyCap := by
  induction fuel generalizing body stream with
  | zero => cases decoded
  | succ fuel ih =>
    unfold decodeChunks at decoded
    obtain ⟨⟨line, rest⟩, read, decoded⟩ := bind_eq_ok.mp decoded
    obtain ⟨single, whole⟩ := readLine_eq_ok.mp read
    obtain ⟨size, sizes, decoded⟩ := bind_eq_ok.mp decoded
    have spelled := chunkSize_eq_ok.mp sizes
    by_cases zero : size = 0
    · rw [if_pos zero] at decoded
      obtain ⟨behind, ended, done⟩ := bind_eq_ok.mp decoded
      cases done
      obtain ⟨trailers, each, parts⟩ := (consumeTrailers_eq_ok (Nat.lt_succ_self _)).mp ended
      rw [zero] at spelled
      refine ⟨⟨[], line, trailers⟩, ⟨?_, ⟨single, spelled⟩, each⟩, ?_, ?_, within⟩
      · intro chunk member
        cases member
      · rw [whole, parts]
        unfold ChunkedBody.write ChunkedBody.writeEnd
        simp
      · exact (List.append_nil _).symm
    · rw [if_neg zero] at decoded
      obtain ⟨_, fits, decoded⟩ := bind_eq_ok.mp decoded
      obtain ⟨⟨data, behind⟩, taken, decoded⟩ := bind_eq_ok.mp decoded
      obtain ⟨⟨ends, after⟩, delimiter, decoded⟩ := bind_eq_ok.mp decoded
      obtain ⟨_, closed, decoded⟩ := bind_eq_ok.mp decoded
      have fit := require_eq_ok.mp fits
      have crlf := require_eq_ok.mp closed
      obtain ⟨parts, length⟩ := readExactChunk_eq_ok.mp taken
      obtain ⟨last, _⟩ := readExactChunk_eq_ok.mp delimiter
      have bound : (body ++ data).length ≤ bodyCap := by
        rw [List.length_append]
        omega
      obtain ⟨sent, sized, split, bodies, small⟩ := ih decoded bound
      refine ⟨⟨⟨line, data⟩ :: sent.chunks, sent.last, sent.trailers⟩, ⟨?_, sized.last,
        sized.trailers⟩, ?_, ?_, small⟩
      · intro chunk member
        rcases List.mem_cons.mp member with same | later
        · rw [same]
          rw [← length] at spelled
          refine ⟨single, ?_, spelled⟩
          intro empty
          have none : data = [] := empty
          rw [none] at length
          exact zero length.symm
        · exact sized.chunks chunk later
      · rw [whole, parts, last, crlf, split]
        unfold ChunkedBody.write ChunkedBody.writeEnd Chunk.write
        simp
      · rw [bodies]
        unfold ChunkedBody.body
        simp

end Decoding

section Framing

/-- A line is told from what stands behind it. -/
theorem writeLine_inj {line line' : List Char} {rest rest' : List UInt8} (single : '\n' ∉ line)
    (single' : '\n' ∉ line') (same : writeLine line ++ rest = writeLine line' ++ rest') :
    line = line' ∧ rest = rest' := by
  have read := readLine_write single rest
  rw [same, readLine_write single' rest'] at read
  have parts := Prod.mk.inj (Except.ok.inj read)
  exact ⟨parts.1.symm, parts.2.symm⟩

/-- Trailers are told from what stands behind their empty line. -/
theorem trailers_inj {trailers trailers' : List (List Char)} {left left' : List UInt8}
    (each : ∀ trailer ∈ trailers, '\n' ∉ trailer ∧ trailer ≠ [])
    (each' : ∀ trailer ∈ trailers', '\n' ∉ trailer ∧ trailer ≠ [])
    (same : trailers.flatMap writeLine ++ (writeLine [] ++ left) =
      trailers'.flatMap writeLine ++ (writeLine [] ++ left')) :
    trailers = trailers' ∧ left = left' := by
  induction trailers generalizing trailers' with
  | nil =>
    cases trailers' with
    | nil => exact ⟨rfl, (writeLine_inj List.not_mem_nil List.not_mem_nil same).2⟩
    | cons line trailers' =>
      obtain ⟨single, some⟩ := each' line List.mem_cons_self
      rw [List.flatMap_cons, List.append_assoc] at same
      exact absurd (writeLine_inj List.not_mem_nil single same).1.symm some
  | cons line trailers ih =>
    obtain ⟨single, some⟩ := each line List.mem_cons_self
    rw [List.flatMap_cons, List.append_assoc] at same
    cases trailers' with
    | nil => exact absurd (writeLine_inj single List.not_mem_nil same).1 some
    | cons line' trailers' =>
      rw [List.flatMap_cons, List.append_assoc] at same
      obtain ⟨lines, rest⟩ := writeLine_inj single (each' line' List.mem_cons_self).1 same
      obtain ⟨trailing, behind⟩ := ih (fun other member => each other (List.mem_cons_of_mem _ member))
        (fun other member => each' other (List.mem_cons_of_mem _ member)) rest
      exact ⟨by rw [lines, trailing], behind⟩

/-- The size a line announces says whether it opens a chunk. -/
theorem not_signSpelled_zero {field : List Char} {data : List UInt8} (some : data ≠ [])
    (spelled : SignSpelled field data.length) : ¬SignSpelled field 0 := by
  intro zero
  have size : data.length = 0 := spelled.2.2.1.symm.trans zero.2.2.1
  exact some (List.eq_nil_of_length_eq_zero size)

/-- A stream is a chunked body in one way. -/
theorem write_inj {last last' : List Char} {trailers trailers' : List (List Char)}
    (chunks chunks' : List Chunk) (sized : (ChunkedBody.mk chunks last trailers).SizedBy SignSpelled)
    (sized' : (ChunkedBody.mk chunks' last' trailers').SizedBy SignSpelled) {left left' : List UInt8}
    (same : (ChunkedBody.mk chunks last trailers).write ++ left =
      (ChunkedBody.mk chunks' last' trailers').write ++ left') :
    ChunkedBody.mk chunks last trailers = ChunkedBody.mk chunks' last' trailers' ∧ left = left' := by
  induction chunks generalizing chunks' with
  | nil =>
    rw [write_nil] at same
    cases chunks' with
    | nil =>
      rw [write_nil] at same
      obtain ⟨lines, rest⟩ := writeLine_inj sized.last.1 sized'.last.1 same
      obtain ⟨trailing, behind⟩ := trailers_inj sized.trailers sized'.trailers rest
      exact ⟨congrArg₂ (ChunkedBody.mk []) lines trailing, behind⟩
    | cons chunk chunks' =>
      obtain ⟨single, some, spelled⟩ := sized'.chunks chunk List.mem_cons_self
      rw [write_cons] at same
      have lines : last = chunk.line := (writeLine_inj sized.last.1 single same).1
      rw [← lines] at spelled
      exact absurd sized.last.2 (not_signSpelled_zero some spelled)
  | cons chunk chunks ih =>
    obtain ⟨single, some, spelled⟩ := sized.chunks chunk List.mem_cons_self
    rw [write_cons] at same
    cases chunks' with
    | nil =>
      rw [write_nil] at same
      have lines : chunk.line = last' := (writeLine_inj single sized'.last.1 same).1
      rw [lines] at spelled
      exact absurd sized'.last.2 (not_signSpelled_zero some spelled)
    | cons chunk' chunks' =>
      obtain ⟨single', _, spelled'⟩ := sized'.chunks chunk' List.mem_cons_self
      rw [write_cons] at same
      obtain ⟨lines, rest⟩ := writeLine_inj single single' same
      rw [← lines] at spelled'
      have sizes : chunk.data.length = chunk'.data.length :=
        spelled.2.2.1.symm.trans spelled'.2.2.1
      obtain ⟨data, tails⟩ := List.append_inj rest sizes
      have later : ∀ {first : Chunk} {rest : List Chunk} {ended trailing},
          (ChunkedBody.mk (first :: rest) ended trailing).SizedBy SignSpelled →
            (ChunkedBody.mk rest ended trailing).SizedBy SignSpelled := fun whole =>
        ⟨fun other member => whole.chunks other (List.mem_cons_of_mem _ member), whole.last,
          whole.trailers⟩
      obtain ⟨equal, behind⟩ := ih chunks' (later sized) (later sized')
        (List.append_cancel_left tails)
      obtain ⟨rests, lasts, trailing⟩ := ChunkedBody.mk.inj equal
      have first : chunk = chunk' := by
        cases chunk
        cases chunk'
        exact congrArg₂ Chunk.mk lines data
      exact ⟨by rw [first, rests, lasts, trailing], behind⟩

/-- Each chunk takes a byte of the stream. -/
theorem length_chunks_lt (sent : ChunkedBody) (left : List UInt8) :
    sent.chunks.length < (sent.write ++ left).length + 1 := by
  have each : ∀ chunks : List Chunk, chunks.length ≤ (chunks.flatMap Chunk.write).length := by
    intro chunks
    induction chunks with
    | nil => exact Nat.le_refl _
    | cons chunk chunks ih =>
      have some : 0 < chunk.write.length := by
        unfold Chunk.write
        rw [List.length_append, length_writeLine]
        omega
      rw [List.flatMap_cons, List.length_append, List.length_cons]
      omega
  have bound := each sent.chunks
  unfold ChunkedBody.write
  rw [List.length_append, List.length_append]
  omega

/-- The decoder reads exactly the chunked bodies within the cap. -/
theorem decodeChunked_eq_ok {bodyCap : Nat} {stream got left : List UInt8} :
    decodeChunked bodyCap stream = .ok (got, left) ↔
      ∃ sent : ChunkedBody, sent.SizedBy SignSpelled ∧ stream = sent.write ++ left ∧
        got = sent.body ∧ sent.body.length ≤ bodyCap := by
  unfold decodeChunked
  constructor
  · intro decoded
    obtain ⟨sent, sized, whole, bodies, small⟩ := write_of_decodeChunks decoded (Nat.zero_le _)
    rw [List.nil_append] at bodies
    exact ⟨sent, sized, whole, bodies, by rw [← bodies]; exact small⟩
  · rintro ⟨sent, sized, rfl, rfl, small⟩
    rw [decodeChunks_write sent.chunks sized (length_chunks_lt sent left) (Nat.zero_le _)]
    exact if_pos small

/-- A chunked body is decoded where it is within the cap, and refused where it is larger. -/
theorem decodeChunked_write {sent : ChunkedBody} (sized : sent.SizedBy SignSpelled) (bodyCap : Nat)
    (left : List UInt8) :
    decodeChunked bodyCap (sent.write ++ left) =
      if sent.body.length ≤ bodyCap then .ok (sent.body, left) else .error .bodyTooLarge := by
  unfold decodeChunked
  exact decodeChunks_write sent.chunks sized (length_chunks_lt sent left) (Nat.zero_le _) left

/-- A stream is decoded as its format asks: a body with sizes in hexadecimal digits is read within
the cap and refused above it, and nothing else is accepted. -/
structure DecodedAsFramed (bodyCap : Nat) (stream : List UInt8) : Prop where
  read : ∀ (sent : ChunkedBody) left, sent.SizedBy HexSpelled → stream = sent.write ++ left →
    decodeChunked bodyCap stream =
      if sent.body.length ≤ bodyCap then .ok (sent.body, left) else .error .bodyTooLarge
  accepted : ∀ got left, decodeChunked bodyCap stream = .ok (got, left) →
    ∃ sent : ChunkedBody, sent.SizedBy HexSpelled ∧ stream = sent.write ++ left ∧ got = sent.body

/-- The decoder keeps to the format exactly on the streams none of whose sizes is signed. -/
theorem decodedAsFramed_iff (bodyCap : Nat) (stream : List UInt8) :
    DecodedAsFramed bodyCap stream ↔
      ∀ (sent : ChunkedBody) left, sent.SizedBy SignSpelled → sent.body.length ≤ bodyCap →
        stream = sent.write ++ left → ∀ field ∈ sent.sizeFields, field.head? ≠ some '+' := by
  constructor
  · intro framed sent left sized small whole field member
    have decoded : decodeChunked bodyCap stream = .ok (sent.body, left) :=
      decodeChunked_eq_ok.mpr ⟨sent, sized, whole, rfl, small⟩
    obtain ⟨sent', spelled, whole', _⟩ := framed.accepted _ _ decoded
    have same : sent = sent' := (write_inj sent.chunks sent'.chunks sized
      (spelled.mono fun _ _ => signSpelled_of_hex) (whole.symm.trans whole')).1
    rw [← same] at spelled
    unfold ChunkedBody.sizeFields at member
    obtain ⟨line, lines, rfl⟩ := List.mem_map.mp member
    rcases List.mem_append.mp lines with inside | ending
    · obtain ⟨chunk, held, rfl⟩ := List.mem_map.mp inside
      have hex := (spelled.chunks chunk held).2.2
      exact (hexSpelled_iff (signSpelled_of_hex hex)).mp hex
    · rw [List.mem_singleton.mp ending]
      have hex := spelled.last.2
      exact (hexSpelled_iff (signSpelled_of_hex hex)).mp hex
  · intro unsigned
    constructor
    · intro sent left spelled whole
      rw [whole]
      exact decodeChunked_write (spelled.mono fun _ _ => signSpelled_of_hex) bodyCap left
    · intro got left decoded
      obtain ⟨sent, sized, whole, bodies, small⟩ := decodeChunked_eq_ok.mp decoded
      have plain : ∀ line ∈ sent.chunks.map Chunk.line ++ [sent.last],
          (sizeText line).head? ≠ some '+' := by
        intro line member
        exact unsigned sent left sized small whole _ (List.mem_map_of_mem member)
      refine ⟨sent, ⟨?_, ⟨sized.last.1, ?_⟩, sized.trailers⟩, whole, bodies⟩
      · intro chunk member
        obtain ⟨single, some, spelled⟩ := sized.chunks chunk member
        refine ⟨single, some, (hexSpelled_iff spelled).mpr ?_⟩
        exact plain _ (List.mem_append_left _ (List.mem_map_of_mem member))
      · apply (hexSpelled_iff sized.last.2).mpr
        exact plain _ (List.mem_append_right _ (List.mem_singleton_self _))

end Framing

/-- A chunk whose size is signed, and the end of its body. -/
def signedChunk : ChunkedBody := ⟨[⟨"+4".toList, encodeChars "Wiki".toList⟩], "0".toList, []⟩

/-- A size with a plus sign is no hexadecimal number, and its chunk is decoded. -/
theorem signed_decoded :
    decodeChunked 1024 signedChunk.write = .ok (encodeChars "Wiki".toList, []) ∧
      ¬DecodedAsFramed 1024 signedChunk.write := by
  have single : ∀ digit size, hexDigit digit = some size → size < 2 ^ 64 →
      HexSpelled [digit] size := by
    intro digit size value small
    refine ⟨List.cons_ne_nil _ _, ?_, ?_, small⟩
    · intro c member
      rw [List.mem_singleton.mp member, value]
      rfl
    · show 0 * 16 + (hexDigit digit).getD 0 = size
      rw [value]
      exact Nat.zero_add _
  have signed : numeralDigits (sizeText "+4".toList) = ['4'] := by decide +kernel
  have zero : numeralDigits (sizeText "0".toList) = ['0'] := by decide +kernel
  have sized : signedChunk.SizedBy SignSpelled := by
    constructor
    · intro chunk member
      rw [List.mem_singleton.mp member]
      refine ⟨by decide +kernel, by decide +kernel, ?_⟩
      show HexSpelled (numeralDigits (sizeText "+4".toList)) 4
      rw [signed]
      exact single '4' 4 (by decide +kernel) (by decide +kernel)
    · refine ⟨by decide +kernel, ?_⟩
      show HexSpelled (numeralDigits (sizeText "0".toList)) 0
      rw [zero]
      exact single '0' 0 (by decide +kernel) (by decide +kernel)
    · intro trailer member
      cases member
  have whole : signedChunk.write = signedChunk.write ++ [] := (List.append_nil _).symm
  have decoded : decodeChunked 1024 signedChunk.write = .ok (encodeChars "Wiki".toList, []) := by
    rw [whole, decodeChunked_write sized]
    rfl
  refine ⟨decoded, ?_⟩
  intro framed
  obtain ⟨sent, spelled, split, _⟩ := framed.accepted _ _ decoded
  have same : signedChunk = sent := (write_inj _ _ sized
    (spelled.mono fun _ _ => signSpelled_of_hex) (whole.symm.trans split)).1
  rw [← same] at spelled
  have hex := (spelled.chunks ⟨"+4".toList, encodeChars "Wiki".toList⟩ List.mem_cons_self).2.2
  exact absurd (hex.2.1 '+' (by decide)) (by decide)

end Texo.Surfaces.Http
