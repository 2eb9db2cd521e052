import Texo.Extract.WhiteSpace
import Texo.Foundation.PairSplit
import Texo.Ops.Capture
import Texo.Surfaces.Http.Client

/-! # Requests of the HTTP server

The server reads a head byte by byte up to the first empty line, takes its lines apart and reads the
body its length announces. What is left of the stream is handed back.
-/
namespace Texo.Surfaces.Http
open Texo.Events Texo.Extract Texo.Foundation Texo.Ops

/-- `HEAD_CAP`. -/
def headCap : Nat := 8 * 1024

/-- `BODY_CAP`. -/
def bodyCap : Nat := 1024 * 1024

/-- `HttpRequest` of the server. -/
structure HttpRequest where
  method : Method
  path : List Char
  query : Option (List Char)
  headers : List (List Char × List Char)
  body : List UInt8
deriving DecidableEq

/-- `RequestError`. -/
structure RequestError where
  status : Nat
  message : String
  allow : Option String := none
deriving DecidableEq, Repr

/-- `ParseFailure`. -/
inductive ParseFailure where
  | request (error : RequestError)
  | io (kind : String)
deriving DecidableEq, Repr

/-- `bad request line`. -/
def badRequestLine : RequestError := ⟨400, "bad request line", none⟩

/-- `\r\n\r\n`. -/
def headEnd : List UInt8 := [13, 10, 13, 10]

/-- The loop of `parse` that reads the head. -/
def readHead (head : List UInt8) : List UInt8 → Except ParseFailure (List UInt8 × List UInt8)
  | [] =>
    if headEnd <:+ head then .ok (head, [])
    else if headCap ≤ head.length then .error (.request ⟨400, "request head too large", none⟩)
    else .error (.request badRequestLine)
  | byte :: rest =>
    if headEnd <:+ head then .ok (head, byte :: rest)
    else if headCap ≤ head.length then .error (.request ⟨400, "request head too large", none⟩)
    else readHead (head ++ [byte]) rest

/-- `str::split("\r\n")`. -/
def splitLines (text : List Char) : List (List Char) := splitPair '\r' '\n' text

/-- The method a request line names. -/
def methodOf (word : List Char) : Option Method :=
  if word = "GET".toList then some .get else if word = "POST".toList then some .post else none

/-- The request line: the method and the target. -/
def requestLine (line : List Char) : Except ParseFailure (Method × List Char) :=
  match splitWhitespace line with
  | [] => .error (.request badRequestLine)
  | word :: rest =>
    match methodOf word with
    | none => .error (.request ⟨405, "method not allowed", some "GET, POST"⟩)
    | some method =>
      match rest with
      | target :: version :: _ =>
        if "HTTP/".toList.isPrefixOf version then .ok (method, target)
        else .error (.request badRequestLine)
      | _ => .error (.request badRequestLine)

/-- The loop of `parse` over the header lines, up to the first empty one. -/
def headerLines : List (List Char) → Except ParseFailure (List (List Char × List Char))
  | [] => .ok []
  | line :: rest =>
    if line.isEmpty then
      .ok []
    else
      match splitOnce [':'] line with
      | none => .error (.request ⟨400, "malformed header", none⟩)
      | some (name, value) =>
        (headerLines rest).map fun headers => (trim name, trim value) :: headers

/-- `header`: the value of the first header of a name. -/
def header (headers : List (List Char × List Char)) (name : List Char) : Option (List Char) :=
  (headers.find? fun candidate => eqIgnoreAsciiCase candidate.1 name).map Prod.snd

/-- `split_target`. -/
def splitTarget (target : List Char) : List Char × Option (List Char) :=
  match splitOnce ['?'] target with
  | none => (target, none)
  | some (path, query) => (path, some query)

/-- The body of a request and what is left of the stream. -/
def readBody (method : Method) (headers : List (List Char × List Char)) (rest : List UInt8) :
    Except ParseFailure (List UInt8 × List UInt8) :=
  match method with
  | .get => .ok ([], rest)
  | .post =>
    match header headers "content-length".toList with
    | none => .error (.request ⟨411, "content-length required", none⟩)
    | some value =>
      match parseUnsigned (2 ^ 64) value with
      | none => .error (.request ⟨400, "bad content-length", none⟩)
      | some len =>
        if bodyCap < len then .error (.request ⟨413, "request body too large", none⟩)
        else if rest.length < len then .error (.io "unexpected end of file")
        else .ok (rest.take len, rest.drop len)

/-- The text of a head. -/
def headText (head : List UInt8) : Except ParseFailure (List Char) :=
  match fromUtf8 head with
  | none => .error (.request ⟨400, "request head was not utf-8", none⟩)
  | some text => .ok text.toList

/-- `parse`: the request and what is left of the stream. -/
def parse (stream : List UInt8) : Except ParseFailure (HttpRequest × List UInt8) := do
  let (head, rest) ← readHead [] stream
  let text ← headText head
  let (method, target) ← requestLine ((splitLines text).headD [])
  let headers ← headerLines (splitLines text).tail
  require (header headers "transfer-encoding".toList = none)
    (.request ⟨501, "request transfer-encoding is not supported", none⟩)
  let (body, rest) ← readBody method headers rest
  .ok (⟨method, (splitTarget target).1, (splitTarget target).2, headers, body⟩, rest)

/-- The spec of reading a head: up to the first empty line, within the cap. -/
theorem readHead_eq_ok {head input read rest : List UInt8} :
    readHead head input = .ok (read, rest) ↔
      ∃ more, input = more ++ rest ∧ read = head ++ more ∧ headEnd <:+ read ∧
        ∀ early late, late ≠ [] → more = early ++ late →
          ¬headEnd <:+ head ++ early ∧ (head ++ early).length < headCap := by
  induction input generalizing head with
  | nil =>
    unfold readHead
    constructor
    · intro ended
      split at ended
      · rename_i ends
        cases ended
        refine ⟨[], rfl, (List.append_nil _).symm, ends, ?_⟩
        intro early late some split
        exact absurd (List.append_eq_nil_iff.mp split.symm).2 some
      · split at ended <;> cases ended
    · rintro ⟨more, split, whole, ends, _⟩
      obtain ⟨none, nothing⟩ := List.append_eq_nil_iff.mp split.symm
      rw [none, List.append_nil] at whole
      rw [whole] at ends
      rw [if_pos ends, whole, nothing]
  | cons byte input ih =>
    unfold readHead
    constructor
    · intro ended
      split at ended
      · rename_i ends
        cases ended
        refine ⟨[], rfl, (List.append_nil _).symm, ends, ?_⟩
        intro early late some split
        exact absurd (List.append_eq_nil_iff.mp split.symm).2 some
      · rename_i open'
        split at ended
        · cases ended
        · rename_i within
          obtain ⟨more, split, whole, ends, first⟩ := ih.mp ended
          refine ⟨byte :: more, by rw [split]; rfl, by rw [whole]; simp, ends, ?_⟩
          intro early late some parts
          cases early with
          | nil =>
            rw [List.append_nil]
            exact ⟨open', Nat.lt_of_not_le within⟩
          | cons lead early =>
            obtain ⟨same, tails⟩ := List.cons.inj parts
            have later := first early late some tails
            rw [List.append_assoc, List.singleton_append, same] at later
            exact later
    · rintro ⟨more, split, whole, ends, first⟩
      cases more with
      | nil =>
        rw [List.append_nil] at whole
        rw [whole] at ends
        rw [List.nil_append] at split
        rw [if_pos ends, whole, split]
      | cons lead more =>
        obtain ⟨same, tails⟩ := List.cons.inj split
        have start := first [] (lead :: more) (List.cons_ne_nil _ _) rfl
        rw [List.append_nil] at start
        rw [if_neg start.1, if_neg (Nat.not_le_of_lt start.2)]
        apply ih.mpr
        refine ⟨more, tails, by rw [whole, same]; simp, ends, ?_⟩
        intro early late some parts
        have later := first (lead :: early) late some (by rw [parts]; rfl)
        rw [List.append_assoc, List.singleton_append, same]
        exact later

/-- The name and the value of a header line. -/
def headerOf (line : List Char) : List Char × List Char :=
  match splitOnce [':'] line with
  | none => ([], [])
  | some (name, value) => (trim name, trim value)

/-- A header line with a name is read as it stands. -/
theorem headerOf_named {name : List Char} (clear : ':' ∉ name) (value : List Char) :
    headerOf (name ++ ':' :: value) = (trim name, trim value) := by
  unfold headerOf
  rw [splitOnce_singleton clear]

/-- The lines up to an empty one are read exactly where each has a name. -/
theorem headerLines_eq_ok {lines rest : List (List Char)} {headers : List (List Char × List Char)}
    (some : ∀ line ∈ lines, line ≠ []) :
    headerLines (lines ++ [] :: rest) = .ok headers ↔
      (∀ line ∈ lines, ':' ∈ line) ∧ headers = lines.map headerOf := by
  induction lines generalizing headers with
  | nil =>
    rw [List.nil_append, headerLines, if_pos (by rfl)]
    simp [eq_comm]
  | cons line lines ih =>
    have full : ¬line.isEmpty = true := by
      simpa using some line List.mem_cons_self
    have later : ∀ {headers}, headerLines (lines ++ [] :: rest) = .ok headers ↔
        (∀ line ∈ lines, ':' ∈ line) ∧ headers = lines.map headerOf :=
      ih (fun other member => some other (List.mem_cons_of_mem _ member))
    have named := @splitOnce_isSome _ _ ':' line
    rw [List.cons_append, headerLines, if_neg full]
    cases cut : splitOnce [':'] line with
    | none =>
      rw [cut] at named
      constructor
      · intro read
        cases read
      · rintro ⟨all, _⟩
        exact absurd (named.mpr (all line List.mem_cons_self)) (by simp)
    | some parts =>
      rw [cut] at named
      have held : ':' ∈ line := named.mp rfl
      have first : headerOf line = (trim parts.1, trim parts.2) := by
        unfold headerOf
        rw [cut]
      rw [List.forall_mem_cons, List.map_cons, first]
      constructor
      · intro read
        cases tail : headerLines (lines ++ [] :: rest) with
        | error failure =>
          rw [tail] at read
          cases read
        | ok behind =>
          rw [tail] at read
          cases read
          obtain ⟨all, same⟩ := later.mp tail
          exact ⟨⟨held, all⟩, by rw [same]⟩
      · rintro ⟨⟨_, all⟩, same⟩
        have tail := later.mpr ⟨all, rfl⟩
        rw [same, tail]
        rfl

/-- A header is looked up in the first of two lists that has it. -/
theorem header_append (front back : List (List Char × List Char)) (name : List Char) :
    header (front ++ back) name = (header front name).or (header back name) := by
  unfold header
  rw [List.find?_append]
  cases front.find? _ with
  | none => rfl
  | some found => rfl

/-- No header of a name is found exactly where none is called that. -/
theorem header_eq_none {headers : List (List Char × List Char)} {name : List Char} :
    header headers name = none ↔ ∀ candidate ∈ headers, eqIgnoreAsciiCase candidate.1 name = false := by
  unfold header
  rw [Option.map_eq_none_iff, List.find?_eq_none]
  simp

/-- The target is determined by its path and its query. -/
theorem splitTarget_inj {target target' : List Char} (same : splitTarget target = splitTarget target') :
    target = target' := by
  unfold splitTarget at same
  split at same
  · split at same
    · exact (Prod.mk.inj same).1
    · cases (Prod.mk.inj same).2
  · rename_i path query cut
    split at same
    · cases (Prod.mk.inj same).2
    · rename_i path' query' cut'
      obtain ⟨paths, queries⟩ := Prod.mk.inj same
      rw [splitOnce_eq cut, splitOnce_eq cut', paths, Option.some.inj queries]

/-- A head that is text is read as that text. -/
theorem headText_encode (text : List Char) : headText (encodeChars text) = .ok text := by
  have read : fromUtf8 (encodeChars text) = some (String.ofList text) := by
    apply fromUtf8_eq_some.mpr
    unfold asBytes encodeChars
    rw [String.toList_ofList]
  unfold headText
  rw [read]
  exact congrArg Except.ok String.toList_ofList

/-- A target that is read is one word. -/
theorem solid_of_requestLine {line target : List Char} {method : Method}
    (read : requestLine line = .ok (method, target)) : ∀ c ∈ target, isWhitespace c = false := by
  unfold requestLine at read
  split at read
  · cases read
  · rename_i word rest words
    split at read
    · cases read
    · split at read
      · rename_i named _ version _
        split at read
        · cases read
          apply solid_of_mem_splitWhitespace
          rw [words]
          exact List.mem_cons_of_mem _ List.mem_cons_self
        · cases read
      · cases read

/-- The spec of `parse`: what each part of it reads. -/
theorem parse_eq_ok {stream left : List UInt8} {got : HttpRequest} :
    parse stream = .ok (got, left) ↔
      ∃ head rest text target, readHead [] stream = .ok (head, rest) ∧ headText head = .ok text ∧
        requestLine ((splitLines text).headD []) = .ok (got.method, target) ∧
        headerLines (splitLines text).tail = .ok got.headers ∧
        header got.headers "transfer-encoding".toList = none ∧
        readBody got.method got.headers rest = .ok (got.body, left) ∧
        (got.path, got.query) = splitTarget target := by
  unfold parse
  simp only [bind_eq_ok, require_eq_ok]
  constructor
  · rintro ⟨⟨head, rest⟩, whole, text, read, ⟨method, target⟩, line, headers, lines, _, plain,
      ⟨body, behind⟩, bodies, done⟩
    cases done
    exact ⟨head, rest, text, target, whole, read, line, lines, plain, bodies, rfl⟩
  · rintro ⟨head, rest, text, target, whole, read, line, lines, plain, bodies, parts⟩
    refine ⟨(head, rest), whole, text, read, (got.method, target), line, got.headers, lines, (),
      plain, (got.body, left), bodies, ?_⟩
    rw [← parts]

end Texo.Surfaces.Http
