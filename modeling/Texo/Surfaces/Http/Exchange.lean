import Texo.Surfaces.Http.Request

/-! # What the server reads of a written request

The client writes path, query and authority into the head as they stand, and the server takes the
head apart at white space and line ends. The head is read to its end exactly where no line of it is
empty, and the request arrives exactly where its target is one word and every further line of its
authority is a header that changes neither the framing nor the length.
-/
namespace Texo.Surfaces.Http
open Texo.Events Texo.Extract Texo.Foundation Texo.Ops

/-- `char::is_control`. -/
def isControl (c : Char) : Bool := c.toNat < 0x20 || (0x7F ≤ c.toNat && c.toNat ≤ 0x9F)

/-- The server reads exactly one request: the method, the path with the query, and for `POST` the
body of the written one. -/
def Delivered (req : ClientRequest) : Prop :=
  ∃ got, parse (writeRequest req) = .ok (got, []) ∧ got.method = req.method ∧
    (got.path, got.query) = splitTarget req.url.pathAndQuery ∧
    (req.method = .post → got.body = req.body)

/-- The lines an authority adds behind the one of the host. -/
def extraLines (url : ParsedUrl) : List (List Char) := (splitLines url.authority).tail

/-- The request survives the format it is written into. -/
structure Sendable (req : ClientRequest) : Prop where
  target : ∀ c ∈ req.url.pathAndQuery, isWhitespace c = false
  bodiless : req.method = .get → req.body = []
  lines : ∀ line ∈ extraLines req.url, ':' ∈ line
  framing : ∀ line ∈ extraLines req.url,
    eqIgnoreAsciiCase (headerOf line).1 "transfer-encoding".toList = false
  length : req.method = .post → ∀ value,
    header ((extraLines req.url).map headerOf) "content-length".toList = some value →
    parseUnsigned (2 ^ 64) value = some req.body.length

section Heads

/-- The lines of lines that are written one behind the other. -/
theorem splitLines_flatMap (lines : List (List Char)) (text : List Char) :
    splitLines (lines.flatMap (fun line => line ++ ['\r', '\n']) ++ text) =
      lines.flatMap splitLines ++ splitLines text := by
  induction lines with
  | nil => rfl
  | cons line rest ih =>
    have whole : (line :: rest).flatMap (fun line => line ++ ['\r', '\n']) ++ text =
        line ++ '\r' :: '\n' :: (rest.flatMap (fun line => line ++ ['\r', '\n']) ++ text) := by
      simp
    rw [whole]
    show splitPair '\r' '\n' _ = _
    rw [splitPair_append (by decide)]
    show splitLines line ++ splitLines _ = _
    rw [ih, List.flatMap_cons, List.append_assoc]

/-- The lines of a head. -/
theorem splitLines_head (req : ClientRequest) :
    splitLines req.head = req.headLines.flatMap splitLines ++ [[], []] :=
  splitLines_flatMap req.headLines ['\r', '\n']

/-- A text whose lines stand around an empty one ends there early. -/
theorem pair_of_empty_line {text : List Char} {front back : List (List Char)} (before : front ≠ [])
    (behind : back ≠ []) (split : splitLines text = front ++ [] :: back) :
    ∃ left right, text = left ++ '\r' :: '\n' :: '\r' :: '\n' :: right ∧
      splitLines left = front ∧ splitLines right = back := by
  obtain ⟨left, later, whole, leftLines, laterLines⟩ :=
    splitPair_eq_append split before (List.cons_ne_nil _ _)
  rw [← List.singleton_append] at laterLines
  obtain ⟨middle, right, parts, middleLines, rightLines⟩ :=
    splitPair_eq_append laterLines (List.cons_ne_nil _ _) behind
  rw [eq_nil_of_splitPair middleLines, List.nil_append] at parts
  exact ⟨left, right, by rw [whole, parts], leftLines, rightLines⟩

/-- A text with an empty last line but one ends as a head does. -/
theorem headEnd_suffix {text : List Char} {lines : List (List Char)} (nonempty : lines ≠ [])
    (split : splitLines text = lines ++ [[], []]) : headEnd <:+ encodeChars text := by
  obtain ⟨left, right, whole, _, rightLines⟩ :=
    pair_of_empty_line nonempty (List.cons_ne_nil _ _) split
  have none : right = [] := eq_nil_of_splitPair rightLines
  rw [none] at whole
  refine ⟨encodeChars left, ?_⟩
  rw [whole]
  unfold encodeChars
  rw [List.flatMap_append]
  rfl

/-- The bytes of a head end early exactly where a line of it is empty. -/
theorem ends_early_iff {text line : List Char} {lines : List (List Char)}
    (split : splitLines text = (line :: lines) ++ [[], []]) :
    (∃ early late, late ≠ [] ∧ encodeChars text = early ++ late ∧ headEnd <:+ early) ↔
      [] ∈ lines := by
  constructor
  · rintro ⟨early, late, some, bytes, lead, ends⟩
    have whole : encodeChars text = lead ++ 13 :: (encodeChars ['\n', '\r', '\n'] ++ late) := by
      rw [bytes, ← ends, List.append_assoc]
      rfl
    obtain ⟨left, later, parts, _, rest⟩ :=
      encodeChars_around (show String.utf8EncodeChar '\r' = [13] by decide) whole
    obtain ⟨right, laterParts, rightBytes⟩ := encodeChars_eq_append rest
    have right_some : right ≠ [] := by
      rintro rfl
      exact some rightBytes.symm
    have lefts : splitLines text = splitLines left ++ [] :: splitLines right := by
      rw [parts, laterParts]
      show splitPair '\r' '\n' (left ++ '\r' :: '\n' :: ('\r' :: '\n' :: right)) = _
      rw [splitPair_append (by decide)]
      rfl
    rw [split] at lefts
    have single : splitLines right ≠ [[]] := fun alone => right_some (eq_nil_of_splitPair alone)
    have count := List.length_pos_of_ne_nil (splitPair_ne_nil '\r' '\n' right)
    -- The empty line stands behind all others only if nothing is right of it.
    rcases List.append_eq_append_iff.mp lefts with ⟨more, _, behind⟩ | ⟨more, before, behind⟩
    · cases more with
      | nil => exact absurd (List.cons.inj behind).2.symm single
      | cons lead more =>
        have sizes := congrArg List.length behind
        simp only [List.length_append, List.length_cons, List.length_nil] at sizes
        have same : (splitLines right).length = (splitPair '\r' '\n' right).length := rfl
        omega
    · cases more with
      | nil => exact absurd (List.cons.inj behind).2 single
      | cons lead more =>
        obtain ⟨head, tail, parts⟩ := List.exists_cons_of_ne_nil (splitPair_ne_nil '\r' '\n' left)
        have leftLines : splitLines left = head :: tail := parts
        rw [leftLines, List.cons_append] at before
        rw [(List.cons.inj before).2, ← (List.cons.inj behind).1]
        exact List.mem_append_right _ List.mem_cons_self
  · intro member
    obtain ⟨front, back, parts⟩ := List.append_of_mem member
    have around : splitLines text = (line :: front) ++ [] :: (back ++ [[], []]) := by
      rw [split, parts]
      simp
    obtain ⟨left, right, whole, _, rightLines⟩ := pair_of_empty_line (List.cons_ne_nil _ _)
      (List.append_ne_nil_of_right_ne_nil back (List.cons_ne_nil _ _)) around
    refine ⟨encodeChars left ++ headEnd, encodeChars right, ?_, ?_, List.suffix_append _ _⟩
    · intro empty
      have none : right = [] := by
        cases right with
        | nil => rfl
        | cons c rest => exact absurd (List.append_eq_nil_iff.mp empty).1 (encode_ne_nil c)
      have count := congrArg List.length rightLines
      rw [none] at count
      simp [splitLines, splitPair] at count
    · rw [whole]
      unfold encodeChars
      rw [List.flatMap_append, List.append_assoc]
      rfl

/-- A head within the cap is read to its end exactly where no line behind its first is empty. -/
theorem readHead_text {text line : List Char} {lines : List (List Char)} {body : List UInt8}
    (split : splitLines text = (line :: lines) ++ [[], []])
    (fits : (encodeChars text).length ≤ headCap) :
    readHead [] (encodeChars text ++ body) = .ok (encodeChars text, body) ↔ [] ∉ lines := by
  rw [← ends_early_iff split, readHead_eq_ok]
  constructor
  · rintro ⟨more, _, whole, _, first⟩ ⟨early, late, some, bytes, ends⟩
    rw [whole, List.nil_append] at bytes
    have open' := (first early late some bytes).1
    rw [List.nil_append] at open'
    exact open' ends
  · intro later
    refine ⟨encodeChars text, rfl, rfl, headEnd_suffix (List.cons_ne_nil _ _) split, ?_⟩
    intro early late some bytes
    rw [List.nil_append]
    refine ⟨fun ends => later ⟨early, late, some, bytes, ends⟩, ?_⟩
    have sizes := congrArg List.length bytes
    have size := List.length_pos_of_ne_nil some
    rw [List.length_append] at sizes
    omega

/-- No more is read than the head that was written. -/
theorem length_read_le {text : List Char} {body read rest : List UInt8}
    (ends : headEnd <:+ encodeChars text)
    (done : readHead [] (encodeChars text ++ body) = .ok (read, rest)) :
    read.length ≤ (encodeChars text).length := by
  by_contra longer
  obtain ⟨more, whole, same, _, first⟩ := readHead_eq_ok.mp done
  rw [List.nil_append] at same
  rw [← same] at whole first
  rcases List.append_eq_append_iff.mp whole with ⟨late, parts, _⟩ | ⟨late, parts, _⟩
  · have some : late ≠ [] := by
      rintro rfl
      rw [parts, List.append_nil] at longer
      exact longer (Nat.le_refl _)
    have open' := (first (encodeChars text) late some parts).1
    exact open' ends
  · rw [parts, List.length_append] at longer
    omega

/-- What is left of a request behind its head. -/
theorem rest_of_readHead {text : List Char} {body read rest : List UInt8}
    (ends : headEnd <:+ encodeChars text)
    (done : readHead [] (encodeChars text ++ body) = .ok (read, rest))
    (size : rest.length ≤ body.length) : read = encodeChars text ∧ rest = body := by
  have bound := length_read_le ends done
  obtain ⟨more, whole, same, _, _⟩ := readHead_eq_ok.mp done
  rw [List.nil_append] at same
  rw [← same] at whole
  have sizes := congrArg List.length whole
  rw [List.length_append, List.length_append] at sizes
  have split := List.append_inj whole (by omega)
  exact ⟨split.1.symm, split.2.symm⟩

end Heads

section Lines

/-- The lines of a head behind those of its authority. -/
def closingLines (req : ClientRequest) : List (List Char) :=
  req.authorization.toList.map (fun value => "Authorization: ".toList ++ value) ++
  ["Content-Type: application/json".toList, "Accept: application/json".toList,
    "Content-Length: ".toList ++ Nat.toDigits 10 req.body.length, "Connection: close".toList,
    "User-Agent: texo/0.2.0".toList]

/-- The line of the host. -/
def hostLine (url : ParsedUrl) : List Char :=
  "Host: ".toList ++ (splitLines url.authority).headD []

/-- The request line. -/
def openingLine (req : ClientRequest) : List Char :=
  req.method.asStr ++ ' ' :: (req.url.pathAndQuery ++ " HTTP/1.1".toList)

/-- A request line with a target of one word is read as it was written. -/
theorem requestLine_opening {req : ClientRequest} (nonempty : req.url.pathAndQuery ≠ [])
    (solid : ∀ c ∈ req.url.pathAndQuery, isWhitespace c = false) :
    requestLine (openingLine req) = .ok (req.method, req.url.pathAndQuery) := by
  have words : splitWhitespace (openingLine req) =
      [req.method.asStr, req.url.pathAndQuery, "HTTP/1.1".toList] := by
    have version : " HTTP/1.1".toList = ' ' :: "HTTP/1.1".toList := by decide
    have last : splitWhitespace "HTTP/1.1".toList = ["HTTP/1.1".toList] := by decide +kernel
    have named : splitWhitespace req.method.asStr = [req.method.asStr] := by
      cases req.method with
      | get => decide +kernel
      | post => decide +kernel
    unfold openingLine
    rw [splitWhitespace_append_cons _ _ (by decide), named, version,
      splitWhitespace_append_cons _ _ (by decide), last, splitWhitespace_solid nonempty solid]
    rfl
  have method : methodOf req.method.asStr = some req.method := by
    cases req.method with
    | get => decide
    | post => decide
  have version : "HTTP/".toList.isPrefixOf "HTTP/1.1".toList = true := by decide
  unfold requestLine
  rw [words]
  dsimp only
  rw [method]
  dsimp only
  rw [if_pos version]

/-- Lines without a line end are the lines of themselves. -/
theorem flatMap_splitLines {lines : List (List Char)} (clear : ∀ line ∈ lines, '\r' ∉ line) :
    lines.flatMap splitLines = lines := by
  induction lines with
  | nil => rfl
  | cons line rest ih =>
    have alone : splitLines line = [line] := splitPair_clear (clear line List.mem_cons_self)
    rw [List.flatMap_cons, alone, ih (fun other member => clear other (List.mem_cons_of_mem _ member))]
    rfl

/-- The closing lines hold no line end. -/
theorem notMem_closingLines {req : ClientRequest}
    (clear : ∀ value, req.authorization = some value → ∀ c ∈ value, isControl c = false) :
    ∀ line ∈ closingLines req, '\r' ∉ line := by
  intro line member
  unfold closingLines at member
  rcases List.mem_append.mp member with authorized | fixed
  · obtain ⟨value, found, rfl⟩ := List.mem_map.mp authorized
    intro inside
    rcases List.mem_append.mp inside with lead | within
    · exact absurd lead (by decide)
    · exact absurd (clear value (Option.mem_toList.mp found) '\r' within) (by decide)
  · simp only [List.mem_cons, List.not_mem_nil, or_false] at fixed
    rcases fixed with rfl | rfl | rfl | rfl | rfl
    · decide
    · decide
    · intro inside
      rcases List.mem_append.mp inside with lead | within
      · exact absurd lead (by decide)
      · exact notMem_decimal (by decide) _ within
    · decide
    · decide

/-- The lines of a head whose target is one word. -/
theorem flatMap_headLines {req : ClientRequest}
    (solid : ∀ c ∈ req.url.pathAndQuery, isWhitespace c = false)
    (clear : ∀ value, req.authorization = some value → ∀ c ∈ value, isControl c = false) :
    req.headLines.flatMap splitLines =
      openingLine req :: (hostLine req.url :: extraLines req.url ++ closingLines req) := by
  have parts : req.headLines =
      openingLine req :: ("Host: ".toList ++ req.url.authority) :: closingLines req := rfl
  have opening : splitLines (openingLine req) = [openingLine req] := by
    apply splitPair_clear
    unfold openingLine
    intro inside
    rcases List.mem_append.mp inside with lead | behind
    · cases named : req.method with
      | get =>
        rw [named] at lead
        exact absurd lead (by decide)
      | post =>
        rw [named] at lead
        exact absurd lead (by decide)
    · rcases List.mem_cons.mp behind with blank | later
      · cases blank
      · rcases List.mem_append.mp later with target | version
        · exact absurd (solid '\r' target) (by decide)
        · exact absurd version (by decide)
  have host : splitLines ("Host: ".toList ++ req.url.authority) =
      hostLine req.url :: extraLines req.url := by
    obtain ⟨head, tail, split⟩ :=
      List.exists_cons_of_ne_nil (splitPair_ne_nil '\r' '\n' req.url.authority)
    have lines : splitLines req.url.authority = head :: tail := split
    show splitPair '\r' '\n' _ = _
    rw [splitPair_clear_append (by decide), split]
    unfold hostLine extraLines
    rw [lines]
    rfl
  rw [parts, List.flatMap_cons, List.flatMap_cons, opening, host,
    flatMap_splitLines (notMem_closingLines clear)]
  rfl

/-- The headers of the closing lines. -/
theorem map_headerOf_closing (req : ClientRequest) :
    (closingLines req).map headerOf =
      req.authorization.toList.map (fun value => ("Authorization".toList, trim value)) ++
      [("Content-Type".toList, "application/json".toList),
        ("Accept".toList, "application/json".toList),
        ("Content-Length".toList, Nat.toDigits 10 req.body.length),
        ("Connection".toList, "close".toList), ("User-Agent".toList, "texo/0.2.0".toList)] := by
  have visible : ∀ c ∈ Nat.toDigits 10 req.body.length, isWhitespace c = false := by
    intro c member
    have digit := isDigit_of_mem_decimal member
    simp only [Char.isDigit, Bool.and_eq_true, decide_eq_true_eq, UInt32.le_iff_toNat_le] at digit
    apply isWhitespace_visible
    · exact Nat.lt_of_lt_of_le (by decide) digit.1
    · exact Nat.lt_of_le_of_lt digit.2 (by decide)
  have length : headerOf ("Content-Length: ".toList ++ Nat.toDigits 10 req.body.length) =
      ("Content-Length".toList, Nat.toDigits 10 req.body.length) := by
    have parts : "Content-Length: ".toList ++ Nat.toDigits 10 req.body.length =
        "Content-Length".toList ++ ':' :: ' ' :: Nat.toDigits 10 req.body.length := by rfl
    have name : trim "Content-Length".toList = "Content-Length".toList := by decide +kernel
    rw [parts, headerOf_named (by decide), name, trim_cons (by decide), trim_solid visible]
  have authorized : ∀ value, headerOf ("Authorization: ".toList ++ value) =
      ("Authorization".toList, trim value) := by
    intro value
    have parts : "Authorization: ".toList ++ value = "Authorization".toList ++ ':' :: ' ' :: value := by
      rfl
    have name : trim "Authorization".toList = "Authorization".toList := by decide +kernel
    rw [parts, headerOf_named (by decide), name, trim_cons (by decide)]
  have content : headerOf "Content-Type: application/json".toList =
      ("Content-Type".toList, "application/json".toList) := by decide +kernel
  have accept : headerOf "Accept: application/json".toList =
      ("Accept".toList, "application/json".toList) := by decide +kernel
  have connection : headerOf "Connection: close".toList =
      ("Connection".toList, "close".toList) := by decide +kernel
  have agent : headerOf "User-Agent: texo/0.2.0".toList =
      ("User-Agent".toList, "texo/0.2.0".toList) := by decide +kernel
  have front : (req.authorization.toList.map fun value => "Authorization: ".toList ++ value).map
      headerOf =
      req.authorization.toList.map fun value => ("Authorization".toList, trim value) := by
    rw [List.map_map]
    apply List.map_congr_left
    intro value _
    exact authorized value
  unfold closingLines
  rw [List.map_append, front]
  simp only [List.map_cons, List.map_nil, content, accept, length, connection, agent]

/-- Each closing line has a name. -/
theorem named_of_mem_closing {req : ClientRequest} {line : List Char}
    (member : line ∈ closingLines req) : ':' ∈ line := by
  unfold closingLines at member
  rcases List.mem_append.mp member with authorized | fixed
  · obtain ⟨value, _, rfl⟩ := List.mem_map.mp authorized
    exact List.mem_append_left _ (by decide)
  · simp only [List.mem_cons, List.not_mem_nil, or_false] at fixed
    rcases fixed with rfl | rfl | rfl | rfl | rfl
    · decide
    · decide
    · exact List.mem_append_left _ (by decide)
    · decide
    · decide

/-- The closing lines announce no transfer encoding. -/
theorem closing_framing (req : ClientRequest) :
    header ((closingLines req).map headerOf) "transfer-encoding".toList = none := by
  rw [map_headerOf_closing, header_eq_none]
  intro candidate member
  rcases List.mem_append.mp member with authorized | fixed
  · obtain ⟨value, _, rfl⟩ := List.mem_map.mp authorized
    show eqIgnoreAsciiCase "Authorization".toList "transfer-encoding".toList = false
    decide
  · simp only [List.mem_cons, List.not_mem_nil, or_false] at fixed
    rcases fixed with rfl | rfl | rfl | rfl | rfl
    · decide
    · decide
    · show eqIgnoreAsciiCase "Content-Length".toList "transfer-encoding".toList = false
      decide
    · decide
    · decide

/-- The closing lines announce the length of the body. -/
theorem closing_length (req : ClientRequest) :
    header ((closingLines req).map headerOf) "content-length".toList =
      some (Nat.toDigits 10 req.body.length) := by
  have absent : header (req.authorization.toList.map fun value => ("Authorization".toList, trim value))
      "content-length".toList = none := by
    rw [header_eq_none]
    intro candidate member
    obtain ⟨value, _, rfl⟩ := List.mem_map.mp member
    show eqIgnoreAsciiCase "Authorization".toList "content-length".toList = false
    decide
  have content : eqIgnoreAsciiCase "Content-Type".toList "content-length".toList = false := by decide
  have accept : eqIgnoreAsciiCase "Accept".toList "content-length".toList = false := by decide
  have length : eqIgnoreAsciiCase "Content-Length".toList "content-length".toList = true := by decide
  rw [map_headerOf_closing, header_append, absent, Option.none_or]
  unfold header
  rw [List.find?_cons_of_neg (by simp only [content]; decide),
    List.find?_cons_of_neg (by simp only [accept]; decide), List.find?_cons_of_pos (by exact length)]
  rfl

end Lines

section Bodies

/-- A `GET` is read whole exactly where nothing stands behind its head. -/
theorem readBody_get {headers : List (List Char × List Char)} {rest body : List UInt8} :
    readBody .get headers rest = .ok (body, []) ↔ body = [] ∧ rest = [] := by
  unfold readBody
  simp [eq_comm]

/-- A `POST` is read whole exactly where its length is that of what stands behind its head. -/
theorem readBody_post {headers : List (List Char × List Char)} {rest body : List UInt8} :
    readBody .post headers rest = .ok (body, []) ↔
      body = rest ∧ rest.length ≤ bodyCap ∧
        ∃ value, header headers "content-length".toList = some value ∧
          parseUnsigned (2 ^ 64) value = some rest.length := by
  unfold readBody
  dsimp only
  cases announced : header headers "content-length".toList with
  | none => simp
  | some value =>
    dsimp only
    cases parsed : parseUnsigned (2 ^ 64) value with
    | none =>
      constructor
      · intro read
        cases read
      · rintro ⟨_, _, other, found, read⟩
        cases found
        rw [parsed] at read
        cases read
    | some len =>
      dsimp only
      constructor
      · intro read
        split at read
        · cases read
        · split at read
          · cases read
          · rename_i within enough
            obtain ⟨taken, dropped⟩ := Prod.mk.inj (Except.ok.inj read)
            have short := List.drop_eq_nil_iff.mp dropped
            have same : len = rest.length := by omega
            rw [same, List.take_length] at taken
            rw [← same]
            exact ⟨taken.symm, by omega, value, rfl, parsed⟩
      · rintro ⟨whole, within, other, found, read⟩
        cases found
        rw [parsed] at read
        cases read
        rw [if_neg (by omega), if_neg (by omega), List.take_length, List.drop_length, whole]

end Bodies

section Requests

variable {req : ClientRequest}

/-- The line of the host has a name. -/
theorem named_hostLine (url : ParsedUrl) : ':' ∈ hostLine url :=
  List.mem_append_left _ (by decide)

/-- A header other than that of the host is looked up in the lines of the authority first. -/
theorem header_lines {name : List Char} (other : eqIgnoreAsciiCase "Host".toList name = false)
    (req : ClientRequest) :
    header ((hostLine req.url :: extraLines req.url ++ closingLines req).map headerOf) name =
      (header ((extraLines req.url).map headerOf) name).or
        (header ((closingLines req).map headerOf) name) := by
  have host : header [headerOf (hostLine req.url)] name = none := by
    have named : (headerOf (hostLine req.url)).1 = "Host".toList := by
      have parts : hostLine req.url =
          "Host".toList ++ ':' :: ' ' :: (splitLines req.url.authority).headD [] := by rfl
      rw [parts, headerOf_named (by decide)]
      show trim "Host".toList = "Host".toList
      decide +kernel
    rw [header_eq_none]
    intro candidate member
    rw [List.mem_singleton.mp member, named]
    exact other
  have parts : (hostLine req.url :: extraLines req.url ++ closingLines req).map headerOf =
      [headerOf (hostLine req.url)] ++
        ((extraLines req.url).map headerOf ++ (closingLines req).map headerOf) := by
    simp
  rw [parts, header_append, host, header_append]
  rfl

/-- No transfer encoding is read exactly where no line of the authority announces one. -/
theorem framing_iff :
    header ((hostLine req.url :: extraLines req.url ++ closingLines req).map headerOf)
        "transfer-encoding".toList = none ↔
      ∀ line ∈ extraLines req.url,
        eqIgnoreAsciiCase (headerOf line).1 "transfer-encoding".toList = false := by
  rw [header_lines (by decide), closing_framing, Option.or_none, header_eq_none]
  exact List.forall_mem_map

/-- The length of the body is read exactly where no line of the authority announces another. -/
theorem length_iff (small : req.body.length ≤ bodyCap) :
    (∃ value, header ((hostLine req.url :: extraLines req.url ++ closingLines req).map headerOf)
        "content-length".toList = some value ∧
      parseUnsigned (2 ^ 64) value = some req.body.length) ↔
      ∀ value, header ((extraLines req.url).map headerOf) "content-length".toList = some value →
        parseUnsigned (2 ^ 64) value = some req.body.length := by
  have written : parseUnsigned (2 ^ 64) (Nat.toDigits 10 req.body.length) = some req.body.length := by
    apply parseUnsigned_decimal
    exact Nat.lt_of_le_of_lt small (by decide)
  rw [header_lines (by decide), closing_length]
  cases header ((extraLines req.url).map headerOf) "content-length".toList with
  | none => exact ⟨fun _ value found => absurd found (by simp), fun _ => ⟨_, rfl, written⟩⟩
  | some value => simp

/-- The lines of a head whose target is one word. -/
theorem splitLines_solid (solid : ∀ c ∈ req.url.pathAndQuery, isWhitespace c = false)
    (clear : ∀ value, req.authorization = some value → ∀ c ∈ value, isControl c = false) :
    splitLines req.head =
      (openingLine req :: (hostLine req.url :: extraLines req.url ++ closingLines req)) ++
        [[], []] := by
  rw [splitLines_head, flatMap_headLines solid clear]

/-- Every line behind the first has a name exactly where the further lines of the authority do. -/
theorem named_iff : (∀ line ∈ hostLine req.url :: extraLines req.url ++ closingLines req, ':' ∈ line) ↔
    ∀ line ∈ extraLines req.url, ':' ∈ line := by
  constructor
  · intro all line member
    exact all line (List.mem_append_left _ (List.mem_cons_of_mem _ member))
  · intro all line member
    rcases List.mem_append.mp member with lead | closing
    · rcases List.mem_cons.mp lead with rfl | extra
      · exact named_hostLine req.url
      · exact all line extra
    · exact named_of_mem_closing closing

/-- A request whose target is one word and whose lines are headers is read as it was written. -/
theorem delivered_of_sendable (nonempty : req.url.pathAndQuery ≠ [])
    (small : req.body.length ≤ bodyCap) (fits : (encodeChars req.head).length ≤ headCap)
    (clear : ∀ value, req.authorization = some value → ∀ c ∈ value, isControl c = false)
    (sendable : Sendable req) : Delivered req := by
  have lines := splitLines_solid sendable.target clear
  have named := (@named_iff req).mpr sendable.lines
  have full : ∀ line ∈ hostLine req.url :: extraLines req.url ++ closingLines req, line ≠ [] := by
    rintro line member rfl
    exact absurd (named [] member) List.not_mem_nil
  have head : readHead [] (writeRequest req) = .ok (encodeChars req.head, req.body) :=
    (readHead_text lines fits).mpr fun member => full [] member rfl
  have headers := (@headerLines_eq_ok _ [[]] _ full).mpr ⟨named, rfl⟩
  have body : readBody req.method
      ((hostLine req.url :: extraLines req.url ++ closingLines req).map headerOf) req.body =
      .ok (req.body, []) := by
    cases method : req.method with
    | get => exact readBody_get.mpr ⟨sendable.bodiless method, sendable.bodiless method⟩
    | post =>
      exact readBody_post.mpr ⟨rfl, small, (length_iff small).mpr (sendable.length method)⟩
  refine ⟨⟨req.method, (splitTarget req.url.pathAndQuery).1, (splitTarget req.url.pathAndQuery).2,
    (hostLine req.url :: extraLines req.url ++ closingLines req).map headerOf, req.body⟩,
    ?_, rfl, rfl, fun _ => rfl⟩
  apply parse_eq_ok.mpr
  refine ⟨encodeChars req.head, req.body, req.head, req.url.pathAndQuery, head,
    headText_encode req.head, ?_, ?_, framing_iff.mpr sendable.framing, body, rfl⟩
  · rw [lines]
    exact requestLine_opening nonempty sendable.target
  · rw [lines]
    exact headers

/-- A request that is delivered survives its format. -/
theorem sendable_of_delivered (small : req.body.length ≤ bodyCap)
    (fits : (encodeChars req.head).length ≤ headCap)
    (clear : ∀ value, req.authorization = some value → ∀ c ∈ value, isControl c = false)
    (delivered : Delivered req) : Sendable req := by
  obtain ⟨got, parsed, method, path, bodies⟩ := delivered
  obtain ⟨head, rest, text, target, whole, read, line, headers, framing, body, parts⟩ :=
    parse_eq_ok.mp parsed
  have same : target = req.url.pathAndQuery := splitTarget_inj (parts.symm.trans path)
  have solid := solid_of_requestLine line
  rw [same] at solid
  have lines := splitLines_solid solid clear
  have ends := headEnd_suffix (List.cons_ne_nil _ _) lines
  rw [method] at body
  have left : rest.length ≤ req.body.length := by
    cases named : req.method with
    | get =>
      rw [named] at body
      rw [(readBody_get.mp body).2]
      exact Nat.zero_le _
    | post =>
      rw [named] at body
      rw [← (readBody_post.mp body).1, bodies named]
  obtain ⟨heads, rests⟩ := rest_of_readHead ends whole left
  rw [heads, rests] at whole
  rw [rests] at body
  have later := (readHead_text lines fits).mp whole
  have full : ∀ line ∈ hostLine req.url :: extraLines req.url ++ closingLines req, line ≠ [] := by
    rintro line member rfl
    exact later member
  rw [heads, headText_encode] at read
  cases read
  rw [lines] at headers
  obtain ⟨named, listed⟩ := (@headerLines_eq_ok _ [[]] _ full).mp headers
  rw [listed] at framing body
  refine ⟨solid, ?_, named_iff.mp named, framing_iff.mp framing, ?_⟩
  · intro get
    rw [get] at body
    exact (readBody_get.mp body).2
  · intro post
    rw [post] at body
    exact (length_iff small).mp (readBody_post.mp body).2.2

/-- A request to a URL that is read is delivered exactly where it survives its format. -/
theorem delivered_iff [IpAddresses] {value : List Char} (read : ParsedUrl.parse value = .ok req.url)
    (small : req.body.length ≤ bodyCap) (fits : (encodeChars req.head).length ≤ headCap)
    (clear : ∀ value, req.authorization = some value → ∀ c ∈ value, isControl c = false) :
    Delivered req ↔ Sendable req := by
  obtain ⟨path, rooted⟩ := ParsedUrl.pathAndQuery_of_parse read
  have nonempty : req.url.pathAndQuery ≠ [] := by
    rw [rooted]
    exact List.cons_ne_nil _ _
  exact ⟨sendable_of_delivered small fits clear, delivered_of_sendable nonempty small fits clear⟩

end Requests

/-- `str::parse::<IpAddr>` of names and of the loopback address. -/
@[reducible] def loopbackAddresses : IpAddresses where
  parse host := if host = "127.0.0.1".toList then some true else none

/-- A post of two bytes to a URL with a port and a query. -/
def plainRequest : ClientRequest :=
  ⟨.post, ⟨"https".toList, "example.com".toList, 8443, "/mcp?session=1".toList⟩,
    [("authorization".toList, "Bearer key".toList)], [0x7B, 0x7D]⟩

/-- A post to a URL with a port and a query is delivered. -/
theorem delivered_plain : Delivered plainRequest := by
  have read : @ParsedUrl.parse loopbackAddresses "https://example.com:8443/mcp?session=1".toList =
      .ok plainRequest.url := by rfl
  have alone : extraLines plainRequest.url = [] := by decide +kernel
  have clear : ∀ value, plainRequest.authorization = some value →
      ∀ c ∈ value, isControl c = false := by
    have all : plainRequest.authorization.all (·.all fun c => !isControl c) = true := by
      decide +kernel
    intro value found c member
    rw [found] at all
    simpa using List.all_eq_true.mp all c member
  apply (@delivered_iff plainRequest loopbackAddresses _ read (by decide +kernel) (by decide +kernel)
    clear).mpr
  refine ⟨?_, (by intro get; cases get), ?_, ?_, ?_⟩
  · have all : plainRequest.url.pathAndQuery.all (fun c => !isWhitespace c) = true := by
      decide +kernel
    intro c member
    simpa using List.all_eq_true.mp all c member
  · rw [alone]
    exact fun line member => absurd member List.not_mem_nil
  · rw [alone]
    exact fun line member => absurd member List.not_mem_nil
  · intro _ value found
    rw [alone] at found
    cases found

/-- A read of a path with a space. -/
def spacedRequest : ClientRequest :=
  ⟨.get, ⟨"http".toList, "localhost".toList, 80, "/a b".toList⟩, [], []⟩

/-- A URL whose path has a space is read, and a request to it is not delivered. -/
theorem spaced_not_delivered :
    @ParsedUrl.parse loopbackAddresses "http://localhost/a b".toList = .ok spacedRequest.url ∧
      spacedRequest.body.length ≤ bodyCap ∧ (encodeChars spacedRequest.head).length ≤ headCap ∧
      spacedRequest.authorization = none ∧ ¬Delivered spacedRequest := by
  have fits : (encodeChars spacedRequest.head).length ≤ headCap := by decide +kernel
  have unauthorized : spacedRequest.authorization = none := by rfl
  refine ⟨by rfl, Nat.zero_le _, fits, unauthorized, ?_⟩
  intro delivered
  have sendable := sendable_of_delivered (Nat.zero_le _) fits (by rw [unauthorized]; simp) delivered
  have blank := sendable.target ' ' (by decide)
  exact absurd blank (by decide)

end Texo.Surfaces.Http
