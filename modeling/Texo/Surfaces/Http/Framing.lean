import Texo.Surfaces.Http.Exchange

/-! # The framing of a request

A request that is read has taken its head up to the first empty line and the bytes its length
announces. Nothing behind them has a part in it.
-/
namespace Texo.Surfaces.Http
open Texo.Events Texo.Extract Texo.Foundation Texo.Ops

/-- What a request takes of a stream: a head, and behind it the body. -/
structure Framed (head : List UInt8) (got : HttpRequest) : Prop where
  ends : headEnd <:+ head
  first : ∀ early late, late ≠ [] → head = early ++ late → ¬headEnd <:+ early
  head_le : head.length ≤ headCap
  body_le : got.body.length ≤ bodyCap
  lines : ∃ text line lines, encodeChars text = head ∧
    splitLines text = (line :: lines) ++ [[], []] ∧ [] ∉ lines ∧ got.headers = lines.map headerOf
  plain : ∀ candidate ∈ got.headers,
    eqIgnoreAsciiCase candidate.1 "transfer-encoding".toList = false
  bodiless : got.method = .get → got.body = []
  announced : got.method = .post → ∃ before name value after,
    got.headers = before ++ (name, value) :: after ∧
      eqIgnoreAsciiCase name "content-length".toList = true ∧
      (∀ candidate ∈ before, eqIgnoreAsciiCase candidate.1 "content-length".toList = false) ∧
      parseUnsigned (2 ^ 64) value = some got.body.length

/-- A header that is found is the first of its name. -/
theorem header_eq_some {headers : List (List Char × List Char)} {name value : List Char}
    (found : header headers name = some value) : ∃ before called after,
      headers = before ++ (called, value) :: after ∧ eqIgnoreAsciiCase called name = true ∧
        ∀ candidate ∈ before, eqIgnoreAsciiCase candidate.1 name = false := by
  unfold header at found
  obtain ⟨candidate, first, same⟩ := Option.map_eq_some_iff.mp found
  obtain ⟨named, before, after, parts, others⟩ := List.find?_eq_some_iff_append.mp first
  refine ⟨before, candidate.1, after, by rw [parts, ← same], named, ?_⟩
  intro other member
  simpa using others other member

/-- A text whose bytes end as a head does has one empty line behind its others. -/
theorem lines_of_headEnd {text : List Char} (ends : headEnd <:+ encodeChars text) :
    ∃ line lines, splitLines text = (line :: lines) ++ [[], []] := by
  obtain ⟨lead, bytes⟩ := ends
  have whole : encodeChars text = lead ++ 13 :: encodeChars ['\n', '\r', '\n'] := bytes.symm
  obtain ⟨left, later, parts, _, rest⟩ :=
    encodeChars_around (show String.utf8EncodeChar '\r' = [13] by decide) whole
  rw [← List.append_nil (encodeChars ['\n', '\r', '\n'])] at rest
  obtain ⟨right, behind, nothing⟩ := encodeChars_eq_append rest
  have none : right = [] := by
    cases right with
    | nil => rfl
    | cons c tail => exact absurd (List.append_eq_nil_iff.mp nothing).1 (encode_ne_nil c)
  have split : splitLines text = splitLines left ++ [[], []] := by
    rw [parts, behind, none]
    show splitPair '\r' '\n' (left ++ '\r' :: '\n' :: ['\r', '\n']) = _
    rw [splitPair_append (by decide)]
    rfl
  obtain ⟨line, lines, some⟩ := List.exists_cons_of_ne_nil (splitPair_ne_nil '\r' '\n' left)
  have leftLines : splitLines left = line :: lines := some
  exact ⟨line, lines, by rw [split, leftLines]⟩

/-- A head is read up to its first end, whatever stands behind it. -/
theorem readHead_stable {stream read rest : List UInt8}
    (done : readHead [] stream = .ok (read, rest)) :
    stream = read ++ rest ∧ headEnd <:+ read ∧ read.length ≤ headCap ∧
      (∀ early late, late ≠ [] → read = early ++ late → ¬headEnd <:+ early) ∧
      ∀ other, readHead [] (read ++ other) = .ok (read, other) := by
  obtain ⟨more, whole, same, ends, first⟩ := readHead_eq_ok.mp done
  rw [List.nil_append] at same
  rw [← same] at whole first
  have open' : ∀ early late, late ≠ [] → read = early ++ late →
      ¬headEnd <:+ early ∧ early.length < headCap := first
  have within : read.length ≤ headCap := by
    rcases List.eq_nil_or_concat read with empty | ⟨early, last, parts⟩
    · rw [empty]
      exact Nat.zero_le _
    · have short := (open' early [last] (List.cons_ne_nil _ _) (by rw [parts, List.concat_eq_append])).2
      have size := congrArg List.length parts
      rw [List.length_concat] at size
      omega
  refine ⟨whole, ends, within, fun early late some parts => (open' early late some parts).1, ?_⟩
  intro other
  exact readHead_eq_ok.mpr ⟨read, rfl, rfl, ends, first⟩

/-- The bytes a body takes, whatever stands behind them. -/
theorem readBody_stable {method : Method} {headers : List (List Char × List Char)}
    {rest body left : List UInt8} (done : readBody method headers rest = .ok (body, left)) :
    rest = body ++ left ∧ body.length ≤ bodyCap ∧ (method = .get → body = []) ∧
      (method = .post → ∃ value, header headers "content-length".toList = some value ∧
        parseUnsigned (2 ^ 64) value = some body.length) ∧
      ∀ other, readBody method headers (body ++ other) = .ok (body, other) := by
  cases method with
  | get =>
    cases done
    exact ⟨rfl, Nat.zero_le _, fun _ => rfl, (by intro other; cases other), fun _ => rfl⟩
  | post =>
    unfold readBody at done
    dsimp only at done
    split at done
    · cases done
    · rename_i value found
      split at done
      · cases done
      · rename_i len number
        split at done
        · cases done
        · rename_i small
          split at done
          · cases done
          · rename_i long
            cases done
            have size : (rest.take len).length = len := by
              rw [List.length_take]
              omega
            refine ⟨(List.take_append_drop len rest).symm, by omega, (by intro get; cases get),
              fun _ => ⟨value, found, by rw [size]; exact number⟩, ?_⟩
            intro other
            have enough : ¬(rest.take len ++ other).length < len := by
              rw [List.length_append]
              omega
            have front : (rest.take len ++ other).take len = rest.take len := by
              rw [List.take_append_of_le_length (by omega), List.take_take, Nat.min_self]
            have back : (rest.take len ++ other).drop len = other := by
              rw [List.drop_append_of_le_length (by omega), List.drop_eq_nil_of_le (by omega)]
              rfl
            unfold readBody
            dsimp only
            rw [found]
            dsimp only
            rw [number]
            dsimp only
            rw [if_neg small, if_neg enough, front, back]

/-- The text of a head is the one its bytes encode. -/
theorem encodeChars_of_headText {head : List UInt8} {text : List Char}
    (read : headText head = .ok text) : encodeChars text = head := by
  unfold headText at read
  split at read
  · cases read
  · rename_i found whole
    cases read
    exact fromUtf8_eq_some.mp whole

/-- A stream that is accepted is a framed request and what is left, and the same request is read
of the frame with anything else behind it. -/
theorem parse_framed {stream left : List UInt8} {got : HttpRequest}
    (parsed : parse stream = .ok (got, left)) :
    ∃ head, stream = head ++ got.body ++ left ∧ Framed head got ∧
      ∀ other, parse (head ++ got.body ++ other) = .ok (got, other) := by
  obtain ⟨head, rest, text, target, heads, texts, line, lines, plain, bodies, parts⟩ :=
    parse_eq_ok.mp parsed
  obtain ⟨whole, ends, head_le, first, again⟩ := readHead_stable heads
  obtain ⟨split, body_le, bodiless, announced, same⟩ := readBody_stable bodies
  have bytes := encodeChars_of_headText texts
  have closing : headEnd <:+ encodeChars text := by
    rw [bytes]
    exact ends
  obtain ⟨opening, others, textLines⟩ := lines_of_headEnd closing
  have nonempty : [] ∉ others := by
    intro empty
    obtain ⟨early, late, some, cut, early_ends⟩ := (ends_early_iff textLines).mpr empty
    exact first early late some (by rw [← bytes]; exact cut) early_ends
  have headers : got.headers = others.map headerOf := by
    have read : headerLines (others ++ [] :: [[]]) = .ok got.headers := by
      rw [textLines] at lines
      exact lines
    have each : ∀ line ∈ others, line ≠ [] := by
      intro line member none
      rw [none] at member
      exact nonempty member
    exact ((headerLines_eq_ok each).mp read).2
  refine ⟨head, by rw [whole, split, List.append_assoc], ?_, ?_⟩
  · constructor
    · exact ends
    · exact first
    · exact head_le
    · exact body_le
    · exact ⟨text, opening, others, bytes, textLines, nonempty, headers⟩
    · exact header_eq_none.mp plain
    · exact bodiless
    · intro post
      obtain ⟨value, found, number⟩ := announced post
      obtain ⟨before, name, after, held, named, front⟩ := header_eq_some found
      exact ⟨before, name, value, after, held, named, front, number⟩
  · intro other
    apply parse_eq_ok.mpr
    refine ⟨head, got.body ++ other, text, target, ?_, texts, line, lines, plain, same other, parts⟩
    rw [List.append_assoc]
    exact again _

/-- The head of a post that gives its length twice. -/
def repeatedHead : List Char :=
  "POST /mcp HTTP/1.1\r\ncontent-length: 2\r\nContent-Length: 9\r\n\r\n".toList

/-- The post of two bytes whose length is given twice. -/
def repeatedPost : HttpRequest :=
  ⟨.post, "/mcp".toList, none,
    [("content-length".toList, "2".toList), ("Content-Length".toList, "9".toList)], [0x7B, 0x7D]⟩

/-- The first length counts, and the next request on the stream is left alone. -/
theorem repeated_framed : ∃ head,
    encodeChars repeatedHead ++ [0x7B, 0x7D] ++ [0x47, 0x45] =
        head ++ repeatedPost.body ++ [0x47, 0x45] ∧ Framed head repeatedPost ∧
      ∀ other, parse (head ++ repeatedPost.body ++ other) = .ok (repeatedPost, other) := by
  apply parse_framed
  apply parse_eq_ok.mpr
  refine ⟨encodeChars repeatedHead, [0x7B, 0x7D, 0x47, 0x45], repeatedHead, "/mcp".toList,
    by decide +kernel, headText_encode _, by decide +kernel, by decide +kernel, by decide +kernel,
    by decide +kernel, by decide +kernel⟩

end Texo.Surfaces.Http
