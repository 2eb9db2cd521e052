import Texo.Extract.Words
import Texo.Foundation.Fields
import Texo.Foundation.Search
import Texo.Foundation.Utf8

/-! # Requests of the HTTP client

The URLs the client takes and the bytes it writes for a request. Host, path and query are written as
they stand in the URL.
-/
namespace Texo.Surfaces.Http
open Texo.Extract Texo.Foundation

/-- `Method`. -/
inductive Method where
  | get
  | post
deriving DecidableEq, Repr

/-- `Method::as_str`. -/
def Method.asStr : Method → List Char
  | .get => "GET".toList
  | .post => "POST".toList

/-- `HttpClientError`, the failures of reading a URL. -/
inductive HttpClientError where
  | url (detail : String)
  | plainHttpNonLoopback
deriving DecidableEq, Repr

/-- `ParsedUrl`. -/
structure ParsedUrl where
  scheme : List Char
  host : List Char
  port : Nat
  pathAndQuery : List Char
deriving DecidableEq

/-- `str::parse::<IpAddr>`: whether the address is a loopback one. -/
class IpAddresses where
  parse : List Char → Option Bool

/-- `is_loopback_host`. -/
def isLoopbackHost [IpAddresses] (host : List Char) : Bool :=
  host = "localhost".toList || IpAddresses.parse host = some true

/-- The port of a scheme. -/
def defaultPort (scheme : List Char) : Nat := if scheme = "http".toList then 80 else 443

/-- `parse_authority`. -/
def parseAuthority (authority scheme : List Char) : Except HttpClientError (List Char × Nat) :=
  match rsplitOnce ':' authority with
  | none => .ok (authority, defaultPort scheme)
  | some (host, portText) =>
    if host.isEmpty ∨ portText.isEmpty then
      .error (.url "invalid host or port")
    else
      match parseUnsigned (2 ^ 16) portText with
      | none => .error (.url "invalid port")
      | some port => .ok (host, port)

/-- The authority and the path with the query of what is behind the scheme. -/
def splitPath (rest : List Char) : List Char × List Char :=
  match splitOnce ['/'] rest with
  | some (authority, path) => (authority, '/' :: path)
  | none => (rest, ['/'])

/-- `ParsedUrl::parse`, behind the scheme. -/
def ParsedUrl.parseRest [IpAddresses] (scheme rest : List Char) :
    Except HttpClientError ParsedUrl :=
  let (authority, pathAndQuery) := splitPath rest
  if authority.isEmpty then
    .error (.url "missing host")
  else if '@' ∈ authority then
    .error (.url "userinfo is not supported")
  else if authority.head? = some '[' then
    .error (.url "IP-literal hosts are not supported")
  else
    match parseAuthority authority scheme with
    | .error error => .error error
    | .ok (host, port) =>
      if (IpAddresses.parse host).isSome ∧
          ¬(scheme = "http".toList ∧ isLoopbackHost host = true) then
        .error (.url "IP-literal hosts are not supported")
      else if scheme = "http".toList ∧ isLoopbackHost host = false then
        .error .plainHttpNonLoopback
      else
        .ok ⟨scheme, host, port, pathAndQuery⟩

/-- `ParsedUrl::parse`. -/
def ParsedUrl.parse [IpAddresses] (value : List Char) : Except HttpClientError ParsedUrl :=
  if '#' ∈ value then
    .error (.url "fragments are not supported")
  else
    match splitOnce "://".toList value with
    | none => .error (.url "missing URL scheme")
    | some (scheme, rest) =>
      if scheme ≠ "https".toList ∧ scheme ≠ "http".toList then
        .error (.url "scheme must be http or https")
      else
        ParsedUrl.parseRest scheme rest

/-- `ParsedUrl::authority`. -/
def ParsedUrl.authority (url : ParsedUrl) : List Char :=
  let default :=
    if url.scheme = "http".toList then 80
    else if url.scheme = "https".toList then 443
    else url.port
  if url.port = default then url.host else url.host ++ ':' :: Nat.toDigits 10 url.port

/-- `HttpRequest` of the client. -/
structure ClientRequest where
  method : Method
  url : ParsedUrl
  headers : List (List Char × List Char)
  body : List UInt8
deriving DecidableEq

/-- The value that is forwarded as the authorization. -/
def ClientRequest.authorization (req : ClientRequest) : Option (List Char) :=
  (req.headers.find? fun header =>
    eqIgnoreAsciiCase header.1 "authorization".toList).map Prod.snd

/-- The lines of a request's head. -/
def ClientRequest.headLines (req : ClientRequest) : List (List Char) :=
  [req.method.asStr ++ ' ' :: (req.url.pathAndQuery ++ " HTTP/1.1".toList),
    "Host: ".toList ++ req.url.authority] ++
  req.authorization.toList.map (fun value => "Authorization: ".toList ++ value) ++
  ["Content-Type: application/json".toList, "Accept: application/json".toList,
    "Content-Length: ".toList ++ Nat.toDigits 10 req.body.length, "Connection: close".toList,
    "User-Agent: texo/0.2.0".toList]

/-- The head of a request: its lines and an empty one. -/
def ClientRequest.head (req : ClientRequest) : List Char :=
  req.headLines.flatMap (fun line => line ++ ['\r', '\n']) ++ ['\r', '\n']

/-- `write_request`: the bytes of a request. -/
def writeRequest (req : ClientRequest) : List UInt8 := encodeChars req.head ++ req.body

/-- A URL that is read has a path. -/
theorem ParsedUrl.pathAndQuery_of_parse [IpAddresses] {value : List Char} {url : ParsedUrl}
    (read : ParsedUrl.parse value = .ok url) :
    ∃ path, url.pathAndQuery = '/' :: path := by
  unfold ParsedUrl.parse at read
  split at read
  · cases read
  · split at read
    · cases read
    · rename_i scheme rest _
      split at read
      · cases read
      · have starts : ∃ path, (splitPath rest).2 = '/' :: path := by
          unfold splitPath
          split
          · exact ⟨_, rfl⟩
          · exact ⟨[], rfl⟩
        unfold ParsedUrl.parseRest at read
        dsimp only at read
        split at read
        · cases read
        · split at read
          · cases read
          · split at read
            · cases read
            · split at read
              · cases read
              · split at read
                · cases read
                · split at read
                  · cases read
                  · rw [← Except.ok.inj read]
                    exact starts

end Texo.Surfaces.Http
