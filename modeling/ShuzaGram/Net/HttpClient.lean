import ShuzaGram.Domain.Phone
import ShuzaGram.Infra.Text
import ShuzaGram.Net.TcpSocket
import ShuzaGram.OtpDelivery.WebhookSender

/-!
# The HTTP client

`net/http_client.cpp`: one POST over one connection. The connection is whatever `TcpSocket::Connect` gives, with its
`ReadExact` and `WriteAll`; the timeout is part of what these do.
-/

namespace ShuzaGram.Net

open Infra Infra.Text Domain OtpDelivery

/-- `HttpError`, or any other exception. -/
inductive HttpExn where
  | httpError (what : Bytes)
  | other (e : Exn)

/-- `std::tolower` in the C locale, on every byte. -/
def toLowerAscii (s : Bytes) : Bytes := s.map fun c => if 65 ≤ c && c ≤ 90 then c + 32 else c

/-! ## Numbers -/

/-- `strtol` in base 10: blanks, a sign, and the digits that follow; `none` if there are none. -/
def strtol (s : Bytes) : Option (Bool × Nat) :=
  let s := s.dropWhile isSpace
  let negative := s.head? = some 45
  let s := if s.head? = some 45 ∨ s.head? = some 43 then s.drop 1 else s
  let digits := s.takeWhile isDigit
  if digits = [] then none else some (negative, ofDigits digits)

/-- `std::stoi`; `none` where it throws. -/
def stoi (s : Bytes) : Option Int :=
  match strtol s with
  | none => none
  | some (negative, n) =>
    let v : Int := if negative then -n else n
    if -2 ^ 31 ≤ v ∧ v < 2 ^ 31 then some v else none

/-- `std::stoul`; `none` where it throws. A negative number wraps around. -/
def stoul (s : Bytes) : Option Nat :=
  match strtol s with
  | none => none
  | some (negative, n) => if n < 2 ^ 64 then some (if negative then (2 ^ 64 - n) % 2 ^ 64 else n) else none

/-! ## URLs -/

structure ParsedUrl where
  host : Bytes
  port : UInt16 := 80
  path : Bytes
deriving DecidableEq

def kPrefix : Bytes := ascii "http://"

/-- The port of an authority, behind its last colon. -/
def parsePort (url digits : Bytes) : Except HttpExn UInt16 :=
  match stoi digits with
  | none => throw (.httpError (ascii "invalid port in URL: " ++ url))
  | some port =>
    if port ≤ 0 ∨ port > 65535 then throw (.httpError (ascii "invalid port in URL: " ++ url))
    else return UInt16.ofNat port.toNat

/-- `ParseHttpUrl`. -/
def parseHttpUrl (url : Bytes) : Except HttpExn ParsedUrl := do
  if ¬kPrefix <+: url then throw (.httpError (ascii "only plain http:// URLs are supported: " ++ url))
  let rest := url.drop kPrefix.length
  let slash := find [47] rest
  let authority := slash.elim rest fun i => rest.take i
  let path := slash.elim (ascii "/") fun i => rest.drop i
  if authority = [] then throw (.httpError (ascii "URL has no host: " ++ url))
  match rfind 58 authority with
  | none => return { host := authority, path }
  | some colon => return { host := authority.take colon, port := ← parsePort url (authority.drop (colon + 1)), path }

/-! ## The request -/

/-- The head and the body of a request. -/
def requestText (parsed : ParsedUrl) (headers : List (Bytes × Bytes)) (body : Bytes) : Bytes :=
  ascii "POST " ++ parsed.path ++ ascii " HTTP/1.1\r\n" ++
    (ascii "Host: " ++ parsed.host ++ ascii "\r\n") ++
    (ascii "Content-Length: " ++ ascii (toString body.length) ++ ascii "\r\n") ++
    ascii "Connection: close\r\n" ++
    headers.flatMap (fun h => h.1 ++ ascii ": " ++ h.2 ++ ascii "\r\n") ++
    ascii "\r\n" ++ body

/-! ## The response -/

section Response

variable {S : Type}

/-- A `try` block whose handlers throw again. -/
def rethrow {ε ε' α : Type} (f : ε → ε') (x : EStateM ε S α) : EStateM ε' S α := fun s =>
  match x s with
  | .ok a s' => .ok a s'
  | .error e s' => .error (f e) s'

/-- A round of the loop that reads the head byte by byte. -/
def headRound (read : ReadExact Exn S) (head : Bytes) : EStateM HttpExn S (Bytes ⊕ Bytes) := do
  if crlf ++ crlf <:+ head then return .inr head
  let byte ← rethrow .other (read 1)
  let head := head ++ byte
  if head.length > 64 * 1024 then throw (.httpError (ascii "response headers too large"))
  return .inl head

/-- The head of a response. A round adds a byte, and the head is bounded. -/
def readHead (read : ReadExact Exn S) : EStateM HttpExn S Bytes :=
  Steps.rounds (.httpError []) (headRound read) (64 * 1024 + 2) []

/-- The handlers around it. -/
def headFailed : HttpExn → HttpExn
  | .other .connectionClosed => .httpError (ascii "connection closed before headers completed")
  | .httpError what => .httpError what
  | .other e => .httpError (ascii "read failed: " ++ e.what)

/-- The status of a status line: three bytes behind the first blank. -/
def readStatus (statusLine : Bytes) : Except HttpExn Int :=
  match find [32] statusLine with
  | none => throw (.httpError (ascii "malformed HTTP status line: " ++ statusLine))
  | some sp1 =>
    match stoi ((statusLine.drop (sp1 + 1)).take 3) with
    | none => throw (.httpError (ascii "malformed HTTP status code: " ++ statusLine))
    | some status => return status

/-- What a header line makes of the length that is known so far. A malformed length is passed over. -/
def contentLengthLine (line : Bytes) (known : Option Nat) : Option Nat :=
  match find [58] line with
  | none => known
  | some colon =>
    if toLowerAscii (line.take colon) = ascii "content-length" then
      match (line.drop (colon + 1)).dropWhile (· = 32) with
      | [] => known
      | value => (stoul value).elim known some
    else known

/-- The loop over the header lines, up to the empty one; `rest` is what is behind `pos`. -/
def contentLengthFrom : Nat → Bytes → Option Nat → Option Nat
  | 0, _, known => known
  | fuel + 1, rest, known =>
    match find crlf rest with
    | none | some 0 => known
    | some lineEnd => contentLengthFrom fuel (rest.drop (lineEnd + 2)) (contentLengthLine (rest.take lineEnd) known)

/-- The status, and the length of the body if there is one. -/
def parseHead (head : Bytes) : Except HttpExn (Int × Option Nat) := do
  match find crlf head with
  | none => throw (.httpError (ascii "malformed HTTP response: no status line"))
  | some firstLineEnd =>
    let status ← readStatus (head.take firstLineEnd)
    return (status, contentLengthFrom head.length (head.drop (firstLineEnd + 2)) none)

def bodyFailed (e : Exn) : HttpExn := .httpError (ascii "read body failed: " ++ e.what)

/-- The body; without a length it is empty. -/
def readBody (read : ReadExact Exn S) (contentLength : Option Nat) : EStateM HttpExn S Bytes :=
  match contentLength with
  | none | some 0 => pure []
  | some n =>
    if n > 1024 * 1024 then throw (.httpError (ascii "response body too large")) else rethrow bodyFailed (read n)

def liftExcept {ε α : Type} (x : Except ε α) : EStateM ε S α := fun s =>
  match x with
  | .ok a => .ok a s
  | .error e => .error e s

/-- All that `HttpPost` reads. -/
def readHttpResponse (read : ReadExact Exn S) : EStateM HttpExn S HttpResponse := do
  let head ← rethrow headFailed (readHead read)
  let (status, contentLength) ← liftExcept (parseHead head)
  let body ← readBody read contentLength
  return { status, body }

def sendFailed (e : Exn) : HttpExn := .httpError (ascii "send failed: " ++ e.what)

/-- `HttpPost` on its connection. -/
def exchange (read : ReadExact Exn S) (write : WriteBytes Exn S) (request : Bytes) : EStateM HttpExn S HttpResponse := do
  rethrow sendFailed (write request)
  readHttpResponse read

/-- `HttpPost`, and what it leaves of its connection. `connect` gives a connection or the text of a `SocketError`. -/
def httpPost (connect : Bytes → UInt16 → Except Bytes S) (read : ReadExact Exn S) (write : WriteBytes Exn S) (url : Bytes)
    (headers : List (Bytes × Bytes)) (body : Bytes) : Except HttpExn HttpResponse × Option S :=
  match parseHttpUrl url with
  | .error e => (.error e, none)
  | .ok parsed =>
    match connect parsed.host parsed.port with
    | .error what => (.error (.httpError (ascii "connect failed: " ++ what)), none)
    | .ok s =>
      match exchange read write (requestText parsed headers body) s with
      | .ok r s' => (.ok r, some s')
      | .error e s' => (.error e, some s')

end Response

end ShuzaGram.Net
