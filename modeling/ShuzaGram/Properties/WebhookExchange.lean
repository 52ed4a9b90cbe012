import ShuzaGram.OtpDelivery.Signature
import ShuzaGram.Properties.HttpExchange

/-!
# A delivery over HTTP

A server that reads a request as HTTP says gets the path, the header fields and the body that the client was given.
With the response read back, a delivery over any connection that does not break hands the server a request that it
can verify, and returns what the server answered.
-/

namespace ShuzaGram.Net

open Infra Infra.Text Domain Store OtpDelivery

/-! ## URLs -/

/-- What `ParseHttpUrl` can return. -/
structure ParsedUrl.WellFormed (p : ParsedUrl) : Prop where
  host : 47 ∉ p.host
  port : p.port ≠ 0
  path : p.path.head? = some 47

/-- The URL that names every part. -/
def ParsedUrl.render (p : ParsedUrl) : Bytes :=
  kPrefix ++ (p.host ++ 58 :: ascii (toString p.port.toNat)) ++ p.path

theorem parsePort_toString (url : Bytes) {port : UInt16} (h : port ≠ 0) :
    parsePort url (ascii (toString port.toNat)) = .ok port := by
  have hlt := port.toNat_lt
  have hpos : port.toNat ≠ 0 := fun heq => h (UInt16.toNat_inj.mp heq)
  unfold parsePort
  rw [stoi_toString (by omega)]
  simp only
  rw [if_neg (by omega), Int.toNat_natCast, UInt16.ofNat_toNat]
  rfl

/-- A URL that names every part gives these parts. -/
theorem parseHttpUrl_render {p : ParsedUrl} (h : p.WellFormed) : parseHttpUrl p.render = .ok p := by
  have hdigits : ∀ c : UInt8, isDigit c = false → c ∉ ascii (toString p.port.toNat) := fun c hc =>
    not_mem_toString hc _
  have hslash : 47 ∉ p.host ++ 58 :: ascii (toString p.port.toNat) := by
    simp only [List.mem_append, List.mem_cons, not_or]
    exact ⟨h.host, by decide, hdigits 47 (by decide)⟩
  obtain ⟨path, hpath⟩ : ∃ path, p.path = 47 :: path := by
    have hhead := h.path
    cases hp : p.path with
    | nil => simp [hp] at hhead
    | cons c path =>
      rw [hp, List.head?_cons, Option.some.injEq] at hhead
      exact ⟨path, by rw [hhead]⟩
  have hprefix : kPrefix <+: p.render := by
    rw [ParsedUrl.render, List.append_assoc]
    exact List.prefix_append _ _
  have hrest : p.render.drop kPrefix.length = (p.host ++ 58 :: ascii (toString p.port.toNat)) ++ 47 :: path := by
    rw [ParsedUrl.render, List.append_assoc, List.drop_left' rfl, hpath]
  have hhost : rfind 58 (p.host ++ 58 :: ascii (toString p.port.toNat)) = some p.host.length :=
    rfind_append (hdigits 58 (by decide)) _
  have hport : (p.host ++ 58 :: ascii (toString p.port.toNat)).drop (p.host.length + 1) =
      ascii (toString p.port.toNat) := by
    rw [← List.drop_drop, List.drop_left' rfl]
    rfl
  unfold parseHttpUrl
  rw [if_neg (not_not_intro hprefix), hrest]
  simp only [find_single_append hslash, Option.elim_some]
  rw [List.take_left' rfl, List.drop_left' rfl, if_neg (by simp), hhost]
  simp only
  rw [List.take_left' rfl, hport, parsePort_toString _ h.port, ← hpath]
  rfl

theorem parsePort_ne_zero {url digits : Bytes} {port : UInt16} (h : parsePort url digits = .ok port) : port ≠ 0 := by
  unfold parsePort at h
  split at h
  · cases h
  · next n _ =>
    split at h
    · cases h
    · cases h
      intro heq
      have hnat := congrArg UInt16.toNat heq
      rw [UInt16.toNat_ofNat_of_lt' (by simp only [UInt16.size]; omega)] at hnat
      simp only [UInt16.toNat_zero] at hnat
      omega

theorem wellFormed_of_parse {url : Bytes} {p : ParsedUrl} (h : parseHttpUrl url = .ok p) : p.WellFormed := by
  unfold parseHttpUrl at h
  split at h
  · cases h
  · simp only at h
    generalize url.drop kPrefix.length = rest at h
    -- the authority ends before the first slash, and the path begins with it
    have hparts : (47 ∉ (find [47] rest).elim rest fun i => rest.take i) ∧
        ((find [47] rest).elim (ascii "/") fun i => rest.drop i).head? = some 47 := by
      cases hslash : find [47] rest with
      | none =>
        refine ⟨fun hmem => ?_, rfl⟩
        obtain ⟨line, tail, htext⟩ := List.append_of_mem hmem
        have hat : [47] <+: rest.drop line.length := by
          rw [Option.elim_none] at htext
          rw [htext, List.drop_left' rfl]
          exact ⟨tail, rfl⟩
        exact find_eq_none_iff (by decide) |>.mp hslash _ hat
      | some k =>
        obtain ⟨line, tail, rfl, hline, rfl⟩ := find_single_eq_some hslash
        refine ⟨?_, ?_⟩
        · rw [Option.elim_some, List.take_left' rfl]
          exact hline
        · rw [Option.elim_some, List.drop_left' rfl]
          rfl
    generalize (find [47] rest).elim rest (fun i => rest.take i) = authority at h hparts
    split at h
    · cases h
    · split at h
      · cases h
        exact ⟨hparts.1, (by decide : (80 : UInt16) ≠ 0), hparts.2⟩
      · next colon _ =>
        generalize hp : parsePort url _ = port at h
        cases port with
        | error e => cases h
        | ok port =>
          cases h
          exact ⟨fun hmem => hparts.1 (List.mem_of_mem_take hmem), parsePort_ne_zero hp, hparts.2⟩

/-- **What `ParseHttpUrl` returns is a normal form:** a host without a slash, a port, a path that begins with one; and
it has a URL of its own, which is read back as it is. -/
theorem parseHttpUrl_normal (p : ParsedUrl) :
    (∃ url, parseHttpUrl url = .ok p) ↔ p.WellFormed ∧ parseHttpUrl p.render = .ok p := by
  constructor
  · rintro ⟨url, h⟩
    exact ⟨wellFormed_of_parse h, parseHttpUrl_render (wellFormed_of_parse h)⟩
  · rintro ⟨-, h⟩
    exact ⟨p.render, h⟩

/-! ## Requests -/

/-- A request, as a server reads it. -/
structure HttpRequest where
  path : Bytes
  fields : List (Bytes × Bytes)
  body : Bytes
deriving DecidableEq

/-- The path of a request line. -/
def readRequestLine (line : Bytes) : Option Bytes := do
  let sp1 ← find [32] line
  let rest := line.drop (sp1 + 1)
  let sp2 ← find [32] rest
  if line.take sp1 = ascii "POST" ∧ rest.drop (sp2 + 1) = ascii "HTTP/1.1" then some (rest.take sp2) else none

/-- A header field: the name, a colon, and the value behind any blanks. -/
def readField (line : Bytes) : Option (Bytes × Bytes) := do
  let colon ← find [58] line
  some (line.take colon, (line.drop (colon + 1)).dropWhile (· = 32))

def readFields : List Bytes → Option (List (Bytes × Bytes))
  | [] => some []
  | line :: lines => do
    let field ← readField line
    let fields ← readFields lines
    some (field :: fields)

/-- The value of the first field of that name, in whatever case. -/
def fieldValue (name : Bytes) (fields : List (Bytes × Bytes)) : Option Bytes :=
  (fields.find? fun f => toLowerAscii f.1 = toLowerAscii name).map Prod.snd

/-- A request with the lines of its head, and what is behind the empty line. -/
def readHeaded : List Bytes → Bytes → Option (HttpRequest × Bytes)
  | [], _ => none
  | line :: lines, behind => do
    let path ← readRequestLine line
    let fields ← readFields lines
    let length ← fieldValue (ascii "Content-Length") fields
    let n ← stoul length
    if n ≤ behind.length then some ({ path, fields, body := behind.take n }, behind.drop n) else none

/-- A request at the front of a stream: the lines up to the empty one, and as many bytes as they say. -/
def readRequest (b : Bytes) : Option (HttpRequest × Bytes) := do
  let headEnd ← find blankLine b
  readHeaded (splitLines b.length (b.take (headEnd + 2))) (b.drop (headEnd + 4))

/-- A name and a value that fit in a header line. -/
structure IsField (f : Bytes × Bytes) : Prop where
  name : 58 ∉ f.1 ∧ 13 ∉ f.1
  value : 13 ∉ f.2 ∧ f.2.head? ≠ some 32

def fieldLine (f : Bytes × Bytes) : Bytes := f.1 ++ 58 :: 32 :: f.2

/-- The fields of a request: three that every request has, and those of the caller. -/
def requestFields (parsed : ParsedUrl) (headers : List (Bytes × Bytes)) (body : Bytes) : List (Bytes × Bytes) :=
  (ascii "Host", parsed.host) :: (ascii "Content-Length", ascii (toString body.length)) ::
    (ascii "Connection", ascii "close") :: headers

def requestLine (parsed : ParsedUrl) : Bytes := ascii "POST" ++ 32 :: (parsed.path ++ 32 :: ascii "HTTP/1.1")

theorem requestText_eq (parsed : ParsedUrl) (headers : List (Bytes × Bytes)) (body : Bytes) :
    requestText parsed headers body =
      joinLines (requestLine parsed :: (requestFields parsed headers body).map fieldLine) ++ crlf ++ body := by
  have hheaders : headers.flatMap (fun h => h.1 ++ ascii ": " ++ h.2 ++ ascii "\r\n") =
      joinLines (headers.map fieldLine) := by
    rw [joinLines, List.flatMap_map]
    refine List.flatMap_congr fun h _ => ?_
    simp [fieldLine, crlf, ascii]
  rw [requestText, hheaders]
  simp [requestLine, requestFields, joinLines, fieldLine, ascii, crlf]

theorem readRequestLine_requestLine {parsed : ParsedUrl} (h : 32 ∉ parsed.path) :
    readRequestLine (requestLine parsed) = some parsed.path := by
  have hfirst : find [32] (requestLine parsed) = some 4 := find_single_append (show 32 ∉ ascii "POST" by decide) _
  have hdrop : (requestLine parsed).drop 5 = parsed.path ++ 32 :: ascii "HTTP/1.1" := rfl
  have hrest : (parsed.path ++ 32 :: ascii "HTTP/1.1").drop (parsed.path.length + 1) = ascii "HTTP/1.1" := by
    rw [← List.drop_drop, List.drop_left' rfl]
    rfl
  rw [readRequestLine, hfirst]
  show (find [32] ((requestLine parsed).drop 5)).bind _ = _
  rw [hdrop, find_single_append h, Option.bind_some, hrest, List.take_left' rfl]
  exact if_pos ⟨rfl, rfl⟩

theorem readField_fieldLine {f : Bytes × Bytes} (h : IsField f) : readField (fieldLine f) = some f := by
  have hdrop : (fieldLine f).drop (f.1.length + 1) = 32 :: f.2 := by
    rw [fieldLine, ← List.drop_drop, List.drop_left' rfl]
    rfl
  have hvalue : (32 :: f.2).dropWhile (· = (32 : UInt8)) = f.2 := by
    rw [List.dropWhile_cons_of_pos (by simp)]
    cases hf : f.2 with
    | nil => rfl
    | cons c value =>
      have hc := h.value.2
      rw [hf, List.head?_cons, ne_eq, Option.some.injEq] at hc
      rw [List.dropWhile_cons_of_neg (by simpa using hc)]
  rw [readField, fieldLine, find_single_append h.name.1]
  show some (_, _) = _
  rw [← fieldLine, hdrop, hvalue, fieldLine, List.take_left' rfl]

theorem readFields_fieldLines : ∀ {fields : List (Bytes × Bytes)} (_ : ∀ f ∈ fields, IsField f),
    readFields (fields.map fieldLine) = some fields
  | [], _ => rfl
  | f :: fields, h => by
    rw [List.map_cons, readFields, readField_fieldLine (h f List.mem_cons_self),
      readFields_fieldLines fun x hx => h x (List.mem_cons_of_mem f hx)]
    rfl

/-- What a request has to be made of. -/
structure Sendable (parsed : ParsedUrl) (headers : List (Bytes × Bytes)) (body : Bytes) : Prop where
  path : 32 ∉ parsed.path ∧ 13 ∉ parsed.path
  host : 13 ∉ parsed.host ∧ parsed.host.head? ≠ some 32
  headers : ∀ f ∈ headers, IsField f
  body : body.length < 2 ^ 64

section Request

variable {parsed : ParsedUrl} {headers : List (Bytes × Bytes)} {body : Bytes}

theorem isField_length (n : Nat) : IsField (ascii "Content-Length", ascii (toString n)) := by
  refine ⟨(by decide : 58 ∉ ascii "Content-Length" ∧ 13 ∉ ascii "Content-Length"), ?_⟩
  refine ⟨not_mem_toString (by decide) n, fun hhead => ?_⟩
  obtain ⟨c, digits, hdigits⟩ := List.exists_cons_of_ne_nil (toString_ne_nil n)
  have hc := digits_toString n c (by rw [hdigits]; exact List.mem_cons_self)
  simp only [hdigits, List.head?_cons, Option.some.injEq] at hhead
  rw [hhead] at hc
  exact absurd hc.1 (by decide)

theorem Sendable.isField (h : Sendable parsed headers body) : ∀ f ∈ requestFields parsed headers body, IsField f := by
  simp only [requestFields, List.forall_mem_cons]
  have hname : 58 ∉ ascii "Host" ∧ 13 ∉ ascii "Host" := by decide
  exact ⟨⟨hname, h.host⟩, isField_length _, ⟨by decide, by decide⟩, h.headers⟩

theorem Sendable.isLine (h : Sendable parsed headers body) :
    ∀ l ∈ requestLine parsed :: (requestFields parsed headers body).map fieldLine, IsLine l := by
  refine List.forall_mem_cons.mpr ⟨⟨by simp [requestLine], ?_⟩, fun l hl => ?_⟩
  · simp only [requestLine, List.mem_append, List.mem_cons, not_or]
    exact ⟨by decide, by decide, h.path.2, by decide, by decide⟩
  · obtain ⟨f, hf, rfl⟩ := List.mem_map.mp hl
    have hfield := h.isField f hf
    refine ⟨by simp [fieldLine], ?_⟩
    simp only [fieldLine, List.mem_append, List.mem_cons, not_or]
    exact ⟨hfield.name.2, by decide, by decide, hfield.value.1⟩

theorem readHeaded_request (h : Sendable parsed headers body) (rest : Bytes) :
    readHeaded (requestLine parsed :: (requestFields parsed headers body).map fieldLine) (body ++ rest) =
      some ({ path := parsed.path, fields := requestFields parsed headers body, body }, rest) := by
  have hlength : fieldValue (ascii "Content-Length") (requestFields parsed headers body) =
      some (ascii (toString body.length)) := by
    have hhost : ¬toLowerAscii (ascii "Host") = toLowerAscii (ascii "Content-Length") := by decide
    rw [fieldValue, requestFields, List.find?_cons_of_neg (by simpa using hhost), List.find?_cons_of_pos (by simp)]
    rfl
  rw [readHeaded, readRequestLine_requestLine h.path.1, readFields_fieldLines h.isField]
  simp only [Option.bind_eq_bind, Option.bind_some, hlength, stoul_toString h.body]
  rw [if_pos (by simp), List.take_left' rfl, List.drop_left' rfl]

/-- **A request is read back,** and what is behind it is left. -/
theorem readRequest_requestText (h : Sendable parsed headers body) (rest : Bytes) :
    readRequest (requestText parsed headers body ++ rest) =
      some ({ path := parsed.path, fields := requestFields parsed headers body, body }, rest) := by
  rw [← readHeaded_request h rest, requestText_eq]
  have hlines := h.isLine
  generalize hls : requestLine parsed :: (requestFields parsed headers body).map fieldLine = ls at hlines ⊢
  have hne : ls ≠ [] := by
    rw [← hls]
    exact List.cons_ne_nil _ _
  have hfind := find_blank_line hne hlines (body ++ rest)
  have htwo : 2 ≤ (joinLines ls).length := by
    obtain ⟨l, ls, rfl⟩ := List.exists_cons_of_ne_nil hne
    simp only [joinLines, List.flatMap_cons, List.length_append, crlf, List.length_cons]
    omega
  have hhead : (joinLines ls ++ crlf ++ (body ++ rest)).take (joinLines ls).length = joinLines ls := by
    rw [List.append_assoc, List.take_left' rfl]
  have hbehind : (joinLines ls ++ crlf ++ (body ++ rest)).drop ((joinLines ls).length + 2) = body ++ rest :=
    List.drop_left' (by simp [crlf])
  have hcount : ls.length ≤ (joinLines ls ++ crlf ++ (body ++ rest)).length := by
    have := length_le_joinLines ls
    simp only [List.length_append]
    omega
  rw [List.append_assoc _ body rest, readRequest, hfind]
  show readHeaded (splitLines _ (List.take ((joinLines ls).length - 2 + 2) _)) (List.drop ((joinLines ls).length - 2 + 4) _) = _
  rw [show (joinLines ls).length - 2 + 4 = (joinLines ls).length + 2 by omega, Nat.sub_add_cancel htwo, hhead, hbehind,
    splitLines_joinLines (fun l hl => (hlines l hl).2) hcount]

end Request

/-! ## Reading leaves what was sent alone -/

section Moves

variable {S : Type} {R : S → S → Prop} {read : ReadExact Exn S}

theorem moves_rethrow {ε ε' α : Type} (f : ε → ε') {x : EStateM ε S α} (h : Steps.Moves R x) :
    Steps.Moves R (rethrow f x) := by
  intro s a s' hrun
  unfold rethrow at hrun
  split at hrun
  · next hx =>
    cases hrun
    exact h hx
  · cases hrun

theorem moves_liftExcept {ε α : Type} (hrefl : ∀ s, R s s) (x : Except ε α) :
    Steps.Moves R (liftExcept x : EStateM ε S α) := by
  intro s a s' hrun
  unfold liftExcept at hrun
  split at hrun
  · cases hrun
    exact hrefl s
  · cases hrun

theorem moves_readHttpResponse (hrefl : ∀ s, R s s) (htrans : ∀ {s t u}, R s t → R t u → R s u)
    (hread : ∀ n, Steps.Moves R (read n)) : Steps.Moves R (readHttpResponse read) := by
  have hround : ∀ head, Steps.Moves R (headRound read head) := by
    intro head
    refine .ite (Steps.moves_pure hrefl _) ((moves_rethrow _ (hread 1)).bind htrans fun byte => ?_)
    exact .ite ((Steps.moves_throw _).bind htrans fun _ => Steps.moves_pure hrefl _) (Steps.moves_pure hrefl _)
  have hbody : ∀ contentLength, Steps.Moves R (readBody read contentLength) := by
    intro contentLength
    unfold readBody
    split
    · exact Steps.moves_pure hrefl _
    · exact Steps.moves_pure hrefl _
    · exact .ite (Steps.moves_throw _) (moves_rethrow _ (hread _))
  refine (moves_rethrow _ (Steps.Moves.rounds _ _ hrefl htrans hround _ _)).bind htrans fun head => ?_
  refine (moves_liftExcept hrefl _).bind htrans fun parsed => ?_
  exact (hbody _).bind htrans fun body => Steps.moves_pure hrefl _

end Moves

/-! ## Deliveries -/

/-- `HttpPost` over sockets, as a delivery calls it; nothing but `HttpError` comes out of it. -/
def httpPostOver (connect : Bytes → UInt16 → Except Bytes TcpSocket) (ending : Ending) (broken : Option String)
    (url : Bytes) (headers : List (Bytes × Bytes)) (body : Bytes) (_timeout : Int) : HttpOutcome :=
  match (httpPost connect (TcpSocket.readExact ending) (TcpSocket.writeAll broken) url headers body).1 with
  | .ok r => .response r
  | .error (.httpError what) => .httpError what
  | .error (.other _) => .httpError []

/-- The server knows the secret under which the request was signed. -/
def Verifies (hmac : Bytes → Bytes → Bytes) (secret : Bytes) (got : HttpRequest) : Prop :=
  ∃ timestamp, fieldValue (ascii "X-Telesrv-Timestamp") got.fields = some timestamp ∧
    fieldValue (ascii "X-Telesrv-Signature") got.fields = some (signature hmac secret timestamp got.body)

theorem fieldValue_cons_self (name value : Bytes) (fields : List (Bytes × Bytes)) :
    fieldValue name ((name, value) :: fields) = some value := by
  rw [fieldValue, List.find?_cons_of_pos (by simp)]
  rfl

theorem fieldValue_cons_of_ne {name name' : Bytes} (h : toLowerAscii name' ≠ toLowerAscii name) (value : Bytes)
    (fields : List (Bytes × Bytes)) : fieldValue name ((name', value) :: fields) = fieldValue name fields := by
  rw [fieldValue, List.find?_cons_of_neg (by simpa using h)]
  rfl

/-- A decimal text holds no byte below `-`. -/
theorem mem_decimal {n : Int} {b : UInt8} (h : b ∈ decimal n) : 45 ≤ b := by
  cases n with
  | ofNat n =>
    have hb := digits_toString n b h
    exact UInt8.le_trans (by decide) hb.1
  | negSucc n =>
    have htext : decimal (Int.negSucc n) = 45 :: ascii (toString (n + 1)) := by
      show ascii ("-" ++ toString (n + 1)) = _
      simp [ascii, String.toList_append]
    rw [htext, List.mem_cons] at h
    rcases h with rfl | h
    · decide
    · exact UInt8.le_trans (by decide) (digits_toString _ b h).1

/-- Text without small bytes fits in a header line. -/
theorem isField_of_large {name value : Bytes} (hname : 58 ∉ name ∧ 13 ∉ name) (hvalue : ∀ b ∈ value, 45 ≤ b) :
    IsField (name, value) := by
  refine ⟨hname, fun hmem => absurd (hvalue 13 hmem) (by decide), fun hhead => ?_⟩
  exact absurd (hvalue 32 (List.mem_of_head? hhead)) (by decide)

section Delivery

variable {w : Webhook} {request : DeliveryRequest} {hmac : Bytes → Bytes → Bytes} {parsed : ParsedUrl} {body : Bytes}

theorem isField_headers (hsignature : w.signature = signature hmac)
    (hid : 13 ∉ request.deliveryId ∧ request.deliveryId.head? ≠ some 32) (body : Bytes) :
    ∀ f ∈ w.headers request body, IsField f := by
  have hsigned : ∀ timestamp, ∀ b ∈ signature hmac w.config.secret timestamp body, 45 ≤ b := by
    intro timestamp b hb
    rcases List.mem_append.mp hb with hb | hb
    · have hall : (ascii "sha256=").all (45 ≤ ·) = true := rfl
      exact of_decide_eq_true (List.all_eq_true.mp hall b hb)
    · exact UInt8.le_trans (by decide) (mem_hexEncode hb).1
  have hfixed : ∀ f ∈ [(ascii "Content-Type", ascii "application/json"), (ascii "Accept", ascii "application/json"),
      (ascii "Idempotency-Key", request.deliveryId), (ascii "X-Telesrv-Timestamp", decimal w.now)], IsField f := by
    simp only [List.forall_mem_cons]
    have hname : 58 ∉ ascii "Idempotency-Key" ∧ 13 ∉ ascii "Idempotency-Key" := by decide
    have htime : 58 ∉ ascii "X-Telesrv-Timestamp" ∧ 13 ∉ ascii "X-Telesrv-Timestamp" := by decide
    exact ⟨⟨by decide, by decide⟩, ⟨by decide, by decide⟩, ⟨hname, hid⟩, isField_of_large htime fun b => mem_decimal,
      fun _ h => by cases h⟩
  intro f hf
  rcases List.mem_append.mp hf with hf | hf
  · exact hfixed f hf
  · split at hf
    · rcases List.mem_singleton.mp hf with rfl
      rw [hsignature]
      exact isField_of_large (by decide) (hsigned _)
    · cases hf

/-- The fields that a server reads. -/
theorem fieldValue_requestFields (hsignature : w.signature = signature hmac) {got : HttpRequest}
    (hfields : got.fields = requestFields parsed (w.headers request body) body) (hbody : got.body = body) :
    fieldValue (ascii "Idempotency-Key") got.fields = some request.deliveryId ∧
      (w.config.secret ≠ [] → Verifies hmac w.config.secret got) := by
  constructor
  · rw [hfields, requestFields, Webhook.headers]
    simp (disch := decide) only [fieldValue_cons_of_ne, fieldValue_cons_self, List.cons_append]
  · intro hsecret
    refine ⟨decimal w.now, ?_, ?_⟩
    · rw [hfields, requestFields, Webhook.headers]
      simp (disch := decide) only [fieldValue_cons_of_ne, fieldValue_cons_self, List.cons_append]
    · rw [hfields, hbody, requestFields, Webhook.headers, if_pos hsecret, hsignature]
      simp (disch := decide) only [fieldValue_cons_of_ne, fieldValue_cons_self, List.cons_append, List.nil_append]

/-- One request and one response over a socket that does not break. -/
theorem exchange_over_socket {ending : Ending} {s : TcpSocket} {r : ResponseText} {rest : Bytes} (hr : r.WellFormed)
    (hincoming : incoming s.arrivals = r.head ++ r.body ++ rest) (text : Bytes) :
    ∃ s', exchange (TcpSocket.readExact ending) (TcpSocket.writeAll none) text s =
        .ok { status := r.code, body := r.body } s' ∧
      s'.outgoing.sent = s.outgoing.sent ++ text ∧ incoming s'.arrivals = rest := by
  obtain ⟨t, hwrite, hsent⟩ := TcpSocket.writesStream s text
  have hsent' : t.outgoing.sent = s.outgoing.sent ++ text := hsent
  have harrivals : t.arrivals = s.arrivals := TcpSocket.moves_writeAll none text hwrite
  obtain ⟨s', hread, hrest⟩ := response_read_back (TcpSocket.readsStream ending) (s := t) hr
    (by rw [harrivals, hincoming])
  -- what was sent is not touched by reading
  have houtgoing : s'.outgoing = t.outgoing := moves_readHttpResponse
    (R := fun s s' : TcpSocket => s'.outgoing = s.outgoing) (fun _ => rfl) (fun hst htu => htu.trans hst) (TcpSocket.moves_readExact ending) hread
  refine ⟨s', ?_, by rw [houtgoing, hsent'], hrest⟩
  rw [exchange, Steps.bind_of_ok (show rethrow sendFailed (TcpSocket.writeAll none text) s = .ok () t by
    rw [rethrow, hwrite])]
  exact hread

/-- **A delivery over a connection that does not break:** however the bytes travel, the server reads the path, the id
and the body that were sent, and can verify the signature, and `Deliver` returns what it makes of the answer. -/
theorem delivery_exchange {connect : Bytes → UInt16 → Except Bytes TcpSocket} {ending : Ending} {s : TcpSocket}
    {r : ResponseText} {rest : Bytes} (hpost : w.httpPost = httpPostOver connect ending none)
    (hsignature : w.signature = signature hmac) (hurl : parseHttpUrl w.config.url = .ok parsed)
    (hconnect : connect parsed.host parsed.port = .ok s) (hfresh : s.outgoing.sent = [])
    (hpath : 32 ∉ parsed.path ∧ 13 ∉ parsed.path) (hhost : 13 ∉ parsed.host ∧ parsed.host.head? ≠ some 32)
    (hid : 13 ∉ request.deliveryId ∧ request.deliveryId.head? ≠ some 32)
    (hbody : w.dump (.object (w.requestMembers request)) = .ok body) (hsize : body.length < 2 ^ 64)
    (hr : r.WellFormed) (hincoming : incoming s.arrivals = r.head ++ r.body ++ rest) :
    w.deliver request = w.readResponse { status := r.code, body := r.body } ∧
      ∃ s', (httpPost connect (TcpSocket.readExact ending) (TcpSocket.writeAll none) w.config.url
          (w.headers request body) body).2 = some s' ∧ incoming s'.arrivals = rest ∧
        ∃ got, readRequest s'.outgoing.sent = some (got, []) ∧ got.path = parsed.path ∧ got.body = body ∧
          fieldValue (ascii "Idempotency-Key") got.fields = some request.deliveryId ∧
          (w.config.secret ≠ [] → Verifies hmac w.config.secret got) := by
  have hsendable : Sendable parsed (w.headers request body) body :=
    ⟨hpath, hhost, isField_headers hsignature hid body, hsize⟩
  obtain ⟨s', hrun, hsent, hrest⟩ := @exchange_over_socket ending _ _ _ hr hincoming
    (requestText parsed (w.headers request body) body)
  have hexchange : httpPost connect (TcpSocket.readExact ending) (TcpSocket.writeAll none) w.config.url
      (w.headers request body) body = (.ok { status := r.code, body := r.body }, some s') := by
    unfold httpPost
    rw [hurl]
    simp only
    rw [hconnect]
    simp only
    rw [hrun]
  constructor
  · rw [Webhook.deliver, hbody]
    simp only [Webhook.send, hpost, httpPostOver, hexchange]
  · rw [hexchange]
    have hfields : fieldValue (ascii "Idempotency-Key") _ = _ ∧ _ :=
      fieldValue_requestFields hsignature
        (show ({ path := parsed.path, fields := requestFields parsed (w.headers request body) body, body } :
          HttpRequest).fields = _ from rfl) rfl
    have hgot := readRequest_requestText hsendable []
    have hbytes : s'.outgoing.sent = requestText parsed (w.headers request body) body ++ [] := by
      rw [hsent, hfresh, List.nil_append, List.append_nil]
    rw [← hbytes] at hgot
    exact ⟨s', rfl, hrest, _, hgot, rfl, rfl, hfields⟩

end Delivery

/-- A socket whose kernel sends 4 bytes first, and on which the sample response arrives in two parts. -/
def sampleSocket : TcpSocket where
  arrivals := [.interrupted, .segment 72 ((sampleResponse.head ++ sampleResponse.body).tail.take 9),
    .segment 48 ((sampleResponse.head ++ sampleResponse.body).drop 11)]
  outgoing := { room := [.bytes 3, .interrupted], sent := [] }

/-- A signed delivery to port 8080 over it. -/
def sampleWebhook : Webhook where
  config := { url := ascii "http://h:8080/otp", secret := [1], timeout := 5 }
  now := 7
  formatRfc3339Utc := fun _ => ascii "t"
  signature := signature fun _ message => message
  dump := fun _ => .ok (ascii "{}")
  parse := fun _ => none
  httpPost := httpPostOver (fun _ _ => .ok sampleSocket) .closed none

def sampleRequest : DeliveryRequest where
  deliveryId := newDeliveryId (Arr.zero 16)
  purpose := ascii "login_sms"
  channel := ascii "sms"
  recipient := ascii "15550100"
  code := ascii "12345"
  expiresAt := 9

theorem sampleWebhook_exchange :
    sampleWebhook.deliver sampleRequest =
        sampleWebhook.readResponse { status := 200, body := ascii "{}" } ∧
      ∃ s', (httpPost (fun _ _ => .ok sampleSocket) (TcpSocket.readExact .closed) (TcpSocket.writeAll none)
          (ascii "http://h:8080/otp") (sampleWebhook.headers sampleRequest (ascii "{}")) (ascii "{}")).2 = some s' ∧
        incoming s'.arrivals = [] ∧
        ∃ got, readRequest s'.outgoing.sent = some (got, []) ∧ got.path = ascii "/otp" ∧ got.body = ascii "{}" ∧
          fieldValue (ascii "Idempotency-Key") got.fields = some (newDeliveryId (Arr.zero 16)) ∧
          (([1] : Bytes) ≠ [] → Verifies (fun _ message => message) [1] got) := by
  have hurl : parseHttpUrl sampleWebhook.config.url =
      .ok { host := ascii "h", port := 8080, path := ascii "/otp" } := rfl
  have hincoming : incoming sampleSocket.arrivals = sampleResponse.head ++ sampleResponse.body ++ [] := by decide
  have hid : 13 ∉ sampleRequest.deliveryId ∧ sampleRequest.deliveryId.head? ≠ some 32 := newDeliveryId_field _
  have hbody : sampleWebhook.dump (.object (sampleWebhook.requestMembers sampleRequest)) = .ok (ascii "{}") := rfl
  exact delivery_exchange (w := sampleWebhook) (s := sampleSocket) (r := sampleResponse) rfl rfl hurl rfl rfl
    (by decide) (by decide) hid hbody (by decide) sampleResponse_wellFormed hincoming

end ShuzaGram.Net
