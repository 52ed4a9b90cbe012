import ShuzaGram.Infra.Utf8
import ShuzaGram.Store.Calls

/-!
# Delivering a code

`otpdelivery/webhook_sender.cpp`. The JSON library, the HTTP request, the clock and the HMAC are outside of it and
are parameters of a delivery.
-/

namespace ShuzaGram.OtpDelivery

open Infra Store

/-! ## JSON -/

/-- `nlohmann::json`; the keys of an object are distinct. -/
inductive Json where
  | null
  | bool (b : Bool)
  | number (text : Bytes)
  | string (s : Bytes)
  | array (items : List Json)
  | object (members : List (Bytes × Json))

/-- `type_name`. -/
def Json.typeName : Json → String
  | null => "null"
  | bool _ => "boolean"
  | number _ => "number"
  | string _ => "string"
  | array _ => "array"
  | object _ => "object"

/-- The value under a key of an object. -/
def member (members : List (Bytes × Json)) (key : Bytes) : Option Json :=
  (members.find? fun m => m.1 = key).map Prod.snd

/-- `value(key, std::string())`: a value of another type than the default's throws. -/
def valueString (members : List (Bytes × Json)) (key : Bytes) : Except Exn Bytes :=
  match member members key with
  | none => .ok []
  | some (.string s) => .ok s
  | some v => .error (.jsonTypeError ("[json.exception.type_error.302] type must be string, but is " ++ v.typeName))

/-! ## A delivery -/

structure HttpResponse where
  status : Int
  body : Bytes

/-- How `HttpPost` ends: `HttpError`, or a response. -/
inductive HttpOutcome where
  | httpError (what : Bytes)
  | response (r : HttpResponse)

/-- `WebhookSender::Config`. -/
structure WebhookConfig where
  url : Bytes
  secret : Bytes
  timeout : Int

/-- A configured sender, at the moment of a delivery. -/
structure Webhook where
  config : WebhookConfig
  now : Int
  /-- `FormatRfc3339Utc`: `gmtime_r` and `strftime`. -/
  formatRfc3339Utc : Int → Bytes
  /-- `Signature` of the secret, the timestamp and the body. -/
  signature : Bytes → Bytes → Bytes → Bytes
  /-- `json::dump`, or the text of what it throws. -/
  dump : Json → Except String Bytes
  /-- `json::parse` without exceptions; `none` is a discarded text. -/
  parse : Bytes → Option Json
  /-- `HttpPost` of the URL, the headers, the body and the timeout. -/
  httpPost : Bytes → List (Bytes × Bytes) → Bytes → Int → HttpOutcome

/-- `Result`. -/
structure DeliveryResult where
  providerMessageId : Bytes := []

/-- The text of bytes, one character for each. -/
def text (b : Bytes) : String := String.ofList (b.map fun c => Char.ofNat c.toNat)

def decimal (n : Int) : Bytes := ascii (toString n)

namespace Webhook

variable (w : Webhook) (request : DeliveryRequest)

/-- The object that is sent. -/
def requestMembers : List (Bytes × Json) :=
  let expiresIn := if request.expiresAt - w.now < 1 then 1 else request.expiresAt - w.now
  [(ascii "version", .string (ascii "1")),
    (ascii "delivery_id", .string request.deliveryId),
    (ascii "purpose", .string request.purpose),
    (ascii "channel", .string request.channel),
    (ascii "recipient", .string request.recipient),
    (ascii "code", .string request.code),
    (ascii "expires_at", .string (w.formatRfc3339Utc request.expiresAt)),
    (ascii "expires_in", .number (decimal expiresIn))]

/-- The headers; a sender without a secret does not sign. -/
def headers (body : Bytes) : List (Bytes × Bytes) :=
  let timestamp := decimal w.now
  [(ascii "Content-Type", ascii "application/json"),
    (ascii "Accept", ascii "application/json"),
    (ascii "Idempotency-Key", request.deliveryId),
    (ascii "X-Telesrv-Timestamp", timestamp)] ++
  if w.config.secret ≠ [] then
    [(ascii "X-Telesrv-Signature", w.signature w.config.secret timestamp body)]
  else []

/-- The HTTP request of a body. -/
def send (body : Bytes) : HttpOutcome := w.httpPost w.config.url (w.headers request body) body w.config.timeout

/-- What `Deliver` makes of a response. -/
def readResponse (r : HttpResponse) : Except Exn DeliveryResult := do
  if r.status = 204 then return {}
  if r.status < 200 ∨ r.status ≥ 300 then
    throw (.deliveryFailed ("otp webhook rejected the delivery (status " ++ toString r.status ++ "): " ++ text r.body))
  match w.parse r.body with
  | some (.object members) =>
    match member members (ascii "accepted") with
    | some (.bool accepted) =>
      if !accepted then
        let errorCode ← valueString members (ascii "error_code")
        throw (.deliveryFailed ("otp webhook did not accept the delivery: " ++ text errorCode))
      return { providerMessageId := ← valueString members (ascii "message_id") }
    | _ => throw (.deliveryFailed "otp webhook returned a 2xx response with no valid \"accepted\" field")
  | _ => throw (.deliveryFailed "otp webhook returned a 2xx response with no valid \"accepted\" field")

/-- `Deliver`. -/
def deliver : Except Exn DeliveryResult :=
  match w.dump (.object (w.requestMembers request)) with
  | .error what => .error (.jsonTypeError what)
  | .ok body =>
    match w.send request body with
    | .httpError what => .error (.deliveryFailed ("otp webhook delivery outcome unknown: " ++ text what))
    | .response r => w.readResponse r

end Webhook

/-- The calls of a server whose codes go through a webhook. -/
def Webhook.exec (w : Webhook) (P : Mtproto.Crypto.Primitives) :
    (call : StoreCall) → Stores → Except Exn call.Res × Stores
  | .otpDeliver request, s => ((w.deliver request).map fun _ => (), s)
  | call, s => call.exec P s

end ShuzaGram.OtpDelivery
