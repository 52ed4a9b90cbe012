import ShuzaGram.Auth.LoginRuns
import ShuzaGram.Mtproto.Crypto.MessageCipher
import ShuzaGram.OtpDelivery.WebhookSender

/-!
# Codes that were not delivered

`SendCode` stores a code before it delivers it, and takes it back where `Deliver` throws `DeliveryFailedError`.
`Deliver` throws so for every answer of the webhook that is no acceptance, except where the field that it reads
next is not a string: then the JSON library throws, and the code stays.
-/

namespace ShuzaGram.OtpDelivery

open Infra Domain Store Auth

/-! ## The answers of a webhook -/

/-- A 2xx answer that is an object with a Boolean `accepted`. -/
def Answers (parse : Bytes → Option Json) (outcome : HttpOutcome) (accepted : Bool) (members : List (Bytes × Json)) :
    Prop :=
  ∃ r, outcome = .response r ∧ r.status ≠ 204 ∧ 200 ≤ r.status ∧ r.status < 300 ∧
    parse r.body = some (.object members) ∧ member members (ascii "accepted") = some (.bool accepted)

/-- The delivery was accepted. -/
def Accepted (parse : Bytes → Option Json) (outcome : HttpOutcome) : Prop :=
  (∃ r, outcome = .response r ∧ r.status = 204) ∨ ∃ members, Answers parse outcome true members

/-- The field that stands with `accepted`. -/
def detailField (accepted : Bool) : Bytes := if accepted then ascii "message_id" else ascii "error_code"

/-- The field that stands with `accepted` is no string. -/
def Mistyped (parse : Bytes → Option Json) (outcome : HttpOutcome) : Prop :=
  ∃ accepted members v, Answers parse outcome accepted members ∧ member members (detailField accepted) = some v ∧
    ∀ s, v ≠ .string s

theorem answers_response {parse : Bytes → Option Json} {r : HttpResponse} {accepted : Bool}
    {members : List (Bytes × Json)} :
    Answers parse (.response r) accepted members ↔ r.status ≠ 204 ∧ 200 ≤ r.status ∧ r.status < 300 ∧
      parse r.body = some (.object members) ∧ member members (ascii "accepted") = some (.bool accepted) := by
  simp [Answers]

theorem valueString_cases (members : List (Bytes × Json)) (key : Bytes) :
    ((∃ s, valueString members key = .ok s) ∧ ∀ v, member members key = some v → ∃ s, v = .string s) ∨
      ((∃ what, valueString members key = .error (.jsonTypeError what)) ∧
        ∃ v, member members key = some v ∧ ∀ s, v ≠ .string s) := by
  unfold valueString
  cases member members key with
  | none => exact .inl ⟨⟨_, rfl⟩, fun v h => by cases h⟩
  | some v =>
    cases v with
    | string s => exact .inl ⟨⟨_, rfl⟩, fun v h => ⟨s, (Option.some.inj h).symm⟩⟩
    | _ => exact .inr ⟨⟨_, rfl⟩, _, rfl, fun s h => by cases h⟩

/-- What `Deliver` makes of an outcome. -/
inductive Reads (parse : Bytes → Option Json) (outcome : HttpOutcome) : Except Exn DeliveryResult → Prop where
  | accepted (result : DeliveryResult) (haccepted : Accepted parse outcome) (htyped : ¬Mistyped parse outcome) :
    Reads parse outcome (.ok result)
  | refused (reason : String) (hrefused : ¬Accepted parse outcome) (htyped : ¬Mistyped parse outcome) :
    Reads parse outcome (.error (.deliveryFailed reason))
  | mistyped (what : String) (hmistyped : Mistyped parse outcome) : Reads parse outcome (.error (.jsonTypeError what))

/-- An outcome that is no 2xx object with `accepted`. -/
theorem reads_unanswered {parse : Bytes → Option Json} {outcome : HttpOutcome}
    (h : ∀ accepted members, ¬Answers parse outcome accepted members)
    (hcontent : ¬∃ r, outcome = .response r ∧ r.status = 204) (reason : String) :
    Reads parse outcome (.error (.deliveryFailed reason)) := by
  refine .refused reason ?_ ?_
  · rintro (hno | ⟨members, hanswers⟩)
    · exact hcontent hno
    · exact h true members hanswers
  · rintro ⟨accepted, members, -, hanswers, -⟩
    exact h accepted members hanswers

/-- An outcome answers in one way at most. -/
theorem answers_unique {parse : Bytes → Option Json} {outcome : HttpOutcome} {accepted accepted' : Bool}
    {members members' : List (Bytes × Json)} (h : Answers parse outcome accepted members)
    (h' : Answers parse outcome accepted' members') : accepted' = accepted ∧ members' = members := by
  cases outcome with
  | httpError what => exact absurd h (by simp [Answers])
  | response r =>
    obtain ⟨-, -, -, hparse, hmember⟩ := answers_response.mp h
    obtain ⟨-, -, -, hparse', hmember'⟩ := answers_response.mp h'
    rw [hparse] at hparse'
    cases hparse'
    rw [hmember] at hmember'
    cases hmember'
    exact ⟨rfl, rfl⟩

theorem not_mistyped_of_string {parse : Bytes → Option Json} {outcome : HttpOutcome} {accepted : Bool}
    {members : List (Bytes × Json)} (h : Answers parse outcome accepted members)
    (hstring : ∀ v, member members (detailField accepted) = some v → ∃ s, v = .string s) : ¬Mistyped parse outcome := by
  rintro ⟨accepted', members', v, hanswers', hdetail, hv⟩
  obtain ⟨rfl, rfl⟩ := answers_unique h hanswers'
  obtain ⟨s, rfl⟩ := hstring v hdetail
  exact hv s rfl

theorem not_accepted_of_declined {parse : Bytes → Option Json} {r : HttpResponse} {members : List (Bytes × Json)}
    (h : Answers parse (.response r) false members) : ¬Accepted parse (.response r) := by
  rintro (⟨r', hr', hstatus⟩ | ⟨members', hanswers'⟩)
  · cases hr'
    exact (answers_response.mp h).1 hstatus
  · cases (answers_unique h hanswers').1

theorem reads_readResponse (w : Webhook) (r : HttpResponse) : Reads w.parse (.response r) (w.readResponse r) := by
  unfold Webhook.readResponse
  simp only [bind, Except.bind, pure, Except.pure, throw, throwThe, MonadExceptOf.throw]
  by_cases hno : r.status = 204
  · rw [if_pos hno]
    refine .accepted _ (.inl ⟨r, rfl, hno⟩) ?_
    rintro ⟨accepted, members, -, hanswers, -⟩
    exact (answers_response.mp hanswers).1 hno
  · have hcontent : ¬∃ r', HttpOutcome.response r = .response r' ∧ r'.status = 204 := by
      rintro ⟨r', h, hstatus⟩
      cases h
      exact hno hstatus
    rw [if_neg hno]
    -- Without content the answer is in the status; with it, in two members of an object.
    by_cases hstatus : r.status < 200 ∨ r.status ≥ 300
    · rw [if_pos hstatus]
      refine reads_unanswered (fun accepted members hanswers => ?_) hcontent _
      have hrange := answers_response.mp hanswers
      omega
    · rw [if_neg hstatus]
      split
      · next members hparse =>
        split
        · next accepted hmember =>
          have hanswers : Answers w.parse (.response r) accepted members :=
            answers_response.mpr ⟨hno, by omega, by omega, hparse, hmember⟩
          -- the detail is read next, whichever it is
          cases accepted with
          | false =>
            simp only [Bool.not_false, if_true]
            rcases valueString_cases members (ascii "error_code") with ⟨⟨s, hs⟩, hstring⟩ | ⟨⟨what, hwhat⟩, v, hv⟩
            · rw [hs]
              exact .refused _ (not_accepted_of_declined hanswers) (not_mistyped_of_string hanswers hstring)
            · rw [hwhat]
              exact .mistyped what ⟨false, members, v, hanswers, hv⟩
          | true =>
            simp only [Bool.not_true, Bool.false_eq_true, if_false]
            rcases valueString_cases members (ascii "message_id") with ⟨⟨s, hs⟩, hstring⟩ | ⟨⟨what, hwhat⟩, v, hv⟩
            · rw [hs]
              exact .accepted _ (.inr ⟨members, hanswers⟩) (not_mistyped_of_string hanswers hstring)
            · rw [hwhat]
              exact .mistyped what ⟨true, members, v, hanswers, hv⟩
        · next hmember =>
          refine reads_unanswered (fun accepted members' hanswers => ?_) hcontent _
          obtain ⟨-, -, -, hparse', hmember'⟩ := answers_response.mp hanswers
          rw [hparse] at hparse'
          cases hparse'
          exact hmember _ hmember'
      · next hparse =>
        refine reads_unanswered (fun accepted members hanswers => ?_) hcontent _
        exact hparse _ (answers_response.mp hanswers).2.2.2.1

/-- **What `Deliver` does** with a request that it can write. -/
theorem reads_deliver {w : Webhook} {request : DeliveryRequest} {body : Bytes}
    (hbody : w.dump (.object (w.requestMembers request)) = .ok body) :
    Reads w.parse (w.send request body) (w.deliver request) := by
  rw [Webhook.deliver, hbody]
  simp only
  cases w.send request body with
  | httpError what =>
    refine reads_unanswered ?_ ?_ _
    · rintro accepted members ⟨r, h, -⟩
      cases h
    · rintro ⟨r, h, -⟩
      cases h
  | response r => exact reads_readResponse w r

/-- The contract of `Deliver`: it returns after an acceptance, and throws nothing but `DeliveryFailedError`. -/
def KeepsContract (parse : Bytes → Option Json) (outcome : HttpOutcome) (result : Except Exn DeliveryResult) : Prop :=
  match result with
  | .ok _ => Accepted parse outcome
  | .error e => ∃ reason, e = .deliveryFailed reason

theorem Reads.keepsContract_iff {parse : Bytes → Option Json} {outcome : HttpOutcome}
    {result : Except Exn DeliveryResult} (h : Reads parse outcome result) :
    KeepsContract parse outcome result ↔ ¬Mistyped parse outcome := by
  cases h with
  | accepted result haccepted htyped => exact ⟨fun _ => htyped, fun _ => haccepted⟩
  | refused reason hrefused htyped => exact ⟨fun _ => htyped, fun _ => ⟨reason, rfl⟩⟩
  | mistyped what hmistyped =>
    refine ⟨?_, fun htyped => absurd hmistyped htyped⟩
    rintro ⟨reason, h⟩
    cases h

/-! ## The request of `SendCode` -/

/-- What the library does with texts that are UTF-8, and what the time looks like. -/
structure Webhook.Lawful (w : Webhook) : Prop where
  dump_object : ∀ members : List (Bytes × Json),
    (∀ m ∈ members, Utf8.valid m.1 = true ∧ ((∃ s, m.2 = .string s ∧ Utf8.valid s = true) ∨ ∃ n, m.2 = .number n)) →
      ∃ body, w.dump (.object members) = .ok body
  formatRfc3339Utc : ∀ t, Utf8.valid (w.formatRfc3339Utc t) = true

/-- Every byte is below 0x80. -/
def IsAscii (s : Bytes) : Prop := ∀ b ∈ s, b < 0x80

theorem isAscii_phoneDigitsLoop (seenDigit seenPlus : Bool) (out phone : Bytes)
    (h : phoneDigitsLoop seenDigit seenPlus out phone ≠ []) : IsAscii phone := by
  induction phone generalizing seenDigit seenPlus out with
  | nil => exact fun b hb => by cases hb
  | cons c phone ih =>
    rw [phoneDigitsLoop] at h
    have hhead : c < 0x80 ∧ IsAscii phone := by
      split at h
      · next hdigit =>
        refine ⟨?_, ih _ _ _ h⟩
        unfold isDigit at hdigit
        grind
      · split at h
        · next hplus =>
          split at h
          · exact absurd rfl h
          · exact ⟨by rw [hplus]; decide, ih _ _ _ h⟩
        · split at h
          · next hseparator =>
            refine ⟨?_, ih _ _ _ h⟩
            unfold isPhoneSeparator isSpace at hseparator
            grind
          · exact absurd rfl h
    exact List.forall_mem_cons.mpr hhead

/-- A phone that is valid is made of digits, separators and `+`. -/
theorem isAscii_of_validPhone {lib : PhoneLibrary} {phone : Bytes} (h : validPhone lib phone = true) :
    IsAscii phone := by
  refine isAscii_phoneDigitsLoop false false [] phone fun hnil => ?_
  have hnone : normalizePhone lib phone = [] := by
    rw [normalizePhone, phoneDigits, hnil]
    rfl
  rw [validPhone, hnone] at h
  simp at h

theorem isAscii_newDeliveryId (raw : Arr 16) : IsAscii (newDeliveryId raw) := by
  refine List.forall_mem_append.mpr ⟨by decide +kernel, fun b hb => ?_⟩
  exact UInt8.lt_of_le_of_lt (mem_hexEncode hb).2 (by decide)

theorem isAscii_randomDigits (n : Int) (bytes : Nat → UInt8) : IsAscii (randomDigits n bytes) := by
  intro b hb
  obtain ⟨i, -, rfl⟩ := List.mem_map.mp hb
  rw [UInt8.lt_iff_toNat_lt]
  simp
  omega

section SendCode

variable (lib : PhoneLibrary) (phoneNumber : Bytes) (otp : OtpSender) (codeTtl : Int) (draw : SendCodeDraw) (s : Stores)

/-- The record that `SendCode` stores. -/
def issuedCode : PhoneCode where
  issuedUserId := ownerId (s.usersByPhone (normalizePhone lib phoneNumber))
  phone := normalizePhone lib phoneNumber
  code := randomDigits otp.codeLength draw.digits

/-- The delivery that it asks for. -/
def codeRequest : DeliveryRequest where
  deliveryId := newDeliveryId draw.deliveryId
  purpose := ascii "login_sms"
  channel := ascii "sms"
  recipient := normalizePhone lib phoneNumber
  code := randomDigits otp.codeLength draw.digits
  expiresAt := draw.now + codeTtl

/-- The library writes the request of a code. -/
theorem dump_codeRequest {w : Webhook} (hw : w.Lawful)
    (hvalid : validPhone lib (normalizePhone lib phoneNumber) = true) :
    ∃ body, w.dump (.object (w.requestMembers (codeRequest lib phoneNumber otp codeTtl draw))) = .ok body := by
  refine hw.dump_object _ ?_
  have hid : Utf8.valid (newDeliveryId draw.deliveryId) = true := Utf8.valid_ascii (isAscii_newDeliveryId _)
  have hphone : Utf8.valid (normalizePhone lib phoneNumber) = true := Utf8.valid_ascii (isAscii_of_validPhone hvalid)
  have hcode : Utf8.valid (randomDigits otp.codeLength draw.digits) = true := Utf8.valid_ascii (isAscii_randomDigits _ _)
  simp only [Webhook.requestMembers, codeRequest, List.forall_mem_cons]
  refine ⟨⟨by decide, .inl ⟨_, rfl, by decide⟩⟩, ⟨by decide, .inl ⟨_, rfl, hid⟩⟩,
    ⟨by decide, .inl ⟨_, rfl, by decide⟩⟩, ⟨by decide, .inl ⟨_, rfl, by decide⟩⟩,
    ⟨by decide, .inl ⟨_, rfl, hphone⟩⟩, ⟨by decide, .inl ⟨_, rfl, hcode⟩⟩,
    ⟨by decide, .inl ⟨_, rfl, hw.formatRfc3339Utc _⟩⟩, ⟨by decide, .inr ⟨_, rfl⟩⟩, fun _ h => by cases h⟩

/-- What `SendCode` leaves, from the answer of the delivery. -/
inductive SendsCode (request : DeliveryRequest) (hash : Bytes) (rec : PhoneCode) (codes : Codes)
    (o : Prog.Outcome StoreCall.Res Exn Stores Bytes) : Except Exn DeliveryResult → Prop where
  | sent (result : DeliveryResult) (hresult : o.result = .ok hash) (hcodes : o.state.codes = codes.upsert hash rec)
      (hdelivered : ⟨.otpDeliver request, .ok ()⟩ ∈ o.trace) : SendsCode request hash rec codes o (.ok result)
  | rolledBack (reason : String) (hresult : o.result = .error (.deliveryFailed reason))
      (hcodes : o.state.codes = (codes.upsert hash rec).erase hash) :
    SendsCode request hash rec codes o (.error (.deliveryFailed reason))
  | kept (what : String) (hresult : o.result = .error (.jsonTypeError what))
      (hcodes : o.state.codes = codes.upsert hash rec) : SendsCode request hash rec codes o (.error (.jsonTypeError what))

/-- The end of `SendCode`. -/
theorem run_deliverOrRollBack (w : Webhook) (P : Mtproto.Crypto.Primitives) (hash : Bytes) (request : DeliveryRequest)
    (n : Nat) (s : Stores) :
    (deliverOrRollBack hash request >>= fun _ => pure hash).run (w.exec P) Prog.idle n s =
      match w.deliver request with
      | .ok _ => { result := .ok hash, state := s, trace := [⟨.otpDeliver request, .ok ()⟩] }
      | .error (.deliveryFailed reason) =>
        { result := .error (.deliveryFailed reason)
          state := { s with codes := s.codes.erase hash }
          trace := [⟨.otpDeliver request, .error (.deliveryFailed reason)⟩, ⟨.codesDel hash, .ok ()⟩] }
      | .error e => { result := .error e, state := s, trace := [⟨.otpDeliver request, .error e⟩] } := by
  unfold deliverOrRollBack
  rw [Prog.run_bind, Prog.run_tryCatch, Prog.run_perform]
  simp only [Webhook.exec, Prog.idle]
  cases w.deliver request with
  | ok result => rfl
  | error e => cases e <;> rfl

theorem sendsCode (w : Webhook) (P : Mtproto.Crypto.Primitives) (fixedCode : Bytes)
    (hvalid : validPhone lib (normalizePhone lib phoneNumber) = true) {parse : Bytes → Option Json}
    {outcome : HttpOutcome} (hreads : Reads parse outcome (w.deliver (codeRequest lib phoneNumber otp codeTtl draw))) :
    SendsCode (codeRequest lib phoneNumber otp codeTtl draw) (randomHex draw.hash.toList)
      (issuedCode lib phoneNumber otp draw s) s.codes
      ((sendCode lib phoneNumber fixedCode (some otp) codeTtl draw).exec (w.exec P) s)
      (w.deliver (codeRequest lib phoneNumber otp codeTtl draw)) := by
  have howner : ∀ (f : Int64 → StoreProg Bytes), (currentPhoneOwnerId (normalizePhone lib phoneNumber) >>= f).run
      (w.exec P) Prog.idle 0 s =
        let x := s.usersByPhone (normalizePhone lib phoneNumber)
        let o := (f (ownerId x)).run (w.exec P) Prog.idle 1 s
        { o with trace := ⟨.usersByPhone (normalizePhone lib phoneNumber), .ok x⟩ :: o.trace } := by
    intro f
    rw [Prog.run_bind]
    unfold currentPhoneOwnerId
    rw [Prog.run_perform_bind]
    simp only [Webhook.exec, StoreCall.exec, Prog.idle]
    cases s.usersByPhone (normalizePhone lib phoneNumber) <;> rfl
  unfold codeRequest at hreads ⊢
  unfold sendCode Prog.exec issuedCode
  simp only [hvalid, Bool.not_true, Bool.false_eq_true, if_false, howner, Prog.run_perform_bind, Option.isSome_some,
    if_true, Webhook.exec, StoreCall.exec, Prog.idle, run_deliverOrRollBack]
  generalize w.deliver _ = delivery at hreads ⊢
  cases hreads with
  | accepted result => exact .sent result rfl rfl (by simp)
  | refused reason => exact .rolledBack reason rfl rfl
  | mistyped what => exact .kept what rfl rfl

end SendCode

/-! ## The codes after `SendCode` -/

/-- The two stores hold the same codes. -/
def SameCodes (codes codes' : Codes) : Prop := ∀ hash, codes'.find hash = codes.find hash

/-- A call that throws leaves the codes as they were; one that returns a hash has stored the code it delivered. -/
def RollsBack (s : Stores) (o : Prog.Outcome StoreCall.Res Exn Stores Bytes) : Prop :=
  match o.result with
  | .error _ => SameCodes s.codes o.state.codes
  | .ok hash => ∃ rec request, o.state.codes.find hash = some rec ∧ ⟨.otpDeliver request, .ok ()⟩ ∈ o.trace ∧
    request.code = rec.code

theorem sameCodes_erase_iff (codes : Codes) (hash : Bytes) (rec : PhoneCode) :
    SameCodes codes ((codes.upsert hash rec).erase hash) ↔ codes.find hash = none := by
  constructor
  · intro h
    have hhash := h hash
    rw [Table.find_erase, if_pos rfl] at hhash
    exact hhash.symm
  · intro hfresh hash'
    rw [Table.find_erase, Table.find_upsert]
    split
    · next heq => rw [heq, hfresh]
    · rfl

theorem sameCodes_upsert_iff (codes : Codes) (hash : Bytes) (rec : PhoneCode) :
    SameCodes codes (codes.upsert hash rec) ↔ codes.find hash = some rec := by
  constructor
  · intro h
    have hhash := h hash
    rw [Table.find_upsert, if_pos rfl] at hhash
    exact hhash.symm
  · intro hsame hash'
    rw [Table.find_upsert]
    split
    · next heq => rw [heq, hsame]
    · rfl

/-- When `SendCode` leaves the codes right: the answer is not mistyped, or the store has held the very record before,
and the hash of a delivery that is refused was new. -/
structure Recoverable (parse : Bytes → Option Json) (outcome : HttpOutcome) (codes : Codes) (hash : Bytes)
    (rec : PhoneCode) : Prop where
  mistyped : Mistyped parse outcome → codes.find hash = some rec
  refused : ¬Mistyped parse outcome → ¬Accepted parse outcome → codes.find hash = none

theorem rollsBack_iff {parse : Bytes → Option Json} {outcome : HttpOutcome} {delivery : Except Exn DeliveryResult}
    {request : DeliveryRequest} {hash : Bytes} {rec : PhoneCode} {s : Stores}
    {o : Prog.Outcome StoreCall.Res Exn Stores Bytes} (hreads : Reads parse outcome delivery)
    (hsends : SendsCode request hash rec s.codes o delivery) (hcode : request.code = rec.code) :
    RollsBack s o ↔ Recoverable parse outcome s.codes hash rec := by
  unfold RollsBack
  cases hsends with
  | sent result hresult hcodes hdelivered =>
    rw [hresult]
    cases hreads with
    | accepted _ haccepted htyped =>
      refine ⟨fun _ => ⟨fun h => absurd h htyped, fun _ h => absurd haccepted h⟩, fun _ => ?_⟩
      exact ⟨rec, request, by rw [hcodes, Table.find_upsert, if_pos rfl], hdelivered, hcode⟩
  | rolledBack reason hresult hcodes =>
    rw [hresult]
    cases hreads with
    | refused _ hrefused htyped =>
      simp only [hcodes, sameCodes_erase_iff]
      exact ⟨fun hfresh => ⟨fun h => absurd h htyped, fun _ _ => hfresh⟩, fun h => h.refused htyped hrefused⟩
  | kept what hresult hcodes =>
    rw [hresult]
    cases hreads with
    | mistyped _ hmistyped =>
      simp only [hcodes, sameCodes_upsert_iff]
      exact ⟨fun hsame => ⟨fun _ => hsame, fun h => absurd hmistyped h⟩, fun h => h.mistyped hmistyped⟩

/-- **Undelivered codes are rolled back exactly where the details of the webhook are strings.** `Deliver` keeps its
contract with a request that it can write if and only if the answer is not mistyped; `SendCode` refuses a phone that is
not valid, can write its request for every other, and leaves the codes right if and only if they are recoverable. -/
theorem deliver_keepsContract_iff {w : Webhook} (hw : w.Lawful) :
    (∀ request body, w.dump (.object (w.requestMembers request)) = .ok body →
      (KeepsContract w.parse (w.send request body) (w.deliver request) ↔ ¬Mistyped w.parse (w.send request body))) ∧
    ∀ (lib : PhoneLibrary) (P : Mtproto.Crypto.Primitives) (phoneNumber fixedCode : Bytes) (otp : OtpSender)
      (codeTtl : Int) (draw : SendCodeDraw) (s : Stores),
      let request := codeRequest lib phoneNumber otp codeTtl draw
      let outcome := (sendCode lib phoneNumber fixedCode (some otp) codeTtl draw).exec (w.exec P) s
      (validPhone lib (normalizePhone lib phoneNumber) = false → RollsBack s outcome) ∧
        (validPhone lib (normalizePhone lib phoneNumber) = true →
          ∃ body, w.dump (.object (w.requestMembers request)) = .ok body ∧
            (RollsBack s outcome ↔ Recoverable w.parse (w.send request body) s.codes (randomHex draw.hash.toList)
              (issuedCode lib phoneNumber otp draw s))) := by
  refine ⟨fun request body hbody => (reads_deliver hbody).keepsContract_iff, ?_⟩
  intro lib P phoneNumber fixedCode otp codeTtl draw s request outcome
  refine ⟨fun hinvalid => ?_, fun hvalid => ?_⟩
  · have hrun : outcome = { result := .error .phoneNumberInvalid, state := s, trace := [] } := by
      unfold outcome sendCode Prog.exec
      simp only [hinvalid, Bool.not_false, if_true]
      rfl
    rw [hrun]
    exact fun _ => rfl
  · obtain ⟨body, hbody⟩ := dump_codeRequest lib phoneNumber otp codeTtl draw hw hvalid
    have hreads := reads_deliver hbody
    exact ⟨body, hbody, rollsBack_iff hreads (sendsCode lib phoneNumber otp codeTtl draw s w P fixedCode hvalid hreads) rfl⟩

/-! ## A webhook that answers with a number -/

/-- Writes an object of numbers and of strings without special characters, in the order of its keys. -/
def writeObject : Json → Except String Bytes
  | .object members =>
    let quoted (s : Bytes) : Bytes := ascii "\"" ++ s ++ ascii "\""
    let value : Json → Bytes
      | .string s => quoted s
      | .number n => n
      | _ => ascii "null"
    let sorted := members.mergeSort fun a b => decide (text a.1 ≤ text b.1)
    .ok (ascii "\x7b" ++ [44].intercalate (sorted.map fun m => quoted m.1 ++ [58] ++ value m.2) ++ ascii "\x7d")
  | _ => .error "not an object"

/-- The answer `{"accepted":true,"message_id":7}`, or without the id. -/
def acceptedBody (detail : Bytes) : Bytes := ascii "\x7b\"accepted\":true" ++ detail ++ ascii "\x7d"

def numberDetail : Bytes := ascii ",\"message_id\":7"

/-- Reads the two answers. -/
def readAccepted (body : Bytes) : Option Json :=
  if body = acceptedBody [] then some (.object [(ascii "accepted", .bool true)])
  else if body = acceptedBody numberDetail then
    some (.object [(ascii "accepted", .bool true), (ascii "message_id", .number (ascii "7"))])
  else none

/-- A webhook that accepts every code, with this detail. -/
def acceptingWebhook (detail : Bytes) : Webhook where
  config := { url := ascii "http://localhost/otp", secret := [], timeout := 5000 }
  now := 0
  formatRfc3339Utc _ := ascii "1970-01-01T00:05:00Z"
  signature _ _ _ := []
  dump := writeObject
  parse := readAccepted
  httpPost _ _ _ _ := .response { status := 200, body := acceptedBody detail }

theorem acceptingWebhook_lawful (detail : Bytes) : (acceptingWebhook detail).Lawful where
  dump_object members _ := ⟨_, rfl⟩
  formatRfc3339Utc _ := by
    show Utf8.valid (ascii "1970-01-01T00:05:00Z") = true
    decide

def noLibrary : PhoneLibrary := { formatE164 := fun _ => none }

/-- A collectible number. -/
def collectiblePhone : Bytes := ascii "8881234567"

def zeroDraw : SendCodeDraw := { hash := Arr.zero 8, digits := fun _ => 0, deliveryId := Arr.zero 16, now := 0 }

def noStores : Stores := Stores.empty { now := 0, newUserId := 0 }

/-- A code of five digits goes to the number. -/
def sentCode (detail : Bytes) : Prog.Outcome StoreCall.Res Exn Stores Bytes :=
  (sendCode noLibrary collectiblePhone [] (some { codeLength := 5 }) 300 zeroDraw).exec
    ((acceptingWebhook detail).exec Mtproto.Crypto.blankPrimitives) noStores

theorem deliver_keepsContract_iff_accepting : RollsBack noStores (sentCode []) := by
  obtain ⟨-, hsend⟩ := deliver_keepsContract_iff (acceptingWebhook_lawful [])
  obtain ⟨body, -, hiff⟩ := (hsend noLibrary Mtproto.Crypto.blankPrimitives collectiblePhone [] { codeLength := 5 } 300
    zeroDraw noStores).2 (by decide)
  have hparse : readAccepted (acceptedBody []) = some (.object [(ascii "accepted", .bool true)]) := by
    rw [readAccepted, if_pos rfl]
  have hanswers : Answers readAccepted (.response { status := 200, body := acceptedBody [] }) true
      [(ascii "accepted", .bool true)] :=
    answers_response.mpr ⟨by decide, by decide, by decide, hparse, rfl⟩
  refine hiff.mpr ⟨?_, fun _ hrefused => absurd (.inr ⟨_, hanswers⟩) hrefused⟩
  rintro ⟨accepted, members, v, hanswers', hdetail, -⟩
  obtain ⟨-, -, -, hmembers, haccepted⟩ := answers_response.mp hanswers'
  cases hparse.symm.trans hmembers
  cases haccepted
  cases hdetail

/-- The acceptance `{"accepted":true,"message_id":7}` makes `Deliver` throw the exception of the library, and the code
stays in the store. -/
theorem numberDetail_keepsCode :
    ¬((∀ (w : Webhook) request body, w.dump (.object (w.requestMembers request)) = .ok body →
        KeepsContract w.parse (w.send request body) (w.deliver request)) ∨
      RollsBack noStores (sentCode numberDetail)) := by
  have hparse : readAccepted (acceptedBody numberDetail) =
      some (.object [(ascii "accepted", .bool true), (ascii "message_id", .number (ascii "7"))]) := by
    rw [readAccepted, if_neg (by decide), if_pos rfl]
  have hmistyped : Mistyped readAccepted (.response { status := 200, body := acceptedBody numberDetail }) :=
    ⟨true, _, .number (ascii "7"), answers_response.mpr ⟨by decide, by decide, by decide, hparse, rfl⟩, rfl,
      fun s h => by cases h⟩
  have hreads : Reads readAccepted (.response { status := 200, body := acceptedBody numberDetail })
      ((acceptingWebhook numberDetail).deliver
        (codeRequest noLibrary collectiblePhone { codeLength := 5 } 300 zeroDraw)) :=
    reads_deliver (w := acceptingWebhook numberDetail) rfl
  rintro (h | h)
  · exact hreads.keepsContract_iff.mp (h (acceptingWebhook numberDetail) _ _ rfl) hmistyped
  · have hsends := sendsCode noLibrary collectiblePhone { codeLength := 5 } 300 zeroDraw noStores
      (acceptingWebhook numberDetail) Mtproto.Crypto.blankPrimitives [] (by decide) hreads
    have hsame := ((rollsBack_iff hreads hsends rfl).mp h).mistyped hmistyped
    cases hsame

end ShuzaGram.OtpDelivery
