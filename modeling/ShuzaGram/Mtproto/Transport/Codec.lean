import ShuzaGram.Errors
import ShuzaGram.Infra.ByteStream

/-!
# Transport codecs

`mtproto/transport/codec.hpp`: the checks that every codec shares. A codec reads and writes through
closures, here `ReadExact` and `WriteBytes` over the state `S` of the connection.
-/

namespace ShuzaGram.Mtproto.Transport

open Infra

variable {S : Type}

def maxMessageSize : Nat := 2 ^ 24

def checkMessageLength (length : Nat) : EStateM Exn S Unit :=
  if length = 0 ∨ maxMessageSize < length then throw (.invalidMessageLength length) else pure ()

def checkOutgoingMessage (payload : Bytes) : EStateM Exn S Unit := checkMessageLength payload.length

def checkAlign (payload : Bytes) (n : Nat) : EStateM Exn S Unit :=
  if payload.length % n ≠ 0 then throw (.alignedPayloadExpected n) else pure ()

/-- A payload of exactly 4 bytes is the negated code of an error. -/
def checkProtocolError (payload : Bytes) : EStateM Exn S Unit :=
  if payload.length ≠ 4 then pure () else throw (.protocolError (-(UInt32.ofNat (ofLE payload)).toInt32))

def writeU32Le (write : WriteBytes Exn S) (v : UInt32) : EStateM Exn S Unit := write (toLE 4 v.toNat)

def readU32Le (read : ReadExact Exn S) : EStateM Exn S UInt32 := do
  let b ← read 4
  return UInt32.ofNat (ofLE b)

/-- One byte. -/
def readByte (read : ReadExact Exn S) : EStateM Exn S UInt8 := do
  let b ← read 1
  return b.headD 0

/-- The end of every `Read`: the payload, unless it is an error. -/
def deliver (payload : Bytes) : EStateM Exn S Bytes := do
  checkProtocolError payload
  return payload

/-- A length that both directions accept. -/
def ValidLength (length : Nat) : Prop := 0 < length ∧ length ≤ maxMessageSize

/-- What the codecs other than Full accept. -/
structure AcceptsWords (payload : Bytes) : Prop where
  length : ValidLength payload.length
  words : 4 ∣ payload.length

/-- A valid length fits in 32 bits. -/
theorem toNat_ofNat_of_valid {n : Nat} (h : ValidLength n) : (UInt32.ofNat n).toNat = n := by
  have hle := h.2
  unfold maxMessageSize at hle
  exact UInt32.toNat_ofNat_of_lt' (Nat.lt_of_le_of_lt hle (by decide))

/-! ## The checks -/

theorem checkMessageLength_of_valid {n : Nat} (h : ValidLength n) (s : S) : checkMessageLength n s = .ok () s := by
  obtain ⟨hpos, hle⟩ := h
  rw [checkMessageLength, if_neg (by omega)]
  rfl

theorem checkMessageLength_of_not {n : Nat} (h : ¬ ValidLength n) (s : S) :
    checkMessageLength n s = .error (.invalidMessageLength n) s := by
  have hbad : n = 0 ∨ maxMessageSize < n := by
    unfold ValidLength at h
    omega
  rw [checkMessageLength, if_pos hbad]
  rfl

theorem checkMessageLength_eq_ok {n : Nat} {s s' : S} (h : checkMessageLength n s = .ok () s') :
    ValidLength n ∧ s' = s := by
  by_cases hvalid : ValidLength n
  · rw [checkMessageLength_of_valid hvalid] at h
    cases h
    exact ⟨hvalid, rfl⟩
  · rw [checkMessageLength_of_not hvalid] at h
    cases h

theorem checkAlign_of_dvd {payload : Bytes} {n : Nat} (h : n ∣ payload.length) (s : S) :
    checkAlign payload n s = .ok () s := by
  rw [checkAlign, if_neg (not_not_intro (Nat.mod_eq_zero_of_dvd h))]
  rfl

theorem checkAlign_of_not_dvd {payload : Bytes} {n : Nat} (h : ¬ n ∣ payload.length) (s : S) :
    checkAlign payload n s = .error (.alignedPayloadExpected n) s := by
  rw [checkAlign, if_pos (fun h' => h (Nat.dvd_of_mod_eq_zero h'))]
  rfl

/-- The checks that open a `Write` let an accepted payload through. -/
theorem outgoing_of_accepts {payload : Bytes} (hp : AcceptsWords payload) (k : EStateM Exn S Unit) (s : S) :
    (do checkOutgoingMessage payload; checkAlign payload 4; k) s = k s := by
  rw [checkOutgoingMessage, Steps.bind_of_ok (checkMessageLength_of_valid hp.length s),
    Steps.bind_of_ok (checkAlign_of_dvd hp.words s)]

/-- Any other payload is refused there, before anything is written. -/
theorem outgoing_of_not_accepts {payload : Bytes} (hp : ¬ AcceptsWords payload) (k : EStateM Exn S Unit) (s : S) :
    ∃ e, (do checkOutgoingMessage payload; checkAlign payload 4; k) s = .error e s := by
  by_cases hlen : ValidLength payload.length
  · have hwords : ¬ 4 ∣ payload.length := fun h => hp ⟨hlen, h⟩
    rw [checkOutgoingMessage, Steps.bind_of_ok (checkMessageLength_of_valid hlen s),
      Steps.bind_of_error (checkAlign_of_not_dvd hwords s)]
    exact ⟨_, rfl⟩
  · rw [checkOutgoingMessage, Steps.bind_of_error (checkMessageLength_of_not hlen s)]
    exact ⟨_, rfl⟩

theorem deliver_of_ne {payload : Bytes} (h : payload.length ≠ 4) (s : S) : deliver payload s = .ok payload s := by
  have hcheck : (checkProtocolError payload : EStateM Exn S Unit) s = .ok () s := by
    rw [checkProtocolError, if_pos h]
    rfl
  rw [deliver, Steps.bind_of_ok hcheck]
  rfl

theorem deliver_of_eq {payload : Bytes} (h : payload.length = 4) (s : S) :
    deliver payload s = .error (.protocolError (-(UInt32.ofNat (ofLE payload)).toInt32)) s := by
  have hcheck : (checkProtocolError payload : EStateM Exn S Unit) s =
      .error (.protocolError (-(UInt32.ofNat (ofLE payload)).toInt32)) s := by
    rw [checkProtocolError, if_neg (not_not_intro h)]
    rfl
  rw [deliver, Steps.bind_of_error hcheck]

theorem deliver_eq_ok {payload p : Bytes} {s s' : S} (h : deliver payload s = .ok p s') : p = payload ∧ s' = s := by
  by_cases hlen : payload.length = 4
  · rw [deliver_of_eq hlen] at h
    cases h
  · rw [deliver_of_ne hlen] at h
    cases h
    exact ⟨rfl, rfl⟩

/-! ## Reading a number -/

section Read

variable {read : ReadExact Exn S} {stream : S → Bytes} {closed : Exn} {s : S} {rest : Bytes}

theorem readU32Le_put (h : ReadsStream read stream closed) {v : UInt32} (hs : stream s = toLE 4 v.toNat ++ rest) :
    ∃ s', readU32Le read s = .ok v s' ∧ stream s' = rest := by
  obtain ⟨s', hread, hrest⟩ := h.read_append hs (length_toLE 4 v.toNat)
  refine ⟨s', ?_, hrest⟩
  have hv : ofLE (toLE 4 v.toNat) = v.toNat := ofLE_toLE_of_lt (by simpa using v.toNat_lt)
  rw [readU32Le, Steps.bind_of_ok hread, hv, UInt32.ofNat_toNat]
  rfl

theorem readByte_cons (h : ReadsStream read stream closed) {b : UInt8} (hs : stream s = b :: rest) :
    ∃ s', readByte read s = .ok b s' ∧ stream s' = rest := by
  obtain ⟨s', hread, hrest⟩ := h.read_append (v := [b]) (n := 1) hs rfl
  refine ⟨s', ?_, hrest⟩
  rw [readByte, Steps.bind_of_ok hread]
  rfl

end Read

end ShuzaGram.Mtproto.Transport
