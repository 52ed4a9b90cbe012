import ShuzaGram.Mtproto.Transport.Codec

/-!
# The intermediate transports

`mtproto/transport/intermediate_codec.hpp`. A frame is a 4-byte length and the payload; the padded variant
appends 0 to 3 random bytes, which the length counts. How many it appends is the last byte of the payload,
modulo 4.
-/

namespace ShuzaGram.Mtproto.Transport

open Infra

variable {S : Type}

def intermediateClientStart : Bytes := List.replicate 4 0xEE

def paddedIntermediateClientStart : Bytes := List.replicate 4 0xDD

def writeIntermediateFrame (write : WriteBytes Exn S) (payload : Bytes) : EStateM Exn S Unit := do
  writeU32Le write (UInt32.ofNat payload.length)
  write payload

/-- With `padding`, what is behind the last whole word is cut off. -/
def readIntermediateFrame (read : ReadExact Exn S) (padding : Bool) : EStateM Exn S Bytes := do
  let n ← readU32Le read
  checkMessageLength n.toNat
  let payload ← read n.toNat
  if padding then return payload.take (payload.length - payload.length % 4)
  return payload

/-- The frame that carries these bytes. -/
def intermediateFrame (framed : Bytes) : Bytes := toLE 4 framed.length ++ framed

/-- The check and the length agree on what a frame is. -/
theorem readIntermediateFrame_frame {read : ReadExact Exn S} {stream : S → Bytes} {closed : Exn} {s : S} {rest : Bytes}
    (h : ReadsStream read stream closed) (padding : Bool) {framed : Bytes} (hvalid : ValidLength framed.length)
    (hs : stream s = intermediateFrame framed ++ rest) :
    ∃ s', readIntermediateFrame read padding s =
        .ok (if padding then framed.take (framed.length - framed.length % 4) else framed) s' ∧ stream s' = rest := by
  have hn := toNat_ofNat_of_valid hvalid
  rw [intermediateFrame, List.append_assoc, ← hn] at hs
  obtain ⟨t, hlength, ht⟩ := readU32Le_put h hs
  obtain ⟨s', hpayload, hrest⟩ := h.read_append ht hn.symm
  refine ⟨s', ?_, hrest⟩
  rw [readIntermediateFrame, Steps.bind_of_ok hlength,
    Steps.bind_of_ok (checkMessageLength_of_valid (by rw [hn]; exact hvalid) t), Steps.bind_of_ok hpayload]
  cases padding <;> rfl

/-- A frame that is too long is refused once its length is read. -/
theorem readIntermediateFrame_long {read : ReadExact Exn S} {stream : S → Bytes} {closed : Exn} {s : S} {rest : Bytes}
    (h : ReadsStream read stream closed) (padding : Bool) {framed : Bytes} (hlong : maxMessageSize < framed.length)
    (hlt : framed.length < 2 ^ 32) (hs : stream s = intermediateFrame framed ++ rest) :
    ∃ s', readIntermediateFrame read padding s = .error (.invalidMessageLength framed.length) s' := by
  have hn : (UInt32.ofNat framed.length).toNat = framed.length := UInt32.toNat_ofNat_of_lt' hlt
  rw [intermediateFrame, List.append_assoc, ← hn] at hs
  obtain ⟨t, hlength, -⟩ := readU32Le_put h hs
  refine ⟨t, ?_⟩
  have hbad : ¬ ValidLength framed.length := fun hv => Nat.not_lt.mpr hv.2 hlong
  rw [readIntermediateFrame, Steps.bind_of_ok hlength, hn,
    Steps.bind_of_error (checkMessageLength_of_not hbad t)]

/-- What is returned without padding has the length that was read. -/
theorem readIntermediateFrame_eq_ok {read : ReadExact Exn S} {stream : S → Bytes} {closed : Exn} {s s' : S}
    (h : ReadsStream read stream closed) {payload : Bytes} (hread : readIntermediateFrame read false s = .ok payload s') :
    ValidLength payload.length := by
  obtain ⟨n, s₁, -, h₁⟩ := Steps.bind_eq_ok.mp hread
  obtain ⟨_, s₂, hcheck, h₂⟩ := Steps.bind_eq_ok.mp h₁
  obtain ⟨bs, s₃, hbs, hpure⟩ := Steps.bind_eq_ok.mp h₂
  cases hpure
  rw [(h.stream_of_ok hbs).1]
  exact (checkMessageLength_eq_ok hcheck).1

theorem writeIntermediateFrame_eq {write : WriteBytes Exn S} {sent : S → Bytes} (h : WritesStream write sent)
    {framed : Bytes} (hlt : framed.length < 2 ^ 32) (s : S) :
    ∃ s', writeIntermediateFrame write framed s = .ok () s' ∧ sent s' = sent s ++ intermediateFrame framed := by
  obtain ⟨t, hlength, ht⟩ := h s (toLE 4 (UInt32.ofNat framed.length).toNat)
  obtain ⟨s', hpayload, hs'⟩ := h t framed
  refine ⟨s', ?_, ?_⟩
  · rw [writeIntermediateFrame, writeU32Le, Steps.bind_of_ok hlength, hpayload]
  · rw [hs', ht, UInt32.toNat_ofNat_of_lt' hlt, intermediateFrame, List.append_assoc]

theorem AcceptsWords.length_lt {payload : Bytes} (h : AcceptsWords payload) : payload.length + 3 < 2 ^ 32 := by
  have hle := h.length.2
  unfold maxMessageSize at hle
  omega

/-! ## Intermediate -/

namespace IntermediateCodec

def writeHeader (write : WriteBytes Exn S) : EStateM Exn S Unit := write intermediateClientStart

def write (write : WriteBytes Exn S) (payload : Bytes) : EStateM Exn S Unit := do
  checkOutgoingMessage payload
  checkAlign payload 4
  writeIntermediateFrame write payload

def read (read : ReadExact Exn S) : EStateM Exn S Bytes := do
  let payload ← readIntermediateFrame read false
  deliver payload

theorem write_of_accepts {write' : WriteBytes Exn S} {sent : S → Bytes} (h : WritesStream write' sent) {payload : Bytes}
    (hp : AcceptsWords payload) (s : S) :
    ∃ s', write write' payload s = .ok () s' ∧ sent s' = sent s ++ intermediateFrame payload := by
  have hlt := hp.length_lt
  obtain ⟨s', hframe, hs'⟩ := writeIntermediateFrame_eq h (by omega : payload.length < 2 ^ 32) s
  refine ⟨s', ?_, hs'⟩
  rw [write, outgoing_of_accepts hp, hframe]

theorem read_frame {read' : ReadExact Exn S} {stream : S → Bytes} {closed : Exn} {s : S} {rest : Bytes}
    (h : ReadsStream read' stream closed) {payload : Bytes} (hp : AcceptsWords payload)
    (hs : stream s = intermediateFrame payload ++ rest) : ∃ s', read read' s = deliver payload s' ∧ stream s' = rest := by
  obtain ⟨s', hframe, hrest⟩ := readIntermediateFrame_frame h false hp.length hs
  refine ⟨s', ?_, hrest⟩
  rw [read, Steps.bind_of_ok hframe]
  rfl

theorem validLength_of_read_eq_ok {read' : ReadExact Exn S} {stream : S → Bytes} {closed : Exn} {s s' : S}
    (h : ReadsStream read' stream closed) {payload : Bytes} (hread : read read' s = .ok payload s') :
    ValidLength payload.length := by
  obtain ⟨bs, s₁, hframe, hdeliver⟩ := Steps.bind_eq_ok.mp hread
  obtain ⟨rfl, -⟩ := deliver_eq_ok hdeliver
  exact readIntermediateFrame_eq_ok h hframe

end IntermediateCodec

/-! ## Padded intermediate -/

namespace PaddedIntermediateCodec

def writeHeader (write : WriteBytes Exn S) : EStateM Exn S Unit := write paddedIntermediateClientStart

/-- `pad_len`: the last byte of the payload, modulo 4. -/
def padLen (payload : Bytes) : Nat :=
  match payload.getLast? with
  | none => 0
  | some b => b.toNat % 4

/-- The payload and the first bytes of the random tail. -/
def framed (randomTail : Arr 4) (payload : Bytes) : Bytes := payload ++ randomTail.toList.take (padLen payload)

/-- `Write`, when the random source gives `randomTail`. -/
def write (write : WriteBytes Exn S) (randomTail : Arr 4) (payload : Bytes) : EStateM Exn S Unit := do
  checkOutgoingMessage payload
  checkAlign payload 4
  writeIntermediateFrame write (framed randomTail payload)

def read (read : ReadExact Exn S) : EStateM Exn S Bytes := do
  let payload ← readIntermediateFrame read true
  deliver payload

theorem padLen_lt (payload : Bytes) : padLen payload < 4 := by
  unfold padLen
  split <;> omega

theorem length_framed (randomTail : Arr 4) (payload : Bytes) :
    (framed randomTail payload).length = payload.length + padLen payload := by
  have hlt := padLen_lt payload
  rw [framed, List.length_append, List.length_take_of_le (by rw [Arr.length_toList]; omega)]

/-- Cutting off what is behind the last whole word gives the payload back. -/
theorem take_framed {payload : Bytes} (hp : AcceptsWords payload) (randomTail : Arr 4) :
    (framed randomTail payload).take
      ((framed randomTail payload).length - (framed randomTail payload).length % 4) = payload := by
  have hlt := padLen_lt payload
  have hwords := hp.words
  have hcut : (framed randomTail payload).length - (framed randomTail payload).length % 4 = payload.length := by
    rw [length_framed]
    omega
  rw [hcut, framed, List.take_left' rfl]

theorem write_of_accepts {write' : WriteBytes Exn S} {sent : S → Bytes} (h : WritesStream write' sent) {payload : Bytes}
    (hp : AcceptsWords payload) (randomTail : Arr 4) (s : S) :
    ∃ s', write write' randomTail payload s = .ok () s' ∧
      sent s' = sent s ++ intermediateFrame (framed randomTail payload) := by
  have hlt := hp.length_lt
  have hpad := padLen_lt payload
  have hframed : (framed randomTail payload).length < 2 ^ 32 := by
    rw [length_framed]
    omega
  obtain ⟨s', hframe, hs'⟩ := writeIntermediateFrame_eq h hframed s
  refine ⟨s', ?_, hs'⟩
  rw [write, outgoing_of_accepts hp, hframe]

section Read

variable {read' : ReadExact Exn S} {stream : S → Bytes} {closed : Exn} {s : S} {rest payload : Bytes}

/-- A frame whose padding fits in the largest message is read back. -/
theorem read_frame (h : ReadsStream read' stream closed) (hp : AcceptsWords payload) (randomTail : Arr 4)
    (hfits : payload.length + padLen payload ≤ maxMessageSize)
    (hs : stream s = intermediateFrame (framed randomTail payload) ++ rest) :
    ∃ s', read read' s = deliver payload s' ∧ stream s' = rest := by
  have hvalid : ValidLength (framed randomTail payload).length := by
    rw [length_framed]
    exact ⟨Nat.lt_of_lt_of_le hp.length.1 (Nat.le_add_right _ _), hfits⟩
  obtain ⟨s', hframe, hrest⟩ := readIntermediateFrame_frame h true hvalid hs
  refine ⟨s', ?_, hrest⟩
  rw [read, Steps.bind_of_ok hframe, if_pos rfl, take_framed hp]

/-- Any other frame is refused. -/
theorem read_frame_long (h : ReadsStream read' stream closed) (hp : AcceptsWords payload) (randomTail : Arr 4)
    (hlong : maxMessageSize < payload.length + padLen payload)
    (hs : stream s = intermediateFrame (framed randomTail payload) ++ rest) : ∃ e s', read read' s = .error e s' := by
  have hlt := hp.length_lt
  have hpad := padLen_lt payload
  obtain ⟨s', hframe⟩ := readIntermediateFrame_long h true (by rw [length_framed]; exact hlong)
    (by rw [length_framed]; omega) hs
  exact ⟨_, s', by rw [read, Steps.bind_of_error hframe]⟩

end Read

end PaddedIntermediateCodec

end ShuzaGram.Mtproto.Transport
