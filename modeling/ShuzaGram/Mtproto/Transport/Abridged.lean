import ShuzaGram.Mtproto.Transport.Codec

/-!
# The abridged transport

`mtproto/transport/abridged_codec.hpp`. The length of a frame is a number of words: one byte below 127
words, otherwise `0x7f` and three bytes. The high bit of the first byte is ignored on reading.
-/

namespace ShuzaGram.Mtproto.Transport

open Infra

def abridgedClientStart : UInt8 := 0xEF

namespace AbridgedCodec

variable {S : Type}

def writeHeader (write : WriteBytes Exn S) : EStateM Exn S Unit := write [abridgedClientStart]

def obfuscatedTag : Bytes := List.replicate 4 abridgedClientStart

/-- The header of a frame of so many words. -/
def lengthHeader (words : Nat) : Bytes := if words < 0x7f then [UInt8.ofNat words] else 0x7f :: toLE 3 words

def write (write : WriteBytes Exn S) (payload : Bytes) : EStateM Exn S Unit := do
  checkOutgoingMessage payload
  checkAlign payload 4
  write (lengthHeader (payload.length / 4))
  write payload

def readLength (read : ReadExact Exn S) : EStateM Exn S Nat := do
  let first ← readByte read
  let words := (first &&& 0x7f).toNat
  if words = 0 then throw (.invalidMessageLength 0)
  if words < 0x7f then
    checkMessageLength (words * 4)
    return words * 4
  let ext ← read 3
  let words := ofLE ext
  if words < 0x7f then throw (.invalidMessageLength (words * 4))
  checkMessageLength (words * 4)
  return words * 4

def read (read : ReadExact Exn S) : EStateM Exn S Bytes := do
  let n ← readLength read
  let payload ← read n
  deliver payload

/-! ## Frames -/

def frame (payload : Bytes) : Bytes := lengthHeader (payload.length / 4) ++ payload

/-- An accepted payload is written as one frame. -/
theorem write_of_accepts {write' : WriteBytes Exn S} {sent : S → Bytes} (h : WritesStream write' sent) {payload : Bytes}
    (hp : AcceptsWords payload) (s : S) :
    ∃ s', write write' payload s = .ok () s' ∧ sent s' = sent s ++ frame payload := by
  obtain ⟨t, hheader, ht⟩ := h s (lengthHeader (payload.length / 4))
  obtain ⟨s', hpayload, hs'⟩ := h t payload
  refine ⟨s', ?_, by rw [hs', ht, frame, List.append_assoc]⟩
  rw [write, outgoing_of_accepts hp, Steps.bind_of_ok hheader, hpayload]

/-- The quick-ack bit is cut off. -/
theorem toNat_and_mask (b : UInt8) : (b &&& 0x7f).toNat = b.toNat % 128 := by
  rw [UInt8.toNat_and]
  exact Nat.and_two_pow_sub_one_eq_mod b.toNat 7

section Read

variable {read' : ReadExact Exn S} {stream : S → Bytes} {closed : Exn} {s : S} {rest : Bytes}

theorem readLength_put (h : ReadsStream read' stream closed) {n : Nat} (hn : ValidLength n) (hwords : 4 ∣ n)
    (hs : stream s = lengthHeader (n / 4) ++ rest) : ∃ s', readLength read' s = .ok n s' ∧ stream s' = rest := by
  have hle := hn.2
  have hpos := hn.1
  unfold maxMessageSize at hle
  have hdiv : n / 4 * 4 = n := Nat.div_mul_cancel hwords
  have hcheck : ∀ s', (do checkMessageLength (n / 4 * 4); return n / 4 * 4 : EStateM Exn S Nat) s' = .ok n s' := by
    intro s'
    rw [hdiv, Steps.bind_of_ok (checkMessageLength_of_valid hn s')]
    rfl
  -- A length in one byte, or in the three bytes behind 0x7f.
  by_cases hshort : n / 4 < 0x7f
  · rw [lengthHeader, if_pos hshort] at hs
    obtain ⟨s', hfirst, hrest⟩ := readByte_cons h hs
    have hmask : (UInt8.ofNat (n / 4) &&& 0x7f).toNat = n / 4 := by
      rw [toNat_and_mask, UInt8.toNat_ofNat']
      omega
    refine ⟨s', ?_, hrest⟩
    rw [readLength, Steps.bind_of_ok hfirst]
    simp only [hmask]
    rw [if_neg (by omega), if_pos hshort]
    exact hcheck s'
  · rw [lengthHeader, if_neg hshort] at hs
    obtain ⟨t, hfirst, ht⟩ := readByte_cons h hs
    obtain ⟨s', hext, hrest⟩ := h.read_append ht (length_toLE 3 (n / 4))
    have hmask : ((0x7f : UInt8) &&& 0x7f).toNat = 0x7f := rfl
    have hword : ofLE (toLE 3 (n / 4)) = n / 4 := ofLE_toLE_of_lt (by omega)
    refine ⟨s', ?_, hrest⟩
    rw [readLength, Steps.bind_of_ok hfirst]
    simp only [hmask]
    rw [if_neg (by decide), if_neg (by decide), Steps.bind_of_ok hext]
    simp only [hword]
    rw [if_neg hshort]
    exact hcheck s'

/-- The length of one word, whether or not its quick-ack bit is set. -/
theorem readLength_one (h : ReadsStream read' stream closed) {first : UInt8} (hfirst : first &&& 0x7f = 1)
    (hs : stream s = first :: rest) : ∃ s', readLength read' s = .ok 4 s' ∧ stream s' = rest := by
  obtain ⟨s', hbyte, hrest⟩ := readByte_cons h hs
  refine ⟨s', ?_, hrest⟩
  rw [readLength, Steps.bind_of_ok hbyte, hfirst]
  exact Steps.bind_of_ok (checkMessageLength_of_valid ⟨by decide, by decide⟩ s')

/-- A frame is read back, and nothing behind it is touched. -/
theorem read_frame (h : ReadsStream read' stream closed) {payload : Bytes} (hp : AcceptsWords payload)
    (hs : stream s = frame payload ++ rest) : ∃ s', read read' s = deliver payload s' ∧ stream s' = rest := by
  rw [frame, List.append_assoc] at hs
  obtain ⟨t, hlength, ht⟩ := readLength_put h hp.length hp.words hs
  obtain ⟨s', hpayload, hrest⟩ := h.read_append ht rfl
  refine ⟨s', ?_, hrest⟩
  rw [read, Steps.bind_of_ok hlength, Steps.bind_of_ok hpayload]

/-- A frame of one word, whether or not its quick-ack bit is set. -/
theorem read_one (h : ReadsStream read' stream closed) {first : UInt8} (hfirst : first &&& 0x7f = 1) {payload : Bytes}
    (hlen : payload.length = 4) (hs : stream s = first :: payload ++ rest) :
    ∃ s', read read' s = deliver payload s' ∧ stream s' = rest := by
  obtain ⟨t, hlength, ht⟩ := readLength_one h hfirst hs
  obtain ⟨s', hpayload, hrest⟩ := h.read_append ht hlen
  refine ⟨s', ?_, hrest⟩
  rw [read, Steps.bind_of_ok hlength, Steps.bind_of_ok hpayload]

/-- A length that was read is valid, and a number of words. -/
theorem readLength_eq_ok {n : Nat} {s' : S} (hread : readLength read' s = .ok n s') : ValidLength n ∧ 4 ∣ n := by
  have hcheck : ∀ words s₁, (do checkMessageLength (words * 4); return words * 4 : EStateM Exn S Nat) s₁ = .ok n s' →
      ValidLength n ∧ 4 ∣ n := by
    intro words s₁ hok
    obtain ⟨_, s₂, hvalid, hpure⟩ := Steps.bind_eq_ok.mp hok
    cases hpure
    exact ⟨(checkMessageLength_eq_ok hvalid).1, Nat.dvd_mul_left 4 words⟩
  obtain ⟨first, s₁, -, h₁⟩ := Steps.bind_eq_ok.mp hread
  split at h₁
  · cases h₁
  · split at h₁
    · exact hcheck _ _ h₁
    · obtain ⟨ext, s₂, -, h₂⟩ := Steps.bind_eq_ok.mp h₁
      split at h₂
      · cases h₂
      · exact hcheck _ _ h₂

/-- What `read` returns is what `write` accepts. -/
theorem acceptsWords_of_read_eq_ok (h : ReadsStream read' stream closed) {payload : Bytes} {s' : S}
    (hread : read read' s = .ok payload s') : AcceptsWords payload := by
  obtain ⟨n, s₁, hlength, h₁⟩ := Steps.bind_eq_ok.mp hread
  obtain ⟨bs, s₂, hbs, hdeliver⟩ := Steps.bind_eq_ok.mp h₁
  obtain ⟨rfl, -⟩ := deliver_eq_ok hdeliver
  obtain ⟨hvalid, hwords⟩ := readLength_eq_ok hlength
  obtain ⟨rfl, -⟩ := h.stream_of_ok hbs
  exact ⟨hvalid, hwords⟩

end Read

end AbridgedCodec

end ShuzaGram.Mtproto.Transport
