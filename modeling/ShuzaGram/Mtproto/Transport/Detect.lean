import ShuzaGram.Mtproto.Transport.Abridged
import ShuzaGram.Mtproto.Transport.Full
import ShuzaGram.Mtproto.Transport.Intermediate
import ShuzaGram.Mtproto.Transport.Obfuscated2

/-!
# Detecting the transport

`mtproto/transport/detect_codec.hpp` and `detect_transport.cpp`. The server reads the first bytes of a
connection to find the transport of its client. Full has no mark of its own, so what was read is given back
to it; an obfuscated connection is one whose first bytes are nothing else.

The closures that the source returns are values here: `Reader` and `Writer` hold the variables that such a
closure owns.
-/

namespace ShuzaGram.Mtproto.Transport

open Infra

/-! ## Codecs -/

/-- The dynamic type of a `Codec`, with its members. -/
inductive Codec where
  | abridged
  | intermediate
  | paddedIntermediate
  | full (c : FullCodec)
deriving DecidableEq

namespace Codec

variable {S : Type}

def writeHeader (write : WriteBytes Exn S) : EStateM Exn (Codec × S) Unit := fun (c, s) =>
  match c with
  | .abridged => Steps.beside (AbridgedCodec.writeHeader write) (c, s)
  | .intermediate => Steps.beside (IntermediateCodec.writeHeader write) (c, s)
  | .paddedIntermediate => Steps.beside (PaddedIntermediateCodec.writeHeader write) (c, s)
  | .full _ => .ok () (c, s)

/-- `Write`, when the random source of the padded codec gives `randomTail`. -/
def write (write : WriteBytes Exn S) (randomTail : Arr 4) (payload : Bytes) : EStateM Exn (Codec × S) Unit :=
  fun (c, s) =>
    match c with
    | .abridged => Steps.beside (AbridgedCodec.write write payload) (c, s)
    | .intermediate => Steps.beside (IntermediateCodec.write write payload) (c, s)
    | .paddedIntermediate => Steps.beside (PaddedIntermediateCodec.write write randomTail payload) (c, s)
    | .full f =>
      match FullCodec.write write payload (f, s) with
      | .ok () (f', s') => .ok () (.full f', s')
      | .error e (f', s') => .error e (.full f', s')

def read (read : ReadExact Exn S) : EStateM Exn (Codec × S) Bytes := fun (c, s) =>
  match c with
  | .abridged => Steps.beside (AbridgedCodec.read read) (c, s)
  | .intermediate => Steps.beside (IntermediateCodec.read read) (c, s)
  | .paddedIntermediate => Steps.beside (PaddedIntermediateCodec.read read) (c, s)
  | .full f =>
    match FullCodec.read read (f, s) with
    | .ok payload (f', s') => .ok payload (.full f', s')
    | .error e (f', s') => .error e (.full f', s')

variable (read' : ReadExact Exn S) (write' : WriteBytes Exn S)

theorem embeds_read_abridged : Steps.Embeds (Prod.mk abridged) (AbridgedCodec.read read') (read read') := fun s => by
  simp only [read, Steps.beside]
  cases AbridgedCodec.read read' s <;> rfl

theorem embeds_read_intermediate :
    Steps.Embeds (Prod.mk intermediate) (IntermediateCodec.read read') (read read') := fun s => by
  simp only [read, Steps.beside]
  cases IntermediateCodec.read read' s <;> rfl

theorem embeds_read_paddedIntermediate :
    Steps.Embeds (Prod.mk paddedIntermediate) (PaddedIntermediateCodec.read read') (read read') := fun s => by
  simp only [read, Steps.beside]
  cases PaddedIntermediateCodec.read read' s <;> rfl

/-- The state of a Full codec, as that of a codec. -/
def ofFull (cs : FullCodec × S) : Codec × S := (full cs.1, cs.2)

theorem embeds_read_full : Steps.Embeds ofFull (FullCodec.read read') (read read') := fun cs => by
  simp only [read, ofFull]
  cases FullCodec.read read' cs <;> rfl

theorem embeds_write_abridged (q : Arr 4 × Bytes) :
    Steps.Embeds (Prod.mk abridged) (AbridgedCodec.write write' q.2) (write write' q.1 q.2) := fun s => by
  simp only [write, Steps.beside]
  cases AbridgedCodec.write write' q.2 s <;> rfl

theorem embeds_write_intermediate (q : Arr 4 × Bytes) :
    Steps.Embeds (Prod.mk intermediate) (IntermediateCodec.write write' q.2) (write write' q.1 q.2) := fun s => by
  simp only [write, Steps.beside]
  cases IntermediateCodec.write write' q.2 s <;> rfl

theorem embeds_write_paddedIntermediate (q : Arr 4 × Bytes) :
    Steps.Embeds (Prod.mk paddedIntermediate) (PaddedIntermediateCodec.write write' q.1 q.2)
      (write write' q.1 q.2) := fun s => by
  simp only [write, Steps.beside]
  cases PaddedIntermediateCodec.write write' q.1 q.2 s <;> rfl

theorem embeds_write_full (q : Arr 4 × Bytes) :
    Steps.Embeds ofFull (FullCodec.write write' q.2) (write write' q.1 q.2) := fun cs => by
  simp only [write, ofFull]
  cases FullCodec.write write' q.2 cs <;> rfl

end Codec

/-! ## Readers and writers -/

/-- The `read` of a detected transport: the connection's own, one that first gives back what was read ahead,
or one that decrypts. -/
inductive Reader where
  | raw
  | replay (bytes : Bytes) (pos : Nat)
  | deobfuscated (decrypt : Aes256CtrStream)
deriving DecidableEq

inductive Writer where
  | raw
  | obfuscated (encrypt : Aes256CtrStream)
deriving DecidableEq

section Closures

variable {S : Type} (P : StreamPrimitives)

def Reader.read (rawRead : ReadExact Exn S) : ReadExact Exn (Reader × S) := fun len (r, s) =>
  match r with
  | .raw => Steps.beside (rawRead len) (r, s)
  | .replay bytes pos =>
    match Replay.read rawRead len { bytes, pos, source := s } with
    | .ok out t => .ok out (.replay t.bytes t.pos, t.source)
    | .error e t => .error e (.replay t.bytes t.pos, t.source)
  | .deobfuscated decrypt =>
    match rawRead len s with
    | .ok bs s' => .ok (decrypt.xorKeyStream P bs).1 (.deobfuscated (decrypt.xorKeyStream P bs).2, s')
    | .error e s' => .error e (r, s')

def Writer.write (rawWrite : WriteBytes Exn S) : WriteBytes Exn (Writer × S) := fun src (w, s) =>
  match w with
  | .raw => Steps.beside (rawWrite src) (w, s)
  | .obfuscated encrypt => Steps.beside (rawWrite (encrypt.xorKeyStream P src).1)
      (.obfuscated (encrypt.xorKeyStream P src).2, s)

/-- What a reader will deliver. -/
def Reader.stream (stream : S → Bytes) : Reader × S → Bytes
  | (.raw, s) => stream s
  | (.replay bytes pos, s) => bytes.drop pos ++ stream s
  | (.deobfuscated decrypt, s) => Keystream.xorFrom (decrypt.keystream P) decrypt.position (stream s)

/-- **Every reader reads its stream.** -/
theorem Reader.readsStream {rawRead : ReadExact Exn S} {stream : S → Bytes} {closed : Exn}
    (h : ReadsStream rawRead stream closed) :
    ReadsStream (Reader.read P rawRead) (Reader.stream P stream) closed where
  full := by
    rintro ⟨r, s⟩ n hn
    cases r with
    | raw =>
      obtain ⟨s', hread, hs'⟩ := h.full s n hn
      exact ⟨(.raw, s'), Steps.beside_of_ok hread, hs'⟩
    | replay bytes pos =>
      obtain ⟨t, hread, ht⟩ := (Replay.readsStream h).full { bytes, pos, source := s } n hn
      refine ⟨(.replay t.bytes t.pos, t.source), ?_, ht⟩
      simp only [Reader.read, hread]
      rfl
    | deobfuscated decrypt =>
      simp only [Reader.stream, Keystream.length_xorFrom] at hn
      obtain ⟨s', hread, hs'⟩ := h.full s n hn
      refine ⟨(.deobfuscated (decrypt.advance n), s'), ?_, ?_⟩
      · simp only [Reader.read, hread, Aes256CtrStream.xorKeyStream, Reader.stream, Keystream.take_xorFrom,
          List.length_take_of_le hn]
      · simp only [Reader.stream, hs', Keystream.drop_xorFrom]
        rfl
  short := by
    rintro ⟨r, s⟩ n hn
    cases r with
    | raw =>
      obtain ⟨s', hread⟩ := h.short s n hn
      exact ⟨(.raw, s'), Steps.beside_of_error hread⟩
    | replay bytes pos =>
      obtain ⟨t, hread⟩ := (Replay.readsStream h).short { bytes, pos, source := s } n hn
      refine ⟨(.replay t.bytes t.pos, t.source), ?_⟩
      simp only [Reader.read, hread]
    | deobfuscated decrypt =>
      simp only [Reader.stream, Keystream.length_xorFrom] at hn
      obtain ⟨s', hread⟩ := h.short s n hn
      exact ⟨(.deobfuscated decrypt, s'), by simp only [Reader.read, hread]⟩

/-- What goes out through an obfuscated writer, call after call. -/
theorem Writer.writeAll_obfuscated {rawWrite : WriteBytes Exn S} {sent : S → Bytes} (h : WritesStream rawWrite sent) :
    ∀ (srcs : List Bytes) (encrypt : Aes256CtrStream) (s : S),
    ∃ w s', writeAll (Writer.write P rawWrite) srcs (.obfuscated encrypt, s) = .ok () (w, s') ∧
      sent s' = sent s ++ Keystream.xorFrom (encrypt.keystream P) encrypt.position srcs.flatten
  | [], encrypt, s => ⟨_, s, rfl, by simp [Keystream.xorFrom]⟩
  | src :: srcs, encrypt, s => by
    obtain ⟨t, hwrite, ht⟩ := h s (encrypt.xorKeyStream P src).1
    obtain ⟨w, s', hall, hs'⟩ := Writer.writeAll_obfuscated h srcs (encrypt.advance src.length) t
    refine ⟨w, s', writeAll_cons_eq_ok.mpr ⟨_, Steps.beside_of_ok hwrite, hall⟩, ?_⟩
    rw [hs', ht, List.append_assoc, List.flatten_cons, Keystream.xorFrom_append]
    rfl

end Closures

/-! ## Detection -/

structure DetectedCodec where
  codec : Codec
  read : Reader
deriving DecidableEq

structure DetectedTransport where
  codec : Codec
  read : Reader
  write : Writer
deriving DecidableEq

section Detection

variable {S : Type}

def detectCodec (rawRead : ReadExact Exn S) : EStateM Exn S DetectedCodec := do
  let first ← readByte rawRead
  if first = abridgedClientStart then return { codec := .abridged, read := .raw }
  let next ← rawRead 3
  let start := first :: next
  if start = intermediateClientStart then return { codec := .intermediate, read := .raw }
  if start = paddedIntermediateClientStart then return { codec := .paddedIntermediate, read := .raw }
  return { codec := .full {}, read := .replay start 0 }

/-- HTTP requests, and one reserved value. -/
def isReservedPrefix (b : Bytes) : Bool :=
  b = ascii "GET " || b = ascii "POST" || b = ascii "HEAD" || b = ascii "OPTI" || b = [0x16, 0x03, 0x01, 0x02]

/-- The codec that the tag of an obfuscated connection names. -/
def codecOfTag (tag : Bytes) : Option Codec :=
  if tag = AbridgedCodec.obfuscatedTag then some .abridged
  else if tag = intermediateClientStart then some .intermediate
  else if tag = paddedIntermediateClientStart then some .paddedIntermediate
  else none

/-- The obfuscated2 branch of `DetectTransport`, from the 64 bytes on. -/
def detectObfuscated (P : StreamPrimitives) (init : Arr 64) (secret : Bytes) : Except Exn DetectedTransport := do
  let accepted ← acceptObfuscated2 P init secret
  match codecOfTag accepted.metadata.protocol with
  | some codec =>
    return { codec, read := .deobfuscated accepted.keys.decrypt, write := .obfuscated accepted.keys.encrypt }
  | none => throw (.invalidTransportPrefix "unrecognized obfuscated2 inner protocol tag")

def detectTransport (P : StreamPrimitives) (rawRead : ReadExact Exn S) (obfuscatedSecret : Bytes) :
    EStateM Exn S DetectedTransport := do
  let first ← readByte rawRead
  if first = abridgedClientStart then return { codec := .abridged, read := .raw, write := .raw }
  let next ← rawRead 3
  let start := first :: next
  if start = intermediateClientStart then return { codec := .intermediate, read := .raw, write := .raw }
  if start = paddedIntermediateClientStart then
    return { codec := .paddedIntermediate, read := .raw, write := .raw }
  if isReservedPrefix start then throw (.invalidTransportPrefix "reserved transport prefix")
  let tail ← rawRead 4
  if tail = [0, 0, 0, 0] then return { codec := .full {}, read := .replay (start ++ tail) 0, write := .raw }
  let rest ← rawRead 56
  match detectObfuscated P (Arr.ofList 64 (start ++ tail ++ rest)) obfuscatedSecret with
  | .ok detected => return detected
  | .error e => throw e

end Detection

end ShuzaGram.Mtproto.Transport
