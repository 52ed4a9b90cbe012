import ShuzaGram.Properties.TransportDetection

/-!
# An obfuscated connection

A client opens an obfuscated connection with 64 bytes, of which the last 8 are encrypted with the stream that
the rest of its bytes continue. The server derives the same two streams from the first 56 bytes. It stands at
position 64 of the one that the client encrypts with and at position 0 of the other one, as the client does,
so that every byte in either direction meets the same byte of a keystream twice.
-/

namespace ShuzaGram.Mtproto.Transport

open Infra ByteStream Keystream

/-- A client init that no plain transport and no reserved value starts with. -/
structure PlausibleInit (init : Arr 64) : Prop where
  abridged : init.toList.head? ≠ some abridgedClientStart
  intermediate : init.toList.take 4 ≠ intermediateClientStart
  paddedIntermediate : init.toList.take 4 ≠ paddedIntermediateClientStart
  reserved : isReservedPrefix (init.toList.take 4) = false
  tail : (init.toList.drop 4).take 4 ≠ [0, 0, 0, 0]

/-- The init with the tag of the inner protocol and the data center at their places. -/
def taggedInit (init : Arr 64) (tag : Bytes) (dc : UInt16) : Bytes :=
  init.toList.take 56 ++ (tag ++ toLE 2 dc.toNat ++ init.toList.drop 62)

/-- What the client sends first: the key material in the clear, and the end of the encrypted init. -/
def clientHello (P : StreamPrimitives) (keys : Obfuscated2Keys) (init : Arr 64) (tag : Bytes) (dc : UInt16) : Bytes :=
  init.toList.take 56 ++ ((keys.encrypt.xorKeyStream P (taggedInit init tag dc)).1).drop 56

/-- What the client sends behind it, chunk after chunk. -/
def clientSends (P : StreamPrimitives) (keys : Obfuscated2Keys) (chunks : List Bytes) : Bytes :=
  (Aes256CtrStream.xorKeyStreams P (keys.encrypt.advance 64) chunks).flatten

/-! ## Key material -/

theorem create_of_length {key iv : Bytes} (hkey : key.length = 32) (hiv : iv.length = 16) :
    Aes256CtrStream.create key iv = .ok { key := ⟨key, hkey⟩, iv := ⟨iv, hiv⟩, position := 0 } := by
  rw [Aes256CtrStream.create, dif_pos hkey, dif_pos hiv]

/-- Both streams are created, and start at position 0. -/
theorem exists_streams (P : StreamPrimitives) (init : Arr 64) (secret : Bytes) :
    ∃ keys, createObfuscated2Streams P init secret = .ok keys ∧ keys.encrypt.position = 0 ∧
      keys.decrypt.position = 0 := by
  have hinit : init.toList.length = 64 := init.length_toList
  have hrev : (reversedMiddle init).length = 48 := by
    rw [reversedMiddle, List.length_reverse, List.length_take, List.length_drop, hinit]
    rfl
  have hmix : ∀ key : Bytes, key.length = 32 →
      (if secret.isEmpty then key else (P.sha256 (key ++ secret.take 16)).toList).length = 32 := by
    intro key hkey
    split
    · exact hkey
    · exact Arr.length_toList _
  have hcut : ∀ n m, n + m ≤ 64 → ((init.toList.drop n).take m).length = m := by
    intro n m h
    rw [List.length_take, List.length_drop, hinit]
    omega
  simp only [createObfuscated2Streams]
  rw [create_of_length (hmix _ (hcut 8 32 (by omega))) (hcut 40 16 (by omega)), ok_bind,
    create_of_length (hmix _ (by rw [List.length_take, hrev]; rfl))
      (by rw [List.length_take, List.length_drop, hrev]; rfl)]
  exact ⟨_, rfl, rfl, rfl⟩

/-- The streams depend on the first 56 bytes only. -/
theorem createObfuscated2Streams_congr (P : StreamPrimitives) {a b : Arr 64} (secret : Bytes)
    (h : a.toList.take 56 = b.toList.take 56) :
    createObfuscated2Streams P a secret = createObfuscated2Streams P b secret := by
  have hcut : ∀ n m, n + m ≤ 56 → (a.toList.drop n).take m = (b.toList.drop n).take m := by
    intro n m hnm
    have hpart : ∀ l : Bytes, (l.drop n).take m = ((l.take 56).drop n).take m := by
      intro l
      rw [List.drop_take, List.take_take, Nat.min_eq_left (by omega)]
    rw [hpart, h, ← hpart]
  unfold createObfuscated2Streams reversedMiddle
  rw [hcut 8 32 (by omega), hcut 40 16 (by omega), hcut 8 48 (by omega)]

/-! ## The first 64 bytes -/

section Hello

variable {P : StreamPrimitives} {keys : Obfuscated2Keys} {init : Arr 64} {tag : Bytes} {dc : UInt16}

theorem length_taggedInit (htag : tag.length = 4) : (taggedInit init tag dc).length = 64 := by
  simp only [taggedInit, List.length_append, List.length_take, List.length_drop, length_toLE, Arr.length_toList, htag]
  omega

theorem drop_taggedInit : (taggedInit init tag dc).drop 56 = tag ++ toLE 2 dc.toNat ++ init.toList.drop 62 :=
  List.drop_left' (by rw [List.length_take, Arr.length_toList]; rfl)

theorem length_clientHello (htag : tag.length = 4) : (clientHello P keys init tag dc).length = 64 := by
  simp only [clientHello, Aes256CtrStream.xorKeyStream, List.length_append, List.length_drop, length_xorFrom,
    length_taggedInit htag, List.length_take, Arr.length_toList]
  omega

theorem take_clientHello (P : StreamPrimitives) (keys : Obfuscated2Keys) (init : Arr 64) (tag : Bytes) (dc : UInt16)
    {n : Nat} (hn : n ≤ 56) :
    (clientHello P keys init tag dc).take n = init.toList.take n := by
  rw [clientHello, List.take_append_of_le_length (by rw [List.length_take, Arr.length_toList]; omega), List.take_take,
    Nat.min_eq_left hn]

theorem drop_clientHello : (clientHello P keys init tag dc).drop 56 =
    xorFrom (keys.encrypt.keystream P) (keys.encrypt.position + 56)
      (tag ++ toLE 2 dc.toNat ++ init.toList.drop 62) := by
  rw [clientHello, List.drop_left' (by rw [List.length_take, Arr.length_toList]; rfl), Aes256CtrStream.xorKeyStream,
    drop_xorFrom, drop_taggedInit]

/-- **The server finds the tag and the data center,** and its streams are the client's, the other way round. -/
theorem acceptObfuscated2_clientHello (dc : UInt16) {secret : Bytes}
    (hkeys : createObfuscated2Streams P init secret = .ok keys) (htag : tag.length = 4) :
    acceptObfuscated2 P (Arr.ofList 64 (clientHello P keys init tag dc)) secret =
      .ok { keys := { encrypt := keys.decrypt, decrypt := keys.encrypt.advance 64 }
            metadata := { protocol := tag, dc } } := by
  have hlist : (Arr.ofList 64 (clientHello P keys init tag dc)).toList = clientHello P keys init tag dc :=
    Arr.toList_ofList (length_clientHello htag)
  have hsame : createObfuscated2Streams P (Arr.ofList 64 (clientHello P keys init tag dc)) secret = .ok keys := by
    rw [← hkeys]
    exact createObfuscated2Streams_congr P secret (by rw [hlist, take_clientHello _ _ _ _ _ (Nat.le_refl 56)])
  have hend : ∀ n, (xorFrom (keys.encrypt.keystream P) keys.encrypt.position (clientHello P keys init tag dc)).drop
      (56 + n) = (tag ++ toLE 2 dc.toNat ++ init.toList.drop 62).drop n := by
    intro n
    rw [← List.drop_drop, drop_xorFrom, drop_clientHello, xorFrom_xorFrom]
  have hdc : ofLE (toLE 2 dc.toNat) = dc.toNat := ofLE_toLE_of_lt (by simpa using dc.toNat_lt)
  rw [acceptObfuscated2, hsame, ok_bind]
  simp only [Aes256CtrStream.xorKeyStream, hlist, length_clientHello htag]
  rw [show 56 = 56 + 0 from rfl, hend 0, show 60 = 56 + 4 from rfl, hend 4]
  simp only [List.drop_zero, List.append_assoc]
  rw [List.take_left' htag, List.drop_left' htag, List.take_left' (length_toLE 2 _), hdc, UInt16.ofNat_toNat]
  rfl

end Hello

/-! ## Detection -/

section Detection

variable {P : StreamPrimitives} {keys : Obfuscated2Keys} {init : Arr 64} {tag secret : Bytes} {dc : UInt16}

/-- The first bytes of a plausible init carry no mark, and are not those of a Full frame. -/
theorem exists_unmarked (h : PlausibleInit init) : ∃ first next,
    init.toList.take 4 = first :: next ∧ Unmarked first next := by
  have hlen : (init.toList.take 4).length = 4 := by rw [List.length_take, Arr.length_toList]; rfl
  cases hstart : init.toList.take 4 with
  | nil =>
    rw [hstart] at hlen
    cases hlen
  | cons first next =>
    rw [hstart] at hlen
    have hhead : init.toList.head? = some first := by
      have htake : (init.toList.take 4).head? = init.toList.head? := by rw [List.head?_take, if_neg (by decide)]
      rw [← htake, hstart]
      rfl
    refine ⟨first, next, rfl, Nat.succ.inj hlen, ?_, ?_, ?_, ?_⟩
    · rintro rfl
      exact h.abridged hhead
    · rw [← hstart]
      exact h.intermediate
    · rw [← hstart]
      exact h.paddedIntermediate
    · rw [← hstart]
      exact h.reserved

/-- The hello is the first four bytes of the init, the next four, and 56 more. -/
theorem exists_clientHello_eq (P : StreamPrimitives) (keys : Obfuscated2Keys) (dc : UInt16) {first : UInt8}
    {next : Bytes} (htag : tag.length = 4) (hstart : init.toList.take 4 = first :: next) : ∃ last : Bytes, last.length = 56 ∧
      clientHello P keys init tag dc = first :: (next ++ ((init.toList.drop 4).take 4 ++ last)) := by
  have hlen : (clientHello P keys init tag dc).length = 64 := length_clientHello htag
  have hcut : ∀ l : Bytes, (l.drop 4).take 4 = (l.take 8).drop 4 := by
    intro l
    rw [List.drop_take]
  have hnext : ((clientHello P keys init tag dc).drop 4).take 4 = (init.toList.drop 4).take 4 := by
    rw [hcut, take_clientHello _ _ _ _ _ (by omega), ← hcut]
  refine ⟨(clientHello P keys init tag dc).drop 8, by rw [List.length_drop, hlen], ?_⟩
  rw [← List.cons_append, ← hstart, ← hnext, ← take_clientHello P keys init tag dc (by omega : 4 ≤ 56),
    show 8 = 4 + 4 from rfl, ← List.drop_drop, List.take_append_drop, List.take_append_drop]

/-- Detection takes the 64 bytes and decides by the tag. -/
theorem detectTransport_clientHello (hinit : PlausibleInit init)
    (hkeys : createObfuscated2Streams P init secret = .ok keys) (htag : tag.length = 4) {codec : Codec}
    (hcodec : codecOfTag tag = some codec) (rest : Bytes) :
    detectTransport P takeExact secret (clientHello P keys init tag dc ++ rest) =
      .ok { codec, read := .deobfuscated (keys.encrypt.advance 64), write := .obfuscated keys.decrypt } rest := by
  have hraw := readsStream_takeBytes Exn.connectionClosed
  obtain ⟨first, next, hstart, hmark⟩ := exists_unmarked hinit
  have haccept := acceptObfuscated2_clientHello dc hkeys htag
  obtain ⟨last, hlast, hhello⟩ := exists_clientHello_eq P keys dc htag hstart
  rw [hhello] at haccept ⊢
  have htail : ((init.toList.drop 4).take 4).length = 4 := by
    rw [List.length_take, List.length_drop, Arr.length_toList]
    rfl
  have hs : id (first :: (next ++ ((init.toList.drop 4).take 4 ++ last)) ++ rest) =
      first :: (next ++ ((init.toList.drop 4).take 4 ++ (last ++ rest))) := by
    rw [id, List.cons_append, List.append_assoc, List.append_assoc]
  obtain ⟨t, ht, hdetect⟩ := detectTransport_of_unmarked (P := P) hraw hmark htail hs
  have hread : takeExact 56 t = .ok last rest := by
    rw [show t = last ++ rest from ht]
    exact takeBytes_append _ hlast
  have hobf : detectObfuscated P (Arr.ofList 64 (first :: next ++ (init.toList.drop 4).take 4 ++ last)) secret =
      .ok { codec, read := .deobfuscated (keys.encrypt.advance 64), write := .obfuscated keys.decrypt } := by
    rw [List.append_assoc, List.cons_append, detectObfuscated, haccept, ok_bind]
    simp only [hcodec]
    rfl
  rw [hdetect, if_neg hinit.tail, Steps.bind_of_ok hread, hobf]
  rfl

end Detection

/-- The tags, and the codecs they name. -/
theorem length_of_codecOfTag {tag : Bytes} {codec : Codec} (h : codecOfTag tag = some codec) : tag.length = 4 := by
  unfold codecOfTag at h
  split at h
  · next htag => rw [htag]; rfl
  · split at h
    · next htag => rw [htag]; rfl
    · split at h
      · next htag => rw [htag]; rfl
      · cases h

/-- **Obfuscated2 duplex correctness.** For every plausible init, tag, data center and secret, the server finds
the tag, the data center and the codec in what the client sends first. From then on its reader delivers what
the client sends, and what it writes decrypts at the client, however both directions are cut into chunks. -/
theorem obfuscated_duplex (P : StreamPrimitives) {init : Arr 64} (hinit : PlausibleInit init) {tag : Bytes}
    {codec : Codec} (hcodec : codecOfTag tag = some codec) (dc : UInt16) (secret : Bytes) :
    ∃ keys, createObfuscated2Streams P init secret = .ok keys ∧ keys.encrypt.position = 0 ∧ keys.decrypt.position = 0 ∧
      (∃ accepted, acceptObfuscated2 P (Arr.ofList 64 (clientHello P keys init tag dc)) secret = .ok accepted ∧
        accepted.metadata = { protocol := tag, dc }) ∧
      ∀ sent : List Bytes, ∃ d rest,
        detectTransport P takeExact secret (clientHello P keys init tag dc ++ clientSends P keys sent) = .ok d rest ∧
        d.codec = codec ∧
        (∀ lengths, deliveries (Reader.read P takeExact) lengths (d.read, rest) =
          deliveries takeExact lengths sent.flatten) ∧
        (∀ written : List Bytes, ∃ w out,
          writeAll (Writer.write P appendBytes) written (d.write, []) = .ok () (w, out) ∧
          ∀ received : List Bytes, received.flatten = out →
            (Aes256CtrStream.xorKeyStreams P keys.decrypt received).flatten = written.flatten) := by
  obtain ⟨keys, hkeys, hencrypt, hdecrypt⟩ := exists_streams P init secret
  have htag := length_of_codecOfTag hcodec
  refine ⟨keys, hkeys, hencrypt, hdecrypt, ⟨_, acceptObfuscated2_clientHello dc hkeys htag, rfl⟩, fun sent => ?_⟩
  refine ⟨_, _, detectTransport_clientHello hinit hkeys htag hcodec (clientSends P keys sent), rfl, ?_, ?_⟩
  · intro lengths
    have hreads := Reader.readsStream P (readsStream_takeBytes Exn.connectionClosed)
    have hstream : Reader.stream P id (.deobfuscated (keys.encrypt.advance 64), clientSends P keys sent) =
        sent.flatten := by
      rw [clientSends, Aes256CtrStream.flatten_xorKeyStreams]
      exact xorFrom_xorFrom _ _ _
    rw [hreads.deliveries_eq, hstream]
  · intro written
    obtain ⟨w, out, hwrite, hout⟩ :=
      Writer.writeAll_obfuscated P (writesStream_appendBytes (ε := Exn)) written keys.decrypt []
    refine ⟨w, out, hwrite, fun received hreceived => ?_⟩
    rw [Aes256CtrStream.flatten_xorKeyStreams, hreceived, show out = [] ++ _ from hout, List.nil_append,
      xorFrom_xorFrom]

/-- Keystreams that count on from the first byte of the key. -/
def countingStreams : StreamPrimitives where
  sha256 _ := Arr.zero 32
  keystream key _ n := key.toList.headD 0 + UInt8.ofNat n

/-- The bytes from 1 to 64. -/
def countingInit : Arr 64 := ⟨(List.range 64).map fun n => UInt8.ofNat (n + 1), by simp⟩

theorem obfuscated_duplex_counting :
    ∃ keys, createObfuscated2Streams countingStreams countingInit [] = .ok keys ∧
      (∃ accepted, acceptObfuscated2 countingStreams
          (Arr.ofList 64 (clientHello countingStreams keys countingInit AbridgedCodec.obfuscatedTag 3)) [] = .ok accepted ∧
        accepted.metadata = { protocol := AbridgedCodec.obfuscatedTag, dc := 3 }) ∧
      ∃ d rest, detectTransport countingStreams takeExact []
          (clientHello countingStreams keys countingInit AbridgedCodec.obfuscatedTag 3 ++
            clientSends countingStreams keys [[1, 2], [3]]) = .ok d rest ∧ d.codec = .abridged := by
  have hinit : PlausibleInit countingInit := ⟨by decide, by decide, by decide, by decide, by decide⟩
  obtain ⟨keys, hkeys, -, -, haccept, hduplex⟩ := obfuscated_duplex countingStreams hinit
    (rfl : codecOfTag AbridgedCodec.obfuscatedTag = some .abridged) 3 []
  obtain ⟨d, rest, hdetect, hcodec, -⟩ := hduplex [[1, 2], [3]]
  exact ⟨keys, hkeys, haccept, d, rest, hdetect, hcodec⟩

end ShuzaGram.Mtproto.Transport
