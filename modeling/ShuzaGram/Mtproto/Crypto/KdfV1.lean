import ShuzaGram.Mtproto.Crypto.MessageCipher

/-!
# The key derivation of MTProto 1.0

`mtproto/crypto/kdf_v1.cpp`. Binding a temporary key is the last place that uses it. `msg_key` is a
hash of the plaintext alone, without the key, and key and iv are pieces of four digests.
-/

namespace ShuzaGram.Mtproto.Crypto

open Infra

/-- `MessageKeyV1`: all but the first 4 bytes of a SHA-1. -/
def messageKeyV1 (P : Primitives) (plaintext : Bytes) : Arr 16 :=
  Arr.ofList 16 (substr (P.sha1 plaintext).toList 4 16)

def sha1a (P : Primitives) (authKey : AuthKeyBytes) (msgKey : Arr 16) : Arr 20 :=
  P.sha1 (msgKey.toList ++ substr authKey.toList 0 32)

def sha1b (P : Primitives) (authKey : AuthKeyBytes) (msgKey : Arr 16) : Arr 20 :=
  P.sha1 (substr authKey.toList 32 16 ++ msgKey.toList ++ substr authKey.toList 48 16)

def sha1c (P : Primitives) (authKey : AuthKeyBytes) (msgKey : Arr 16) : Arr 20 :=
  P.sha1 (substr authKey.toList 64 32 ++ msgKey.toList)

def sha1d (P : Primitives) (authKey : AuthKeyBytes) (msgKey : Arr 16) : Arr 20 :=
  P.sha1 (msgKey.toList ++ substr authKey.toList 96 32)

/-- `KeysV1`: the AES key and iv. -/
def keysV1 (P : Primitives) (authKey : AuthKeyBytes) (msgKey : Arr 16) : Bytes × Bytes :=
  let a := (sha1a P authKey msgKey).toList
  let b := (sha1b P authKey msgKey).toList
  let c := (sha1c P authKey msgKey).toList
  let d := (sha1d P authKey msgKey).toList
  (substr a 0 8 ++ substr b 8 12 ++ substr c 4 12,
    substr a 8 12 ++ substr b 0 8 ++ substr c 16 4 ++ substr d 0 8)

theorem length_keysV1 (P : Primitives) (authKey : AuthKeyBytes) (msgKey : Arr 16) :
    (keysV1 P authKey msgKey).1.length = 32 ∧ (keysV1 P authKey msgKey).2.length = 32 := by
  have hpiece : ∀ (a : Arr 20) {start len : Nat}, start + len ≤ 20 → (substr a.toList start len).length = len := by
    intro a start len h
    exact length_substr (by rw [a.length_eq]; exact h)
  constructor
  · simp only [keysV1, List.length_append]
    rw [hpiece _ (by decide), hpiece _ (by decide), hpiece _ (by decide)]
  · simp only [keysV1, List.length_append]
    rw [hpiece _ (by decide), hpiece _ (by decide), hpiece _ (by decide), hpiece _ (by decide)]

/-- Whole blocks under these keys go through the cipher. -/
theorem igeArgs_keysV1 (P : Primitives) (authKey : AuthKeyBytes) (msgKey : Arr 16) {data : Bytes}
    (h : 16 ∣ data.length) : IgeArgs (keysV1 P authKey msgKey).1 (keysV1 P authKey msgKey).2 data :=
  ⟨.inr (.inr (length_keysV1 P authKey msgKey).1), (length_keysV1 P authKey msgKey).2, h⟩

end ShuzaGram.Mtproto.Crypto
