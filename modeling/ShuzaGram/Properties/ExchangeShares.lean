import ShuzaGram.Mtproto.DhParams
import ShuzaGram.Properties.HandshakeBinding

/-!
# The shares of an exchange

The server looks for a share in the range that a client checks with `CheckDHParams`, and takes whatever share the
client sends.

* `generateGa_safe` — the share that `GenerateGa` returns
* `exchange_shares` — what a client that follows the protocol makes of the share of the server, and what any other share
  makes of the key
-/

namespace ShuzaGram.Mtproto

open Infra Crypto Messages

variable {P : Primitives} {key : RsaPrivateKey} {draws : Draws}

/-! ## The share of the server -/

theorem generateGaLoop_safe {gBytes dhPrime gA : Bytes} {a : Arr 256} : ∀ {secrets : List (Arr 256)},
    generateGaLoop gBytes dhPrime secrets = .ok (a, gA) → SafeShare (bytesToBignum dhPrime) (bytesToBignum gA)
  | [], h => by cases h
  | s :: rest, h => by
    rw [generateGaLoop] at h
    obtain ⟨share, -, h⟩ := exists_of_bind_eq_ok h
    split at h
    · next hin =>
      cases h
      exact gaInRange_iff.mp hin
    · exact generateGaLoop_safe h

/-- A share that is returned is safe, for a generator that was checked. -/
theorem generateGa_safe {g : Int32} {dhPrime gA : Bytes} {secrets : List (Arr 256)} {a : Arr 256}
    (h : generateGa g dhPrime secrets = .ok (a, gA)) :
    checkGP g.toInt dhPrime = .ok () ∧ SafeShare (bytesToBignum dhPrime) (bytesToBignum gA) := by
  obtain ⟨u, hcheck, h⟩ := exists_of_bind_eq_ok h
  exact ⟨hcheck, generateGaLoop_safe h⟩

/-- A share is not safe if the secret is 0. -/
theorem secret_ne_zero {secrets : List (Arr 256)} {a : Arr 256} {gA : Bytes}
    (h : generateGa dhGenerator fixedDhPrime secrets = .ok (a, gA)) : bytesToBignum a.toList ≠ 0 := by
  intro hzero
  have hsafe := (generateGa_safe h).2
  rw [generateGa_ok h, hzero, bytesToBignum_minimal] at hsafe
  have hone : 3 ^ 0 % dhPrimeValue = 1 := by decide
  rw [hone] at hsafe
  exact absurd hsafe.1 (Nat.not_lt.mpr (Nat.two_pow_pos _))

/-! ## The key -/

theorem Computes.key_eq {t : Transcript} {s : ServerShare} (h : Computes P draws t s) :
    bytesToBignum (t.result draws s).authKey.toList =
      bytesToBignum t.clientInner.gB ^ bytesToBignum s.a.toList % dhPrimeValue := by
  have hkey := h.authKey
  rw [modPowFixed_fixedDhPrime] at hkey
  have hlt : bytesToBignum t.clientInner.gB ^ bytesToBignum s.a.toList % dhPrimeValue < 256 ^ 256 :=
    Nat.lt_trans (Nat.mod_lt _ dhPrimeValue_pos) (by decide)
  rw [Transcript.result, ← Except.ok.inj hkey, Arr.toList_ofList (length_toBE _ _)]
  exact ofBE_toBE_of_lt hlt

/-- 0 and 1 are their own powers. -/
theorem pow_mod_of_le_one {b e p n : Nat} (he : e ≠ 0) (hp : 1 < p) (hn : n ≤ 1) (h : b % p = n) : b ^ e % p = n := by
  rw [Nat.pow_mod, h]
  have hpow : n ^ e = n := by
    rcases Nat.le_one_iff_eq_zero_or_eq_one.mp hn with rfl | rfl
    · exact Nat.zero_pow (Nat.pos_of_ne_zero he)
    · exact Nat.one_pow e
  rw [hpow]
  exact Nat.mod_eq_of_lt (Nat.lt_of_le_of_lt hn hp)

/-- An exchange with a client that is honest but for its share `gB`, when the server draws the secret `a`. -/
structure Client.Shares (P : Primitives) (key : RsaPrivateKey) (draws : Draws) (c : Client) (gB : Bytes) (a : Arr 256)
    (gA : Bytes) : Prop where
  inverse : key.Inverse
  pad : ∃ enc, rsaPad P (c.pqInnerData (resPq P key draws c.nonce)).encode key.publicKey c.rsaPadding c.rsaTempKeys =
    .ok enc
  expiry : c.kind = .tempDc → 0 ≤ seconds draws.handshakeTime ∧
    0 < c.expiresIn ∧ (seconds draws.handshakeTime).toInt + c.expiresIn.toInt ≤ 2147483647
  share : generateGa dhGenerator fixedDhPrime draws.secrets = .ok (a, gA)
  server : NoHashCollision P (dataWithHash P (serverDhInnerData draws c.nonce gA).encode draws.answerPad)
  size : gB.length + 88 < 2 ^ 24
  client : NoHashCollision P (dataWithHash P (c.dhInnerDataWith draws gB).encode c.setPadding)

/-- The exchange takes the share, and the key is its power. -/
theorem Client.Shares.serverExchange {c : Client} {gB gA : Bytes} {a : Arr 256} (h : c.Shares P key draws gB a gA) :
    ∃ result sent, serverExchange P key draws
        { incoming := c.movesWith P key.publicKey (c.shareMove P gB), sent := [] } = .ok result { incoming := [], sent } ∧
      bytesToBignum result.authKey.toList = bytesToBignum gB ^ bytesToBignum a.toList % dhPrimeValue := by
  obtain ⟨enc, hpad⟩ := h.pad
  have hinner : c.shareInner gB (resPq P key draws c.nonce) (serverDhInnerData draws c.nonce gA) =
      .ok (c.dhInnerDataWith draws gB) := rfl
  obtain ⟨result, ok, hrun, hkey, -⟩ :=
    serverExchange_anyShare h.inverse hpad h.expiry h.share h.server hinner h.size h.client
  have hlt : bytesToBignum gB ^ bytesToBignum a.toList % dhPrimeValue < 256 ^ 256 :=
    Nat.lt_trans (Nat.mod_lt _ dhPrimeValue_pos) (by decide)
  refine ⟨result, _, hrun, ?_⟩
  rw [hkey, powerKey, Arr.toList_ofList (length_toBE _ _)]
  exact ofBE_toBE_of_lt hlt

/-- **The shares of an exchange.** Whatever the client sends, the share of the server passes `CheckGP` and, with every
safe share of the client and with no other, `CheckDHParams`; and a client that sends a power of the generator gets the
key of the server. The share of the client is not checked: an exchange with a client that is honest but for its share
returns, whatever the share, and a share of 0 or 1 is the key. -/
theorem exchange_shares (P : Primitives) (key : RsaPrivateKey) (draws : Draws) :
    (∀ w result w', serverExchange P key draws w = .ok result w' →
      ∃ t s, Completes P key draws w t s w' ∧ result = t.result draws s ∧
        checkGP dhGenerator.toInt fixedDhPrime = .ok () ∧
        (∀ gB, checkDHParams fixedDhPrime dhGenerator s.gA gB = .ok () ↔ SafeShare dhPrimeValue (bytesToBignum gB)) ∧
        (∀ b, bytesToBignum t.clientInner.gB = 3 ^ b % dhPrimeValue →
          bytesToBignum result.authKey.toList = bytesToBignum s.gA ^ b % dhPrimeValue) ∧
        ∀ n ≤ 1, bytesToBignum t.clientInner.gB % dhPrimeValue = n → bytesToBignum result.authKey.toList = n) ∧
    ∀ c gB a gA, Client.Shares P key draws c gB a gA →
      ∃ result sent, serverExchange P key draws
          { incoming := c.movesWith P key.publicKey (c.shareMove P gB), sent := [] } =
            .ok result { incoming := [], sent } ∧
        bytesToBignum result.authKey.toList = bytesToBignum gB ^ bytesToBignum a.toList % dhPrimeValue ∧
        ∀ n ≤ 1, bytesToBignum gB % dhPrimeValue = n → bytesToBignum result.authKey.toList = n := by
  constructor
  · intro w result w' h
    obtain ⟨t, s, hcompletes, rfl⟩ := completes_of_serverExchange h
    have hcomputes := hcompletes.computes
    obtain ⟨hgenerator, hsafe⟩ := generateGa_safe hcomputes.share
    rw [bytesToBignum_fixedDhPrime] at hsafe
    refine ⟨t, s, hcompletes, rfl, hgenerator, fun gB => ?_, fun b hb => ?_, fun n hn hone => ?_⟩
    · have hg : inRange dhGenerator.toInt64.toUInt64.toNat 1 ((dhPrimeValue : Int) - 1) = true := by decide
      rw [checkDHParams_eq_ok_iff, bytesToBignum_fixedDhPrime]
      exact ⟨fun hchecks => hchecks.2.2, fun hB => ⟨hg, hsafe, hB⟩⟩
    · rw [hcomputes.key_eq, hb, generateGa_ok hcomputes.share, bytesToBignum_minimal]
      exact dh_comm ..
    · rw [hcomputes.key_eq]
      exact pow_mod_of_le_one (secret_ne_zero hcomputes.share) (by decide) hn hone
  · intro c gB a gA h
    obtain ⟨result, sent, hrun, hkey⟩ := h.serverExchange
    refine ⟨result, sent, hrun, hkey, fun n hn hone => ?_⟩
    rw [hkey]
    exact pow_mod_of_le_one (secret_ne_zero h.share) (by decide) hn hone

/-- A client that sends 1. -/
theorem sampleClient_shares :
    sampleClient.Shares lengthPrimitives sampleRsaKey sampleExchangeDraws [1] (Arr.ofList 256 (toBE 256 1300))
      sampleShare where
  inverse := sampleRsaKey_inverse
  pad := exists_ok_of_isOk (by decide +kernel)
  expiry := fun _ => by decide
  share := by decide +kernel
  server := by
    unfold NoHashCollision
    decide +kernel
  size := by decide
  client := by
    unfold NoHashCollision
    decide +kernel

/-- The exchange with a client that sends 1, and one with a client that sends foreign nonces. -/
theorem exchange_shares_one :
    (∃ result sent, serverExchange lengthPrimitives sampleRsaKey sampleExchangeDraws
        { incoming := sampleClient.movesWith lengthPrimitives sampleRsaKey.publicKey
            (sampleClient.shareMove lengthPrimitives [1])
          sent := [] } = .ok result { incoming := [], sent } ∧
      bytesToBignum result.authKey.toList = 1) ∧
    ∃ t s w', Completes lengthPrimitives sampleRsaKey sampleExchangeDraws foreignWire t s w' ∧
      ∀ gB, checkDHParams fixedDhPrime dhGenerator s.gA gB = .ok () ↔ SafeShare dhPrimeValue (bytesToBignum gB) := by
  obtain ⟨hreturned, haccepted⟩ :=
    exchange_shares lengthPrimitives sampleRsaKey sampleExchangeDraws
  constructor
  · obtain ⟨result, sent, hrun, -, hone⟩ := haccepted sampleClient [1] _ _ sampleClient_shares
    exact ⟨result, sent, hrun, hone 1 (by decide) (by decide)⟩
  · obtain ⟨result, w', hrun⟩ := serverExchange_foreign
    obtain ⟨t, s, hcompletes, -, -, hshares, -⟩ := hreturned _ _ _ hrun
    exact ⟨t, s, w', hcompletes, hshares⟩

end ShuzaGram.Mtproto
