import ShuzaGram.Auth.Challenge

/-!
# The right password passes

An account whose stored verifier was made from a password hands out a challenge; whoever knows the
password and proves it for that challenge passes the check. On the way the challenge goes through the
row of the account, and both sides write numbers of varying length into 256 bytes.
-/

namespace ShuzaGram.Auth

open Infra Domain Store Mtproto.Crypto
open StoreProg

/-- A check of the right password in a state that has the row of the challenge. -/
theorem checkPassword_srpClientProof {P : Primitives} {pbkdf2HmacSha512 : Pbkdf2} {password salt1 random : Bytes}
    {row : PasswordRow} {answer : SrpClientAnswer} {userId : Int64} {s : Stores}
    (hprotected : ProtectedBy P pbkdf2HmacSha512 password salt1 row) (hchallenged : Challenged P row)
    (hanswer : srpClientProof P pbkdf2HmacSha512 password salt1 srpBaseSalt2 row.srpB random = .ok answer)
    (hu : (P.sha256 (answer.a ++ row.srpB)).toList.all (· = 0) = false)
    (hrow : s.passwordsGetByUser userId = some row.toSettings) :
    ((checkPassword P userId (provenCheck row.srpId answer)).exec (StoreCall.exec P) s).result = .ok () := by
  rw [Prog.exec, checkPassword_run, Prog.idle, hrow]
  exact checkSrp_srpClientProof hprotected hchallenged hanswer hu

/-- **The right password passes.** After `GetPassword`, the check with the returned id and the proof made from
the returned salts and `B` passes wherever the row is the stored one, for every secret of the server and every
exponent of the client for which the hash of `A` and `B` is not zero. -/
theorem checkPassword_of_rightPassword (P : Primitives) (pbkdf2HmacSha512 : Pbkdf2) (password salt1 : Bytes)
    (userId : Int64) (row : PasswordRow) (s : Stores) (draw : ChallengeDraw) (random : Bytes)
    (hrow : s.accountPasswords.find userId = some row) (hpassword : row.hasPassword = true)
    (halgo : row.algo = { salt1, salt2 := srpBaseSalt2, g := 3, p := srpBaseP })
    (hverifier : srpComputeVerifier P pbkdf2HmacSha512 password salt1 srpBaseSalt2 = .ok row.srpVerifier)
    (hsaves : s.moment.fault = none) :
    ∃ settings algo answer,
      ((getPassword P userId draw).exec (StoreCall.exec P) s).result = .ok settings ∧
      settings.currentAlgo = some algo ∧ settings.srpId ≠ 0 ∧
      srpClientProof P pbkdf2HmacSha512 password algo.salt1 algo.salt2 settings.srpB random = .ok answer ∧
      ((P.sha256 (answer.a ++ settings.srpB)).toList.all (· = 0) = false →
        ∀ s' : Stores,
          s'.passwordsGetByUser userId =
            ((getPassword P userId draw).exec (StoreCall.exec P) s).state.passwordsGetByUser userId →
          ((checkPassword P userId { srpId := settings.srpId, a := answer.a, m1 := answer.m1 }).exec
            (StoreCall.exec P) s').result = .ok ()) := by
  have hprotected : ProtectedBy P pbkdf2HmacSha512 password salt1 row := ⟨hpassword, halgo, hverifier⟩
  obtain ⟨settings, hresult, hsaved, hcurrent, hprotected', hchallenged⟩ :=
    getPassword_exec hprotected hrow hsaves draw
  obtain ⟨answer, hanswer⟩ :=
    exists_srpClientProof P pbkdf2HmacSha512 password salt1 srpBaseSalt2 settings.srpB random
  refine ⟨settings, _, answer, hresult, hcurrent, hchallenged.srpId, hanswer, fun hu s' hread => ?_⟩
  have hsettings : s'.passwordsGetByUser userId = some (PasswordRow.ofSettings settings).toSettings := by
    rw [hread, Stores.passwordsGetByUser, hsaved, Option.map_some]
  exact checkPassword_srpClientProof hprotected' hchallenged hanswer hu hsettings

/-! ## A sample account -/

/-- Hashes that mark and turn around the end of their input, and a cipher that does nothing. -/
def tailPrimitives : Primitives where
  sha1 bs := Arr.ofList 20 (1 :: bs.reverse)
  sha256 bs := Arr.ofList 32 (1 :: bs.reverse)
  aes _ := Equiv.refl _

def tailPbkdf2 : Pbkdf2 := fun password salt _ keyLen => (password ++ salt).take keyLen

/-- The row of an account with a password. -/
def swordfishRow : PasswordRow where
  hasPassword := true
  algo := passwordAlgo (ascii "salt one")
  srpVerifier :=
    match srpComputeVerifier tailPrimitives tailPbkdf2 (ascii "swordfish") (ascii "salt one") srpBaseSalt2 with
    | .ok verifier => verifier
    | .error _ => []

def protectedStores : Stores :=
  { Stores.empty { now := 1000, newUserId := 8 } with
    accountPasswords := Table.empty.upsert 7 swordfishRow }

def challengeDraw (secret : Nat) : ChallengeDraw := { secret := Arr.ofList 256 (toBE 256 secret), srpId := 99 }

/-- The stores after `GetPassword`. -/
def challengedStores (secret : Nat) : Stores :=
  ((getPassword tailPrimitives 7 (challengeDraw secret)).exec (StoreCall.exec tailPrimitives) protectedStores).state

theorem swordfish_passes :
    ∃ settings algo answer,
      ((getPassword tailPrimitives 7 (challengeDraw 11)).exec (StoreCall.exec tailPrimitives)
        protectedStores).result = .ok settings ∧
      settings.currentAlgo = some algo ∧ settings.srpId ≠ 0 ∧
      srpClientProof tailPrimitives tailPbkdf2 (ascii "swordfish") algo.salt1 algo.salt2 settings.srpB [5] =
        .ok answer ∧
      ((checkPassword tailPrimitives 7 { srpId := settings.srpId, a := answer.a, m1 := answer.m1 }).exec
        (StoreCall.exec tailPrimitives) (challengedStores 11)).result = .ok () := by
  obtain ⟨settings, algo, answer, hresult, hcurrent, hid, hanswer, hpasses⟩ :=
    checkPassword_of_rightPassword tailPrimitives tailPbkdf2 (ascii "swordfish") (ascii "salt one") 7
      swordfishRow protectedStores (challengeDraw 11) [5] (by simp [protectedStores]) rfl rfl
      (by rw [swordfishRow, srpComputeVerifier_eq]) rfl
  exact ⟨settings, algo, answer, hresult, hcurrent, hid, hanswer, hpasses rfl (challengedStores 11) rfl⟩

end ShuzaGram.Auth
