import ShuzaGram.Infra.Bytes
import ShuzaGram.Infra.Table

/-!
# The login codes

`store/code_store.hpp` and `store/memory/code_store.cpp`: the codes that were sent out, by
`phone_code_hash`. Every operation holds the store's mutex, so each is one step here.
-/

namespace ShuzaGram.Store

open Infra

/-- `PhoneCode`; `issuedUserId` is the owner of the phone when the code was sent, 0 for none. -/
structure PhoneCode where
  issuedUserId : Int64 := 0
  signUpVerified : Bool := false
  phone : Bytes := []
  code : Bytes := []
  attempts : Int := 0
  maxAttempts : Int := 5
deriving DecidableEq

/-- The number of attempts that a record allows. -/
def PhoneCode.limit (rec : PhoneCode) (defaultMaxAttempts : Int) : Int :=
  if rec.maxAttempts > 0 then rec.maxAttempts else defaultMaxAttempts

abbrev Codes := Table Bytes PhoneCode

/-- `LoginCodeVerifyResult`; only an acceptance carries a record. -/
inductive LoginCodeVerifyResult where
  | missing
  | invalid
  | accepted (record : PhoneCode)
deriving DecidableEq

namespace Codes

/-- `CodeStore::VerifyLogin`. -/
def verifyLogin (codes : Codes) (hash phone code : Bytes) (keepForSignUp : Bool)
    (defaultMaxAttempts : Int) : LoginCodeVerifyResult × Codes :=
  match codes.find hash with
  | none => (.missing, codes)
  | some rec =>
    if rec.phone ≠ phone then (.missing, codes)
    else if rec.code ≠ code then
      let rec' := { rec with attempts := rec.attempts + 1 }
      (.invalid,
        if rec'.attempts ≥ rec.limit defaultMaxAttempts then codes.erase hash
        else codes.upsert hash rec')
    else if keepForSignUp then
      let rec' := { rec with signUpVerified := true }
      (.accepted rec', codes.upsert hash rec')
    else (.accepted rec, codes.erase hash)

/-- `CodeStore::ConsumeSignUpVerified`. -/
def consumeSignUpVerified (codes : Codes) (hash phone : Bytes) : Option PhoneCode × Codes :=
  match codes.find hash with
  | none => (none, codes)
  | some rec =>
    if rec.phone ≠ phone ∨ !rec.signUpVerified then (none, codes)
    else (some rec, codes.erase hash)

/-- The codes after a wrong code was counted; the last attempt deletes the record. -/
def countWrong (codes : Codes) (hash : Bytes) (rec : PhoneCode) (defaultMaxAttempts : Int) : Codes :=
  if rec.attempts + 1 ≥ rec.limit defaultMaxAttempts then codes.erase hash
  else codes.upsert hash { rec with attempts := rec.attempts + 1 }

theorem verifyLogin_wrong {codes : Codes} {hash phone code : Bytes} {keep : Bool} {dflt : Int}
    {rec : PhoneCode} (h : codes.find hash = some rec) (hphone : rec.phone = phone)
    (hcode : rec.code ≠ code) :
    codes.verifyLogin hash phone code keep dflt = (.invalid, codes.countWrong hash rec dflt) := by
  simp [verifyLogin, countWrong, h, hphone, hcode]

theorem find_countWrong_of_ne {codes : Codes} {hash h : Bytes} {rec : PhoneCode} {dflt : Int}
    (hne : h ≠ hash) : (codes.countWrong hash rec dflt).find h = codes.find h := by
  unfold countWrong
  split <;> simp [hne]

/-- The right code is accepted: the record is kept for the sign-up or used up. -/
theorem verifyLogin_right {codes : Codes} {hash phone code : Bytes} {keep : Bool} {dflt : Int}
    {rec : PhoneCode} (h : codes.find hash = some rec) (hphone : rec.phone = phone)
    (hcode : rec.code = code) :
    codes.verifyLogin hash phone code keep dflt =
      if keep then (.accepted { rec with signUpVerified := true },
        codes.upsert hash { rec with signUpVerified := true })
      else (.accepted rec, codes.erase hash) := by
  simp [verifyLogin, h, hphone, hcode]

end Codes

end ShuzaGram.Store
