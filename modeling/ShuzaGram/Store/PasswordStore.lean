import ShuzaGram.Store.Tables

/-!
# Passwords

`store/postgres/password_store.cpp`: the table `account_passwords`. One group of columns holds the
algorithm; it is read both as the algorithm for new passwords and, where it is not all empty, as the
current one.
-/

namespace ShuzaGram.Store

open Infra Domain

/-- The row as `GetByUser` gives it. -/
def PasswordRow.toSettings (row : PasswordRow) : PasswordSettings :=
  { hasRecovery := row.hasRecovery
    hasSecureValues := row.hasSecureValues
    hasPassword := row.hasPassword
    hint := row.hint
    secureRandom := row.secureRandom
    newAlgo := row.algo
    currentAlgo :=
      if row.algo.salt1 ≠ [] ∨ row.algo.salt2 ≠ [] ∨ row.algo.p ≠ [] ∨ row.algo.g ≠ 0 then some row.algo
      else none
    srpId := row.srpId
    srpVerifier := row.srpVerifier
    srpBSecret := row.srpBSecret
    srpB := row.srpB }

/-- The row that `Save` writes. -/
def PasswordRow.ofSettings (settings : PasswordSettings) : PasswordRow :=
  { hasRecovery := settings.hasRecovery
    hasSecureValues := settings.hasSecureValues
    hasPassword := settings.hasPassword
    hint := settings.hint
    secureRandom := settings.secureRandom
    algo := settings.currentAlgo.getD settings.newAlgo
    srpId := settings.srpId
    srpVerifier := settings.srpVerifier
    srpBSecret := settings.srpBSecret
    srpB := settings.srpB }

namespace Stores

/-- `GetByUser`. -/
def passwordsGetByUser (s : Stores) (userId : Int64) : Option PasswordSettings :=
  (s.accountPasswords.find userId).map PasswordRow.toSettings

/-- `Save`. -/
def passwordsSave (userId : Int64) (settings : PasswordSettings) (s : Stores) : Except Exn (Unit × Stores) :=
  .ok ((), { s with accountPasswords := s.accountPasswords.upsert userId (.ofSettings settings) })

/-- Whether the account has a password. -/
def hasPassword (s : Stores) (userId : Int64) : Bool :=
  match s.accountPasswords.find userId with
  | none => false
  | some row => row.hasPassword

end Stores

end ShuzaGram.Store
