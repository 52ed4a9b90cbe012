import ShuzaGram.Mtproto.TcpHandshakeServer
import ShuzaGram.Server.Threads

/-!
# The keys that a connection finds and leaves

`cmd/shuzagram_server/main.cpp`: the resolver of resumed keys and the success callback, over the stores.
All rules on which stored key may still be used are here.
-/

namespace ShuzaGram.Server

open Infra Store Mtproto Mtproto.Crypto

/-- `auth_key_resolver`: a negative expiry is a row whose type nobody can prove, a positive one that has
passed is a temporary key that has expired. -/
def resolveAuthKey (id : Arr 8) (s : Stores) : Option ResolvedAuthKey :=
  match s.authKeysGet id with
  | .error _ => none
  | .ok none => none
  | .ok (some data) =>
    if data.expiresAt < 0 then none
    else if data.expiresAt > 0 ∧ data.expiresAt ≤ s.moment.now then none
    else some { authKey := data.value, serverSalt := data.serverSalt }

/-- `auth_key_resolver`, as `TcpHandshakeServer` calls it. -/
def authKeyResolver : AuthKeyResolver Stores := fun id s => (resolveAuthKey id s, s)

/-- The success callback of `Run`: the key is saved, and what that throws is only printed. -/
def saveOnSuccess (P : Primitives) (result : ServerExchangeResult) (s : Stores) : Stores :=
  (s.authKeysSave (authKeyDataOf P result)).2

/-- A key is found exactly where there is a row with a body of the right length and an expiry that has
not passed. -/
theorem resolveAuthKey_eq_some {id : Arr 8} {s : Stores} {r : ResolvedAuthKey} :
    resolveAuthKey id s = some r ↔
      ∃ row, s.authKeys.find id = some row ∧ row.body.length = 256 ∧
        (row.expiresAt = 0 ∨ 0 < row.expiresAt ∧ s.moment.now < row.expiresAt) ∧
        r.authKey.toList = row.body ∧ r.serverSalt = row.serverSalt := by
  have hdata : ∀ row : AuthKeyRow, row.body.length = 256 →
      (r.authKey.toList = row.body ∧ r.serverSalt = row.serverSalt ↔
        { authKey := Arr.ofList 256 row.body, serverSalt := row.serverSalt : ResolvedAuthKey } = r) := by
    intro row hlength
    constructor
    · rintro ⟨hkey, hsalt⟩
      rw [← hkey, ← hsalt, Arr.ofList_toList]
    · rintro rfl
      exact ⟨Arr.toList_ofList hlength, rfl⟩
  unfold resolveAuthKey Stores.authKeysGet
  cases hrow : s.authKeys.find id with
  | none => simp
  | some row =>
    -- A row of another length throws in the store, which the resolver takes for no key.
    by_cases hlength : row.body.length = 256
    · simp only [Stores.rowToAuthKeyData, hlength, ne_eq, not_true, if_false, Except.map, Option.some.injEq,
        exists_eq_left', true_and, hdata row hlength]
      split
      · simp only [reduceCtorEq, false_iff]
        omega
      · split
        · simp only [reduceCtorEq, false_iff]
          omega
        · simp only [Option.some.injEq, iff_and_self]
          omega
    · simp [Stores.rowToAuthKeyData, hlength, Except.map]

end ShuzaGram.Server
