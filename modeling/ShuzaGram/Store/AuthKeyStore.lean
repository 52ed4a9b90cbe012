import ShuzaGram.Store.Tables

/-!
# Auth keys

`store/auth_key.hpp` and `store/postgres/auth_key_store.cpp`: the table `auth_keys`. A key is a fact of
its handshake, so its body and its expiry are written once. A later `Save` for the same id may only
change the salt.

`last_used_at`, which reading touches, is not part of the model.
-/

namespace ShuzaGram.Store

open Infra

/-- `ValidNewAuthKeyProtocolExpiry`. -/
def validNewAuthKeyProtocolExpiry (expiresAt : Int) : Bool := 0 ≤ expiresAt && expiresAt ≤ 2147483647

/-- `AuthKeyData`, as far as it is read. -/
structure AuthKeyData where
  id : Arr 8
  value : Arr 256
  serverSalt : Int64
  expiresAt : Int
deriving DecidableEq

/-- `AuthKeyBindingKeys`. -/
structure AuthKeyBindingKeys where
  temporary : Option AuthKeyData
  permanent : Option AuthKeyData

def invalidAuthKeyProtocolExpiry : Exn := .storeError "invalid auth key protocol expiry"

def authKeyProtocolMetadataConflict : Exn := .storeError "auth key protocol metadata conflict"

/-- The row that `Save` inserts. -/
def AuthKeyData.toRow (key : AuthKeyData) : AuthKeyRow :=
  { body := key.value.toList, serverSalt := key.serverSalt, expiresAt := key.expiresAt }

namespace Stores

def putAuthKey (s : Stores) (id : Arr 8) (row : AuthKeyRow) : Stores :=
  { s with authKeys := s.authKeys.upsert id row }

/-- The statement of `Save`: `INSERT ... ON CONFLICT ... DO UPDATE ... WHERE`, and the check that it
affected one row. -/
def authKeysUpsert (key : AuthKeyData) (s : Stores) : Except Exn (Unit × Stores) :=
  match s.authKeys.find key.id with
  | none => .ok ((), s.putAuthKey key.id key.toRow)
  | some row =>
    if row.body = key.value.toList ∧ row.expiresAt = key.expiresAt then
      .ok ((), s.putAuthKey key.id { row with serverSalt := key.serverSalt })
    else .error authKeyProtocolMetadataConflict

/-- `Save`. -/
def authKeysSave (key : AuthKeyData) (s : Stores) : Except Exn Unit × Stores :=
  if !validNewAuthKeyProtocolExpiry key.expiresAt then (.error invalidAuthKeyProtocolExpiry, s)
  else write (authKeysUpsert key) s

/-- `RowToAuthKeyData`. -/
def rowToAuthKeyData (id : Arr 8) (row : AuthKeyRow) : Except Exn AuthKeyData :=
  if row.body.length ≠ 256 then
    .error (.storeError s!"auth key body length = {row.body.length}, want 256")
  else .ok { id, value := Arr.ofList 256 row.body, serverSalt := row.serverSalt, expiresAt := row.expiresAt }

/-- `Get` and `Revalidate`, which differ in `last_used_at` only. -/
def authKeysGet (id : Arr 8) (s : Stores) : Except Exn (Option AuthKeyData) :=
  match s.authKeys.find id with
  | none => .ok none
  | some row => (rowToAuthKeyData id row).map some

/-- The loop of `LoadBindingKeys` over the rows of its statement. -/
def collectBindingKeys (tempId permId : Arr 8) :
    List (Arr 8 × AuthKeyRow) → AuthKeyBindingKeys → Except Exn AuthKeyBindingKeys
  | [], out => .ok out
  | (id, row) :: rows, out => do
    let data ← rowToAuthKeyData id row
    if data.id = tempId then collectBindingKeys tempId permId rows { out with temporary := some data }
    else if data.id = permId then collectBindingKeys tempId permId rows { out with permanent := some data }
    else throw (.storeError "load auth key binding pair returned unexpected id")

/-- `LoadBindingKeys`. -/
def authKeysLoadBindingKeys (tempId permId : Arr 8) (s : Stores) : Except Exn AuthKeyBindingKeys := do
  let rows := s.authKeys.rows.filter fun p => p.1 = tempId || p.1 = permId
  let out ← collectBindingKeys tempId permId rows { temporary := none, permanent := none }
  return if tempId = permId && out.temporary.isSome then { out with permanent := out.temporary } else out

/-! ## The pair of a binding -/

/-- A stored key as it is handed out, with its id. -/
def dataOfRow (p : Arr 8 × AuthKeyRow) : AuthKeyData where
  id := p.1
  value := Arr.ofList 256 p.2.body
  serverSalt := p.2.serverSalt
  expiresAt := p.2.expiresAt

/-- What is stored under an id. -/
def authKeyOf (s : Stores) (id : Arr 8) : Option AuthKeyData :=
  (s.authKeys.findBy fun p => p.1 = id).map dataOfRow

/-- Every key has 256 bytes, as `Save` writes them. -/
def WholeKeys (s : Stores) : Prop := ∀ p ∈ s.authKeys.rows, p.2.body.length = 256

/-- The loop lemma. No id stands in two rows, so that nothing is overwritten. -/
theorem collectBindingKeys_eq (tempId permId : Arr 8) :
    ∀ {rows : List (Arr 8 × AuthKeyRow)} (out : AuthKeyBindingKeys), (∀ p ∈ rows, p.2.body.length = 256) →
      (∀ p ∈ rows, p.1 = tempId ∨ p.1 = permId) → (rows.map Prod.fst).Nodup →
      collectBindingKeys tempId permId rows out = .ok
        { temporary := ((rows.find? fun p => p.1 = tempId).map dataOfRow).or out.temporary
          permanent := if tempId = permId then out.permanent
            else ((rows.find? fun p => p.1 = permId).map dataOfRow).or out.permanent }
  | [], out, _, _, _ => by
    cases out
    simp [collectBindingKeys]
  | (id, row) :: rows, out, hwhole, hids, hnodup => by
    have hrow : rowToAuthKeyData id row = .ok (dataOfRow (id, row)) := by
      rw [rowToAuthKeyData, if_neg (fun h => h (hwhole _ List.mem_cons_self))]
      rfl
    obtain ⟨hnew, hnodup⟩ := List.nodup_cons.mp hnodup
    have habsent : (rows.find? fun p => p.1 = id) = none := by
      rw [List.find?_eq_none]
      intro p hp heq
      exact hnew (List.mem_map.mpr ⟨p, hp, by simpa using heq⟩)
    have ih := fun out' => collectBindingKeys_eq tempId permId out'
      (fun p hp => hwhole p (List.mem_cons_of_mem _ hp)) (fun p hp => hids p (List.mem_cons_of_mem _ hp)) hnodup
    rw [collectBindingKeys, hrow, ok_bind]
    -- The temporary id is asked for first, so a row with both ids is the temporary one.
    by_cases htemp : id = tempId
    · subst htemp
      rw [if_pos (show (dataOfRow (id, row)).id = id from rfl), ih, habsent]
      by_cases hsame : id = permId
      · simp [hsame]
      · simp [hsame]
    · obtain rfl : id = permId := (hids _ List.mem_cons_self).resolve_left htemp
      rw [if_neg (show (dataOfRow (id, row)).id ≠ tempId from htemp),
        if_pos (show (dataOfRow (id, row)).id = id from rfl),
        ih, habsent]
      simp [htemp, Ne.symm htemp]

/-- **Loading a pair gives what is stored under the two ids**, which may be the same. -/
theorem authKeysLoadBindingKeys_eq {s : Stores} (hwhole : s.WholeKeys) (tempId permId : Arr 8) :
    s.authKeysLoadBindingKeys tempId permId =
      .ok { temporary := s.authKeyOf tempId, permanent := s.authKeyOf permId } := by
  have hfind : ∀ {id}, id = tempId ∨ id = permId →
      (s.authKeys.rows.filter fun p => p.1 = tempId || p.1 = permId).find? (fun p => p.1 = id) =
        s.authKeys.findBy fun p => p.1 = id := by
    intro id hid
    rw [List.find?_filter]
    refine congrArg (fun f => List.find? f s.authKeys.rows) (funext fun p => ?_)
    by_cases hp : p.1 = id
    · rcases hid with rfl | rfl <;> simp [hp]
    · simp [hp]
  unfold authKeysLoadBindingKeys
  simp only
  rw [collectBindingKeys_eq tempId permId _ (fun p hp => hwhole p (List.mem_of_mem_filter hp))
    (fun p hp => by simpa using (List.mem_filter.mp hp).2) (s.authKeys.nodup.sublist (List.filter_sublist.map _)),
    hfind (.inl rfl), hfind (.inr rfl)]
  by_cases hsame : tempId = permId
  · subst hsame
    cases htemp : s.authKeys.findBy fun p => p.1 = tempId with
    | none => simp [authKeyOf, htemp]
    | some p => simp [authKeyOf, htemp]
  · simp [authKeyOf, hsame]

/-! ## What a save does -/

/-- **A save leaves the stores alone, or it adds the row of its key, or it changes the salt of a row
that agrees with its key.** -/
theorem authKeysSave_cases (key : AuthKeyData) (s : Stores) :
    (∃ e, authKeysSave key s = (.error e, s)) ∨
      validNewAuthKeyProtocolExpiry key.expiresAt = true ∧ s.authKeys.find key.id = none ∧
        authKeysSave key s = (.ok (), s.putAuthKey key.id key.toRow) ∨
      ∃ row, s.authKeys.find key.id = some row ∧ row.body = key.value.toList ∧ row.expiresAt = key.expiresAt ∧
        authKeysSave key s = (.ok (), s.putAuthKey key.id { row with serverSalt := key.serverSalt }) := by
  unfold authKeysSave
  split
  · exact .inl ⟨_, rfl⟩
  · next hvalid =>
    have hvalid : validNewAuthKeyProtocolExpiry key.expiresAt = true := by simpa using hvalid
    rcases write_cases (authKeysUpsert key) s with ⟨e, he⟩ | ⟨_, s', htx, he⟩
    · exact .inl ⟨e, he⟩
    · unfold authKeysUpsert at htx
      cases hrow : s.authKeys.find key.id with
      | none =>
        rw [hrow] at htx
        cases htx
        exact .inr (.inl ⟨hvalid, rfl, he⟩)
      | some row =>
        rw [hrow] at htx
        simp only at htx
        split at htx
        · next hagree =>
          cases htx
          exact .inr (.inr ⟨row, rfl, hagree.1, hagree.2, he⟩)
        · cases htx

/-- A save for a row that disagrees throws. -/
theorem authKeysSave_conflict {key : AuthKeyData} {s : Stores} {row : AuthKeyRow} (hrow : s.authKeys.find key.id = some row)
    (h : ¬(row.body = key.value.toList ∧ row.expiresAt = key.expiresAt)) : ∃ e, authKeysSave key s = (.error e, s) := by
  rcases authKeysSave_cases key s with he | ⟨-, hnone, -⟩ | ⟨row', hrow', hbody, hexpires, -⟩
  · exact he
  · rw [hrow] at hnone
    cases hnone
  · rw [hrow] at hrow'
    cases hrow'
    exact absurd ⟨hbody, hexpires⟩ h

end Stores

end ShuzaGram.Store
