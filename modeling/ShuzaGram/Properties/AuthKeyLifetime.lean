import Mathlib.Data.List.Induction
import ShuzaGram.Properties.HandshakeBinding
import ShuzaGram.Server.AuthKeys

/-!
# The lifetime of a stored key

Whether a key is temporary is decided by its handshake, checked again by the store, kept by a conditional
upsert and read by the resolver. Over every sequence of handshakes, saves and lookups: a key is stored with
the expiry that its handshake gave it, the row never changes but for its salt, and the resolver gives a key
back exactly as long as it has not expired.

* `KeyOp`, `runKeys` — what happens to the table `auth_keys`
* `Origin` — where a row comes from
* `AuthKeyLifetime` — what holds of every run
-/

namespace ShuzaGram.Server

open Infra Store Mtproto Mtproto.Messages Mtproto.Crypto

/-! ## The expiry that a handshake gives -/

/-- The expiry of a key that was negotiated with `inner` at `handshakeTime`. -/
def AssignedExpiry (handshakeTime : Int64) (inner : PqInnerData) (expiresAt : Int) : Prop :=
  if inner.kind = .tempDc then
    0 < inner.expiresIn.toInt ∧ expiresAt = (seconds handshakeTime).toInt + inner.expiresIn.toInt ∧
      1 ≤ expiresAt ∧ expiresAt ≤ 2147483647
  else expiresAt = 0

theorem assignedExpiry_of_ok {handshakeTime : Int64} {inner : PqInnerData} {expiresAt : Int}
    (h : authKeyExpiresAt handshakeTime inner = .ok expiresAt) :
    AssignedExpiry handshakeTime inner expiresAt := by
  unfold authKeyExpiresAt at h
  unfold AssignedExpiry
  split at h
  · next htemp =>
    rw [if_pos htemp]
    split at h
    · cases h
    · next hpositive =>
      simp only at h
      split at h
      · cases h
      · next hrange =>
        cases h
        have hpositive : 0 < inner.expiresIn.toInt := by
          rw [Int32.le_iff_toInt_le] at hpositive
          simpa using hpositive
        exact ⟨hpositive, rfl, by omega, by omega⟩
  · next hother =>
    cases h
    rw [if_neg hother]

theorem AssignedExpiry.range {handshakeTime : Int64} {inner : PqInnerData} {expiresAt : Int}
    (h : AssignedExpiry handshakeTime inner expiresAt) : 0 ≤ expiresAt ∧ expiresAt ≤ 2147483647 := by
  unfold AssignedExpiry at h
  split at h <;> omega

/-- What the handshake hands to `Save` has the expiry that was computed: it does not wrap. -/
theorem expiresAt_authKeyDataOf {P : Primitives} {draws : Draws} {t : Transcript} {share : ServerShare}
    (h : Computes P draws t share) :
    AssignedExpiry draws.handshakeTime t.inner (authKeyDataOf P (t.result draws share)).expiresAt := by
  have hassigned := assignedExpiry_of_ok h.expiresAt
  obtain ⟨hlow, hhigh⟩ := hassigned.range
  have hsame : (authKeyDataOf P (t.result draws share)).expiresAt = share.expiresAt :=
    Int32.toInt_ofInt_of_le (by omega) (by omega)
  rw [hsame]
  exact hassigned

/-! ## Runs -/

/-- What happens to the table `auth_keys`. -/
inductive KeyOp where
  /-- A key exchange over a wire; if it completes, the success callback is called. -/
  | handshake (key : RsaPrivateKey) (draws : Draws) (wire : Wire Exn Bytes)
  | save (data : AuthKeyData)
  | get (id : Arr 8)
  | revalidate (id : Arr 8)
  /-- A lookup by the resolver. -/
  | resolve (id : Arr 8)

def KeyOp.step (P : Primitives) (s : Stores) : KeyOp → Stores
  | .handshake key draws wire =>
    match serverExchange P key draws wire with
    | .ok result _ => saveOnSuccess P result s
    | .error _ _ => s
  | .save data => (s.authKeysSave data).2
  -- reading touches `last_used_at` only
  | .get _ => s
  | .revalidate _ => s
  | .resolve id => (authKeyResolver id s).2

/-- A run: every operation at its own moment. -/
def runKeys (P : Primitives) (ops : List (KeyOp × Moment)) (s : Stores) : Stores :=
  ops.foldl (fun s op => op.1.step P (atMoment op.2 s)) s

/-- What an operation saves. -/
def KeyOp.Saves (P : Primitives) (data : AuthKeyData) : KeyOp → Prop
  | .handshake key draws wire =>
    ∃ t share wire', Completes P key draws wire t share wire' ∧ data = authKeyDataOf P (t.result draws share)
  | .save data' => data = data'
  | _ => False

/-- **An operation leaves the stores alone, or it saves a key.** -/
theorem step_cases (P : Primitives) (op : KeyOp) (s : Stores) :
    op.step P s = s ∨ ∃ data, op.Saves P data ∧ op.step P s = (s.authKeysSave data).2 := by
  cases op with
  | handshake key draws wire =>
    simp only [KeyOp.step]
    cases hrun : serverExchange P key draws wire with
    | ok result wire' =>
      obtain ⟨t, share, hcompletes, rfl⟩ := serverExchange_eq_ok.mp hrun
      exact .inr ⟨_, ⟨t, share, wire', hcompletes, rfl⟩, rfl⟩
    | error e wire' => exact .inl rfl
  | save data => exact .inr ⟨data, rfl, rfl⟩
  | get id => exact .inl rfl
  | revalidate id => exact .inl rfl
  | resolve id => exact .inl rfl

/-- The facts of the handshake that a row holds are those of another row. -/
def SameKey (row row' : AuthKeyRow) : Prop := row'.body = row.body ∧ row'.expiresAt = row.expiresAt

section Step

variable (P : Primitives) (op : KeyOp) (m : Moment) {s : Stores} {id : Arr 8}

/-- A row is kept, but for its salt. -/
theorem exists_find_step {row : AuthKeyRow} (h : s.authKeys.find id = some row) :
    ∃ row', (op.step P (atMoment m s)).authKeys.find id = some row' ∧ SameKey row row' := by
  rcases step_cases P op (atMoment m s) with hstep | ⟨data, -, hstep⟩
  · exact ⟨row, by rw [hstep]; exact h, rfl, rfl⟩
  · rw [hstep]
    rcases Stores.authKeysSave_cases data (atMoment m s) with
      ⟨e, hsave⟩ | ⟨-, hnone, hsave⟩ | ⟨old, hold, -, -, hsave⟩
    · exact ⟨row, by rw [hsave]; exact h, rfl, rfl⟩
    · have hne : id ≠ data.id := by
        rintro rfl
        exact absurd (h.symm.trans hnone) (by simp)
      exact ⟨row, by simpa [hsave, Stores.putAuthKey, hne] using h, rfl, rfl⟩
    · by_cases heq : id = data.id
      · subst heq
        cases h.symm.trans hold
        exact ⟨{ row with serverSalt := data.serverSalt }, by simp [hsave, Stores.putAuthKey], rfl, rfl⟩
      · exact ⟨row, by simpa [hsave, Stores.putAuthKey, heq] using h, rfl, rfl⟩

/-- A row was there before, or it is the one that the operation saves. -/
theorem find_of_step {row' : AuthKeyRow} (h : (op.step P (atMoment m s)).authKeys.find id = some row') :
    (∃ row, s.authKeys.find id = some row ∧ SameKey row row') ∨
      ∃ data, op.Saves P data ∧ validNewAuthKeyProtocolExpiry data.expiresAt = true ∧ data.id = id ∧
        row' = data.toRow := by
  -- A row that was there is not replaced; a new one comes from a save.
  cases hfind : s.authKeys.find id with
  | some row =>
    obtain ⟨row'', hrow'', hsame⟩ := exists_find_step P op m hfind
    cases hrow''.symm.trans h
    exact .inl ⟨row, rfl, hsame⟩
  | none =>
    rcases step_cases P op (atMoment m s) with hstep | ⟨data, hsaves, hstep⟩
    · rw [hstep] at h
      exact absurd (h.symm.trans hfind) (by simp)
    · rw [hstep] at h
      rcases Stores.authKeysSave_cases data (atMoment m s) with
        ⟨e, hsave⟩ | ⟨hvalid, -, hsave⟩ | ⟨old, hold, -, -, hsave⟩
      · rw [hsave] at h
        exact absurd (h.symm.trans hfind) (by simp)
      · by_cases heq : id = data.id
        · subst heq
          simp only [hsave, Stores.putAuthKey, Table.find_upsert, if_true, Option.some.injEq] at h
          exact .inr ⟨data, hsaves, hvalid, rfl, h.symm⟩
        · simp only [hsave, Stores.putAuthKey, Table.find_upsert, heq, if_false] at h
          exact absurd (h.symm.trans hfind) (by simp)
      · have hne : id ≠ data.id := by
          rintro rfl
          exact absurd (hold.symm.trans hfind) (by simp)
        simp only [hsave, Stores.putAuthKey, Table.find_upsert, hne, if_false] at h
        exact absurd (h.symm.trans hfind) (by simp)

end Step

theorem runKeys_append (P : Primitives) (ops ops' : List (KeyOp × Moment)) (s : Stores) :
    runKeys P (ops ++ ops') s = runKeys P ops' (runKeys P ops s) := by
  simp [runKeys]

/-- **A row is kept by every run, but for its salt.** -/
theorem exists_find_runKeys (P : Primitives) (ops : List (KeyOp × Moment)) {s : Stores} {id : Arr 8} {row : AuthKeyRow}
    (h : s.authKeys.find id = some row) :
    ∃ row', (runKeys P ops s).authKeys.find id = some row' ∧ SameKey row row' := by
  induction ops generalizing s row with
  | nil => exact ⟨row, h, rfl, rfl⟩
  | cons op ops ih =>
    obtain ⟨row₁, h₁, hsame₁⟩ := exists_find_step P op.1 op.2 h
    obtain ⟨row', h', hsame'⟩ := ih h₁
    exact ⟨row', h', hsame'.1.trans hsame₁.1, hsame'.2.trans hsame₁.2⟩

/-! ## Where a row comes from -/

/-- Where the row under `id` comes from: it was there from the start, with an unproven type; or it was
saved as it is; or a handshake negotiated it, which then gave it its expiry. -/
inductive Origin (P : Primitives) (s : Stores) (ops : List (KeyOp × Moment)) (id : Arr 8) (row : AuthKeyRow) : Prop where
  | migrated (old : AuthKeyRow) (hold : s.authKeys.find id = some old) (hsame : SameKey old row)
      (hunproven : row.expiresAt = -1)
  | saved (data : AuthKeyData) (m : Moment) (hmem : (.save data, m) ∈ ops)
      (hvalid : validNewAuthKeyProtocolExpiry data.expiresAt = true) (hid : data.id = id)
      (hsame : SameKey data.toRow row)
  | negotiated (key : RsaPrivateKey) (draws : Draws) (wire wire' : Wire Exn Bytes) (m : Moment) (t : Transcript)
      (share : ServerShare) (hmem : (.handshake key draws wire, m) ∈ ops)
      (hcompletes : Completes P key draws wire t share wire')
      (hid : authKeyId P (t.result draws share).authKey = id)
      (hbody : row.body = (t.result draws share).authKey.toList)
      (hexpiry : AssignedExpiry draws.handshakeTime t.inner row.expiresAt)

section Origin

variable {P : Primitives} {s : Stores} {ops ops' : List (KeyOp × Moment)} {id : Arr 8} {row row' : AuthKeyRow}

theorem Origin.mono (h : Origin P s ops id row) (hops : ∀ op ∈ ops, op ∈ ops') (hsame : SameKey row row') :
    Origin P s ops' id row' := by
  cases h with
  | migrated old hold hsame' hunproven =>
    exact .migrated old hold ⟨hsame.1.trans hsame'.1, hsame.2.trans hsame'.2⟩ (hsame.2.trans hunproven)
  | saved data m hmem hvalid hid hsame' =>
    exact .saved data m (hops _ hmem) hvalid hid ⟨hsame.1.trans hsame'.1, hsame.2.trans hsame'.2⟩
  | negotiated key draws wire wire' m t share hmem hcompletes hid hbody hexpiry =>
    exact .negotiated key draws wire wire' m t share (hops _ hmem) hcompletes hid (hsame.1.trans hbody)
      (by rw [hsame.2]; exact hexpiry)

/-- A row that is saved now. -/
theorem origin_of_saves {op : KeyOp} {m : Moment} {data : AuthKeyData} (hmem : (op, m) ∈ ops) (hsaves : op.Saves P data)
    (hvalid : validNewAuthKeyProtocolExpiry data.expiresAt = true) (hid : data.id = id) :
    Origin P s ops id data.toRow := by
  cases op with
  | handshake key draws wire =>
    obtain ⟨t, share, wire', hcompletes, rfl⟩ := hsaves
    exact .negotiated key draws wire wire' m t share hmem hcompletes hid rfl
      (expiresAt_authKeyDataOf hcompletes.computes)
  | save data' =>
    cases hsaves
    exact .saved data m hmem hvalid hid ⟨rfl, rfl⟩
  | get id => cases hsaves
  | revalidate id => cases hsaves
  | resolve id => cases hsaves

/-- **Every row of every run has an origin.** -/
theorem origin_of_find (hstart : ∀ id row, s.authKeys.find id = some row → row.expiresAt = -1)
    (h : (runKeys P ops s).authKeys.find id = some row) : Origin P s ops id row := by
  induction ops using List.reverseRecOn generalizing row with
  | nil => exact .migrated row h ⟨rfl, rfl⟩ (hstart id row h)
  | append_singleton ops op ih =>
    rw [runKeys_append] at h
    rcases find_of_step P op.1 op.2 h with ⟨old, hold, hsame⟩ | ⟨data, hsaves, hvalid, hid, rfl⟩
    · exact (ih hold).mono (fun _ hmem => List.mem_append_left _ hmem) hsame
    · exact origin_of_saves (List.mem_append_right _ List.mem_cons_self) hsaves hvalid hid

/-- A row that does not stand for an unproven type has a body of the right length and an expiry that a
handshake can give. -/
theorem Origin.wellFormed (h : Origin P s ops id row) :
    row.expiresAt = -1 ∨ row.body.length = 256 ∧ 0 ≤ row.expiresAt := by
  cases h with
  | migrated old hold hsame hunproven => exact .inl hunproven
  | saved data m hmem hvalid hid hsame =>
    right
    rw [hsame.1, hsame.2]
    simp only [validNewAuthKeyProtocolExpiry, Bool.and_eq_true, decide_eq_true_eq] at hvalid
    exact ⟨data.value.length_eq, hvalid.1⟩
  | negotiated key draws wire wire' m t share hmem hcompletes hid hbody hexpiry =>
    right
    rw [hbody]
    exact ⟨(t.result draws share).authKey.length_eq, hexpiry.range.1⟩

end Origin

/-! ## The lifetime -/

/-- A key that is saved: nothing changes, or its row is there. -/
theorem find_authKeysSave (data : AuthKeyData) (m : Moment) (s : Stores) :
    ((atMoment m s).authKeysSave data).2.authKeys = s.authKeys ∨
      ∃ row, ((atMoment m s).authKeysSave data).2.authKeys.find data.id = some row ∧ SameKey data.toRow row := by
  rcases Stores.authKeysSave_cases data (atMoment m s) with
    ⟨e, hsave⟩ | ⟨-, -, hsave⟩ | ⟨old, -, hbody, hexpiry, hsave⟩
  · left
    rw [hsave]
    rfl
  · exact .inr ⟨data.toRow, by simp [hsave, Stores.putAuthKey], rfl, rfl⟩
  · exact .inr ⟨{ old with serverSalt := data.serverSalt }, by simp [hsave, Stores.putAuthKey], hbody, hexpiry⟩

/-- What holds of the table `auth_keys` after a run. -/
structure AuthKeyLifetime (P : Primitives) (s : Stores) (ops : List (KeyOp × Moment)) : Prop where
  /-- Every row comes from the start, from a `Save` of just this key and expiry, or from a handshake: one
  with `p_q_inner_data_temp_dc` gives the handshake time plus `expires_in`, another gives 0. -/
  stored : ∀ id row, (runKeys P ops s).authKeys.find id = some row → Origin P s ops id row
  /-- What a handshake of the run saves has the expiry that it gave, and either it cannot be saved, which
  changes nothing, or the row keeps that body and that expiry to the end of the run. -/
  negotiated : ∀ before key draws wire m after t share wire',
    ops = before ++ (.handshake key draws wire, m) :: after → Completes P key draws wire t share wire' →
    AssignedExpiry draws.handshakeTime t.inner (authKeyDataOf P (t.result draws share)).expiresAt ∧
      ((runKeys P (before ++ [(.handshake key draws wire, m)]) s).authKeys = (runKeys P before s).authKeys ∨
        ∃ row, (runKeys P ops s).authKeys.find (authKeyId P (t.result draws share).authKey) = some row ∧
          SameKey (authKeyDataOf P (t.result draws share)).toRow row)
  /-- Once there is a row, its body and its expiry never change. -/
  kept : ∀ before after id row, ops = before ++ after → (runKeys P before s).authKeys.find id = some row →
    ∃ row', (runKeys P ops s).authKeys.find id = some row' ∧ row'.body = row.body ∧ row'.expiresAt = row.expiresAt
  /-- A `Save` that disagrees with the row throws and changes nothing. -/
  refused : ∀ data m row, (runKeys P ops s).authKeys.find data.id = some row →
    ¬(row.body = data.value.toList ∧ row.expiresAt = data.expiresAt) →
    ∃ e, (atMoment m (runKeys P ops s)).authKeysSave data = (.error e, atMoment m (runKeys P ops s))
  /-- The resolver gives a key back exactly where there is a row that has expiry 0 or expires later. -/
  resolved : ∀ id m r, 0 ≤ m.now → (resolveAuthKey id (atMoment m (runKeys P ops s)) = some r ↔
    ∃ row, (runKeys P ops s).authKeys.find id = some row ∧ (row.expiresAt = 0 ∨ m.now < row.expiresAt) ∧
      r.authKey.toList = row.body ∧ r.serverSalt = row.serverSalt)
  /-- A row whose type is unproven is not given back, whatever the clock says. -/
  unproven : ∀ id m row, (runKeys P ops s).authKeys.find id = some row → row.expiresAt < 0 →
    resolveAuthKey id (atMoment m (runKeys P ops s)) = none

/-- **The lifetime of a key in the store.** The rows that are there from the start are those whose type
nobody can prove. -/
theorem authKeyLifetime (P : Primitives) {s : Stores}
    (hstart : ∀ id row, s.authKeys.find id = some row → row.expiresAt = -1) (ops : List (KeyOp × Moment)) :
    AuthKeyLifetime P s ops where
  stored _ _ h := origin_of_find hstart h
  negotiated := by
    rintro before key draws wire m after t share wire' rfl hcompletes
    have hcomputes := hcompletes.computes
    have hstep : runKeys P (before ++ [(.handshake key draws wire, m)]) s =
        ((atMoment m (runKeys P before s)).authKeysSave (authKeyDataOf P (t.result draws share))).2 := by
      rw [runKeys_append]
      simp only [runKeys, List.foldl_cons, List.foldl_nil, KeyOp.step,
        serverExchange_eq_ok.mpr ⟨t, share, hcompletes, rfl⟩, saveOnSuccess]
    refine ⟨expiresAt_authKeyDataOf hcomputes, ?_⟩
    -- The key was there already and stays as it was, or it is saved and the operations behind keep it.
    rcases find_authKeysSave (authKeyDataOf P (t.result draws share)) m (runKeys P before s) with
      hunchanged | ⟨row, hrow, hsame⟩
    · rw [← hstep] at hunchanged
      exact .inl hunchanged
    · rw [← hstep] at hrow
      obtain ⟨row', hrow', hsame'⟩ := exists_find_runKeys P after hrow
      rw [← runKeys_append, List.append_assoc, List.singleton_append] at hrow'
      exact .inr ⟨row', hrow', hsame'.1.trans hsame.1, hsame'.2.trans hsame.2⟩
  kept := by
    rintro before after id row rfl h
    rw [runKeys_append]
    obtain ⟨row', h', hsame⟩ := exists_find_runKeys P after h
    exact ⟨row', h', hsame⟩
  refused _ m _ h hdisagrees := Stores.authKeysSave_conflict h hdisagrees
  resolved := by
    intro id m r hnow
    rw [resolveAuthKey_eq_some]
    refine exists_congr fun row => and_congr_right fun hrow => ?_
    have hclock : (atMoment m (runKeys P ops s)).moment.now = m.now := rfl
    rw [hclock, ← and_assoc]
    refine and_congr_left fun _ => ?_
    rcases (origin_of_find hstart hrow).wellFormed with hunproven | ⟨hlength, hexpiry⟩
    · omega
    · simp only [hlength, true_and]
      omega
  unproven := by
    intro id m row hrow hnegative
    refine Option.eq_none_iff_forall_ne_some.mpr fun r hr => ?_
    obtain ⟨row', hrow', -, hexpiry, -⟩ := resolveAuthKey_eq_some.mp hr
    cases hrow.symm.trans hrow'
    omega

/-! ### A handshake beside an unproven row -/

def migratedMoment : Moment := { now := 1700000000, newUserId := 0 }

def migratedStores : Stores :=
  { Stores.empty migratedMoment with authKeys := Table.empty.upsert (Arr.zero 8) { expiresAt := -1 } }

theorem expiresAt_migratedStores {id : Arr 8} {row : AuthKeyRow} (h : migratedStores.authKeys.find id = some row) :
    row.expiresAt = -1 := by
  simp only [migratedStores, Table.find_upsert, Table.find_empty] at h
  split at h
  · cases h
    rfl
  · cases h

theorem authKeyLifetime_sample :
    AuthKeyLifetime lengthPrimitives migratedStores
        [(.handshake sampleRsaKey sampleExchangeDraws foreignWire, migratedMoment), (.resolve (Arr.zero 8), migratedMoment)] ∧
      ∃ t share w', Completes lengthPrimitives sampleRsaKey sampleExchangeDraws foreignWire t share w' := by
  obtain ⟨result, w', hrun⟩ := serverExchange_foreign
  obtain ⟨t, share, hcompletes, -⟩ := serverExchange_eq_ok.mp hrun
  exact ⟨authKeyLifetime lengthPrimitives (fun _ _ h => expiresAt_migratedStores h) _, t, share, w', hcompletes⟩

end ShuzaGram.Server
