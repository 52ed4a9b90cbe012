import ShuzaGram.Auth.BindEnvelope

/-!
# Who may bind a temporary key

`BindTempAuthKey` over every content of the table of keys. It hands a binding to the store exactly if the
envelope of the request, opened under a permanent key, speaks of that request and the temporary key is
still alive.
-/

namespace ShuzaGram.Auth

open Infra Store Store.Stores Mtproto Mtproto.Crypto

/-- The inner message that speaks of a request. -/
def BindTempAuthKeyRequest.inner (req : BindTempAuthKeyRequest) : BindAuthKeyInner where
  nonce := req.nonce
  tempAuthKeyId := authKeyIdToInt64 req.tempAuthKeyId
  permAuthKeyId := req.permAuthKeyId
  tempSessionId := req.tempSessionId
  expiresAt := req.expiresAt

/-- The binding of a request to the temporary key; its expiry is that of the key. -/
def bindingOf (req : BindTempAuthKeyRequest) (temporary : AuthKeyData) : TempAuthKeyBinding where
  tempAuthKeyId := req.tempAuthKeyId
  permAuthKeyId := req.permAuthKeyId
  nonce := req.nonce
  tempSessionId := req.tempSessionId
  expiresAt := temporary.expiresAt
  encryptedMessage := req.encryptedMessage

/-- The request proves that its sender has the permanent key it names. -/
structure Proven (P : Primitives) (s : Stores) (req : BindTempAuthKeyRequest) (permanent : AuthKeyData) : Prop where
  stored : s.authKeyOf (authKeyIdFromInt64 req.permAuthKeyId) = some permanent
  lasting : permanent.expiresAt = 0
  opens : decryptBindAuthKeyInner P permanent.value req.encryptedMessage = .ok req.inner

/-- The request may bind its temporary key, at the time `now`. -/
structure MayBind (P : Primitives) (s : Stores) (req : BindTempAuthKeyRequest) (now : Int) (temporary : AuthKeyData) :
    Prop where
  expires : 0 < req.expiresAt
  stored : s.authKeyOf req.tempAuthKeyId = some temporary
  alive : now < temporary.expiresAt
  proven : ∃ permanent, Proven P s req permanent

/-- The bindings that a run hands to `SaveWithState`. -/
def savesOf (trace : List (Prog.Event DbCall.Res Exn)) : List TempAuthKeyBinding :=
  trace.filterMap fun event =>
    match event.1 with
    | .tempKeysSaveWithState binding => some binding
    | _ => none

/-- The refusals of `BindTempAuthKey`. -/
def bindRefusals : List Exn := [.expiresAtInvalid, .tempAuthKeyEmpty, .encryptedMessageInvalid]

/-- The call for the keys of a request returns the rows of the two ids. -/
def LoadsRows (ex : (call : DbCall) → Stores → Except Exn call.Res × Stores) (req : BindTempAuthKeyRequest)
    (s : Stores) : Prop :=
  (ex (.authKeysLoadBindingKeys req.tempAuthKeyId (authKeyIdFromInt64 req.permAuthKeyId)) s).1 =
    .ok { temporary := s.authKeyOf req.tempAuthKeyId
          permanent := s.authKeyOf (authKeyIdFromInt64 req.permAuthKeyId) }

/-! ## The checks -/

variable {P : Primitives} {s : Stores} {req : BindTempAuthKeyRequest} {now₁ now₂ : Int}

theorem BindAuthKeyInner.proves_iff {inner : BindAuthKeyInner} : inner.proves req = true ↔ inner = req.inner := by
  cases inner
  simp only [proves, BindTempAuthKeyRequest.inner, Bool.and_eq_true, decide_eq_true_eq, BindAuthKeyInner.mk.injEq,
    and_assoc]

theorem liveTemporary_of_lt {pair : AuthKeyBindingKeys} {temporary : AuthKeyData} {now : Int}
    (h : pair.temporary = some temporary) (hlt : now < temporary.expiresAt) :
    liveTemporary pair now = pure temporary := by
  rw [liveTemporary, h]
  exact if_neg (Int.not_le.mpr hlt)

theorem liveTemporary_of_not {pair : AuthKeyBindingKeys} {now : Int}
    (h : ¬∃ temporary, pair.temporary = some temporary ∧ now < temporary.expiresAt) :
    liveTemporary pair now = throw .tempAuthKeyEmpty := by
  unfold liveTemporary
  split
  · rfl
  · next temporary htemp => exact if_pos (Int.not_lt.mp fun hlt => h ⟨temporary, htemp, hlt⟩)

/-- The check of the proof, as one question. -/
theorem checkProof_of_proven {pair : AuthKeyBindingKeys} {permanent : AuthKeyData}
    (hpair : pair.permanent = s.authKeyOf (authKeyIdFromInt64 req.permAuthKeyId)) (h : Proven P s req permanent) :
    checkProof (openBindAuthKeyInner P) pair req = pure () := by
  rw [checkProof, hpair, h.stored]
  simp only [h.lasting, openBindAuthKeyInner, h.opens, Except.toOption]
  rw [if_neg (fun hne => hne rfl), if_pos (BindAuthKeyInner.proves_iff.mpr rfl)]

theorem checkProof_of_not {pair : AuthKeyBindingKeys}
    (hpair : pair.permanent = s.authKeyOf (authKeyIdFromInt64 req.permAuthKeyId))
    (h : ¬∃ permanent, Proven P s req permanent) :
    checkProof (openBindAuthKeyInner P) pair req = throw .encryptedMessageInvalid := by
  unfold checkProof
  split
  · rfl
  · next permanent hperm =>
    by_cases hzero : permanent.expiresAt = 0
    · rw [if_neg (fun hne => hne hzero)]
      split
      · rfl
      · next inner hinner =>
        refine if_neg fun hproves => h ⟨permanent, hpair ▸ hperm, hzero, ?_⟩
        obtain rfl := BindAuthKeyInner.proves_iff.mp hproves
        cases hdec : decryptBindAuthKeyInner P permanent.value req.encryptedMessage with
        | ok inner =>
          rw [openBindAuthKeyInner, hdec] at hinner
          rw [Option.some.inj hinner]
        | error e =>
          rw [openBindAuthKeyInner, hdec] at hinner
          cases hinner
    · exact if_pos hzero

/-! ## Behind the load -/

/-- What `BindTempAuthKey` does with the pair. -/
def bindPair (openInner : OpenBindAuthKeyInner) (req : BindTempAuthKeyRequest) (now₁ now₂ : Int)
    (pair : AuthKeyBindingKeys) : DbProg TempAuthKeyBindingResult := do
  let temporary ← liveTemporary pair now₁
  checkProof openInner pair req
  if temporary.expiresAt ≤ now₂ then throw .tempAuthKeyEmpty
  Prog.perform (DbCall.tempKeysSaveWithState (bindingOf req temporary))

theorem bindTempAuthKey_of_pos {openInner : OpenBindAuthKeyInner} (h : 0 < req.expiresAt) :
    bindTempAuthKey openInner req now₁ now₂ =
      Prog.perform (DbCall.authKeysLoadBindingKeys req.tempAuthKeyId (authKeyIdFromInt64 req.permAuthKeyId)) >>=
        bindPair openInner req now₁ now₂ := by
  rw [bindTempAuthKey, if_neg (Int32.not_le.mpr h)]
  rfl

theorem bindTempAuthKey_of_not_pos {openInner : OpenBindAuthKeyInner} (h : ¬0 < req.expiresAt) :
    bindTempAuthKey openInner req now₁ now₂ = throw .expiresAtInvalid := by
  rw [bindTempAuthKey, if_pos (Int32.not_lt.mp h)]
  rfl

variable {pair : AuthKeyBindingKeys}

/-- The first reading of the clock cannot refuse what the second one lets through. -/
theorem bindPair_of_mayBind (htemp : pair.temporary = s.authKeyOf req.tempAuthKeyId)
    (hperm : pair.permanent = s.authKeyOf (authKeyIdFromInt64 req.permAuthKeyId)) (hnow : now₁ ≤ now₂)
    {temporary : AuthKeyData} (h : MayBind P s req now₂ temporary) :
    bindPair (openBindAuthKeyInner P) req now₁ now₂ pair =
      Prog.perform (DbCall.tempKeysSaveWithState (bindingOf req temporary)) := by
  obtain ⟨permanent, hproven⟩ := h.proven
  rw [bindPair, liveTemporary_of_lt (htemp.trans h.stored) (Int.lt_of_le_of_lt hnow h.alive), Prog.ret_bind,
    checkProof_of_proven hperm hproven, Prog.ret_bind, if_neg (Int.not_le.mpr h.alive)]

theorem bindPair_of_not (now₁ : Int) (htemp : pair.temporary = s.authKeyOf req.tempAuthKeyId)
    (hperm : pair.permanent = s.authKeyOf (authKeyIdFromInt64 req.permAuthKeyId)) (hpos : 0 < req.expiresAt)
    (h : ¬∃ temporary, MayBind P s req now₂ temporary) :
    ∃ e ∈ bindRefusals, bindPair (openBindAuthKeyInner P) req now₁ now₂ pair = throw e := by
  unfold bindPair
  by_cases hlive : ∃ temporary, pair.temporary = some temporary ∧ now₁ < temporary.expiresAt
  · obtain ⟨temporary, hsome, hlt⟩ := hlive
    rw [liveTemporary_of_lt hsome hlt, Prog.ret_bind]
    by_cases hproven : ∃ permanent, Proven P s req permanent
    · obtain ⟨permanent, hp⟩ := hproven
      -- the proof holds, so that the key has expired since the first reading
      have hdead : temporary.expiresAt ≤ now₂ := Int.not_lt.mp fun halive =>
        h ⟨temporary, hpos, htemp ▸ hsome, halive, permanent, hp⟩
      refine ⟨.tempAuthKeyEmpty, by simp [bindRefusals], ?_⟩
      rw [checkProof_of_proven hperm hp, Prog.ret_bind, if_pos hdead]
      rfl
    · refine ⟨.encryptedMessageInvalid, by simp [bindRefusals], ?_⟩
      rw [checkProof_of_not hperm hproven]
      rfl
  · refine ⟨.tempAuthKeyEmpty, by simp [bindRefusals], ?_⟩
    rw [liveTemporary_of_not hlive]
    rfl

/-! ## The runs -/

section Run

variable {ex : (call : DbCall) → Stores → Except Exn call.Res × Stores} {env : Nat → Stores → Stores} {n : Nat}

/-- **A run hands over the one binding, or it ends with a refusal.** -/
theorem bindTempAuthKey_cases (hload : LoadsRows ex req (env n s)) (hnow : now₁ ≤ now₂) :
    let o := Prog.run ex env n (bindTempAuthKey (openBindAuthKeyInner P) req now₁ now₂) s
    (∃ temporary s', MayBind P (env n s) req now₂ temporary ∧ savesOf o.trace = [bindingOf req temporary] ∧
        o.result = (ex (.tempKeysSaveWithState (bindingOf req temporary)) s').1) ∨
      (¬∃ temporary, MayBind P (env n s) req now₂ temporary) ∧ savesOf o.trace = [] ∧
        ∃ e ∈ bindRefusals, o.result = .error e := by
  by_cases hpos : 0 < req.expiresAt
  · obtain ⟨pair, htemp, hperm, hpair⟩ : ∃ pair : AuthKeyBindingKeys,
        pair.temporary = (env n s).authKeyOf req.tempAuthKeyId ∧
        pair.permanent = (env n s).authKeyOf (authKeyIdFromInt64 req.permAuthKeyId) ∧
        (ex (.authKeysLoadBindingKeys req.tempAuthKeyId (authKeyIdFromInt64 req.permAuthKeyId)) (env n s)).1 = .ok pair :=
      ⟨_, rfl, rfl, hload⟩
    rw [bindTempAuthKey_of_pos hpos, Prog.run_perform_bind]
    rcases hex : ex (.authKeysLoadBindingKeys req.tempAuthKeyId (authKeyIdFromInt64 req.permAuthKeyId)) (env n s)
      with ⟨r, s₁⟩
    rw [hex] at hpair
    obtain rfl := hpair
    by_cases hmay : ∃ temporary, MayBind P (env n s) req now₂ temporary
    · obtain ⟨temporary, hmay⟩ := hmay
      refine .inl ⟨temporary, env (n + 1) s₁, hmay, ?_⟩
      simp only [bindPair_of_mayBind htemp hperm hnow hmay, Prog.run_perform]
      exact ⟨rfl, trivial⟩
    · obtain ⟨e, he, hthrow⟩ := bindPair_of_not now₁ htemp hperm hpos hmay
      refine .inr ⟨hmay, ?_⟩
      simp only [hthrow, Prog.run_throw]
      exact ⟨rfl, e, he, rfl⟩
  · rw [bindTempAuthKey_of_not_pos hpos]
    exact .inr ⟨fun ⟨_, hmay⟩ => hpos hmay.expires, rfl, .expiresAtInvalid, by simp [bindRefusals], rfl⟩

theorem bindTempAuthKey_of_mayBind (hload : LoadsRows ex req (env n s)) (hnow : now₁ ≤ now₂) {temporary : AuthKeyData}
    (h : MayBind P (env n s) req now₂ temporary) :
    let o := Prog.run ex env n (bindTempAuthKey (openBindAuthKeyInner P) req now₁ now₂) s
    savesOf o.trace = [bindingOf req temporary] ∧
      ∃ s', o.result = (ex (.tempKeysSaveWithState (bindingOf req temporary)) s').1 := by
  rcases bindTempAuthKey_cases hload hnow with ⟨found, s', hmay, hsaves, hresult⟩ | ⟨hnot, -, -⟩
  · obtain rfl : found = temporary := Option.some.inj (hmay.stored.symm.trans h.stored)
    exact ⟨hsaves, s', hresult⟩
  · exact absurd ⟨temporary, h⟩ hnot

/-- The envelope of a client proves its request, if its inner message speaks of it. -/
theorem proven_encryptBindMessage {permanent : AuthKeyData}
    (hstored : s.authKeyOf (authKeyIdFromInt64 req.permAuthKeyId) = some permanent) (hlasting : permanent.expiresAt = 0)
    (hkey : permanent.value ≠ Arr.zero 256) {msgId : Int64} {inner : BindAuthKeyInner} {rand : EnvelopeRandom}
    (hinner : inner = req.inner)
    (hmessage : encryptBindMessage P permanent.value msgId inner rand = .ok req.encryptedMessage) :
    Proven P s req permanent where
  stored := hstored
  lasting := hlasting
  opens := hinner ▸ decryptBindAuthKeyInner_encryptBindMessage P hkey hmessage

/-- **Binding a temporary key is sound and complete.** At most one binding is handed to the store, and only for a
request that proves its permanent key while the temporary key is alive; every other request is refused. Opening an
envelope throws nothing but what is caught, and what a client encrypts for its request is accepted. -/
theorem bindTempAuthKey_sound_complete (hload : LoadsRows ex req (env n s)) (hnow : now₁ ≤ now₂) :
    let o := Prog.run ex env n (bindTempAuthKey (openBindAuthKeyInner P) req now₁ now₂) s
    (savesOf o.trace).length ≤ 1 ∧
      (∀ binding ∈ savesOf o.trace, ∃ temporary, MayBind P (env n s) req now₂ temporary ∧
        binding = bindingOf req temporary) ∧
      ((¬∃ temporary, MayBind P (env n s) req now₂ temporary) →
        savesOf o.trace = [] ∧ ∃ e ∈ bindRefusals, o.result = .error e) ∧
      (∀ permKey e, decryptBindAuthKeyInner P permKey req.encryptedMessage = .error e →
        e = .bindEncryptedMessageInvalid) ∧
      ∀ temporary permanent msgId inner rand, 0 < req.expiresAt →
        (env n s).authKeyOf req.tempAuthKeyId = some temporary → now₂ < temporary.expiresAt →
        (env n s).authKeyOf (authKeyIdFromInt64 req.permAuthKeyId) = some permanent → permanent.expiresAt = 0 →
        permanent.value ≠ Arr.zero 256 → inner = req.inner →
        ∃ message, encryptBindMessage P permanent.value msgId inner rand = .ok message ∧
          (req.encryptedMessage = message → savesOf o.trace = [bindingOf req temporary] ∧
            ∃ s', o.result = (ex (.tempKeysSaveWithState (bindingOf req temporary)) s').1) := by
  refine ⟨?_, ?_, ?_, fun _ _ => decryptBindAuthKeyInner_error, ?_⟩
  · rcases bindTempAuthKey_cases hload hnow with ⟨temporary, s', -, hsaves, -⟩ | ⟨-, hsaves, -⟩
    · exact hsaves ▸ Nat.le_refl 1
    · exact hsaves ▸ Nat.zero_le 1
  · intro binding hmem
    rcases bindTempAuthKey_cases hload hnow with ⟨temporary, s', hmay, hsaves, -⟩ | ⟨-, hsaves, -⟩
    · rw [hsaves] at hmem
      exact ⟨temporary, hmay, List.mem_singleton.mp hmem⟩
    · rw [hsaves] at hmem
      cases hmem
  · intro hnot
    rcases bindTempAuthKey_cases hload hnow with ⟨temporary, s', hmay, -, -⟩ | ⟨-, hsaves, hrefused⟩
    · exact absurd ⟨temporary, hmay⟩ hnot
    · exact ⟨hsaves, hrefused⟩
  · intro temporary permanent msgId inner rand hpos htemp halive hperm hlasting hkey hinner
    obtain ⟨message, hencrypt⟩ := exists_encryptBindMessage P hkey msgId inner rand
    refine ⟨message, hencrypt, fun hmessage => ?_⟩
    rw [← hmessage] at hencrypt
    exact bindTempAuthKey_of_mayBind hload hnow
      ⟨hpos, htemp, halive, permanent, proven_encryptBindMessage hperm hlasting hkey hinner hencrypt⟩

end Run

/-! ## A binding -/

/-- Pairs are loaded as the store loads them, and every binding is saved. -/
def savingCalls : (call : DbCall) → Stores → Except Exn call.Res × Stores
  | .authKeysLoadBindingKeys tempId permId, s => (s.authKeysLoadBindingKeys tempId permId, s)
  | .tempKeysSaveWithState _, s => (.ok { layer := 0, layerObservationId := 0 }, s)
  | .lock, s | .unlock, s | .store _, s | .authKeysSave _, s | .authKeysGet _, s => (.error .bufferUnderrun, s)

def temporaryRow : AuthKeyRow := { body := List.replicate 256 2, expiresAt := 5000 }

def permanentRow : AuthKeyRow := { body := List.replicate 256 1 }

def keyPairStores : Stores :=
  { Stores.empty { now := 0, newUserId := 0 } with
    authKeys := (Table.empty.upsert (authKeyIdFromInt64 5) temporaryRow).upsert (authKeyIdFromInt64 9) permanentRow }

def keyPairRequest (message : Bytes) : BindTempAuthKeyRequest where
  tempAuthKeyId := authKeyIdFromInt64 5
  tempSessionId := -3
  permAuthKeyId := 9
  nonce := 777
  expiresAt := 5000
  encryptedMessage := message

theorem rows_keyPairStores : keyPairStores.authKeys.rows =
    [(authKeyIdFromInt64 5, temporaryRow), (authKeyIdFromInt64 9, permanentRow)] := rfl

theorem wholeKeys_keyPairStores : keyPairStores.WholeKeys := by
  intro p hp
  rw [rows_keyPairStores] at hp
  rcases List.mem_pair.mp hp with rfl | rfl
  · exact List.length_replicate
  · exact List.length_replicate

theorem permanent_keyPairStores :
    keyPairStores.authKeyOf (authKeyIdFromInt64 9) = some (dataOfRow (authKeyIdFromInt64 9, permanentRow)) := by
  have hne : authKeyIdFromInt64 5 ≠ authKeyIdFromInt64 9 := by decide
  rw [authKeyOf, Table.findBy, rows_keyPairStores]
  simp [hne]

theorem bindTempAuthKey_sound_complete_keyPair :
    ∃ message, encryptBindMessage blankPrimitives (dataOfRow (authKeyIdFromInt64 9, permanentRow)).value 6
        (keyPairRequest []).inner { first := Arr.zero 16, pad := fun _ => 0 } = .ok message ∧
      savesOf (Prog.run savingCalls Prog.idle 0
          (bindTempAuthKey (openBindAuthKeyInner blankPrimitives) (keyPairRequest message) 1000 1001) keyPairStores).trace =
        [bindingOf (keyPairRequest message) (dataOfRow (authKeyIdFromInt64 5, temporaryRow))] := by
  have hkey : (dataOfRow (authKeyIdFromInt64 9, permanentRow)).value ≠ Arr.zero 256 := by decide +kernel
  obtain ⟨message, hencrypt⟩ := exists_encryptBindMessage blankPrimitives hkey 6 (keyPairRequest []).inner
    { first := Arr.zero 16, pad := fun _ => 0 }
  have hload : LoadsRows savingCalls (keyPairRequest message) (Prog.idle 0 keyPairStores) :=
    Stores.authKeysLoadBindingKeys_eq wholeKeys_keyPairStores _ _
  obtain ⟨-, -, -, -, hcomplete⟩ := bindTempAuthKey_sound_complete (P := blankPrimitives) hload
    (show (1000 : Int) ≤ 1001 by decide)
  obtain ⟨message', hencrypt', haccept⟩ := hcomplete (dataOfRow (authKeyIdFromInt64 5, temporaryRow))
    (dataOfRow (authKeyIdFromInt64 9, permanentRow)) 6 (keyPairRequest []).inner
    { first := Arr.zero 16, pad := fun _ => 0 } (show (0 : Int32) < 5000 by decide) rfl (by decide) permanent_keyPairStores
    rfl hkey rfl
  exact ⟨message, hencrypt, (haccept (Except.ok.inj (hencrypt.symm.trans hencrypt'))).1⟩

end ShuzaGram.Auth
