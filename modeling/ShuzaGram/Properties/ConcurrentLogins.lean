import Mathlib.Data.List.Dedup
import ShuzaGram.Properties.LoginBaseline
import ShuzaGram.Store.LoginSessions

/-!
# Logins at the same time

`Bind` statement by statement. Whatever other logins and revocations commit in between, a login commits what `Bind`
does at once to the stores of that moment.
-/

namespace ShuzaGram.Store

open Infra Infra.Transactions Domain Mtproto.Crypto

variable {hashint8 : HashInt8} {held : List Lock} {ws : List RowWrite} {k : Arr 8}

/-! ## What locks guard -/

/-- The two counters of an account. `Bind` adds the row of one that is missing. -/
inductive Counter where
  | watermark
  | retention

namespace Counter

def value : Counter → Int64 → Stores → Option Int
  | watermark, userId, s => s.watermarks.find userId
  | retention, userId, s => s.retention.find userId

def lock : Counter → Int64 → Lock
  | watermark, userId => .row (.watermark userId)
  | retention, userId => .row (.retention userId)

def put : Counter → Int64 → Int → RowWrite
  | watermark => .putWatermark
  | retention => .putRetention

def insert : Counter → Int64 → Stmt
  | watermark => .insertWatermark
  | retention => .insertRetention

/-- The row that is to be added. -/
def missing (c : Counter) (userId : Int64) (s : Stores) : List RowWrite :=
  match c.value userId s with
  | none => [c.put userId 0]
  | some _ => []

end Counter

/-- What the holder of the locks can rely on from one committed state to a later one. Nobody takes a counter away. -/
structure Agree (hashint8 : HashInt8) (held : List Lock) (s s' : Stores) : Prop where
  users : s'.users = s.users
  authKeys : s'.authKeys = s.authKeys
  authorization : ∀ k, identityLock hashint8 k ∈ held → s'.authorizations.find k = s.authorizations.find k
  updateState : ∀ k u, identityLock hashint8 k ∈ held → s'.updateStates.find (k, u) = s.updateStates.find (k, u)
  watermark : ∀ u, Lock.row (.watermark u) ∈ held → s'.watermarks.find u = s.watermarks.find u
  hasWatermark : ∀ u, (s.watermarks.find u).isSome → (s'.watermarks.find u).isSome
  retention : ∀ u, Lock.row (.retention u) ∈ held → s'.retention.find u = s.retention.find u
  hasRetention : ∀ u, (s.retention.find u).isSome → (s'.retention.find u).isSome

namespace Agree

variable {s s' s'' : Stores}

theorem refl (s : Stores) : Agree hashint8 held s s where
  users := rfl
  authKeys := rfl
  authorization _ _ := rfl
  updateState _ _ _ := rfl
  watermark _ _ := rfl
  hasWatermark _ h := h
  retention _ _ := rfl
  hasRetention _ h := h

theorem trans (h : Agree hashint8 held s s') (h' : Agree hashint8 held s' s'') : Agree hashint8 held s s'' where
  users := h'.users.trans h.users
  authKeys := h'.authKeys.trans h.authKeys
  authorization k hk := (h'.authorization k hk).trans (h.authorization k hk)
  updateState k u hk := (h'.updateState k u hk).trans (h.updateState k u hk)
  watermark u hu := (h'.watermark u hu).trans (h.watermark u hu)
  hasWatermark u hu := h'.hasWatermark u (h.hasWatermark u hu)
  retention u hu := (h'.retention u hu).trans (h.retention u hu)
  hasRetention u hu := h'.hasRetention u (h.hasRetention u hu)

theorem anti {held' : List Lock} (h : Agree hashint8 held' s s') (hsub : ∀ l ∈ held, l ∈ held') :
    Agree hashint8 held s s' where
  users := h.users
  authKeys := h.authKeys
  authorization k hk := h.authorization k (hsub _ hk)
  updateState k u hk := h.updateState k u (hsub _ hk)
  watermark u hu := h.watermark u (hsub _ hu)
  hasWatermark := h.hasWatermark
  retention u hu := h.retention u (hsub _ hu)
  hasRetention := h.hasRetention

theorem counter (h : Agree hashint8 held s s') {c : Counter} {u : Int64} (hlock : c.lock u ∈ held) :
    c.value u s' = c.value u s := by
  cases c with
  | watermark => exact h.watermark u hlock
  | retention => exact h.retention u hlock

theorem hasCounter (h : Agree hashint8 held s s') {c : Counter} {u : Int64} (hc : (c.value u s).isSome) :
    (c.value u s').isSome := by
  cases c with
  | watermark => exact h.hasWatermark u hc
  | retention => exact h.hasRetention u hc

end Agree

theorem isSome_find_upsert {t : Table Int64 Int} {u u' : Int64} {pts : Int} (h : (t.find u').isSome) :
    ((t.upsert u pts).find u').isSome := by
  rw [Table.find_upsert]
  split
  · rfl
  · exact h

/-- One change of somebody else. -/
theorem agree_apply {w : RowWrite} (h : w.guard hashint8 ∉ held) (s : Stores) : Agree hashint8 held s (w.apply s) := by
  have hrefl : Agree hashint8 held s s := .refl s
  cases w with
  | putWatermark u pts =>
    have hother : ∀ u', Lock.row (.watermark u') ∈ held → u' ≠ u := fun _ hlock heq => h (heq ▸ hlock)
    exact
      { hrefl with
        watermark := fun u' hlock => Table.find_upsert_of_ne (hother u' hlock) pts
        hasWatermark := fun _ => isSome_find_upsert }
  | putRetention u pts =>
    have hother : ∀ u', Lock.row (.retention u') ∈ held → u' ≠ u := fun _ hlock heq => h (heq ▸ hlock)
    exact
      { hrefl with
        retention := fun u' hlock => Table.find_upsert_of_ne (hother u' hlock) pts
        hasRetention := fun _ => isSome_find_upsert }
  | putUpdateState key st =>
    have hother : ∀ k u, identityLock hashint8 k ∈ held → (k, u) ≠ key := fun _ _ hlock heq => h (heq ▸ hlock)
    exact { hrefl with updateState := fun k u hlock => Table.find_upsert_of_ne (hother k u hlock) st }
  | dropUpdateState key =>
    have hother : ∀ k u, identityLock hashint8 k ∈ held → (k, u) ≠ key := fun _ _ hlock heq => h (heq ▸ hlock)
    exact { hrefl with updateState := fun k u hlock => Table.find_erase_of_ne (hother k u hlock) }
  | putAuthorization k' a =>
    have hother : ∀ k, identityLock hashint8 k ∈ held → k ≠ k' := fun _ hlock heq => h (heq ▸ hlock)
    exact { hrefl with authorization := fun k hlock => Table.find_upsert_of_ne (hother k hlock) a }
  | dropAuthorization k' =>
    have hother : ∀ k, identityLock hashint8 k ∈ held → k ≠ k' := fun _ hlock heq => h (heq ▸ hlock)
    exact { hrefl with authorization := fun k hlock => Table.find_erase_of_ne (hother k hlock) }

/-- All changes of others. -/
theorem agree_of_clear (hclear : (engine hashint8).Clear held ws) (s : Stores) :
    Agree hashint8 held s ((engine hashint8).writeAll ws s) := by
  induction ws generalizing s with
  | nil => exact .refl s
  | cons w ws ih =>
    have hw : w.guard hashint8 ∉ held := hclear w List.mem_cons_self
    exact (agree_apply hw s).trans (ih (fun w' hw' => hclear w' (List.mem_cons_of_mem w hw')) (w.apply s))

theorem not_touched_authorization (hlock : identityLock hashint8 k ∈ held) (hclear : (engine hashint8).Clear held ws) :
    ¬Touched ws (.authorization k) := by
  rintro ⟨w, hw, hrow⟩
  refine hclear w hw ?_
  cases w with
  | putAuthorization k' a =>
    cases hrow
    exact hlock
  | dropAuthorization k' =>
    cases hrow
    exact hlock
  | putWatermark | putRetention | putUpdateState | dropUpdateState => cases hrow

theorem not_touched_updateState (hlock : identityLock hashint8 k ∈ held) (hclear : (engine hashint8).Clear held ws)
    (u : Int64) : ¬Touched ws (.updateState (k, u)) := by
  rintro ⟨w, hw, hrow⟩
  refine hclear w hw ?_
  cases w with
  | putUpdateState key st =>
    cases hrow
    exact hlock
  | dropUpdateState key =>
    cases hrow
    exact hlock
  | putWatermark | putRetention | putAuthorization | dropAuthorization => cases hrow

/-! ## Parts of the transactions -/

section Parts

variable {s : Stores} {c : List Authorization}

/-- A statement that changes nothing and of whose answer nothing is asked but `A`. -/
theorem safe_read (stmt : Stmt) (A : stmt.Res → List Lock → Prop)
    (h : ∀ seen since now r ws' ls, stmt.Does hashint8 seen since now r ws' ls → ws' = [] ∧ A r ls) :
    Safe (engine hashint8) (fun r _ ws' held' c' => ws' = ws ∧ c' = c ∧ ∃ ls, held' = held ++ ls ∧ A r ls) (sql stmt)
      s ws held c := by
  refine safe_sql fun earlier since r ws' ls _ _ hstmt others _ => ?_
  obtain ⟨rfl, hA⟩ := h _ _ _ _ _ _ hstmt
  exact ⟨List.append_nil ws, rfl, ls, rfl, hA⟩

/-- A part of a transaction, with what the locks of its start keep. -/
theorem safe_keeps {α : Type} {p : StmtTx α}
    {Q : α → Stores → List RowWrite → List Lock → List Authorization → Prop} {I : Stores → Prop} (hI : I s)
    (hkeeps : ∀ s s', Agree hashint8 held s s' → I s → I s')
    (h : Safe (engine hashint8) Q p s ws held c) :
    Safe (engine hashint8) (fun a s' ws' held' c' => (I s' ∧ ∀ l ∈ held, l ∈ held') ∧ Q a s' ws' held' c') p
      s ws held c :=
  h.frame (fun s _ hothers => hkeeps s _ (agree_of_clear hothers s)) hI

theorem safe_lockIdentities (lockKeys : List Int32) :
    Safe (engine hashint8) (fun _ _ ws' held' c' => ws' = ws ∧ c' = c ∧ (∀ l ∈ held, l ∈ held') ∧
      ∀ lockKey ∈ lockKeys, Lock.identity lockKey ∈ held') (lockIdentities lockKeys) s ws held c := by
  induction lockKeys generalizing s held with
  | nil => exact fun _ _ => ⟨rfl, rfl, fun _ hl => hl, fun _ hkey => absurd hkey List.not_mem_nil⟩
  | cons lockKey lockKeys ih =>
    refine Safe.bind ((safe_read (.lockIdentity lockKey) (fun _ ls => ls = [.identity lockKey])
      fun _ _ _ _ _ _ h => h).mono ?_)
    rintro ⟨⟩ s' _ _ _ ⟨rfl, rfl, ls, rfl, rfl⟩
    refine ih.mono ?_
    rintro ⟨⟩ _ _ held' _ ⟨rfl, rfl, hsub, hkeys⟩
    refine ⟨rfl, rfl, fun l hl => hsub l (List.mem_append_left _ hl), fun key hkey => ?_⟩
    rcases List.mem_cons.mp hkey with rfl | hkey
    · exact hsub _ (List.mem_append_right _ List.mem_cons_self)
    · exact hkeys key hkey

/-- The identities of all keys are held, whatever hashes collide. -/
theorem safe_lockPermanentAuthIdentities (permIds : List (Arr 8)) :
    Safe (engine hashint8) (fun _ _ ws' held' c' => ws' = ws ∧ c' = c ∧ (∀ l ∈ held, l ∈ held') ∧
      ∀ id ∈ permIds, identityLock hashint8 id ∈ held') (lockPermanentAuthIdentities permIds) s ws held c := by
  unfold lockPermanentAuthIdentities
  split
  · next hnil =>
    subst hnil
    exact fun _ _ => ⟨rfl, rfl, fun _ hl => hl, fun _ hid => absurd hid List.not_mem_nil⟩
  · refine Safe.bind ((safe_read (.identityKeys permIds)
      (fun r _ => r = (permIds.map fun id => hashint8 (authKeyIdToInt64 id)).dedup.mergeSort)
      fun _ _ _ _ _ _ h => ⟨h.2.1, h.1⟩).mono ?_)
    rintro _ s' _ _ _ ⟨rfl, rfl, ls, rfl, rfl⟩
    refine (safe_lockIdentities _).mono ?_
    rintro ⟨⟩ _ _ held' _ ⟨rfl, rfl, hsub, hkeys⟩
    refine ⟨rfl, rfl, fun l hl => hsub l (List.mem_append_left _ hl), fun id hid => hkeys _ ?_⟩
    rw [List.mem_mergeSort, List.mem_dedup]
    exact List.mem_map.mpr ⟨id, hid, rfl⟩

end Parts

/-! ## The checks of a login -/

section Checks

variable {s : Stores} {c : List Authorization}

theorem safe_lockUserForUpdate (userId : Int64) :
    Safe (engine hashint8) (fun _ _ ws' _ _ => ws' = ws) (lockUserForUpdate userId) s ws held c := by
  unfold lockUserForUpdate
  split
  · exact fun _ _ => rfl
  · exact (safe_read (.lockUser userId) (fun _ _ => True) fun _ _ _ _ _ _ h => ⟨h.1, trivial⟩).mono
      fun _ _ _ _ _ h => h.1

/-- The tables that only other transactions change. -/
theorem users_writeAll (hashint8 : HashInt8) (ws : List RowWrite) (s : Stores) :
    ((engine hashint8).writeAll ws s).users = s.users := by
  have hagree : Agree hashint8 [] s ((engine hashint8).writeAll ws s) := agree_of_clear (fun _ _ => List.not_mem_nil) s
  exact hagree.users

theorem authKeys_writeAll (hashint8 : HashInt8) (ws : List RowWrite) (s : Stores) :
    ((engine hashint8).writeAll ws s).authKeys = s.authKeys := by
  have hagree : Agree hashint8 [] s ((engine hashint8).writeAll ws s) := agree_of_clear (fun _ _ => List.not_mem_nil) s
  exact hagree.authKeys

theorem safe_selectUser (userId : Int64) :
    Safe (engine hashint8)
      (fun rows s' ws' _ _ => ws' = ws ∧ (rows = [] ∨ ∃ u, s'.users.find userId = some u ∧ rows = [!u.deleted]))
      (sql (.selectUser userId)) s ws held c := by
  refine safe_sql fun earlier since rows ws' ls _ _ hstmt others _ => ?_
  obtain ⟨keys, hfinds, rfl, rfl, -⟩ := hstmt
  refine ⟨List.append_nil ws, ?_⟩
  rcases hfinds.eq_nil_or_single with rfl | ⟨rfl, u, hu⟩
  · exact .inl rfl
  · refine .inr ⟨u, ?_, ?_⟩
    · rwa [users_writeAll, ← users_writeAll hashint8 ws]
    · rw [List.filterMap_cons_some (by rw [hu]; rfl), List.filterMap_nil]

theorem safe_selectAuthKey (authKeyId : Arr 8) :
    Safe (engine hashint8)
      (fun rows s' ws' held' _ => ws' = ws ∧ (∀ l ∈ held, l ∈ held') ∧
        (rows = [] ∨ ∃ key, s'.authKeys.find authKeyId = some key ∧ rows = [key]))
      (sql (.selectAuthKey authKeyId)) s ws held c := by
  refine safe_sql fun earlier since rows ws' ls _ _ hstmt others _ => ?_
  obtain ⟨keys, hfinds, rfl, rfl, -⟩ := hstmt
  refine ⟨List.append_nil ws, fun l hl => List.mem_append_left ls hl, ?_⟩
  rcases hfinds.eq_nil_or_single with rfl | ⟨rfl, key, hkey⟩
  · exact .inl rfl
  · refine .inr ⟨key, ?_, ?_⟩
    · rwa [authKeys_writeAll, ← authKeys_writeAll hashint8 ws]
    · rw [List.filterMap_cons_some hkey, List.filterMap_nil]

theorem bindGuard_of_agree {s s' : Stores} (h : Agree hashint8 held s s') (userId : Int64) (authKeyId : Arr 8) :
    s'.bindGuard userId authKeyId = s.bindGuard userId authKeyId := by
  unfold Stores.bindGuard
  rw [h.users, h.authKeys]

/-- The checks of a login pass where those of `Bind` do, and take the identity of the key. -/
theorem safe_bindChecks (userId : Int64) (authKeyId : Arr 8) :
    Safe (engine hashint8)
      (fun layer s ws held _ => ws = [] ∧ identityLock hashint8 authKeyId ∈ held ∧
        s.bindGuard userId authKeyId = .ok layer)
      (bindChecks userId authKeyId) s [] [] c := by
  unfold bindChecks
  refine Safe.bind ((safe_lockUserForUpdate userId).mono ?_)
  rintro ⟨⟩ s ws held c rfl
  refine Safe.bind ((safe_selectUser userId).mono ?_)
  rintro rows s ws held c ⟨rfl, rfl | ⟨u, hu, rfl⟩⟩
  · exact safe_throw _
  cases hdeleted : u.deleted with
  | true => exact safe_throw _
  | false =>
    -- No login changes an account, so what was selected stays true up to the commit.
    refine Safe.bind ((safe_keeps (I := fun s => s.users.find userId = some u) hu
      (fun s s' h hu => by rwa [h.users]) (safe_lockPermanentAuthIdentities [authKeyId])).mono ?_)
    rintro ⟨⟩ s _ held _ ⟨⟨hu, -⟩, rfl, rfl, -, hids⟩
    refine Safe.bind ((safe_keeps (I := fun s => s.users.find userId = some u) hu
      (fun s s' h hu => by rwa [h.users]) (safe_selectAuthKey authKeyId)).mono ?_)
    rintro rows s _ held' _ ⟨⟨hu, -⟩, rfl, hsub, rfl | ⟨key, hkey, rfl⟩⟩
    · exact safe_throw _
    simp only
    split
    · exact safe_throw _
    · next hpermanent =>
      split
      · exact safe_throw _
      · next hlayer =>
        have hguard : s.bindGuard userId authKeyId = .ok key.layer := by
          unfold Stores.bindGuard
          simp only [hu, hdeleted, hkey, if_neg hpermanent, if_neg hlayer]
          rfl
        refine fun others hothers => ⟨rfl, hsub _ (hids authKeyId List.mem_cons_self), ?_⟩
        rw [bindGuard_of_agree (agree_of_clear hothers s), hguard]

end Checks

/-! ## The baseline of a login -/

section Baseline

variable {s : Stores} {c : List Authorization} {userId : Int64} {authKeyId : Arr 8}

/-- The statement adds the missing row, or it has found one. -/
theorem does_insert {counter : Counter} {seen now : Stores} {since ws : List RowWrite}
    {r : (counter.insert userId).Res} {ls : List Lock}
    (h : (counter.insert userId).Does hashint8 seen since now r ws ls) :
    ws = counter.missing userId now ∧ ((counter.value userId now).isSome ∨ counter.lock userId ∈ ls) := by
  have hdoes : match counter.value userId now with
      | none => ws = [counter.put userId 0] ∧ ls = [counter.lock userId]
      | some _ => ws = [] ∧ ls = [] := by
    cases counter with
    | watermark => exact h
    | retention => exact h
  unfold Counter.missing
  cases hvalue : counter.value userId now with
  | none =>
    rw [hvalue] at hdoes
    exact ⟨hdoes.1, .inr (hdoes.2 ▸ List.mem_cons_self)⟩
  | some pts =>
    rw [hvalue] at hdoes
    exact ⟨hdoes.1, .inl rfl⟩

theorem missing_congr {counter : Counter} {s s' : Stores} (h : counter.value userId s' = counter.value userId s) :
    counter.missing userId s' = counter.missing userId s := by
  unfold Counter.missing
  rw [h]

/-- What is missing stays so for the session that adds it. -/
theorem missing_of_agree {s s' : Stores} (h : Agree hashint8 held s s') {counter : Counter}
    (hrow : (counter.value userId s).isSome ∨ counter.lock userId ∈ held) :
    counter.missing userId s' = counter.missing userId s := by
  rcases hrow with hrow | hlock
  · obtain ⟨pts, hpts⟩ := Option.isSome_iff_exists.mp hrow
    obtain ⟨pts', hpts'⟩ := Option.isSome_iff_exists.mp (h.hasCounter hrow)
    unfold Counter.missing
    rw [hpts, hpts']
  · exact missing_congr (h.counter hlock)

/-- The counter that a session sees once it has added the missing row. -/
theorem value_writeAll_missing {counter : Counter} {s t : Stores}
    (h : counter.value userId t = counter.value userId s) :
    counter.value userId ((engine hashint8).writeAll (counter.missing userId s) t) =
      some ((counter.value userId s).getD 0) := by
  unfold Counter.missing
  cases hvalue : counter.value userId s with
  | none =>
    cases counter with
    | watermark => exact (Table.find_upsert _ _ _ _).trans (if_pos rfl)
    | retention => exact (Table.find_upsert _ _ _ _).trans (if_pos rfl)
  | some pts => exact h.trans hvalue

/-- A lookup of the counter that finds it. -/
theorem finds_counter {counter : Counter} {seen : Int64 → Option Int} {touched : Int64 → Prop} {now : Stores}
    {keys : List Int64} (hfinds : Finds (fun u _ => u = userId) seen (fun u => counter.value u now) touched keys) :
    keys = [] ∨ ∃ pts, counter.value userId now = some pts ∧
      keys.filterMap (fun u => counter.value u now) = [pts] ∧ counter.lock userId ∈ keys.map counter.lock := by
  rcases hfinds.eq_nil_or_single with rfl | ⟨rfl, pts, hpts⟩
  · exact .inl rfl
  · exact .inr ⟨pts, hpts, List.filterMap_cons_some hpts, List.mem_cons_self⟩

/-- `select` looks the counter up, and `rows` is what it answers. -/
def Counter.SelectedBy (counter : Counter) (hashint8 : HashInt8) (userId : Int64) (select : Stmt)
    (rows : select.Res → List Int) : Prop :=
  ∀ seen since now r ws ls, select.Does hashint8 seen since now r ws ls →
    ∃ keys touched,
      Finds (fun u _ => u = userId) (fun u => counter.value u seen) (fun u => counter.value u now) touched keys ∧
      rows r = keys.filterMap (fun u => counter.value u now) ∧ ws = [] ∧ ls = keys.map counter.lock

/-- The row of the counter is there, or it is this session that adds it. -/
def Counter.Present (counter : Counter) (userId : Int64) (held : List Lock) (s : Stores) : Prop :=
  (counter.value userId s).isSome ∨ counter.lock userId ∈ held

section Opened

variable {counter : Counter} (hws : ∀ t, counter.value userId ((engine hashint8).writeAll ws t) = counter.value userId t)

include hws

theorem safe_insertCounter :
    Safe (engine hashint8)
      (fun _ t ws' held' _ => ws' = ws ++ counter.missing userId t ∧ counter.Present userId held' t)
      (sql (counter.insert userId)) s ws held c := by
  refine safe_sql fun earlier since r ws' ls _ _ hstmt others hothers => ?_
  obtain ⟨rfl, hrow⟩ := does_insert hstmt
  have hlater := agree_of_clear hothers ((engine hashint8).writeAll since ((engine hashint8).writeAll earlier s))
  rw [hws] at hrow
  rw [missing_congr (hws _)]
  have hrow := hrow.imp_right (List.mem_append_right held)
  exact ⟨by rw [missing_of_agree hlater hrow], hrow.imp_left hlater.hasCounter⟩

theorem safe_selectCounter {select : Stmt} {rows : select.Res → List Int}
    (hselect : counter.SelectedBy hashint8 userId select rows) (hrow : counter.Present userId held s) :
    Safe (engine hashint8)
      (fun r t ws' held' _ => ws' = ws ++ counter.missing userId s ∧
        (rows r = [] ∨ rows r = [(counter.value userId t).getD 0] ∧ counter.lock userId ∈ held'))
      (sql select) s (ws ++ counter.missing userId s) held c := by
  refine safe_sql fun earlier since r ws' ls hearlier hsince hstmt others hothers => ?_
  obtain ⟨keys, touched, hfinds, hrows, rfl, rfl⟩ := hselect _ _ _ _ _ _ hstmt
  refine ⟨List.append_nil _, ?_⟩
  rcases finds_counter hfinds with rfl | ⟨pts, hpts, hkeys, hlock⟩
  · exact .inl hrows
  -- the session sees its own row, or the one that was there
  have hagree := (agree_of_clear hearlier s).trans (agree_of_clear hsince _)
  have hlater := agree_of_clear hothers ((engine hashint8).writeAll since ((engine hashint8).writeAll earlier s))
  have hlock := List.mem_append_right held hlock
  rw [← missing_of_agree hagree hrow, Engine.writeAll_append, value_writeAll_missing (hws _)] at hpts
  refine .inr ⟨?_, hlock⟩
  rw [hrows, hkeys, hlater.counter hlock, Option.some.inj hpts]

/-- The first statements on a counter: afterwards its row is there and locked. -/
theorem safe_openCounter {α : Type} {Q : α → Stores → List RowWrite → List Lock → List Authorization → Prop}
    {select : Stmt} {rows : select.Res → List Int} (hselect : counter.SelectedBy hashint8 userId select rows)
    {rest : Int → StmtTx α} {I : Stores → Prop} (hI : I s)
    (hkeeps : ∀ s s', Agree hashint8 held s s' → I s → I s')
    (hrest : ∀ t held' c', I t → (∀ l ∈ held, l ∈ held') → counter.lock userId ∈ held' →
      Safe (engine hashint8) Q (rest ((counter.value userId t).getD 0)) t (ws ++ counter.missing userId t) held' c') :
    Safe (engine hashint8) Q
      (sql (counter.insert userId) >>= fun _ => sql select >>= fun r => firstRow (rows r) >>= rest) s ws held c := by
  refine Safe.bind ((safe_keeps hI hkeeps (safe_insertCounter hws)).mono ?_)
  rintro _ s₁ _ held₁ c ⟨⟨hI, hsub₁⟩, rfl, hrow⟩
  have hkept : ∀ t t', Agree hashint8 held₁ t t' →
      I t ∧ counter.missing userId t = counter.missing userId s₁ ∧ counter.Present userId held₁ t →
      I t' ∧ counter.missing userId t' = counter.missing userId s₁ ∧ counter.Present userId held₁ t' :=
    fun t t' h ⟨hI, hmissing, hrow⟩ => ⟨hkeeps t t' (h.anti hsub₁) hI, (missing_of_agree h hrow).trans hmissing,
      hrow.imp_left h.hasCounter⟩
  refine Safe.bind ((safe_keeps ⟨hI, rfl, hrow⟩ hkept (safe_selectCounter hws hselect hrow)).mono ?_)
  rintro r s₂ _ held₂ c ⟨⟨⟨hI, hmissing, -⟩, hsub₂⟩, rfl, hrows | ⟨hrows, hlock⟩⟩
  · rw [hrows]
    exact safe_throw _
  · rw [hrows, ← hmissing]
    exact hrest s₂ held₂ c hI (fun l hl => hsub₂ l (hsub₁ l hl)) hlock

end Opened

/-- The changes of the counters. -/
def counterWrites (userId : Int64) (s : Stores) : List RowWrite :=
  Counter.watermark.missing userId s ++ Counter.retention.missing userId s

theorem writeAll_missing_watermark (hashint8 : HashInt8) (userId : Int64) (s t : Stores) :
    ∃ w, (engine hashint8).writeAll (Counter.watermark.missing userId s) t = { t with watermarks := w } := by
  unfold Counter.missing
  cases Counter.watermark.value userId s with
  | none => exact ⟨_, rfl⟩
  | some pts => exact ⟨_, rfl⟩

theorem writeAll_counterWrites (hashint8 : HashInt8) (userId : Int64) (s t : Stores) :
    ∃ w r, (engine hashint8).writeAll (counterWrites userId s) t = { t with watermarks := w, retention := r } := by
  obtain ⟨w, hw⟩ := writeAll_missing_watermark hashint8 userId s t
  unfold counterWrites
  rw [Engine.writeAll_append, hw]
  unfold Counter.missing
  cases Counter.retention.value userId s with
  | none => exact ⟨w, _, rfl⟩
  | some pts => exact ⟨w, _, rfl⟩

theorem safe_upsertUpdateState {pts floor now : Int} (hlock : identityLock hashint8 authKeyId ∈ held)
    (hws : ∀ t, ((engine hashint8).writeAll ws t).updateStates = t.updateStates) :
    Safe (engine hashint8)
      (fun r t ws' _ _ => r = 0 ∨ ∃ st,
        baselineState (t.updateStates.find (authKeyId, userId)) pts floor now = some st ∧
        ws' = ws ++ [.putUpdateState (authKeyId, userId) st])
      (sql (.upsertUpdateState authKeyId userId pts floor now)) s ws held c := by
  refine safe_sql fun earlier since r ws' ls _ _ hstmt others hothers => ?_
  obtain ⟨-, hstate⟩ := hstmt
  have hlater := agree_of_clear hothers ((engine hashint8).writeAll since ((engine hashint8).writeAll earlier s))
  rw [hlater.updateState authKeyId userId (List.mem_append_left ls hlock)]
  rw [hws] at hstate
  split at hstate
  · next st hst => exact .inr ⟨st, hst, by rw [hstate.2]⟩
  · exact .inl hstate.1

/-- The states of the key that belong to other accounts. -/
def OtherStates (userId : Int64) (authKeyId : Arr 8) (s : Stores) (keys : List (Arr 8 × Int64)) : Prop :=
  ∀ key, key ∈ keys ↔ key.1 = authKeyId ∧ key.2 ≠ userId ∧ (s.updateStates.find key).isSome

theorem OtherStates.later {s' : Stores} {keys : List (Arr 8 × Int64)} (h : OtherStates userId authKeyId s keys)
    (hagree : Agree hashint8 held s s') (hlock : identityLock hashint8 authKeyId ∈ held) :
    OtherStates userId authKeyId s' keys := by
  rintro ⟨k, u⟩
  rw [h]
  refine and_congr_right fun hk => ?_
  simp only at hk
  subst hk
  rw [hagree.updateState k u hlock]

/-- The deletion finds all states of other accounts. -/
theorem safe_deleteOtherStates {st : UpdateState} (hlock : identityLock hashint8 authKeyId ∈ held)
    (hws : ∀ t, ((engine hashint8).writeAll ws t).updateStates = t.updateStates.upsert (authKeyId, userId) st) :
    Safe (engine hashint8)
      (fun _ t ws' held' _ => (∀ l ∈ held, l ∈ held') ∧
        ∃ keys, OtherStates userId authKeyId t keys ∧ ws' = ws ++ keys.map .dropUpdateState)
      (sql (.deleteOtherStates authKeyId userId)) s ws held c := by
  refine safe_sql fun earlier since r ws' ls hearlier hsince hstmt others hothers => ?_
  obtain ⟨keys, hfinds, rfl, -⟩ := hstmt
  refine ⟨fun l hl => List.mem_append_left ls hl, keys, ?_, rfl⟩
  have hlater := agree_of_clear hothers ((engine hashint8).writeAll since ((engine hashint8).writeAll earlier s))
  refine OtherStates.later (fun ⟨k, u⟩ => ?_) hlater (List.mem_append_left ls hlock)
  have hagree := agree_of_clear hsince ((engine hashint8).writeAll earlier s)
  rw [hws, hws] at hfinds
  -- nobody else touches the states of the key
  rw [hfinds.mem_iff]
  · constructor
    · rintro ⟨st', hst', hk, hu⟩
      rw [Table.find_upsert, if_neg fun heq => hu (congrArg Prod.snd heq)] at hst'
      exact ⟨hk, hu, hst' ▸ rfl⟩
    · rintro ⟨hk, hu, hst'⟩
      rw [Table.find_upsert, if_neg fun heq => hu (congrArg Prod.snd heq)]
      exact (Option.isSome_iff_exists.mp hst').imp fun _ hst' => ⟨hst', hk, hu⟩
  · rintro ⟨k', u'⟩ st' - ⟨rfl, hu'⟩
    simp only [Table.find_upsert]
    rw [hagree.updateState k' u' hlock]
    exact ⟨rfl, not_touched_updateState hlock hsince u'⟩

/-- What a transaction has changed once it has set the baseline. -/
structure Baselined (hashint8 : HashInt8) (userId : Int64) (authKeyId : Arr 8) (now : Int) (s : Stores)
    (ws : List RowWrite) (held : List Lock) : Prop where
  identity : identityLock hashint8 authKeyId ∈ held
  counters : ∀ counter : Counter, counter.lock userId ∈ held
  legal : s.retainedThroughPts userId ≤ s.contiguousPts userId
  writes : ∃ st keys, OtherStates userId authKeyId s keys ∧
    baselineState (s.updateStates.find (authKeyId, userId)) (s.contiguousPts userId) (s.retainedThroughPts userId) now =
      some st ∧
    ws = counterWrites userId s ++ .putUpdateState (authKeyId, userId) st :: keys.map .dropUpdateState

theorem contiguousPts_of_agree {s' : Stores} (h : Agree hashint8 held s s')
    (hlock : Counter.watermark.lock userId ∈ held) : s'.contiguousPts userId = s.contiguousPts userId :=
  congrArg (Option.getD · 0) (h.watermark userId hlock)

theorem retainedThroughPts_of_agree {s' : Stores} (h : Agree hashint8 held s s')
    (hlock : Counter.retention.lock userId ∈ held) : s'.retainedThroughPts userId = s.retainedThroughPts userId :=
  congrArg (Option.getD · 0) (h.retention userId hlock)

theorem counterWrites_of_agree {s' : Stores} (h : Agree hashint8 held s s')
    (hlock : ∀ counter : Counter, counter.lock userId ∈ held) : counterWrites userId s' = counterWrites userId s := by
  unfold counterWrites
  rw [missing_of_agree h (.inr (hlock .watermark)), missing_of_agree h (.inr (hlock .retention))]

theorem Baselined.later {now : Int} {s' : Stores} (h : Baselined hashint8 userId authKeyId now s ws held)
    (hagree : Agree hashint8 held s s') : Baselined hashint8 userId authKeyId now s' ws held where
  identity := h.identity
  counters := h.counters
  legal := by
    rw [contiguousPts_of_agree hagree (h.counters .watermark),
      retainedThroughPts_of_agree hagree (h.counters .retention)]
    exact h.legal
  writes := by
    obtain ⟨st, keys, hkeys, hst, hws⟩ := h.writes
    refine ⟨st, keys, hkeys.later hagree h.identity, ?_, ?_⟩
    · rw [hagree.updateState authKeyId userId h.identity, contiguousPts_of_agree hagree (h.counters .watermark),
        retainedThroughPts_of_agree hagree (h.counters .retention)]
      exact hst
    · rw [counterWrites_of_agree hagree h.counters]
      exact hws

/-- The last statements of the baseline. -/
theorem safe_moveStates (now : Int) (hlock : identityLock hashint8 authKeyId ∈ held)
    (hcounters : ∀ counter : Counter, counter.lock userId ∈ held)
    (hlegal : s.retainedThroughPts userId ≤ s.contiguousPts userId) {e : Exn} :
    Safe (engine hashint8) (fun _ s ws held _ => Baselined hashint8 userId authKeyId now s ws held)
      (do
        let affected ← sql
          (.upsertUpdateState authKeyId userId (s.contiguousPts userId) (s.retainedThroughPts userId) now)
        if affected ≠ 1 then throw e
        sql (.deleteOtherStates authKeyId userId))
      s (counterWrites userId s) held c := by
  generalize hws : counterWrites userId s = ws
  generalize hpts : s.contiguousPts userId = pts at hlegal
  generalize hfloor : s.retainedThroughPts userId = floor at hlegal
  have hkeeps : ∀ t t', Agree hashint8 held t t' →
      counterWrites userId t = ws ∧ t.contiguousPts userId = pts ∧ t.retainedThroughPts userId = floor →
      counterWrites userId t' = ws ∧ t'.contiguousPts userId = pts ∧ t'.retainedThroughPts userId = floor := by
    rintro t t' h ⟨rfl, rfl, rfl⟩
    exact ⟨counterWrites_of_agree h hcounters, contiguousPts_of_agree h (hcounters .watermark),
      retainedThroughPts_of_agree h (hcounters .retention)⟩
  have hstates : ∀ t, ((engine hashint8).writeAll ws t).updateStates = t.updateStates := by
    intro t
    obtain ⟨w, r, hw⟩ := writeAll_counterWrites hashint8 userId s t
    rw [← hws, hw]
  -- The counters are locked, so what others do between the statements does not move them.
  refine Safe.bind ((safe_keeps ⟨hws, hpts, hfloor⟩ hkeeps (safe_upsertUpdateState hlock hstates)).mono ?_)
  rintro affected t ws₁ held₁ c₁ ⟨⟨hI, hsub⟩, rfl | ⟨st, hst, rfl⟩⟩
  · exact safe_throw _
  split
  · exact safe_throw _
  have hmoved : ∀ t, ((engine hashint8).writeAll (ws ++ [.putUpdateState (authKeyId, userId) st]) t).updateStates =
      t.updateStates.upsert (authKeyId, userId) st := by
    intro t
    rw [Engine.writeAll_append]
    exact congrArg (Table.upsert · (authKeyId, userId) st) (hstates t)
  refine (safe_keeps (I := fun t =>
      (counterWrites userId t = ws ∧ t.contiguousPts userId = pts ∧ t.retainedThroughPts userId = floor) ∧
        baselineState (t.updateStates.find (authKeyId, userId)) pts floor now = some st) ⟨hI, hst⟩ ?_
    (safe_deleteOtherStates (hsub _ hlock) hmoved)).mono ?_
  · rintro t t' h ⟨hI, hst⟩
    exact ⟨hkeeps t t' (h.anti hsub) hI, by rwa [h.updateState authKeyId userId (hsub _ hlock)]⟩
  · rintro _ t' ws' held' _ ⟨⟨⟨⟨rfl, rfl, rfl⟩, hst⟩, -⟩, hsub', keys, hkeys, rfl⟩
    have hheld : ∀ l ∈ held, l ∈ held' := fun l hl => hsub' l (hsub l hl)
    exact ⟨hheld _ hlock, fun counter => hheld _ (hcounters counter), hlegal, st, keys, hkeys, hst,
      List.append_assoc _ _ _⟩

/-- The baseline is set under the identity of the key and the rows of the account. -/
theorem safe_bindStates (now : Int) (hlock : identityLock hashint8 authKeyId ∈ held) :
    Safe (engine hashint8) (fun _ s ws held _ => Baselined hashint8 userId authKeyId now s ws held)
      (bindStates userId authKeyId now) s [] held c := by
  unfold bindStates
  have hwatermarks : Counter.watermark.SelectedBy hashint8 userId (.selectWatermark userId) fun r => r :=
    fun _ _ _ _ _ _ ⟨keys, hfinds, hrest⟩ => ⟨keys, _, hfinds, hrest⟩
  have hretentions : Counter.retention.SelectedBy hashint8 userId (.selectRetention userId) fun r => r :=
    fun _ _ _ _ _ _ ⟨keys, hfinds, hrest⟩ => ⟨keys, _, hfinds, hrest⟩
  refine safe_openCounter (fun _ => rfl) hwatermarks (I := fun _ => True) trivial (fun _ _ _ _ => trivial)
    fun s₁ held₁ c₁ _ hsub₁ hwatermark => ?_
  refine safe_openCounter (fun t => ?_) hretentions
    (I := fun t => Counter.watermark.missing userId t = Counter.watermark.missing userId s₁ ∧
      t.contiguousPts userId = s₁.contiguousPts userId) ⟨rfl, rfl⟩ ?_ ?_
  · obtain ⟨w, hw⟩ := writeAll_missing_watermark hashint8 userId s₁ t
    rw [List.nil_append, hw]
    rfl
  · rintro t t' h ⟨hmissing, hpts⟩
    exact ⟨(missing_of_agree h (.inr hwatermark)).trans hmissing, (contiguousPts_of_agree h hwatermark).trans hpts⟩
  -- Both counters are locked from here on, and the values that were read are the ones at the commit.
  rintro s₂ held₂ c₂ ⟨hmissing, hpts⟩ hsub₂ hretention
  have hcounters : ∀ counter : Counter, counter.lock userId ∈ held₂
    | .watermark => hsub₂ _ hwatermark
    | .retention => hretention
  have hlock₂ : identityLock hashint8 authKeyId ∈ held₂ := hsub₂ _ (hsub₁ _ hlock)
  rw [List.nil_append, ← hmissing,
    show (Counter.watermark.value userId s₁).getD 0 = s₂.contiguousPts userId from hpts.symm,
    show (Counter.retention.value userId s₂).getD 0 = s₂.retainedThroughPts userId from rfl]
  simp only
  split
  · exact safe_throw _
  · next hlegal => exact safe_moveStates now hlock₂ hcounters (Int.not_lt.mp hlegal)

end Baseline

/-! ## A login at once -/

section Login

variable {P : Primitives} {a : Authorization} {s : Stores} {c : List Authorization} {userId : Int64} {authKeyId : Arr 8}

/-- The stores at the time `now`. -/
def Stores.atTime (now : Int) (s : Stores) : Stores := atMoment { s.moment with now } s

theorem writeAll_dropUpdateStates (hashint8 : HashInt8) (keys : List (Arr 8 × Int64)) (s : Stores) :
    (engine hashint8).writeAll (keys.map .dropUpdateState) s =
      { s with updateStates := keys.foldl Table.erase s.updateStates } := by
  induction keys generalizing s with
  | nil => rfl
  | cons key keys ih => exact ih { s with updateStates := s.updateStates.erase key }

/-- The row that was missing, or the one that is there, put once more. -/
theorem writeAll_missing (counter : Counter) {s t : Stores} (h : counter.value userId t = counter.value userId s) :
    (engine hashint8).writeAll (counter.missing userId s) t =
      (counter.put userId ((counter.value userId s).getD 0)).apply t := by
  unfold Counter.missing
  cases hvalue : counter.value userId s with
  | none => rfl
  | some pts =>
    rw [hvalue] at h
    cases counter with
    | watermark => exact congrArg (fun w => { t with watermarks := w }) (Table.upsert_of_find h).symm
    | retention => exact congrArg (fun r => { t with retention := r }) (Table.upsert_of_find h).symm

theorem writeAll_counterWrites_self (userId : Int64) (s : Stores) :
    (engine hashint8).writeAll (counterWrites userId s) s =
      { s with
        watermarks := s.watermarks.upsert userId (s.contiguousPts userId)
        retention := s.retention.upsert userId (s.retainedThroughPts userId) } := by
  unfold counterWrites
  rw [Engine.writeAll_append, writeAll_missing .watermark rfl]
  exact writeAll_missing .retention rfl

/-- The baseline of `Bind`, with the state as the statement computes it. -/
theorem bindBaseline_of_baselineState {st : UpdateState}
    (hlegal : s.retainedThroughPts userId ≤ s.contiguousPts userId)
    (hst : baselineState (s.updateStates.find (authKeyId, userId)) (s.contiguousPts userId)
      (s.retainedThroughPts userId) s.moment.now = some st) :
    s.bindBaseline userId authKeyId = .ok
      { s with
        watermarks := s.watermarks.upsert userId (s.contiguousPts userId)
        retention := s.retention.upsert userId (s.retainedThroughPts userId)
        updateStates := (s.updateStates.upsert (authKeyId, userId) st).eraseBy fun r =>
          r.1.1 = authKeyId && r.1.2 ≠ userId } := by
  have hfloor : ¬(s.retention.find userId).getD 0 > (s.watermarks.find userId).getD 0 := Int.not_lt.mpr hlegal
  unfold Stores.bindBaseline
  simp only [bind, Except.bind, pure, Except.pure, throw, throwThe, MonadExceptOf.throw, if_neg hfloor]
  unfold baselineState at hst
  cases hold : s.updateStates.find (authKeyId, userId) with
  | none =>
    rw [hold] at hst
    cases hst
    rfl
  | some old =>
    rw [hold] at hst
    simp only at hst ⊢
    split at hst
    · next hpts =>
      cases hst
      exact if_pos hpts
    · cases hst

/-- The changes of the states, made at once. -/
theorem writeAll_moveStates (hashint8 : HashInt8) {keys : List (Arr 8 × Int64)}
    (hkeys : OtherStates userId authKeyId s keys) (st : UpdateState) :
    (engine hashint8).writeAll (.putUpdateState (authKeyId, userId) st :: keys.map .dropUpdateState) s =
      { s with
        updateStates := (s.updateStates.upsert (authKeyId, userId) st).eraseBy fun r =>
          r.1.1 = authKeyId && r.1.2 ≠ userId } := by
  have herase : keys.foldl Table.erase (s.updateStates.upsert (authKeyId, userId) st) =
      (s.updateStates.upsert (authKeyId, userId) st).eraseBy fun r => r.1.1 = authKeyId && r.1.2 ≠ userId := by
    rw [Table.foldl_erase]
    refine Table.eraseBy_congr fun ⟨key, st'⟩ hmem => ?_
    rw [← Table.find_eq_some_iff, Table.find_upsert] at hmem
    rw [Bool.eq_iff_iff]
    simp only [decide_eq_true_eq, Bool.and_eq_true, hkeys key]
    constructor
    · rintro ⟨hk, hu, -⟩
      exact ⟨hk, hu⟩
    · rintro ⟨hk, hu⟩
      rw [if_neg fun heq => hu (congrArg Prod.snd heq)] at hmem
      exact ⟨hk, hu, hmem ▸ rfl⟩
  exact (writeAll_dropUpdateStates hashint8 keys (RowWrite.apply (.putUpdateState (authKeyId, userId) st) s)).trans
    (congrArg (fun t => { s with updateStates := t }) herase)

/-- `Bind` sets the baseline that the statements have written. -/
theorem Baselined.bindBaseline {now : Int} (h : Baselined hashint8 userId authKeyId now s ws held) :
    (s.atTime now).bindBaseline userId authKeyId = .ok (((engine hashint8).writeAll ws s).atTime now) := by
  obtain ⟨st, keys, hkeys, hst, rfl⟩ := h.writes
  -- the counters are not among the states
  have hkeys' : OtherStates userId authKeyId ((engine hashint8).writeAll (counterWrites userId s) s) keys := by
    rw [writeAll_counterWrites_self]
    exact hkeys
  have hmoved := writeAll_moveStates hashint8 hkeys' st
  rw [writeAll_counterWrites_self] at hmoved
  rw [Engine.writeAll_append, writeAll_counterWrites_self, hmoved]
  exact bindBaseline_of_baselineState (s := s.atTime now) h.legal hst

theorem guarded_missing {counter : Counter} (hlock : counter.lock userId ∈ held) (s : Stores) :
    (engine hashint8).Guarded held (counter.missing userId s) := by
  intro w hw
  unfold Counter.missing at hw
  split at hw
  · obtain rfl := List.mem_singleton.mp hw
    cases counter with
    | watermark => exact hlock
    | retention => exact hlock
  · cases hw

theorem Baselined.guarded {now : Int} (h : Baselined hashint8 userId authKeyId now s ws held) :
    (engine hashint8).Guarded held ws := by
  obtain ⟨st, keys, hkeys, -, rfl⟩ := h.writes
  refine ((guarded_missing (h.counters .watermark) s).append (guarded_missing (h.counters .retention) s)).append ?_
  intro w hw
  rcases List.mem_cons.mp hw with rfl | hw
  · exact h.identity
  · obtain ⟨⟨k, u⟩, hkey, rfl⟩ := List.mem_map.mp hw
    obtain ⟨rfl, -⟩ := (hkeys (k, u)).mp hkey
    exact h.identity

/-- What a login commits: what `Bind` does at once to the stores of that moment. -/
def BindsAt (hashint8 : HashInt8) (P : Primitives) (a : Authorization) (s : Stores) (ws : List RowWrite) : Prop :=
  ∃ now, Stores.authorizationsBind P a (s.atTime now) = .ok ((), ((engine hashint8).writeAll ws s).atTime now)

theorem safe_bindTx (P : Primitives) (a : Authorization) (now : Int) :
    Safe (engine hashint8) (AtCommit (engine hashint8) fun s ws _ => BindsAt hashint8 P a s ws) (bindTx P a now)
      s [] [] c := by
  unfold bindTx
  simp only
  refine Safe.bind ((safe_bindChecks a.userId a.authKeyId).mono ?_)
  rintro layer s _ held c ⟨rfl, hlock, hguard⟩
  refine Safe.bind ((safe_keeps (I := fun s => s.bindGuard a.userId a.authKeyId = .ok layer) hguard
    (fun s s' h hguard => (bindGuard_of_agree h _ _).trans hguard) (safe_bindStates now hlock)).mono ?_)
  rintro ⟨⟩ s ws held' c ⟨⟨hguard, -⟩, hbaselined⟩
  -- The row of the login is written last, after what others did up to then and before what they do later.
  refine safe_sql fun earlier since r ws' ls hearlier hsince hstmt others hothers => ?_
  obtain ⟨rfl, rfl⟩ := hstmt
  have hagree := ((agree_of_clear hearlier s).trans (agree_of_clear hsince _)).trans
    (agree_of_clear (hothers.anti fun l hl => List.mem_append_left _ hl) _)
  have hbaselined := hbaselined.later hagree
  refine ⟨(hbaselined.guarded.mono fun l hl => List.mem_append_left _ hl).append ?_, now, ?_⟩
  · intro w hw
    obtain rfl := List.mem_singleton.mp hw
    exact List.mem_append_left _ hbaselined.identity
  · have hguard := (bindGuard_of_agree hagree a.userId a.authKeyId).trans hguard
    rw [Engine.writeAll_append]
    generalize (engine hashint8).writeAll others ((engine hashint8).writeAll since
      ((engine hashint8).writeAll earlier s)) = t at hbaselined hguard ⊢
    have hguard' : (t.atTime now).bindGuard a.userId a.authKeyId = .ok layer := hguard
    unfold Stores.authorizationsBind
    simp only [bind, Except.bind, pure, Except.pure, hguard', hbaselined.bindBaseline]
    rfl

end Login

end ShuzaGram.Store
