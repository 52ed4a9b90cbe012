import ShuzaGram.Infra.FiniteRuns
import ShuzaGram.Mtproto.Crypto.MessageCipher
import ShuzaGram.Store.LoginSessions

/-!
# Logins and revocations do not block each other for good

`Bind` takes the lock of the account, then its row, then the identity of the key; a revocation takes the identities of
its keys in the order of their hashes. Every other row that they lock belongs to an account or to a key that they have
locked by then. So no circle of sessions waits.
-/

namespace ShuzaGram.Store

open Infra Infra.Transactions Domain Mtproto.Crypto

/-- The order of the locks. The rows of a key stand under its identity, the watermark and the retention of an account
under the row of the account. -/
def loginLocks (hashint8 : HashInt8) : LockOrder Lock Nat where
  cover
    | .row (.authKey id) => identityLock hashint8 id
    | .row (.updateState key) => identityLock hashint8 key.1
    | .row (.authorization id) => identityLock hashint8 id
    | .row (.watermark userId) | .row (.retention userId) => .row (.user userId)
    | l => l
  rank
    | .user _ => 0
    | .row _ => 1
    | .identity lockKey => (lockKey.toInt + 2 ^ 31).toNat + 2

/-- Parts of transactions that take their locks in this order. -/
abbrev InOrder {α : Type} (hashint8 : HashInt8) (Q : α → List Lock → Prop) (p : StmtTx α) (held : List Lock) : Prop :=
  Ordered (engine hashint8) (loginLocks hashint8) Q p held

variable {hashint8 : HashInt8} {held : List Lock} {α : Type}

/-- A statement, and what follows it. -/
theorem inOrder_sql {stmt : Stmt} {f : stmt.Res → StmtTx α} {Q : α → List Lock → Prop}
    (h : ∀ seen since now r ws ls, stmt.Does hashint8 seen since now r ws ls →
      (loginLocks hashint8).Admits held ls ∧ InOrder hashint8 Q (f r) (held ++ ls)) :
    InOrder hashint8 Q (sql stmt >>= f) held := Ordered.bind (ordered_sql h)

/-- A statement that locks nothing. -/
theorem inOrder_select {stmt : Stmt} {f : stmt.Res → StmtTx α} {Q : α → List Lock → Prop}
    (hnone : ∀ seen since now r ws ls, stmt.Does hashint8 seen since now r ws ls → ls = [])
    (h : ∀ r, InOrder hashint8 Q (f r) held) : InOrder hashint8 Q (sql stmt >>= f) held := by
  refine inOrder_sql fun seen since now r ws ls hstmt => ?_
  obtain rfl := hnone _ _ _ _ _ _ hstmt
  rw [List.append_nil]
  exact ⟨LockOrder.admits_nil _ _, h r⟩

/-- A statement whose locks stand under others that are held. -/
theorem inOrder_covered {stmt : Stmt} {f : stmt.Res → StmtTx α} {Q : α → List Lock → Prop}
    (hcovered : ∀ seen since now r ws ls, stmt.Does hashint8 seen since now r ws ls →
      ∀ l ∈ ls, (loginLocks hashint8).cover l ∈ held)
    (h : ∀ seen since now r ws ls, stmt.Does hashint8 seen since now r ws ls →
      ∀ held', (∀ l ∈ held, l ∈ held') → InOrder hashint8 Q (f r) held') : InOrder hashint8 Q (sql stmt >>= f) held :=
  inOrder_sql fun seen since now r ws ls hstmt =>
    ⟨LockOrder.admits_of_covered (hcovered seen since now r ws ls hstmt),
      h seen since now r ws ls hstmt _ fun _ hl => List.mem_append_left ls hl⟩

/-! ## Identities -/

/-- All that is held comes before the identities. -/
def BeforeIdentities (hashint8 : HashInt8) (held : List Lock) : Prop :=
  ∀ m ∈ held, (loginLocks hashint8).cover m = m → (loginLocks hashint8).rank m < 2

theorem rank_identity_lt {a b : Int32} (h : a < b) :
    (loginLocks hashint8).rank (.identity a) < (loginLocks hashint8).rank (.identity b) := by
  have hlt : a.toInt < b.toInt := Int32.lt_iff_toInt_lt.mp h
  have hlo := a.le_toInt
  simp only [loginLocks]
  omega

/-- The loop takes the identities from low to high. -/
theorem inOrder_lockIdentities : ∀ {lockKeys : List Int32} {held : List Lock}, lockKeys.Pairwise (· < ·) →
    (∀ k ∈ lockKeys, ∀ m ∈ held, (loginLocks hashint8).cover m = m →
      (loginLocks hashint8).rank m < (loginLocks hashint8).rank (.identity k)) →
    InOrder hashint8 (fun _ held' => (∀ l ∈ held, l ∈ held') ∧ ∀ k ∈ lockKeys, Lock.identity k ∈ held')
      (lockIdentities lockKeys) held
  | [], held, _, _ => ⟨fun _ hl => hl, fun _ h => absurd h List.not_mem_nil⟩
  | k :: ks, held, hsorted, hbehind => by
    obtain ⟨hfirst, hrest⟩ := List.pairwise_cons.mp hsorted
    refine inOrder_sql fun seen since now r ws ls hstmt => ?_
    obtain ⟨-, rfl⟩ := hstmt
    refine ⟨LockOrder.admits_single rfl (hbehind k List.mem_cons_self), ?_⟩
    -- the next identities come behind this one too
    refine (inOrder_lockIdentities hrest fun k' hk' m hm hmain => ?_).mono ?_
    · rcases List.mem_append.mp hm with hm | hm
      · exact hbehind k' (List.mem_cons_of_mem k hk') m hm hmain
      · rw [List.mem_singleton.mp hm]
        exact rank_identity_lt (hfirst k' hk')
    · rintro _ held' ⟨hkeeps, hall⟩
      refine ⟨fun l hl => hkeeps l (List.mem_append_left _ hl), List.forall_mem_cons.mpr ⟨?_, hall⟩⟩
      exact hkeeps _ (List.mem_append_right _ List.mem_cons_self)

/-- The query gives every hash once, from low to high. -/
theorem pairwise_lockKeys (lockKeys : List Int32) : lockKeys.dedup.mergeSort.Pairwise (· < ·) := by
  have hle : lockKeys.dedup.mergeSort.Pairwise fun a b => decide (a ≤ b) = true := by
    refine List.pairwise_mergeSort (fun a b c hab hbc => ?_) (fun a b => ?_) _
    · exact decide_eq_true (Int32.le_trans (of_decide_eq_true hab) (of_decide_eq_true hbc))
    · rcases Int32.le_total a b with h | h <;> simp [h]
  have hne : lockKeys.dedup.mergeSort.Pairwise (· ≠ ·) :=
    (List.mergeSort_perm _ _).nodup_iff.mpr (List.nodup_dedup lockKeys)
  exact (hle.and hne).imp fun ⟨h, h'⟩ => Int32.lt_of_le_of_ne (of_decide_eq_true h) h'

/-- What a transaction holds behind `LockPermanentAuthIdentities`. -/
structure HoldsIdentities (hashint8 : HashInt8) (held : List Lock) (permIds : List (Arr 8)) (held' : List Lock) : Prop where
  keeps : ∀ l ∈ held, l ∈ held'
  identities : ∀ id ∈ permIds, identityLock hashint8 id ∈ held'

theorem inOrder_lockPermanentAuthIdentities {permIds : List (Arr 8)} (h : BeforeIdentities hashint8 held) :
    InOrder hashint8 (fun _ => HoldsIdentities hashint8 held permIds) (lockPermanentAuthIdentities permIds) held := by
  unfold lockPermanentAuthIdentities
  split
  · next hnil =>
    subst hnil
    exact ⟨fun _ hl => hl, fun _ hid => absurd hid List.not_mem_nil⟩
  · refine inOrder_sql fun seen since now r ws ls hstmt => ?_
    obtain ⟨rfl, -, rfl⟩ := hstmt
    rw [List.append_nil]
    refine ⟨LockOrder.admits_nil _ _, ?_⟩
    refine (inOrder_lockIdentities (pairwise_lockKeys _) fun k _ m hm hmain => ?_).mono ?_
    · have hlt := h m hm hmain
      simp only [loginLocks] at hlt ⊢
      omega
    · rintro _ held' ⟨hkeeps, hall⟩
      refine ⟨hkeeps, fun id hid => hall _ ?_⟩
      rw [List.mem_mergeSort, List.mem_dedup]
      exact List.mem_map_of_mem hid

/-! ## Bind -/

/-- What stands behind the checks of `Bind`. -/
structure Checked (hashint8 : HashInt8) (userId : Int64) (authKeyId : Arr 8) (held : List Lock) : Prop where
  user : .row (.user userId) ∈ held
  identity : identityLock hashint8 authKeyId ∈ held

theorem Checked.mono {userId : Int64} {authKeyId : Arr 8} {held' : List Lock} (h : Checked hashint8 userId authKeyId held)
    (hsub : ∀ l ∈ held, l ∈ held') : Checked hashint8 userId authKeyId held' :=
  ⟨hsub _ h.user, hsub _ h.identity⟩

theorem inOrder_bindChecks (userId : Int64) (authKeyId : Arr 8) :
    InOrder hashint8 (fun _ => Checked hashint8 userId authKeyId) (bindChecks userId authKeyId) [] := by
  have huser : InOrder hashint8 (fun _ held => ∀ l ∈ held, l = .user userId) (lockUserForUpdate userId) [] := by
    unfold lockUserForUpdate
    split
    · exact fun _ hl => absurd hl List.not_mem_nil
    · refine ordered_sql fun seen since now r ws ls hstmt => ?_
      obtain ⟨-, rfl⟩ := hstmt
      exact ⟨LockOrder.admits_single rfl fun _ hm => absurd hm List.not_mem_nil, fun l hl => by simpa using hl⟩
  refine Ordered.bind (huser.mono fun _ held hheld => inOrder_sql fun seen since now r ws ls hstmt => ?_)
  obtain ⟨keys, hfinds, rfl, -, rfl⟩ := hstmt
  rcases hfinds.eq_nil_or_single with rfl | ⟨rfl, row, hrow⟩
  · exact ⟨LockOrder.admits_nil _ _, trivial⟩
  refine ⟨LockOrder.admits_single rfl fun m hm _ => by rw [hheld m hm]; exact Nat.one_pos, ?_⟩
  rw [List.filterMap_cons_some (by rw [hrow]; rfl)]
  simp only
  split
  · exact trivial
  · have hbefore : BeforeIdentities hashint8 (held ++ [userId].map (Lock.row ∘ .user)) := by
      intro m hm _
      rcases List.mem_append.mp hm with hm | hm
      · rw [hheld m hm]
        exact Nat.two_pos
      · rw [List.mem_singleton.mp hm]
        exact Nat.one_lt_two
    refine Ordered.bind ((inOrder_lockPermanentAuthIdentities hbefore).mono fun _ held₁ hheld₁ => ?_)
    have hchecked : Checked hashint8 userId authKeyId held₁ :=
      ⟨hheld₁.keeps _ (List.mem_append_right _ List.mem_cons_self), hheld₁.identities _ List.mem_cons_self⟩
    refine inOrder_covered (fun seen since now r ws ls hstmt => ?_) fun _ _ _ r _ _ _ held₂ hsub => ?_
    · obtain ⟨keys, hfinds, -, -, rfl⟩ := hstmt
      intro l hl
      obtain ⟨k, hk, rfl⟩ := List.mem_map.mp hl
      obtain ⟨_, _, rfl⟩ := hfinds.current k hk
      exact hchecked.identity
    · cases r with
      | nil => exact trivial
      | cons key rest =>
        simp only
        split
        · exact trivial
        · split
          · exact trivial
          · exact hchecked.mono hsub

/-- A statement about the rows of an account and a key that have been checked. -/
theorem inOrder_checked {userId : Int64} {authKeyId : Arr 8} (hheld : Checked hashint8 userId authKeyId held)
    {stmt : Stmt} {f : stmt.Res → StmtTx α} {Q : α → List Lock → Prop}
    (hcovered : ∀ seen since now r ws ls, stmt.Does hashint8 seen since now r ws ls → ∀ l ∈ ls,
      (loginLocks hashint8).cover l = .row (.user userId) ∨ (loginLocks hashint8).cover l = identityLock hashint8 authKeyId)
    (h : ∀ r held', Checked hashint8 userId authKeyId held' → InOrder hashint8 Q (f r) held') :
    InOrder hashint8 Q (sql stmt >>= f) held := by
  refine inOrder_covered (fun seen since now r ws ls hstmt l hl => ?_) fun _ _ _ r _ _ _ held' hsub =>
    h r held' (hheld.mono hsub)
  rcases hcovered seen since now r ws ls hstmt l hl with hcover | hcover
  · rw [hcover]
    exact hheld.user
  · rw [hcover]
    exact hheld.identity

theorem inOrder_firstRow {rows : List Int} {f : Int → StmtTx α} {Q : α → List Lock → Prop}
    (h : ∀ row, InOrder hashint8 Q (f row) held) : InOrder hashint8 Q (firstRow rows >>= f) held := by
  cases rows with
  | nil => exact trivial
  | cons row rows => exact h row

theorem inOrder_bindStates {userId : Int64} {authKeyId : Arr 8} (hheld : Checked hashint8 userId authKeyId held)
    (now : Int) :
    InOrder hashint8 (fun _ => Checked hashint8 userId authKeyId) (bindStates userId authKeyId now) held := by
  -- the watermark and the retention are inserted and then selected
  have hinsert : ∀ {stmt : Stmt}, stmt = .insertWatermark userId ∨ stmt = .insertRetention userId →
      ∀ seen since now r ws ls, stmt.Does hashint8 seen since now r ws ls → ∀ l ∈ ls,
        (loginLocks hashint8).cover l = .row (.user userId) ∨
          (loginLocks hashint8).cover l = identityLock hashint8 authKeyId := by
    rintro stmt (rfl | rfl) seen since now r ws ls hstmt l hl
    all_goals
      simp only [Stmt.Does] at hstmt
      split at hstmt
      · obtain ⟨-, rfl⟩ := hstmt
        rw [List.mem_singleton.mp hl]
        exact .inl rfl
      · obtain ⟨-, rfl⟩ := hstmt
        exact absurd hl List.not_mem_nil
  refine inOrder_checked hheld (hinsert (.inl rfl)) fun _ held₁ h₁ => ?_
  refine inOrder_checked h₁ ?_ fun rows held₂ h₂ => inOrder_firstRow fun currentPts => ?_
  · rintro seen since now r ws ls ⟨keys, hfinds, -, -, rfl⟩ l hl
    obtain ⟨k, hk, rfl⟩ := List.mem_map.mp hl
    obtain ⟨_, _, rfl⟩ := hfinds.current k hk
    exact .inl rfl
  refine inOrder_checked h₂ (hinsert (.inr rfl)) fun _ held₃ h₃ => ?_
  refine inOrder_checked h₃ ?_ fun rows held₄ h₄ => inOrder_firstRow fun retainedFloor => ?_
  · rintro seen since now r ws ls ⟨keys, hfinds, -, -, rfl⟩ l hl
    obtain ⟨k, hk, rfl⟩ := List.mem_map.mp hl
    obtain ⟨_, _, rfl⟩ := hfinds.current k hk
    exact .inl rfl
  split
  · exact trivial
  refine inOrder_checked h₄ ?_ fun affected held₅ h₅ => ?_
  · rintro seen since now r ws ls ⟨rfl, -⟩ l hl
    rw [List.mem_singleton.mp hl]
    exact .inr rfl
  split
  · exact trivial
  refine ordered_sql fun seen since now r ws ls hstmt => ?_
  obtain ⟨keys, hfinds, -, rfl⟩ := hstmt
  refine ⟨LockOrder.admits_of_covered fun l hl => ?_, h₅.mono fun l hl => List.mem_append_left _ hl⟩
  obtain ⟨key, hkey, rfl⟩ := List.mem_map.mp hl
  obtain ⟨_, _, rfl, -⟩ := hfinds.current key hkey
  exact h₅.identity

theorem inOrder_bindTx (P : Primitives) (a : Authorization) (now : Int) :
    InOrder hashint8 (fun _ _ => True) (bindTx P a now) [] := by
  refine Ordered.bind ((inOrder_bindChecks a.userId a.authKeyId).mono fun layer held hheld => ?_)
  refine Ordered.bind ((inOrder_bindStates hheld now).mono fun _ held hheld => ?_)
  refine ordered_sql fun seen since now r ws ls hstmt => ?_
  obtain ⟨-, rfl⟩ := hstmt
  refine ⟨LockOrder.admits_of_covered fun l hl => ?_, trivial⟩
  rw [List.mem_singleton.mp hl]
  exact hheld.identity

/-! ## Revocations -/

/-- The identities of the keys are held. -/
def HoldsAll (hashint8 : HashInt8) (keys : List (Arr 8)) (held : List Lock) : Prop :=
  ∀ k ∈ keys, identityLock hashint8 k ∈ held

/-- A statement about rows of such keys. -/
theorem inOrder_held {keys : List (Arr 8)} (hheld : HoldsAll hashint8 keys held) {stmt : Stmt}
    {f : stmt.Res → StmtTx α} {Q : α → List Lock → Prop}
    (hcovered : ∀ seen since now r ws ls, stmt.Does hashint8 seen since now r ws ls → ∀ l ∈ ls,
      ∃ k ∈ keys, (loginLocks hashint8).cover l = identityLock hashint8 k)
    (h : ∀ seen since now r ws ls, stmt.Does hashint8 seen since now r ws ls → ∀ held', HoldsAll hashint8 keys held' →
      InOrder hashint8 Q (f r) held') : InOrder hashint8 Q (sql stmt >>= f) held := by
  refine inOrder_covered (fun seen since now r ws ls hstmt l hl => ?_) fun seen since now r ws ls hstmt held' hsub =>
    h seen since now r ws ls hstmt held' fun k hk => hsub _ (hheld k hk)
  obtain ⟨k, hk, hcover⟩ := hcovered seen since now r ws ls hstmt l hl
  rw [hcover]
  exact hheld k hk

theorem covered_lockAuthKeys (authKeyIds : List (Arr 8)) : ∀ seen since now r ws ls,
    (Stmt.lockAuthKeys authKeyIds).Does hashint8 seen since now r ws ls → ∀ l ∈ ls,
      ∃ k ∈ authKeyIds, (loginLocks hashint8).cover l = identityLock hashint8 k := by
  rintro seen since now r ws ls ⟨hfinds, -, rfl⟩ l hl
  obtain ⟨k, hk, rfl⟩ := List.mem_map.mp hl
  obtain ⟨_, _, hmem⟩ := hfinds.current k hk
  exact ⟨k, hmem, rfl⟩

theorem covered_deleteStates (authKeyIds : List (Arr 8)) : ∀ seen since now r ws ls,
    (Stmt.deleteStates authKeyIds).Does hashint8 seen since now r ws ls → ∀ l ∈ ls,
      ∃ k ∈ authKeyIds, (loginLocks hashint8).cover l = identityLock hashint8 k := by
  rintro seen since now r ws ls ⟨keys, hfinds, -, rfl⟩ l hl
  obtain ⟨key, hkey, rfl⟩ := List.mem_map.mp hl
  obtain ⟨_, _, hmem⟩ := hfinds.current key hkey
  exact ⟨key.1, hmem, rfl⟩

theorem covered_deleteAuthorizations (authKeyIds : List (Arr 8)) : ∀ seen since now r ws ls,
    (Stmt.deleteAuthorizations authKeyIds).Does hashint8 seen since now r ws ls → ∀ l ∈ ls,
      ∃ k ∈ authKeyIds, (loginLocks hashint8).cover l = identityLock hashint8 k := by
  rintro seen since now r ws ls ⟨keys, hfinds, -, -, rfl⟩ l hl
  obtain ⟨k, hk, rfl⟩ := List.mem_map.mp hl
  obtain ⟨_, _, hmem⟩ := hfinds.current k hk
  exact ⟨k, hmem, rfl⟩

theorem beforeIdentities_nil : BeforeIdentities hashint8 [] := fun _ h => absurd h List.not_mem_nil

theorem inOrder_revokeByHashTx (userId hash : Int64) :
    InOrder hashint8 (fun _ _ => True) (revokeByHashTx userId hash) [] := by
  show InOrder hashint8 (fun _ _ => True) (sql (.selectByHash userId hash) >>= _) []
  refine inOrder_select (fun seen since now r ws ls hstmt => hstmt.2.2) fun rows => ?_
  cases rows with
  | nil => exact trivial
  | cons candidate rows =>
    refine Ordered.bind ((inOrder_lockPermanentAuthIdentities beforeIdentities_nil).mono fun _ held hheld => ?_)
    have hall : HoldsAll hashint8 [candidate] held := hheld.identities
    refine inOrder_held hall (covered_lockAuthKeys _) fun _ _ _ locked _ _ _ held₁ h₁ => ?_
    cases locked with
    | nil => exact trivial
    | cons _ _ =>
      refine inOrder_held h₁ ?_ fun _ _ _ revalidated _ _ _ held₂ h₂ => ?_
      · rintro seen since now r ws ls ⟨keys, hfinds, -, -, rfl⟩ l hl
        obtain ⟨k, hk, rfl⟩ := List.mem_map.mp hl
        obtain ⟨_, _, rfl, -⟩ := hfinds.current k hk
        exact ⟨k, List.mem_cons_self, rfl⟩
      · cases revalidated with
        | nil => exact trivial
        | cons a _ =>
          refine inOrder_held h₂ (covered_deleteStates _) fun _ _ _ _ _ _ _ held₃ h₃ => ?_
          refine inOrder_held h₃ (covered_deleteAuthorizations _) fun _ _ _ deleted _ _ _ held₄ h₄ => ?_
          split
          · exact trivial
          · exact trivial

theorem inOrder_revokeByUserExceptTx (userId : Int64) (keep : Arr 8) :
    InOrder hashint8 (fun _ _ => True) (revokeByUserExceptTx userId keep) [] := by
  show InOrder hashint8 (fun _ _ => True) (sql (.selectByUserExcept userId keep) >>= _) []
  refine inOrder_select (fun seen since now r ws ls hstmt => hstmt.2.2.2) fun candidates => ?_
  split
  · exact trivial
  refine Ordered.bind ((inOrder_lockPermanentAuthIdentities beforeIdentities_nil).mono fun _ held hheld => ?_)
  have hall : HoldsAll hashint8 candidates held := hheld.identities
  refine inOrder_held hall (covered_lockAuthKeys _) fun _ _ _ _ _ _ _ held₁ h₁ => ?_
  refine inOrder_held h₁ ?_ fun _ _ _ out _ _ hstmt held₂ h₂ => ?_
  · rintro seen since now r ws ls ⟨keys, hfinds, -, -, rfl⟩ l hl
    obtain ⟨k, hk, rfl⟩ := List.mem_map.mp hl
    obtain ⟨_, _, hmem, -⟩ := hfinds.current k hk
    exact ⟨k, hmem, rfl⟩
  -- what is deleted is among the candidates
  have htargets : HoldsAll hashint8 (out.map Authorization.authKeyId) held₂ := by
    obtain ⟨keys, hfinds, rfl, -, -⟩ := hstmt
    intro k hk
    obtain ⟨a, ha, rfl⟩ := List.mem_map.mp hk
    obtain ⟨k', hk', hrow⟩ := List.mem_filterMap.mp ha
    obtain ⟨row, hfind, hmem, -⟩ := hfinds.current k' hk'
    rw [hfind] at hrow
    cases hrow
    exact h₂ k' hmem
  show InOrder hashint8 (fun _ _ => True) (if out = [] then _ else _) held₂
  split
  · exact trivial
  refine inOrder_held htargets (covered_deleteStates _) fun _ _ _ _ _ _ _ held₃ h₃ => ?_
  refine inOrder_held h₃ (covered_deleteAuthorizations _) fun _ _ _ deleted _ _ _ held₄ h₄ => ?_
  split
  · exact trivial
  · exact trivial

theorem inOrder_loginCall (P : Primitives) (call : LoginCall) (now : Int) :
    InOrder hashint8 (fun _ _ => True) (call.tx P now) [] := by
  cases call with
  | bind a => exact inOrder_bindTx P a now
  | revokeByHash userId hash => exact inOrder_revokeByHashTx userId hash
  | revokeByUserExcept userId keep => exact inOrder_revokeByUserExceptTx userId keep

/-! ## Answers -/

/-- The rows that nobody has written since are the same. -/
structure SameRows (since : List RowWrite) (s s' : Stores) : Prop where
  users : s'.users = s.users
  authKeys : s'.authKeys = s.authKeys
  watermark : ∀ u, ¬Touched since (.watermark u) → s'.watermarks.find u = s.watermarks.find u
  retention : ∀ u, ¬Touched since (.retention u) → s'.retention.find u = s.retention.find u
  updateState : ∀ key, ¬Touched since (.updateState key) → s'.updateStates.find key = s.updateStates.find key
  authorization : ∀ k, ¬Touched since (.authorization k) → s'.authorizations.find k = s.authorizations.find k

namespace SameRows

variable {since : List RowWrite} {s s' s'' : Stores}

theorem refl (since : List RowWrite) (s : Stores) : SameRows since s s :=
  ⟨rfl, rfl, fun _ _ => rfl, fun _ _ => rfl, fun _ _ => rfl, fun _ _ => rfl⟩

theorem trans (h : SameRows since s s') (h' : SameRows since s' s'') : SameRows since s s'' where
  users := h'.users.trans h.users
  authKeys := h'.authKeys.trans h.authKeys
  watermark u hu := (h'.watermark u hu).trans (h.watermark u hu)
  retention u hu := (h'.retention u hu).trans (h.retention u hu)
  updateState key hkey := (h'.updateState key hkey).trans (h.updateState key hkey)
  authorization k hk := (h'.authorization k hk).trans (h.authorization k hk)

/-- One of the writes of others. -/
theorem apply_other {w : RowWrite} (hw : w ∈ since) (s : Stores) : SameRows since s (w.apply s) := by
  have hother : ∀ row, ¬Touched since row → row ≠ w.row := fun row hrow heq => hrow ⟨w, hw, heq.symm⟩
  have hrefl := refl since s
  cases w with
  | putWatermark u pts =>
    exact { hrefl with
      watermark := fun u' hu' => Table.find_upsert_of_ne (fun heq => hother _ hu' (congrArg Row.watermark heq)) pts }
  | putRetention u pts =>
    exact { hrefl with
      retention := fun u' hu' => Table.find_upsert_of_ne (fun heq => hother _ hu' (congrArg Row.retention heq)) pts }
  | putUpdateState key state =>
    exact { hrefl with
      updateState := fun k hk => Table.find_upsert_of_ne (fun heq => hother _ hk (congrArg Row.updateState heq)) state }
  | dropUpdateState key =>
    exact { hrefl with
      updateState := fun k hk => Table.find_erase_of_ne fun heq => hother _ hk (congrArg Row.updateState heq) }
  | putAuthorization k' a =>
    exact { hrefl with
      authorization := fun k hk => Table.find_upsert_of_ne (fun heq => hother _ hk (congrArg Row.authorization heq)) a }
  | dropAuthorization k' =>
    exact { hrefl with
      authorization := fun k hk => Table.find_erase_of_ne fun heq => hother _ hk (congrArg Row.authorization heq) }

/-- A write of the transaction itself, on top of both. -/
theorem apply_own (h : SameRows since s s') (w : RowWrite) : SameRows since (w.apply s) (w.apply s') := by
  cases w with
  | putWatermark u pts =>
    exact { h with
      watermark := fun u' hu' => by simp only [RowWrite.apply, Table.find_upsert, h.watermark u' hu'] }
  | putRetention u pts =>
    exact { h with
      retention := fun u' hu' => by simp only [RowWrite.apply, Table.find_upsert, h.retention u' hu'] }
  | putUpdateState key state =>
    exact { h with
      updateState := fun k hk => by simp only [RowWrite.apply, Table.find_upsert, h.updateState k hk] }
  | dropUpdateState key =>
    exact { h with
      updateState := fun k hk => by simp only [RowWrite.apply, Table.find_erase, h.updateState k hk] }
  | putAuthorization k' a =>
    exact { h with
      authorization := fun k hk => by simp only [RowWrite.apply, Table.find_upsert, h.authorization k hk] }
  | dropAuthorization k' =>
    exact { h with
      authorization := fun k hk => by simp only [RowWrite.apply, Table.find_erase, h.authorization k hk] }

theorem writeAll_other {ws : List RowWrite} (hws : ∀ w ∈ ws, w ∈ since) (s : Stores) :
    SameRows since s ((engine hashint8).writeAll ws s) := by
  induction ws generalizing s with
  | nil => exact refl since s
  | cons w ws ih =>
    have hfirst := apply_other (hws w List.mem_cons_self) s
    exact hfirst.trans (ih (fun w' hw' => hws w' (List.mem_cons_of_mem _ hw')) (w.apply s))

theorem writeAll_own (h : SameRows since s s') (own : List RowWrite) :
    SameRows since ((engine hashint8).writeAll own s) ((engine hashint8).writeAll own s') := by
  induction own generalizing s s' with
  | nil => exact h
  | cons w own ih => exact ih (h.apply_own w)

end SameRows

theorem exists_finds_rows {κ ρ : Type} [DecidableEq κ] (p : κ → ρ → Prop) {t t' : Table κ ρ} {q : κ → Prop}
    (hsame : ∀ k, ¬q k → t'.find k = t.find k) : ∃ keys, Finds p t.find t'.find q keys :=
  exists_finds p (fun _ _ hrow => Table.mem_keys.mpr (Option.isSome_iff_exists.mpr ⟨_, hrow⟩)) hsame

/-- Every statement of a login or a revocation has an answer. -/
theorem answers_engine (hashint8 : HashInt8) : (engine hashint8).Answers := by
  intro stmt own snapshot since
  have h : SameRows since ((engine hashint8).writeAll own snapshot)
      ((engine hashint8).writeAll own ((engine hashint8).writeAll since snapshot)) :=
    (SameRows.writeAll_other (fun _ hw => hw) snapshot).writeAll_own own
  generalize (engine hashint8).writeAll own snapshot = seen at h
  generalize (engine hashint8).writeAll own ((engine hashint8).writeAll since snapshot) = now at h
  have hauthorizations := fun p => exists_finds_rows p h.authorization
  have hstates := fun p => exists_finds_rows p h.updateState
  cases stmt with
  | lockUser _ | lockIdentity _ | upsertAuthorization _ => exact ⟨(), _, _, rfl, rfl⟩
  | identityKeys _ => exact ⟨_, _, _, rfl, rfl, rfl⟩
  | selectUser userId =>
    obtain ⟨keys, hkeys⟩ := exists_finds_rows (fun k _ => k = userId) (q := Touched since ∘ .user) fun k _ =>
      congrArg (Table.find · k) h.users
    exact ⟨_, _, _, keys, hkeys, rfl, rfl, rfl⟩
  | selectAuthKey authKeyId =>
    obtain ⟨keys, hkeys⟩ := exists_finds_rows (fun k _ => k = authKeyId) (q := Touched since ∘ .authKey) fun k _ =>
      congrArg (Table.find · k) h.authKeys
    exact ⟨_, _, _, keys, hkeys, rfl, rfl, rfl⟩
  | lockAuthKeys authKeyIds =>
    obtain ⟨keys, hkeys⟩ := exists_finds_rows (fun k _ => k ∈ authKeyIds) (q := Touched since ∘ .authKey) fun k _ =>
      congrArg (Table.find · k) h.authKeys
    exact ⟨keys, _, _, hkeys, rfl, rfl⟩
  | insertWatermark userId | insertRetention userId =>
    simp only [engine, Stmt.Does]
    split
    · exact ⟨(), _, _, rfl, rfl⟩
    · exact ⟨(), _, _, rfl, rfl⟩
  | selectWatermark userId =>
    obtain ⟨keys, hkeys⟩ := exists_finds_rows (fun k _ => k = userId) h.watermark
    exact ⟨_, _, _, keys, hkeys, rfl, rfl, rfl⟩
  | selectRetention userId =>
    obtain ⟨keys, hkeys⟩ := exists_finds_rows (fun k _ => k = userId) h.retention
    exact ⟨_, _, _, keys, hkeys, rfl, rfl, rfl⟩
  | upsertUpdateState authKeyId userId pts floor t =>
    simp only [engine, Stmt.Does]
    split
    · exact ⟨_, _, _, rfl, rfl, rfl⟩
    · exact ⟨_, _, _, rfl, rfl, rfl⟩
  | deleteOtherStates authKeyId userId =>
    obtain ⟨keys, hkeys⟩ := hstates fun k _ => k.1 = authKeyId ∧ k.2 ≠ userId
    exact ⟨(), _, _, keys, hkeys, rfl, rfl⟩
  | selectByHash userId hash =>
    obtain ⟨keys, hkeys⟩ := exists_finds_rows (fun _ a => a.userId = userId ∧ a.hash = hash) (t := seen.authorizations)
      (q := fun _ => False) fun _ _ => rfl
    exact ⟨keys, _, _, hkeys, rfl, rfl⟩
  | selectByUserExcept userId keep =>
    obtain ⟨keys, hkeys⟩ := exists_finds_rows (fun k a => a.userId = userId ∧ k ≠ keep) (t := seen.authorizations)
      (q := fun _ => False) fun _ _ => rfl
    let le (k k' : Arr 8) : Bool := authKeyIdToInt64 k ≤ authKeyIdToInt64 k'
    have hsorted : (keys.mergeSort le).Pairwise fun k k' => authKeyIdToInt64 k ≤ authKeyIdToInt64 k' := by
      refine (List.pairwise_mergeSort (fun a b c hab hbc => ?_) (fun a b => ?_) keys).imp of_decide_eq_true
      · exact decide_eq_true (Int64.le_trans (of_decide_eq_true hab) (of_decide_eq_true hbc))
      · rcases Int64.le_total (authKeyIdToInt64 a) (authKeyIdToInt64 b) with h | h <;> simp [h]
    exact ⟨_, _, _, hkeys.perm (List.mergeSort_perm keys le), hsorted, rfl, rfl⟩
  | revalidateByHash authKeyId userId hash =>
    obtain ⟨keys, hkeys⟩ := hauthorizations fun k a => k = authKeyId ∧ a.userId = userId ∧ a.hash = hash
    exact ⟨_, _, _, keys, hkeys, rfl, rfl, rfl⟩
  | revalidateByUser userId keep authKeyIds =>
    obtain ⟨keys, hkeys⟩ := hauthorizations fun k a => k ∈ authKeyIds ∧ a.userId = userId ∧ k ≠ keep
    exact ⟨_, _, _, keys, hkeys, rfl, rfl, rfl⟩
  | deleteStates authKeyIds =>
    obtain ⟨keys, hkeys⟩ := hstates fun k _ => k.1 ∈ authKeyIds
    exact ⟨(), _, _, keys, hkeys, rfl, rfl⟩
  | deleteAuthorizations authKeyIds =>
    obtain ⟨keys, hkeys⟩ := hauthorizations fun k _ => k ∈ authKeyIds
    exact ⟨_, _, _, keys, hkeys, rfl, rfl, rfl⟩

/-! ## Every interleaving -/

variable {ι : Type} [DecidableEq ι]

/-- The stores and the sessions of logins and revocations. -/
abbrev LoginWorld (ι : Type) := World ι Stores RowWrite Lock Stmt (List Authorization) Stmt.Res Exn

/-- **Logins and revocations never wait for each other in a circle,** however many there are and however their
statements interleave. -/
theorem login_sessions_never_deadlock (P : Primitives) (hashint8 : HashInt8) (calls : ι → LoginCall) (db : Stores)
    {w : LoginWorld ι} (hreach : (loginSystem P hashint8 calls).Reaches (World.start db []) w) (i : ι) :
    ¬Relation.TransGen ((loginSystem P hashint8 calls).Waits w) i i := by
  have hbody : ∀ i now, InOrder hashint8 (fun _ _ => True) ((loginSystem P hashint8 calls).body i now) [] :=
    fun i now => inOrder_loginCall P (calls i) now
  exact (inOrder_of_reaches hbody hreach).no_cycle i

/-- One account, and the key that it logs in with. -/
def sampleLogin : Authorization := { authKeyId := Arr.zero 8, userId := 7 }

def sampleLoginStores : Stores := .empty { now := 0, newUserId := 0 }

/-- Two logins of the account. -/
abbrev twoLogins := loginSystem blankPrimitives (fun _ => 0) fun _ : Bool => .bind sampleLogin

/-- One of the two logins has the lock of the account, and the other one waits for it. -/
theorem exists_waiting_login : ∃ w, twoLogins.Reaches (World.start sampleLoginStores []) w ∧
    twoLogins.Waits w false true ∧ ¬w.Over false := by
  obtain ⟨k, hk⟩ : ∃ k, bindTx blankPrimitives sampleLogin 0 = .call (.sql (.lockUser 7)) k := ⟨_, rfl⟩
  let w₀ : LoginWorld Bool := .start sampleLoginStores []
  let w₁ := w₀.set true ((w₀.sessions true).leave (.running (bindTx blankPrimitives sampleLogin 0)))
  let w₂ := w₁.set false ((w₁.sessions false).leave (.running (bindTx blankPrimitives sampleLogin 0)))
  let w₃ := w₂.set true { w₂.sessions true with phase := .looking (.lockUser 7) k sampleLoginStores [] }
  let w₄ := w₃.set true { w₃.sessions true with phase := .running (k (.ok ())), writes := [], held := [.user 7] }
  let w₅ := w₄.set false { w₄.sessions false with phase := .looking (.lockUser 7) k sampleLoginStores [] }
  have h₁ : twoLogins.Next w₀ w₁ := .begin (m := 0) rfl (by decide)
  have h₂ : twoLogins.Next w₁ w₂ := .begin (m := 0) rfl (by decide)
  have h₃ : twoLogins.Next w₂ w₃ := .look (congrArg Phase.running hk)
  have hfree : ∀ l ∈ [Lock.user 7], ∀ j ≠ true, l ∉ (w₃.sessions j).held := by
    intro l _ j hj
    rw [Bool.eq_false_of_not_eq_true hj]
    exact List.not_mem_nil
  have hstmt : twoLogins.engine.stmt (.lockUser 7) sampleLoginStores [] sampleLoginStores () [] [.user 7] := ⟨rfl, rfl⟩
  have h₄ : twoLogins.Next w₃ w₄ := .finish rfl hstmt hfree
  have h₅ : twoLogins.Next w₄ w₅ := .look (congrArg Phase.running hk)
  have hreach : twoLogins.Reaches w₀ w₅ := .tail (.tail (.tail (.tail (.tail .refl h₁) h₂) h₃) h₄) h₅
  have hlock : Lock.user 7 ∈ (w₅.sessions true).held := List.mem_cons_self
  refine ⟨w₅, hreach, ?_, ?_⟩
  · exact ⟨by decide, .lockUser 7, k, sampleLoginStores, [], (), [], [.user 7], rfl, hstmt, .user 7, List.mem_cons_self,
      hlock⟩
  · rintro ⟨outcome, hended⟩
    cases hended

theorem login_sessions_never_deadlock_two : ∃ w, twoLogins.Reaches (World.start sampleLoginStores []) w ∧
    twoLogins.Waits w false true ∧ ¬Relation.TransGen (twoLogins.Waits w) false false := by
  obtain ⟨w, hreach, hwaits, -⟩ := exists_waiting_login
  exact ⟨w, hreach, hwaits, login_sessions_never_deadlock _ _ _ _ hreach false⟩

/-- **Finitely many logins and revocations come to an end:** no interleaving of their statements and attempts goes on
forever, and none stops before all are over, because one of them can go on. -/
theorem login_sessions_end [Finite ι] (P : Primitives) (hashint8 : HashInt8) (calls : ι → LoginCall) (db : Stores) :
    (∀ run : Nat → LoginWorld ι, ¬∀ n, (loginSystem P hashint8 calls).Next (run n) (run (n + 1))) ∧
      ∀ w : LoginWorld ι, (loginSystem P hashint8 calls).Reaches (World.start db []) w → (∃ i, ¬w.Over i) →
        ∃ i, (loginSystem P hashint8 calls).CanGo w i := by
  have hbody : ∀ i now, InOrder hashint8 (fun _ _ => True) ((loginSystem P hashint8 calls).body i now) [] :=
    fun i now => inOrder_loginCall P (calls i) now
  exact ⟨no_infinite_run, fun w hreach hopen => exists_canGo hbody (answers_engine hashint8) hreach hopen⟩

/-- Where one login waits for the other, the other can go on. -/
theorem login_sessions_end_two :
    (∀ run : Nat → LoginWorld Bool, ¬∀ n, twoLogins.Next (run n) (run (n + 1))) ∧
      ∃ w, twoLogins.Reaches (World.start sampleLoginStores []) w ∧ twoLogins.Waits w false true ∧
        ∃ i, twoLogins.CanGo w i := by
  obtain ⟨w, hreach, hwaits, hopen⟩ := exists_waiting_login
  obtain ⟨hends, hgoes⟩ :=
    login_sessions_end blankPrimitives (fun _ => 0) (fun _ : Bool => .bind sampleLogin) sampleLoginStores
  exact ⟨hends, w, hreach, hwaits, hgoes w hreach ⟨false, hopen⟩⟩

end ShuzaGram.Store
