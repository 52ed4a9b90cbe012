import ShuzaGram.Mtproto.Crypto.MessageCipher
import ShuzaGram.Properties.ConcurrentLogins

/-!
# Revocations and logins at the same time

`RevokeByHash` and `RevokeByUserExcept` against any number of logins, statement by statement. A key can change
hands while a revocation waits for its lock. What a revocation commits concerns only keys that were the
account's at that moment.
-/

namespace ShuzaGram.Store

open Infra Infra.Transactions Domain Mtproto.Crypto

/-- The commit of a revocation: `returned` are the authorizations of `before` that are gone, each of them satisfies
`p`, and their update states are gone with them. -/
structure Revokes (p : Authorization → Prop) (before after : Stores) (returned : List Authorization) : Prop where
  once : (returned.map Authorization.authKeyId).Nodup
  belonged : ∀ a ∈ returned, p a
  deleted : ∀ k row, before.authorizations.find k = some row →
    (after.authorizations.find k = none ↔ Stores.rowToAuthorization (k, row) ∈ returned)
  existed : ∀ a ∈ returned, ∃ row, before.authorizations.find a.authKeyId = some row ∧
    Stores.rowToAuthorization (a.authKeyId, row) = a
  states : ∀ k u st, before.updateStates.find (k, u) = some st →
    (after.updateStates.find (k, u) = none ↔ k ∈ returned.map Authorization.authKeyId)
  /-- Nothing else is changed, and nothing is added. -/
  kept : ∀ k, k ∉ returned.map Authorization.authKeyId → after.authorizations.find k = before.authorizations.find k ∧
    ∀ u, after.updateStates.find (k, u) = before.updateStates.find (k, u)
  others : after = { before with authorizations := after.authorizations, updateStates := after.updateStates }

variable {hashint8 : HashInt8} {held : List Lock} {ws : List RowWrite}

/-! ## The deletions of a revocation -/

theorem writeAll_dropAuthorizations (hashint8 : HashInt8) (keys : List (Arr 8)) (s : Stores) :
    (engine hashint8).writeAll (keys.map .dropAuthorization) s =
      { s with authorizations := keys.foldl Table.erase s.authorizations } := by
  induction keys generalizing s with
  | nil => rfl
  | cons key keys ih => exact ih { s with authorizations := s.authorizations.erase key }

/-- The transaction holds the identities of the keys of `out`, and these are their rows. -/
structure Claimed (hashint8 : HashInt8) (p : Authorization → Prop) (held : List Lock) (s : Stores)
    (out : List Authorization) : Prop where
  once : (out.map Authorization.authKeyId).Nodup
  locked : ∀ a ∈ out, identityLock hashint8 a.authKeyId ∈ held
  rows : ∀ a ∈ out, ∃ row, s.authorizations.find a.authKeyId = some row ∧
    Stores.rowToAuthorization (a.authKeyId, row) = a
  belonged : ∀ a ∈ out, p a

section Deletions

variable {p : Authorization → Prop} {s : Stores} {out : List Authorization}

theorem Claimed.later (h : Claimed hashint8 p held s out) (hclear : (engine hashint8).Clear held ws) :
    Claimed hashint8 p held ((engine hashint8).writeAll ws s) out :=
  { h with
    rows := fun a ha => by
      rw [(agree_of_clear hclear s).authorization _ (h.locked a ha)]
      exact h.rows a ha }

theorem Claimed.mono {held' : List Lock} (h : Claimed hashint8 p held s out) (hsub : ∀ l ∈ held, l ∈ held') :
    Claimed hashint8 p held' s out :=
  { h with locked := fun a ha => hsub _ (h.locked a ha) }

theorem Claimed.locked_of_mem (h : Claimed hashint8 p held s out) {k : Arr 8}
    (hk : k ∈ out.map Authorization.authKeyId) : identityLock hashint8 k ∈ held := by
  obtain ⟨a, ha, rfl⟩ := List.mem_map.mp hk
  exact h.locked a ha

/-- The states of the claimed keys are among `states`, and nothing else is. -/
structure Doomed (hashint8 : HashInt8) (p : Authorization → Prop) (held : List Lock) (s : Stores)
    (out : List Authorization) (states : List (Arr 8 × Int64)) : Prop extends Claimed hashint8 p held s out where
  own : ∀ key ∈ states, key.1 ∈ out.map Authorization.authKeyId
  all : ∀ k ∈ out.map Authorization.authKeyId, ∀ u st, s.updateStates.find (k, u) = some st → (k, u) ∈ states

variable {states : List (Arr 8 × Int64)}

theorem Doomed.later (h : Doomed hashint8 p held s out states) (hclear : (engine hashint8).Clear held ws) :
    Doomed hashint8 p held ((engine hashint8).writeAll ws s) out states where
  toClaimed := h.toClaimed.later hclear
  own := h.own
  all k hk u st hst := by
    rw [(agree_of_clear hclear s).updateState k u (h.locked_of_mem hk)] at hst
    exact h.all k hk u st hst

/-- The claimed rows and the states of their keys, deleted. -/
theorem Doomed.revokes (h : Doomed hashint8 p held s out states) {auths : List (Arr 8)}
    (hauths : ∀ k, k ∈ auths ↔ k ∈ out.map Authorization.authKeyId) :
    Revokes p s ((engine hashint8).writeAll (states.map .dropUpdateState ++ auths.map .dropAuthorization) s) out := by
  -- First the states go, then the logins; each table is what it was without the keys that were returned.
  rw [Engine.writeAll_append, writeAll_dropUpdateStates, writeAll_dropAuthorizations]
  refine
    { once := h.once, belonged := h.belonged, existed := h.rows, deleted := ?_, states := ?_, kept := ?_,
      others := rfl }
  · intro k row hrow
    simp only [Table.find_foldl_erase, hauths, hrow]
    constructor
    · intro hnone
      split at hnone
      · next hk =>
        obtain ⟨a, ha, rfl⟩ := List.mem_map.mp hk
        obtain ⟨row', hrow', heq⟩ := h.rows a ha
        rw [Option.some.inj (hrow.symm.trans hrow'), heq]
        exact ha
      · cases hnone
    · intro hmem
      have hk : k ∈ out.map Authorization.authKeyId := List.mem_map.mpr ⟨_, hmem, rfl⟩
      rw [if_pos hk]
  · intro k u st hst
    simp only [Table.find_foldl_erase, hst]
    constructor
    · intro hnone
      split at hnone
      · next hmem => exact h.own _ hmem
      · cases hnone
    · intro hk
      rw [if_pos (h.all k hk u st hst)]
  · intro k hk
    refine ⟨?_, fun u => ?_⟩
    · simp only [Table.find_foldl_erase, hauths]
      exact if_neg hk
    · simp only [Table.find_foldl_erase]
      exact if_neg fun hmem => hk (h.own _ hmem)

theorem Doomed.guarded (h : Doomed hashint8 p held s out states) {auths : List (Arr 8)}
    (hauths : ∀ k, k ∈ auths ↔ k ∈ out.map Authorization.authKeyId) :
    (engine hashint8).Guarded held (states.map .dropUpdateState ++ auths.map .dropAuthorization) := by
  refine Engine.Guarded.append ?_ ?_
  · intro w hw
    obtain ⟨key, hkey, rfl⟩ := List.mem_map.mp hw
    exact h.locked_of_mem (h.own key hkey)
  · intro w hw
    obtain ⟨k, hk, rfl⟩ := List.mem_map.mp hw
    exact h.locked_of_mem ((hauths k).mp hk)

/-- The deletion of the states of claimed keys finds all of them. -/
theorem safe_deleteStates {c : List Authorization} (h : Claimed hashint8 p held s out) :
    Safe (engine hashint8)
      (fun _ s ws held c' => c' = c ∧ ∃ states, ws = states.map .dropUpdateState ∧ Doomed hashint8 p held s out states)
      (sql (.deleteStates (out.map Authorization.authKeyId))) s [] held c := by
  refine safe_sql fun earlier since _ ws ls hearlier hsince hstmt others hothers => ⟨rfl, ?_⟩
  obtain ⟨states, hfinds, rfl, rfl⟩ := hstmt
  have hclaimed := ((h.later hearlier).later hsince).mono
    fun l hl => List.mem_append_left (states.map (.row ∘ .updateState)) hl
  refine ⟨states, rfl, Doomed.later ⟨hclaimed, ?_, ?_⟩ hothers⟩
  · intro key hkey
    obtain ⟨_, _, hcond⟩ := hfinds.picked key hkey
    exact hcond
  · intro k hk u st hst
    -- nobody has added a state since the snapshot
    rw [(agree_of_clear hsince _).updateState k u (h.locked_of_mem hk)] at hst
    exact hfinds.untouched _ _ hst hk (not_touched_updateState (h.locked_of_mem hk) hsince u)

/-- The deletion of claimed rows finds all of them, and with it the revocation is complete. -/
theorem safe_deleteAuthorizations {c : List Authorization} (h : Doomed hashint8 p held s out states) :
    Safe (engine hashint8)
      (fun n s ws held c' => c' = c ∧ n = out.length ∧ (engine hashint8).Guarded held ws ∧
        ∀ others, (engine hashint8).Clear held others → Revokes p ((engine hashint8).writeAll others s)
          ((engine hashint8).writeAll ws ((engine hashint8).writeAll others s)) out)
      (sql (.deleteAuthorizations (out.map Authorization.authKeyId))) s (states.map .dropUpdateState) held c := by
  refine safe_sql fun earlier since n ws ls hearlier hsince hstmt others hothers => ⟨rfl, ?_⟩
  obtain ⟨auths, hfinds, rfl, rfl, rfl⟩ := hstmt
  have hauths : ∀ k, k ∈ auths ↔ k ∈ out.map Authorization.authKeyId := by
    intro k
    constructor
    · intro hk
      obtain ⟨_, _, hcond⟩ := hfinds.picked k hk
      exact hcond
    · intro hk
      obtain ⟨a, ha, rfl⟩ := List.mem_map.mp hk
      obtain ⟨row, hrow, -⟩ := (h.toClaimed.later hearlier).rows a ha
      refine hfinds.untouched a.authKeyId row ?_ hk (not_touched_authorization (h.locked a ha) hsince)
      rw [writeAll_dropUpdateStates]
      exact hrow
  have hcount : auths.length = out.length := by
    rw [((List.perm_ext_iff_of_nodup hfinds.nodup h.once).mpr hauths).length_eq, List.length_map]
  have hdoomed := ((h.later hearlier).later hsince).later (hothers.anti fun l hl => List.mem_append_left _ hl)
  refine ⟨hcount, (hdoomed.guarded hauths).mono fun l hl => List.mem_append_left _ hl, fun others' hothers' => ?_⟩
  exact (hdoomed.later (hothers'.anti fun l hl => List.mem_append_left _ hl)).revokes hauths

end Deletions

/-! ## Revocations -/

section Revocations

variable {s : Stores} {c : List Authorization}

/-- The commit of a revocation. -/
def RevokesAt (hashint8 : HashInt8) (p : Authorization → Prop) (s : Stores) (ws : List RowWrite)
    (returned : List Authorization) : Prop :=
  Revokes p s ((engine hashint8).writeAll ws s) returned

theorem revokes_nothing (p : Authorization → Prop) (s : Stores) : Revokes p s s [] where
  once := List.nodup_nil
  belonged _ ha := absurd ha List.not_mem_nil
  deleted k row hrow := by simp [hrow]
  existed _ ha := absurd ha List.not_mem_nil
  states k u st hst := by simp [hst]
  kept _ _ := ⟨rfl, fun _ => rfl⟩
  others := rfl

/-- A revocation that finds nothing commits nothing. -/
theorem safe_nothing (p : Authorization → Prop) :
    Safe (engine hashint8) (AtCommit (engine hashint8) (RevokesAt hashint8 p)) (pure () : StmtTx Unit) s [] held [] :=
  fun _ _ => ⟨Engine.guarded_nil, revokes_nothing p _⟩

theorem map_authKeyId_authorizationsAt {now : Stores} : ∀ {keys : List (Arr 8)},
    (∀ k ∈ keys, ∃ row, now.authorizations.find k = some row) →
      (authorizationsAt now keys).map Authorization.authKeyId = keys
  | [], _ => rfl
  | k :: keys, h => by
    obtain ⟨row, hrow⟩ := h k List.mem_cons_self
    have ih := map_authKeyId_authorizationsAt fun k' hk' => h k' (List.mem_cons_of_mem k hk')
    have hhead : authorizationsAt now (k :: keys) = Stores.rowToAuthorization (k, row) :: authorizationsAt now keys :=
      List.filterMap_cons_some (by rw [hrow]; rfl)
    rw [hhead, List.map_cons, ih]
    rfl

theorem mem_authorizationsAt {now : Stores} {keys : List (Arr 8)} {a : Authorization} :
    a ∈ authorizationsAt now keys ↔
      a.authKeyId ∈ keys ∧ ∃ row, now.authorizations.find a.authKeyId = some row ∧
        Stores.rowToAuthorization (a.authKeyId, row) = a := by
  simp only [authorizationsAt, List.mem_filterMap, Option.map_eq_some_iff]
  constructor
  · rintro ⟨k, hk, row, hrow, rfl⟩
    exact ⟨hk, row, hrow, rfl⟩
  · rintro ⟨hk, row, hrow, heq⟩
    exact ⟨a.authKeyId, hk, row, hrow, heq⟩

/-- What a revalidation finds under identities that are held is claimed. -/
theorem claimed_of_finds {p : Authorization → Prop} {seen now : Stores} {touched : Arr 8 → Prop} {keys : List (Arr 8)}
    {cond : Arr 8 → Authorization → Prop}
    (hfinds : Finds cond seen.authorizations.find now.authorizations.find touched keys)
    (hlocked : ∀ k ∈ keys, identityLock hashint8 k ∈ held)
    (hcond : ∀ k row, cond k row → p (Stores.rowToAuthorization (k, row))) :
    Claimed hashint8 p held now (authorizationsAt now keys) where
  once := by
    rw [map_authKeyId_authorizationsAt fun k hk => (hfinds.current k hk).imp fun _ h => h.1]
    exact hfinds.nodup
  locked a ha := hlocked _ (mem_authorizationsAt.mp ha).1
  rows a ha := (mem_authorizationsAt.mp ha).2
  belonged a ha := by
    obtain ⟨hk, row, hrow, heq⟩ := mem_authorizationsAt.mp ha
    obtain ⟨row', hrow', hrow''⟩ := hfinds.current _ hk
    obtain rfl := Option.some.inj (hrow.symm.trans hrow')
    exact heq ▸ hcond _ _ hrow''

/-- The rows that `RevokeByHash` revokes. -/
def HasHash (userId hash : Int64) (a : Authorization) : Prop := a.userId = userId ∧ a.hash = hash

/-- The rows that `RevokeByUserExcept` revokes. -/
def IsOther (userId : Int64) (keep : Arr 8) (a : Authorization) : Prop := a.userId = userId ∧ a.authKeyId ≠ keep

theorem safe_revalidateByHash {candidate : Arr 8} (userId hash : Int64)
    (hlock : identityLock hashint8 candidate ∈ held) :
    Safe (engine hashint8)
      (fun out s ws held c' => ws = [] ∧ c' = c ∧ Claimed hashint8 (HasHash userId hash) held s out ∧
        ∀ a ∈ out, a.authKeyId = candidate)
      (sql (.revalidateByHash candidate userId hash)) s [] held c := by
  refine safe_sql fun earlier since out ws ls hearlier hsince hstmt others hothers => ?_
  obtain ⟨keys, hfinds, rfl, rfl, rfl⟩ := hstmt
  have hkeys : ∀ k ∈ keys, k = candidate := by
    intro k hk
    obtain ⟨_, _, hcond⟩ := hfinds.picked k hk
    exact hcond.1
  refine ⟨rfl, rfl, ?_, fun a ha => hkeys _ (mem_authorizationsAt.mp ha).1⟩
  refine Claimed.later (claimed_of_finds hfinds (fun k hk => ?_) fun k row h => h.2) hothers
  rw [hkeys k hk]
  exact List.mem_append_left _ hlock

theorem safe_revalidateByUser {candidates : List (Arr 8)} (userId : Int64) (keep : Arr 8)
    (hlock : ∀ k ∈ candidates, identityLock hashint8 k ∈ held) :
    Safe (engine hashint8)
      (fun out s ws held c' => ws = [] ∧ c' = c ∧ Claimed hashint8 (IsOther userId keep) held s out)
      (sql (.revalidateByUser userId keep candidates)) s [] held c := by
  refine safe_sql fun earlier since out ws ls hearlier hsince hstmt others hothers => ?_
  obtain ⟨keys, hfinds, rfl, rfl, rfl⟩ := hstmt
  refine ⟨rfl, rfl, Claimed.later (claimed_of_finds hfinds (fun k hk => ?_) fun k row h => h.2) hothers⟩
  obtain ⟨_, _, hcond⟩ := hfinds.picked k hk
  exact List.mem_append_left _ (hlock k hcond.1)

/-- `RevokeByHash` commits what it has seen under the lock. -/
theorem safe_revokeByHashTx (userId hash : Int64) :
    Safe (engine hashint8) (AtCommit (engine hashint8) (RevokesAt hashint8 (HasHash userId hash)))
      (revokeByHashTx userId hash) s [] [] c := by
  unfold revokeByHashTx
  refine Safe.bind (safe_assign fun others _ => ?_)
  refine Safe.bind ((safe_read (.selectByHash userId hash) (fun _ _ => True)
    fun _ _ _ _ _ _ ⟨_, h, _⟩ => ⟨h, trivial⟩).mono ?_)
  rintro candidates s _ _ _ ⟨rfl, rfl, ls, rfl, -⟩
  cases candidates with
  | nil => exact safe_nothing _
  | cons candidate _ =>
    refine Safe.bind ((safe_lockPermanentAuthIdentities [candidate]).mono ?_)
    rintro ⟨⟩ s _ held _ ⟨rfl, rfl, -, hlocked⟩
    refine Safe.bind ((safe_read (.lockAuthKeys [candidate]) (fun _ _ => True)
      fun _ _ _ _ _ _ ⟨_, h, _⟩ => ⟨h, trivial⟩).mono ?_)
    rintro locked s _ _ _ ⟨rfl, rfl, ls, rfl, -⟩
    cases locked with
    | nil => exact safe_nothing _
    | cons _ _ =>
      refine Safe.bind ((safe_revalidateByHash userId hash
        (List.mem_append_left ls (hlocked candidate List.mem_cons_self))).mono ?_)
      rintro out s _ held _ ⟨rfl, rfl, hclaimed, hsame⟩
      cases out with
      | nil => exact safe_nothing _
      | cons a rest =>
        obtain rfl : a.authKeyId = candidate := hsame a List.mem_cons_self
        -- the key of a row is unique
        obtain rfl : rest = [] := by
          refine List.eq_nil_iff_forall_not_mem.mpr fun b hb => (List.nodup_cons.mp hclaimed.once).1 ?_
          rw [← hsame b (List.mem_cons_of_mem a hb)]
          exact List.mem_map_of_mem hb
        refine Safe.bind ((safe_deleteStates hclaimed).mono ?_)
        rintro ⟨⟩ s _ held _ ⟨rfl, states, rfl, hdoomed⟩
        refine Safe.bind ((safe_deleteAuthorizations hdoomed).mono ?_)
        rintro deleted s ws held _ ⟨rfl, rfl, hguarded, hrevokes⟩
        exact safe_assign fun others hothers => ⟨hguarded, hrevokes others hothers⟩

/-- `RevokeByUserExcept` commits what it has seen under the locks. -/
theorem safe_revokeByUserExceptTx (userId : Int64) (keep : Arr 8) :
    Safe (engine hashint8) (AtCommit (engine hashint8) (RevokesAt hashint8 (IsOther userId keep)))
      (revokeByUserExceptTx userId keep) s [] [] c := by
  unfold revokeByUserExceptTx
  refine Safe.bind (safe_assign fun others _ => ?_)
  refine Safe.bind ((safe_read (.selectByUserExcept userId keep) (fun _ _ => True)
    fun _ _ _ _ _ _ ⟨_, _, h, _⟩ => ⟨h, trivial⟩).mono ?_)
  rintro candidates s _ _ _ ⟨rfl, rfl, ls, rfl, -⟩
  simp only
  split
  · exact safe_nothing _
  · refine Safe.bind ((safe_lockPermanentAuthIdentities candidates).mono ?_)
    rintro ⟨⟩ s _ held _ ⟨rfl, rfl, -, hlocked⟩
    refine Safe.bind ((safe_read (.lockAuthKeys candidates) (fun _ _ => True)
      fun _ _ _ _ _ _ ⟨_, h, _⟩ => ⟨h, trivial⟩).mono ?_)
    rintro locked s _ _ _ ⟨rfl, rfl, ls, rfl, -⟩
    -- What was selected without a lock is looked at again under the locks.
    refine Safe.bind ((safe_revalidateByUser userId keep
      fun k hk => List.mem_append_left ls (hlocked k hk)).mono ?_)
    rintro out s _ held _ ⟨rfl, rfl, hclaimed⟩
    refine Safe.bind (safe_assign fun others hothers => ?_)
    have hclaimed := hclaimed.later hothers
    split
    · next hnil =>
      subst hnil
      exact safe_nothing _
    · refine Safe.bind ((safe_deleteStates hclaimed).mono ?_)
      rintro ⟨⟩ s _ held _ ⟨rfl, states, rfl, hdoomed⟩
      refine Safe.bind ((safe_deleteAuthorizations hdoomed).mono ?_)
      rintro deleted s ws held _ ⟨rfl, rfl, hguarded, hrevokes⟩
      simp only [ne_eq, not_true_eq_false, if_false]
      exact fun others hothers => ⟨hguarded, hrevokes others hothers⟩

end Revocations

/-! ## Every interleaving -/

/-- The authorizations that a call is to revoke. -/
def LoginCall.concerns : LoginCall → Authorization → Prop
  | .bind _ => fun _ => False
  | .revokeByHash userId hash => HasHash userId hash
  | .revokeByUserExcept userId keep => IsOther userId keep

/-- What a call commits. -/
structure LoginCall.CommitsAt (hashint8 : HashInt8) (P : Primitives) (call : LoginCall) (s : Stores)
    (ws : List RowWrite) (returned : List Authorization) : Prop where
  login : ∀ a, call = .bind a → BindsAt hashint8 P a s ws
  revocation : (∀ a, call ≠ .bind a) → RevokesAt hashint8 call.concerns s ws returned

theorem safe_tx (P : Primitives) (call : LoginCall) (now : Int) (s : Stores) (c : List Authorization) :
    Safe (engine hashint8) (AtCommit (engine hashint8) (call.CommitsAt hashint8 P)) (call.tx P now) s [] [] c := by
  cases call with
  | bind a =>
    refine (safe_bindTx P a now).mono fun _ _ _ _ _ h => ⟨h.1, ?_, fun hne => absurd rfl (hne a)⟩
    intro a' ha'
    cases ha'
    exact h.2
  | revokeByHash userId hash =>
    exact (safe_revokeByHashTx userId hash).mono fun _ _ _ _ _ h => ⟨h.1, nofun, fun _ => h.2⟩
  | revokeByUserExcept userId keep =>
    exact (safe_revokeByUserExceptTx userId keep).mono fun _ _ _ _ _ h => ⟨h.1, nofun, fun _ => h.2⟩

section Interleavings

variable {ι : Type} [DecidableEq ι] {P : Primitives} {calls : ι → LoginCall} {db : Stores}
  {w : World ι Stores RowWrite Lock Stmt (List Authorization) Stmt.Res Exn}

/-- What a session commits, whatever the others do. -/
theorem commitsAt_of_reaches (hreach : (loginSystem P hashint8 calls).Reaches (World.start db []) w) {i : ι}
    (hphase : (w.sessions i).phase = .running (.ret ())) :
    (calls i).CommitsAt hashint8 P w.committed (w.sessions i).writes (w.sessions i).captured := by
  have hbody : ∀ i now s c, Safe (engine hashint8) (AtCommit (engine hashint8) ((calls i).CommitsAt hashint8 P))
      ((calls i).tx P now) s [] [] c := fun i now s c => safe_tx P (calls i) now s c
  exact safe_commit (S := loginSystem P hashint8 calls) hbody hreach hphase

/-- **A login sets its baseline where it commits.** However its statements are interleaved with other logins and
revocations, it commits what `Bind` does at once to the stores of that moment. -/
theorem bindTx_commits_bind (hreach : (loginSystem P hashint8 calls).Reaches (World.start db []) w) {i : ι}
    {a : Authorization} (hcall : calls i = .bind a) (hphase : (w.sessions i).phase = .running (.ret ())) :
    (∃ now, Stores.authorizationsBind P a (w.committed.atTime now) =
      .ok ((), ((loginSystem P hashint8 calls).commit w i).committed.atTime now)) ∧
    Stores.SetsBaseline a w.committed ((loginSystem P hashint8 calls).commit w i).committed := by
  obtain ⟨now, hbind⟩ := (commitsAt_of_reaches hreach hphase).login a hcall
  have hsets := Stores.authorizationsBind_sets hbind
  exact ⟨⟨now, hbind⟩, hsets.live, hsets.login, hsets.baseline, hsets.otherLogins, hsets.otherStates⟩

/-- **Revocation never hits a re-login.** However the statements of logins and revocations are interleaved: what a
revocation commits deletes rows that are the account's own where it commits, with all states of their keys, and
returns just them. What a call returns is what its one committed attempt has deleted. A login commits what `Bind` does
at once to the stores of that moment. -/
theorem revocation_never_hits_relogin (hreach : (loginSystem P hashint8 calls).Reaches (World.start db []) w) {i : ι}
    (hcall : ∀ a, calls i ≠ .bind a) :
    ((w.sessions i).phase = .running (.ret ()) →
      Revokes (calls i).concerns w.committed ((loginSystem P hashint8 calls).commit w i).committed
        (w.sessions i).captured) ∧
    (∀ returned, (w.sessions i).phase = .ended (.ok returned) →
      ∃ w₁, (loginSystem P hashint8 calls).Reaches (World.start db []) w₁ ∧
        (w₁.sessions i).phase = .running (.ret ()) ∧
        (loginSystem P hashint8 calls).Reaches ((loginSystem P hashint8 calls).commit w₁ i) w ∧
        Revokes (calls i).concerns w₁.committed ((loginSystem P hashint8 calls).commit w₁ i).committed returned) ∧
    ∀ j a, calls j = .bind a → (w.sessions j).phase = .running (.ret ()) →
      (∃ now, Stores.authorizationsBind P a (w.committed.atTime now) =
        .ok ((), ((loginSystem P hashint8 calls).commit w j).committed.atTime now)) ∧
      Stores.SetsBaseline a w.committed ((loginSystem P hashint8 calls).commit w j).committed := by
  refine ⟨fun hphase => (commitsAt_of_reaches hreach hphase).revocation hcall, fun returned hended => ?_,
    fun j a hbind hphase => bindTx_commits_bind hreach hbind hphase⟩
  obtain ⟨w₁, hreach₁, hphase, rfl, hrest⟩ := exists_commit hreach hended
  exact ⟨w₁, hreach₁, hphase, hrest, (commitsAt_of_reaches hreach₁ hphase).revocation hcall⟩

end Interleavings

/-! A key that changes hands while a revocation waits. -/

/-- The rows of a table that satisfy a condition are found. -/
theorem finds_rows {κ ρ : Type} [DecidableEq κ] {p : κ → ρ → Prop} [∀ k r, Decidable (p k r)] {t : Table κ ρ}
    {touched : κ → Prop} {keys : List κ} (hkeys : (t.rows.filter fun r => p r.1 r.2).map Prod.fst = keys) :
    Finds p t.find t.find touched keys := by
  subst hkeys
  have hrow : ∀ k ∈ (t.rows.filter fun r => p r.1 r.2).map Prod.fst, ∃ r, t.find k = some r ∧ p k r := by
    intro k hk
    obtain ⟨⟨k, r⟩, hmem, rfl⟩ := List.mem_map.mp hk
    obtain ⟨hmem, hp⟩ := List.mem_filter.mp hmem
    exact ⟨r, Table.find_eq_some_iff.mpr hmem, of_decide_eq_true hp⟩
  refine ⟨t.nodup.sublist (List.filter_sublist.map Prod.fst), hrow, hrow, fun k r hr hp _ => ?_⟩
  exact List.mem_map.mpr ⟨(k, r), List.mem_filter.mpr ⟨Table.find_eq_some_iff.mp hr, decide_eq_true hp⟩, rfl⟩

/-- The key that moves, and another one of the account. -/
def movingKey : Arr 8 := Arr.zero 8

def stayingKey : Arr 8 := Arr.ofList 8 [1]

def keptKey : Arr 8 := Arr.ofList 8 [2]

def stayingLogin : Authorization := { authKeyId := stayingKey, userId := 7, hash := 6 }

/-- The same key for another account. -/
def relogin : Authorization := { authKeyId := movingKey, userId := 8, hash := 9 }

/-- Both keys are logged in to the account 7. -/
def loggedInStores : Stores :=
  { Stores.empty { now := 0, newUserId := 0 } with
    users := Table.empty.upsert 8 {}
    authKeys := (Table.empty.upsert movingKey {}).upsert stayingKey {}
    authorizations :=
      (Table.empty.upsert movingKey { authKeyId := movingKey, userId := 7, hash := 5 }).upsert stayingKey stayingLogin
    updateStates :=
      (Table.empty.upsert (movingKey, 7) { pts := 3, qts := 0, date := 0, seq := 0, observedPts := 0 }).upsert
        (stayingKey, 7) { pts := 3, qts := 0, date := 0, seq := 0, observedPts := 0 } }

/-- What the login writes. -/
def reloginWrites : List RowWrite :=
  [.putWatermark 8 0, .putRetention 8 0,
    .putUpdateState (movingKey, 8) { pts := 0, qts := 0, date := 0, seq := 0, observedPts := 0 },
    .dropUpdateState (movingKey, 7), .putAuthorization movingKey relogin]

/-- The stores behind the login. -/
def movedStores : Stores := (engine fun _ => 0).writeAll reloginWrites loggedInStores

theorem alone_bind :
    Alone (engine fun _ => 0) loggedInStores (bindTx blankPrimitives relogin 0) [] [] reloginWrites [] := by
  -- the account
  refine Alone.sql (r := ()) ⟨rfl, rfl⟩ ?_
  refine Alone.sql (r := [true]) ⟨[8], finds_rows rfl, rfl, rfl, rfl⟩ ?_
  -- the identity of the key
  refine Alone.sql (r := [0]) ⟨by simp, rfl, rfl⟩ ?_
  refine Alone.sql (r := ()) ⟨rfl, rfl⟩ ?_
  refine Alone.sql (r := [{}]) ⟨[movingKey], finds_rows rfl, rfl, rfl, rfl⟩ ?_
  -- the baseline
  refine Alone.sql (r := ()) ⟨rfl, rfl⟩ ?_
  refine Alone.sql (r := [0]) ⟨[8], finds_rows rfl, rfl, rfl, rfl⟩ ?_
  refine Alone.sql (r := ()) ⟨rfl, rfl⟩ ?_
  refine Alone.sql (r := [0]) ⟨[8], finds_rows rfl, rfl, rfl, rfl⟩ ?_
  refine Alone.sql (r := 1) ⟨rfl, rfl, rfl⟩ ?_
  refine Alone.sql (r := ()) ⟨[(movingKey, 7)], finds_rows rfl, rfl, rfl⟩ ?_
  refine Alone.sql (r := ()) ⟨rfl, rfl⟩ ?_
  exact .ret

/-- The revocation up to its candidates, and from there on once the login is committed. -/
theorem alone_revokeByUserExcept : ∃ k k', revokeByUserExceptTx 7 keptKey = .call (.assign []) k ∧
    k (.ok ()) = .call (.sql (.selectByUserExcept 7 keptKey)) k' ∧
    Alone (engine fun _ => 0) movedStores (k' (.ok [movingKey, stayingKey])) [] []
      [.dropUpdateState (stayingKey, 7), .dropAuthorization stayingKey] [stayingLogin] := by
  refine ⟨_, _, rfl, rfl, ?_⟩
  refine Alone.sql (r := [0]) ⟨by simp, rfl, rfl⟩ ?_
  refine Alone.sql (r := ()) ⟨rfl, rfl⟩ ?_
  refine Alone.sql (r := [movingKey, stayingKey]) ⟨finds_rows rfl, rfl, rfl⟩ ?_
  refine Alone.sql (r := [stayingLogin]) ⟨[stayingKey], finds_rows rfl, rfl, rfl, rfl⟩ ?_
  refine Alone.assign ?_
  refine Alone.sql (r := ()) ⟨[(stayingKey, 7)], finds_rows rfl, rfl, rfl⟩ ?_
  refine Alone.sql (r := 1) ⟨[stayingKey], finds_rows rfl, rfl, rfl, rfl⟩ ?_
  exact .ret

/-- A revocation of all keys of the account 7 but one, and a login of one of the others to the account 8. -/
abbrev revocationAndRelogin := loginSystem blankPrimitives (fun _ => 0) fun revokes : Bool =>
  if revokes then .revokeByUserExcept 7 keptKey else .bind relogin

/-- The revocation has read its candidates, and the login has not begun. -/
theorem exists_candidates_read {k k' : _} (htx : revokeByUserExceptTx 7 keptKey = .call (.assign []) k)
    (hk : k (.ok ()) = .call (.sql (.selectByUserExcept 7 keptKey)) k') :
    ∃ w, revocationAndRelogin.Reaches (World.start loggedInStores []) w ∧ w.committed = loggedInStores ∧
      w.sessions true =
        { phase := .running (k' (.ok [movingKey, stayingKey])), attempt := 0, captured := [], writes := [], held := [] } ∧
      w.sessions false = { phase := .resting, attempt := 0, captured := [], writes := [], held := [] } := by
  let w₀ : World Bool Stores RowWrite Lock Stmt (List Authorization) Stmt.Res Exn := .start loggedInStores []
  let w₁ := w₀.set true ((w₀.sessions true).leave (.running (revokeByUserExceptTx 7 keptKey)))
  let w₂ := w₁.set true { w₁.sessions true with phase := .running (k (.ok ())), captured := [] }
  let w₃ := w₂.set true { w₂.sessions true with phase := .looking (.selectByUserExcept 7 keptKey) k' loggedInStores [] }
  let w₄ := w₃.set true
    { w₃.sessions true with phase := .running (k' (.ok [movingKey, stayingKey])), writes := [], held := [] }
  have h₁ : revocationAndRelogin.Next w₀ w₁ := .begin (m := 0) rfl (by decide)
  have h₂ : revocationAndRelogin.Next w₁ w₂ := .assign (congrArg Phase.running htx)
  have h₃ : revocationAndRelogin.Next w₂ w₃ := .look (congrArg Phase.running hk)
  have hselect : revocationAndRelogin.engine.stmt (.selectByUserExcept 7 keptKey) loggedInStores [] loggedInStores
      [movingKey, stayingKey] [] [] := ⟨finds_rows rfl, by decide, rfl, rfl⟩
  have hlocks : ∀ l ∈ ([] : List Lock), ∀ j ≠ true, l ∉ (w₃.sessions j).held := fun _ hl => absurd hl List.not_mem_nil
  have h₄ : revocationAndRelogin.Next w₃ w₄ := .finish rfl hselect hlocks
  exact ⟨w₄, .tail (.tail (.tail (.tail .refl h₁) h₂) h₃) h₄, rfl, rfl, rfl⟩

/-- The login commits between the first lookup of the revocation and its locks: the revocation deletes the key that has
stayed, and the one that has moved keeps its new login. -/
theorem revocation_never_hits_relogin_moved : ∃ w, revocationAndRelogin.Reaches (World.start loggedInStores []) w ∧
    Revokes (IsOther 7 keptKey) w.committed (revocationAndRelogin.commit w true).committed [stayingLogin] ∧
    (revocationAndRelogin.commit w true).committed.authorizations.find movingKey = some relogin := by
  obtain ⟨k, k', htx, hk, hrest⟩ := alone_revokeByUserExcept
  obtain ⟨w, hread, hdb, hrevocation, hlogin⟩ := exists_candidates_read htx hk
  have hbegin : revocationAndRelogin.Next w
      (w.set false ((w.sessions false).leave (.running (bindTx blankPrimitives relogin 0)))) := by
    refine .begin (m := 0) ?_ ?_ <;> rw [hlogin]
    decide
  have hothers : ∀ j ≠ false, (w.sessions j).held = [] := by
    intro j hj
    cases j with
    | false => exact absurd rfl hj
    | true => rw [hrevocation]
  -- the login runs, and commits
  obtain ⟨s, hruns, hphase, hwrites, -⟩ := alone_bind.reaches (S := revocationAndRelogin) (i := false) (w := w)
    (s := (w.sessions false).leave (.running (bindTx blankPrimitives relogin 0))) hdb hothers rfl rfl (by rw [hlogin]; rfl)
  let w₁ := revocationAndRelogin.commit (w.set false s) false
  have hcommit : revocationAndRelogin.Next (w.set false s) w₁ := .commit (by rw [sessions_set_self]; exact hphase)
  have hmoved : w₁.committed = movedStores := by
    show revocationAndRelogin.engine.writeAll ((w.set false s).sessions false).writes w.committed = movedStores
    rw [sessions_set_self, hwrites, hdb]
    rfl
  have hwaiting : w₁.sessions true = w.sessions true := by
    show ((w.set false s).sessions true).observe _ = w.sessions true
    rw [sessions_set_of_ne w (show true ≠ false by decide) s, hrevocation]
    rfl
  have hreleased : ∀ j ≠ true, (w₁.sessions j).held = [] := by
    intro j hj
    cases j with
    | false => rfl
    | true => exact absurd rfl hj
  -- the revocation goes on to its commit
  obtain ⟨s', hrevokes, hphase', hwrites', hcaptured⟩ := hrest.reaches (S := revocationAndRelogin) (i := true) (w := w₁)
    (s := w₁.sessions true) hmoved hreleased (by rw [hwaiting, hrevocation]) (by rw [hwaiting, hrevocation])
    (by rw [hwaiting, hrevocation])
  have hself : w₁.set true (w₁.sessions true) = w₁ := by
    simp only [World.set, Function.update_eq_self]
  rw [hself] at hrevokes
  have hreach := hread.trans (.head hbegin (hruns.trans (.head hcommit hrevokes)))
  have hresult := (revocation_never_hits_relogin hreach (i := true) fun _ h => by cases h).1
    (by rw [sessions_set_self]; exact hphase')
  rw [sessions_set_self, hcaptured] at hresult
  refine ⟨_, hreach, hresult, ?_⟩
  show (revocationAndRelogin.engine.writeAll ((w₁.set true s').sessions true).writes
    w₁.committed).authorizations.find movingKey = _
  rw [sessions_set_self, hwrites', hmoved]
  rfl

end ShuzaGram.Store
