import ShuzaGram.Store.Calls

/-!
# User names and their registry

The user name of an account stands in `users` and, in lower case, as the editable row of the account in
`peer_usernames`, where it competes with the names of other peers and with collectible names. The operations that
give a user name keep the two tables in step.
-/

namespace ShuzaGram.Store

open Infra Domain

namespace Stores

/-- The editable rows of an account in the registry. -/
def editableNames (s : Stores) (id : Int64) : List (Bytes × PeerUsername) :=
  s.peerUsernames.rows.filter fun x => x.2.peerType = peerTypeUser && x.2.peerId = id && x.2.editable

/-- The tables are in step. -/
structure NamesInStep (s : Stores) : Prop where
  /-- A live account with a user name has one editable row, which is the name. -/
  named : ∀ id r, s.users.find id = some r → r.deleted = false → r.username ≠ [] →
    ∃ row, s.editableNames id = [(toLower r.username, row)] ∧ row.username = r.username ∧ row.collectible = false
  /-- A live account without a user name has none. -/
  unnamed : ∀ id r, s.users.find id = some r → r.deleted = false → r.username = [] → s.editableNames id = []
  /-- The unique index of `users`. -/
  unique : ∀ id id' r r', s.users.find id = some r → s.users.find id' = some r' → r.deleted = false →
    r'.deleted = false → r.username ≠ [] → toLower r'.username = toLower r.username → id' = id
  /-- An editable row of an account belongs to an account. -/
  owned : ∀ key row, s.peerUsernames.find key = some row → row.peerType = peerTypeUser → row.editable = true →
    (s.users.find row.peerId).isSome

/-- A row that is not the business of the account `id`. -/
def Foreign (id : Int64) (row : PeerUsername) : Prop :=
  row.collectible = true ∨ ¬(row.peerType = peerTypeUser ∧ row.peerId = id)

/-- The rows that are not the business of the account are the same. -/
def SameForeign (id : Int64) (s s' : Stores) : Prop :=
  ∀ key row, Foreign id row → (s'.peerUsernames.find key = some row ↔ s.peerUsernames.find key = some row)

/-! ## The name of one account -/

variable {s s' : Stores}

theorem toLower_eq_nil {name : Bytes} : toLower name = [] ↔ name = [] := List.map_eq_nil_iff

/-- The editable row of a name. -/
def nameRow (id : Int64) (username : Bytes) : PeerUsername :=
  { peerType := peerTypeUser, peerId := id, username, collectible := false, active := true, editable := true }

/-- The registry without the editable rows of the account. -/
def withoutName (s : Stores) (id : Int64) : Table Bytes PeerUsername :=
  s.peerUsernames.eraseBy fun r => r.2.peerType = peerTypeUser && r.2.peerId = id && r.2.editable

/-- What `ReplacePeerUsernameTx` does where it does not throw. -/
theorem replacePeerUsername_user {id : Int64} {username : Bytes}
    (h : s.replacePeerUsername peerTypeUser id username (toLower username) = .ok s') :
    (username = [] ∧ s' = { s with peerUsernames := s.withoutName id }) ∨
      (username ≠ [] ∧ (s.withoutName id).find (toLower username) = none ∧
        s' = { s with peerUsernames := (s.withoutName id).upsert (toLower username) (nameRow id username) }) := by
  unfold replacePeerUsername at h
  simp only [bind, Except.bind, pure, Except.pure, throw, throwThe, MonadExceptOf.throw] at h
  by_cases hnil : username = []
  · simp only [toLower_eq_nil.mpr hnil, ne_eq, not_true_eq_false, if_false, if_true] at h
    cases h
    exact .inl ⟨hnil, rfl⟩
  · simp only [ne_eq, mt toLower_eq_nil.mp hnil, not_false_eq_true, if_true, if_false] at h
    -- whoever owned the name, the insert comes last
    have hinsert : ∀ {r : Except Exn Stores}, r = .ok s' →
        (r = if ((s.withoutName id).find (toLower username)).isSome then .error .usernameOccupied
          else .ok { s with peerUsernames := (s.withoutName id).upsert (toLower username) (nameRow id username) }) →
        (s.withoutName id).find (toLower username) = none ∧
          s' = { s with peerUsernames := (s.withoutName id).upsert (toLower username) (nameRow id username) } := by
      rintro r hok rfl
      split at hok
      · cases hok
      · next hfree =>
        cases hok
        exact ⟨by simpa using hfree, rfl⟩
    split at h
    · split at h
      · cases h
      · exact .inr ⟨hnil, hinsert h rfl⟩
    · split at h
      · cases h
      · exact .inr ⟨hnil, hinsert h rfl⟩

/-- The registry after the account `id` has got the name. -/
structure Renamed (id : Int64) (username : Bytes) (s s' : Stores) : Prop where
  own : s'.editableNames id = if username = [] then [] else [(toLower username, nameRow id username)]
  others : ∀ id' ≠ id, s'.editableNames id' = s.editableNames id'
  foreign : (∀ x ∈ s.editableNames id, x.2.collectible = false) → SameForeign id s s'
  owned : ∀ key row, s'.peerUsernames.find key = some row → row.peerId = id ∨ s.peerUsernames.find key = some row

theorem editableNames_withoutName (s : Stores) (id id' : Int64) :
    ((s.withoutName id).rows.filter fun x => x.2.peerType = peerTypeUser && x.2.peerId = id' && x.2.editable) =
      if id' = id then [] else s.editableNames id' := by
  rw [withoutName, Table.eraseBy, List.filter_filter]
  split
  · next hid =>
    rw [List.filter_eq_nil_iff]
    intro x _
    subst hid
    cases x.2.editable <;> simp
  · next hid =>
    rw [editableNames]
    refine List.filter_congr fun x _ => ?_
    by_cases hx : x.2.peerId = id'
    · simp [hx, hid]
    · simp [hx]

theorem find_withoutName {id : Int64} {key : Bytes} {row : PeerUsername} :
    (s.withoutName id).find key = some row ↔ s.peerUsernames.find key = some row ∧
      ¬(row.peerType = peerTypeUser ∧ row.peerId = id ∧ row.editable = true) := by
  rw [withoutName, Table.find_eraseBy, Option.filter_eq_some_iff]
  refine and_congr_right fun _ => ?_
  grind

theorem renamed_of_replace {id : Int64} {username : Bytes}
    (h : s.replacePeerUsername peerTypeUser id username (toLower username) = .ok s') : Renamed id username s s' := by
  have hkept : (∀ x ∈ s.editableNames id, x.2.collectible = false) → ∀ key row, Foreign id row →
      ((s.withoutName id).find key = some row ↔ s.peerUsernames.find key = some row) := by
    intro hplain key row hforeign
    rw [find_withoutName]
    refine ⟨fun h => h.1, fun hfind => ⟨hfind, fun hown => ?_⟩⟩
    rcases hforeign with hcollectible | hother
    · have hmem : (key, row) ∈ s.editableNames id :=
        List.mem_filter.mpr ⟨Table.find_eq_some_iff.mp hfind, by simp [hown.1, hown.2.1, hown.2.2]⟩
      rw [hplain _ hmem] at hcollectible
      cases hcollectible
    · exact hother ⟨hown.1, hown.2.1⟩
  -- The empty name takes rows away, any other also adds one under a free key.
  rcases replacePeerUsername_user h with ⟨rfl, rfl⟩ | ⟨hname, hfree, rfl⟩
  · refine ⟨?_, fun id' hid => ?_, fun hplain => hkept hplain, fun key row hfind => .inr (find_withoutName.mp hfind).1⟩
    · rw [if_pos rfl]
      exact (editableNames_withoutName s id id).trans (if_pos rfl)
    · exact (editableNames_withoutName s id id').trans (if_neg hid)
  · have hrows : ∀ id', ({ s with peerUsernames :=
          (s.withoutName id).upsert (toLower username) (nameRow id username) } : Stores).editableNames id' =
        (if id' = id then [] else s.editableNames id') ++ if id' = id then [(toLower username, nameRow id username)] else [] := by
      intro id'
      rw [editableNames, Table.rows_upsert_of_none hfree, List.filter_append, editableNames_withoutName]
      congr 1
      by_cases hid : id' = id
      · simp [hid, nameRow]
      · simp [hid, nameRow, Ne.symm hid]
    refine ⟨?_, fun id' hid => ?_, fun hplain key row hforeign => ?_, fun key row hfind => ?_⟩
    · rw [hrows, if_pos rfl, if_pos rfl, if_neg hname, List.nil_append]
    · rw [hrows, if_neg hid, if_neg hid, List.append_nil]
    · rw [Table.find_upsert]
      by_cases hkey : key = toLower username
      · rw [if_pos hkey, hkey, ← hkept hplain _ _ hforeign, hfree]
        constructor
        · intro hrow
          cases hrow
          rcases hforeign with hcollectible | hother
          · cases hcollectible
          · exact absurd ⟨rfl, rfl⟩ hother
        · intro hrow
          cases hrow
      · rw [if_neg hkey]
        exact hkept hplain key row hforeign
    · rw [Table.find_upsert] at hfind
      split at hfind
      · cases hfind
        exact .inl rfl
      · exact .inr (find_withoutName.mp hfind).1

/-! ## Giving a name -/

/-- The account `id` gets the name, and the row `row`. -/
structure GivesName (id : Int64) (row : User) (s s' : Stores) : Prop where
  users : s'.users = s.users.upsert id row
  live : row.deleted = false
  free : s.usernameTaken id row.username = false
  plain : ∀ x ∈ s.editableNames id, x.2.collectible = false
  renamed : Renamed id row.username s s'

theorem ne_of_not_usernameTaken {id id' : Int64} {username : Bytes} {r : User}
    (hfree : s.usernameTaken id username = false) (hname : username ≠ []) (hfind : s.users.find id' = some r)
    (hid : id' ≠ id) (hlive : r.deleted = false) : toLower r.username ≠ toLower username := by
  intro heq
  have hany : (s.users.rows.any fun r => r.1 ≠ id && !r.2.deleted && toLower r.2.username = toLower username) = true :=
    List.any_eq_true.mpr ⟨(id', r), Table.find_eq_some_iff.mp hfind, by simp [hid, hlive, heq]⟩
  rw [usernameTaken, hany] at hfree
  simp [hname] at hfree

/-- **Giving a name keeps the tables in step.** -/
theorem GivesName.namesInStep {id : Int64} {row : User} (h : GivesName id row s s') (hs : NamesInStep s) :
    NamesInStep s' := by
  have hfind : ∀ id', s'.users.find id' = if id' = id then some row else s.users.find id' := by
    intro id'
    rw [h.users, Table.find_upsert]
  -- Each rule for the account that got the name, and for the others, which are as before.
  refine ⟨fun id' r hr hlive hname => ?_, fun id' r hr hlive hname => ?_,
    fun id₁ id₂ r₁ r₂ hr₁ hr₂ hlive₁ hlive₂ hname hlower => ?_, fun key r hr huser heditable => ?_⟩
  · rw [hfind] at hr
    split at hr
    · next hid =>
      cases hr
      exact ⟨nameRow id row.username, by rw [hid, h.renamed.own, if_neg hname], rfl, rfl⟩
    · next hid =>
      rw [h.renamed.others id' hid]
      exact hs.named id' r hr hlive hname
  · rw [hfind] at hr
    split at hr
    · next hid =>
      cases hr
      rw [hid, h.renamed.own, if_pos hname]
    · next hid =>
      rw [h.renamed.others id' hid]
      exact hs.unnamed id' r hr hlive hname
  · rw [hfind] at hr₁ hr₂
    split at hr₁
    · next hid₁ =>
      cases hr₁
      split at hr₂
      · next hid₂ => rw [hid₁, hid₂]
      · next hid₂ => exact absurd hlower (ne_of_not_usernameTaken h.free hname hr₂ hid₂ hlive₂)
    · next hid₁ =>
      split at hr₂
      · cases hr₂
        have hname₂ : row.username ≠ [] := by
          intro hnil
          rw [hnil] at hlower
          exact hname (toLower_eq_nil.mp hlower.symm)
        exact absurd hlower.symm (ne_of_not_usernameTaken h.free hname₂ hr₁ hid₁ hlive₁)
      · exact hs.unique id₁ id₂ r₁ r₂ hr₁ hr₂ hlive₁ hlive₂ hname hlower
  · rw [hfind]
    split
    · rfl
    · next hid =>
      rcases h.renamed.owned key r hr with hown | hold
      · exact absurd hown hid
      · exact hs.owned key r hold huser heditable

/-- The editable rows of a live account are not collectible. -/
theorem NamesInStep.plain (hs : NamesInStep s) {id : Int64} {r : User} (hfind : s.users.find id = some r)
    (hlive : r.deleted = false) : ∀ x ∈ s.editableNames id, x.2.collectible = false := by
  intro x hx
  by_cases hname : r.username = []
  · rw [hs.unnamed id r hfind hlive hname] at hx
    cases hx
  · obtain ⟨row, hrows, -, hplain⟩ := hs.named id r hfind hlive hname
    rw [hrows, List.mem_singleton] at hx
    rw [hx]
    exact hplain

/-- An account that does not exist has no editable row. -/
theorem NamesInStep.editableNames_eq_nil (hs : NamesInStep s) {id : Int64} (hfind : s.users.find id = none) :
    s.editableNames id = [] := by
  rw [editableNames, List.filter_eq_nil_iff]
  rintro ⟨key, row⟩ hmem hmatch
  simp only [Bool.and_eq_true, decide_eq_true_eq] at hmatch
  have howned := hs.owned key row (Table.find_eq_some_iff.mpr hmem) hmatch.1.1 hmatch.2
  rw [hmatch.1.2, hfind] at howned
  cases howned

/-- What `Create` does where it does not throw. -/
theorem usersCreate_givesName (hs : NamesInStep s) {user u : User} (h : usersCreate user s = .ok (u, s')) :
    ∃ row, GivesName s.moment.newUserId row s s' := by
  obtain ⟨row, t, hfresh, hlive, -, hfree, -, -, hstate, hregistry⟩ := usersCreate_inv h
  have hempty := hs.editableNames_eq_nil hfresh
  have hplain : ∀ x ∈ s.editableNames s.moment.newUserId, x.2.collectible = false := by
    rw [hempty]
    exact fun x hx => absurd hx List.not_mem_nil
  rcases hregistry with ⟨hlower, rfl⟩ | hreplace
  · have hname : row.username = [] := toLower_eq_nil.mp hlower
    have hown : s.editableNames s.moment.newUserId =
        if row.username = [] then [] else [(toLower row.username, nameRow s.moment.newUserId row.username)] := by
      rw [if_pos hname, hempty]
    rw [hstate]
    exact ⟨row, rfl, hlive, hfree, hplain, hown, fun _ _ => rfl, fun _ _ _ _ => Iff.rfl, fun _ _ hfind => .inr hfind⟩
  · have hrenamed := renamed_of_replace hreplace
    rw [hstate] at hrenamed ⊢
    exact ⟨row, rfl, hlive, hfree, hplain, hrenamed.own, hrenamed.others, hrenamed.foreign, hrenamed.owned⟩

/-- What `UpdateUsername` does where it does not throw. -/
theorem usersUpdateUsername_givesName (hs : NamesInStep s) {id : Int64} {username : Bytes} {u : User}
    (h : usersUpdateUsername id username s = .ok (u, s')) : ∃ row, GivesName id row s s' := by
  obtain ⟨r, t, hfind, hlive, hreplace, hfree, rfl⟩ := usersUpdateUsername_eq_ok h
  have hrenamed := renamed_of_replace hreplace
  exact ⟨_, rfl, hlive, hfree, hs.plain hfind hlive, hrenamed.own, hrenamed.others, hrenamed.foreign, hrenamed.owned⟩

/-! ## Runs -/

/-- The operations that give a user name. -/
inductive UsernameCall where
  | create (user : User)
  | updateUsername (id : Int64) (username : Bytes)

namespace UsernameCall

def exec : UsernameCall → Stores → Except Exn User × Stores
  | create user, s => write (usersCreate user) s
  | updateUsername id username, s => write (usersUpdateUsername id username) s

/-- The account that gets the name. -/
def account (s : Stores) : UsernameCall → Int64
  | create _ => s.moment.newUserId
  | updateUsername id _ => id

/-- The calls one after another, each at its own moment. -/
def run : List (Moment × UsernameCall) → Stores → Stores
  | [], s => s
  | (m, call) :: calls, s => run calls (call.exec (atMoment m s)).2

/-- What a call does to the two tables. -/
structure Keeps (call : UsernameCall) (s : Stores) : Prop where
  inStep : NamesInStep (call.exec s).2
  foreign : SameForeign (call.account s) s (call.exec s).2
  rollback : ∀ e, (call.exec s).1 = .error e →
    (call.exec s).2.users = s.users ∧ (call.exec s).2.peerUsernames = s.peerUsernames

/-- The step lemma. -/
theorem keeps (call : UsernameCall) (hs : NamesInStep s) : call.Keeps s := by
  have hcases : ∀ {tx : Stores → Except Exn (User × Stores)}, call.exec s = write tx s →
      (∀ u s', tx s = .ok (u, s') → ∃ row, GivesName (call.account s) row s s') → call.Keeps s := by
    intro tx hexec hgives
    rcases write_cases tx s with ⟨e, hw⟩ | ⟨u, s', hok, hw⟩
    · rw [← hexec] at hw
      refine ⟨by rw [hw]; exact hs, ?_, fun _ _ => by rw [hw]; exact ⟨rfl, rfl⟩⟩
      rw [hw]
      exact fun _ _ _ => Iff.rfl
    · rw [← hexec] at hw
      obtain ⟨row, hgive⟩ := hgives u s' hok
      refine ⟨by rw [hw]; exact hgive.namesInStep hs, by rw [hw]; exact hgive.renamed.foreign hgive.plain, ?_⟩
      intro e he
      rw [hw] at he
      cases he
  cases call with
  | create user => exact hcases rfl fun u s' h => usersCreate_givesName hs h
  | updateUsername id username => exact hcases rfl fun u s' h => usersUpdateUsername_givesName hs h

/-- The run lemma. -/
theorem namesInStep_run (calls : List (Moment × UsernameCall)) (hs : NamesInStep s) : NamesInStep (run calls s) := by
  induction calls generalizing s with
  | nil => exact hs
  | cons x calls ih =>
    obtain ⟨m, call⟩ := x
    have hmoment : NamesInStep (atMoment m s) := ⟨hs.named, hs.unnamed, hs.unique, hs.owned⟩
    exact ih (call.keeps hmoment).inStep

/-- Rows of the registry that are no account's editable name stay over a run. -/
theorem find_run (calls : List (Moment × UsernameCall)) (hs : NamesInStep s) (key : Bytes) {row : PeerUsername}
    (hrow : row.collectible = true ∨ row.peerType ≠ peerTypeUser) :
    (run calls s).peerUsernames.find key = some row ↔ s.peerUsernames.find key = some row := by
  induction calls generalizing s with
  | nil => exact Iff.rfl
  | cons x calls ih =>
    obtain ⟨m, call⟩ := x
    have hmoment : NamesInStep (atMoment m s) := ⟨hs.named, hs.unnamed, hs.unique, hs.owned⟩
    have hforeign : Foreign (call.account (atMoment m s)) row := by
      rcases hrow with hcollectible | hother
      · exact .inl hcollectible
      · exact .inr fun hown => hother hown.1
    exact (ih (call.keeps hmoment).inStep).trans ((call.keeps hmoment).foreign key row hforeign)

/-- **The tables of user names stay in step** over every sequence of calls, whose every next call changes no row of
another peer, and nothing where it throws. -/
theorem usernames_stay_inStep (hs : NamesInStep s) (calls : List (Moment × UsernameCall)) :
    NamesInStep (run calls s) ∧
      (∀ key row row', (key, row) ∈ (run calls s).peerUsernames.rows → (key, row') ∈ (run calls s).peerUsernames.rows →
        row' = row) ∧
      (∀ key row, row.collectible = true ∨ row.peerType ≠ peerTypeUser →
        ((run calls s).peerUsernames.find key = some row ↔ s.peerUsernames.find key = some row)) ∧
      ∀ (m : Moment) (call : UsernameCall), call.Keeps (atMoment m (run calls s)) := by
  have hrun := namesInStep_run calls hs
  refine ⟨hrun, fun key row row' hrow hrow' => ?_, fun key row hrow => find_run calls hs key hrow, fun m call => ?_⟩
  · rw [← Table.find_eq_some_iff] at hrow hrow'
    rw [hrow] at hrow'
    exact (Option.some.inj hrow').symm
  · exact keeps call ⟨hrun.named, hrun.unnamed, hrun.unique, hrun.owned⟩

/-- Nobody has a name, and a channel has one. -/
def channelStores : Stores :=
  { Stores.empty { now := 0, newUserId := 0 } with
    peerUsernames := Table.empty.upsert (ascii "news")
      { peerType := ascii "channel", peerId := 5, username := ascii "News", collectible := false, active := true,
        editable := true } }

/-- An account takes a name, is refused the name of the channel, and spells its own differently. -/
def channelCalls : List (Moment × UsernameCall) :=
  [({ now := 0, newUserId := 7 }, .create { username := ascii "alice" }),
    ({ now := 0, newUserId := 8 }, .updateUsername 7 (ascii "NEWS")),
    ({ now := 0, newUserId := 8 }, .updateUsername 7 (ascii "@Alice"))]

theorem usernames_stay_inStep_channel :
    NamesInStep (run channelCalls channelStores) ∧
      (run channelCalls channelStores).editableNames 7 = [(ascii "alice", nameRow 7 (ascii "Alice"))] := by
  have hs : NamesInStep channelStores := by
    have hnobody : ∀ id r, channelStores.users.find id ≠ some r := fun _ _ h => by cases h
    refine ⟨fun id r hr => absurd hr (hnobody id r), fun id r hr => absurd hr (hnobody id r),
      fun id _ r _ hr => absurd hr (hnobody id r), ?_⟩
    intro key row hrow huser
    obtain ⟨rfl, rfl⟩ := Prod.mk.inj (List.mem_singleton.mp (Table.find_eq_some_iff.mp hrow))
    exact absurd huser (by decide)
  exact ⟨(usernames_stay_inStep hs channelCalls).1, by decide +kernel⟩

end UsernameCall

end Stores

end ShuzaGram.Store
