import ShuzaGram.Mtproto.Crypto.MessageCipher
import ShuzaGram.Properties.UsernameRegistry
import ShuzaGram.Users.Profile

/-!
# Asking for a user name and taking it

`CheckUsername` looks the name up among the accounts. `UpdateUsername` does so too, and then the store asks the
registry, where channels and collectible names stand as well: a name that is no account's may still be refused.
-/

namespace ShuzaGram.Users

open Infra Domain Store Stores Mtproto.Crypto
open StoreProg

/-! ## Valid names -/

theorem isLetter_range {c : UInt8} (h : isLetter c = true) : 65 ≤ c := by
  unfold isLetter at h
  grind

/-- Every character of a valid name is above the white space and `@`. -/
theorem le_of_mem_validUsername {name : Bytes} (h : validUsername name = true) {c : UInt8} (hc : c ∈ name) :
    isSpace c = false ∧ c ≠ 64 := by
  unfold validUsername at h
  simp only [Bool.and_eq_true, List.all_eq_true] at h
  obtain ⟨⟨-, hfirst⟩, hrest⟩ := h
  rw [← List.take_append_drop 1 name, List.mem_append] at hc
  rcases hc with hc | hc
  · have hletter := isLetter_range (hfirst c hc)
    unfold isSpace
    grind
  · have hchar := hrest c hc
    unfold isLetter isDigit at hchar
    unfold isSpace
    grind

theorem trimAsciiSpace_of_forall {s : Bytes} (h : ∀ c ∈ s, isSpace c = false) : trimAsciiSpace s = s := by
  have hdrop : ∀ {l : Bytes}, (∀ c ∈ l, isSpace c = false) → l.dropWhile isSpace = l := by
    intro l hl
    cases l with
    | nil => rfl
    | cons c l => rw [List.dropWhile_cons, hl c List.mem_cons_self, if_neg (by simp)]
  rw [trimAsciiSpace, hdrop h, hdrop fun c hc => h c (List.mem_reverse.mp hc), List.reverse_reverse]

/-- The store takes a valid name as it is. -/
theorem trimUsername_of_valid {name : Bytes} (h : validUsername name = true) : trimUsername name = name := by
  have hhead : name.head? ≠ some 64 := by
    intro hhead
    exact (le_of_mem_validUsername h (List.mem_of_mem_head? hhead)).2 rfl
  rw [trimUsername, if_neg hhead, trimAsciiSpace_of_forall fun c hc => (le_of_mem_validUsername h hc).1]

theorem ne_nil_of_valid {name : Bytes} (h : validUsername name = true) : name ≠ [] := by
  rintro rfl
  cases h

/-! ## The registry -/

/-- The name is another peer's or no editable name of the account, or nobody's and reserved. -/
def refusesName (s : Stores) (userId : Int64) (name : Bytes) : Bool :=
  match s.peerUsernames.find (toLower name) with
  | some owner => !(owner.peerType = peerTypeUser && owner.peerId = userId) || owner.collectible || !owner.editable
  | none => s.reservedUsernames.contains (toLower name)

theorem replacePeerUsername_eq (s : Stores) (userId : Int64) {name : Bytes} (hname : name ≠ []) :
    if refusesName s userId name then
      s.replacePeerUsername peerTypeUser userId name (toLower name) = .error .usernameOccupied
    else ∃ t, s.replacePeerUsername peerTypeUser userId name (toLower name) = .ok { s with peerUsernames := t } := by
  have hlower := mt toLower_eq_nil.mp hname
  have hkept := Table.find_eraseBy s.peerUsernames
    (fun r => r.2.peerType = peerTypeUser && r.2.peerId = userId && r.2.editable) (toLower name)
  unfold refusesName replacePeerUsername
  simp only [bind, Except.bind, pure, Except.pure, throw, throwThe, MonadExceptOf.throw, ne_eq, hlower,
    not_false_eq_true, if_true, if_false]
  cases hfind : s.peerUsernames.find (toLower name) with
  | none =>
    rw [hfind] at hkept
    simp only [hkept]
    cases s.reservedUsernames.contains (toLower name) <;> simp
  | some owner =>
    rw [hfind] at hkept
    simp only [hkept]
    cases hown : decide (owner.peerType = peerTypeUser) && decide (owner.peerId = userId) with
    | false => simp
    | true =>
      have hpeer : owner.peerType = peerTypeUser ∧ owner.peerId = userId := by simpa using hown
      cases owner.collectible <;> cases heditable : owner.editable <;> simp [hpeer.1, hpeer.2, heditable]

/-! ## The two functions -/

/-- The account itself, or what `LoadSelf` throws. -/
def self? (s : Stores) (userId : Int64) : Option User := if userId = 0 then none else s.usersById userId

/-- Whether no other account has the name. -/
def available (s : Stores) (selfId : Int64) (name : Bytes) : Bool :=
  match s.usersByUsername name with
  | none => true
  | some existing => existing.id = selfId

section Runs

variable {P : Primitives} {s : Stores} {userId : Int64}

theorem yields_loadSelf (P : Primitives) (s : Stores) (userId : Int64) :
    Prog.Yields (StoreCall.exec P) Prog.idle (· = s) (loadSelf userId)
      (match self? s userId with
        | none => .error .userNotFound
        | some self => .ok self) := by
  rintro n w rfl
  unfold loadSelf self?
  by_cases hzero : userId = 0
  · rw [if_pos hzero, if_pos hzero]
    exact ⟨rfl, rfl⟩
  · rw [if_neg hzero, if_neg hzero]
    show (Prog.run _ _ n (usersById userId >>= _) w).result = _ ∧ (Prog.run _ _ n (usersById userId >>= _) w).state = _
    rw [Prog.run_perform_bind]
    simp only [StoreCall.exec, Prog.idle]
    cases w.usersById userId <;> exact ⟨rfl, rfl⟩

theorem yields_checkUsernameAvailable (selfId : Int64) (name : Bytes) :
    Prog.Yields (StoreCall.exec P) Prog.idle (· = s) (checkUsernameAvailable selfId name)
      (.ok (available s selfId name)) := by
  rintro n w rfl
  unfold checkUsernameAvailable available
  rw [Prog.run_perform_bind]
  simp only [StoreCall.exec, Prog.idle]
  cases w.usersByUsername name <;> exact ⟨rfl, rfl⟩

/-- What `CheckUsername` answers. -/
theorem yields_checkUsername (P : Primitives) (s : Stores) (userId : Int64) (name : Bytes) :
    Prog.Yields (StoreCall.exec P) Prog.idle (· = s) (checkUsername userId name)
      (match self? s userId with
        | none => .error .userNotFound
        | some self =>
          if validUsername (normalizeUsername name) then .ok (available s self.id (normalizeUsername name))
          else .error .usernameInvalid) := by
  have hself := yields_loadSelf P s userId
  unfold checkUsername
  cases hfound : self? s userId with
  | none =>
    rw [hfound] at hself
    exact hself.bind_error
  | some self =>
    rw [hfound] at hself
    refine hself.bind ?_
    cases hvalid : validUsername (normalizeUsername name) with
    | false =>
      simp only [hvalid, Bool.not_false, if_true]
      exact Prog.yields_throw _
    | true =>
      simp only [hvalid, Bool.not_true, Bool.false_eq_true, if_false]
      exact yields_checkUsernameAvailable _ _

theorem yields_checkNewUsername (selfId : Int64) (name : Bytes) :
    Prog.Yields (StoreCall.exec P) Prog.idle (· = s) (checkNewUsername selfId name)
      (if validUsername name = false then .error .usernameInvalid
      else if available s selfId name = false then .error .usernameOccupied
      else .ok ()) := by
  have havailable := yields_checkUsernameAvailable (P := P) (s := s) selfId name
  unfold checkNewUsername
  cases hvalid : validUsername name with
  | false => exact Prog.yields_throw _
  | true =>
    refine havailable.bind ?_
    cases available s selfId name with
    | false => exact Prog.yields_throw _
    | true => exact Prog.yields_pure _

/-- What `UpdateUsername` does once it has read the account and checked the name. -/
theorem run_afterChecks {n : Nat} (self : User) (name : Bytes) :
    (Prog.run (StoreCall.exec P) Prog.idle n
      (if self.username = name then pure self else usersUpdateUsername self.id name) s).result =
        if self.username = name then .ok self else (write (Stores.usersUpdateUsername self.id name) s).1 := by
  split
  · rfl
  · rw [Prog.run_perform]
    rfl

/-- What `UpdateUsername` answers. -/
theorem exec_updateUsername (name : Bytes) :
    ((updateUsername userId name).exec (StoreCall.exec P) s).result =
      match self? s userId with
      | none => .error .userNotFound
      | some self =>
        if normalizeUsername name ≠ [] ∧ validUsername (normalizeUsername name) = false then .error .usernameInvalid
        else if normalizeUsername name ≠ [] ∧ available s self.id (normalizeUsername name) = false then
          .error .usernameOccupied
        else if self.username = normalizeUsername name then .ok self
        else (write (Stores.usersUpdateUsername self.id (normalizeUsername name)) s).1 := by
  obtain ⟨hself, hstate⟩ := yields_loadSelf P s userId 0 s rfl
  rw [Prog.exec, updateUsername, Prog.run_bind]
  cases hfound : self? s userId with
  | none =>
    rw [hfound] at hself
    simp only [hself]
  | some self =>
    rw [hfound] at hself
    simp only [hself, hstate]
    generalize normalizeUsername name = name
    -- The empty name clears, and is not checked.
    by_cases hnil : name = []
    · simp only [hnil, ne_eq, not_true_eq_false, false_and, if_false]
      exact run_afterChecks self []
    · simp only [hnil, ne_eq, not_false_eq_true, true_and, if_true]
      obtain ⟨hchecks, hstate'⟩ := yields_checkNewUsername (P := P) (s := s) self.id name
        (0 + (Prog.run (StoreCall.exec P) Prog.idle 0 (loadSelf userId) s).trace.length) s rfl
      rw [Prog.run_bind]
      split at hchecks
      · next hvalid => simp only [hchecks, if_pos hvalid]
      · next hvalid =>
        split at hchecks
        · next havailable => simp only [hchecks, if_neg hvalid, if_pos havailable]
        · next havailable =>
          simp only [hchecks, hstate', if_neg hvalid, if_neg havailable]
          exact run_afterChecks self name

end Runs

/-! ## Asking and taking -/

/-- The unique index of `users`. -/
def UniqueUsernames (s : Stores) : Prop :=
  ∀ id id' r r', s.users.find id = some r → s.users.find id' = some r' → r.deleted = false → r'.deleted = false →
    r.username ≠ [] → toLower r'.username = toLower r.username → id' = id

section Answers

variable {P : Primitives} {s : Stores} {userId : Int64} {r : User}

/-- A valid name is available if and only if the index admits it. -/
theorem available_iff (hunique : UniqueUsernames s) {name : Bytes} (hvalid : validUsername name = true) :
    available s userId name = true ↔ s.usernameTaken userId name = false := by
  have hname := ne_nil_of_valid hvalid
  unfold available Stores.usersByUsername usernameTaken
  simp only [trimUsername_of_valid hvalid, ne_eq, hname, not_false_eq_true, decide_true, Bool.true_and]
  constructor
  · intro havailable
    rw [List.any_eq_false]
    rintro ⟨id, r⟩ hmem htaken
    simp only [Bool.and_eq_true, Bool.not_eq_true', decide_eq_true_eq] at htaken
    obtain ⟨⟨hid, hlive⟩, hlower⟩ := htaken
    have hnonempty : r.username ≠ [] := by
      intro hnil
      rw [hnil] at hlower
      exact hname (toLower_eq_nil.mp hlower.symm)
    -- `ByUsername` may find another row of that name than `htaken`: unique names make it the same.
    cases hfound : s.users.findBy fun r =>
        toLower r.2.username = toLower name && decide (¬r.2.username = []) && !r.2.deleted with
    | none =>
      rw [Table.findBy, List.find?_eq_none] at hfound
      exact hfound _ hmem (by simp [hlower, hnonempty, hlive])
    | some x =>
      obtain ⟨id', r'⟩ := x
      rw [hfound] at havailable
      have hid' : id' = userId := by simpa using havailable
      obtain ⟨hfind', hmatch⟩ := Table.findBy_eq_some hfound
      simp only [Bool.and_eq_true, Bool.not_eq_true', decide_eq_true_eq] at hmatch
      have hsame := hunique id id' r r' (Table.find_eq_some_iff.mpr hmem) hfind' hlive hmatch.2 hnonempty
        (hmatch.1.1.trans hlower.symm)
      exact hid (hsame.symm.trans hid')
  · intro hfree
    cases hfound : s.users.findBy fun r =>
        toLower r.2.username = toLower name && decide (¬r.2.username = []) && !r.2.deleted with
    | none => rfl
    | some x =>
      obtain ⟨id', r'⟩ := x
      obtain ⟨hfind', hmatch⟩ := Table.findBy_eq_some hfound
      simp only [Bool.and_eq_true, Bool.not_eq_true', decide_eq_true_eq] at hmatch
      have hrow := List.any_eq_false.mp hfree _ (Table.find_eq_some_iff.mp hfind')
      by_cases hid' : id' = userId
      · simpa using hid'
      · exact absurd (by simp [hid', hmatch.2, hmatch.1.1]) hrow

theorem self?_of_live (hfind : s.users.find userId = some r) :
    self? s userId = if userId = 0 then none else some (rowToUser (userId, r)) := by
  rw [self?, Stores.usersById, hfind, Option.map_some]

/-- A live account gets an available name, unless the registry refuses it. -/
theorem write_usersUpdateUsername (hfind : s.users.find userId = some r) (hlive : r.deleted = false)
    (hfault : s.moment.fault = none) {name : Bytes} (hvalid : validUsername name = true)
    (hfree : s.usernameTaken userId name = false) :
    if refusesName s userId name then (write (Stores.usersUpdateUsername userId name) s).1 = .error .usernameOccupied
    else ∃ u, (write (Stores.usersUpdateUsername userId name) s).1 = .ok u := by
  have hreplace := replacePeerUsername_eq s userId (ne_nil_of_valid hvalid)
  unfold write Stores.usersUpdateUsername
  simp only [hfault, trimUsername_of_valid hvalid, hfind, hlive, bind, Except.bind, pure, Except.pure, throw, throwThe,
    MonadExceptOf.throw, Bool.false_eq_true, if_false]
  split at hreplace
  · next hrefused => rw [if_pos hrefused, hreplace]
  · next hadmitted =>
    obtain ⟨t, ht⟩ := hreplace
    have hfree' : ({ s with peerUsernames := t } : Stores).usernameTaken userId name = false := hfree
    rw [if_neg hadmitted, ht]
    simp only [hfree', Bool.false_eq_true, if_false, updateLive, hfind, hlive]
    exact ⟨_, rfl⟩

/-- **Whoever is told that a name is available can take it, unless the registry refuses it;** whoever is told that it is
not cannot. -/
theorem updateUsername_of_checkUsername (hfind : s.users.find userId = some r) (hlive : r.deleted = false)
    (hunique : UniqueUsernames s) (hfault : s.moment.fault = none) (name : Bytes) :
    let check := ((checkUsername userId name).exec (StoreCall.exec P) s).result
    let update := ((updateUsername userId name).exec (StoreCall.exec P) s).result
    (check = .ok true →
      if r.username ≠ normalizeUsername name ∧ refusesName s userId (normalizeUsername name) then
        update = .error .usernameOccupied
      else ∃ u, update = .ok u) ∧
      (check ≠ .ok true → normalizeUsername name ≠ [] → ∃ e, update = .error e) := by
  intro check update
  have hcheck : check = _ := (yields_checkUsername P s userId name 0 s rfl).1
  have hupdate : update = _ := exec_updateUsername name
  rw [self?_of_live hfind] at hcheck hupdate
  by_cases hzero : userId = 0
  · rw [if_pos hzero] at hcheck hupdate
    rw [hcheck, hupdate]
    refine ⟨fun h => ?_, fun _ _ => ⟨_, rfl⟩⟩
    cases h
  · rw [if_neg hzero] at hcheck hupdate
    have hrow : (rowToUser (userId, r)).id = userId ∧ (rowToUser (userId, r)).username = r.username := by
      simp [rowToUser, User.deletedTombstone, hlive]
    simp only [hrow.1, hrow.2] at hcheck hupdate
    generalize normalizeUsername name = name at hcheck hupdate ⊢
    cases hvalid : validUsername name with
    | false =>
      rw [hvalid, if_neg (by simp)] at hcheck
      refine ⟨fun h => ?_, fun _ hname => ?_⟩
      · rw [hcheck] at h
        cases h
      · rw [if_pos ⟨hname, hvalid⟩] at hupdate
        exact ⟨_, hupdate⟩
    | true =>
      have hname := ne_nil_of_valid hvalid
      rw [hvalid, if_pos rfl] at hcheck
      rw [if_neg (by simp [hvalid])] at hupdate
      cases havailable : available s userId name with
      | false =>
        rw [if_pos ⟨hname, havailable⟩] at hupdate
        refine ⟨fun h => ?_, fun _ _ => ⟨_, hupdate⟩⟩
        rw [hcheck, havailable] at h
        cases h
      | true =>
        rw [if_neg (by simp [havailable])] at hupdate
        refine ⟨fun _ => ?_, fun h => absurd (by rw [hcheck, havailable]) h⟩
        -- The caller's own name is not written again, so the registry is not asked.
        by_cases hsame : r.username = name
        · rw [if_pos hsame] at hupdate
          rw [if_neg fun h => h.1 hsame]
          exact ⟨_, hupdate⟩
        · rw [if_neg hsame] at hupdate
          have hwrite := write_usersUpdateUsername hfind hlive hfault hvalid ((available_iff hunique hvalid).mp havailable)
          rw [hupdate]
          by_cases hrefused : refusesName s userId name = true
          · rw [if_pos ⟨hsame, hrefused⟩]
            rwa [if_pos hrefused] at hwrite
          · rw [if_neg fun h => hrefused h.2]
            rwa [if_neg hrefused] at hwrite

end Answers

/-- An account without a name, next to a channel with one. -/
def besideChannel : Stores :=
  { Stores.empty { now := 0, newUserId := 0 } with
    users := Table.empty.upsert 7 {}
    peerUsernames := Table.empty.upsert (ascii "sports")
      { peerType := ascii "channel", peerId := 5, username := ascii "Sports", collectible := false, active := true,
        editable := true } }

theorem uniqueUsernames_besideChannel : UniqueUsernames besideChannel := by
  intro id id' r r' hfind _ _ _ hname
  obtain ⟨rfl, rfl⟩ := Prod.mk.inj (List.mem_singleton.mp (Table.find_eq_some_iff.mp hfind))
  exact absurd rfl hname

/-- The name that nobody has is available, and the account gets it. -/
theorem updateUsername_of_checkUsername_alice :
    ∃ u, ((updateUsername 7 (ascii " @alice")).exec (StoreCall.exec blankPrimitives) besideChannel).result = .ok u := by
  have hfind : besideChannel.users.find 7 = some {} := rfl
  have h := updateUsername_of_checkUsername (P := blankPrimitives) hfind rfl uniqueUsernames_besideChannel rfl
    (ascii " @alice")
  exact h.1 (by decide +kernel)

/-- The name of the channel is available too, and refused. -/
theorem channelName_refused :
    ¬∀ (s : Stores) (userId : Int64) (r : User) (name : Bytes), s.users.find userId = some r → r.deleted = false →
      UniqueUsernames s → s.moment.fault = none →
      ((checkUsername userId name).exec (StoreCall.exec blankPrimitives) s).result = .ok true →
      ∃ u, ((updateUsername userId name).exec (StoreCall.exec blankPrimitives) s).result = .ok u := by
  intro h
  obtain ⟨u, hu⟩ := h besideChannel 7 {} (ascii "sports") rfl rfl uniqueUsernames_besideChannel rfl (by decide +kernel)
  have hrefused : ((updateUsername 7 (ascii "sports")).exec (StoreCall.exec blankPrimitives) besideChannel).result =
      .error .usernameOccupied := by decide +kernel
  rw [hrefused] at hu
  cases hu

end ShuzaGram.Users
