import ShuzaGram.Infra.Pool
import ShuzaGram.Infra.Race
import ShuzaGram.Server.Handlers

/-!
# Updates of one profile at the same time

`account.updateProfile` reads the account, fills the absent fields from what it read, and writes all
three columns. A field that is absent is to be left unchanged; but where another request writes between
the read and the write, it is set back to what was read. The changes of two requests of one user for
different fields both stay exactly where the two have not both read before either writes, or where one of
them changes nothing.
-/

namespace ShuzaGram.Server

open Infra Domain Store Mtproto Mtproto.Messages Mtproto.Crypto Auth Users
open StoreProg

/-! ## What an update asks for -/

/-- The columns that `account.updateProfile` writes. -/
structure Profile where
  firstName : Bytes
  lastName : Bytes
  about : Bytes
deriving DecidableEq

def profileOf (u : User) : Profile := { firstName := u.firstName, lastName := u.lastName, about := u.about }

/-- A profile with the fields of an update, trimmed, in place of its own. -/
def merge (update : UserProfileUpdate) (p : Profile) : Profile where
  firstName := (update.firstName.map trimAsciiSpace).getD p.firstName
  lastName := (update.lastName.map trimAsciiSpace).getD p.lastName
  about := (update.about.map trimAsciiSpace).getD p.about

/-- No field is present in both updates. -/
def Separate (a b : UserProfileUpdate) : Prop :=
  (a.firstName = none ∨ b.firstName = none) ∧ (a.lastName = none ∨ b.lastName = none) ∧
    (a.about = none ∨ b.about = none)

/-- A row has the trimmed value of every field that is present in one of two updates, and the value of
`row` of every other field. -/
def HoldsBoth (a b : UserProfileUpdate) (row row' : User) : Prop :=
  row'.firstName = ((a.firstName <|> b.firstName).map trimAsciiSpace).getD row.firstName ∧
    row'.lastName = ((a.lastName <|> b.lastName).map trimAsciiSpace).getD row.lastName ∧
    row'.about = ((a.about <|> b.about).map trimAsciiSpace).getD row.about

/-- What an update asks for is what the account has. -/
def Settled (update : UserProfileUpdate) (row : User) : Prop := merge update (profileOf row) = profileOf row

theorem holdsBoth_iff {a b : UserProfileUpdate} {row row' : User} :
    HoldsBoth a b row row' ↔ profileOf row' = merge a (merge b (profileOf row)) := by
  have hfield : ∀ (o p : Option Bytes) (x : Bytes),
      ((o <|> p).map trimAsciiSpace).getD x = (o.map trimAsciiSpace).getD ((p.map trimAsciiSpace).getD x) := by
    intro o p x
    cases o <;> rfl
  simp only [HoldsBoth, merge, profileOf, Profile.mk.injEq, hfield]

theorem merge_comm {a b : UserProfileUpdate} (h : Separate a b) (p : Profile) :
    merge a (merge b p) = merge b (merge a p) := by
  have hfield : ∀ {o p : Option Bytes} (x : Bytes), o = none ∨ p = none →
      (o.map trimAsciiSpace).getD ((p.map trimAsciiSpace).getD x) =
        (p.map trimAsciiSpace).getD ((o.map trimAsciiSpace).getD x) := by
    rintro o p x (rfl | rfl) <;> rfl
  simp only [merge, Profile.mk.injEq]
  exact ⟨hfield _ h.1, hfield _ h.2.1, hfield _ h.2.2⟩

/-- An update does not hide what a separate one asks for. -/
theorem merge_eq_of_merge_merge {a b : UserProfileUpdate} (h : Separate a b) {p : Profile}
    (heq : merge a p = merge a (merge b p)) : merge b p = p := by
  have hfield : ∀ {o p : Option Bytes} {x : Bytes}, o = none ∨ p = none →
      (o.map trimAsciiSpace).getD x = (o.map trimAsciiSpace).getD ((p.map trimAsciiSpace).getD x) →
        (p.map trimAsciiSpace).getD x = x := by
    rintro o p x (rfl | rfl) h
    · exact h.symm
    · rfl
  simp only [merge, Profile.mk.injEq] at heq
  show Profile.mk _ _ _ = p
  rw [hfield h.1 heq.1, hfield h.2.1 heq.2.1, hfield h.2.2 heq.2.2]

theorem Separate.symm {a b : UserProfileUpdate} (h : Separate a b) : Separate b a :=
  ⟨h.1.symm, h.2.1.symm, h.2.2.symm⟩

/-! ## The request as far as it has come -/

/-- The end of the handler: the answer of `UpdateProfile`. -/
def answerUpdated (p : StoreProg User) : StoreProg Answer :=
  answering (do
    let updated ← p
    return .users [{ user := updated, self := true }]) updateProfileErrors

/-- The handler once it knows the account. -/
def afterResolve (draw : HandlerDraw) (update : UserProfileUpdate) (userId : Int64) : StoreProg Answer :=
  answerUpdated (updateProfile userId update draw.now)

/-- The handler once it has decided to write. -/
def afterMerge (userId : Int64) (p : Profile) : StoreProg Answer :=
  answerUpdated (usersUpdateProfile userId p.firstName p.lastName p.about)

/-- The request has failed. -/
def Failed (p : StoreProg Answer) : Prop := ∃ code message, p = .ret (.rpcError code message)

/-- The request has succeeded. -/
def Succeeded (p : StoreProg Answer) : Prop := ∃ list, p = .ret (.users list)

theorem not_succeeded_of_failed {p : StoreProg Answer} (h : Failed p) : ¬ Succeeded p := by
  obtain ⟨code, message, rfl⟩ := h
  rintro ⟨list, hlist⟩
  cases hlist

theorem failed_updateProfileErrors (e : Exn) : Failed (.ret (updateProfileErrors e)) := by
  unfold updateProfileErrors
  split <;> exact ⟨_, _, rfl⟩

/-- The key is logged in to the account. -/
def LoggedIn (s : Stores) (authKeyId : Arr 8) (userId : Int64) : Prop :=
  ∃ authz, s.authorizationsByAuthKey authKeyId = some authz ∧ authz.passwordPending = false ∧
    authz.userId = userId

section Stages

variable (draw : HandlerDraw) (ctx : RpcContext) {body rest : Bytes} {update : UserProfileUpdate}

/-- First the handler asks whose key it is. -/
theorem handleAccountUpdateProfile_eq
    (hdecode : AccountUpdateProfileRequest.decodeBare body = .ok update rest) :
    ∃ k, handleAccountUpdateProfile draw ctx body = .call (.authorizationsByAuthKey ctx.authKeyId) k ∧
      ∀ authz : Authorization, authz.passwordPending = false →
        k (.ok (some authz)) = afterResolve draw update authz.userId := by
  rw [handleAccountUpdateProfile, decode, hdecode]
  refine ⟨_, rfl, fun authz hpending => ?_⟩
  simp only [Prog.bind, hpending, Bool.false_eq_true, if_false]
  rfl

/-- Then it reads the account. -/
theorem afterResolve_eq (update : UserProfileUpdate) (userId : Int64) :
    ∃ k, afterResolve draw update userId = .call (.usersById userId) k ∧
      ∀ self : User, Failed (k (.ok (some self))) ∨
        (merge update (profileOf self) = profileOf self ∧ self.firstName ≠ [] ∧
          Succeeded (k (.ok (some self)))) ∨
        (merge update (profileOf self) ≠ profileOf self ∧
          k (.ok (some self)) = afterMerge userId (merge update (profileOf self))) := by
  refine ⟨_, rfl, fun self => ?_⟩
  have hsettled : merge update (profileOf self) = profileOf self ↔
      (update.firstName.map trimAsciiSpace).getD self.firstName = self.firstName ∧
        (update.lastName.map trimAsciiSpace).getD self.lastName = self.lastName ∧
        (update.about.map trimAsciiSpace).getD self.about = self.about := by
    rw [merge, profileOf, Profile.mk.injEq]
  simp only [Prog.bind, ne_eq, hsettled]
  generalize (if self.premiumActiveAt draw.now = true then maxProfileAboutRunesPremium
    else maxProfileAboutRunes) = aboutLimit
  split
  · exact .inl ⟨_, _, rfl⟩
  · next hnames =>
    split
    · exact .inl ⟨_, _, rfl⟩
    · split
      · next h =>
        rw [h.1] at hnames
        exact .inr (.inl ⟨h, fun hempty => hnames (.inl hempty), _, rfl⟩)
      · next h => exact .inr (.inr ⟨h, rfl⟩)

/-- Then it writes. -/
theorem afterMerge_eq (userId : Int64) (p : Profile) :
    ∃ k, afterMerge userId p = .call (.usersUpdateProfile userId p.firstName p.lastName p.about) k ∧
      (∀ u, Succeeded (k (.ok u))) ∧ ∀ e, Failed (k (.error e)) :=
  ⟨_, rfl, fun _ => ⟨_, rfl⟩, fun e => failed_updateProfileErrors e⟩

end Stages

/-! ## Two requests and the race they run -/

section Pair

variable {draw : Bool → HandlerDraw} {ctx : Bool → RpcContext} {body : Bool → Bytes}
  {update : Bool → UserProfileUpdate} {userId : Int64}

/-- Where a request stands that has had `n` turns and read `seen`. -/
def Stage (draw : HandlerDraw) (ctx : RpcContext) (body : Bytes) (update : UserProfileUpdate)
    (userId : Int64) (seen : Profile) (p : StoreProg Answer) : Nat → Prop
  | 0 => p = handleAccountUpdateProfile draw ctx body
  | 1 => p = afterResolve draw update userId
  | 2 =>
    (merge update seen = seen ∧ Succeeded p) ∨
      (merge update seen ≠ seen ∧ p = afterMerge userId (merge update seen))
  | _ => Succeeded p

/-- Two requests stand where the race stands. -/
structure Racing (draw : Bool → HandlerDraw) (ctx : Bool → RpcContext) (body : Bool → Bytes)
    (update : Bool → UserProfileUpdate) (userId : Int64)
    (c : Pool Bool StoreCall StoreCall.Res Exn Answer Stores) (r : Race Profile) : Prop where
  row : ∃ row, c.state.users.find userId = some row ∧ row.deleted = false ∧ profileOf row = r.cell
  keys : ∀ i, LoggedIn c.state (ctx i).authKeyId userId
  stage : ∀ i, Stage (draw i) (ctx i) (body i) (update i) userId (r.seen i) (c.progs i) (r.turns i)

theorem LoggedIn.congr {s s' : Stores} {authKeyId : Arr 8} (h : LoggedIn s authKeyId userId)
    (hsame : s'.authorizations = s.authorizations) : LoggedIn s' authKeyId userId := by
  simpa only [LoggedIn, Stores.authorizationsByAuthKey, hsame] using h

theorem LoggedIn.exec (P : Primitives) (m : Moment) {s : Stores} {authKeyId : Arr 8}
    (h : LoggedIn s authKeyId userId) :
    ∃ authz : Authorization, authz.passwordPending = false ∧ authz.userId = userId ∧
      (StoreCall.authorizationsByAuthKey authKeyId).exec P (atMoment m s) =
        (.ok (some authz), atMoment m s) := by
  obtain ⟨authz, hauthz, hpending, huser⟩ := h
  refine ⟨authz, hpending, huser, ?_⟩
  rw [← hauthz]
  rfl

theorem exec_usersById (P : Primitives) (m : Moment) {s : Stores} {row : User}
    (hrow : s.users.find userId = some row) :
    (StoreCall.usersById userId).exec P (atMoment m s) =
      (.ok (some (rowToUser (userId, row))), atMoment m s) := by
  simp only [StoreCall.exec, Stores.usersById, atMoment, hrow, Option.map_some]

/-- The write of a profile: it throws and changes nothing, or the live row has the profile. -/
theorem exec_usersUpdateProfile (P : Primitives) {s : Stores} {row : User} (p : Profile)
    (hrow : s.users.find userId = some row) (hlive : row.deleted = false) :
    (∃ e, (StoreCall.usersUpdateProfile userId p.firstName p.lastName p.about).exec P s = (.error e, s)) ∨
      ∃ u row', (StoreCall.usersUpdateProfile userId p.firstName p.lastName p.about).exec P s =
          (.ok u, { s with users := s.users.upsert userId row' }) ∧
        row'.deleted = false ∧ profileOf row' = p := by
  rcases write_cases (Stores.usersUpdateProfile userId p.firstName p.lastName p.about) s with
    herror | ⟨u, s', htx, hwrite⟩
  · exact .inl herror
  · simp only [Stores.usersUpdateProfile, Stores.updateOrThrow, Stores.updateLive, hrow, hlive,
      Bool.false_eq_true, if_false, Except.ok.injEq, Prod.mk.injEq] at htx
    obtain ⟨-, rfl⟩ := htx
    exact .inr ⟨u, _, hwrite, rfl, rfl⟩

variable {P : Primitives} {c : Pool Bool StoreCall StoreCall.Res Exn Answer Stores} {r : Race Profile}
  {rest : Bool → Bytes}

/-- The requests still stand where the race stands, once the one whose turn it was does. -/
theorem Racing.turned (h : Racing draw ctx body update userId c r) {i : Bool} {p : StoreProg Answer}
    {s : Stores} {row : User} (hauth : s.authorizations = c.state.authorizations)
    (hfind : s.users.find userId = some row) (hlive : row.deleted = false)
    (hcell : profileOf row = (r.turn 1 (fun i => merge (update i)) i).cell)
    (hstage : Stage (draw i) (ctx i) (body i) (update i) userId
      ((r.turn 1 (fun i => merge (update i)) i).seen i) p (r.turns i + 1)) :
    Racing draw ctx body update userId { progs := Function.update c.progs i p, state := s }
      (r.turn 1 (fun i => merge (update i)) i) where
  row := ⟨row, hfind, hlive, hcell⟩
  keys j := (h.keys j).congr hauth
  stage := by
    obtain ⟨hself, hother⟩ := Race.turns_turn 1 (fun i => merge (update i)) r i
    refine (Race.forall_side i).mpr ⟨?_, ?_⟩
    · simp only [hself, Function.update_self]
      exact hstage
    · simp only [hother, Race.seen_turn_not, Function.update_of_ne (Bool.not_ne_self i)]
      exact h.stage (!i)

section Turn

variable (h : Racing draw ctx body update userId c r) {i : Bool} (m : Moment)
include h

/-- The turn that asks whose key it is. -/
theorem Racing.turn_resolve
    (hdecode : AccountUpdateProfileRequest.decodeBare (body i) = .ok (update i) (rest i))
    (hturns : r.turns i = 0) :
    Racing draw ctx body update userId (c.turn (StoreCall.exec P) i (atMoment m))
      (r.turn 1 (fun i => merge (update i)) i) := by
  have hstage := h.stage i
  rw [hturns] at hstage
  obtain ⟨k, hcall, hk⟩ := handleAccountUpdateProfile_eq (draw i) (ctx i) hdecode
  obtain ⟨row, hfind, hlive, hcell⟩ := h.row
  obtain ⟨authz, hpending, huser, hexec⟩ := (h.keys i).exec P m
  rw [Pool.turn_of_call (hstage.trans hcall), hexec]
  refine h.turned rfl hfind hlive ?_ ?_
  · rw [hcell, (Race.turn_elsewhere (by omega) (by omega)).1]
  · rw [hturns, hk authz hpending, huser]
    rfl

/-- The turn that reads the account. -/
theorem Racing.turn_read (hturns : r.turns i = 1) :
    Failed ((c.turn (StoreCall.exec P) i (atMoment m)).progs i) ∨
      Racing draw ctx body update userId (c.turn (StoreCall.exec P) i (atMoment m))
        (r.turn 1 (fun i => merge (update i)) i) := by
  have hstage := h.stage i
  rw [hturns] at hstage
  obtain ⟨k, hcall, hk⟩ := afterResolve_eq (draw i) (update i) userId
  obtain ⟨row, hfind, hlive, hcell⟩ := h.row
  have hprofile : profileOf (rowToUser (userId, row)) = r.cell := by
    rw [← hcell]
    simp [rowToUser, User.deletedTombstone, hlive, profileOf]
  have hread : (r.turn 1 (fun i => merge (update i)) i).cell = r.cell ∧
      (r.turn 1 (fun i => merge (update i)) i).seen i = r.cell ∧ _ := Race.turn_read hturns
  rw [Pool.turn_of_call (hstage.trans hcall), exec_usersById P m hfind]
  have hgoes : Failed (k (.ok (some (rowToUser (userId, row))))) ∨
      Stage (draw i) (ctx i) (body i) (update i) userId r.cell (k (.ok (some (rowToUser (userId, row))))) 2 := by
    rw [← hprofile]
    rcases hk (rowToUser (userId, row)) with hfailed | ⟨hidle, -, hdone⟩ | hwrites
    · exact .inl hfailed
    · exact .inr (.inl ⟨hidle, hdone⟩)
    · exact .inr (.inr hwrites)
  rcases hgoes with hfailed | hgoes
  · left
    simpa using hfailed
  · right
    refine h.turned rfl hfind hlive (hcell.trans hread.1.symm) ?_
    rw [hturns, hread.2.1]
    exact hgoes

/-- The turn that writes the profile, where there is something to write. -/
theorem Racing.turn_write (hturns : r.turns i = 2) (hwrites : merge (update i) (r.seen i) ≠ r.seen i)
    (hprog : c.progs i = afterMerge userId (merge (update i) (r.seen i))) :
    Failed ((c.turn (StoreCall.exec P) i (atMoment m)).progs i) ∨
      Racing draw ctx body update userId (c.turn (StoreCall.exec P) i (atMoment m))
        (r.turn 1 (fun i => merge (update i)) i) := by
  obtain ⟨k, hcall, hok, herror⟩ := afterMerge_eq userId (merge (update i) (r.seen i))
  obtain ⟨row, hfind, hlive, -⟩ := h.row
  have hwritten : (r.turn 1 (fun i => merge (update i)) i).cell = merge (update i) (r.seen i) := by
    rw [(Race.turn_write hturns).2, if_neg hwrites]
  rw [Pool.turn_of_call (hprog.trans hcall)]
  have hfind' : (atMoment m c.state).users.find userId = some row := hfind
  rcases exec_usersUpdateProfile P (merge (update i) (r.seen i)) hfind' hlive with
    ⟨e, hexec⟩ | ⟨u, row', hexec, hlive', hprofile⟩
  · left
    rw [hexec]
    simpa using herror e
  · right
    rw [hexec]
    refine h.turned rfl (by simp) hlive' (hprofile.trans hwritten.symm) ?_
    rw [hturns]
    exact hok u

/-- A turn of a request that has succeeded. -/
theorem Racing.turn_done (hturns : 2 ≤ r.turns i)
    (hidle : r.turns i = 2 → merge (update i) (r.seen i) = r.seen i) (hdone : Succeeded (c.progs i)) :
    Racing draw ctx body update userId (c.turn (StoreCall.exec P) i (atMoment m))
      (r.turn 1 (fun i => merge (update i)) i) := by
  obtain ⟨row, hfind, hlive, hcell⟩ := h.row
  obtain ⟨list, hlist⟩ := hdone
  have hkept : (r.turn 1 (fun i => merge (update i)) i).cell = r.cell := by
    by_cases htwo : r.turns i = 2
    · rw [(Race.turn_write htwo).2, if_pos (hidle htwo)]
    · exact (Race.turn_elsewhere (by omega) htwo).1
  have hsame : c = { progs := Function.update c.progs i (c.progs i), state := c.state } := by
    rw [Function.update_eq_self]
  rw [Pool.turn_of_ret hlist, hsame]
  refine h.turned rfl hfind hlive (hcell.trans hkept.symm) ?_
  obtain ⟨n, hn⟩ : ∃ n, r.turns i + 1 = n + 3 := ⟨r.turns i - 2, by omega⟩
  rw [hn]
  exact ⟨list, hlist⟩

/-- **A turn keeps the requests where the race stands, unless one of them fails.** -/
theorem Racing.turn (hdecode : AccountUpdateProfileRequest.decodeBare (body i) = .ok (update i) (rest i)) :
    Failed ((c.turn (StoreCall.exec P) i (atMoment m)).progs i) ∨
      Racing draw ctx body update userId (c.turn (StoreCall.exec P) i (atMoment m))
        (r.turn 1 (fun i => merge (update i)) i) := by
  have hstage := h.stage i
  match hturns : r.turns i with
  | 0 => exact .inr (h.turn_resolve m hdecode hturns)
  | 1 => exact h.turn_read m hturns
  | 2 =>
    rw [hturns] at hstage
    rcases hstage with ⟨hidle, hdone⟩ | ⟨hwrites, hprog⟩
    · exact .inr (h.turn_done m (by omega) (fun _ => hidle) hdone)
    · exact h.turn_write m hturns hwrites hprog
  | n + 3 =>
    rw [hturns] at hstage
    exact .inr (h.turn_done m (by omega) (fun htwo => by omega) hstage)

end Turn

/-! ## A deleted account -/

/-- Two requests of an account that is deleted. -/
structure Stuck (draw : Bool → HandlerDraw) (ctx : Bool → RpcContext) (body : Bool → Bytes)
    (update : Bool → UserProfileUpdate) (userId : Int64)
    (c : Pool Bool StoreCall StoreCall.Res Exn Answer Stores) : Prop where
  row : ∃ row, c.state.users.find userId = some row ∧ row.deleted = true
  keys : ∀ i, LoggedIn c.state (ctx i).authKeyId userId
  stage : ∀ i, c.progs i = handleAccountUpdateProfile (draw i) (ctx i) (body i) ∨
    c.progs i = afterResolve (draw i) (update i) userId ∨ (∃ p, c.progs i = afterMerge userId p) ∨
    Failed (c.progs i)

/-- A request of a deleted account never succeeds: its first name reads as empty, and a write finds no
live row. -/
theorem Stuck.turn (h : Stuck draw ctx body update userId c) {i : Bool} (m : Moment)
    (hdecode : AccountUpdateProfileRequest.decodeBare (body i) = .ok (update i) (rest i)) :
    Stuck draw ctx body update userId (c.turn (StoreCall.exec P) i (atMoment m)) := by
  obtain ⟨row, hfind, hdeleted⟩ := h.row
  -- no call of the two changes the account
  have hkeeps : ∀ p : StoreProg Answer,
      (p = afterResolve (draw i) (update i) userId ∨ (∃ q, p = afterMerge userId q) ∨ Failed p) →
      Stuck draw ctx body update userId
        { progs := Function.update c.progs i p, state := atMoment m c.state } := by
    intro p hp
    refine ⟨⟨row, hfind, hdeleted⟩, fun j => (h.keys j).congr rfl, (Race.forall_side i).mpr ⟨?_, ?_⟩⟩
    · simp only [Function.update_self]
      exact .inr hp
    · simp only [Function.update_of_ne (Bool.not_ne_self i)]
      exact h.stage (!i)
  -- One case for each place at which the request can stand.
  rcases h.stage i with hprog | hprog | ⟨p, hprog⟩ | ⟨code, message, hprog⟩
  · obtain ⟨k, hcall, hk⟩ := handleAccountUpdateProfile_eq (draw i) (ctx i) hdecode
    obtain ⟨authz, hpending, huser, hexec⟩ := (h.keys i).exec P m
    rw [Pool.turn_of_call (hprog.trans hcall), hexec]
    refine hkeeps _ (.inl ?_)
    rw [hk authz hpending, huser]
  · obtain ⟨k, hcall, hk⟩ := afterResolve_eq (draw i) (update i) userId
    rw [Pool.turn_of_call (hprog.trans hcall), exec_usersById P m hfind]
    refine hkeeps _ (.inr ?_)
    rcases hk (rowToUser (userId, row)) with hfailed | ⟨-, hname, -⟩ | ⟨-, hmerge⟩
    · exact .inr hfailed
    · exact absurd (by simp [rowToUser, User.deletedTombstone, hdeleted]) hname
    · exact .inl ⟨_, hmerge⟩
  · obtain ⟨k, hcall, -, herror⟩ := afterMerge_eq userId p
    have hexec : ∃ e, (StoreCall.usersUpdateProfile userId p.firstName p.lastName p.about).exec P
        (atMoment m c.state) = (.error e, atMoment m c.state) := by
      rcases write_cases (Stores.usersUpdateProfile userId p.firstName p.lastName p.about)
        (atMoment m c.state) with herror | ⟨u, s', htx, -⟩
      · exact herror
      · simp [Stores.usersUpdateProfile, Stores.updateOrThrow, Stores.updateLive, atMoment, hfind,
          hdeleted] at htx
    obtain ⟨e, hexec⟩ := hexec
    rw [Pool.turn_of_call (hprog.trans hcall), hexec]
    exact hkeeps _ (.inr (.inr (herror e)))
  · rw [Pool.turn_of_ret hprog]
    exact h

end Pair

/-! ## No lost update -/

section Updates

variable (P : Primitives) (draw : Bool → HandlerDraw) (ctx : Bool → RpcContext) (body : Bool → Bytes)
  (sched : List (Bool × Moment)) (s : Stores)

/-- Two requests `account.updateProfile`, their calls to the stores in the order of a schedule. -/
def updatesSideBySide : Pool Bool StoreCall StoreCall.Res Exn Answer Stores :=
  Pool.interleave (StoreCall.exec P) (sched.map fun t => (t.1, atMoment t.2))
    { progs := fun i => handleAccountUpdateProfile (draw i) (ctx i) (body i), state := s }

/-- Both requests read the account before either writes it. -/
def ReadTogether (sched : List (Bool × Moment)) : Prop := Together 1 (sched.map Prod.fst)

instance : Decidable (ReadTogether sched) := inferInstanceAs (Decidable (Together 1 (sched.map Prod.fst)))

variable {P draw ctx body sched s} {update : Bool → UserProfileUpdate} {rest : Bool → Bytes}
  {userId : Int64} {row : User}

/-- The requests end where the race ends, unless one of them fails. -/
theorem racing_updatesSideBySide
    (hdecode : ∀ i, AccountUpdateProfileRequest.decodeBare (body i) = .ok (update i) (rest i))
    (hkeys : ∀ i, LoggedIn s (ctx i).authKeyId userId) (hrow : s.users.find userId = some row)
    (hlive : row.deleted = false) :
    (∃ j, Failed ((updatesSideBySide P draw ctx body sched s).progs j)) ∨
      Racing draw ctx body update userId (updatesSideBySide P draw ctx body sched s)
        ((Race.start (profileOf row)).run 1 (fun i => merge (update i)) (sched.map Prod.fst)) := by
  have hmap : sched.map Prod.fst = (sched.map fun t => (t.1, atMoment t.2)).map Prod.fst := by
    rw [List.map_map]
    rfl
  rw [hmap]
  refine Pool.interleave_rel (R := fun c r => (∃ j, Failed (c.progs j)) ∨ Racing draw ctx body update userId c r)
    (fun i r => r.turn 1 (fun i => merge (update i)) i) _ _ _ ?_ (.inr ⟨⟨row, hrow, hlive, rfl⟩, hkeys, fun _ => rfl⟩)
  rintro i env c r hmem (⟨j, code, message, hfailed⟩ | hracing)
  · exact .inl ⟨j, code, message, Pool.turn_progs_ret hfailed⟩
  · obtain ⟨t, -, ht⟩ := List.mem_map.mp hmem
    cases ht
    rcases hracing.turn t.2 (hdecode _) with hfailed | hracing
    · exact .inl ⟨_, hfailed⟩
    · exact .inr hracing

/-- The requests of a deleted account do not succeed. -/
theorem not_succeeded_of_deleted
    (hdecode : ∀ i, AccountUpdateProfileRequest.decodeBare (body i) = .ok (update i) (rest i))
    (hkeys : ∀ i, LoggedIn s (ctx i).authKeyId userId) (hrow : s.users.find userId = some row)
    (hdeleted : row.deleted = true) (i : Bool) :
    ¬ Succeeded ((updatesSideBySide P draw ctx body sched s).progs i) := by
  have hstuck : Stuck draw ctx body update userId (updatesSideBySide P draw ctx body sched s) := by
    refine Pool.interleave_rel (R := fun c (_ : Unit) => Stuck draw ctx body update userId c)
      (fun _ _ => ()) _ _ () ?_ ⟨⟨row, hrow, hdeleted⟩, hkeys, fun _ => .inl rfl⟩
    intro i env c _ hmem hstuck
    obtain ⟨t, -, ht⟩ := List.mem_map.mp hmem
    cases ht
    exact hstuck.turn t.2 (hdecode _)
  rintro ⟨list, hlist⟩
  rcases hstuck.stage i with hprog | hprog | ⟨p, hprog⟩ | hfailed
  · obtain ⟨k, hcall, -⟩ := handleAccountUpdateProfile_eq (draw i) (ctx i) (hdecode i)
    rw [hlist, hcall] at hprog
    cases hprog
  · obtain ⟨k, hcall, -⟩ := afterResolve_eq (draw i) (update i) userId
    rw [hlist, hcall] at hprog
    cases hprog
  · obtain ⟨k, hcall, -⟩ := afterMerge_eq userId p
    rw [hlist, hcall] at hprog
    cases hprog
  · exact not_succeeded_of_failed hfailed ⟨list, hlist⟩

/-- A request that has succeeded has written, or had nothing to write. -/
theorem finished_of_succeeded {c : Pool Bool StoreCall StoreCall.Res Exn Answer Stores} {r : Race Profile}
    (h : Racing draw ctx body update userId c r) {i : Bool}
    (hdecode : AccountUpdateProfileRequest.decodeBare (body i) = .ok (update i) (rest i))
    (hsuccess : Succeeded (c.progs i)) : r.Finished 1 (fun i => merge (update i)) i := by
  obtain ⟨list, hlist⟩ := hsuccess
  have hstage := h.stage i
  unfold Race.Finished
  match hturns : r.turns i with
  | 0 =>
    obtain ⟨k, hcall, -⟩ := handleAccountUpdateProfile_eq (draw i) (ctx i) hdecode
    rw [hturns, Stage, hlist, hcall] at hstage
    cases hstage
  | 1 =>
    obtain ⟨k, hcall, -⟩ := afterResolve_eq (draw i) (update i) userId
    rw [hturns, Stage, hlist, hcall] at hstage
    cases hstage
  | 2 =>
    rw [hturns] at hstage
    rcases hstage with ⟨hidle, -⟩ | ⟨-, hprog⟩
    · exact .inr ⟨rfl, hidle⟩
    · obtain ⟨k, hcall, -⟩ := afterMerge_eq userId (merge (update i) (r.seen i))
      rw [hlist, hcall] at hprog
      cases hprog
  | n + 3 => exact .inl (by omega)

/-- **No update of a profile is lost, exactly where the two requests have not both read the account
before either writes it, or one of them asks for what the account has.** -/
theorem updateProfile_holdsBoth_iff
    (hdecode : ∀ i, AccountUpdateProfileRequest.decodeBare (body i) = .ok (update i) (rest i))
    (hkeys : ∀ i, LoggedIn s (ctx i).authKeyId userId) (hrow : s.users.find userId = some row)
    (hseparate : Separate (update true) (update false))
    (hsuccess : ∀ i, Succeeded ((updatesSideBySide P draw ctx body sched s).progs i)) :
    (∃ row', (updatesSideBySide P draw ctx body sched s).state.users.find userId = some row' ∧
        HoldsBoth (update true) (update false) row row') ↔
      ¬ ReadTogether sched ∨ Settled (update true) row ∨ Settled (update false) row := by
  have hlive : row.deleted = false := by
    cases hdeleted : row.deleted with
    | false => rfl
    | true => exact absurd (hsuccess true) (not_succeeded_of_deleted hdecode hkeys hrow hdeleted true)
  rcases racing_updatesSideBySide hdecode hkeys hrow hlive with ⟨j, hfailed⟩ | hracing
  · exact absurd (hsuccess j) (not_succeeded_of_failed hfailed)
  · have hgoal : ∀ i, merge (update i) (merge (update !i) (profileOf row)) =
        merge (update true) (merge (update false) (profileOf row)) := by
      rintro (_ | _)
      · exact merge_comm hseparate.symm _
      · rfl
    have hsep : ∀ i, merge (update i) (profileOf row) =
          merge (update true) (merge (update false) (profileOf row)) →
        merge (update !i) (profileOf row) = profileOf row := by
      intro i heq
      rw [← hgoal i] at heq
      cases i with
      | false => exact merge_eq_of_merge_merge hseparate.symm heq
      | true => exact merge_eq_of_merge_merge hseparate heq
    -- Two reads and two writes of one cell: what is left holds both unless both read before a write.
    have hiff := Race.cell_eq_iff hgoal hsep fun i => finished_of_succeeded hracing (hdecode i) (hsuccess i)
    obtain ⟨row', hfind, -, hcell⟩ := hracing.row
    rw [Bool.exists_bool, ← hcell, ← holdsBoth_iff, or_comm (a := merge (update false) _ = _)] at hiff
    constructor
    · rintro ⟨row'', hfind', hholds⟩
      cases hfind.symm.trans hfind'
      exact hiff.mp hholds
    · exact fun h => ⟨row', hfind, hiff.mpr h⟩

end Updates

/-! ### A first name and a last name at once -/

def profileRow : User := { firstName := ascii "Ann", lastName := ascii "Lee" }

/-- An account under the id 7, and a key that is logged in to it. -/
def profileStores : Stores :=
  { Stores.empty { now := 0, newUserId := 0 } with
    users := Table.empty.upsert 7 profileRow
    authorizations := Table.empty.upsert (Arr.zero 8) { authKeyId := Arr.zero 8, userId := 7 } }

def profilePrimitives : Primitives :=
  { sha1 := fun _ => Arr.zero 20, sha256 := fun _ => Arr.zero 32, aes := fun _ => Equiv.refl _ }

def profileDraw : HandlerDraw :=
  { sendCode := { hash := Arr.zero 8, digits := fun _ => 0, deliveryId := Arr.zero 16, now := 0 }
    accessHash := 0
    challenge := { secret := Arr.zero 256, srpId := 0 }
    now := 0 }

def profileUpdates : Bool → UserProfileUpdate
  | true => { firstName := some (ascii "Bea"), lastName := none, about := none }
  | false => { firstName := none, lastName := some (ascii "Roe"), about := none }

def profileBodies : Bool → Bytes
  | true => [1, 0, 0, 0, 3] ++ ascii "Bea"
  | false => [2, 0, 0, 0, 3] ++ ascii "Roe"

/-- The two requests, in a given order of their calls. -/
def profileRun (sides : List Bool) : Pool Bool StoreCall StoreCall.Res Exn Answer Stores :=
  updatesSideBySide profilePrimitives (fun _ => profileDraw) (fun _ => { authKeyId := Arr.zero 8, sessionId := 0 })
    profileBodies (sides.map fun i => (i, { now := 0, newUserId := 0 })) profileStores

theorem decode_profileBodies (i : Bool) :
    AccountUpdateProfileRequest.decodeBare (profileBodies i) = .ok (profileUpdates i) [] := by
  cases i <;> rfl

theorem loggedIn_profileStores : LoggedIn profileStores (Arr.zero 8) 7 := ⟨_, rfl, rfl, rfl⟩

theorem separate_profileUpdates : Separate (profileUpdates true) (profileUpdates false) :=
  ⟨.inr rfl, .inl rfl, .inl rfl⟩

def hasSucceeded : StoreProg Answer → Bool
  | .ret (.users _) => true
  | _ => false

theorem succeeded_of_hasSucceeded {p : StoreProg Answer} (h : hasSucceeded p = true) : Succeeded p := by
  unfold hasSucceeded at h
  split at h
  · exact ⟨_, rfl⟩
  · cases h

/-- One request after the other: both names are there. -/
theorem profileRun_holdsBoth :
    ∃ row', (profileRun [true, true, true, false, false, false]).state.users.find 7 = some row' ∧
      HoldsBoth (profileUpdates true) (profileUpdates false) profileRow row' :=
  (updateProfile_holdsBoth_iff decode_profileBodies (fun _ => loggedIn_profileStores) rfl
    separate_profileUpdates fun i => succeeded_of_hasSucceeded (by cases i <;> decide +kernel)).mpr
    (.inl (by decide))

/-- **Both requests succeed, and the first name of one is lost to the last name of the other.** -/
theorem profileRun_loses_firstName :
    (∀ i, AccountUpdateProfileRequest.decodeBare (profileBodies i) = .ok (profileUpdates i) []) ∧
      LoggedIn profileStores (Arr.zero 8) 7 ∧ profileStores.users.find 7 = some profileRow ∧
      Separate (profileUpdates true) (profileUpdates false) ∧
      (∀ i, Succeeded ((profileRun [true, false, true, false, true, false]).progs i)) ∧
      ¬ ∃ row', (profileRun [true, false, true, false, true, false]).state.users.find 7 = some row' ∧
        HoldsBoth (profileUpdates true) (profileUpdates false) profileRow row' := by
  refine ⟨decode_profileBodies, loggedIn_profileStores, rfl, separate_profileUpdates,
    fun i => succeeded_of_hasSucceeded (by cases i <;> decide +kernel), ?_⟩
  rintro ⟨row', hfind, hfirst, -⟩
  have hname : ((profileRun [true, false, true, false, true, false]).state.users.find 7).map User.firstName =
      some (ascii "Ann") := by
    decide +kernel
  rw [hfind, Option.map_some, hfirst] at hname
  exact absurd hname (by decide)

end ShuzaGram.Server
