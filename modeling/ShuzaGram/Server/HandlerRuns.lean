import ShuzaGram.Auth.LoginRuns
import ShuzaGram.Server.Handlers

/-!
# The runs of the handlers

Sequences of handler calls, and what a single one leaves alone. Between the store calls of a handler
only the outside world moves on (`atMoments`).
-/

namespace ShuzaGram.Server

open Infra Domain Store Mtproto Mtproto.Messages Mtproto.Crypto Auth Users

/-! ## Sequences of calls -/

structure HandlerCall where
  method : Method
  ctx : RpcContext
  body : Bytes
  draw : HandlerDraw
  moments : Nat → Moment

/-- A call that was made. -/
structure Handled where
  call : HandlerCall
  before : Stores
  trace : List StoreEvent
  result : Except Exn Answer
  after : Stores

section

variable (cfg : Config)

/-- Run a program between the moments of a call. -/
abbrev runAt {α : Type} (moments : Nat → Moment) (p : StoreProg α) (s : Stores) :
    Prog.Outcome StoreCall.Res Exn Stores α :=
  p.run (StoreCall.attempt cfg.primitives) (atMoments moments) 0 s

def runHandler (s : Stores) (call : HandlerCall) : Handled :=
  let o := runAt cfg call.moments (handle cfg call.draw call.ctx call.body call.method) s
  { call, before := s, trace := o.trace, result := o.result, after := o.state }

/-- Run a sequence of calls: the history and the stores they leave. -/
def runHandlers (calls : List HandlerCall) (s : Stores) : List Handled × Stores :=
  calls.foldl (fun (hist, s) call =>
    let h := runHandler cfg s call
    (hist ++ [h], h.after)) ([], s)

theorem runHandlers_snoc (calls : List HandlerCall) (call : HandlerCall) (s : Stores) :
    runHandlers cfg (calls ++ [call]) s =
      ((runHandlers cfg calls s).1 ++ [runHandler cfg (runHandlers cfg calls s).2 call],
        (runHandler cfg (runHandlers cfg calls s).2 call).after) := by
  simp [runHandlers]

end

/-! ## Reading the request and answering exceptions -/

section Wrapping

variable {P : Primitives} {env : Nat → Stores → Stores} {n : Nat} {s : Stores} {α β : Type}

theorem run_decode_bind (x : Get α) (body : Bytes) (f : α → StoreProg β) :
    (decode x body >>= f).run (StoreCall.attempt P) env n s =
      match x body with
      | .ok a _ => (f a).run (StoreCall.attempt P) env n s
      | .error e _ => { result := .error e, state := s, trace := [] } := by
  unfold decode
  cases x body <;> rfl

/-- Turning exceptions into answers changes the result only. -/
theorem run_answering (p : StoreProg Answer) (errors : Exn → Answer) :
    let o := p.run (StoreCall.attempt P) env n s
    let o' := (answering p errors).run (StoreCall.attempt P) env n s
    o'.state = o.state ∧ o'.trace = o.trace := by
  unfold answering
  simp only [Prog.run_tryCatch]
  cases (p.run (StoreCall.attempt P) env n s).result with
  | ok a => exact ⟨rfl, rfl⟩
  | error e => exact ⟨rfl, List.append_nil _⟩

/-- So does turning the result into an answer. -/
theorem run_bind_pure (p : StoreProg α) (f : α → StoreProg β) (hf : ∀ a, ∃ b, f a = pure b) :
    let o := p.run (StoreCall.attempt P) env n s
    let o' := (p >>= f).run (StoreCall.attempt P) env n s
    o'.state = o.state ∧ o'.trace = o.trace := by
  simp only [Prog.run_bind]
  cases h : (p.run (StoreCall.attempt P) env n s).result with
  | error e => exact ⟨rfl, rfl⟩
  | ok a =>
    obtain ⟨b, hb⟩ := hf a
    simp [hb]

/-- **What a handler of the login does is what its function does**, or nothing where the body cannot be
read. -/
theorem run_wrapped {x : Get α} {body : Bytes} {p : α → StoreProg β} {f : α → β → StoreProg Answer}
    {errors : Exn → Answer} (hf : ∀ a b, ∃ answer, f a b = pure answer) {Q : Stores → List StoreEvent → Prop}
    (hunread : Q s [])
    (hp : ∀ a, Q ((p a).run (StoreCall.attempt P) env n s).state ((p a).run (StoreCall.attempt P) env n s).trace) :
    let o := (decode x body >>= fun a => answering (p a >>= f a) errors).run (StoreCall.attempt P) env n s
    Q o.state o.trace := by
  simp only [run_decode_bind]
  cases x body with
  | error e rest => exact hunread
  | ok a rest =>
    obtain ⟨hstate, htrace⟩ := run_answering (P := P) (n := n) (s := s) (p a >>= f a) errors
    obtain ⟨hstate', htrace'⟩ := run_bind_pure (P := P) (n := n) (s := s) (p a) (f a) (hf a)
    simp only at hstate htrace hstate' htrace' ⊢
    rw [hstate, htrace, hstate', htrace']
    exact hp a

end Wrapping

/-! ## Handlers that leave logins and passwords alone -/

/-- The call changes neither logins nor passwords. -/
def Harmless (call : StoreCall) : Prop := call.area ≠ some .authorizations ∧ call.area ≠ some .passwords

section Harmless

theorem harmless_decode {α : Type} (x : Get α) (body : Bytes) : (decode x body).Only Harmless := by
  unfold decode
  split
  · exact Prog.only_pure _
  · exact Prog.only_throw _

theorem harmless_answering {p : StoreProg Answer} (errors : Exn → Answer) (hp : p.Only Harmless) :
    (answering p errors).Only Harmless :=
  hp.tryCatch fun _ => Prog.only_pure _

theorem harmless_resolveCurrentUser (k : Arr 8) : (resolveCurrentUser k).Only Harmless := by
  unfold resolveCurrentUser
  refine Prog.Only.bind (Prog.only_perform ⟨nofun, nofun⟩) fun x => ?_
  cases x with
  | none => exact Prog.only_pure _
  | some authz => exact Prog.Only.ite (Prog.only_pure _) (Prog.only_pure _)

theorem harmless_loadSelf (id : Int64) : (loadSelf id).Only Harmless := by
  unfold loadSelf
  refine Prog.Only.ite (Prog.only_throw_bind _ _) ?_
  refine Prog.Only.bind (Prog.only_perform ⟨nofun, nofun⟩) fun x => ?_
  cases x with
  | none => exact Prog.only_throw _
  | some self => exact Prog.only_pure _

theorem harmless_checkUsernameAvailable (id : Int64) (username : Bytes) :
    (checkUsernameAvailable id username).Only Harmless := by
  unfold checkUsernameAvailable
  refine Prog.Only.bind (Prog.only_perform ⟨nofun, nofun⟩) fun x => ?_
  cases x with
  | none => exact Prog.only_pure _
  | some existing => exact Prog.only_pure _

theorem harmless_resolveGetUsers (k : Arr 8) (inputs : List InputUser) :
    (resolveGetUsers k inputs).Only Harmless := by
  unfold resolveGetUsers
  refine (harmless_resolveCurrentUser k).bind fun current => ?_
  refine Prog.Only.ite (Prog.Only.bind (Prog.only_perform ⟨nofun, nofun⟩) fun self => ?_) ?_
  all_goals
    exact Prog.Only.ite (Prog.Only.bind (Prog.only_perform ⟨nofun, nofun⟩) fun _ => Prog.only_pure _)
      (Prog.only_pure _)

theorem harmless_updateProfile (id : Int64) (update : UserProfileUpdate) (now : Int) :
    (updateProfile id update now).Only Harmless := by
  unfold updateProfile
  refine Prog.Only.bind (Prog.only_perform ⟨nofun, nofun⟩) fun x => ?_
  cases x with
  | none => exact Prog.only_throw _
  | some self =>
    refine Prog.Only.ite (Prog.only_throw_bind _ _) ?_
    refine Prog.Only.ite (Prog.only_throw_bind _ _) ?_
    exact Prog.Only.ite (Prog.only_pure _) (Prog.only_perform ⟨nofun, nofun⟩)

theorem harmless_checkUsername (id : Int64) (username : Bytes) : (checkUsername id username).Only Harmless := by
  unfold checkUsername
  refine (harmless_loadSelf id).bind fun self => ?_
  exact Prog.Only.ite (Prog.only_throw_bind _ _) (harmless_checkUsernameAvailable _ _)

theorem harmless_checkNewUsername (id : Int64) (normalized : Bytes) :
    (checkNewUsername id normalized).Only Harmless := by
  unfold checkNewUsername
  refine Prog.Only.ite (Prog.only_throw_bind _ _) ?_
  exact (harmless_checkUsernameAvailable _ _).bind fun available =>
    Prog.Only.ite (Prog.only_throw _) (Prog.only_pure _)

theorem harmless_updateUsername (id : Int64) (username : Bytes) :
    (updateUsername id username).Only Harmless := by
  unfold updateUsername
  refine (harmless_loadSelf id).bind fun self => ?_
  have hrest : ∀ normalized, (if self.username = normalized then pure self
      else StoreProg.usersUpdateUsername self.id normalized : StoreProg User).Only Harmless := fun normalized =>
    Prog.Only.ite (Prog.only_pure _) (Prog.only_perform ⟨nofun, nofun⟩)
  exact Prog.Only.ite ((harmless_checkNewUsername _ _).bind fun _ => hrest _) (hrest _)

theorem harmless_updateBirthday (id : Int64) (birthday : Birthday) :
    (updateBirthday id birthday).Only Harmless := by
  unfold updateBirthday
  refine Prog.Only.bind (Prog.only_perform ⟨nofun, nofun⟩) fun x => ?_
  cases x with
  | none => exact Prog.only_throw _
  | some self =>
    refine Prog.Only.ite ?_ (Prog.only_perform ⟨nofun, nofun⟩)
    exact Prog.Only.ite (Prog.only_throw_bind _ _) (Prog.only_perform ⟨nofun, nofun⟩)

theorem harmless_updateStatus (k : Arr 8) (now : Int) : (updateStatus k now).Only Harmless := by
  unfold updateStatus
  refine (harmless_resolveCurrentUser k).bind fun current => ?_
  exact Prog.Only.ite (Prog.only_pure _) (Prog.only_perform ⟨nofun, nofun⟩)

theorem harmless_deliverOrRollBack (hash : Bytes) (request : DeliveryRequest) :
    (deliverOrRollBack hash request).Only Harmless := by
  unfold deliverOrRollBack
  refine Prog.Only.tryCatch (Prog.only_perform ⟨nofun, nofun⟩) fun e => ?_
  split
  · exact Prog.Only.bind (Prog.only_perform ⟨nofun, nofun⟩) fun _ => Prog.only_throw _
  · exact Prog.only_throw _

theorem harmless_sendCode (lib : PhoneLibrary) (phoneNumber fixedCode : Bytes) (sender : Option OtpSender)
    (codeTtl : Int) (draw : SendCodeDraw) :
    (sendCode lib phoneNumber fixedCode sender codeTtl draw).Only Harmless := by
  unfold sendCode currentPhoneOwnerId
  refine Prog.Only.ite (Prog.only_throw_bind _ _) ?_
  refine Prog.Only.bind (Prog.Only.bind (Prog.only_perform ⟨nofun, nofun⟩) fun x => ?_) fun owner => ?_
  · cases x with
    | none => exact Prog.only_pure _
    | some u => exact Prog.only_pure _
  · refine Prog.Only.bind (Prog.only_perform ⟨nofun, nofun⟩) fun _ => ?_
    exact Prog.Only.ite ((harmless_deliverOrRollBack _ _).bind fun _ => Prog.only_pure _) (Prog.only_pure _)

end Harmless

/-- The methods whose handlers change neither logins nor passwords. -/
def Method.harmless : Method → Bool
  | .authSignIn | .authSignUp | .accountGetPassword | .authCheckPassword => false
  | _ => true

/-- **Every other handler leaves logins and passwords alone.** -/
theorem harmless_handle (cfg : Config) (draw : HandlerDraw) (ctx : RpcContext) (body : Bytes) {method : Method}
    (h : method.harmless = true) : (handle cfg draw ctx body method).Only Harmless := by
  cases method with
  | authSignIn | authSignUp | accountGetPassword | authCheckPassword => cases h
  | authSendCode =>
    refine (harmless_decode _ _).bind fun req => harmless_answering _ ?_
    exact (harmless_sendCode _ _ _ _ _ _).bind fun _ => Prog.only_pure _
  | usersGetUsers =>
    refine harmless_answering _ ((harmless_decode _ _).bind fun ids => ?_)
    exact (harmless_resolveGetUsers _ _).bind fun _ => Prog.only_pure _
  | accountUpdateStatus =>
    refine harmless_answering _ ((harmless_decode _ _).bind fun _ => ?_)
    exact (harmless_updateStatus _ _).bind fun _ => Prog.only_pure _
  | accountGetAuthorizations =>
    refine harmless_answering _ ((harmless_resolveCurrentUser _).bind fun current => ?_)
    exact Prog.Only.ite (Prog.Only.bind (Prog.only_perform ⟨nofun, nofun⟩) fun _ => Prog.only_pure _)
      (Prog.only_pure _)
  | accountUpdateProfile =>
    refine harmless_answering _ ((harmless_decode _ _).bind fun update => ?_)
    refine (harmless_resolveCurrentUser _).bind fun current => ?_
    exact (harmless_updateProfile _ _ _).bind fun _ => Prog.only_pure _
  | accountCheckUsername =>
    refine harmless_answering _ ((harmless_decode _ _).bind fun username => ?_)
    refine (harmless_resolveCurrentUser _).bind fun current => ?_
    exact (harmless_checkUsername _ _).bind fun _ => Prog.only_pure _
  | accountUpdateUsername =>
    refine harmless_answering _ ((harmless_decode _ _).bind fun username => ?_)
    refine (harmless_resolveCurrentUser _).bind fun current => ?_
    exact (harmless_updateUsername _ _).bind fun _ => Prog.only_pure _
  | accountUpdateBirthday =>
    refine harmless_answering _ ((harmless_decode _ _).bind fun birthday => ?_)
    refine (harmless_resolveCurrentUser _).bind fun current => ?_
    exact (harmless_updateBirthday _ _).bind fun _ => Prog.only_pure _

end ShuzaGram.Server
