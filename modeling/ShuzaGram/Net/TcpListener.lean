import ShuzaGram.Errors
import ShuzaGram.Infra.Descriptors

/-!
# Opening sockets

`net/tcp_listener.cpp`, and `TcpSocket::Connect` of `net/tcp_socket.cpp`: how the process comes by its sockets.
What the calls of the kernel return is given; a number that the kernel gives away is one that is free.

* `TcpListener.construct_cases` — a listener that cannot be set up leaves no descriptor behind
* `connect_cases` — nor does a connection that cannot be made
-/

namespace ShuzaGram.Net

open Infra

variable {η ρ : Type} [DecidableEq η]

/-! ## The listener -/

/-- What the kernel answers while a listener is set up; an error is the text of `errno`. -/
structure ListenerSetup where
  socket : Except String Nat
  /-- `inet_pton` understands the address. -/
  addressValid : Bool
  bind : Except String Unit
  listen : Except String Unit
  getsockname : Except String UInt16

/-- The constructor: the port that was bound, and the descriptors it leaves. -/
def TcpListener.construct (d : Descriptors η ρ) (h : η) (r : ρ) (bindAddress : String) (port : UInt16)
    (k : ListenerSetup) : Except Exn UInt16 × Descriptors η ρ :=
  match k.socket with
  | .error errno => (.error (.runtimeError ("socket: " ++ errno)), d)
  | .ok fd =>
    let d := d.adopt h fd r
    let any := bindAddress = "" || bindAddress = "0.0.0.0"
    if !any && !k.addressValid then
      (.error (.runtimeError ("invalid IPv4 bind address: " ++ bindAddress)), d.close h)
    else
      match k.bind with
      | .error errno =>
        (.error (.runtimeError ("bind " ++ bindAddress ++ ":" ++ toString port ++ ": " ++ errno)), d.close h)
      | .ok () =>
        match k.listen with
        | .error errno => (.error (.runtimeError ("listen: " ++ errno)), d.close h)
        | .ok () =>
          match k.getsockname with
          | .error errno => (.error (.runtimeError ("getsockname: " ++ errno)), d.close h)
          | .ok bound => (.ok bound, d)

/-- A listener is set up under a number of its own, or nothing is left of it. -/
theorem TcpListener.construct_cases {d : Descriptors η ρ} {h : η} (r : ρ) (bindAddress : String) (port : UInt16)
    (k : ListenerSetup) (hempty : d.held h = none) (hfree : ∀ fd, k.socket = .ok fd → d.table fd = none) :
    (∃ e, construct d h r bindAddress port k = (.error e, d)) ∨
      ∃ fd bound, k.socket = .ok fd ∧ construct d h r bindAddress port k = (.ok bound, d.adopt h fd r) := by
  unfold construct
  cases hsocket : k.socket with
  | error errno => exact .inl ⟨_, rfl⟩
  | ok fd =>
    have hback : (d.adopt h fd r).close h = d := Descriptors.close_adopt (hfree fd hsocket) hempty
    simp only [hback]
    split
    · exact .inl ⟨_, rfl⟩
    · split
      · exact .inl ⟨_, rfl⟩
      · split
        · exact .inl ⟨_, rfl⟩
        · split
          · exact .inl ⟨_, rfl⟩
          · exact .inr ⟨fd, _, rfl, rfl⟩

/-- What `poll` returns for the listening descriptor. -/
inductive Poll where
  | ready
  | timedOut
  | interrupted
  | failed (errno : String)

/-- Why an `accept` failed. -/
inductive AcceptErrno where
  | connAborted
  | again
  | wouldBlock
  | other (errno : String)

/-- `AcceptWithTimeout` up to its `accept`: whether it gets there, or there is nothing to accept. -/
def afterPoll : Poll → Except Exn Bool
  | .ready => .ok true
  | .timedOut => .ok false
  | .interrupted => .ok false
  | .failed errno => .error (.runtimeError ("poll: " ++ errno))

/-- `AcceptWithTimeout` after an `accept` that failed; a connection that is gone again is no failure. -/
def afterAcceptFailed : AcceptErrno → Except Exn Unit
  | .connAborted | .again | .wouldBlock => .ok ()
  | .other errno => .error (.runtimeError ("accept: " ++ errno))

/-! ## Connections to others -/

/-- One address of a host: the number that `socket` returned, and whether `connect` went through. -/
structure Attempt where
  socket : Option Nat
  connected : Bool

/-- The loop of `TcpSocket::Connect` over the addresses of a host; what it opens belongs to `h`. -/
def connectLoop (h : η) (r : ρ) : List Attempt → Descriptors η ρ → Descriptors η ρ
  | [], d => d
  | { socket := none, .. } :: attempts, d => connectLoop h r attempts d
  | { socket := some fd, connected := true } :: _, d => d.adopt h fd r
  | { socket := some fd, connected := false } :: attempts, d => connectLoop h r attempts ((d.adopt h fd r).close h)

/-- A connection is made under a number of its own, or nothing is left of it. -/
theorem connect_cases {h : η} (r : ρ) : ∀ (attempts : List Attempt) (d : Descriptors η ρ), d.held h = none →
    (∀ a ∈ attempts, ∀ fd, a.socket = some fd → d.table fd = none) →
    connectLoop h r attempts d = d ∨
      ∃ a ∈ attempts, ∃ fd, a.socket = some fd ∧ connectLoop h r attempts d = d.adopt h fd r
  | [], d, _, _ => .inl rfl
  | { socket := none, .. } :: attempts, d, hempty, hfree => by
    rcases connect_cases r attempts d hempty fun a ha => hfree a (List.mem_cons_of_mem _ ha) with
      hnone | ⟨a, ha, fd, hsocket, hsome⟩
    · exact .inl hnone
    · exact .inr ⟨a, List.mem_cons_of_mem _ ha, fd, hsocket, hsome⟩
  | { socket := some fd, connected := true } :: attempts, d, _, _ =>
    .inr ⟨_, List.mem_cons_self, fd, rfl, rfl⟩
  | { socket := some fd, connected := false } :: attempts, d, hempty, hfree => by
    have hback : (d.adopt h fd r).close h = d :=
      Descriptors.close_adopt (hfree _ List.mem_cons_self fd rfl) hempty
    rw [connectLoop, hback]
    rcases connect_cases r attempts d hempty fun a ha => hfree a (List.mem_cons_of_mem _ ha) with
      hnone | ⟨a, ha, fd', hsocket, hsome⟩
    · exact .inl hnone
    · exact .inr ⟨a, List.mem_cons_of_mem _ ha, fd', hsocket, hsome⟩

end ShuzaGram.Net
