import ShuzaGram.Net.TcpListener

/-!
# The accept loop

`TcpHandshakeServer::Run` and `Stop`, with the sockets that travel through them: a connection is accepted into a
temporary, moved into the local variable of the loop, into a closure and with that to a thread of its own, which
may open a connection to the webhook. The threads, the loop and whoever stops it take their steps in any order,
and the kernel gives away any number that is free.
-/

namespace ShuzaGram.Mtproto

open Infra Net

/-- The objects of the process that can own a socket. -/
inductive SocketOwner where
  /-- `listener_` of the server. -/
  | listener
  /-- What `AcceptWithTimeout` returns. -/
  | accepted
  /-- `socket` of the loop. -/
  | socket
  /-- The capture of the closure that a thread is made from. -/
  | closure
  /-- The closure on its thread; the threads are numbered as their connections are. -/
  | worker (n : Nat)
  /-- The local variable of `HttpPost` on a thread. -/
  | client (n : Nat)
deriving DecidableEq

/-- What a descriptor stands for. -/
inductive Endpoint where
  | listening
  /-- The connection that was accepted after `n` others. -/
  | connection (n : Nat)
  /-- The connection to the webhook that a thread made. -/
  | webhook (n : Nat)
deriving DecidableEq

/-- Where `Run` is; from `accepted` on it has a connection in its hands. -/
inductive RunPhase where
  | looping
  | polling
  | accepting
  | accepted (n : Nat)
  | holding (n : Nat)
  | spawning (n : Nat)
  | returned
  | thrown (e : Exn)

structure AcceptLoop where
  sockets : Descriptors SocketOwner Endpoint
  stopping : Bool
  phase : RunPhase
  /-- How many connections have been accepted. -/
  count : Nat
  /-- The threads that run, and those of them that have a connection to the webhook. -/
  workers : List Nat
  posting : List Nat
  /-- The server is destroyed. -/
  destroyed : Bool

namespace AcceptLoop

/-- A server whose constructor has returned. -/
def start (fd : Nat) : AcceptLoop where
  sockets := Descriptors.empty.adopt .listener fd .listening
  stopping := false
  phase := .looping
  count := 0
  workers := []
  posting := []
  destroyed := false

inductive Action where
  -- the steps of `Run`
  | check
  | poll (result : Poll)
  | acceptFailed (errno : AcceptErrno)
  | accept (fd : Nat)
  | hold
  | capture
  /-- `std::thread`, with the text of the exception if no thread can be made. -/
  | spawn (failure : Option String)
  -- `Stop`, from any thread or a signal handler
  | stop
  -- the steps of the threads
  | connect (n : Nat) (attempts : List Attempt)
  | hangUp (n : Nat)
  | finish (n : Nat)
  -- the destructor of the server
  | destroy

/-- The step belongs to `Run`. -/
def Action.ofRun : Action → Bool
  | .check | .poll _ | .acceptFailed _ | .accept _ | .hold | .capture | .spawn _ => true
  | _ => false

/-- The kernel gives away a number that is free. -/
def free (s : AcceptLoop) (fd : Nat) : Bool := (s.sockets.table fd).isNone

/-- A step, where it can be taken. -/
def step (s : AcceptLoop) : Action → Option AcceptLoop
  | .check =>
    match s.phase with
    | .looping => some { s with phase := if s.stopping then .returned else .polling }
    | _ => none
  | .poll result =>
    match s.phase with
    | .polling =>
      match afterPoll result with
      | .ok waiting => some { s with phase := if waiting then .accepting else .looping }
      | .error e => some { s with phase := .thrown e }
    | _ => none
  | .acceptFailed errno =>
    match s.phase with
    | .accepting =>
      match afterAcceptFailed errno with
      | .ok () => some { s with phase := .looping }
      | .error e => some { s with phase := .thrown e }
    | _ => none
  | .accept fd =>
    match s.phase with
    | .accepting =>
      if s.free fd then
        some { s with
          sockets := s.sockets.adopt .accepted fd (.connection s.count)
          phase := .accepted s.count
          count := s.count + 1 }
      else none
    | _ => none
  | .hold =>
    match s.phase with
    -- the socket is moved into the optional, and the temporary destroyed
    | .accepted n => some { s with sockets := (s.sockets.move .accepted .socket).close .accepted, phase := .holding n }
    | _ => none
  | .capture =>
    match s.phase with
    | .holding n => some { s with sockets := s.sockets.move .socket .closure, phase := .spawning n }
    | _ => none
  | .spawn failure =>
    match s.phase with
    | .spawning n =>
      match failure with
      -- the closure is moved to the thread; it and the optional are destroyed, empty as they are
      | none =>
        some { s with
          sockets := ((s.sockets.move .closure (.worker n)).close .closure).close .socket
          workers := n :: s.workers
          phase := .looping }
      | some what =>
        some { s with
          sockets := (s.sockets.close .closure).close .socket
          phase := .thrown (.runtimeError what) }
    | _ => none
  | .stop => some { s with stopping := true }
  | .connect n attempts =>
    if n ∈ s.workers ∧ n ∉ s.posting ∧ attempts.all (fun a => a.socket.all s.free) then
      let sockets := connectLoop (.client n) (.webhook n) attempts s.sockets
      some { s with sockets, posting := if (sockets.held (.client n)).isSome then n :: s.posting else s.posting }
    else none
  | .hangUp n =>
    if n ∈ s.posting then
      some { s with sockets := s.sockets.close (.client n), posting := s.posting.filter (· ≠ n) }
    else none
  | .finish n =>
    -- the exceptions of a thread are caught, and what it opened is closed on the way
    if n ∈ s.workers ∧ n ∉ s.posting then
      some { s with sockets := s.sockets.close (.worker n), workers := s.workers.filter (· ≠ n) }
    else none
  | .destroy =>
    match s.phase with
    | .returned | .thrown _ => some { s with sockets := s.sockets.close .listener, destroyed := true }
    | _ => none

/-- A run: steps in any order, as long as each of them can be taken. -/
def runs (s : AcceptLoop) (actions : List Action) : Option AcceptLoop := actions.foldlM step s

end AcceptLoop

end ShuzaGram.Mtproto
