import Mathlib.Data.List.Induction
import ShuzaGram.Mtproto.AcceptLoop

/-!
# No socket is lost, closed twice or crossed

The accept loop, the threads of its connections and whoever stops it run side by side, and the kernel gives a
number away again as soon as it is free. Who owns which socket follows from where everybody is.

* `takes_of_step` — what a step can be
* `Tidy.step`, `Accounted.step` — what it keeps
* `accept_loop_owns_sockets` — every open number has one owner, and every connection its own thread
* `accept_loop_stops` — after `Stop`, the loop accepts one connection at most, and ends
-/

namespace ShuzaGram.Mtproto

open Infra Net

/-- The connection that `Run` has in its hands. -/
def RunPhase.hand : RunPhase → Option Nat
  | .accepted n | .holding n | .spawning n => some n
  | _ => none

/-- How many steps `Run` still takes once it is to stop. -/
def RunPhase.rank : RunPhase → Nat
  | .polling => 6
  | .accepting => 5
  | .accepted _ => 4
  | .holding _ => 3
  | .spawning _ => 2
  | .looping => 1
  | .returned | .thrown _ => 0

/-- How many connections it may still accept. -/
def RunPhase.chance : RunPhase → Nat
  | .polling | .accepting => 1
  | _ => 0

theorem RunPhase.rank_le (phase : RunPhase) : phase.rank ≤ 6 := by
  cases phase <;> simp [rank]

theorem RunPhase.chance_le (phase : RunPhase) : phase.chance ≤ 1 := by
  cases phase <;> simp [chance]

theorem RunPhase.ended_of_rank {phase : RunPhase} (h : phase.rank = 0) :
    phase = .returned ∨ ∃ e, phase = .thrown e := by
  cases phase with
  | returned => exact .inl rfl
  | thrown e => exact .inr ⟨e, rfl⟩
  | _ => cases h

namespace AcceptLoop

variable {s s' : AcceptLoop} {a : Action} {actions : List Action}

/-! ## The steps -/

/-- A step that is taken, with what it found and what it leaves. -/
inductive Takes (s : AcceptLoop) : Action → AcceptLoop → Prop
  | returns (hphase : s.phase = .looping) (hstop : s.stopping = true) : Takes s .check { s with phase := .returned }
  | polls (hphase : s.phase = .looping) (hstop : s.stopping = false) : Takes s .check { s with phase := .polling }
  | waiting {result : Poll} (hphase : s.phase = .polling) (hpoll : afterPoll result = .ok true) :
    Takes s (.poll result) { s with phase := .accepting }
  | idle {result : Poll} (hphase : s.phase = .polling) (hpoll : afterPoll result = .ok false) :
    Takes s (.poll result) { s with phase := .looping }
  | pollThrows {result : Poll} {e : Exn} (hphase : s.phase = .polling) (hpoll : afterPoll result = .error e) :
    Takes s (.poll result) { s with phase := .thrown e }
  | gone {errno : AcceptErrno} (hphase : s.phase = .accepting) (haccept : afterAcceptFailed errno = .ok ()) :
    Takes s (.acceptFailed errno) { s with phase := .looping }
  | acceptThrows {errno : AcceptErrno} {e : Exn} (hphase : s.phase = .accepting)
    (haccept : afterAcceptFailed errno = .error e) : Takes s (.acceptFailed errno) { s with phase := .thrown e }
  | accepts {fd : Nat} (hphase : s.phase = .accepting) (hfree : s.sockets.table fd = none) :
    Takes s (.accept fd)
      { s with
        sockets := s.sockets.adopt .accepted fd (.connection s.count)
        phase := .accepted s.count
        count := s.count + 1 }
  | holds {n : Nat} (hphase : s.phase = .accepted n) :
    Takes s .hold { s with sockets := (s.sockets.move .accepted .socket).close .accepted, phase := .holding n }
  | captures {n : Nat} (hphase : s.phase = .holding n) :
    Takes s .capture { s with sockets := s.sockets.move .socket .closure, phase := .spawning n }
  | spawns {n : Nat} (hphase : s.phase = .spawning n) :
    Takes s (.spawn none)
      { s with
        sockets := ((s.sockets.move .closure (.worker n)).close .closure).close .socket
        workers := n :: s.workers
        phase := .looping }
  | spawnThrows {n : Nat} {what : String} (hphase : s.phase = .spawning n) :
    Takes s (.spawn (some what))
      { s with sockets := (s.sockets.close .closure).close .socket, phase := .thrown (.runtimeError what) }
  | stops : Takes s .stop { s with stopping := true }
  | connects {n : Nat} {attempts : List Attempt} {sockets : Descriptors SocketOwner Endpoint} (hn : n ∈ s.workers)
    (hidle : n ∉ s.posting) (hfree : ∀ a ∈ attempts, ∀ fd, a.socket = some fd → s.sockets.table fd = none)
    (hsockets : sockets = connectLoop (.client n) (.webhook n) attempts s.sockets) :
    Takes s (.connect n attempts)
      { s with
        sockets
        posting := if (sockets.held (.client n)).isSome then n :: s.posting else s.posting }
  | hangsUp {n : Nat} (hn : n ∈ s.posting) :
    Takes s (.hangUp n) { s with sockets := s.sockets.close (.client n), posting := s.posting.filter (· ≠ n) }
  | finishes {n : Nat} (hn : n ∈ s.workers) (hidle : n ∉ s.posting) :
    Takes s (.finish n) { s with sockets := s.sockets.close (.worker n), workers := s.workers.filter (· ≠ n) }
  | destroys (hphase : s.phase = .returned ∨ ∃ e, s.phase = .thrown e) :
    Takes s .destroy { s with sockets := s.sockets.close .listener, destroyed := true }

theorem takes_of_step (h : s.step a = some s') : Takes s a s' := by
  cases a with
  | check =>
    simp only [step] at h
    split at h
    · next hphase =>
      by_cases hstop : s.stopping = true
      · rw [if_pos hstop] at h
        cases h
        exact .returns hphase hstop
      · rw [if_neg hstop] at h
        cases h
        exact .polls hphase (Bool.eq_false_iff.mpr hstop)
    · cases h
  | poll result =>
    simp only [step] at h
    split at h
    · next hphase =>
      split at h
      · next waiting hpoll =>
        cases h
        cases waiting with
        | true => exact .waiting hphase hpoll
        | false => exact .idle hphase hpoll
      · next hpoll =>
        cases h
        exact .pollThrows hphase hpoll
    · cases h
  | acceptFailed errno =>
    simp only [step] at h
    split at h
    · next hphase =>
      split at h
      · next haccept =>
        cases h
        exact .gone hphase haccept
      · next haccept =>
        cases h
        exact .acceptThrows hphase haccept
    · cases h
  | accept fd =>
    simp only [step] at h
    split at h
    · next hphase =>
      split at h
      · next hfree =>
        cases h
        exact .accepts hphase (Option.isNone_iff_eq_none.mp hfree)
      · cases h
    · cases h
  | hold =>
    simp only [step] at h
    split at h
    · next hphase =>
      cases h
      exact .holds hphase
    · cases h
  | capture =>
    simp only [step] at h
    split at h
    · next hphase =>
      cases h
      exact .captures hphase
    · cases h
  | spawn failure =>
    simp only [step] at h
    split at h
    · next hphase =>
      cases failure with
      | none =>
        cases h
        exact .spawns hphase
      | some what =>
        cases h
        exact .spawnThrows hphase
    · cases h
  | stop =>
    cases h
    exact .stops
  | connect n attempts =>
    simp only [step] at h
    split at h
    · next hcond =>
      cases h
      refine .connects hcond.1 hcond.2.1 (fun a ha fd hfd => ?_) rfl
      have hall := List.all_eq_true.mp hcond.2.2 a ha
      rw [hfd] at hall
      exact Option.isNone_iff_eq_none.mp hall
    · cases h
  | hangUp n =>
    simp only [step] at h
    split at h
    · next hn =>
      cases h
      exact .hangsUp hn
    · cases h
  | finish n =>
    simp only [step] at h
    split at h
    · next hcond =>
      cases h
      exact .finishes hcond.1 hcond.2
    · cases h
  | destroy =>
    simp only [step] at h
    split at h
    · next hphase =>
      cases h
      exact .destroys (.inl hphase)
    · next e hphase =>
      cases h
      exact .destroys (.inr ⟨e, hphase⟩)
    · cases h

theorem runs_snoc (s : AcceptLoop) (actions : List Action) (a : Action) :
    s.runs (actions ++ [a]) = (s.runs actions).bind fun t => t.step a := by
  simp [runs, List.foldlM_append, Option.bind_eq_bind]

/-! ## Who owns what -/

/-- What each object is to own, going by where everybody is. -/
def due (s : AcceptLoop) : SocketOwner → Option Endpoint
  | .listener => if s.destroyed then none else some .listening
  | .accepted =>
    match s.phase with
    | .accepted n => some (.connection n)
    | _ => none
  | .socket =>
    match s.phase with
    | .holding n => some (.connection n)
    | _ => none
  | .closure =>
    match s.phase with
    | .spawning n => some (.connection n)
    | _ => none
  | .worker n => if n ∈ s.workers then some (.connection n) else none
  | .client n => if n ∈ s.posting then some (.webhook n) else none

structure Tidy (s : AcceptLoop) : Prop where
  owners : s.sockets.Holds s.due
  /-- A connection in the hands of `Run` is the last one, and has no thread yet. -/
  hand : ∀ n, s.phase.hand = some n → n + 1 = s.count ∧ n ∉ s.workers
  started : ∀ n ∈ s.workers, n < s.count
  posting : ∀ n ∈ s.posting, n ∈ s.workers

theorem tidy_start (fd : Nat) : Tidy (start fd) where
  owners := by
    have hadopt : (start fd).sockets.Holds (Function.update (fun _ => none) .listener (some .listening)) :=
      Descriptors.Holds.empty.adopt rfl rfl Endpoint.listening
    have hdue : Function.update (fun _ => none) SocketOwner.listener (some Endpoint.listening) = (start fd).due := by
      funext h
      cases h <;> simp [due, start]
    rwa [hdue] at hadopt
  hand _ h := by cases h
  started _ h := by cases h
  posting _ h := by cases h

/-- As long as `Run` has no connection in its hands, its temporaries are empty. -/
theorem due_of_hand_none (h : s.phase.hand = none) {phase : RunPhase} (h' : phase.hand = none) :
    ({ s with phase } : AcceptLoop).due = s.due := by
  funext o
  cases hphase : s.phase <;> cases phase <;> simp_all [due, RunPhase.hand]

/-- `Run` moves on without a connection in its hands. -/
theorem Tidy.rephase (hs : Tidy s) (h : s.phase.hand = none) {phase : RunPhase} (h' : phase.hand = none) :
    Tidy { s with phase } where
  owners := by
    rw [due_of_hand_none h h']
    exact hs.owners
  hand n hn := by
    rw [h'] at hn
    cases hn
  started := hs.started
  posting := hs.posting

/-- **The step lemma.** -/
theorem Tidy.step (hs : Tidy s) (h : Takes s a s') : Tidy s' := by
  cases h with
  | returns hphase _ | polls hphase _ | waiting hphase _ | idle hphase _ | pollThrows hphase _
  | gone hphase _ | acceptThrows hphase _ => exact hs.rephase (by rw [hphase]; rfl) rfl
  | @accepts fd hphase hfree =>
    refine ⟨?_, fun n hn => ?_, fun n hn => Nat.lt_succ_of_lt (hs.started n hn), hs.posting⟩
    · have hadopt := hs.owners.adopt (h := .accepted) hfree (by simp [due, hphase]) (Endpoint.connection s.count)
      refine hadopt.congr fun o => ?_
      cases o <;> simp [due, hphase]
    · cases hn
      exact ⟨rfl, fun hmem => Nat.lt_irrefl _ (hs.started _ hmem)⟩
  | @holds n hphase =>
    refine ⟨?_, fun m hm => hs.hand m (by rw [hphase]; exact hm), hs.started, hs.posting⟩
    rw [Descriptors.close_move (by decide)]
    have hmove := hs.owners.move (show SocketOwner.accepted ≠ .socket by decide)
    refine hmove.congr fun o => ?_
    cases o <;> simp [due, hphase]
  | @captures n hphase =>
    refine ⟨?_, fun m hm => hs.hand m (by rw [hphase]; exact hm), hs.started, hs.posting⟩
    have hmove := hs.owners.move (show SocketOwner.socket ≠ .closure by decide)
    refine hmove.congr fun o => ?_
    cases o <;> simp [due, hphase]
  | @spawns n hphase =>
    obtain ⟨hlast, hnew⟩ := hs.hand n (by rw [hphase]; rfl)
    refine ⟨?_, fun m hm => (by cases hm), fun m hm => ?_, fun m hm => List.mem_cons_of_mem _ (hs.posting m hm)⟩
    · rw [Descriptors.close_move (by simp)]
      have hmove := hs.owners.move (show SocketOwner.closure ≠ .worker n by simp)
      refine (hmove.close .socket).congr fun o => ?_
      cases o with
      | worker m =>
        by_cases hm : m = n
        · subst hm
          simp [due, hphase]
        · simp [due, hm]
      | _ => simp [due, hphase]
    · rcases List.mem_cons.mp hm with rfl | hm
      · exact Nat.lt_of_lt_of_eq (Nat.lt_succ_self m) hlast
      · exact hs.started m hm
  | @spawnThrows n what hphase =>
    refine ⟨?_, fun m hm => (by cases hm), hs.started, hs.posting⟩
    refine ((hs.owners.close .closure).close .socket).congr fun o => ?_
    cases o <;> simp [due, hphase]
  | stops => exact ⟨hs.owners, hs.hand, hs.started, hs.posting⟩
  | @connects n attempts sockets hn hidle hfree hsockets =>
    subst hsockets
    have hempty : s.due (.client n) = none := if_neg hidle
    have hheld := hs.owners.held_eq_none_iff.mpr hempty
    rcases connect_cases (.webhook n) attempts s.sockets hheld hfree with hnone | ⟨a, ha, fd, hfd, hsome⟩
    · rw [hnone, hheld]
      exact ⟨hs.owners, hs.hand, hs.started, hs.posting⟩
    · have hadopted : (s.sockets.adopt (.client n) fd (.webhook n)).held (.client n) = some fd :=
        Function.update_self ..
      rw [hsome, hadopted]
      refine ⟨?_, hs.hand, hs.started, fun m hm => ?_⟩
      · refine (hs.owners.adopt (hfree a ha fd hfd) hempty (.webhook n)).congr fun o => ?_
        cases o with
        | client m =>
          by_cases hm : m = n
          · subst hm
            simp [due]
          · simp [due, hm]
        | _ => simp [due]
      · rcases List.mem_cons.mp hm with rfl | hm
        · exact hn
        · exact hs.posting m hm
  | @hangsUp n hn =>
    refine ⟨?_, hs.hand, hs.started, fun m hm => hs.posting m (List.mem_of_mem_filter hm)⟩
    refine (hs.owners.close (.client n)).congr fun o => ?_
    cases o with
    | client m =>
      by_cases hm : m = n
      · subst hm
        simp [due]
      · simp [due, hm]
    | _ => simp [due]
  | @finishes n hn hidle =>
    refine ⟨?_, fun m hm => ?_, fun m hm => hs.started m (List.mem_of_mem_filter hm), fun m hm => ?_⟩
    · refine (hs.owners.close (.worker n)).congr fun o => ?_
      cases o with
      | worker m =>
        by_cases hm : m = n
        · subst hm
          simp [due]
        · simp [due, hm]
      | _ => simp [due]
    · obtain ⟨hlast, hnew⟩ := hs.hand m hm
      exact ⟨hlast, fun hmem => hnew (List.mem_of_mem_filter hmem)⟩
    · have hne : m ≠ n := by
        rintro rfl
        exact hidle hm
      exact List.mem_filter.mpr ⟨hs.posting m hm, by simpa using hne⟩
  | destroys hphase =>
    have hhand : s.phase.hand = none := by
      rcases hphase with hphase | ⟨e, hphase⟩ <;> rw [hphase] <;> rfl
    refine ⟨?_, hs.hand, hs.started, hs.posting⟩
    refine (hs.owners.close .listener).congr fun o => ?_
    cases o <;> simp [due]

/-! ## No connection is lost -/

/-- A connection that was accepted is in the hands of `Run`, has its thread, is over, or is the last one, for which
no thread could be made. -/
def Accounted (actions : List Action) (s : AcceptLoop) : Prop :=
  ∀ n < s.count, s.phase.hand = some n ∨ n ∈ s.workers ∨ Action.finish n ∈ actions ∨
    n + 1 = s.count ∧ ∃ what, s.phase = .thrown (.runtimeError what) ∧ Action.spawn (some what) ∈ actions

/-- A step that is none of `Run` leaves its phase and the count of the connections. -/
theorem Takes.of_other (h : Takes s a s') (ha : a.ofRun = false) : s'.phase = s.phase ∧ s'.count = s.count := by
  cases h <;> first | exact ⟨rfl, rfl⟩ | cases ha

theorem Takes.mem_workers (h : Takes s a s') {n : Nat} (hn : n ∈ s.workers) : n ∈ s'.workers ∨ a = .finish n := by
  cases h with
  | @spawns m hphase => exact .inl (List.mem_cons_of_mem _ hn)
  | @finishes m hm hidle =>
    by_cases hnm : n = m
    · exact .inr (by rw [hnm])
    · exact .inl (List.mem_filter.mpr ⟨hn, by simpa using hnm⟩)
  | _ => exact .inl hn

/-- A step of `Run` either accepts a connection, or passes on the one it has. -/
theorem Takes.of_run (h : Takes s a s') (ha : a.ofRun = true) :
    (∀ e, s.phase ≠ .thrown e) ∧
      (s'.count = s.count + 1 ∧ s'.phase.hand = some s.count ∧ s.phase.hand = none ∨
        s'.count = s.count ∧ ∀ n, s.phase.hand = some n → s'.phase.hand = some n ∨ n ∈ s'.workers ∨
          ∃ what, a = .spawn (some what) ∧ s'.phase = .thrown (.runtimeError what)) := by
  cases h with
  | @accepts fd hphase hfree =>
    rw [hphase]
    exact ⟨fun e => nofun, .inl ⟨rfl, rfl, rfl⟩⟩
  | @holds n hphase | @captures n hphase =>
    rw [hphase]
    exact ⟨fun e => nofun, .inr ⟨rfl, fun m hm => .inl hm⟩⟩
  | @spawns n hphase =>
    rw [hphase]
    refine ⟨fun e => nofun, .inr ⟨rfl, fun m hm => .inr (.inl ?_)⟩⟩
    cases hm
    exact List.mem_cons_self
  | @spawnThrows n what hphase =>
    rw [hphase]
    exact ⟨fun e => nofun, .inr ⟨rfl, fun m hm => .inr (.inr ⟨what, rfl, rfl⟩)⟩⟩
  | returns hphase _ | polls hphase _ | waiting hphase _ | idle hphase _ | pollThrows hphase _
  | gone hphase _ | acceptThrows hphase _ =>
    rw [hphase]
    exact ⟨fun e => nofun, .inr ⟨rfl, fun m hm => by cases hm⟩⟩
  | _ => cases ha

theorem Accounted.step (hs : Accounted actions s) (htidy : Tidy s) (h : Takes s a s') :
    Accounted (actions ++ [a]) s' := by
  intro n hn
  have hworker : n ∈ s.workers → n ∈ s'.workers ∨ Action.finish n ∈ actions ++ [a] := by
    intro hmem
    rcases h.mem_workers hmem with hmem | rfl
    · exact .inl hmem
    · exact .inr (List.mem_append_right _ List.mem_cons_self)
  cases ha : a.ofRun with
  | false =>
    obtain ⟨hphase, hcount⟩ := h.of_other ha
    rw [hcount] at hn
    rw [hphase, hcount]
    rcases hs n hn with hhand | hmem | hover | ⟨hlast, what, hthrown, hspawn⟩
    · exact .inl hhand
    · exact .inr ((hworker hmem).imp_right .inl)
    · exact .inr (.inr (.inl (List.mem_append_left _ hover)))
    · exact .inr (.inr (.inr ⟨hlast, what, hthrown, List.mem_append_left _ hspawn⟩))
  | true =>
    obtain ⟨hrunning, ⟨hcount, hnew, hold⟩ | ⟨hcount, hpass⟩⟩ := h.of_run ha
    · rw [hcount] at hn
      rcases Nat.lt_succ_iff_lt_or_eq.mp hn with hlt | rfl
      · rcases hs n hlt with hhand | hmem | hover | ⟨-, what, hthrown, -⟩
        · rw [hold] at hhand
          cases hhand
        · exact .inr ((hworker hmem).imp_right .inl)
        · exact .inr (.inr (.inl (List.mem_append_left _ hover)))
        · exact absurd hthrown (hrunning _)
      · exact .inl hnew
    · rw [hcount] at hn
      rcases hs n hn with hhand | hmem | hover | ⟨-, what, hthrown, -⟩
      · rcases hpass n hhand with hhand' | hmem | ⟨what, rfl, hthrown⟩
        · exact .inl hhand'
        · exact .inr (.inl hmem)
        · refine .inr (.inr (.inr ⟨?_, what, hthrown, List.mem_append_right _ List.mem_cons_self⟩))
          rw [hcount]
          exact (htidy.hand n hhand).1
      · exact .inr ((hworker hmem).imp_right .inl)
      · exact .inr (.inr (.inl (List.mem_append_left _ hover)))
      · exact absurd hthrown (hrunning _)

/-- The run lemma. -/
theorem tidy_runs (fd : Nat) (actions : List Action) :
    ∀ {s}, (start fd).runs actions = some s → Tidy s ∧ Accounted actions s := by
  induction actions using List.reverseRecOn with
  | nil =>
    intro s h
    cases h
    exact ⟨tidy_start fd, fun n hn => absurd hn (Nat.not_lt_zero n)⟩
  | append_singleton actions a ih =>
    intro s h
    rw [runs_snoc] at h
    obtain ⟨t, ht, hstep⟩ := Option.bind_eq_some_iff.mp h
    obtain ⟨htidy, haccounted⟩ := ih ht
    have htakes := takes_of_step hstep
    exact ⟨htidy.step htakes, haccounted.step htidy htakes⟩

/-- **Every socket has one owner, and every connection its own thread.** However the loop, the threads and the kernel
interleave: a number that is open is held by exactly one object, the one that is to own what it stands for; a thread
holds the connection that was accepted for it; no connection is lost; and once the threads are over, nothing is open
but the listener. -/
theorem accept_loop_owns_sockets (fd : Nat) (actions : List Action) (s : AcceptLoop)
    (h : (start fd).runs actions = some s) :
    (∀ n e, s.sockets.table n = some e →
        ∃ o, s.due o = some e ∧ s.sockets.held o = some n ∧ ∀ o', s.sockets.held o' = some n → o' = o) ∧
      (∀ n ∈ s.workers, s.sockets.resource (.worker n) = some (.connection n)) ∧ Accounted actions s ∧
      (s.workers = [] → s.phase.hand = none → ∀ n e, s.sockets.table n = some e →
        e = .listening ∧ s.destroyed = false) := by
  obtain ⟨htidy, haccounted⟩ := tidy_runs fd actions h
  refine ⟨fun n e => htidy.owners.existsUnique, fun n hn => ?_, haccounted, fun hworkers hhand n e htable => ?_⟩
  · rw [htidy.owners.resource]
    exact if_pos hn
  · obtain ⟨o, hdue, -, -⟩ := htidy.owners.existsUnique htable
    cases o with
    | listener =>
      cases hdestroyed : s.destroyed <;> simp_all [due]
    | accepted | socket | closure =>
      cases hphase : s.phase <;> simp_all [due, RunPhase.hand]
    | worker m => simp [due, hworkers] at hdue
    | client m =>
      have hmem : m ∈ s.posting := by
        by_contra hno
        simp [due, hno] at hdue
      have hworker := htidy.posting m hmem
      rw [hworkers] at hworker
      cases hworker

/-- The second connection, after the number of the first one went to the webhook of the second. -/
def reusedNumber : List Action :=
  [.check, .poll .ready, .accept 4, .hold, .capture, .spawn none, .check, .poll .interrupted, .check, .poll .ready,
    .accept 5, .hold, .finish 0, .capture, .spawn none,
    .connect 1 [{ socket := some 4, connected := false }, { socket := some 4, connected := true }], .stop, .check]

theorem accept_loop_owns_sockets_reused :
    ∃ s, (start 3).runs reusedNumber = some s ∧ s.sockets.resource (.worker 1) = some (.connection 1) := by
  have hruns : ((start 3).runs reusedNumber).isSome = true := by decide
  obtain ⟨s, hs⟩ := Option.isSome_iff_exists.mp hruns
  have hworkers : ((start 3).runs reusedNumber).all fun s => decide (1 ∈ s.workers) := by decide
  rw [hs, Option.all_some, decide_eq_true_eq] at hworkers
  exact ⟨s, hs, (accept_loop_owns_sockets 3 reusedNumber s hs).2.1 1 hworkers⟩

/-! ## Stopping -/

/-- **The step lemma.** Once it is to stop, `Run` takes few steps more, and accepts a connection only on the way. -/
theorem Takes.stopping (h : Takes s a s') (hstop : s.stopping = true) :
    s'.stopping = true ∧ [a].countP Action.ofRun + s'.phase.rank ≤ s.phase.rank ∧
      s'.count + s'.phase.chance ≤ s.count + s.phase.chance := by
  cases h with
  | returns hphase _ | waiting hphase _ | idle hphase _ | pollThrows hphase _ | gone hphase _ | acceptThrows hphase _
  | accepts hphase _ | holds hphase | captures hphase | spawns hphase | spawnThrows hphase =>
    rw [hphase]
    exact ⟨hstop, by simp [Action.ofRun, RunPhase.rank], by simp [RunPhase.chance]⟩
  | polls hphase hgo =>
    rw [hstop] at hgo
    cases hgo
  | _ => exact ⟨by first | rfl | exact hstop, by simp [Action.ofRun], Nat.le_refl _⟩

/-- The run lemma. -/
theorem stopping_runs : ∀ (actions : List Action) {s : AcceptLoop}, s.stopping = true → s.runs actions = some s' →
    s'.stopping = true ∧ actions.countP Action.ofRun + s'.phase.rank ≤ s.phase.rank ∧
      s'.count + s'.phase.chance ≤ s.count + s.phase.chance
  | [], s, hstop, h => by
    cases h
    exact ⟨hstop, by simp, Nat.le_refl _⟩
  | a :: actions, s, hstop, h => by
    obtain ⟨t, hstep, hruns⟩ := Option.bind_eq_some_iff.mp h
    obtain ⟨hstop', hrank, hchance⟩ := (takes_of_step hstep).stopping hstop
    obtain ⟨hstop'', hrank', hchance'⟩ := stopping_runs actions hstop' hruns
    refine ⟨hstop'', ?_, Nat.le_trans hchance' hchance⟩
    rw [← List.singleton_append, List.countP_append]
    omega

/-- `Run` never waits for anybody: a `poll` times out, and a kernel without a free number says so. -/
theorem exists_ofRun (s : AcceptLoop) :
    (s.phase = .returned ∨ ∃ e, s.phase = .thrown e) ∨ ∃ a, a.ofRun = true ∧ (s.step a).isSome = true := by
  cases hphase : s.phase with
  | returned => exact .inl (.inl rfl)
  | thrown e => exact .inl (.inr ⟨e, rfl⟩)
  | looping => exact .inr ⟨.check, rfl, by simp [step, hphase]⟩
  | polling => exact .inr ⟨.poll .timedOut, rfl, by simp [step, hphase, afterPoll]⟩
  | accepting => exact .inr ⟨.acceptFailed .again, rfl, by simp [step, hphase, afterAcceptFailed]⟩
  | accepted n => exact .inr ⟨.hold, rfl, by simp [step, hphase]⟩
  | holding n => exact .inr ⟨.capture, rfl, by simp [step, hphase]⟩
  | spawning n => exact .inr ⟨.spawn none, rfl, by simp [step, hphase]⟩

/-- **After `Stop` the loop ends.** Wherever `Run` is when it is stopped, and whatever the threads do meanwhile: it
accepts one connection at most, takes six steps of its own at most, and it can take them until it has ended. -/
theorem accept_loop_stops (s s' : AcceptLoop) (actions : List Action) (hstop : s.stopping = true)
    (h : s.runs actions = some s') :
    s'.count ≤ s.count + 1 ∧ actions.countP Action.ofRun ≤ 6 ∧
      ((s'.phase = .returned ∨ ∃ e, s'.phase = .thrown e) ∨
        actions.countP Action.ofRun < 6 ∧ ∃ a, a.ofRun = true ∧ (s'.step a).isSome = true) := by
  obtain ⟨-, hrank, hchance⟩ := stopping_runs actions hstop h
  have hsix := s.phase.rank_le
  have hone := s.phase.chance_le
  refine ⟨by omega, by omega, ?_⟩
  rcases exists_ofRun s' with hended | hgoes
  · exact .inl hended
  · by_cases hzero : s'.phase.rank = 0
    · exact .inl (s'.phase.ended_of_rank hzero)
    · exact .inr ⟨by omega, hgoes⟩

/-- A connection comes in while the loop is told to stop. -/
theorem accept_loop_stops_polling :
    ∃ s', ({ start 3 with phase := .polling, stopping := true } : AcceptLoop).runs
        [.poll .ready, .accept 4, .hold, .capture, .spawn none, .check] = some s' ∧ s'.count ≤ 1 := by
  have hruns : (({ start 3 with phase := .polling, stopping := true } : AcceptLoop).runs
      [.poll .ready, .accept 4, .hold, .capture, .spawn none, .check]).isSome = true := by decide
  obtain ⟨s', hs'⟩ := Option.isSome_iff_exists.mp hruns
  exact ⟨s', hs', (accept_loop_stops _ s' _ rfl hs').1⟩

end AcceptLoop

end ShuzaGram.Mtproto
