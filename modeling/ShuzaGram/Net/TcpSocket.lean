import ShuzaGram.Errors
import ShuzaGram.Infra.Refinement

/-!
# TCP sockets

`net/tcp_socket.cpp`. The kernel decides in which parts the bytes of a connection travel: a `recv` gives some
of what has arrived, a `send` takes some of what it is given, and a signal may interrupt either. What the kernel
is going to do is a schedule in the state of the socket; the loops of `ReadExact` and `WriteAll` run over it.

* `readsStream_readExact` — however the bytes arrive, `ReadExact` reads their stream
* `writesStream_writeAll` — however the kernel takes them, `WriteAll` sends all bytes
* `writeAll_sends` — where the connection breaks, the bytes before it have been sent
-/

namespace ShuzaGram.Net

open Infra

/-! ## Receiving -/

/-- What the next `recv` meets: bytes that have arrived, at least one, or a signal. -/
inductive Arrival where
  | segment (first : UInt8) (more : Bytes)
  | interrupted
deriving DecidableEq

/-- How the incoming direction ends: the peer closes it, or `recv` fails with this error. -/
inductive Ending where
  | closed
  | failed (errno : String)

/-- The exception of `ReadExact` at the end: `ConnectionClosedError` or `SocketError`. -/
def Ending.thrown : Ending → Exn
  | closed => .connectionClosed
  | failed errno => .runtimeError ("recv: " ++ errno)

/-- What `recv` returns. -/
inductive Recv where
  | data (bytes : Bytes)
  | closed
  | interrupted
  | failed (errno : String)

/-- Bytes that stay for the next `recv`. -/
def Arrival.keep (bytes : Bytes) (arrivals : List Arrival) : List Arrival :=
  match bytes with
  | [] => arrivals
  | first :: more => .segment first more :: arrivals

/-- `recv` into a buffer of `n` bytes. -/
def recv (ending : Ending) (n : Nat) : EStateM Exn (List Arrival) Recv := fun arrivals =>
  match arrivals with
  | [] =>
    match ending with
    | .closed => .ok .closed []
    | .failed errno => .ok (.failed errno) []
  | .interrupted :: arrivals => .ok .interrupted arrivals
  | .segment first more :: arrivals =>
    .ok (.data ((first :: more).take n)) (Arrival.keep ((first :: more).drop n) arrivals)

/-- A round of `ReadExact`, with the bytes that the buffer holds so far. -/
def recvRound (ending : Ending) (len : Nat) (buf : Bytes) : EStateM Exn (List Arrival) (Bytes ⊕ Bytes) := do
  if len ≤ buf.length then return .inr buf
  match ← recv ending (len - buf.length) with
  | .data bytes => return .inl (buf ++ bytes)
  | .closed => throw .connectionClosed
  | .interrupted => return .inl buf
  | .failed errno => throw (.runtimeError ("recv: " ++ errno))

/-- `ReadExact`. Every round takes a byte or an arrival, so there are no more rounds than that. -/
def readExact (ending : Ending) : ReadExact Exn (List Arrival) := fun len arrivals =>
  Steps.rounds .connectionClosed (recvRound ending len) (arrivals.length + len + 1) [] arrivals

/-- The bytes that will have arrived. -/
def incoming : List Arrival → Bytes
  | [] => []
  | .segment first more :: arrivals => first :: more ++ incoming arrivals
  | .interrupted :: arrivals => incoming arrivals

theorem incoming_keep (bytes : Bytes) (arrivals : List Arrival) :
    incoming (Arrival.keep bytes arrivals) = bytes ++ incoming arrivals := by
  cases bytes <;> rfl

section ReadExact

variable {ending : Ending} {len : Nat} {buf : Bytes}

theorem recvRound_full (h : len ≤ buf.length) (arrivals : List Arrival) :
    recvRound ending len buf arrivals = .ok (.inr buf) arrivals := by
  rw [recvRound, if_pos h]
  rfl

theorem recvRound_nil (h : ¬len ≤ buf.length) : recvRound ending len buf [] = .error ending.thrown [] := by
  rw [recvRound, if_neg h]
  cases ending <;> rfl

theorem recvRound_interrupted (h : ¬len ≤ buf.length) (arrivals : List Arrival) :
    recvRound ending len buf (.interrupted :: arrivals) = .ok (.inl buf) arrivals := by
  rw [recvRound, if_neg h]
  rfl

theorem recvRound_segment (h : ¬len ≤ buf.length) (first : UInt8) (more : Bytes) (arrivals : List Arrival) :
    recvRound ending len buf (.segment first more :: arrivals) =
      .ok (.inl (buf ++ (first :: more).take (len - buf.length)))
        (Arrival.keep ((first :: more).drop (len - buf.length)) arrivals) := by
  rw [recvRound, if_neg h]
  rfl

/-- The rounds of `ReadExact` collect the stream, as far as it is asked for. -/
theorem rounds_recv : ∀ (fuel : Nat) (buf : Bytes) (arrivals : List Arrival), buf.length ≤ len →
    arrivals.length + (len - buf.length) < fuel →
    (len - buf.length ≤ (incoming arrivals).length → ∃ arrivals',
      Steps.rounds .connectionClosed (recvRound ending len) fuel buf arrivals =
        .ok (buf ++ (incoming arrivals).take (len - buf.length)) arrivals' ∧
      incoming arrivals' = (incoming arrivals).drop (len - buf.length)) ∧
    ((incoming arrivals).length < len - buf.length → ∃ arrivals',
      Steps.rounds .connectionClosed (recvRound ending len) fuel buf arrivals = .error ending.thrown arrivals')
  | 0, _, _, _, hfuel => absurd hfuel (Nat.not_lt_zero _)
  | fuel + 1, buf, arrivals, hbuf, hfuel => by
    rw [Steps.rounds]
    by_cases hfull : len ≤ buf.length
    · have hzero : len - buf.length = 0 := Nat.sub_eq_zero_of_le hfull
      rw [Steps.bind_of_ok (recvRound_full hfull arrivals), hzero]
      exact ⟨fun _ => ⟨arrivals, by simp; rfl, rfl⟩, fun h => absurd h (Nat.not_lt_zero _)⟩
    · cases arrivals with
      | nil =>
        rw [Steps.bind_of_error (recvRound_nil hfull)]
        refine ⟨fun h => ?_, fun _ => ⟨[], rfl⟩⟩
        simp only [incoming, List.length_nil] at h
        omega
      | cons arrival arrivals =>
        rw [List.length_cons] at hfuel
        cases arrival with
        | interrupted =>
          rw [Steps.bind_of_ok (recvRound_interrupted hfull arrivals)]
          exact rounds_recv fuel buf arrivals hbuf (by omega)
        | segment first more =>
          rw [Steps.bind_of_ok (recvRound_segment hfull first more arrivals)]
          simp only [incoming]
          by_cases hmore : len - buf.length < (first :: more).length
          · -- the segment fills the buffer: the next round is the last one
            have htake : ((first :: more).take (len - buf.length)).length = len - buf.length :=
              List.length_take_of_le (Nat.le_of_lt hmore)
            have hlen : (buf ++ (first :: more).take (len - buf.length)).length = len := by
              rw [List.length_append, htake]
              omega
            refine ⟨fun _ => ⟨Arrival.keep ((first :: more).drop (len - buf.length)) arrivals, ?_, ?_⟩, fun h => ?_⟩
            · cases fuel with
              | zero => omega
              | succ fuel =>
                rw [Steps.rounds, Steps.bind_of_ok (recvRound_full (Nat.le_of_eq hlen.symm) _),
                  List.take_append_of_le_length (Nat.le_of_lt hmore)]
                rfl
            · rw [incoming_keep, List.drop_append_of_le_length (Nat.le_of_lt hmore)]
            · rw [List.length_append] at h
              omega
          · -- the whole segment goes into the buffer
            have hle : (first :: more).length ≤ len - buf.length := Nat.le_of_not_lt hmore
            rw [List.take_of_length_le hle, List.drop_eq_nil_of_le hle, Arrival.keep]
            have hleft : len - (buf ++ first :: more).length = len - buf.length - (first :: more).length := by
              rw [List.length_append]
              omega
            have hpos : 0 < (first :: more).length := Nat.succ_pos _
            have hbuf' : (buf ++ first :: more).length ≤ len := by
              rw [List.length_append]
              omega
            obtain ⟨hok, herror⟩ := rounds_recv fuel (buf ++ first :: more) arrivals hbuf' (by rw [hleft]; omega)
            rw [hleft] at hok herror
            refine ⟨fun h => ?_, fun h => ?_⟩
            · rw [List.length_append] at h
              obtain ⟨arrivals', hrounds, hrest⟩ := hok (by omega)
              refine ⟨arrivals', ?_, ?_⟩
              · rw [hrounds, List.take_append, List.take_of_length_le hle, List.append_assoc]
              · rw [hrest, List.drop_append, List.drop_eq_nil_of_le hle, List.nil_append]
            · rw [List.length_append] at h
              exact herror (by omega)

/-- **However the bytes arrive, `ReadExact` reads their stream.** -/
theorem readsStream_readExact (ending : Ending) : ReadsStream (readExact ending) incoming ending.thrown where
  full arrivals n hn := by
    obtain ⟨arrivals', hrounds, hrest⟩ :=
      (@rounds_recv ending n (arrivals.length + n + 1) [] arrivals (Nat.zero_le n) (by simp)).1 hn
    exact ⟨arrivals', hrounds, hrest⟩
  short arrivals n hn :=
    (@rounds_recv ending n (arrivals.length + n + 1) [] arrivals (Nat.zero_le n) (by simp)).2 hn

end ReadExact

/-! ## Sending -/

/-- What the next `send` meets: room for some bytes, at least one, or a signal. -/
inductive Room where
  | bytes (more : Nat)
  | interrupted

/-- The outgoing direction: what the kernel does next, and what it has taken. -/
structure Outgoing where
  room : List Room
  sent : Bytes

/-- What `send` returns. -/
inductive Sent where
  | count (n : Nat)
  | interrupted
  | failed (errno : String)

/-- `send`. When the schedule is over, the kernel takes everything, or the connection breaks. -/
def send (broken : Option String) (bytes : Bytes) : EStateM Exn Outgoing Sent := fun o =>
  match o.room with
  | [] =>
    match broken with
    | none => .ok (.count bytes.length) { o with sent := o.sent ++ bytes }
    | some errno => .ok (.failed errno) o
  | .bytes more :: room => .ok (.count (min (more + 1) bytes.length)) ⟨room, o.sent ++ bytes.take (more + 1)⟩
  | .interrupted :: room => .ok .interrupted { o with room }

/-- A round of `WriteAll`, with the bytes that are left. -/
def sendRound (broken : Option String) (left : Bytes) : EStateM Exn Outgoing (Bytes ⊕ Unit) := do
  if left = [] then return .inr ()
  match ← send broken left with
  | .count n => return .inl (left.drop n)
  | .interrupted => return .inl left
  | .failed errno => throw (.runtimeError ("send: " ++ errno))

/-- `WriteAll`. Every round sends a byte or passes a turn of the kernel. -/
def writeAll (broken : Option String) : WriteBytes Exn Outgoing := fun buf o =>
  Steps.rounds .connectionClosed (sendRound broken) (o.room.length + buf.length + 1) buf o

section WriteAll

variable {broken : Option String}

theorem sendRound_nil (o : Outgoing) : sendRound broken [] o = .ok (.inr ()) o := rfl

/-- A round with bytes left: it sends some of them, is interrupted, or fails. -/
theorem sendRound_cons (b : UInt8) (left : Bytes) (o : Outgoing) :
    (∃ n, sendRound broken (b :: left) o = .ok (.inl ((b :: left).drop (n + 1)))
        ⟨o.room.tail, o.sent ++ (b :: left).take (n + 1)⟩) ∨
      (∃ room, o.room = .interrupted :: room ∧ sendRound broken (b :: left) o = .ok (.inl (b :: left)) { o with room }) ∨
      ∃ errno, broken = some errno ∧ o.room = [] ∧
        sendRound broken (b :: left) o = .error (.runtimeError ("send: " ++ errno)) o := by
  rcases o with ⟨room, sent⟩
  rw [sendRound, if_neg (List.cons_ne_nil b left)]
  cases room with
  | nil =>
    cases broken with
    | none =>
      refine .inl ⟨left.length, ?_⟩
      simp only [send, Steps.bind_apply, List.length_cons, List.tail_nil]
      rw [List.take_of_length_le (by simp)]
      rfl
    | some errno => exact .inr (.inr ⟨errno, rfl, rfl, rfl⟩)
  | cons turn room =>
    cases turn with
    | bytes more =>
      refine .inl ⟨min more left.length, ?_⟩
      have hmin : min (more + 1) (b :: left).length = min more left.length + 1 := by
        rw [List.length_cons]
        omega
      have htake : (b :: left).take (min more left.length + 1) = (b :: left).take (more + 1) := by
        rw [← hmin, List.take_eq_take_iff]
        simp
      rw [htake]
      simp only [send, Steps.bind_apply, hmin]
      rfl
    | interrupted => exact .inr (.inl ⟨room, rfl, rfl⟩)

/-- The rounds of `WriteAll` send bytes from the front, in order. -/
theorem rounds_send : ∀ (fuel : Nat) (left : Bytes) (o : Outgoing), o.room.length + left.length < fuel →
    (∃ o', Steps.rounds .connectionClosed (sendRound broken) fuel left o = .ok () o' ∧ o'.sent = o.sent ++ left) ∨
      ∃ errno o' k, broken = some errno ∧
        Steps.rounds .connectionClosed (sendRound broken) fuel left o = .error (.runtimeError ("send: " ++ errno)) o' ∧
        o'.sent = o.sent ++ left.take k
  | 0, _, _, hfuel => absurd hfuel (Nat.not_lt_zero _)
  | fuel + 1, [], o, _ => by
    refine .inl ⟨o, ?_, by rw [List.append_nil]⟩
    rw [Steps.rounds, Steps.bind_of_ok (sendRound_nil o)]
    rfl
  | fuel + 1, b :: left, o, hfuel => by
    rw [Steps.rounds]
    rw [List.length_cons] at hfuel
    rcases @sendRound_cons broken b left o with ⟨n, hround⟩ | ⟨room, hroom, hround⟩ |
      ⟨errno, hbroken, -, hround⟩
    · -- some bytes were sent, and the others follow
      rw [Steps.bind_of_ok hround]
      have htail : o.room.tail.length ≤ o.room.length := by
        rw [List.length_tail]
        omega
      have hdrop : ((b :: left).drop (n + 1)).length ≤ left.length := by
        rw [List.length_drop, List.length_cons]
        omega
      have hrest := rounds_send fuel ((b :: left).drop (n + 1)) ⟨o.room.tail, o.sent ++ (b :: left).take (n + 1)⟩
        (by simp only; omega)
      rcases hrest with ⟨o', hok, hsent⟩ | ⟨errno, o', k, hbroken, herror, hsent⟩
      · exact .inl ⟨o', hok, by rw [hsent, List.append_assoc, List.take_append_drop]⟩
      · exact .inr ⟨errno, o', n + 1 + k, hbroken, herror, by rw [hsent, List.append_assoc, ← List.take_add]⟩
    · rw [Steps.bind_of_ok hround]
      rw [hroom, List.length_cons] at hfuel
      exact rounds_send fuel (b :: left) { o with room } (by simp only [List.length_cons]; omega)
    · rw [Steps.bind_of_error hround]
      exact .inr ⟨errno, o, 0, hbroken, rfl, by rw [List.take_zero, List.append_nil]⟩

/-- **`WriteAll` sends all bytes once and in order,** or, where the connection breaks, those before. -/
theorem writeAll_sends (broken : Option String) (buf : Bytes) (o : Outgoing) :
    (∃ o', writeAll broken buf o = .ok () o' ∧ o'.sent = o.sent ++ buf) ∨
      ∃ errno o' k, broken = some errno ∧ writeAll broken buf o = .error (.runtimeError ("send: " ++ errno)) o' ∧
        o'.sent = o.sent ++ buf.take k :=
  rounds_send (o.room.length + buf.length + 1) buf o (Nat.lt_succ_self _)

/-- On a connection that does not break, `WriteAll` writes the stream. -/
theorem writesStream_writeAll : WritesStream (writeAll none) Outgoing.sent := by
  intro o buf
  rcases writeAll_sends none buf o with h | ⟨errno, _, _, hbroken, _⟩
  · exact h
  · cases hbroken

end WriteAll

/-! ## Both directions -/

/-- A connected `TcpSocket`. -/
structure TcpSocket where
  arrivals : List Arrival
  outgoing : Outgoing

namespace TcpSocket

variable (ending : Ending) (broken : Option String)

def readExact : ReadExact Exn TcpSocket := fun len s =>
  match Net.readExact ending len s.arrivals with
  | .ok bytes arrivals => .ok bytes { s with arrivals }
  | .error e arrivals => .error e { s with arrivals }

def writeAll : WriteBytes Exn TcpSocket := fun buf s =>
  match Net.writeAll broken buf s.outgoing with
  | .ok () outgoing => .ok () { s with outgoing }
  | .error e outgoing => .error e { s with outgoing }

theorem readsStream : ReadsStream (readExact ending) (fun s => incoming s.arrivals) ending.thrown where
  full s n hn := by
    obtain ⟨arrivals, hread, hrest⟩ := (readsStream_readExact ending).full s.arrivals n hn
    exact ⟨{ s with arrivals }, by simp only [readExact, hread], hrest⟩
  short s n hn := by
    obtain ⟨arrivals, hread⟩ := (readsStream_readExact ending).short s.arrivals n hn
    exact ⟨{ s with arrivals }, by simp only [readExact, hread]⟩

theorem writesStream : WritesStream (writeAll none) fun s => s.outgoing.sent := by
  intro s bs
  obtain ⟨outgoing, hwrite, hsent⟩ := writesStream_writeAll s.outgoing bs
  exact ⟨{ s with outgoing }, by simp only [writeAll, hwrite], hsent⟩

/-- On any connection, what was sent is what a writer of the byte string leaves, or the start of it. -/
theorem writesAs (buf : Bytes) :
    WritesAs (fun s => s.outgoing.sent) (· <+: ·) (writeAll broken buf) (ByteStream.appendBytes buf) where
  grows t := List.prefix_append t buf
  ok s a s' h := by
    unfold writeAll at h
    split at h
    · next hwrite =>
      cases h
      rcases writeAll_sends broken buf s.outgoing with ⟨o', hok, hsent⟩ | ⟨errno, o', k, -, herror, -⟩
      · rw [hok] at hwrite
        cases hwrite
        exact congrArg (EStateM.Result.ok ()) hsent.symm
      · rw [herror] at hwrite
        cases hwrite
    · cases h
  error s e s' h := by
    unfold writeAll at h
    split at h
    · cases h
    · next hwrite =>
      cases h
      rcases writeAll_sends broken buf s.outgoing with ⟨o', hok, -⟩ | ⟨errno, o', k, -, herror, hsent⟩
      · rw [hok] at hwrite
        cases hwrite
      · rw [herror] at hwrite
        cases hwrite
        simp only [hsent]
        exact List.prefix_append_right_inj _ |>.mpr (List.take_prefix k buf)

/-- Reading leaves the outgoing direction alone. -/
theorem moves_readExact (len : Nat) : Steps.Moves (fun s s' => s'.outgoing = s.outgoing) (readExact ending len) := by
  intro s bytes s' h
  unfold readExact at h
  split at h
  · cases h
    rfl
  · cases h

/-- Writing leaves the incoming direction alone. -/
theorem moves_writeAll (buf : Bytes) : Steps.Moves (fun s s' => s'.arrivals = s.arrivals) (writeAll broken buf) := by
  intro s a s' h
  unfold writeAll at h
  split at h
  · cases h
    rfl
  · cases h

end TcpSocket

end ShuzaGram.Net
