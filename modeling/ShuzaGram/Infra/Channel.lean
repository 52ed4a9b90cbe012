import ShuzaGram.Infra.Steps

/-!
# Talking to a peer

A program that receives messages from a peer and sends messages to it, and may throw. The peer is a
list of moves, each a function of everything it was sent so far, so it may react to what it hears; a
move that throws is a connection that breaks. Receiving after the last move finds the connection closed.

* `Talk` — programs over a wire
* `Talk.iterate` — a loop whose every further round has received something, so that it ends
-/

namespace ShuzaGram.Infra

/-- What the peer will still do, and what it has been sent. -/
structure Wire (ε μ : Type) where
  incoming : List (List μ → Except ε μ)
  sent : List μ

/-- The number of moves left. -/
def Wire.left {ε μ : Type} (w : Wire ε μ) : Nat := w.incoming.length

/-- Programs over a wire; an exception keeps the wire. -/
abbrev Talk (ε μ : Type) := EStateM ε (Wire ε μ)

namespace Talk

variable {ε μ α β σ : Type} {f : α → Talk ε μ β} {w w' : Wire ε μ}

/-- The next message of the peer. -/
def receive (closed : ε) : Talk ε μ μ := fun w =>
  match w.incoming with
  | [] => .error closed w
  | move :: rest =>
    match move w.sent with
    | .ok m => .ok m { w with incoming := rest }
    | .error e => .error e { w with incoming := rest }

def send (m : μ) : Talk ε μ Unit := fun w => .ok () { w with sent := w.sent ++ [m] }

/-- Send a message that may not go out: `writes` says what comes of it, behind the messages that went out. -/
def trySend (writes : List μ → μ → Except ε Unit) (m : μ) : Talk ε μ Unit := fun w =>
  match writes w.sent m with
  | .ok () => send m w
  | .error e => .error e w

/-- Messages one after another, up to the first that does not go out. -/
def trySendAll (writes : List μ → μ → Except ε Unit) : List μ → Talk ε μ Unit
  | [] => pure ()
  | m :: ms => do
    trySend writes m
    trySendAll writes ms

/-- The messages go out, each behind those before it. -/
def GoOut (writes : List μ → μ → Except ε Unit) : List μ → List μ → Prop
  | _, [] => True
  | sent, m :: ms => writes sent m = .ok () ∧ GoOut writes (sent ++ [m]) ms

/-- A computation that does not talk. -/
def lift (x : Except ε α) : Talk ε μ α := fun w =>
  match x with
  | .ok a => .ok a w
  | .error e => .error e w

/-- A loop that receives in every round. -/
abbrev iterate (closed : ε) (body : σ → Talk ε μ (σ ⊕ α)) (u : σ) : Talk ε μ α :=
  Steps.iterate Wire.left closed body u

/-- Whenever `x` returns, it has not put anything back. -/
abbrev Keeps (x : Talk ε μ α) : Prop := Steps.Keeps Wire.left x

/-- Whenever `x` returns, it has received something. -/
abbrev Consumes (x : Talk ε μ α) : Prop := Steps.Consumes Wire.left x

/-! ## What the primitives do -/

theorem lift_eq_ok {y : Except ε α} {a : α} : (lift y : Talk ε μ α) w = .ok a w' ↔ y = .ok a ∧ w = w' := by
  unfold lift
  cases y <;> simp

theorem lift_bind_of_ok {y : Except ε α} {a : α} (h : y = .ok a) : (lift y >>= f) w = f a w := by
  rw [h]
  rfl

theorem lift_bind_eq_ok {y : Except ε α} {r : β} :
    (lift y >>= f) w = .ok r w' ↔ ∃ a, y = .ok a ∧ f a w = .ok r w' := by
  rw [Steps.bind_apply]
  unfold lift
  cases y <;> simp

/-- Computations that do not talk compose before they are lifted. -/
theorem lift_bind (y : Except ε α) (g : α → Except ε β) :
    (lift (y >>= g) : Talk ε μ β) = lift y >>= fun a => lift (g a) := by
  funext w
  rw [Steps.bind_apply]
  cases y <;> rfl

theorem receive_of_ok {closed : ε} {move : List μ → Except ε μ} {rest : List (List μ → Except ε μ)} {m : μ}
    (hin : w.incoming = move :: rest) (hmove : move w.sent = .ok m) :
    receive closed w = .ok m { w with incoming := rest } := by
  unfold receive
  rw [hin]
  simp only
  rw [hmove]

theorem consumes_receive (closed : ε) : Consumes (receive closed : Talk ε μ μ) := by
  intro w m w' h
  unfold receive at h
  split at h
  · cases h
  · next move rest hw =>
    split at h
    · cases h
      rw [Wire.left, Wire.left, hw]
      exact Nat.lt_succ_self _
    · cases h

theorem keeps_send (m : μ) : Keeps (send m : Talk ε μ Unit) := by
  intro w a w' h
  cases h
  exact Nat.le_refl _

theorem keeps_trySend (writes : List μ → μ → Except ε Unit) (m : μ) : Keeps (trySend writes m) := by
  intro w a w' h
  unfold trySend at h
  split at h
  · exact keeps_send m h
  · cases h

theorem keeps_trySendAll (writes : List μ → μ → Except ε Unit) : ∀ ms, Keeps (trySendAll writes ms)
  | [] => Steps.keeps_pure ()
  | m :: ms => (keeps_trySend writes m).bind fun _ => keeps_trySendAll writes ms

theorem keeps_lift (y : Except ε α) : Keeps (lift y : Talk ε μ α) := by
  intro w a w' h
  obtain ⟨-, rfl⟩ := lift_eq_ok.mp h
  exact Nat.le_refl _

/-! ## Messages that do not go out -/

section GoOut

variable {writes : List μ → μ → Except ε Unit} {m : μ}

theorem trySend_of_ok (h : writes w.sent m = .ok ()) : trySend writes m w = .ok () { w with sent := w.sent ++ [m] } := by
  unfold trySend
  rw [h]
  rfl

theorem trySend_of_error {e : ε} (h : writes w.sent m = .error e) : trySend writes m w = .error e w := by
  unfold trySend
  rw [h]

theorem GoOut.append : ∀ {ms ms' : List μ} {sent : List μ}, GoOut writes sent ms →
    GoOut writes (sent ++ ms) ms' → GoOut writes sent (ms ++ ms')
  | [], _, sent, _, h' => by rwa [List.append_nil] at h'
  | m :: ms, ms', sent, h, h' => ⟨h.1, GoOut.append h.2 (by rwa [List.append_assoc])⟩

/-- What went out last went out behind all the others. -/
theorem GoOut.last : ∀ {ms : List μ} {sent : List μ}, GoOut writes sent (ms ++ [m]) → writes (sent ++ ms) m = .ok ()
  | [], sent, h => by simpa using h.1
  | m' :: ms, sent, h => by simpa using h.2.last

/-- **All messages go out, or those in front of the first that does not.** -/
theorem trySendAll_cases (writes : List μ → μ → Except ε Unit) : ∀ (ms : List μ) (w : Wire ε μ),
    (GoOut writes w.sent ms ∧ trySendAll writes ms w = .ok () { w with sent := w.sent ++ ms }) ∨
      ∃ out m rest e, ms = out ++ m :: rest ∧ GoOut writes w.sent out ∧ writes (w.sent ++ out) m = .error e ∧
        trySendAll writes ms w = .error e { w with sent := w.sent ++ out }
  | [], w => .inl ⟨trivial, by rw [List.append_nil]; rfl⟩
  | m :: ms, w => by
    cases hm : writes w.sent m with
    | error e =>
      refine .inr ⟨[], m, ms, e, rfl, trivial, by rwa [List.append_nil], ?_⟩
      rw [trySendAll, Steps.bind_of_error (trySend_of_error hm), List.append_nil]
    | ok _ =>
      have hstep := trySend_of_ok hm
      rcases trySendAll_cases writes ms { w with sent := w.sent ++ [m] } with
        ⟨hgo, hall⟩ | ⟨out, m', rest, e, rfl, hgo, hnot, hall⟩
      · refine .inl ⟨⟨hm, hgo⟩, ?_⟩
        rw [trySendAll, Steps.bind_of_ok hstep, hall, List.append_assoc]
        rfl
      · refine .inr ⟨m :: out, m', rest, e, rfl, ⟨hm, hgo⟩, ?_, ?_⟩
        · rwa [List.append_assoc] at hnot
        · rw [trySendAll, Steps.bind_of_ok hstep, hall, List.append_assoc]
          rfl

end GoOut

/-! ## Messages that a program passes over -/

section Padding

variable (p : μ → Prop)

/-- The second list of moves is the first with messages with `p` inserted. -/
inductive Padded : List (List μ → Except ε μ) → List (List μ → Except ε μ) → Prop where
  | nil : Padded [] []
  | keep (move : List μ → Except ε μ) {moves moves' : List (List μ → Except ε μ)} (h : Padded moves moves') :
    Padded (move :: moves) (move :: moves')
  | insert {m : μ} (hm : p m) {moves moves' : List (List μ → Except ε μ)} (h : Padded moves moves') :
    Padded moves ((fun _ => .ok m) :: moves')

/-- Two wires with the same past, whose peers differ by inserted messages. -/
def PaddedWire (w w' : Wire ε μ) : Prop := Padded p w.incoming w'.incoming ∧ w'.sent = w.sent

variable {p}

theorem respects_lift (y : Except ε α) : Steps.Respects (PaddedWire p) (lift y : Talk ε μ α) := by
  intro w w' h
  unfold lift
  cases y with
  | ok a => exact .ok h
  | error e => exact .error h

/-- What is sent may depend on what was sent before. -/
theorem respects_send (m : List μ → μ) : Steps.Respects (PaddedWire p) (fun w => send (m w.sent) w : Talk ε μ Unit) := by
  intro w w' h
  refine .ok ⟨h.1, ?_⟩
  rw [h.2]

theorem respects_trySend (writes : List μ → μ → Except ε Unit) (m : μ) :
    Steps.Respects (PaddedWire p) (trySend writes m) := by
  intro w w' h
  unfold trySend
  rw [h.2]
  cases writes w.sent m with
  | ok _ => exact respects_send (fun _ => m) h
  | error e => exact .error h

theorem respects_trySendAll (writes : List μ → μ → Except ε Unit) :
    ∀ ms, Steps.Respects (PaddedWire p) (trySendAll writes ms)
  | [] => Steps.respects_pure ()
  | m :: ms => (respects_trySend writes m).bind fun _ => respects_trySendAll writes ms

/-- **A loop that passes over the inserted messages does not notice them.** Each round receives one
message and goes on, or leaves, by that message alone. -/
theorem respects_skipping {closed : ε} {g : μ → Except ε (Unit ⊕ α)} {round : Unit → Talk ε μ (Unit ⊕ α)}
    (hround : ∀ u, round u = receive closed >>= fun m => lift (g m)) (hskip : ∀ m, p m → g m = .ok (.inl ())) :
    Steps.Respects (PaddedWire p) (Steps.iterate Wire.left closed round ()) := by
  have hadv : Steps.Advances Wire.left round := by
    refine Steps.advances_of_consumes fun u => ?_
    rw [hround]
    exact (consumes_receive closed).bind fun m => keeps_lift _
  rintro ⟨moves, sent⟩ ⟨moves', sent'⟩ ⟨hpad, hsent⟩
  simp only at hpad hsent
  subst hsent
  -- A kept move does the same on both sides, an inserted one only costs the right side a round.
  induction hpad with
  | nil =>
    have hempty : round () { incoming := [], sent := sent' } = .error closed { incoming := [], sent := sent' } := by
      rw [hround]
      rfl
    rw [Steps.iterate_of_error hadv hempty]
    exact .error ⟨.nil, rfl⟩
  | @keep move ms ms' h ih =>
    have hrounds : ∀ rest, round () { incoming := move :: rest, sent := sent' } =
        (lift (move sent' >>= g) : Talk ε μ _) { incoming := rest, sent := sent' } := by
      intro rest
      rw [hround, Steps.bind_apply]
      simp only [receive]
      cases move sent' <;> rfl
    cases hg : (move sent' >>= g) with
    | error e =>
      rw [hg] at hrounds
      rw [Steps.iterate_of_error hadv (hrounds ms), Steps.iterate_of_error hadv (hrounds ms')]
      exact .error ⟨h, rfl⟩
    | ok r =>
      rw [hg] at hrounds
      cases r with
      | inr a =>
        rw [Steps.iterate_of_inr hadv (hrounds ms), Steps.iterate_of_inr hadv (hrounds ms')]
        exact .ok ⟨h, rfl⟩
      | inl u =>
        rw [Steps.iterate_of_inl hadv (hrounds ms), Steps.iterate_of_inl hadv (hrounds ms')]
        exact ih
  | @insert m hm ms ms' h ih =>
    have hright : round () { incoming := (fun _ => .ok m) :: ms', sent := sent' } =
        .ok (.inl ()) { incoming := ms', sent := sent' } := by
      rw [hround, Steps.bind_apply]
      simp only [receive]
      rw [hskip m hm]
      rfl
    rw [Steps.iterate_of_inl hadv hright]
    exact ih

end Padding

end Talk

end ShuzaGram.Infra
