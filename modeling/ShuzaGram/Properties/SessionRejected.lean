import Mathlib.Data.List.Forall2
import ShuzaGram.Properties.Dispatch

/-!
# Rejected messages are invisible

A message that does not decrypt, or whose id is not larger than the mark, makes `HandleEncrypted`
throw. In the second case the session has already taken over the session id of the message. Still,
no later call can tell: it either overwrites the session id or does not use it. The argument is a
simulation between two runs whose states agree on everything but the session id.
-/

namespace ShuzaGram.Mtproto

open Infra Crypto Messages

variable {W : Type} {cfg : SessionConfig W}

/-- Refused by `DecryptMessage`, or by the comparison of ids. -/
def Rejected (cfg : SessionConfig W) (s : SessionState W) (incoming : EncryptedMessage) : Prop :=
  (∃ e, decryptMessage cfg.P cfg.authKey incoming cfg.mySide = .error e) ∨
    ∃ data, decryptMessage cfg.P cfg.authKey incoming cfg.mySide = .ok data ∧
      data.messageId ≤ s.lastSeenMsgId

/-- The state after a run. -/
def stateAfter (cfg : SessionConfig W) (draws : Nat → Draw) :
    SessionState W → List EncryptedMessage → SessionState W
  | s, [] => s
  | s, m :: ms => stateAfter cfg draws (handleEncrypted cfg draws s m).state ms

/-- Two encryptions under the session's key of messages that differ at most in the message id. -/
def SameReply (cfg : SessionConfig W) (r r' : EncryptedMessage) : Prop :=
  ∃ d d' rand rand',
    r = sealed cfg.P cfg.authKey d cfg.mySide rand ∧ r' = sealed cfg.P cfg.authKey d' cfg.mySide rand' ∧
      d.salt = d'.salt ∧ d.sessionId = d'.sessionId ∧ d.seqNo = d'.seqNo ∧
      d.messageData = d'.messageData

/-- Two calls that cannot be told apart, clock and random source aside. -/
structure SameCall (cfg : SessionConfig W) (c c' : Call W) : Prop where
  throws : ∀ e, c.result = .error e ↔ c'.result = .error e
  invoked : c.invoked = c'.invoked
  replies : ∀ rs rs', c.result = .ok rs → c'.result = .ok rs' → List.Forall₂ (SameReply cfg) rs rs'

/-- Agreement on everything but the session id. -/
structure SameState (s s' : SessionState W) : Prop where
  lastSeenMsgId : s.lastSeenMsgId = s'.lastSeenMsgId
  contentSeqCounter : s.contentSeqCounter = s'.contentSeqCounter
  world : s.world = s'.world

theorem SameState.refl (s : SessionState W) : SameState s s := ⟨rfl, rfl, rfl⟩

theorem SameState.trans {s s' s'' : SessionState W} (h : SameState s s') (h' : SameState s' s'') :
    SameState s s'' :=
  ⟨h.lastSeenMsgId.trans h'.lastSeenMsgId, h.contentSeqCounter.trans h'.contentSeqCounter,
    h.world.trans h'.world⟩

/-- An accepted message makes the states equal. -/
theorem SameState.accept_eq {s s' : SessionState W} (h : SameState s s')
    (data : EncryptedMessageData) : s.accept data = s'.accept data := by
  simp only [SessionState.accept, h.contentSeqCounter, h.world]

/-! ## The loop under another clock and random source -/

theorem sealReplies_same (draws draws' : Nat → Draw) (sessionId : Int64) :
    ∀ (n : Nat) (bodies : List Bytes),
      List.Forall₂ (SameReply cfg) (sealReplies cfg draws sessionId n bodies)
        (sealReplies cfg draws' sessionId n bodies)
  | _, [] => .nil
  | n, _ :: bodies =>
    .cons ⟨_, _, _, _, rfl, rfl, rfl, rfl, rfl, rfl⟩ (sealReplies_same draws draws' sessionId (n + 1) bodies)

theorem prepend_result_eq_error {invoked : List (Site × Invocation)}
    {reply : List (Bytes × EncryptedMessage)} {c : Call W} {e : Exn} :
    (c.prepend invoked reply).result = .error e ↔ c.result = .error e := by
  unfold Call.prepend
  cases c.result with
  | error e' => simp [Except.map]
  | ok rest => simp [Except.map]

/-- The draws reach nothing but the replies themselves. -/
theorem dispatchAll_draws (cfg : SessionConfig W) (draws draws' : Nat → Draw) (outer : Int64) :
    ∀ (ms : List InnerMessage) (i : Nat) (s : SessionState W),
      (∀ e, (dispatchAll cfg draws outer i ms s).result = .error e ↔
        (dispatchAll cfg draws' outer i ms s).result = .error e) ∧
      (dispatchAll cfg draws outer i ms s).invoked = (dispatchAll cfg draws' outer i ms s).invoked ∧
      (dispatchAll cfg draws outer i ms s).bodies = (dispatchAll cfg draws' outer i ms s).bodies ∧
      (dispatchAll cfg draws outer i ms s).state = (dispatchAll cfg draws' outer i ms s).state := by
  intro ms
  induction ms with
  | nil => exact fun i s => ⟨fun e => Iff.rfl, rfl, rfl, rfl⟩
  | cons m ms ih =>
    intro i s
    -- The draws are only used to seal, which cannot fail and leaves no trace in the state.
    cases h : (dispatchIn cfg s m).response with
    | error e =>
      rw [dispatchAll_cons_error h, dispatchAll_cons_error h]
      exact ⟨fun e => Iff.rfl, rfl, rfl, rfl⟩
    | ok response =>
      by_cases hne : response = []
      · subst hne
        obtain ⟨h1, h2, h3, h4⟩ := ih (i + 1) (s.after (dispatchIn cfg s m) 0)
        rw [dispatchAll_cons_nil h, dispatchAll_cons_nil h]
        refine ⟨fun e => ?_, ?_, ?_, h4⟩
        · rw [prepend_result_eq_error, prepend_result_eq_error, h1]
        · simp only [Call.prepend, h2]
        · simp only [Call.prepend, h3]
      · obtain ⟨h1, h2, h3, h4⟩ := ih (i + 1) (s.after (dispatchIn cfg s m) 1)
        rw [dispatchAll_cons_reply h hne, dispatchAll_cons_reply h hne]
        refine ⟨fun e => ?_, ?_, ?_, h4⟩
        · rw [prepend_result_eq_error, prepend_result_eq_error, h1]
        · simp only [Call.prepend, h2]
        · simp only [Call.prepend, h3, List.map_cons, List.map_nil]

/-! ## The simulation -/

/-- A rejected message leaves the state as it was, but for the session id. -/
theorem handleEncrypted_rejected (draws : Nat → Draw) {s : SessionState W}
    {incoming : EncryptedMessage} (h : Rejected cfg s incoming) :
    SameState (handleEncrypted cfg draws s incoming).state s := by
  generalize hcall : handleEncrypted cfg draws s incoming = c
  have hhandled := handleEncrypted_handled cfg draws s incoming
  rw [hcall] at hhandled
  have hnot : ∀ {data}, decryptMessage cfg.P cfg.authKey incoming cfg.mySide = .ok data →
      ¬ s.lastSeenMsgId < data.messageId := by
    intro data hdec hlt
    rcases h with ⟨e, herr⟩ | ⟨data', hdec', hle⟩
    · rw [hdec] at herr
      cases herr
    · rw [hdec] at hdec'
      cases hdec'
      exact Int64.not_le.mpr hlt hle
  cases hhandled with
  | undecryptable _ => exact .refl s
  | replayed _ _ => exact ⟨rfl, rfl, rfl⟩
  | malformed hdec hlt _ => exact absurd hlt (hnot hdec)
  | accepted hdec hlt _ => exact absurd hlt (hnot hdec)

/-- The step of the simulation: the same message in states that agree. -/
theorem handleEncrypted_same (cfg : SessionConfig W) (draws draws' : Nat → Draw)
    {s s' : SessionState W} (h : SameState s s') (incoming : EncryptedMessage) :
    SameCall cfg (handleEncrypted cfg draws s incoming) (handleEncrypted cfg draws' s' incoming) ∧
      SameState (handleEncrypted cfg draws s incoming).state
        (handleEncrypted cfg draws' s' incoming).state := by
  have hthrow : ∀ (e : Exn) (t t' : SessionState W), SameCall cfg (Call.throw e t) (Call.throw e t') :=
    fun e t t' => ⟨fun _ => Iff.rfl, rfl, fun _ _ hr _ => by cases hr⟩
  unfold handleEncrypted
  cases hdec : decryptMessage cfg.P cfg.authKey incoming cfg.mySide with
  | error e => exact ⟨hthrow e s s', h⟩
  | ok data =>
    simp only [← h.lastSeenMsgId]
    split
    · exact ⟨hthrow _ _ _, rfl, h.contentSeqCounter, h.world⟩
    · cases innerMessages data with
      | error e => exact ⟨hthrow _ _ _, rfl, h.contentSeqCounter, h.world⟩
      | ok inner =>
        have haccept := h.accept_eq data
        obtain ⟨h1, h2, h3, h4⟩ :=
          dispatchAll_draws cfg draws draws' data.messageId inner 0 (s.accept data)
        show SameCall cfg (dispatchAll cfg draws data.messageId 0 inner (s.accept data))
            (dispatchAll cfg draws' data.messageId 0 inner (s'.accept data)) ∧
          SameState (dispatchAll cfg draws data.messageId 0 inner (s.accept data)).state
            (dispatchAll cfg draws' data.messageId 0 inner (s'.accept data)).state
        rw [← haccept]
        refine ⟨⟨h1, h2, ?_⟩, h4 ▸ SameState.refl _⟩
        intro rs rs' hrs hrs'
        rw [dispatchAll_result draws data.messageId 0 inner (s.accept data) hrs,
          dispatchAll_result draws' data.messageId 0 inner (s.accept data) hrs', h3]
        exact sealReplies_same draws draws' _ _ _

/-! ## Whole runs -/

/-- An incoming message of a longer run: an original one, or one that was inserted. -/
structure Arrival where
  original : Bool
  message : EncryptedMessage

/-- The messages of a run without the inserted ones. -/
def originals (arrivals : List Arrival) : List EncryptedMessage :=
  (arrivals.filter Arrival.original).map Arrival.message

/-- The calls of a run that belong to original messages. -/
def originalCalls (arrivals : List Arrival) (calls : List (Call W)) : List (Call W) :=
  ((arrivals.zip calls).filter fun p => p.1.original).map Prod.snd

/-- Every inserted message is rejected in the state in which it arrives. -/
def InsertedRejected (cfg : SessionConfig W) (draws : Nat → Draw) (s : SessionState W)
    (arrivals : List Arrival) : Prop :=
  ∀ before a after, arrivals = before ++ a :: after → a.original = false →
    Rejected cfg (stateAfter cfg draws s (before.map Arrival.message)) a.message

theorem InsertedRejected.tail {draws : Nat → Draw} {s : SessionState W} {a : Arrival}
    {arrivals : List Arrival} (h : InsertedRejected cfg draws s (a :: arrivals)) :
    InsertedRejected cfg draws (handleEncrypted cfg draws s a.message).state arrivals := by
  intro before b after heq hb
  exact h (a :: before) b after (by rw [heq]; rfl) hb

theorem insertedRejected_nil (cfg : SessionConfig W) (draws : Nat → Draw) (s : SessionState W) :
    InsertedRejected cfg draws s [] := by
  intro before a after heq _
  cases before <;> cases heq

theorem InsertedRejected.cons {draws : Nat → Draw} {s : SessionState W} {a : Arrival}
    {arrivals : List Arrival} (ha : a.original = false → Rejected cfg s a.message)
    (h : InsertedRejected cfg draws (handleEncrypted cfg draws s a.message).state arrivals) :
    InsertedRejected cfg draws s (a :: arrivals) := by
  intro before b after heq hb
  cases before with
  | nil =>
    cases heq
    exact ha hb
  | cons c before =>
    cases heq
    exact h before b after rfl hb

theorem runCalls_inserted (draws draws' : Nat → Draw) :
    ∀ (arrivals : List Arrival) (s s' : SessionState W), SameState s s' →
      InsertedRejected cfg draws s arrivals →
      List.Forall₂ (SameCall cfg)
        (originalCalls arrivals (runCalls cfg draws s (arrivals.map Arrival.message)))
        (runCalls cfg draws' s' (originals arrivals))
  | [], _, _, _, _ => .nil
  | a :: arrivals, s, s', hsame, hrej => by
    cases ha : a.original with
    | false =>
      have hrejected : Rejected cfg s a.message := hrej [] a arrivals rfl ha
      have hinvisible := handleEncrypted_rejected draws hrejected
      have ih := runCalls_inserted draws draws' arrivals _ s' (hinvisible.trans hsame) hrej.tail
      simpa [originals, originalCalls, runCalls, ha] using ih
    | true =>
      obtain ⟨hcall, hstate⟩ := handleEncrypted_same cfg draws draws' hsame a.message
      have ih := runCalls_inserted draws draws' arrivals _ _ hstate hrej.tail
      simpa [originals, originalCalls, runCalls, ha] using And.intro hcall ih

/-- **Rejected messages are invisible.** Inserting rejected messages into a run changes nothing about
the original calls: whether and what they throw, the handlers they invoke, and the session id, salt,
number and body of each reply. -/
theorem runCalls_insert_rejected (cfg : SessionConfig W) (draws draws' : Nat → Draw)
    (s : SessionState W) (arrivals : List Arrival) (h : InsertedRejected cfg draws s arrivals) :
    List.Forall₂ (SameCall cfg)
      (originalCalls arrivals (runCalls cfg draws s (arrivals.map Arrival.message)))
      (runCalls cfg draws' s (originals arrivals)) :=
  runCalls_inserted draws draws' arrivals s s (.refl s) h

/-- Two calls, with a retransmission of the first and a message under a foreign key between them. -/
def sampleArrivals : List Arrival :=
  [{ original := true, message := sampleMessage samplePrimitives 100 (sampleCall 3) },
    { original := false, message := sampleMessage samplePrimitives 100 (sampleCall 3) },
    { original := false,
      message := { authKeyId := Arr.ofList 8 [1], msgKey := Arr.zero 16, encryptedData := [] } },
    { original := true, message := sampleMessage samplePrimitives 104 (sampleCall 4) }]

theorem sampleArrivals_rejected :
    InsertedRejected (sampleConfig samplePrimitives) sampleDraws (SessionState.init 0 0)
      sampleArrivals := by
  refine .cons (fun h => by cases h) (.cons (fun _ => .inr ⟨sampleData 100 (sampleCall 3), ?_, ?_⟩)
    (.cons (fun _ => .inl ⟨.runtimeError "unknown auth key id", ?_⟩)
      (.cons (fun h => by cases h) (insertedRejected_nil _ _ _))))
  · decide +kernel
  · decide +kernel
  · decide +kernel

theorem sampleArrivals_invisible :
    InsertedRejected (sampleConfig samplePrimitives) sampleDraws (SessionState.init 0 0)
        sampleArrivals ∧
      List.Forall₂ (SameCall (sampleConfig samplePrimitives))
        (originalCalls sampleArrivals (runCalls (sampleConfig samplePrimitives) sampleDraws
          (SessionState.init 0 0) (sampleArrivals.map Arrival.message)))
        (runCalls (sampleConfig samplePrimitives) sampleDraws (SessionState.init 0 0)
          (originals sampleArrivals)) :=
  ⟨sampleArrivals_rejected, runCalls_insert_rejected _ sampleDraws sampleDraws _ sampleArrivals
    sampleArrivals_rejected⟩

end ShuzaGram.Mtproto
