import ShuzaGram.Properties.Dispatch

/-!
# The replay guard

The guard of `HandleEncrypted` compares the id of the incoming message with the largest one seen.

* `runCalls_sites_increasing` — what it gives: in a run, no place of an incoming message is
  dispatched twice, and later dispatches belong to messages with larger ids
* `sampleDuplicate_dispatched_twice` — what it does not give: the ids inside a container are not
  compared
-/

namespace ShuzaGram.Mtproto

open Infra Crypto Messages

variable {W : Type} {cfg : SessionConfig W}

/-- One site is dispatched before another: an older incoming message, or an earlier place in the
same one. -/
def Site.Before (a b : Site) : Prop :=
  a.outer < b.outer ∨ a.outer = b.outer ∧ a.position < b.position

/-- A site of the given incoming message holds a message with the id `msgId`. -/
def HoldsAt (cfg : SessionConfig W) (incoming : EncryptedMessage) (site : Site) (msgId : Int64) :
    Prop :=
  ∃ data inner, decryptMessage cfg.P cfg.authKey incoming cfg.mySide = .ok data ∧
    innerMessages data = .ok inner ∧ site.outer = data.messageId ∧
    (inner[site.position]?).map InnerMessage.msgId = some msgId

/-! ## One message -/

theorem mem_invokedAt {outer : Int64} {i : Nat} {s : SessionState W} {m : InnerMessage}
    {x : Site × Invocation} (h : x ∈ invokedAt outer i (dispatchIn cfg s m)) :
    x.1 = { outer, position := i } ∧ x.2.msgId = m.msgId := by
  unfold invokedAt at h
  obtain ⟨inv, hinv, rfl⟩ := List.mem_map.mp h
  obtain ⟨_, _, _, -, hid, -⟩ := dispatchOne_invoked (Option.mem_toList.mp hinv)
  exact ⟨rfl, hid⟩

theorem invokedAt_pairwise (outer : Int64) (i : Nat) (d : Dispatched W)
    (R : Site × Invocation → Site × Invocation → Prop) : (invokedAt outer i d).Pairwise R := by
  unfold invokedAt
  cases d.invoked with
  | none => exact .nil
  | some inv => exact List.pairwise_singleton _ _

/-! ## One call -/

/-- The sites of a loop that starts at position `i`. -/
structure LoopSites (outer : Int64) (i : Nat) (ms : List InnerMessage)
    (invoked : List (Site × Invocation)) : Prop where
  increasing : invoked.Pairwise fun a b => a.1.position < b.1.position
  within : ∀ x ∈ invoked, x.1.outer = outer ∧ i ≤ x.1.position ∧
    (ms[x.1.position - i]?).map InnerMessage.msgId = some x.2.msgId

theorem LoopSites.cons {outer : Int64} {i : Nat} {ms : List InnerMessage}
    {invoked : List (Site × Invocation)} (h : LoopSites outer (i + 1) ms invoked)
    (cfg : SessionConfig W) (s : SessionState W) (m : InnerMessage) :
    LoopSites outer i (m :: ms) (invokedAt outer i (dispatchIn cfg s m) ++ invoked) := by
  constructor
  · refine List.pairwise_append.mpr ⟨invokedAt_pairwise _ _ _ _, h.increasing, ?_⟩
    intro a ha b hb
    obtain ⟨hsite, -⟩ := mem_invokedAt ha
    obtain ⟨-, hle, -⟩ := h.within b hb
    rw [hsite]
    exact hle
  · intro x hx
    rcases List.mem_append.mp hx with hx | hx
    · obtain ⟨hsite, hid⟩ := mem_invokedAt hx
      rw [hsite]
      exact ⟨rfl, Nat.le_refl i, by simp [hid]⟩
    · obtain ⟨houter, hle, hget⟩ := h.within x hx
      have hpos : x.1.position - i = x.1.position - (i + 1) + 1 := by omega
      exact ⟨houter, by omega, by rw [hpos, List.getElem?_cons_succ]; exact hget⟩

theorem loopSites_nil (outer : Int64) (i : Nat) (ms : List InnerMessage) :
    LoopSites outer i ms [] := ⟨.nil, fun _ hx => by cases hx⟩

theorem dispatchAll_sites (cfg : SessionConfig W) (draws : Nat → Draw) (outer : Int64) (i : Nat)
    (ms : List InnerMessage) (s : SessionState W) :
    LoopSites outer i ms (dispatchAll cfg draws outer i ms s).invoked := by
  refine dispatchAll_induct (motive := fun i ms _ c => LoopSites outer i ms c.invoked)
    ?_ ?_ ?_ ?_ ms i s
  · intro i s
    exact loopSites_nil outer i []
  · intro i m ms s e _
    have h := (loopSites_nil outer (i + 1) ms).cons cfg s m
    rwa [List.append_nil] at h
  · intro i m ms s c _ ih
    exact ih.cons cfg s m
  · intro i m ms s c response _ _ ih
    exact ih.cons cfg s m

/-- The step lemma: what a call dispatches lies beyond the mark, and the mark moves up to it. -/
theorem handleEncrypted_sites (cfg : SessionConfig W) (draws : Nat → Draw) (s : SessionState W)
    (incoming : EncryptedMessage) :
    s.lastSeenMsgId ≤ (handleEncrypted cfg draws s incoming).state.lastSeenMsgId ∧
      (handleEncrypted cfg draws s incoming).invoked.Pairwise (fun a b => a.1.Before b.1) ∧
      ∀ x ∈ (handleEncrypted cfg draws s incoming).invoked,
        s.lastSeenMsgId < x.1.outer ∧
          x.1.outer = (handleEncrypted cfg draws s incoming).state.lastSeenMsgId ∧
          HoldsAt cfg incoming x.1 x.2.msgId := by
  generalize hcall : handleEncrypted cfg draws s incoming = c
  have hhandled := handleEncrypted_handled cfg draws s incoming
  rw [hcall] at hhandled
  cases hhandled with
  | undecryptable _ => exact ⟨Int64.le_refl _, .nil, fun _ hx => by cases hx⟩
  | replayed _ _ => exact ⟨Int64.le_refl _, .nil, fun _ hx => by cases hx⟩
  | malformed _ hlt _ => exact ⟨Int64.le_of_lt hlt, .nil, fun _ hx => by cases hx⟩
  | @accepted data inner hdec hlt hinner =>
    have hsites := dispatchAll_sites cfg draws data.messageId 0 inner (s.accept data)
    obtain ⟨-, hmark, -⟩ := dispatchAll_state cfg draws data.messageId 0 inner (s.accept data)
    have hmark : _ = data.messageId := hmark
    rw [hmark]
    refine ⟨Int64.le_of_lt hlt, ?_, ?_⟩
    · refine hsites.increasing.imp_of_mem fun {a b} ha hb hab => .inr ⟨?_, hab⟩
      rw [(hsites.within a ha).1, (hsites.within b hb).1]
    · intro x hx
      obtain ⟨houter, -, hget⟩ := hsites.within x hx
      exact ⟨by rw [houter]; exact hlt, houter, data, inner, hdec, hinner, houter, hget⟩

/-! ## A whole run -/

/-- Two calls one after the other: what the first dispatches came in a message with a smaller id. -/
def OlderMessages (c c' : Call W) : Prop := ∀ x ∈ c.invoked, ∀ y ∈ c'.invoked, x.1.outer < y.1.outer

theorem runCalls_sites (cfg : SessionConfig W) (draws : Nat → Draw) :
    ∀ (incoming : List EncryptedMessage) (s : SessionState W),
    ((runCalls cfg draws s incoming).flatMap Call.invoked).Pairwise (fun a b => a.1.Before b.1) ∧
      (runCalls cfg draws s incoming).Pairwise OlderMessages ∧
      ∀ x ∈ (runCalls cfg draws s incoming).flatMap Call.invoked,
        s.lastSeenMsgId < x.1.outer ∧ ∃ m ∈ incoming, HoldsAt cfg m x.1 x.2.msgId
  | [], _ => ⟨.nil, .nil, fun _ hx => by cases hx⟩
  | m :: ms, s => by
    obtain ⟨hmark, hpair, hx⟩ := handleEncrypted_sites cfg draws s m
    obtain ⟨ihpair, ihcalls, ihx⟩ := runCalls_sites cfg draws ms (handleEncrypted cfg draws s m).state
    have holder : ∀ a ∈ (handleEncrypted cfg draws s m).invoked,
        ∀ b ∈ (runCalls cfg draws (handleEncrypted cfg draws s m).state ms).flatMap Call.invoked,
        a.1.outer < b.1.outer := by
      intro a ha b hb
      rw [(hx a ha).2.1]
      exact (ihx b hb).1
    rw [runCalls, List.flatMap_cons]
    refine ⟨List.pairwise_append.mpr ⟨hpair, ihpair, fun a ha b hb => .inl (holder a ha b hb)⟩, ?_, ?_⟩
    · refine List.pairwise_cons.mpr ⟨fun c hc a ha b hb => ?_, ihcalls⟩
      exact holder a ha b (List.mem_flatMap.mpr ⟨c, hc, hb⟩)
    · intro x hmem
      rcases List.mem_append.mp hmem with h | h
      · obtain ⟨hlt, -, hholds⟩ := hx x h
        exact ⟨hlt, m, List.mem_cons_self, hholds⟩
      · obtain ⟨hlt, m', hm', hholds⟩ := ihx x h
        exact ⟨Int64.lt_of_le_of_lt hmark hlt, m', List.mem_cons_of_mem m hm', hholds⟩

/-- **Nothing is dispatched twice from the same place.** In every run, throwing calls included, the
handler runs stand in the strict order of their sites, so no two have the same incoming message id
and position; no two calls dispatch from messages with one id; and each site names the inner message
that caused the run. -/
theorem runCalls_sites_increasing (cfg : SessionConfig W) (draws : Nat → Draw) (s : SessionState W)
    (incoming : List EncryptedMessage) :
    ((runCalls cfg draws s incoming).flatMap Call.invoked).Pairwise (fun a b => a.1.Before b.1) ∧
      (runCalls cfg draws s incoming).Pairwise OlderMessages ∧
      ∀ x ∈ (runCalls cfg draws s incoming).flatMap Call.invoked,
        ∃ m ∈ incoming, HoldsAt cfg m x.1 x.2.msgId := by
  obtain ⟨hpair, hcalls, hx⟩ := runCalls_sites cfg draws incoming s
  exact ⟨hpair, hcalls, fun x hmem => (hx x hmem).2⟩

/-- A container that carries the same message twice. -/
def sampleDuplicate : Bytes :=
  MsgContainer.encode
    [{ msgId := 5, seqno := 1, body := sampleCall 3 }, { msgId := 5, seqno := 1, body := sampleCall 3 }]

/-- The ids inside a container are not guarded: under all primitives, the id 5 of the container above
is dispatched twice. -/
theorem sampleDuplicate_dispatched_twice :
    ¬ ∃ P : Primitives,
      ((runCalls (sampleConfig P) sampleDraws (SessionState.init 0 0)
        [sampleMessage P 100 sampleDuplicate]).flatMap Call.invoked).Pairwise
        fun a b => a.2.msgId ≠ b.2.msgId := by
  rintro ⟨P, hpair⟩
  have hcall := handleEncrypted_sampleMessage P (SessionState.init 0 0) 100 sampleDuplicate
    [{ msgId := 5, body := sampleCall 3 }, { msgId := 5, body := sampleCall 3 }] (by decide) (by decide) (by decide) rfl
  have hresp : ∀ s : SessionState Nat,
      (dispatchIn (sampleConfig P) s { msgId := 5, body := sampleCall 3 }).response =
        .ok (RpcResult.encode 5 (Pong.encode 0 3)) := fun s => by rw [dispatchIn_sampleCall]; rfl
  simp only [runCalls, List.flatMap_cons, List.flatMap_nil, hcall] at hpair
  rw [dispatchAll_cons_reply (hresp _) (by decide), dispatchAll_cons_reply (hresp _) (by decide)]
    at hpair
  simp only [Call.prepend, dispatchIn_sampleCall, invokedAt, Option.toList_some, List.map_cons,
    List.map_nil, List.cons_append, List.nil_append, List.pairwise_cons] at hpair
  exact hpair.1 _ List.mem_cons_self rfl

end ShuzaGram.Mtproto
