import Mathlib.Data.Fintype.Card
import Mathlib.Order.WellFounded
import ShuzaGram.Infra.Transactions

/-!
# Transactions that take their locks in order

Sessions that hold locks wait for each other. They never do so in a circle where every transaction takes its locks in
an order. Only some locks need one: a lock whose cover is held already is nobody else's, so nobody waits for it.

* `LockOrder` — the cover and the rank of every lock
* `Ordered` — a proof rule for one transaction: it waits for a lock only where that comes behind all it holds
* `no_cycle` — in every interleaving, the sessions that wait for each other form no circle
* `exists_unhindered` — of finitely many sessions that are not over, one waits for nobody
-/

namespace ShuzaGram.Infra.Transactions

/-- An order of locks. Who holds a lock that is not its own cover holds the cover too. -/
structure LockOrder (L R : Type) where
  cover : L → L
  rank : L → R

section Order

variable {Db W L Op C ε R : Type} {Res : Op → Type} [Preorder R]

/-- A statement may ask for the locks `ls` where `held` are held: it waits for one lock at most, and that is its own
cover and comes behind those that are held. -/
structure LockOrder.Admits (O : LockOrder L R) (held ls : List L) : Prop where
  behind : ∀ l ∈ ls, O.cover l ∈ held ∨ O.cover l = l ∧ ∀ m ∈ held, O.cover m = m → O.rank m < O.rank l
  single : ∀ l ∈ ls, ∀ l' ∈ ls, O.cover l ∉ held → O.cover l' ∉ held → l = l'

/-- Every lock is held with its cover. -/
def LockOrder.Covered (O : LockOrder L R) (held : List L) : Prop := ∀ l ∈ held, O.cover l ∈ held

variable {O : LockOrder L R} {held ls : List L}

omit [Preorder R] in
theorem LockOrder.covered_nil : O.Covered [] := fun _ h => absurd h List.not_mem_nil

theorem LockOrder.Admits.covered (h : O.Admits held ls) (hheld : O.Covered held) : O.Covered (held ++ ls) := by
  intro l hl
  rcases List.mem_append.mp hl with hl | hl
  · exact List.mem_append_left ls (hheld l hl)
  · rcases h.behind l hl with hcover | ⟨hcover, -⟩
    · exact List.mem_append_left ls hcover
    · rw [hcover]
      exact List.mem_append_right held hl

theorem LockOrder.admits_nil (O : LockOrder L R) (held : List L) : O.Admits held [] :=
  ⟨fun _ h => absurd h List.not_mem_nil, fun _ h => absurd h List.not_mem_nil⟩

/-- Locks whose covers are held are not waited for. -/
theorem LockOrder.admits_of_covered (h : ∀ l ∈ ls, O.cover l ∈ held) : O.Admits held ls :=
  ⟨fun l hl => .inl (h l hl), fun l hl _ _ hnot => absurd (h l hl) hnot⟩

theorem LockOrder.admits_single {l : L} (hcover : O.cover l = l)
    (hrank : ∀ m ∈ held, O.cover m = m → O.rank m < O.rank l) : O.Admits held [l] := by
  refine ⟨fun l' hl' => ?_, fun l' hl' l'' hl'' _ _ => ?_⟩
  · rcases List.mem_singleton.mp hl' with rfl
    exact .inr ⟨hcover, hrank⟩
  · rw [List.mem_singleton.mp hl', List.mem_singleton.mp hl'']

/-! ## One transaction -/

variable (E : Engine Db W L Op Res) (O : LockOrder L R) {α β : Type}

/-- A part of a transaction, begun with the locks `held`. Whatever the database answers: every statement asks for its
locks in order, and where the part returns, `Q` holds of what it returns and of the locks that are held by then. -/
def Ordered (Q : α → List L → Prop) : Tx Op C Res ε α → List L → Prop
  | .ret a, held => Q a held
  | .fail _, _ => True
  | .call (.assign _) k, held => Ordered Q (k (.ok ())) held
  | .call (.sql op) k, held =>
    (∀ seen since now r ws ls, E.stmt op seen since now r ws ls →
      O.Admits held ls ∧ Ordered Q (k (.ok r)) (held ++ ls)) ∧
    ∀ e, Ordered Q (k (.error e)) held

variable {E O} {Q : α → List L → Prop}

/-- The rule of a statement. -/
theorem ordered_sql {op : Op} {Q : Res op → List L → Prop}
    (h : ∀ seen since now r ws ls, E.stmt op seen since now r ws ls → O.Admits held ls ∧ Q r (held ++ ls)) :
    Ordered E O Q (Prog.perform (Call.sql op) : Tx Op C Res ε (Res op)) held :=
  ⟨h, fun _ => trivial⟩

/-- The rule of a sequence. -/
theorem Ordered.bind {f : α → Tx Op C Res ε β} {Q : β → List L → Prop} :
    ∀ {p : Tx Op C Res ε α} {held : List L}, Ordered E O (fun a => Ordered E O Q (f a)) p held →
      Ordered E O Q (p >>= f) held
  | .ret _, _, h => h
  | .fail _, _, _ => trivial
  | .call (.assign _) k, _, h => Ordered.bind (p := k (.ok ())) h
  | .call (.sql _) k, _, h =>
    ⟨fun seen since now r ws ls hstmt =>
      ⟨(h.1 seen since now r ws ls hstmt).1, Ordered.bind (p := k (.ok r)) (h.1 seen since now r ws ls hstmt).2⟩,
      fun e => Ordered.bind (p := k (.error e)) (h.2 e)⟩

/-- What a part says in the end may be weakened. -/
theorem Ordered.mono {Q' : α → List L → Prop} (hQ : ∀ a held, Q a held → Q' a held) :
    ∀ {p : Tx Op C Res ε α} {held : List L}, Ordered E O Q p held → Ordered E O Q' p held
  | .ret _, _, h => hQ _ _ h
  | .fail _, _, _ => trivial
  | .call (.assign _) k, _, h => Ordered.mono hQ (p := k (.ok ())) h
  | .call (.sql _) k, _, h =>
    ⟨fun seen since now r ws ls hstmt =>
      ⟨(h.1 seen since now r ws ls hstmt).1, Ordered.mono hQ (p := k (.ok r)) (h.1 seen since now r ws ls hstmt).2⟩,
      fun e => Ordered.mono hQ (p := k (.error e)) (h.2 e)⟩

/-! ## Circles -/

section Circles

variable {ι M : Type}

/-- What is in order about a session where it is. -/
def Session.Follows (E : Engine Db W L Op Res) (O : LockOrder L R) (s : Session Db W L Op C Res ε) : Prop :=
  match s.phase with
  | .resting => True
  | .running p => Ordered E O (fun _ _ => True) p s.held
  | .looking op k _ _ => Ordered E O (fun _ _ => True) (.call (.sql op) k) s.held
  | .ended _ => s.held = []

/-- A session holds its locks with their covers, and goes on in order. -/
structure Session.InOrder (E : Engine Db W L Op Res) (O : LockOrder L R) (s : Session Db W L Op C Res ε) : Prop where
  covered : O.Covered s.held
  follows : s.Follows E O

/-- No two sessions hold one lock, and all go on in order. -/
structure World.InOrder (E : Engine Db W L Op Res) (O : LockOrder L R) (w : World ι Db W L Op C Res ε) : Prop where
  apart : ∀ {i j}, i ≠ j → ∀ l ∈ (w.sessions i).held, l ∉ (w.sessions j).held
  session : ∀ i, (w.sessions i).InOrder E O

/-- The session `i` is in a statement that may need a lock of `j`. -/
def System.Waits (S : System ι Db W L Op C Res ε M) (w : World ι Db W L Op C Res ε) (i j : ι) : Prop :=
  j ≠ i ∧ ∃ op k snapshot since r ws ls, (w.sessions i).phase = .looking op k snapshot since ∧
    S.engine.stmt op (S.engine.writeAll (w.sessions i).writes snapshot) since
      (S.engine.writeAll (w.sessions i).writes w.committed) r ws ls ∧
    ∃ l ∈ ls, l ∈ (w.sessions j).held

variable {S : System ι Db W L Op C Res ε M} {w : World ι Db W L Op C Res ε}

theorem World.InOrder.running (h : w.InOrder E O) {i : ι} {p : Tx Op C Res ε Unit}
    (hphase : (w.sessions i).phase = .running p) : Ordered E O (fun _ _ => True) p (w.sessions i).held := by
  have hi := (h.session i).follows
  unfold Session.Follows at hi
  rwa [hphase] at hi

theorem World.InOrder.looking (h : w.InOrder E O) {i : ι} {op : Op} {k : Except ε (Res op) → Tx Op C Res ε Unit}
    {snapshot : Db} {since : List W} (hphase : (w.sessions i).phase = .looking op k snapshot since) :
    Ordered E O (fun _ _ => True) (.call (.sql op) k) (w.sessions i).held := by
  have hi := (h.session i).follows
  unfold Session.Follows at hi
  rwa [hphase] at hi

theorem World.InOrder.ended (h : w.InOrder E O) {i : ι} {outcome : Except ε C}
    (hphase : (w.sessions i).phase = .ended outcome) : (w.sessions i).held = [] := by
  have hi := (h.session i).follows
  unfold Session.Follows at hi
  rwa [hphase] at hi

/-- Whoever waits does so for a lock that is its own cover and comes behind all such locks that it holds. -/
theorem World.InOrder.waits (h : w.InOrder S.engine O) {i j : ι} (hwaits : S.Waits w i j) :
    ∃ l ∈ (w.sessions j).held, O.cover l = l ∧ ∀ m ∈ (w.sessions i).held, O.cover m = m → O.rank m < O.rank l := by
  obtain ⟨hne, op, k, snapshot, since, r, ws, ls, hphase, hstmt, l, hl, hheld⟩ := hwaits
  obtain ⟨hadmits, -⟩ := (h.looking hphase).1 _ _ _ _ _ _ hstmt
  rcases hadmits.behind l hl with hcover | hmain
  · -- `j` would hold the cover as well
    exact absurd ((h.session j).covered l hheld) (h.apart (Ne.symm hne) _ hcover)
  · exact ⟨l, hheld, hmain⟩

/-- Along a chain of waiting sessions the locks that are waited for rise. -/
theorem World.InOrder.waits_chain (h : w.InOrder S.engine O) {i j : ι} (hchain : Relation.TransGen (S.Waits w) i j) :
    ∃ l ∈ (w.sessions j).held, O.cover l = l ∧ ∀ m ∈ (w.sessions i).held, O.cover m = m → O.rank m < O.rank l := by
  induction hchain with
  | single hwaits => exact h.waits hwaits
  | tail _ hwaits ih =>
    obtain ⟨m, hm, hmain, hbehind⟩ := ih
    obtain ⟨l, hl, hcover, hrank⟩ := h.waits hwaits
    exact ⟨l, hl, hcover, fun m' hm' hmain' => lt_trans (hbehind m' hm' hmain') (hrank m hm hmain)⟩

/-- **No circle of sessions waits.** -/
theorem World.InOrder.no_cycle (h : w.InOrder S.engine O) (i : ι) : ¬Relation.TransGen (S.Waits w) i i := by
  intro hchain
  obtain ⟨l, hl, hcover, hrank⟩ := h.waits_chain hchain
  exact lt_irrefl _ (hrank l hl hcover)

end Circles

/-! ## Every interleaving -/

section Interleaving

variable {ι M : Type} [DecidableEq ι] {S : System ι Db W L Op C Res ε M} {w w' : World ι Db W L Op C Res ε}

theorem World.InOrder.set (h : w.InOrder S.engine O) {i : ι} {s : Session Db W L Op C Res ε}
    (hs : s.InOrder S.engine O) (hheld : ∀ l ∈ s.held, ∀ j ≠ i, l ∉ (w.sessions j).held) :
    (w.set i s).InOrder S.engine O := by
  refine ⟨fun {j j'} hne l hl => ?_, fun j => ?_⟩
  · by_cases hj : j = i
    · subst hj
      simp only [World.set, Function.update_self] at hl
      simp only [World.set, Function.update_of_ne (Ne.symm hne)]
      exact hheld l hl j' (Ne.symm hne)
    · simp only [World.set, Function.update_of_ne hj] at hl
      by_cases hj' : j' = i
      · subst hj'
        simp only [World.set, Function.update_self]
        exact fun hmem => hheld l hmem j hne hl
      · simp only [World.set, Function.update_of_ne hj']
        exact h.apart hne l hl
  · by_cases hj : j = i
    · subst hj
      simp only [World.set, Function.update_self]
      exact hs
    · simp only [World.set, Function.update_of_ne hj]
      exact h.session j

theorem Session.InOrder.observe {s : Session Db W L Op C Res ε} (h : s.InOrder E O) (ws : List W) :
    (s.observe ws).InOrder E O := by
  rcases s with ⟨phase, attempt, captured, writes, held⟩
  cases phase <;> exact ⟨h.covered, h.follows⟩

/-- The step lemma of a commit. -/
theorem World.InOrder.commit (h : w.InOrder S.engine O) (i : ι) : (S.commit w i).InOrder S.engine O := by
  refine ⟨fun {j j'} hne l hl => ?_, fun j => ?_⟩
  · simp only [System.commit] at hl ⊢
    by_cases hj : j = i
    · rw [if_pos hj] at hl
      exact absurd hl List.not_mem_nil
    · rw [if_neg hj, Session.held_observe] at hl
      by_cases hj' : j' = i
      · rw [if_pos hj']
        exact List.not_mem_nil
      · rw [if_neg hj', Session.held_observe]
        exact h.apart hne l hl
  · simp only [System.commit]
    by_cases hj : j = i
    · rw [if_pos hj]
      exact ⟨LockOrder.covered_nil, rfl⟩
    · rw [if_neg hj]
      exact (h.session j).observe _

/-- The step lemma. -/
theorem World.InOrder.next (hbody : ∀ i m, Ordered S.engine O (fun _ _ => True) (S.body i m) [])
    (h : w.InOrder S.engine O) (hnext : S.Next w w') : w'.InOrder S.engine O := by
  have hheld : ∀ i, ∀ l ∈ (w.sessions i).held, ∀ j ≠ i, l ∉ (w.sessions j).held :=
    fun i l hl j hj => h.apart (Ne.symm hj) l hl
  have hnone : ∀ i, ∀ l ∈ ([] : List L), ∀ j ≠ i, l ∉ (w.sessions j).held := fun _ _ hl => absurd hl List.not_mem_nil
  have hcovered : ∀ i, O.Covered (w.sessions i).held := fun i => (h.session i).covered
  cases hnext with
  | @begin i m hphase hleft => exact h.set ⟨LockOrder.covered_nil, hbody i m⟩ (hnone i)
  | @giveUp i hphase hleft => exact h.set ⟨LockOrder.covered_nil, rfl⟩ (hnone i)
  | @look i op k hphase => exact h.set ⟨hcovered i, h.running hphase⟩ (hheld i)
  | @finish i op k snapshot since r ws ls hphase hstmt hfree =>
    obtain ⟨hadmits, hrest⟩ := (h.looking hphase).1 _ _ _ _ _ _ hstmt
    refine h.set ⟨hadmits.covered (hcovered i), hrest⟩ ?_
    intro l hl
    rcases List.mem_append.mp hl with hl | hl
    · exact hheld i l hl
    · exact hfree l hl
  | @fault i op k snapshot since e hphase => exact h.set ⟨hcovered i, (h.looking hphase).2 e⟩ (hheld i)
  | @assign i c k hphase =>
    have hrest := h.running hphase
    exact h.set ⟨hcovered i, hrest⟩ (hheld i)
  | @commit i hphase => exact h.commit i
  | @refuse i e hphase => exact h.set ⟨hcovered i, trivial⟩ (hheld i)
  | @retry i e hphase hagain => exact h.set ⟨LockOrder.covered_nil, trivial⟩ (hnone i)
  | @fail i e hphase hagain => exact h.set ⟨LockOrder.covered_nil, rfl⟩ (hnone i)

/-- The run lemma. -/
theorem inOrder_of_reaches (hbody : ∀ i m, Ordered S.engine O (fun _ _ => True) (S.body i m) []) {db : Db} {c : C}
    (hreach : S.Reaches (World.start db c) w) : w.InOrder S.engine O := by
  induction hreach with
  | refl => exact ⟨fun _ _ h => absurd h List.not_mem_nil, fun _ => ⟨LockOrder.covered_nil, trivial⟩⟩
  | tail _ hnext ih => exact ih.next hbody hnext

/-- The session has returned or thrown. -/
def World.Over (w : World ι Db W L Op C Res ε) (i : ι) : Prop := ∃ outcome, (w.sessions i).phase = .ended outcome

/-- **Of finitely many sessions that are not over, one waits for nobody.** -/
theorem exists_unhindered [Finite ι] (hbody : ∀ i m, Ordered S.engine O (fun _ _ => True) (S.body i m) []) {db : Db}
    {c : C} (hreach : S.Reaches (World.start db c) w) (hopen : ∃ i, ¬w.Over i) :
    ∃ i, ¬w.Over i ∧ ∀ j, ¬S.Waits w i j := by
  have h := inOrder_of_reaches hbody hreach
  let chain := Function.swap (Relation.TransGen (S.Waits w))
  have : IsTrans ι chain := ⟨fun _ _ _ hab hbc => hbc.trans hab⟩
  have : Std.Irrefl chain := ⟨h.no_cycle⟩
  obtain ⟨i, hi, hlast⟩ := (Finite.wellFounded_of_trans_of_irrefl chain).has_min {i | ¬w.Over i} hopen
  refine ⟨i, hi, fun j hwaits => ?_⟩
  -- whom one waits for is not over
  have hj : ¬w.Over j := by
    rintro ⟨outcome, hphase⟩
    obtain ⟨-, op, k, snapshot, since, r, ws, ls, -, -, l, -, hheld⟩ := hwaits
    rw [h.ended hphase] at hheld
    exact absurd hheld List.not_mem_nil
  exact hlast j hj (Relation.TransGen.single hwaits)

end Interleaving

end Order

end ShuzaGram.Infra.Transactions
