import Mathlib.Logic.Function.Basic
import Mathlib.Logic.Relation
import ShuzaGram.Infra.Prog

/-!
# Transactions at READ COMMITTED

Sessions that run transactions on one database, statement by statement and in any order. A statement takes
a snapshot of what is committed when it starts, waits for the locks it needs, and may meet rows that others
have changed by then. The changes of a transaction are its own until it commits, and its locks are held to
its end. A transaction that fails may be tried again; the variables of its session survive that.

* `Engine` — a database: what its statements do, and the lock that every change needs
* `System` — the sessions; `System.Next` is one step of one session
* `Safe` — a proof rule for one transaction: others change only what its locks leave open
* `safe_commit` — a transaction that keeps to the rule commits what the rule says, in every interleaving
* `exists_commit` — what a session has returned, one of its transactions has committed
-/

namespace ShuzaGram.Infra.Transactions

/-- A database. -/
structure Engine (Db W L Op : Type) (Res : Op → Type) where
  /-- A change of one row. -/
  write : W → Db → Db
  /-- The lock without which nobody makes the change. -/
  guard : W → L
  /-- What a statement may answer, write and lock. It sees `seen` in its snapshot; when it finishes, others have
  committed the writes `since`, and it sees `now`. -/
  stmt : (op : Op) → (seen : Db) → (since : List W) → (now : Db) → Res op → List W → List L → Prop

/-- The rows that a locking statement finds under a condition. It picks them in its snapshot and looks again at
those that others have touched since. A row that was deleted and inserted again is another row, hence a touched
row may be missed. -/
structure Finds {κ ρ : Type} (p : κ → ρ → Prop) (seen now : κ → Option ρ) (touched : κ → Prop) (keys : List κ) :
    Prop where
  nodup : keys.Nodup
  picked : ∀ k ∈ keys, ∃ r, seen k = some r ∧ p k r
  current : ∀ k ∈ keys, ∃ r, now k = some r ∧ p k r
  untouched : ∀ k r, seen k = some r → p k r → ¬touched k → k ∈ keys

section Finds

variable {κ ρ : Type} {p : κ → ρ → Prop} {seen now : κ → Option ρ} {touched : κ → Prop} {keys : List κ}

/-- Where nothing has changed, a statement finds all rows that there are. -/
theorem Finds.mem_iff (h : Finds p seen now touched keys)
    (hstill : ∀ k r, now k = some r → p k r → seen k = now k ∧ ¬touched k) {k : κ} :
    k ∈ keys ↔ ∃ r, now k = some r ∧ p k r := by
  constructor
  · exact h.current k
  · rintro ⟨r, hr, hp⟩
    obtain ⟨hseen, htouched⟩ := hstill k r hr hp
    exact h.untouched k r (hseen.trans hr) hp htouched

/-- Under a key there is one row at most. -/
theorem Finds.eq_nil_or_single {k : κ} (h : Finds (fun k' _ => k' = k) seen now touched keys) :
    keys = [] ∨ keys = [k] ∧ ∃ r, now k = some r := by
  have hall : ∀ k' ∈ keys, k' = k := by
    intro k' hk'
    obtain ⟨_, _, heq⟩ := h.current k' hk'
    exact heq
  cases keys with
  | nil => exact .inl rfl
  | cons k₁ rest =>
    obtain rfl := hall k₁ List.mem_cons_self
    obtain ⟨r, hr, -⟩ := h.current k₁ List.mem_cons_self
    refine .inr ⟨?_, r, hr⟩
    cases rest with
    | nil => rfl
    | cons k₂ rest =>
      obtain rfl := hall k₂ (List.mem_cons_of_mem _ List.mem_cons_self)
      exact absurd List.mem_cons_self (List.nodup_cons.mp h.nodup).1

end Finds

/-- What a transaction does: a statement, or an assignment to the variable of its session. -/
inductive Call (Op C : Type) where
  | sql (op : Op)
  | assign (c : C)

@[reducible] def Call.Res {Op C : Type} (Res : Op → Type) : Call Op C → Type
  | sql op => Res op
  | assign _ => Unit

/-- The body of a transaction, or a part of it. -/
abbrev Tx (Op C : Type) (Res : Op → Type) (ε α : Type) := Prog (Call Op C) (Call.Res Res) ε α

section Sessions

variable {Db W L Op C ε : Type} {Res : Op → Type}

/-- Where a session is. -/
inductive Phase (Db W Op C : Type) (Res : Op → Type) (ε : Type) where
  /-- Between two attempts. -/
  | resting
  /-- Between two statements. -/
  | running (rest : Tx Op C Res ε Unit)
  /-- In a statement, with its snapshot and with what others have committed since. -/
  | looking (op : Op) (k : Except ε (Res op) → Tx Op C Res ε Unit) (snapshot : Db) (since : List W)
  | ended (outcome : Except ε C)

structure Session (Db W L Op C : Type) (Res : Op → Type) (ε : Type) where
  phase : Phase Db W Op C Res ε
  attempt : Nat
  captured : C
  writes : List W
  held : List L

/-- A statement in progress learns what another session commits. -/
def Session.observe (ws : List W) (s : Session Db W L Op C Res ε) : Session Db W L Op C Res ε :=
  match s.phase with
  | .looking op k snapshot since => { s with phase := .looking op k snapshot (since ++ ws) }
  | _ => s

/-- A session without a transaction. -/
def Session.leave (phase : Phase Db W Op C Res ε) (s : Session Db W L Op C Res ε) : Session Db W L Op C Res ε :=
  { s with phase, writes := [], held := [] }

structure World (ι Db W L Op C : Type) (Res : Op → Type) (ε : Type) where
  committed : Db
  sessions : ι → Session Db W L Op C Res ε

/-- The sessions: their transactions, and how often these are tried. -/
structure System (ι Db W L Op C : Type) (Res : Op → Type) (ε M : Type) where
  engine : Engine Db W L Op Res
  /-- The transaction of a session, begun at the moment `m`. -/
  body : ι → M → Tx Op C Res ε Unit
  attempts : Nat
  /-- Whether an attempt that threw is followed by another. -/
  again : Nat → ε → Bool
  /-- What a session throws that is out of attempts. -/
  gaveUp : ι → ε

def Engine.writeAll (E : Engine Db W L Op Res) (ws : List W) (db : Db) : Db := ws.foldl (fun db w => E.write w db) db

/-- Nobody has begun. -/
def World.start {ι : Type} (db : Db) (c : C) : World ι Db W L Op C Res ε where
  committed := db
  sessions _ := { phase := .resting, attempt := 0, captured := c, writes := [], held := [] }

variable {ι M : Type} [DecidableEq ι]

def World.set (w : World ι Db W L Op C Res ε) (i : ι) (s : Session Db W L Op C Res ε) : World ι Db W L Op C Res ε :=
  { w with sessions := Function.update w.sessions i s }

namespace System

variable (S : System ι Db W L Op C Res ε M)

/-- The world after the commit of `i`. -/
def commit (w : World ι Db W L Op C Res ε) (i : ι) : World ι Db W L Op C Res ε where
  committed := S.engine.writeAll (w.sessions i).writes w.committed
  sessions j :=
    if j = i then (w.sessions i).leave (.ended (.ok (w.sessions i).captured))
    else (w.sessions j).observe (w.sessions i).writes

/-- One step of the session `i`. -/
inductive Next (w : World ι Db W L Op C Res ε) : World ι Db W L Op C Res ε → Prop where
  | begin {i m} (hphase : (w.sessions i).phase = .resting) (hleft : (w.sessions i).attempt < S.attempts) :
      Next w (w.set i ((w.sessions i).leave (.running (S.body i m))))
  | giveUp {i} (hphase : (w.sessions i).phase = .resting) (hleft : ¬(w.sessions i).attempt < S.attempts) :
      Next w (w.set i ((w.sessions i).leave (.ended (.error (S.gaveUp i)))))
  | look {i op k} (hphase : (w.sessions i).phase = .running (.call (.sql op) k)) :
      Next w (w.set i { w.sessions i with phase := .looking op k w.committed [] })
  | finish {i op k snapshot since r ws ls} (hphase : (w.sessions i).phase = .looking op k snapshot since)
      (hstmt : S.engine.stmt op (S.engine.writeAll (w.sessions i).writes snapshot) since
        (S.engine.writeAll (w.sessions i).writes w.committed) r ws ls)
      (hfree : ∀ l ∈ ls, ∀ j ≠ i, l ∉ (w.sessions j).held) :
      Next w (w.set i
        { w.sessions i with
          phase := .running (k (.ok r))
          writes := (w.sessions i).writes ++ ws
          held := (w.sessions i).held ++ ls })
  /-- A statement that the database refuses: a deadlock, a violated constraint, a lost connection. -/
  | fault {i op k snapshot since e} (hphase : (w.sessions i).phase = .looking op k snapshot since) :
      Next w (w.set i { w.sessions i with phase := .running (k (.error e)) })
  | assign {i c k} (hphase : (w.sessions i).phase = .running (.call (.assign c) k)) :
      Next w (w.set i { w.sessions i with phase := .running (k (.ok ())), captured := c })
  | commit {i} (hphase : (w.sessions i).phase = .running (.ret ())) : Next w (S.commit w i)
  /-- A commit that the database refuses. -/
  | refuse {i e} (hphase : (w.sessions i).phase = .running (.ret ())) :
      Next w (w.set i { w.sessions i with phase := .running (.fail e) })
  | retry {i e} (hphase : (w.sessions i).phase = .running (.fail e))
      (hagain : S.again (w.sessions i).attempt e = true) :
      Next w (w.set i { (w.sessions i).leave .resting with attempt := (w.sessions i).attempt + 1 })
  | fail {i e} (hphase : (w.sessions i).phase = .running (.fail e))
      (hagain : S.again (w.sessions i).attempt e = false) :
      Next w (w.set i ((w.sessions i).leave (.ended (.error e))))

/-- The worlds that an interleaving can reach. -/
def Reaches (w w' : World ι Db W L Op C Res ε) : Prop := Relation.ReflTransGen S.Next w w'

end System

/-! ## Changes of others -/

namespace Engine

variable (E : Engine Db W L Op Res)

/-- Changes that the holder of the locks `held` need not fear, and that others can make. -/
def Clear (held : List L) (ws : List W) : Prop := ∀ w ∈ ws, E.guard w ∉ held

/-- Changes that the holder of the locks `held` may make. -/
def Guarded (held : List L) (ws : List W) : Prop := ∀ w ∈ ws, E.guard w ∈ held

theorem writeAll_append (ws ws' : List W) (db : Db) : E.writeAll (ws ++ ws') db = E.writeAll ws' (E.writeAll ws db) :=
  List.foldl_append

@[simp] theorem writeAll_nil (db : Db) : E.writeAll [] db = db := rfl

variable {E} {held held' : List L} {ws ws' : List W}

theorem clear_nil : E.Clear held [] := fun _ h => absurd h List.not_mem_nil

theorem Clear.append (h : E.Clear held ws) (h' : E.Clear held ws') : E.Clear held (ws ++ ws') := by
  intro w hw
  rcases List.mem_append.mp hw with hw | hw
  · exact h w hw
  · exact h' w hw

theorem Clear.anti (h : E.Clear held' ws) (hsub : ∀ l ∈ held, l ∈ held') : E.Clear held ws :=
  fun w hw hmem => h w hw (hsub _ hmem)

theorem guarded_nil : E.Guarded held [] := fun _ h => absurd h List.not_mem_nil

theorem Guarded.append (h : E.Guarded held ws) (h' : E.Guarded held ws') : E.Guarded held (ws ++ ws') := by
  intro w hw
  rcases List.mem_append.mp hw with hw | hw
  · exact h w hw
  · exact h' w hw

theorem Guarded.mono (h : E.Guarded held ws) (hsub : ∀ l ∈ held, l ∈ held') : E.Guarded held' ws :=
  fun w hw => hsub _ (h w hw)

/-- What one session may change, another one need not fear. -/
theorem Guarded.clear (h : E.Guarded held ws) (hdisjoint : ∀ l ∈ held', l ∉ held) : E.Clear held' ws :=
  fun w hw hmem => hdisjoint _ hmem (h w hw)

end Engine

/-! ## One transaction -/

section Safe

variable (E : Engine Db W L Op Res) {α β : Type}

/-- A part of a transaction, begun where `db` is committed, with the changes `ws`, the locks `held` and the variable
`c`. Whatever others commit that the locks leave open: where the part returns, `Q` holds of all these. -/
def Safe (Q : α → Db → List W → List L → C → Prop) : Tx Op C Res ε α → Db → List W → List L → C → Prop
  | .ret a, db, ws, held, c => ∀ others, E.Clear held others → Q a (E.writeAll others db) ws held c
  | .fail _, _, _, _, _ => True
  | .call (.assign c') k, db, ws, held, _ =>
    ∀ earlier, E.Clear held earlier → Safe Q (k (.ok ())) (E.writeAll earlier db) ws held c'
  | .call (.sql op) k, db, ws, held, c =>
    (∀ earlier since r ws' ls, E.Clear held earlier → E.Clear held since →
      E.stmt op (E.writeAll ws (E.writeAll earlier db)) since (E.writeAll ws (E.writeAll since (E.writeAll earlier db)))
        r ws' ls →
      Safe Q (k (.ok r)) (E.writeAll since (E.writeAll earlier db)) (ws ++ ws') (held ++ ls) c) ∧
    ∀ e earlier, E.Clear held earlier → Safe Q (k (.error e)) (E.writeAll earlier db) ws held c

variable {E} {Q : α → Db → List W → List L → C → Prop} {db : Db} {ws : List W} {held : List L} {c : C}

/-- What others commit in between changes nothing. -/
theorem Safe.later {p : Tx Op C Res ε α} {others : List W} (h : Safe E Q p db ws held c)
    (hothers : E.Clear held others) : Safe E Q p (E.writeAll others db) ws held c := by
  match p, h with
  | .ret _, h =>
    intro others' hothers'
    rw [← Engine.writeAll_append]
    exact h _ (hothers.append hothers')
  | .fail _, _ => trivial
  | .call (.assign _) _, h =>
    intro earlier hearlier
    rw [← Engine.writeAll_append]
    exact h _ (hothers.append hearlier)
  | .call (.sql _) _, h =>
    refine ⟨fun earlier since r ws' ls hearlier hsince hstmt => ?_, fun e earlier hearlier => ?_⟩
    · rw [← Engine.writeAll_append E others] at hstmt ⊢
      exact h.1 _ since r ws' ls (hothers.append hearlier) hsince hstmt
    · rw [← Engine.writeAll_append E others]
      exact h.2 e _ (hothers.append hearlier)

theorem safe_throw (e : ε) : Safe E Q (throw e : Tx Op C Res ε α) db ws held c := trivial

/-- The rule of a statement. -/
theorem safe_sql {op : Op} {Q : Res op → Db → List W → List L → C → Prop}
    (h : ∀ earlier since r ws' ls, E.Clear held earlier → E.Clear held since →
      E.stmt op (E.writeAll ws (E.writeAll earlier db)) since (E.writeAll ws (E.writeAll since (E.writeAll earlier db)))
        r ws' ls →
      ∀ others, E.Clear (held ++ ls) others →
        Q r (E.writeAll others (E.writeAll since (E.writeAll earlier db))) (ws ++ ws') (held ++ ls) c) :
    Safe E Q (Prog.perform (Call.sql op) : Tx Op C Res ε (Res op)) db ws held c :=
  ⟨h, fun _ _ _ => trivial⟩

/-- The rule of an assignment. -/
theorem safe_assign {c' : C} {Q : Unit → Db → List W → List L → C → Prop}
    (h : ∀ others, E.Clear held others → Q () (E.writeAll others db) ws held c') :
    Safe E Q (Prog.perform (Call.assign c') : Tx Op C Res ε Unit) db ws held c := by
  intro earlier hearlier others hothers
  rw [← Engine.writeAll_append]
  exact h _ (hearlier.append hothers)

/-- The rule of a sequence. -/
theorem Safe.bind {f : α → Tx Op C Res ε β} {Q : β → Db → List W → List L → C → Prop} :
    ∀ {p : Tx Op C Res ε α} {db : Db} {ws : List W} {held : List L} {c : C},
      Safe E (fun a => Safe E Q (f a)) p db ws held c → Safe E Q (p >>= f) db ws held c
  | .ret _, _, _, _, _, h => h [] Engine.clear_nil
  | .fail _, _, _, _, _, _ => trivial
  | .call (.assign _) _, _, _, _, _, h => fun earlier hearlier => (h earlier hearlier).bind
  | .call (.sql _) _, _, _, _, _, h =>
    ⟨fun earlier since r ws' ls hearlier hsince hstmt => (h.1 earlier since r ws' ls hearlier hsince hstmt).bind,
      fun e earlier hearlier => (h.2 e earlier hearlier).bind⟩

/-- What a part says in the end may be weakened. -/
theorem Safe.mono {Q' : α → Db → List W → List L → C → Prop}
    (hQ : ∀ a db ws held c, Q a db ws held c → Q' a db ws held c) :
    ∀ {p : Tx Op C Res ε α} {db : Db} {ws : List W} {held : List L} {c : C},
      Safe E Q p db ws held c → Safe E Q' p db ws held c
  | .ret _, _, _, _, _, h => fun others hothers => hQ _ _ _ _ _ (h others hothers)
  | .fail _, _, _, _, _, _ => trivial
  | .call (.assign _) _, _, _, _, _, h => fun earlier hearlier => (h earlier hearlier).mono hQ
  | .call (.sql _) _, _, _, _, _, h =>
    ⟨fun earlier since r ws' ls hearlier hsince hstmt => (h.1 earlier since r ws' ls hearlier hsince hstmt).mono hQ,
      fun e earlier hearlier => (h.2 e earlier hearlier).mono hQ⟩

/-- The rule of a frame: what the locks of the start keep goes along, and so do these locks. -/
theorem Safe.frame {I : Db → Prop} :
    ∀ {p : Tx Op C Res ε α} {db : Db} {ws : List W} {held : List L} {c : C},
      (∀ db others, E.Clear held others → I db → I (E.writeAll others db)) → I db → Safe E Q p db ws held c →
      Safe E (fun a db' ws' held' c' => (I db' ∧ ∀ l ∈ held, l ∈ held') ∧ Q a db' ws' held' c') p db ws held c
  | .ret _, _, _, _, _, hkeeps, hI, h => fun others hothers =>
    ⟨⟨hkeeps _ _ hothers hI, fun _ hl => hl⟩, h others hothers⟩
  | .fail _, _, _, _, _, _, _, _ => trivial
  | .call (.assign _) _, _, _, _, _, hkeeps, hI, h => fun earlier hearlier =>
    Safe.frame hkeeps (hkeeps _ _ hearlier hI) (h earlier hearlier)
  | .call (.sql _) _, _, _, held, _, hkeeps, hI, h => by
    refine ⟨fun earlier since r ws' ls hearlier hsince hstmt => ?_, fun e earlier hearlier => ?_⟩
    · have hsub : ∀ l ∈ held, l ∈ held ++ ls := fun l hl => List.mem_append_left ls hl
      refine (Safe.frame (fun db others hothers => hkeeps db others (hothers.anti hsub))
        (hkeeps _ _ hsince (hkeeps _ _ hearlier hI)) (h.1 earlier since r ws' ls hearlier hsince hstmt)).mono ?_
      exact fun _ _ _ _ _ ⟨⟨hI', hheld⟩, hQ⟩ => ⟨⟨hI', fun l hl => hheld l (hsub l hl)⟩, hQ⟩
    · exact Safe.frame hkeeps (hkeeps _ _ hearlier hI) (h.2 e earlier hearlier)

end Safe

/-- At its commit a transaction has made guarded changes only, and `Post` holds of what is committed by then, its
changes and the variable of its session. -/
def AtCommit (E : Engine Db W L Op Res) (Post : Db → List W → C → Prop) (_ : Unit) (db : Db) (ws : List W)
    (held : List L) (c : C) : Prop :=
  E.Guarded held ws ∧ Post db ws c

/-! ## Every interleaving -/

/-- What the rule says of a session where it is. -/
def Session.Sound (E : Engine Db W L Op Res) (Post : Db → List W → C → Prop) (db : Db)
    (s : Session Db W L Op C Res ε) : Prop :=
  match s.phase with
  | .running p => Safe E (AtCommit E Post) p db s.writes s.held s.captured
  | .looking op k snapshot since =>
    db = E.writeAll since snapshot ∧ E.Clear s.held since ∧
      Safe E (AtCommit E Post) (.call (.sql op) k) snapshot s.writes s.held s.captured
  | _ => True

/-- No two sessions hold one lock, and every session keeps to the rule. -/
structure World.Sound (E : Engine Db W L Op Res) (Post : ι → Db → List W → C → Prop)
    (w : World ι Db W L Op C Res ε) : Prop where
  apart : ∀ {i j}, i ≠ j → ∀ l ∈ (w.sessions i).held, l ∉ (w.sessions j).held
  session : ∀ i, (w.sessions i).Sound E (Post i) w.committed

section Interleaving

variable {S : System ι Db W L Op C Res ε M} {Post : ι → Db → List W → C → Prop} {w w' : World ι Db W L Op C Res ε}

omit [DecidableEq ι] in
theorem sound_start (db : Db) (c : C) : (World.start db c : World ι Db W L Op C Res ε).Sound S.engine Post :=
  ⟨fun _ _ h => absurd h List.not_mem_nil, fun _ => trivial⟩

omit [DecidableEq ι] in
/-- Between two statements a session keeps to the rule. -/
theorem World.Sound.running {E : Engine Db W L Op Res} (h : w.Sound E Post) {i : ι} {p : Tx Op C Res ε Unit}
    (hphase : (w.sessions i).phase = .running p) :
    Safe E (AtCommit E (Post i)) p w.committed (w.sessions i).writes (w.sessions i).held (w.sessions i).captured := by
  have hi := h.session i
  unfold Session.Sound at hi
  rwa [hphase] at hi

omit [DecidableEq ι] in
/-- In a statement it keeps to the rule from the snapshot on, and what others have committed since is clear of it. -/
theorem World.Sound.looking {E : Engine Db W L Op Res} (h : w.Sound E Post) {i : ι} {op : Op}
    {k : Except ε (Res op) → Tx Op C Res ε Unit} {snapshot : Db} {since : List W}
    (hphase : (w.sessions i).phase = .looking op k snapshot since) :
    w.committed = E.writeAll since snapshot ∧ E.Clear (w.sessions i).held since ∧
      Safe E (AtCommit E (Post i)) (.call (.sql op) k) snapshot (w.sessions i).writes (w.sessions i).held
        (w.sessions i).captured := by
  have hi := h.session i
  unfold Session.Sound at hi
  rwa [hphase] at hi

/-- A session that moves without a commit. -/
theorem World.Sound.set (h : w.Sound S.engine Post) {i : ι} {s : Session Db W L Op C Res ε}
    (hs : s.Sound S.engine (Post i) w.committed) (hheld : ∀ l ∈ s.held, ∀ j ≠ i, l ∉ (w.sessions j).held) :
    (w.set i s).Sound S.engine Post := by
  refine ⟨fun {j j'} hne l hl => ?_, fun j => ?_⟩
  · by_cases hj : j = i
    · subst hj
      simp only [World.set, Function.update_self] at hl
      simp only [World.set, Function.update_of_ne (Ne.symm hne)]
      exact hheld l hl j' (Ne.symm hne)
    · simp only [World.set, Function.update_of_ne hj] at hl
      by_cases hj' : j' = i
      · subst hj'
        simp only [World.set, Function.update_self]
        exact fun hmem => hheld l hmem j hne hl
      · simp only [World.set, Function.update_of_ne hj']
        exact h.apart hne l hl
  · by_cases hj : j = i
    · subst hj
      simp only [World.set, Function.update_self]
      exact hs
    · simp only [World.set, Function.update_of_ne hj]
      exact h.session j

@[simp] theorem Session.held_observe (ws : List W) (s : Session Db W L Op C Res ε) : (s.observe ws).held = s.held := by
  unfold Session.observe
  split <;> rfl

/-- What another session commits leaves a session within the rule. -/
theorem Session.Sound.observe {E : Engine Db W L Op Res} {Post : Db → List W → C → Prop} {db : Db} {ws : List W}
    {s : Session Db W L Op C Res ε} (h : s.Sound E Post db) (hclear : E.Clear s.held ws) :
    (s.observe ws).Sound E Post (E.writeAll ws db) := by
  rcases s with ⟨phase, attempt, captured, writes, held⟩
  cases phase with
  | resting => trivial
  | running p => exact Safe.later h hclear
  | looking op k snapshot since =>
    obtain ⟨hdb, hsince, hsafe⟩ := h
    refine ⟨?_, hsince.append hclear, hsafe⟩
    rw [Engine.writeAll_append]
    exact congrArg _ hdb
  | ended outcome => trivial

/-- The step lemma of a commit. -/
theorem World.Sound.commit (h : w.Sound S.engine Post) {i : ι} (hphase : (w.sessions i).phase = .running (.ret ())) :
    (S.commit w i).Sound S.engine Post := by
  have hi := h.running hphase
  refine ⟨fun {j j'} hne l hl => ?_, fun j => ?_⟩
  · simp only [System.commit] at hl ⊢
    by_cases hj : j = i
    · rw [if_pos hj] at hl
      exact absurd hl List.not_mem_nil
    · rw [if_neg hj, Session.held_observe] at hl
      by_cases hj' : j' = i
      · rw [if_pos hj']
        exact List.not_mem_nil
      · rw [if_neg hj', Session.held_observe]
        exact h.apart hne l hl
  · simp only [System.commit]
    by_cases hj : j = i
    · rw [if_pos hj]
      trivial
    · rw [if_neg hj]
      -- the changes need locks that this session does not have
      exact (h.session j).observe ((hi [] Engine.clear_nil).1.clear (h.apart hj))

/-- The step lemma. -/
theorem World.Sound.next (hbody : ∀ i m db c, Safe S.engine (AtCommit S.engine (Post i)) (S.body i m) db [] [] c)
    (h : w.Sound S.engine Post) (hnext : S.Next w w') : w'.Sound S.engine Post := by
  have hheld : ∀ i, ∀ l ∈ (w.sessions i).held, ∀ j ≠ i, l ∉ (w.sessions j).held :=
    fun i l hl j hj => h.apart (Ne.symm hj) l hl
  have hnone : ∀ i, ∀ l ∈ ([] : List L), ∀ j ≠ i, l ∉ (w.sessions j).held := fun _ _ hl => absurd hl List.not_mem_nil
  -- A step changes one session; the others keep their locks, so their promises stand.
  cases hnext with
  | @begin i m hphase hleft => exact h.set (hbody i m w.committed _) (hnone i)
  | @giveUp i hphase hleft => exact h.set trivial (hnone i)
  | @look i op k hphase => exact h.set ⟨rfl, Engine.clear_nil, h.running hphase⟩ (hheld i)
  | @finish i op k snapshot since r ws ls hphase hstmt hfree =>
    obtain ⟨hdb, hsince, hsafe⟩ := h.looking hphase
    rw [hdb] at hstmt
    refine h.set ?_ ?_
    · have hrest := hsafe.1 [] since r ws ls Engine.clear_nil hsince hstmt
      unfold Session.Sound
      rw [hdb]
      exact hrest
    · intro l hl
      rcases List.mem_append.mp hl with hl | hl
      · exact hheld i l hl
      · exact hfree l hl
  | @fault i op k snapshot since e hphase =>
    obtain ⟨hdb, hsince, hsafe⟩ := h.looking hphase
    refine h.set ?_ (hheld i)
    unfold Session.Sound
    rw [hdb]
    exact hsafe.2 e since hsince
  | @assign i c k hphase => exact h.set (h.running hphase [] Engine.clear_nil) (hheld i)
  | commit hphase => exact h.commit hphase
  | @refuse i e hphase => exact h.set trivial (hheld i)
  | @retry i e hphase hagain => exact h.set trivial (hnone i)
  | @fail i e hphase hagain => exact h.set trivial (hnone i)

/-- The run lemma. -/
theorem World.Sound.reaches (hbody : ∀ i m db c, Safe S.engine (AtCommit S.engine (Post i)) (S.body i m) db [] [] c)
    (h : w.Sound S.engine Post) (hreach : S.Reaches w w') : w'.Sound S.engine Post := by
  induction hreach with
  | refl => exact h
  | tail _ hnext ih => exact ih.next hbody hnext

/-- **A transaction that keeps to the rule commits what the rule says**, whatever the others do. -/
theorem safe_commit (hbody : ∀ i m db c, Safe S.engine (AtCommit S.engine (Post i)) (S.body i m) db [] [] c)
    {db : Db} {c : C} (hreach : S.Reaches (World.start db c) w) {i : ι}
    (hphase : (w.sessions i).phase = .running (.ret ())) :
    Post i w.committed (w.sessions i).writes (w.sessions i).captured := by
  have hsound : w.Sound S.engine Post := (sound_start db c).reaches hbody hreach
  exact (hsound.running hphase [] Engine.clear_nil).2

/-! ## What a session returns -/

theorem phase_set {i j : ι} {s : Session Db W L Op C Res ε} {outcome : Except ε C} (hs : s.phase ≠ .ended outcome)
    (h : ((w.set i s).sessions j).phase = .ended outcome) : (w.sessions j).phase = .ended outcome := by
  by_cases hj : j = i
  · subst hj
    simp only [World.set, Function.update_self] at h
    exact absurd h hs
  · simpa only [World.set, Function.update_of_ne hj] using h

theorem Session.phase_observe {ws : List W} {s : Session Db W L Op C Res ε} {outcome : Except ε C}
    (h : (s.observe ws).phase = .ended outcome) : s.phase = .ended outcome := by
  unfold Session.observe at h
  split at h
  · cases h
  · exact h

/-- A session returns where it commits. -/
theorem returned_next {i : ι} {c : C} (hnext : S.Next w w') (h : (w'.sessions i).phase = .ended (.ok c)) :
    (w.sessions i).phase = .ended (.ok c) ∨
      (w.sessions i).phase = .running (.ret ()) ∧ (w.sessions i).captured = c ∧ w' = S.commit w i := by
  cases hnext with
  | begin _ _ | giveUp _ _ | look _ | finish _ _ _ | fault _ | assign _ | refuse _ | retry _ _ | fail _ _ =>
    exact .inl (phase_set (fun hended => by cases hended) h)
  | @commit j hphase =>
    simp only [System.commit] at h
    by_cases hj : i = j
    · subst hj
      rw [if_pos rfl] at h
      exact .inr ⟨hphase, Except.ok.inj (Phase.ended.inj h), rfl⟩
    · rw [if_neg hj] at h
      exact .inl (Session.phase_observe h)

/-- **What a session has returned, one of its transactions has committed.** -/
theorem exists_commit {db : Db} {c₀ c : C} (hreach : S.Reaches (World.start db c₀) w) {i : ι}
    (h : (w.sessions i).phase = .ended (.ok c)) :
    ∃ w₁, S.Reaches (World.start db c₀) w₁ ∧ (w₁.sessions i).phase = .running (.ret ()) ∧
      (w₁.sessions i).captured = c ∧ S.Reaches (S.commit w₁ i) w := by
  induction hreach with
  | refl => cases h
  | @tail w₁ w₂ hreach hnext ih =>
    rcases returned_next hnext h with hearlier | ⟨hphase, hcaptured, rfl⟩
    · obtain ⟨w₀, hw₀, hphase, hcaptured, hrest⟩ := ih hearlier
      exact ⟨w₀, hw₀, hphase, hcaptured, hrest.tail hnext⟩
    · exact ⟨w₁, hreach, hphase, hcaptured, .refl⟩

/-! ## Alone -/

/-- The rest of a transaction, run while nobody else commits: it starts with the changes `ws` and the variable `c`,
and comes to its commit with `ws'` and `c'`. -/
inductive Alone (E : Engine Db W L Op Res) (db : Db) : Tx Op C Res ε Unit → List W → C → List W → C → Prop where
  | ret {ws : List W} {c : C} : Alone E db (.ret ()) ws c ws c
  | sql {op : Op} {k : Except ε (Res op) → Tx Op C Res ε Unit} {r : Res op} {ls : List L} {ws ws₁ ws' : List W}
      {c c' : C} (hstmt : E.stmt op (E.writeAll ws db) [] (E.writeAll ws db) r ws₁ ls)
      (rest : Alone E db (k (.ok r)) (ws ++ ws₁) c ws' c') : Alone E db (.call (.sql op) k) ws c ws' c'
  | assign {c₁ : C} {k : Except ε Unit → Tx Op C Res ε Unit} {ws ws' : List W} {c c' : C}
      (rest : Alone E db (k (.ok ())) ws c₁ ws' c') : Alone E db (.call (.assign c₁) k) ws c ws' c'

@[simp] theorem sessions_set_self (w : World ι Db W L Op C Res ε) (i : ι) (s : Session Db W L Op C Res ε) :
    (w.set i s).sessions i = s := Function.update_self ..

theorem sessions_set_of_ne (w : World ι Db W L Op C Res ε) {i j : ι} (h : j ≠ i) (s : Session Db W L Op C Res ε) :
    (w.set i s).sessions j = w.sessions j := Function.update_of_ne h ..

@[simp] theorem set_set (w : World ι Db W L Op C Res ε) (i : ι) (s s' : Session Db W L Op C Res ε) :
    (w.set i s).set i s' = w.set i s' := by
  simp only [World.set, Function.update_idem]

/-- While nobody else holds a lock, a transaction can run alone. -/
theorem Alone.reaches {db : Db} {p : Tx Op C Res ε Unit} {ws ws' : List W} {c c' : C}
    (h : Alone S.engine db p ws c ws' c') {i : ι} (hdb : w.committed = db) (hfree : ∀ j ≠ i, (w.sessions j).held = [])
    {s : Session Db W L Op C Res ε} (hphase : s.phase = .running p) (hwrites : s.writes = ws)
    (hcaptured : s.captured = c) :
    ∃ s', S.Reaches (w.set i s) (w.set i s') ∧ s'.phase = .running (.ret ()) ∧ s'.writes = ws' ∧ s'.captured = c' := by
  induction h generalizing s with
  | ret => exact ⟨s, .refl, hphase, hwrites, hcaptured⟩
  | @sql op k r ls ws ws₁ ws' c c' hstmt _ ih =>
    -- the snapshot, and at once the end of the statement
    have hlook : S.Next (w.set i s) (w.set i { s with phase := .looking op k w.committed [] }) := by
      have hnext := System.Next.look (S := S) (w := w.set i s) (i := i) (by rw [sessions_set_self, hphase])
      rwa [sessions_set_self, set_set] at hnext
    have hfinish : S.Next (w.set i { s with phase := .looking op k w.committed [] })
        (w.set i { s with phase := .running (k (.ok r)), writes := s.writes ++ ws₁, held := s.held ++ ls }) := by
      have hown : S.engine.stmt op (S.engine.writeAll s.writes w.committed) [] (S.engine.writeAll s.writes w.committed)
          r ws₁ ls := by
        rw [hwrites, hdb]
        exact hstmt
      have hnext := System.Next.finish (S := S) (w := w.set i { s with phase := .looking op k w.committed [] }) (i := i)
        (by rw [sessions_set_self]) (by rw [sessions_set_self]; exact hown)
        (fun l _ j hj => by rw [sessions_set_of_ne w hj, hfree j hj]; exact List.not_mem_nil)
      rwa [sessions_set_self, set_set] at hnext
    obtain ⟨s', hreach, hrest⟩ := ih
      (s := { s with phase := .running (k (.ok r)), writes := s.writes ++ ws₁, held := s.held ++ ls }) rfl
      (by rw [hwrites]) hcaptured
    exact ⟨s', .head hlook (.head hfinish hreach), hrest⟩
  | @assign c₁ k ws ws' c c' _ ih =>
    have hassign : S.Next (w.set i s) (w.set i { s with phase := .running (k (.ok ())), captured := c₁ }) := by
      have hnext := System.Next.assign (S := S) (w := w.set i s) (i := i) (by rw [sessions_set_self, hphase])
      rwa [sessions_set_self, set_set] at hnext
    obtain ⟨s', hreach, hrest⟩ := ih (s := { s with phase := .running (k (.ok ())), captured := c₁ }) rfl hwrites rfl
    exact ⟨s', .head hassign hreach, hrest⟩

end Interleaving

end Sessions

end ShuzaGram.Infra.Transactions
