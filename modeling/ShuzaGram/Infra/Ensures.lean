import Mathlib.Logic.Relation
import ShuzaGram.Infra.Pool

/-!
# What a program ensures amid others

A program shares its state with others, which take any number of steps between two of its calls. It ensures a
postcondition if it ends within a number of calls of its own, and the postcondition holds from then on, whatever the
others do.

* `Rely` — the steps of the others, and what the outside world does right before a call of the program
* `Prog.Ensures` — within so many calls, the program ends as the postcondition says
* `Prog.Abides` — a program makes certain calls only, as long as the answers come from states with an invariant
* `Pool.ensures_interleave` — side by side with programs that abide, under any schedule
-/

namespace ShuzaGram.Infra

structure Rely (S : Type) where
  step : S → S → Prop
  own : (S → S) → Prop

namespace Rely

variable {S : Type} {w : Rely S} {I : S → Prop} {s s' : S}

/-- The others keep a property of the state. -/
def Keeps (w : Rely S) (I : S → Prop) : Prop := ∀ s s', w.step s s' → I s → I s'

/-- A later state, by steps of the others only. -/
def Later (w : Rely S) : S → S → Prop := Relation.ReflTransGen w.step

theorem Keeps.later (h : w.Keeps I) (hlater : w.Later s s') (hs : I s) : I s' := by
  induction hlater with
  | refl => exact hs
  | tail _ hstep ih => exact h _ _ hstep ih

end Rely

namespace Prog

variable {Op : Type} {Res : Op → Type} {ε α β S : Type}

/-! ## The program -/

/-- Within `n` calls, and whatever the others do in between, the program ends with a result and in a state as `Q` says,
and `Q` keeps holding. -/
def Ensures (ex : (op : Op) → S → Except ε (Res op) × S) (w : Rely S) (Q : Except ε α → S → Prop) :
    Prog Op Res ε α → Nat → S → Prop
  | .ret a, _, s => ∀ s', w.Later s s' → Q (.ok a) s'
  | .fail e, _, s => ∀ s', w.Later s s' → Q (.error e) s'
  | .call _ _, 0, _ => False
  | .call op k, n + 1, s =>
    ∀ s' env, w.Later s s' → w.own env → Ensures ex w Q (k (ex op (env s')).1) n (ex op (env s')).2

/-- The program returns. -/
def Returns (J : α → S → Prop) (r : Except ε α) (s : S) : Prop := ∃ a, r = .ok a ∧ J a s

/-- The program throws. -/
def Throws (K : ε → S → Prop) (r : Except ε α) (s : S) : Prop := ∃ e, r = .error e ∧ K e s

section Ensures

variable {ex : (op : Op) → S → Except ε (Res op) × S} {w : Rely S} {Q : Except ε α → S → Prop}
  {J : α → S → Prop} {K : ε → S → Prop} {m n : Nat} {s s' : S}

/-- What is ensured stays ensured. -/
theorem Ensures.later {p : Prog Op Res ε α} (h : Ensures ex w Q p n s) (hlater : w.Later s s') :
    Ensures ex w Q p n s' := by
  cases p with
  | ret a => exact fun s'' h' => h s'' (hlater.trans h')
  | fail e => exact fun s'' h' => h s'' (hlater.trans h')
  | call op k =>
    cases n with
    | zero => exact h
    | succ n => exact fun s'' env h' henv => h s'' env (hlater.trans h') henv

theorem Ensures.mono {Q' : Except ε α → S → Prop} (hQ : ∀ r s, Q r s → Q' r s) :
    ∀ {p : Prog Op Res ε α} {n m : Nat} {s : S}, n ≤ m → Ensures ex w Q p n s → Ensures ex w Q' p m s
  | .ret _, _, _, _, _, h => fun s' hlater => hQ _ _ (h s' hlater)
  | .fail _, _, _, _, _, h => fun s' hlater => hQ _ _ (h s' hlater)
  | .call _ _, 0, _, _, _, h => h.elim
  | .call _ _, n + 1, 0, _, hle, _ => absurd hle (by omega)
  | .call _ k, n + 1, m + 1, _, hle, h => fun s' env hlater henv =>
    Ensures.mono hQ (p := k _) (Nat.le_of_succ_le_succ hle) (h s' env hlater henv)

theorem ensures_pure {a : α} (hQ : w.Keeps (Q (.ok a))) (hs : Q (.ok a) s) :
    Ensures ex w Q (pure a : Prog Op Res ε α) n s := fun _ hlater => hQ.later hlater hs

theorem ensures_throw {e : ε} (hQ : w.Keeps (Q (.error e))) (hs : Q (.error e) s) :
    Ensures ex w Q (throw e : Prog Op Res ε α) n s := fun _ hlater => hQ.later hlater hs

/-- One call, in a state that the others could not spoil. -/
theorem ensures_perform {I : S → Prop} {op : Op} {Q : Except ε (Res op) → S → Prop} (hI : w.Keeps I)
    (hQ : ∀ r, w.Keeps (Q r)) (h : ∀ s env, I s → w.own env → Q (ex op (env s)).1 (ex op (env s)).2) (hs : I s) :
    Ensures ex w Q (perform op) 1 s := by
  intro s' env hlater henv
  have hcall := h s' env (hI.later hlater hs) henv
  cases hr : (ex op (env s')).1 with
  | ok a =>
    rw [hr] at hcall
    exact fun s'' h'' => (hQ _).later h'' hcall
  | error e =>
    rw [hr] at hcall
    exact fun s'' h'' => (hQ _).later h'' hcall

theorem Ensures.bind {Q : Except ε β → S → Prop} {f : α → Prog Op Res ε β}
    (hf : ∀ a s, J a s → Ensures ex w Q (f a) n s) :
    ∀ {p : Prog Op Res ε α} {m : Nat} {s : S}, Ensures ex w (Returns J) p m s → Ensures ex w Q (p >>= f) (m + n) s
  | .ret a, m, s, hp => by
    obtain ⟨_, heq, ha⟩ := hp s .refl
    cases heq
    exact (hf _ s ha).mono (fun _ _ hq => hq) (Nat.le_add_left n m)
  | .fail _, _, s, hp => by
    obtain ⟨_, heq, -⟩ := hp s .refl
    cases heq
  | .call _ _, 0, _, hp => hp.elim
  | .call op k, m + 1, s, hp => by
    rw [Nat.add_right_comm]
    exact fun s' env hlater henv => Ensures.bind hf (p := k _) (hp s' env hlater henv)

theorem Ensures.bind_error {f : α → Prog Op Res ε β} :
    ∀ {p : Prog Op Res ε α} {m : Nat} {s : S}, Ensures ex w (Throws K) p m s → Ensures ex w (Throws K) (p >>= f) m s
  | .ret _, _, s, hp => by
    obtain ⟨_, heq, -⟩ := hp s .refl
    cases heq
  | .fail _, _, _, hp => fun s' hlater => by
    obtain ⟨_, heq, he⟩ := hp s' hlater
    cases heq
    exact ⟨_, rfl, he⟩
  | .call _ _, 0, _, hp => hp.elim
  | .call _ k, _ + 1, _, hp => fun s' env hlater henv => Ensures.bind_error (p := k _) (hp s' env hlater henv)

theorem Ensures.catch_ok {h : ε → Prog Op Res ε α} :
    ∀ {p : Prog Op Res ε α} {m : Nat} {s : S}, Ensures ex w (Returns J) p m s →
      Ensures ex w (Returns J) (tryCatch p h) m s
  | .ret _, _, _, hp => hp
  | .fail _, _, s, hp => by
    obtain ⟨_, heq, -⟩ := hp s .refl
    cases heq
  | .call _ _, 0, _, hp => hp.elim
  | .call _ k, _ + 1, _, hp => fun s' env hlater henv => Ensures.catch_ok (p := k _) (hp s' env hlater henv)

theorem Ensures.catch_error {h : ε → Prog Op Res ε α} (hh : ∀ e s, K e s → Ensures ex w Q (h e) n s) :
    ∀ {p : Prog Op Res ε α} {m : Nat} {s : S}, Ensures ex w (Throws K) p m s →
      Ensures ex w Q (tryCatch p h) (m + n) s
  | .ret _, _, s, hp => by
    obtain ⟨_, heq, -⟩ := hp s .refl
    cases heq
  | .fail _, m, s, hp => by
    obtain ⟨_, heq, he⟩ := hp s .refl
    cases heq
    exact (hh _ s he).mono (fun _ _ hq => hq) (Nat.le_add_left n m)
  | .call _ _, 0, _, hp => hp.elim
  | .call op k, m + 1, s, hp => by
    rw [Nat.add_right_comm]
    exact fun s' env hlater henv => Ensures.catch_error hh (p := k _) (hp s' env hlater henv)

end Ensures

/-! ## The others -/

/-- As long as its calls are answered from states with `G`, the program makes only calls with `P`. -/
def Abides (ex : (op : Op) → S → Except ε (Res op) × S) (G : S → Prop) (P : Op → Prop) : Prog Op Res ε α → Prop
  | .ret _ => True
  | .fail _ => True
  | .call op k => P op ∧ ∀ s, G s → Abides ex G P (k (ex op s).1)

section Abides

variable {ex : (op : Op) → S → Except ε (Res op) × S} {G : S → Prop} {P P' : Op → Prop}

theorem Only.abides (h : ∀ op, P' op → P op) : ∀ {p : Prog Op Res ε α}, p.Only P' → p.Abides ex G P
  | .ret _, _ => trivial
  | .fail _, _ => trivial
  | .call op _, hp => ⟨h op hp.1, fun _ _ => Only.abides h (hp.2 _)⟩

theorem Abides.mono (h : ∀ op, P' op → P op) : ∀ {p : Prog Op Res ε α}, p.Abides ex G P' → p.Abides ex G P
  | .ret _, _ => trivial
  | .fail _, _ => trivial
  | .call op _, hp => ⟨h op hp.1, fun s hs => Abides.mono h (hp.2 s hs)⟩

theorem abides_pure (a : α) : Abides ex G P (pure a : Prog Op Res ε α) := trivial

theorem abides_throw (e : ε) : Abides ex G P (throw e : Prog Op Res ε α) := trivial

theorem Abides.bind {f : α → Prog Op Res ε β} :
    ∀ {p : Prog Op Res ε α}, p.Abides ex G P → (∀ a, (f a).Abides ex G P) → (p >>= f).Abides ex G P
  | .ret a, _, hf => hf a
  | .fail _, _, _ => trivial
  | .call _ _, hp, hf => ⟨hp.1, fun s hs => Abides.bind (hp.2 s hs) hf⟩

/-- What follows a call may rely on where the answer comes from. -/
theorem abides_perform_bind {op : Op} {f : Res op → Prog Op Res ε α} (hop : P op)
    (hf : ∀ s a, G s → (ex op s).1 = .ok a → (f a).Abides ex G P) : (perform op >>= f).Abides ex G P := by
  refine ⟨hop, fun s hs => ?_⟩
  cases hr : (ex op s).1 with
  | ok a => exact hf s a hs hr
  | error e => trivial

theorem Abides.tryCatch {h : ε → Prog Op Res ε α} :
    ∀ {p : Prog Op Res ε α}, p.Abides ex G P → (∀ e, (h e).Abides ex G P) → (tryCatch p h).Abides ex G P
  | .ret _, _, _ => trivial
  | .fail e, _, hh => hh e
  | .call _ _, hp, hh => ⟨hp.1, fun s hs => Abides.tryCatch (hp.2 s hs) hh⟩

end Abides

end Prog

/-! ## Side by side -/

namespace Pool

variable {ι Op : Type} [DecidableEq ι] {Res : Op → Type} {ε α S : Type}

/-- The programs keep `G` between them, and to the `i`-th program the turns of the others are its surroundings. -/
structure Hosts (ex : (op : Op) → S → Except ε (Res op) × S) (w : Rely S) (G : S → Prop) (i : ι)
    (calls : ι → Op → Prop) (envs : ι → (S → S) → Prop) : Prop where
  env : ∀ j e s, envs j e → G s → G (e s)
  keeps : ∀ j op s, calls j op → G s → G (ex op s).2
  step : ∀ j, j ≠ i → ∀ op e s, calls j op → envs j e → G s → w.step s (ex op (e s)).2
  own : ∀ e, envs i e → w.own e

variable {ex : (op : Op) → S → Except ε (Res op) × S} {w : Rely S} {G : S → Prop} {i : ι}
  {calls : ι → Op → Prop} {envs : ι → (S → S) → Prop} {Q : Except ε α → S → Prop}

/-- What a program ensures, amid others that abide. -/
structure Assured (ex : (op : Op) → S → Except ε (Res op) × S) (w : Rely S) (G : S → Prop) (i : ι)
    (calls : ι → Op → Prop) (Q : Except ε α → S → Prop) (n : Nat) (c : Pool ι Op Res ε α S) : Prop where
  guard : G c.state
  abides : ∀ j, (c.progs j).Abides ex G (calls j)
  ensures : (c.progs i).Ensures ex w Q n c.state

/-- A turn of the program brings it nearer to its end; a turn of another one changes nothing for it. -/
theorem Assured.turn (hosts : Hosts ex w G i calls envs) {n : Nat} {c : Pool ι Op Res ε α S}
    (h : Assured ex w G i calls Q n c) {j : ι} {e : S → S} (he : envs j e) :
    Assured ex w G i calls Q (if j = i then n - 1 else n) (c.turn ex j e) := by
  have habides := h.abides j
  cases hj : c.progs j with
  | ret a =>
    have hsame : c.turn ex j e = c := turn_of_ret hj
    rw [hsame]
    refine ⟨h.guard, h.abides, ?_⟩
    split
    · next heq =>
      subst heq
      have hens := h.ensures
      rw [hj] at hens ⊢
      exact hens
    · exact h.ensures
  | fail err =>
    have hsame : c.turn ex j e = c := by simp only [Pool.turn, hj]
    rw [hsame]
    refine ⟨h.guard, h.abides, ?_⟩
    split
    · next heq =>
      subst heq
      have hens := h.ensures
      rw [hj] at hens ⊢
      exact hens
    · exact h.ensures
  | call op k =>
    rw [hj] at habides
    have hguard : G (e c.state) := hosts.env j e c.state he h.guard
    rw [turn_of_call hj]
    refine ⟨hosts.keeps j op _ habides.1 hguard, fun j' => ?_, ?_⟩
    · by_cases hj' : j' = j
      · subst hj'
        simp only [Function.update_self]
        exact habides.2 _ hguard
      · simp only [Function.update_of_ne hj']
        exact h.abides j'
    · have hens := h.ensures
      by_cases hji : j = i
      · subst hji
        rw [hj] at hens
        simp only [Function.update_self, if_true]
        cases n with
        | zero => exact hens.elim
        | succ n => exact hens c.state e .refl (hosts.own e he)
      · simp only [Function.update_of_ne (Ne.symm hji), if_neg hji]
        exact hens.later (.single (hosts.step j hji op e c.state habides.1 he h.guard))

theorem Assured.interleave (hosts : Hosts ex w G i calls envs) :
    ∀ {sched : List (ι × (S → S))} {n : Nat} {c : Pool ι Op Res ε α S}, (∀ t ∈ sched, envs t.1 t.2) →
      Assured ex w G i calls Q n c →
      Assured ex w G i calls Q (n - sched.countP fun t => t.1 = i) (c.interleave ex sched)
  | [], _, _, _, h => h
  | t :: sched, n, c, hsched, h => by
    have hturn := h.turn hosts (hsched t List.mem_cons_self)
    have ih := Assured.interleave hosts (fun t' ht' => hsched t' (List.mem_cons_of_mem _ ht')) hturn
    have hcount : (if t.1 = i then n - 1 else n) - sched.countP (fun t => t.1 = i) =
        n - (t :: sched).countP fun t => t.1 = i := by
      rw [List.countP_cons]
      by_cases ht : t.1 = i
      · simp only [ht, if_true, decide_true]
        omega
      · simp [ht]
    rw [hcount] at ih
    exact ih

/-- **A program that has had its turns has returned as it ensures,** whatever the schedule and the others. -/
theorem ensures_interleave {J : α → S → Prop} (hosts : Hosts ex w G i calls envs) {sched : List (ι × (S → S))} {n : Nat}
    {c : Pool ι Op Res ε α S} (hsched : ∀ t ∈ sched, envs t.1 t.2)
    (h : Assured ex w G i calls (Prog.Returns J) n c) (hturns : n ≤ sched.countP fun t => t.1 = i) :
    ∃ a, (c.interleave ex sched).progs i = .ret a ∧ J a (c.interleave ex sched).state := by
  have hend := (h.interleave hosts hsched).ensures
  rw [Nat.sub_eq_zero_of_le hturns] at hend
  cases hp : (c.interleave ex sched).progs i with
  | ret a =>
    rw [hp] at hend
    obtain ⟨_, heq, ha⟩ := hend _ .refl
    cases heq
    exact ⟨a, rfl, ha⟩
  | fail e =>
    rw [hp] at hend
    obtain ⟨_, heq, -⟩ := hend _ .refl
    cases heq
  | call op k =>
    rw [hp] at hend
    exact hend.elim

end Pool

end ShuzaGram.Infra
