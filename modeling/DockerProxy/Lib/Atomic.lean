/-
  DockerProxy.Lib.Atomic — programs of atomic steps on a shared state.

  A program ends with a result, or takes a step on the shared state and goes on with what
  the step returned; between two of its steps others may take theirs.  `alone` runs a
  program without others.  A `Pool` holds the programs that were started, each under the
  label that says which one it is; an event starts one, gives one of them a turn, or
  changes the state from outside.  The rules a client uses:

    • `alone_bind` — the sequential meaning of a program, part by part;
    • `pool_serial` — a program that has all the turns runs as if alone;
    • `keeps_bind` — an invariant that every step relies on and keeps, what the steps leave
      alone, and what they add to an account, part by part;
    • `keeps_and` — a program keeps more, if what it leaves alone says so;
    • `keeps_alone` — what a program adds when it runs alone;
    • `pool_run` — the programs under way and those that are started keep the invariant in
      any order of steps;
    • `pool_account` — nothing that the programs add to the account is lost or added twice.
-/
import DockerProxy.Lib.Exec
import Mathlib.Algebra.BigOperators.Group.List.Basic

namespace DockerProxy.Lib

/-- A program over the shared state `σ`: done, or at a step. -/
inductive Prog (σ α : Type) : Type 1 where
  | ret (a : α)
  | act {β : Type} (f : σ → β × σ) (rest : β → Prog σ α)

namespace Prog

variable {σ α β : Type}

/-! ## §1. Programs. -/

/-- One program, and then another. -/
def bind : Prog σ α → (α → Prog σ β) → Prog σ β
  | ret a, k => k a
  | act f rest, k => act f fun b => (rest b).bind k

instance : Monad (Prog σ) where
  pure := ret
  bind := bind

/-- A program of one step. -/
def atomically (f : σ → α × σ) : Prog σ α := act f ret

/-- A step that changes the state. -/
def update (f : σ → σ) : Prog σ Unit := atomically fun s => ((), f s)

/-- A step that looks at the state. -/
def look (f : σ → α) : Prog σ α := atomically fun s => (f s, s)

/-- The program without others. -/
def alone : Prog σ α → σ → α × σ
  | ret a, s => (a, s)
  | act f rest, s => (rest (f s).1).alone (f s).2

@[simp] theorem alone_pure (a : α) (s : σ) : (pure a : Prog σ α).alone s = (a, s) := rfl

-- not by `rfl` alone: a test of the result is rewritten together with its instance then
@[simp] theorem alone_atomically (f : σ → α × σ) (s : σ) : (atomically f).alone s = f s := by
  unfold atomically alone alone
  rfl

@[simp] theorem alone_update (f : σ → σ) (s : σ) : (update f).alone s = ((), f s) := rfl

@[simp] theorem alone_look (f : σ → α) (s : σ) : (look f).alone s = (f s, s) := by
  unfold look
  rw [alone_atomically]

/-- **Two programs in sequence.** -/
@[simp] theorem alone_bind (p : Prog σ α) (k : α → Prog σ β) :
    ∀ s, (p >>= k).alone s = (k (p.alone s).1).alone (p.alone s).2 := by
  induction p with
  | ret a => intro s; rfl
  | act f rest ih => intro s; exact ih (f s).1 (f s).2

@[simp] theorem alone_ite (c : Prop) [Decidable c] (p q : Prog σ α) (s : σ) :
    (if c then p else q).alone s = if c then p.alone s else q.alone s := apply_ite (alone · s) c p q

/-- One turn of a program; one that is done does nothing. -/
def turn : Prog σ α → σ → Prog σ α × σ
  | ret a, s => (ret a, s)
  | act f rest, s => (rest (f s).1, (f s).2)

/-- The result of a program that is done. -/
def result : Prog σ α → Option α
  | ret a => some a
  | act _ _ => none

/-! ## §2. What a program keeps, and what it adds. -/

variable {G : Type} [AddCommMonoid G] {I J : σ → Prop} {R : σ → σ → Prop} {M : σ → G}

/-- **Every step keeps the invariant `I`**, met in any state that satisfies it, and leaves
alone what `R` says; with `g` added to the account `M` so far, `Q` holds of the result and
of what is added in the end. -/
def Keeps (I : σ → Prop) (R : σ → σ → Prop) (M : σ → G) (Q : α → G → Prop) : Prog σ α → G → Prop
  | ret a, g => Q a g
  | act f rest, g => ∀ s, I s → I (f s).2 ∧ R s (f s).2 ∧
      ∃ d, M (f s).2 = M s + d ∧ (rest (f s).1).Keeps I R M Q (g + d)

theorem keeps_pure {Q : α → G → Prop} {a : α} {g : G} (h : Q a g) :
    (pure a : Prog σ α).Keeps I R M Q g := h

theorem keeps_update {f : σ → σ} {Q : Unit → G → Prop} {g d : G}
    (h : ∀ s, I s → I (f s) ∧ R s (f s) ∧ M (f s) = M s + d) (hQ : Q () (g + d)) :
    (update f).Keeps I R M Q g := by
  intro s hs
  obtain ⟨hI, hR, hM⟩ := h s hs
  exact ⟨hI, hR, d, hM, hQ⟩

/-- A step that adds nothing. -/
theorem keeps_atomically {f : σ → α × σ} {Q : α → G → Prop} {g : G}
    (h : ∀ s, I s → I (f s).2 ∧ R s (f s).2 ∧ M (f s).2 = M s ∧ Q (f s).1 g) :
    (atomically f).Keeps I R M Q g := by
  intro s hs
  obtain ⟨hI, hR, hM, hQ⟩ := h s hs
  refine ⟨hI, hR, 0, ?_, ?_⟩
  · rw [add_zero]
    exact hM
  · rw [add_zero]
    exact hQ

/-- The property of the result may be weakened. -/
theorem keeps_mono {p : Prog σ α} {Q Q' : α → G → Prop} :
    ∀ {g : G}, p.Keeps I R M Q g → (∀ a g, Q a g → Q' a g) → p.Keeps I R M Q' g := by
  induction p with
  | ret a => intro g h hQ; exact hQ a g h
  | act f rest ih =>
      intro g h hQ s hs
      obtain ⟨hI, hR, d, hd, hrest⟩ := h s hs
      exact ⟨hI, hR, d, hd, ih _ hrest hQ⟩

/-- **More is kept**, if what the steps leave alone says so. -/
theorem keeps_and {p : Prog σ α} {Q : α → G → Prop} (hJ : ∀ s s', R s s' → J s → J s') :
    ∀ {g : G}, p.Keeps I R M Q g → p.Keeps (fun s => I s ∧ J s) R M Q g := by
  induction p with
  | ret a => intro g h; exact h
  | act f rest ih =>
      intro g h s hs
      obtain ⟨hI, hR, d, hd, hrest⟩ := h s hs.1
      exact ⟨⟨hI, hJ _ _ hR hs.2⟩, hR, d, hd, ih _ hrest⟩

/-- **Two programs in sequence**: the second goes on from what the first has added. -/
theorem keeps_bind {Q : β → G → Prop} {p : Prog σ α} {k : α → Prog σ β} :
    ∀ {g : G}, p.Keeps I R M (fun a g => (k a).Keeps I R M Q g) g →
      (p >>= k).Keeps I R M Q g := by
  induction p with
  | ret a => intro g h; exact h
  | act f rest ih =>
      intro g h s hs
      obtain ⟨hI, hR, d, hd, hrest⟩ := h s hs
      exact ⟨hI, hR, d, hd, ih _ hrest⟩

/-- What was added before does not matter to a program. -/
theorem keeps_add {p : Prog σ α} {Q : α → G → Prop} (h₀ : G) :
    ∀ {g : G}, p.Keeps I R M Q g →
      p.Keeps I R M (fun a g' => ∃ d, Q a d ∧ g' = h₀ + d) (h₀ + g) := by
  induction p with
  | ret a => intro g h; exact ⟨g, h, rfl⟩
  | act f rest ih =>
      intro g h s hs
      obtain ⟨hI, hR, d, hd, hrest⟩ := h s hs
      refine ⟨hI, hR, d, hd, ?_⟩
      rw [add_assoc]
      exact ih _ hrest

/-- A part whose specification starts with nothing added, after something. -/
theorem keeps_part {Q' : β → G → Prop} {Q : α → G → Prop} {p : Prog σ α} {k : α → Prog σ β}
    {g : G} (hp : p.Keeps I R M Q 0) (hk : ∀ a d, Q a d → (k a).Keeps I R M Q' (g + d)) :
    (p >>= k).Keeps I R M Q' g := by
  have hadd := keeps_add g hp
  rw [add_zero] at hadd
  refine keeps_bind (keeps_mono hadd fun a g' h => ?_)
  obtain ⟨d, hQ, rfl⟩ := h
  exact hk a d hQ

theorem keeps_turn {Q : α → G → Prop} {p : Prog σ α} {g : G} (h : p.Keeps I R M Q g) {s : σ}
    (hs : I s) :
    I (p.turn s).2 ∧ ∃ d, M (p.turn s).2 = M s + d ∧ (p.turn s).1.Keeps I R M Q (g + d) := by
  cases p with
  | ret a =>
      refine ⟨hs, 0, (add_zero _).symm, ?_⟩
      rw [add_zero]
      exact h
  | act f rest =>
      obtain ⟨hI, -, hrest⟩ := h s hs
      exact ⟨hI, hrest⟩

/-- **Without others, too**, what is added is what `Q` says. -/
theorem keeps_alone {Q : α → G → Prop} {p : Prog σ α} :
    ∀ {g : G}, p.Keeps I R M Q g → ∀ {s : σ}, I s →
      ∃ d, M (p.alone s).2 = M s + d ∧ Q (p.alone s).1 (g + d) := by
  induction p with
  | ret a =>
      intro g h s _
      refine ⟨0, (add_zero _).symm, ?_⟩
      rw [add_zero]
      exact h
  | act f rest ih =>
      intro g h s hs
      obtain ⟨hI, -, d, hd, hrest⟩ := h s hs
      obtain ⟨d', hd', hQ⟩ := ih _ hrest hI
      refine ⟨d + d', hd'.trans ?_, ?_⟩
      · rw [hd, add_assoc]
      · rw [← add_assoc]
        exact hQ

end Prog

/-! ## §3. Pools. -/

/-- The shared state, and the programs that were started, under their labels. -/
structure Pool (σ ι α : Type) where
  state : σ
  programs : List (ι × Prog σ α)

/-- A program is started, one has its turn, or something happens outside. -/
inductive PoolEvent (ι ο : Type) where
  | start (label : ι)
  | turn (i : Nat)
  | outside (o : ο)

/-- The labels of the programs that are started. -/
def started {ι ο : Type} (events : List (PoolEvent ι ο)) : List ι :=
  events.filterMap fun
    | .start label => some label
    | .turn _ | .outside _ => none

/-- What happens outside. -/
def outsides {ι ο : Type} (events : List (PoolEvent ι ο)) : List ο :=
  events.filterMap fun
    | .outside o => some o
    | .start _ | .turn _ => none

/-- The program at place `i` has its turn. -/
def advance {σ ι α : Type} : List (ι × Prog σ α) → Nat → σ → List (ι × Prog σ α) × σ
  | [], _, s => ([], s)
  | e :: programs, 0, s => ((e.1, (e.2.turn s).1) :: programs, (e.2.turn s).2)
  | e :: programs, i + 1, s => (e :: (advance programs i s).1, (advance programs i s).2)

namespace Pool

variable {σ ι ο α : Type} (prog : ι → Prog σ α) (effect : σ → ο → σ)

/-- The pool after the event. -/
def step (t : Pool σ ι α) : PoolEvent ι ο → Pool σ ι α
  | .start label => { t with programs := t.programs ++ [(label, prog label)] }
  | .turn i => ⟨(advance t.programs i t.state).2, (advance t.programs i t.state).1⟩
  | .outside o => { t with state := effect t.state o }

/-- The program with this label has ended with this result. -/
def Returned (t : Pool σ ι α) (label : ι) (a : α) : Prop := (label, Prog.ret a) ∈ t.programs

/-- All programs have ended, with these results. -/
def Ended (t : Pool σ ι α) (results : List (ι × α)) : Prop :=
  t.programs = results.map fun e => (e.1, Prog.ret e.2)

/-- The results so far. -/
def results (t : Pool σ ι α) : List (ι × α) :=
  t.programs.filterMap fun e => e.2.result.map fun a => (e.1, a)

theorem returned_of_mem_results {t : Pool σ ι α} {e : ι × α} (h : e ∈ t.results) :
    t.Returned e.1 e.2 := by
  obtain ⟨⟨label, p⟩, hmem, hresult⟩ := List.mem_filterMap.mp h
  cases p with
  | ret a =>
      obtain rfl := Option.some.inj hresult
      exact hmem
  | act f rest => exact absurd hresult (by simp [Prog.result])

/-- All have ended if there are as many results as programs. -/
theorem ended_results {t : Pool σ ι α} (h : t.results.length = t.programs.length) :
    t.Ended t.results := by
  obtain ⟨s, programs⟩ := t
  unfold Ended results at *
  dsimp only at h ⊢
  induction programs with
  | nil => rfl
  | cons e programs ih =>
      obtain ⟨label, p⟩ := e
      cases p with
      | ret a => exact congrArg ((label, Prog.ret a) :: ·) (ih (Nat.succ.inj h))
      | act f rest =>
          -- one result is missing here
          have hle := List.length_filterMap_le
            (fun e : ι × Prog σ α => e.2.result.map fun a => (e.1, a)) programs
          have hlength : (programs.filterMap fun e => e.2.result.map fun a => (e.1, a)).length =
              programs.length + 1 := h
          omega

theorem advance_last (programs : List (ι × Prog σ α)) (e : ι × Prog σ α) (s : σ) :
    advance (programs ++ [e]) programs.length s =
      (programs ++ [(e.1, (e.2.turn s).1)], (e.2.turn s).2) := by
  induction programs with
  | nil => rfl
  | cons e' programs ih =>
      show (e' :: (advance (programs ++ [e]) programs.length s).1,
        (advance (programs ++ [e]) programs.length s).2) = _
      rw [ih]
      rfl

/-- **Turn after turn**: a program that has all the turns runs as if alone. -/
theorem pool_serial (label : ι) (p : Prog σ α) :
    ∀ s programs, ∃ n, run (step prog effect) ⟨s, programs ++ [(label, p)]⟩
        (List.replicate n (.turn programs.length)) =
      ⟨(p.alone s).2, programs ++ [(label, Prog.ret (p.alone s).1)]⟩ := by
  induction p with
  | ret a => intro s programs; exact ⟨0, rfl⟩
  | act f rest ih =>
      intro s programs
      obtain ⟨n, hn⟩ := ih (f s).1 (f s).2 programs
      refine ⟨n + 1, ?_⟩
      have hstep : step prog effect ⟨s, programs ++ [(label, Prog.act f rest)]⟩
          (.turn programs.length) = ⟨(f s).2, programs ++ [(label, rest (f s).1)]⟩ := by
        unfold step
        dsimp only
        rw [advance_last]
        rfl
      rw [List.replicate_succ, run_cons, hstep]
      exact hn

theorem labels_advance (programs : List (ι × Prog σ α)) :
    ∀ i s, (advance programs i s).1.map Prod.fst = programs.map Prod.fst := by
  induction programs with
  | nil => intro i s; rfl
  | cons e programs ih =>
      intro i s
      cases i with
      | zero => rfl
      | succ i => exact congrArg (e.1 :: ·) (ih i s)

/-- The labels are those of the programs started, in their order. -/
theorem labels_run (events : List (PoolEvent ι ο)) :
    ∀ t, (run (step prog effect) t events).programs.map Prod.fst =
      t.programs.map Prod.fst ++ started events := by
  induction events with
  | nil => intro t; exact (List.append_nil _).symm
  | cons e events ih =>
      intro t
      rw [run_cons, ih]
      cases e with
      | start label =>
          show List.map Prod.fst (t.programs ++ [(label, prog label)]) ++ started events =
            List.map Prod.fst t.programs ++ (label :: started events)
          simp
      | turn i => exact congrArg (· ++ started events) (labels_advance t.programs i t.state)
      | outside o => rfl

theorem advance_append (old new : List (ι × Prog σ α)) :
    ∀ i s, (∃ old' s', advance old i s = (old', s') ∧
      advance (old ++ new) i s = (old' ++ new, s')) ∨
      ∃ j new' s', advance new j s = (new', s') ∧ advance (old ++ new) i s = (old ++ new', s') := by
  induction old with
  | nil => intro i s; exact Or.inr ⟨i, _, _, rfl, rfl⟩
  | cons e old ih =>
      intro i s
      cases i with
      | zero => exact Or.inl ⟨_, _, rfl, rfl⟩
      | succ i =>
          obtain ⟨old', s', hold, happend⟩ | ⟨j, new', s', hnew, happend⟩ := ih i s
          · refine Or.inl ⟨e :: old', s', ?_, ?_⟩
            · show (e :: (advance old i s).1, (advance old i s).2) = _
              rw [hold]
            · show (e :: (advance (old ++ new) i s).1, (advance (old ++ new) i s).2) = _
              rw [happend]
              rfl
          · refine Or.inr ⟨j, new', s', hnew, ?_⟩
            show (e :: (advance (old ++ new) i s).1, (advance (old ++ new) i s).2) = _
            rw [happend]
            rfl

section

variable {G : Type} [AddCommMonoid G] {I J : σ → Prop} {R : ι → σ → σ → Prop} {M : σ → G}
variable {Q Q' : ι → α → G → Prop}

/-- **The programs are in order**: each will keep the invariant and leave alone what its
label says, and together they have added this to the account so far. -/
inductive InOrder (I : σ → Prop) (R : ι → σ → σ → Prop) (M : σ → G) (Q : ι → α → G → Prop) :
    List (ι × Prog σ α) → G → Prop where
  | nil : InOrder I R M Q [] 0
  | cons {e : ι × Prog σ α} {programs : List (ι × Prog σ α)} {d g : G}
      (he : e.2.Keeps I (R e.1) M (Q e.1) d) (hrest : InOrder I R M Q programs g) :
      InOrder I R M Q (e :: programs) (d + g)

theorem inOrder_start {programs : List (ι × Prog σ α)} {g : G} (h : InOrder I R M Q programs g)
    {label : ι} {p : Prog σ α} (hp : p.Keeps I (R label) M (Q label) 0) :
    InOrder I R M Q (programs ++ [(label, p)]) g := by
  induction h with
  | nil =>
      rw [← add_zero (0 : G)]
      exact .cons hp .nil
  | cons he hrest ih => exact .cons he ih

theorem inOrder_advance {programs : List (ι × Prog σ α)} {g : G}
    (h : InOrder I R M Q programs g) :
    ∀ i s, I s → I (advance programs i s).2 ∧
      ∃ d, InOrder I R M Q (advance programs i s).1 (g + d) ∧
        M (advance programs i s).2 = M s + d := by
  induction h with
  | nil =>
      intro i s hs
      refine ⟨hs, 0, ?_, (add_zero _).symm⟩
      rw [add_zero]
      exact .nil
  | cons he hrest ih =>
      rename_i e programs d g
      intro i s hs
      cases i with
      | zero =>
          obtain ⟨hI, d', hd, hkeeps⟩ := Prog.keeps_turn he hs
          refine ⟨hI, d', ?_, hd⟩
          rw [add_right_comm]
          exact .cons hkeeps hrest
      | succ i =>
          obtain ⟨hI, d', horder, hd⟩ := ih i s hs
          refine ⟨hI, d', ?_, hd⟩
          rw [add_assoc]
          exact .cons he horder

theorem keeps_of_inOrder {programs : List (ι × Prog σ α)} {g : G} (h : InOrder I R M Q programs g)
    {e : ι × Prog σ α} (he : e ∈ programs) : ∃ d, e.2.Keeps I (R e.1) M (Q e.1) d := by
  induction h with
  | nil => exact absurd he List.not_mem_nil
  | cons he' hrest ih =>
      obtain rfl | he := List.mem_cons.mp he
      · exact ⟨_, he'⟩
      · exact ih he

/-- More is kept by programs that have ended, or leave it alone. -/
theorem inOrder_and {programs : List (ι × Prog σ α)} {g : G} (h : InOrder I R M Q programs g)
    (hJ : ∀ e ∈ programs, (∃ a, e.2 = Prog.ret a) ∨ ∀ s s', R e.1 s s' → J s → J s') :
    InOrder (fun s => I s ∧ J s) R M Q programs g := by
  induction h with
  | nil => exact .nil
  | cons he hrest ih =>
      rename_i e programs d g
      refine .cons ?_ (ih fun e' he' => hJ e' (List.mem_cons_of_mem e he'))
      obtain ⟨a, ha⟩ | hkept := hJ e List.mem_cons_self
      · rw [ha] at he ⊢
        exact he
      · exact Prog.keeps_and hkept he

/-- Programs that have ended have added what their results say. -/
theorem sum_of_ended {books : ι → α → G} {results : List (ι × α)} :
    ∀ {g : G}, InOrder I R M (fun label a g => g = books label a)
        (results.map fun e => (e.1, Prog.ret e.2)) g →
      g = (results.map fun e => books e.1 e.2).sum := by
  induction results with
  | nil => intro g h; cases h; rfl
  | cons e results ih =>
      intro g h
      cases h with
      | cons he hrest =>
          rw [List.map_cons, List.sum_cons, ← ih hrest]
          exact congrArg (· + _) he

/-- **The rule for a pool**: from a pool whose programs are in order, in any order of steps
the invariant holds, the programs are in order, those that were under way and those that
were started since, and the account is what it was at first, what was added outside, and
what the programs have added. -/
theorem pool_run {own : ο → G} (events : List (PoolEvent ι ο))
    (hstart : ∀ label ∈ started events, (prog label).Keeps I (R label) M (Q' label) 0)
    (hout : ∀ o ∈ outsides events, ∀ s, I s → I (effect s o) ∧ M (effect s o) = M s + own o) :
    ∀ s old new m g g', I s → InOrder I R M Q old g → InOrder I R M Q' new g' →
      M s = m + (g + g') →
      I (run (step prog effect) ⟨s, old ++ new⟩ events).state ∧
      ∃ old' new' g g', (run (step prog effect) ⟨s, old ++ new⟩ events).programs = old' ++ new' ∧
        old'.length = old.length ∧ InOrder I R M Q old' g ∧ InOrder I R M Q' new' g' ∧
        M (run (step prog effect) ⟨s, old ++ new⟩ events).state =
          m + ((outsides events).map own).sum + (g + g') := by
  induction events with
  | nil =>
      intro s old new m g g' hI hold hnew hM
      refine ⟨hI, old, new, g, g', rfl, rfl, hold, hnew, hM.trans ?_⟩
      show m + (g + g') = m + 0 + (g + g')
      rw [add_zero]
  | cons e events ih =>
      intro s old new m g g' hI hold hnew hM
      rw [run_cons]
      cases e with
      | start label =>
          -- who is new goes to the new ones, with nothing added yet
          have ih := ih (fun l hl => hstart l (List.mem_cons_of_mem label hl)) hout
          have hnew' := inOrder_start hnew (hstart label List.mem_cons_self)
          have hstep : step prog effect ⟨s, old ++ new⟩ (.start label) =
              ⟨s, old ++ (new ++ [(label, prog label)])⟩ := by
            rw [← List.append_assoc]
            rfl
          rw [hstep]
          exact ih s old _ m g g' hI hold hnew' hM
      | turn i =>
          -- the turn is one of the old ones', or one of the new ones'
          obtain ⟨old', s', hturn, happend⟩ | ⟨j, new', s', hturn, happend⟩ :=
            advance_append old new i s
          · have hstep : step prog effect ⟨s, old ++ new⟩ (.turn i) = ⟨s', old' ++ new⟩ := by
              unfold step
              dsimp only
              rw [happend]
            obtain ⟨hI', d, hold', hd⟩ := inOrder_advance hold i s hI
            rw [hturn] at hI' hold' hd
            have hlength : old'.length = old.length := by
              have hlabels := labels_advance old i s
              rw [hturn] at hlabels
              have hlen := congrArg List.length hlabels
              rwa [List.length_map, List.length_map] at hlen
            rw [hstep, ← hlength]
            refine ih hstart hout s' old' new m (g + d) g' hI' hold' hnew (hd.trans ?_)
            rw [hM, add_right_comm g d g', add_assoc m]
          · have hstep : step prog effect ⟨s, old ++ new⟩ (.turn i) = ⟨s', old ++ new'⟩ := by
              unfold step
              dsimp only
              rw [happend]
            obtain ⟨hI', d, hnew', hd⟩ := inOrder_advance hnew j s hI
            rw [hturn] at hI' hnew' hd
            rw [hstep]
            refine ih hstart hout s' old new' m g (g' + d) hI' hold hnew' (hd.trans ?_)
            rw [hM, ← add_assoc g g' d, add_assoc m]
      | outside o =>
          have ih := ih hstart (fun o' ho' => hout o' (List.mem_cons_of_mem o ho'))
          obtain ⟨hI', hM'⟩ := hout o List.mem_cons_self s hI
          have hadd : M (effect s o) = m + own o + (g + g') := by rw [hM', hM, add_right_comm]
          obtain ⟨hI'', old', new', g, g', hprograms, hlength, hold', hnew', hsum⟩ :=
            ih (effect s o) old new (m + own o) g g' hI' hold hnew hadd
          refine ⟨hI'', old', new', g, g', hprograms, hlength, hold', hnew', hsum.trans ?_⟩
          show m + own o + ((outsides events).map own).sum + (g + g') =
            m + (own o + ((outsides events).map own).sum) + (g + g')
          rw [add_assoc m]

/-- **From the start on**: the invariant holds, the programs are in order, and the account
is what it was, what was added outside, and what the programs have added. -/
theorem pool_inOrder {own : ο → G} {events : List (PoolEvent ι ο)} {s : σ} (hI : I s)
    (hstart : ∀ label ∈ started events, (prog label).Keeps I (R label) M (Q label) 0)
    (hout : ∀ o ∈ outsides events, ∀ s, I s → I (effect s o) ∧ M (effect s o) = M s + own o) :
    I (run (step prog effect) ⟨s, []⟩ events).state ∧
      ∃ g, InOrder I R M Q (run (step prog effect) ⟨s, []⟩ events).programs g ∧
        M (run (step prog effect) ⟨s, []⟩ events).state =
          M s + ((outsides events).map own).sum + g := by
  have hM : M s = M s + (0 + 0) := by rw [add_zero, add_zero]
  obtain ⟨hI', old', new', g, g', hprograms, hlength, hold, hnew, hsum⟩ :=
    pool_run prog effect (Q := Q) events hstart hout s [] [] (M s) 0 0 hI .nil .nil hM
  obtain rfl := List.eq_nil_of_length_eq_zero hlength
  cases hold
  rw [zero_add] at hsum
  refine ⟨hI', g', ?_, hsum⟩
  have hprograms : (run (step prog effect) ⟨s, []⟩ events).programs = new' := hprograms
  rw [hprograms]
  exact hnew

/-- **In the end**: when all programs have ended, the account is what it was, what was added
outside, and what each of them adds, once. -/
theorem pool_account {own : ο → G} {books : ι → α → G} {events : List (PoolEvent ι ο)} {s : σ}
    (hI : I s)
    (hstart : ∀ label ∈ started events,
      (prog label).Keeps I (R label) M (fun a g => g = books label a) 0)
    (hout : ∀ o ∈ outsides events, ∀ s, I s → I (effect s o) ∧ M (effect s o) = M s + own o)
    {results : List (ι × α)} (hended : (run (step prog effect) ⟨s, []⟩ events).Ended results) :
    results.map Prod.fst = started events ∧
      M (run (step prog effect) ⟨s, []⟩ events).state =
        M s + ((outsides events).map own).sum + (results.map fun e => books e.1 e.2).sum := by
  obtain ⟨-, g, horder, hM⟩ := pool_inOrder prog effect hI hstart hout
  have hlabels := labels_run prog effect events ⟨s, []⟩
  unfold Ended at hended
  rw [hended, List.map_map] at hlabels
  rw [hended] at horder
  refine ⟨hlabels, ?_⟩
  rw [hM, sum_of_ended horder]

end

end Pool

end DockerProxy.Lib
