/-
  DockerProxy.Lib.Silent — events that nobody can tell from their absence.

  A machine answers some of its events.  Some events are silent: they are maintenance
  that a client does not ask for.  They are unobservable if the run with them and the
  run without them give the same answers.  `answers_of_simulation` reduces this to a
  relation between the two states that an event of the client keeps, with equal
  answers, and that a silent event of the one run keeps on its own; the relation may
  know the time, and the state without the silent events may be asked to have room.
-/
import DockerProxy.Lib.Exec

namespace DockerProxy.Lib

variable {σ ε ω : Type*} (step : σ → ε → σ) (answer : σ → ε → Option ω)

/-- The answers along a run. -/
def answers : σ → List ε → List ω
  | _, [] => []
  | s, e :: events => (answer s e).toList ++ answers (step s e) events

@[simp] theorem answers_cons (s : σ) (e : ε) (events : List ε) :
    answers step answer s (e :: events) =
      (answer s e).toList ++ answers step answer (step s e) events := rfl

/-- **The simulation rule for silent events.**  `R t s s'` relates the state without the
silent events to the state with them, at time `t`. -/
theorem answers_of_simulation {time : ε → Nat} {silent : ε → Bool} {room : σ → ε → Prop}
    {R : Nat → σ → σ → Prop}
    (hcall : ∀ t s s' e, R t s s' → t ≤ time e → silent e = false → room s e →
      answer s e = answer s' e ∧ R (time e) (step s e) (step s' e))
    (hsilent : ∀ t s s' e, R t s s' → t ≤ time e → silent e = true →
      answer s' e = none ∧ R (time e) s (step s' e))
    (events : List ε) :
    ∀ t s s', R t s s' → (∀ e ∈ events, t ≤ time e) →
      events.Pairwise (fun e e' => time e ≤ time e') →
      Along step room s (events.filter fun e => !silent e) →
      answers step answer s' events = answers step answer s (events.filter fun e => !silent e) := by
  induction events with
  | nil => intro t s s' _ _ _ _; rfl
  | cons e events ih =>
      intro t s s' hR hfrom hsorted hroom
      obtain ⟨hlater, hsorted⟩ := List.pairwise_cons.mp hsorted
      have ht := hfrom e List.mem_cons_self
      cases he : silent e with
      | true =>
          rw [List.filter_cons_of_neg (by simp [he])] at hroom ⊢
          obtain ⟨hnone, hR⟩ := hsilent t s s' e hR ht he
          rw [answers_cons, hnone]
          exact ih (time e) s (step s' e) hR hlater hsorted hroom
      | false =>
          rw [List.filter_cons_of_pos (by simp [he])] at hroom ⊢
          obtain ⟨hsame, hR⟩ := hcall t s s' e hR ht he hroom.1
          rw [answers_cons, answers_cons, hsame]
          exact congrArg _ (ih (time e) (step s e) (step s' e) hR hlater hsorted hroom.2)

end DockerProxy.Lib
