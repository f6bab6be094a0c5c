/-
  DockerProxy.Lib.Interleaving — programs of atomic updates, in any order of steps.

  Each program is a list of updates of one shared state; a schedule says whose turn it
  is.  If the updates commute, the schedule does not matter:

    • `foldl_stepThread` — a step moves an update from what is left into the state,
    • `state_of_finished` — when nothing is left, the state is that of the programs run
      one after the other.
-/
import DockerProxy.Lib.Exec
import Mathlib.Data.List.Perm.Basic

namespace DockerProxy.Lib

variable {σ α : Type*}

/-- The shared state, and what is left of the programs. -/
structure Threads (σ α : Type*) where
  state : σ
  pending : List (List α)

/-- All programs have come to their ends. -/
def Threads.Finished (t : Threads σ α) : Prop := ∀ program ∈ t.pending, program = []

variable (apply : σ → α → σ)

/-- The next update of program `i`; a program that has ended, or is not there, does
nothing. -/
def stepThread (t : Threads σ α) (i : Nat) : Threads σ α :=
  match t.pending[i]? with
  | some (a :: rest) => ⟨apply t.state a, t.pending.set i rest⟩
  | _ => t

/-- The updates that are left, with one of them first. -/
theorem flatten_perm_set {a : α} {rest : List α} : ∀ {pending : List (List α)} {i : Nat},
    pending[i]? = some (a :: rest) →
      pending.flatten.Perm (a :: (pending.set i rest).flatten) := by
  intro pending
  induction pending with
  | nil => intro i h; exact absurd h (by simp)
  | cons program pending ih =>
      intro i h
      cases i with
      | zero =>
          rw [List.getElem?_cons_zero] at h
          rw [Option.some.inj h]
          exact List.Perm.refl _
      | succ i =>
          rw [List.getElem?_cons_succ] at h
          show (program ++ pending.flatten).Perm (a :: (program ++ (pending.set i rest).flatten))
          exact ((ih h).append_left program).trans List.perm_middle

/-- **A step moves an update into the state**, and what comes out in the end is the same. -/
theorem foldl_stepThread [RightCommutative apply] (t : Threads σ α) (i : Nat) :
    (stepThread apply t i).pending.flatten.foldl apply (stepThread apply t i).state =
      t.pending.flatten.foldl apply t.state := by
  unfold stepThread
  split
  next a rest h => exact ((flatten_perm_set h).foldl_eq t.state).symm
  next => rfl

/-- **Any schedule gives what the programs give one after the other**, once they have all
come to their ends. -/
theorem state_of_finished [RightCommutative apply] (s : σ) (programs : List (List α))
    (schedule : List Nat) (h : (run (stepThread apply) ⟨s, programs⟩ schedule).Finished) :
    (run (stepThread apply) ⟨s, programs⟩ schedule).state = programs.flatten.foldl apply s := by
  -- the state that what is left would lead to is the same all along
  have hinv : ∀ t, t.pending.flatten.foldl apply t.state = programs.flatten.foldl apply s →
      (run (stepThread apply) t schedule).pending.flatten.foldl apply
          (run (stepThread apply) t schedule).state = programs.flatten.foldl apply s := by
    refine run_invariant (stepThread apply) (fun t i ht => ?_) schedule
    rw [foldl_stepThread]
    exact ht
  have hend := hinv ⟨s, programs⟩ rfl
  have hnil : (run (stepThread apply) ⟨s, programs⟩ schedule).pending.flatten = [] :=
    List.flatten_eq_nil_iff.mpr h
  rw [hnil] at hend
  exact hend

end DockerProxy.Lib
