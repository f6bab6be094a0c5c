/-
  DockerProxy.Lib.DotSegments — resolving a list of path segments with a stack.

  Every segment either is skipped, or removes the last kept segment, or is kept
  itself.  `resolveFrom st xs` reads `xs` left to right from the kept segments
  `st`.  What callers need is how the result depends on the bottom of the stack:

    • `climbs d xs` — reading `xs` from `d` kept segments removes one too many;
    • `resolveFrom_append_of_not_climbs` — if not, a prefix below is untouched;
    • `resolveFrom_cons_of_climbs` — if so, one more segment below is absorbed.

  Together they say what the stack computes without a stack: the `survivors`, the
  names after which the reading never climbs (`resolveFrom_eq_survivors`).
-/
import Mathlib.Data.List.Basic

namespace DockerProxy.Lib

/-- What a segment does to the kept segments. -/
inductive SegmentKind where
  /-- Nothing is kept of it. -/
  | skip
  /-- Remove the last kept segment, if there is one. -/
  | up
  /-- The segment is kept. -/
  | name
  deriving Repr, DecidableEq

variable {α : Type*} (kind : α → SegmentKind)

/-! ## §1. The reading. -/

/-- One segment's action on the kept segments. -/
def resolveStep (st : List α) (x : α) : List α :=
  match kind x with
  | .skip => st
  | .up => st.dropLast
  | .name => st ++ [x]

/-- Read the segments `xs` left to right, starting from the kept segments `st`. -/
def resolveFrom (st xs : List α) : List α := xs.foldl (resolveStep kind) st

/-- Does reading `xs` from `d` kept segments meet an `up` with nothing to remove? -/
def climbs : Nat → List α → Bool
  | _, [] => false
  | d, x :: xs =>
      match kind x, d with
      | .skip, d => climbs d xs
      | .name, d => climbs (d + 1) xs
      | .up, 0 => true
      | .up, d + 1 => climbs d xs

/-- The names that no later `up` removes. -/
def survivors : List α → List α
  | [] => []
  | x :: xs =>
      if kind x = .name ∧ climbs kind 0 xs = false then x :: survivors xs else survivors xs

@[simp] theorem resolveFrom_nil (st : List α) : resolveFrom kind st [] = st := rfl

theorem resolveFrom_cons (st : List α) (x : α) (xs : List α) :
    resolveFrom kind st (x :: xs) = resolveFrom kind (resolveStep kind st x) xs := rfl

theorem resolveFrom_append (st xs ys : List α) :
    resolveFrom kind st (xs ++ ys) = resolveFrom kind (resolveFrom kind st xs) ys := by
  simp [resolveFrom]

/-! ## §2. What is kept. -/

/-- A skipped segment may be inserted anywhere. -/
theorem resolveFrom_insert_skip (st xs ys : List α) {x : α} (hx : kind x = .skip) :
    resolveFrom kind st (xs ++ x :: ys) = resolveFrom kind st (xs ++ ys) := by
  rw [resolveFrom_append, resolveFrom_append, resolveFrom_cons]
  simp [resolveStep, hx]

/-- Reading names only keeps them all. -/
theorem resolveFrom_of_names (xs : List α) :
    ∀ st : List α, (∀ x ∈ xs, kind x = .name) → resolveFrom kind st xs = st ++ xs := by
  induction xs with
  | nil => intro st _; simp
  | cons x xs ih =>
      intro st h
      rw [resolveFrom_cons, ih _ (fun y hy => h y (List.mem_cons_of_mem x hy))]
      simp [resolveStep, h x List.mem_cons_self]

/-- Every kept segment was there before or is a name that was read. -/
theorem mem_resolveFrom (xs : List α) :
    ∀ (st : List α) (y : α), y ∈ resolveFrom kind st xs →
      y ∈ st ∨ (y ∈ xs ∧ kind y = .name) := by
  induction xs with
  | nil => intro st y hy; exact Or.inl hy
  | cons x xs ih =>
      intro st y hy
      rw [resolveFrom_cons] at hy
      rcases ih _ y hy with h | ⟨h, hk⟩
      · unfold resolveStep at h
        cases hx : kind x with
        | skip => rw [hx] at h; exact Or.inl h
        | up => rw [hx] at h; exact Or.inl (List.dropLast_subset st h)
        | name =>
            rw [hx] at h
            rcases List.mem_append.mp h with h | h
            · exact Or.inl h
            · rw [List.mem_singleton] at h
              subst h
              exact Or.inr ⟨List.mem_cons_self, hx⟩
      · exact Or.inr ⟨List.mem_cons_of_mem x h, hk⟩

/-- The kept segments are a sublist of what was there and what was read. -/
theorem resolveFrom_sublist (xs : List α) :
    ∀ st : List α, List.Sublist (resolveFrom kind st xs) (st ++ xs) := by
  induction xs with
  | nil => intro st; simp
  | cons x xs ih =>
      intro st
      rw [resolveFrom_cons]
      refine (ih _).trans ?_
      unfold resolveStep
      cases kind x with
      | skip => exact List.Sublist.append_left (List.sublist_cons_self x xs) st
      | up => exact (List.dropLast_sublist st).append (List.sublist_cons_self x xs)
      | name => show List.Sublist (st ++ [x] ++ xs) _; simp

/-! ## §3. The bottom of the stack. -/

/-- **A reading that never climbs leaves everything below it in place.** -/
theorem resolveFrom_append_of_not_climbs (bot : List α) (xs : List α) :
    ∀ st : List α, climbs kind st.length xs = false →
      resolveFrom kind (bot ++ st) xs = bot ++ resolveFrom kind st xs := by
  induction xs with
  | nil => intro st _; rfl
  | cons x xs ih =>
      intro st h
      rw [resolveFrom_cons, resolveFrom_cons]
      unfold climbs at h
      unfold resolveStep
      cases hx : kind x with
      | skip =>
          simp only [hx] at h ⊢
          exact ih st h
      | name =>
          simp only [hx] at h ⊢
          rw [List.append_assoc]
          exact ih (st ++ [x]) (by simpa using h)
      | up =>
          cases st with
          | nil => simp [hx] at h
          | cons s st =>
              simp only [hx, List.length_cons] at h ⊢
              rw [List.dropLast_append_of_ne_nil (by simp)]
              exact ih (s :: st).dropLast (by simpa using h)

/-- **A reading that climbs absorbs one segment below it.** -/
theorem resolveFrom_cons_of_climbs (v : α) (xs : List α) :
    ∀ st : List α, climbs kind st.length xs = true →
      resolveFrom kind (v :: st) xs = resolveFrom kind st xs := by
  induction xs with
  | nil => intro st h; simp [climbs] at h
  | cons x xs ih =>
      intro st h
      rw [resolveFrom_cons, resolveFrom_cons]
      unfold climbs at h
      unfold resolveStep
      cases hx : kind x with
      | skip =>
          simp only [hx] at h ⊢
          exact ih st h
      | name =>
          simp only [hx] at h ⊢
          exact ih (st ++ [x]) (by simpa using h)
      | up =>
          cases st with
          | nil => rfl
          | cons s st =>
              simp only [hx, List.length_cons] at h ⊢
              show resolveFrom kind (v :: (s :: st).dropLast) xs = _
              exact ih (s :: st).dropLast (by simpa using h)

/-! ## §4. The stack computes the survivors. -/

/-- **Resolving from nothing keeps exactly the survivors.** -/
theorem resolveFrom_eq_survivors (xs : List α) : resolveFrom kind [] xs = survivors kind xs := by
  induction xs with
  | nil => rfl
  | cons x xs ih =>
      rw [resolveFrom_cons, survivors, ← ih]
      cases hx : kind x with
      | skip => simp [resolveStep, hx]
      | up => simp [resolveStep, hx]
      | name =>
          have hstep : resolveStep kind [] x = [x] := by simp [resolveStep, hx]
          rw [hstep]
          cases hup : climbs kind 0 xs with
          | false =>
              rw [if_pos ⟨rfl, rfl⟩]
              exact resolveFrom_append_of_not_climbs kind [x] xs [] hup
          | true =>
              rw [if_neg (by simp)]
              exact resolveFrom_cons_of_climbs kind x xs [] hup

end DockerProxy.Lib
