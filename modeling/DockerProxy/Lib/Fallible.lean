/-
  DockerProxy.Lib.Fallible — computations in `Except`.

  A chain of fallible steps that succeeds has succeeded at each step
  (`bind_eq_ok`), and a fallible step mapped over a list that succeeds has
  succeeded at each element (`forall₂_of_mapM`).  `Outcome` says when a computation
  fails and when it gives an intended value, and is put together from the steps.
-/
import Mathlib.Data.List.Forall2

namespace DockerProxy.Lib

universe u v

/-! ## §1. Computations that succeed. -/

variable {ε : Type u} {α β : Type v}

/-- A chain succeeds exactly when its first step does, and the rest after it. -/
theorem bind_eq_ok {x : Except ε α} {f : α → Except ε β} {b : β} :
    x >>= f = .ok b ↔ ∃ a, x = .ok a ∧ f a = .ok b := by
  cases x with
  | error e => exact Iff.intro (fun h => nomatch h) (fun ⟨_, h, _⟩ => nomatch h)
  | ok a =>
      refine Iff.intro (fun h => ⟨a, rfl, h⟩) ?_
      intro ⟨a', ha, hb⟩
      injection ha with ha
      rw [ha]
      exact hb

/-- What is returned. -/
theorem pure_eq_ok {a b : α} : (pure a : Except ε α) = .ok b ↔ a = b :=
  Iff.intro (fun h => by injection h) (fun h => by rw [h]; rfl)

/-- An error that is put differently is an error. -/
theorem mapError_eq_ok {ε' : Type*} {x : Except ε α} {f : ε → ε'} {a : α} :
    x.mapError f = .ok a ↔ x = .ok a := by
  cases x with
  | error e => exact Iff.intro (fun h => nomatch h) (fun h => nomatch h)
  | ok b => exact Iff.intro (fun h => by injection h with h; rw [h]) (fun h => by rw [h]; rfl)

/-- Every element of the left list is related to one of the right list. -/
theorem exists_of_forall₂ {α β : Type*} {R : α → β → Prop} {xs : List α} {ys : List β}
    (h : List.Forall₂ R xs ys) {x : α} (hx : x ∈ xs) : ∃ y ∈ ys, R x y := by
  induction h with
  | nil => exact absurd hx List.not_mem_nil
  | cons hxy _ ih =>
      cases List.mem_cons.mp hx with
      | inl heq => exact ⟨_, List.mem_cons_self, by rw [heq]; exact hxy⟩
      | inr hmem =>
          obtain ⟨y, hy, hR⟩ := ih hmem
          exact ⟨y, List.mem_cons_of_mem _ hy, hR⟩

/-- **A step mapped over a list succeeds at every element.** -/
theorem forall₂_of_mapM {f : α → Except ε β} {xs : List α} :
    ∀ {ys : List β}, xs.mapM f = .ok ys → List.Forall₂ (fun x y => f x = .ok y) xs ys := by
  induction xs with
  | nil =>
      intro ys h
      rw [List.mapM_nil, pure_eq_ok] at h
      rw [← h]
      exact List.Forall₂.nil
  | cons x xs ih =>
      intro ys h
      rw [List.mapM_cons, bind_eq_ok] at h
      obtain ⟨y, hy, h⟩ := h
      rw [bind_eq_ok] at h
      obtain ⟨ys', hys, h⟩ := h
      rw [pure_eq_ok] at h
      rw [← h]
      exact List.Forall₂.cons hy (ih hys)

/-- The same for a list that may be missing. -/
theorem forall₂_of_optionMapM {f : α → Except ε β} {o : Option (List α)} {o' : Option (List β)}
    (h : (o.mapM fun xs => xs.mapM f) = .ok o') :
    List.Forall₂ (fun x y => f x = .ok y) (o.getD []) (o'.getD []) := by
  cases o with
  | none =>
      rw [← pure_eq_ok.mp h]
      exact List.Forall₂.nil
  | some xs =>
      obtain ⟨ys, hys, h⟩ := bind_eq_ok.mp h
      rw [← pure_eq_ok.mp h]
      exact forall₂_of_mapM hys

/-- Two elementwise relations, one after the other. -/
theorem forall₂_trans {γ : Type v} {R : α → β → Prop} {S : β → γ → Prop} {T : α → γ → Prop}
    (hcomp : ∀ x y z, R x y → S y z → T x z) {xs : List α} {ys : List β} :
    ∀ {zs : List γ}, List.Forall₂ R xs ys → List.Forall₂ S ys zs → List.Forall₂ T xs zs := by
  intro zs hR
  induction hR generalizing zs with
  | nil => intro hS; cases hS; exact List.Forall₂.nil
  | cons hxy _ ih =>
      intro hS
      cases hS with
      | cons hyz hrest => exact List.Forall₂.cons (hcomp _ _ _ hxy hyz) (ih hrest)

/-- Elementwise related lists satisfy related properties. -/
theorem forall_mem_iff_of_forall₂ {R : α → β → Prop} {P : α → Prop} {Q : β → Prop}
    (hiff : ∀ x y, R x y → (P x ↔ Q y)) {xs : List α} {ys : List β} (h : List.Forall₂ R xs ys) :
    (∀ x ∈ xs, P x) ↔ ∀ y ∈ ys, Q y := by
  induction h with
  | nil => exact Iff.intro (fun _ y hy => nomatch hy) (fun _ x hx => nomatch hx)
  | cons hxy _ ih => rw [List.forall_mem_cons, List.forall_mem_cons, ih, hiff _ _ hxy]

/-! ## §2. What a computation comes to. -/

/-- **The computation fails exactly if `F`, and gives `y` exactly if `P`** where it does
not. -/
structure Outcome (r : Except ε α) (F : Prop) (y : α) (P : Prop) : Prop where
  fails : (∃ e, r = .error e) ↔ F
  gives : ∀ x, r = .ok x → (x = y ↔ P)

namespace Outcome

variable {r : Except ε α} {F G P Q : Prop} {y : α}

theorem congr (h : Outcome r F y P) {F' P' : Prop} (hF : F ↔ F') (hP : P ↔ P') :
    Outcome r F' y P' :=
  ⟨h.fails.trans hF, fun x hx => (h.gives x hx).trans hP⟩

/-- A computation that cannot fail. -/
theorem pure {x : α} (h : x = y ↔ P) : Outcome (Pure.pure x : Except ε α) False y P := by
  refine ⟨iff_of_false (fun ⟨e, he⟩ => nomatch he) not_false, fun x' hx' => ?_⟩
  rw [← pure_eq_ok.mp hx']
  exact h

/-- **A step and the rest after it**: what comes out is right if the step gave what it
should, and nothing else goes wrong. -/
theorem bind {k : α → Except ε β} {z : β} (h : Outcome r F y P)
    (hk : ∀ x, Outcome (k x) G z (x = y ∧ Q)) : Outcome (r >>= k) (F ∨ G) z (P ∧ Q) := by
  constructor
  · cases hr : r with
    | error e =>
        exact iff_of_true ⟨e, rfl⟩ (Or.inl (h.fails.mp ⟨e, hr⟩))
    | ok x =>
        have hF : ¬ F := by
          intro hF
          obtain ⟨e, he⟩ := h.fails.mpr hF
          exact nomatch hr.symm.trans he
        exact (hk x).fails.trans (or_iff_right hF).symm
  · intro b hb
    obtain ⟨x, hx, hb⟩ := bind_eq_ok.mp hb
    rw [(hk x).gives b hb, h.gives x hx]

/-- A last step that cannot fail. -/
theorem map {g : α → β} {z : β} (h : Outcome r F y P) (hg : ∀ x, g x = z ↔ x = y ∧ Q) :
    Outcome (r >>= fun x => Pure.pure (g x)) F z (P ∧ Q) :=
  (h.bind fun x => pure (hg x)).congr (or_iff_left not_false) Iff.rfl

/-- Wrapping up the value changes neither when it fails nor when it has a value. -/
theorem wrap {g : α → β} (h : Outcome r F y P) (hg : Function.Injective g) :
    Outcome (r >>= fun x => Pure.pure (g x)) F (g y) P := by
  have hmap : ∀ x, g x = g y ↔ x = y ∧ True := fun x => by rw [hg.eq_iff, and_true]
  exact (h.map hmap).congr Iff.rfl (by rw [and_true])

/-- Two steps, put together at the end. -/
theorem map₂ {γ : Type v} {s : Except ε β} {y' : β} (h : Outcome r F y P) (hs : Outcome s G y' Q)
    {g : α → β → γ} {z : γ} {R : Prop} (hg : ∀ x x', g x x' = z ↔ x = y ∧ x' = y' ∧ R) :
    Outcome (r >>= fun x => s >>= fun x' => Pure.pure (g x x')) (F ∨ G) z (P ∧ Q ∧ R) := by
  refine h.bind fun x => ?_
  exact (hs.map fun x' => (hg x x').trans and_left_comm).congr Iff.rfl and_left_comm

/-- Three steps that do not depend on each other. -/
theorem map₃ {γ δ : Type v} {s : Except ε β} {y' : β} {t : Except ε γ} {H : Prop} {y'' : γ}
    {R : Prop} (h : Outcome r F y P) (hs : Outcome s G y' Q) (ht : Outcome t H y'' R)
    {g : α → β → γ → δ} {z : δ} {S : Prop}
    (hg : ∀ x x' x'', g x x' x'' = z ↔ x = y ∧ x' = y' ∧ x'' = y'' ∧ S) :
    Outcome (r >>= fun x => s >>= fun x' => t >>= fun x'' => Pure.pure (g x x' x''))
      (F ∨ G ∨ H) z (P ∧ Q ∧ R ∧ S) := by
  refine h.bind fun x => ?_
  -- what is known of the first value goes along with the rest
  have hrest : ∀ x' x'', g x x' x'' = z ↔ x' = y' ∧ x'' = y'' ∧ x = y ∧ S := by
    intro x' x''
    rw [hg, and_left_comm, and_left_comm (b := x'' = y'')]
  refine (hs.map₂ ht hrest).congr Iff.rfl ?_
  rw [and_left_comm (b := x = y), and_left_comm (b := x = y)]

/-- The first element of a list, and then the rest of it. -/
theorem cons {s : Except ε (List α)} {ys : List α} (h : Outcome r F y P) (hs : Outcome s G ys Q) :
    Outcome (r >>= fun x => s >>= fun xs => Pure.pure (x :: xs)) (F ∨ G) (y :: ys) (P ∧ Q) := by
  have hcons : ∀ x xs, x :: xs = y :: ys ↔ x = y ∧ xs = ys ∧ True := by
    intro x xs
    rw [List.cons.injEq, and_true]
  exact (h.map₂ hs hcons).congr Iff.rfl (by rw [and_true])

/-- The computation mapped over a list. -/
theorem mapM {f : α → Except ε β} {F : α → Prop} {g : α → β} {P : α → Prop} {xs : List α}
    (h : ∀ x ∈ xs, Outcome (f x) (F x) (g x) (P x)) :
    Outcome (xs.mapM f) (∃ x ∈ xs, F x) (xs.map g) (∀ x ∈ xs, P x) := by
  induction xs with
  | nil =>
      have hnil : Outcome (Pure.pure [] : Except ε (List β)) False [] True :=
        pure (iff_of_true rfl trivial)
      rw [List.mapM_nil]
      exact hnil.congr (by simp) (by simp)
  | cons x xs ih =>
      have hx := h x List.mem_cons_self
      have hxs := ih fun x' hx' => h x' (List.mem_cons_of_mem x hx')
      rw [List.mapM_cons]
      exact (hx.cons hxs).congr (by simp) (by simp)

/-- The computation on a value that may be missing. -/
theorem optionMapM {f : α → Except ε β} {F : α → Prop} {g : α → β} {P : α → Prop} {o : Option α}
    (h : ∀ x ∈ o, Outcome (f x) (F x) (g x) (P x)) :
    Outcome (o.mapM f) (∃ x ∈ o, F x) (o.map g) (∀ x ∈ o, P x) := by
  cases o with
  | none =>
      have hnone : Outcome (Pure.pure none : Except ε (Option β)) False none True :=
        pure (iff_of_true rfl trivial)
      exact hnone.congr (by simp) (by simp)
  | some x => exact ((h x rfl).wrap fun _ _ => Option.some.inj).congr (by simp) (by simp)

end Outcome

end DockerProxy.Lib
