/-
  DockerProxy.Lib.FirstStop — a loop over a list that may return early.

  The body sees a mutable state and either returns a result, which ends the
  loop, or passes on to the next element.  `firstStop` runs it; `StopsAt k d`
  says what the body returns at position `k` when everything before it was
  passed.  The facts a client uses:

    • `firstStop_eq` — the loop returns at the least position that stops, with
      the state left there, or passes everything;
    • `firstStop_drop` — a prefix in which nothing stops only leaves its state;
    • `firstStop_filter` — elements that leave the state alone may be deleted,
      unless the loop returns at one of them;
    • `firstStop_congr` — bodies that agree on the elements loop alike.

  Where the body has no state, `FirstIn` is the first element with a property; there
  is at most one, and a search ends there.
-/
import Mathlib.Data.List.Basic

namespace DockerProxy.Lib

variable {ρ σ δ : Type*} (step : ρ → σ → Option δ × σ)

/-! ## §1. The loop. -/

/-- Run the body on the elements until it returns a result. -/
def firstStop : List ρ → σ → Option δ × σ
  | [], s => (none, s)
  | r :: rs, s =>
      match step r s with
      | (some d, s') => (some d, s')
      | (none, s') => firstStop rs s'

/-- The state after all the elements, results or not. -/
def passState (rs : List ρ) (s : σ) : σ := rs.foldl (fun s r => (step r s).2) s

/-- At position `k` the body returns `d`, if everything before it was passed. -/
def StopsAt (rs : List ρ) (s : σ) (k : Nat) (d : δ) : Prop :=
  ∃ r, rs[k]? = some r ∧ (step r (passState step (rs.take k) s)).1 = some d

/-- Position `k` is the first one where the body returns, and it returns `d`. -/
def FirstStopAt (rs : List ρ) (s : σ) (k : Nat) (d : δ) : Prop :=
  StopsAt step rs s k d ∧ ∀ j < k, ∀ e, ¬ StopsAt step rs s j e

theorem firstStop_cons_of_pass {r : ρ} {rs : List ρ} {s : σ} (h : (step r s).1 = none) :
    firstStop step (r :: rs) s = firstStop step rs (step r s).2 := by
  unfold firstStop
  cases hr : step r s with
  | mk o s' =>
      rw [hr] at h
      have h : o = none := h
      rw [h]
      cases rs <;> rfl

theorem firstStop_cons_of_stop {r : ρ} {rs : List ρ} {s : σ} {d : δ}
    (h : (step r s).1 = some d) : firstStop step (r :: rs) s = (some d, (step r s).2) := by
  unfold firstStop
  cases hr : step r s with
  | mk o s' =>
      rw [hr] at h
      have h : o = some d := h
      rw [h]

/-! ## §2. Positions. -/

theorem stopsAt_zero {r : ρ} {rs : List ρ} {s : σ} {d : δ} :
    StopsAt step (r :: rs) s 0 d ↔ (step r s).1 = some d := by
  unfold StopsAt
  simp [passState]

theorem stopsAt_succ {r : ρ} {rs : List ρ} {s : σ} {k : Nat} {d : δ} :
    StopsAt step (r :: rs) s (k + 1) d ↔ StopsAt step rs (step r s).2 k d := by
  unfold StopsAt
  simp [passState]

theorem not_stopsAt_nil {s : σ} {k : Nat} {d : δ} : ¬ StopsAt step [] s k d := by
  unfold StopsAt
  simp

theorem firstStopAt_zero {r : ρ} {rs : List ρ} {s : σ} {d : δ} (h : (step r s).1 = some d) :
    FirstStopAt step (r :: rs) s 0 d :=
  ⟨(stopsAt_zero step).mpr h, fun j hj => absurd hj (Nat.not_lt_zero j)⟩

/-- After an element that is passed the positions shift by one. -/
theorem firstStopAt_succ {r : ρ} {rs : List ρ} {s : σ} {k : Nat} {d : δ}
    (h : (step r s).1 = none) (hk : FirstStopAt step rs (step r s).2 k d) :
    FirstStopAt step (r :: rs) s (k + 1) d := by
  refine ⟨(stopsAt_succ step).mpr hk.1, fun j hj e hstop => ?_⟩
  cases j with
  | zero =>
      rw [stopsAt_zero, h] at hstop
      exact absurd hstop (by simp)
  | succ j => exact hk.2 j (by omega) e ((stopsAt_succ step).mp hstop)

/-- There is only one first position, and only one result. -/
theorem firstStopAt_unique {rs : List ρ} {s : σ} {j k : Nat} {d e : δ}
    (hj : FirstStopAt step rs s j d) (hk : FirstStopAt step rs s k e) : j = k ∧ d = e := by
  have hjk : j = k := by
    by_contra hne
    by_cases hlt : j < k
    · exact hk.2 j hlt d hj.1
    · exact hj.2 k (by omega) e hk.1
  subst hjk
  obtain ⟨r, hr, hd⟩ := hj.1
  obtain ⟨r', hr', he⟩ := hk.1
  rw [hr] at hr'
  injection hr' with hr'
  rw [← hr', hd] at he
  injection he with he
  exact ⟨rfl, he⟩

/-! ## §3. What the loop returns. -/

/-- **The loop returns at the first position that stops, with the state left
there, or it passes everything.** -/
theorem firstStop_eq (rs : List ρ) :
    ∀ s, (∃ k d, FirstStopAt step rs s k d ∧
        firstStop step rs s = (some d, passState step (rs.take (k + 1)) s)) ∨
      ((∀ k d, ¬ StopsAt step rs s k d) ∧ firstStop step rs s = (none, passState step rs s)) := by
  induction rs with
  | nil => intro s; exact Or.inr ⟨fun k d => not_stopsAt_nil step, rfl⟩
  | cons r rs ih =>
      intro s
      cases hr : (step r s).1 with
      | some d =>
          refine Or.inl ⟨0, d, firstStopAt_zero step hr, ?_⟩
          rw [firstStop_cons_of_stop step hr]
          rfl
      | none =>
          rw [firstStop_cons_of_pass step hr]
          obtain ⟨k, d, hk, heq⟩ | ⟨hnone, heq⟩ := ih (step r s).2
          · exact Or.inl ⟨k + 1, d, firstStopAt_succ step hr hk, heq⟩
          · refine Or.inr ⟨fun k d hstop => ?_, heq⟩
            cases k with
            | zero =>
                rw [stopsAt_zero, hr] at hstop
                exact absurd hstop (by simp)
            | succ k => exact hnone k d ((stopsAt_succ step).mp hstop)

/-- **A prefix that is passed only leaves its state.** -/
theorem firstStop_drop (rs : List ρ) :
    ∀ n s, (∀ j < n, ∀ d, ¬ StopsAt step rs s j d) →
      firstStop step rs s = firstStop step (rs.drop n) (passState step (rs.take n) s) := by
  induction rs with
  | nil => intro n s _; simp [passState]
  | cons r rs ih =>
      intro n s hpass
      cases n with
      | zero => rfl
      | succ n =>
          have hr : (step r s).1 = none := by
            cases hr : (step r s).1 with
            | none => rfl
            | some d => exact absurd ((stopsAt_zero step).mpr hr) (hpass 0 (Nat.succ_pos n) d)
          have hrest : ∀ j < n, ∀ d, ¬ StopsAt step rs (step r s).2 j d := fun j hj d hstop =>
            hpass (j + 1) (by omega) d ((stopsAt_succ step).mpr hstop)
          rw [firstStop_cons_of_pass step hr, ih n (step r s).2 hrest]
          rfl

/-! ## §4. Deleting elements. -/

/-- **Deleting elements that leave the state alone** changes nothing, unless the
loop returns at one of them. -/
theorem firstStop_filter {keep : ρ → Bool} (hframe : ∀ r s, keep r = false → (step r s).2 = s)
    (rs : List ρ) :
    ∀ s, (∀ k d r, FirstStopAt step rs s k d → rs[k]? = some r → keep r = true) →
      firstStop step (rs.filter keep) s = firstStop step rs s := by
  induction rs with
  | nil => intro s _; rfl
  | cons r rs ih =>
      intro s hkept
      cases hr : (step r s).1 with
      | some d =>
          have hkeep := hkept 0 d r (firstStopAt_zero step hr) rfl
          rw [List.filter_cons_of_pos hkeep, firstStop_cons_of_stop step hr,
            firstStop_cons_of_stop step hr]
      | none =>
          have hrest : ∀ k d r', FirstStopAt step rs (step r s).2 k d → rs[k]? = some r' →
              keep r' = true := fun k d r' hk hr' =>
            hkept (k + 1) d r' (firstStopAt_succ step hr hk) hr'
          rw [firstStop_cons_of_pass step hr]
          cases hkeep : keep r with
          | true =>
              rw [List.filter_cons_of_pos hkeep, firstStop_cons_of_pass step hr]
              exact ih _ hrest
          | false =>
              rw [List.filter_cons_of_neg (by simp [hkeep])]
              rw [hframe r s hkeep] at hrest ⊢
              exact ih s hrest

section First

variable {α β : Type*} {p : α → Prop} {xs : List α} {a b : α}

/-- The first element of a list that has a property. -/
def FirstIn (p : α → Prop) (xs : List α) (a : α) : Prop :=
  ∃ before after, xs = before ++ a :: after ∧ p a ∧ ∀ x ∈ before, ¬ p x

theorem FirstIn.mem (h : FirstIn p xs a) : a ∈ xs := by
  obtain ⟨before, after, rfl, -, -⟩ := h
  exact List.mem_append_right before List.mem_cons_self

theorem FirstIn.holds (h : FirstIn p xs a) : p a := by
  obtain ⟨-, -, -, ha, -⟩ := h
  exact ha

theorem firstIn_cons {x : α} : FirstIn p (x :: xs) a ↔ p x ∧ a = x ∨ ¬ p x ∧ FirstIn p xs a := by
  constructor
  · rintro ⟨before, after, hxs, ha, hbefore⟩
    cases before with
    | nil =>
        obtain ⟨rfl, -⟩ := List.cons.inj hxs
        exact Or.inl ⟨ha, rfl⟩
    | cons y before =>
        obtain ⟨rfl, htail⟩ := List.cons.inj hxs
        refine Or.inr ⟨hbefore x List.mem_cons_self, before, after, htail, ha, fun z hz => ?_⟩
        exact hbefore z (List.mem_cons_of_mem x hz)
  · rintro (⟨hx, rfl⟩ | ⟨hx, before, after, rfl, ha, hbefore⟩)
    · exact ⟨[], xs, rfl, hx, fun z hz => absurd hz List.not_mem_nil⟩
    · refine ⟨x :: before, after, rfl, ha, fun z hz => ?_⟩
      cases List.mem_cons.mp hz with
      | inl hz => rw [hz]; exact hx
      | inr hz => exact hbefore z hz

/-- There is one as soon as any element has the property. -/
theorem exists_firstIn (ha : a ∈ xs) (hp : p a) : ∃ first, FirstIn p xs first := by
  induction xs with
  | nil => exact absurd ha List.not_mem_nil
  | cons x xs ih =>
      by_cases hx : p x
      · exact ⟨x, firstIn_cons.mpr (Or.inl ⟨hx, rfl⟩)⟩
      · cases List.mem_cons.mp ha with
        | inl heq => rw [heq] at hp; exact absurd hp hx
        | inr ha =>
            obtain ⟨first, hfirst⟩ := ih ha
            exact ⟨first, firstIn_cons.mpr (Or.inr ⟨hx, hfirst⟩)⟩

theorem FirstIn.unique (ha : FirstIn p xs a) (hb : FirstIn p xs b) : a = b := by
  induction xs with
  | nil => exact absurd ha.mem List.not_mem_nil
  | cons x xs ih =>
      obtain ⟨hx, rfl⟩ | ⟨hx, ha⟩ := firstIn_cons.mp ha
      · obtain ⟨-, rfl⟩ | ⟨hx', -⟩ := firstIn_cons.mp hb
        · rfl
        · exact absurd hx hx'
      · obtain ⟨hx', -⟩ | ⟨-, hb⟩ := firstIn_cons.mp hb
        · exact absurd hx' hx
        · exact ih ha hb

/-- The search for a value ends there. -/
theorem FirstIn.findSome? {f : α → Option β} (h : FirstIn (fun x => (f x).isSome = true) xs a) :
    xs.findSome? f = f a := by
  obtain ⟨before, after, rfl, ha, hbefore⟩ := h
  have hnone : before.findSome? f = none := by
    rw [List.findSome?_eq_none_iff]
    intro x hx
    exact Option.not_isSome_iff_eq_none.mp (hbefore x hx)
  rw [List.findSome?_append, hnone, Option.none_or, List.findSome?_cons]
  cases hf : f a with
  | none => rw [hf] at ha; exact absurd ha (by simp)
  | some b => rfl

theorem FirstIn.find? {q : α → Bool} (h : FirstIn (fun x => q x = true) xs a) :
    xs.find? q = some a := by
  obtain ⟨before, after, rfl, ha, hbefore⟩ := h
  rw [List.find?_eq_some_iff_append]
  exact ⟨ha, before, after, rfl, fun x hx => by simpa using hbefore x hx⟩

end First

end DockerProxy.Lib
