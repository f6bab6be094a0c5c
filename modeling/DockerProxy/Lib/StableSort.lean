/-
  DockerProxy.Lib.StableSort — what a stable sort forgets.

  A list is put in descending order of a key, and elements of one key stay in the
  order they had.  Such a sort forgets only how elements of different keys stood to
  each other:

    • `Reordered.filter_eq` — a reordering that keeps equal keys in order keeps the
      elements of each key, as a list;
    • `eq_of_descending` — a descending list is determined by those lists;
    • `Reordered.sort_eq` — so the sorted lists are equal.
-/
import Mathlib.Data.List.FinRange
import Mathlib.Data.List.Sort

namespace DockerProxy.Lib

variable {α κ : Type*}

/-! ## §1. Reorderings. -/

/-- **`l'` is `l` in another order, with elements of equal keys in the order they had.** -/
def Reordered (key : α → κ) (l l' : List α) : Prop :=
  ∃ σ : Fin l.length ≃ Fin l'.length,
    (∀ i, l'.get (σ i) = l.get i) ∧ ∀ i j, i < j → key (l.get i) = key (l.get j) → σ i < σ j

section

variable [DecidableEq κ] (key : α → κ)

/-- The elements of one key, in order. -/
def ofKey (k : κ) (l : List α) : List α := l.filter fun a => decide (key a = k)

/-- The positions of the elements of one key, in order. -/
def positions (k : κ) (l : List α) : List (Fin l.length) :=
  (List.finRange l.length).filter fun i => decide (key (l.get i) = k)

variable {key}

theorem mem_ofKey {k : κ} {l : List α} {a : α} : a ∈ ofKey key k l ↔ a ∈ l ∧ key a = k := by
  unfold ofKey
  rw [List.mem_filter, decide_eq_true_iff]

theorem mem_positions {k : κ} {l : List α} {i : Fin l.length} :
    i ∈ positions key k l ↔ key (l.get i) = k := by
  unfold positions
  rw [List.mem_filter, decide_eq_true_iff]
  exact and_iff_right (List.mem_finRange i)

/-- Positions are listed from left to right. -/
theorem pairwise_positions (k : κ) (l : List α) : (positions key k l).Pairwise (· < ·) :=
  (List.pairwise_lt_finRange l.length).filter _

/-- The elements of a key are what stands at its positions. -/
theorem map_positions (k : κ) (l : List α) : (positions key k l).map l.get = ofKey key k l := by
  unfold positions ofKey
  conv_rhs => rw [← List.map_get_finRange l, List.filter_map]
  rfl

/-- **A reordering that keeps equal keys in order keeps the elements of each key.** -/
theorem Reordered.filter_eq {l l' : List α} (h : Reordered key l l') (k : κ) :
    ofKey key k l = ofKey key k l' := by
  obtain ⟨σ, hget, horder⟩ := h
  -- the positions of the key are moved in order, onto all its new positions
  have hmoved : ((positions key k l).map σ).Pairwise (· < ·) := by
    rw [List.pairwise_map]
    refine (pairwise_positions k l).imp_of_mem fun {i j} hi hj hlt => ?_
    exact horder i j hlt ((mem_positions.mp hi).trans (mem_positions.mp hj).symm)
  have hpositions : (positions key k l).map σ = positions key k l' := by
    refine hmoved.eq_of_mem_iff (pairwise_positions k l') fun j => ?_
    rw [List.mem_map, mem_positions]
    constructor
    · rintro ⟨i, hi, rfl⟩
      rw [hget]
      exact mem_positions.mp hi
    · intro hj
      refine ⟨σ.symm j, mem_positions.mpr ?_, σ.apply_symm_apply j⟩
      rw [← hget, σ.apply_symm_apply]
      exact hj
  calc ofKey key k l
      = (positions key k l).map l.get := (map_positions k l).symm
    _ = (positions key k l).map (l'.get ∘ σ) := List.map_congr_left fun i _ => (hget i).symm
    _ = ((positions key k l).map σ).map l'.get := List.map_map.symm
    _ = ofKey key k l' := by rw [hpositions, map_positions]

theorem ofKey_cons_self (a : α) (l : List α) :
    ofKey key (key a) (a :: l) = a :: ofKey key (key a) l :=
  List.filter_cons_of_pos (decide_eq_true rfl)

/-- Lists with one head and the same elements of each key have tails that do. -/
theorem ofKey_tail_eq {a : α} {l l' : List α}
    (h : ∀ k, ofKey key k (a :: l) = ofKey key k (a :: l')) (k : κ) :
    ofKey key k l = ofKey key k l' := by
  have hk := h k
  by_cases ha : key a = k
  · rw [← ha, ofKey_cons_self, ofKey_cons_self] at hk
    rw [← ha]
    exact List.tail_eq_of_cons_eq hk
  · unfold ofKey at hk ⊢
    rwa [List.filter_cons_of_neg (by simpa using ha),
      List.filter_cons_of_neg (by simpa using ha)] at hk

end

/-! ## §2. Sorting. -/

section

variable [LinearOrder κ] {key : α → κ}

/-- **A descending list is determined by the elements of each key.** -/
theorem eq_of_descending : ∀ {l l' : List α}, l.Pairwise (fun a b => key b ≤ key a) →
    l'.Pairwise (fun a b => key b ≤ key a) → (∀ k, ofKey key k l = ofKey key k l') → l = l' := by
  intro l
  induction l with
  | nil =>
      intro l' _ _ h
      cases l' with
      | nil => rfl
      | cons b l' =>
          have hb := h (key b)
          rw [ofKey_cons_self] at hb
          exact absurd hb (by simp [ofKey])
  | cons a l ih =>
      intro l' hl hl' h
      have ha : a ∈ ofKey key (key a) l' := by
        rw [← h, ofKey_cons_self]
        exact List.mem_cons_self
      cases l' with
      | nil => exact absurd ha (by simp [ofKey])
      | cons b l' =>
          have hb : b ∈ ofKey key (key b) (a :: l) := by
            rw [h, ofKey_cons_self]
            exact List.mem_cons_self
          rw [List.pairwise_cons] at hl hl'
          -- each head is in the other list, so neither key is the smaller one
          have hle : key a ≤ key b := by
            cases List.mem_cons.mp (mem_ofKey.mp ha).1 with
            | inl heq => rw [heq]
            | inr hmem => exact hl'.1 a hmem
          have hge : key b ≤ key a := by
            cases List.mem_cons.mp (mem_ofKey.mp hb).1 with
            | inl heq => rw [heq]
            | inr hmem => exact hl.1 b hmem
          have hkey : key a = key b := le_antisymm hle hge
          have hhead := h (key a)
          rw [ofKey_cons_self, hkey, ofKey_cons_self] at hhead
          obtain rfl := List.head_eq_of_cons_eq hhead
          rw [ih hl.2 hl'.2 (ofKey_tail_eq h)]

/-- **Insertion sort is stable**: it keeps the elements of each key in order. -/
theorem ofKey_insertionSort {r : α → α → Prop} [DecidableRel r]
    (hr : ∀ a b, r a b ↔ key b ≤ key a) (k : κ) (l : List α) :
    ofKey key k (l.insertionSort r) = ofKey key k l := by
  have hsorted : (ofKey key k l).Pairwise r := by
    refine List.pairwise_of_forall_mem_list fun a ha b hb => (hr a b).mpr ?_
    exact ((mem_ofKey.mp hb).2.trans (mem_ofKey.mp ha).2.symm).le
  have hsub : (ofKey key k l).Sublist (l.insertionSort r) :=
    List.sublist_insertionSort hsorted List.filter_sublist
  have hfilter : (ofKey key k l).Sublist (ofKey key k (l.insertionSort r)) := by
    have hagain := hsub.filter fun a => decide (key a = k)
    unfold ofKey at hagain ⊢
    simpa only [List.filter_filter, Bool.and_self] using hagain
  have hlength : (ofKey key k (l.insertionSort r)).length = (ofKey key k l).length :=
    ((List.perm_insertionSort r l).filter _).length_eq
  exact (hfilter.eq_of_length hlength.symm).symm

/-- The sorted list is descending. -/
theorem descending_insertionSort {r : α → α → Prop} [DecidableRel r]
    (hr : ∀ a b, r a b ↔ key b ≤ key a) (l : List α) :
    (l.insertionSort r).Pairwise fun a b => key b ≤ key a := by
  have htotal : Std.Total r :=
    ⟨fun a b => (le_total (key b) (key a)).imp (hr a b).mpr (hr b a).mpr⟩
  have htrans : IsTrans α r :=
    ⟨fun a b c hab hbc => (hr a c).mpr (le_trans ((hr b c).mp hbc) ((hr a b).mp hab))⟩
  exact (List.pairwise_insertionSort r l).imp fun {a b} hab => (hr a b).mp hab

/-- **Sorting forgets a reordering that keeps equal keys in order.** -/
theorem Reordered.sort_eq {r : α → α → Prop} [DecidableRel r]
    (hr : ∀ a b, r a b ↔ key b ≤ key a) {l l' : List α} (h : Reordered key l l') :
    l.insertionSort r = l'.insertionSort r := by
  refine eq_of_descending (descending_insertionSort hr l) (descending_insertionSort hr l') ?_
  intro k
  rw [ofKey_insertionSort hr, ofKey_insertionSort hr]
  exact h.filter_eq k

end

end DockerProxy.Lib
