/-
  DockerProxy.Lib.Eviction — a table, and what is left of it after evictions.

  `Evicted stale full part` says that `part` is `full` without some of its stale
  entries.  Writing, erasing and evicting more keep this, and what is left is no
  larger than the whole.
-/
import Std.Data.ExtTreeMap.Lemmas
import Mathlib.Data.List.Perm.Subperm

namespace DockerProxy.Lib

variable {α β : Type*} [Ord α] [Std.TransOrd α]

/-- **`part` is `full` without some stale entries.** -/
def Evicted (stale : β → Prop) (full part : Std.ExtTreeMap α β) : Prop :=
  ∀ key : α, part[key]? = full[key]? ∨
    (part[key]? = none ∧ ∃ b, full[key]? = some b ∧ stale b)

namespace Evicted

variable {stale : β → Prop} {full part : Std.ExtTreeMap α β}

theorem refl (stale : β → Prop) (t : Std.ExtTreeMap α β) : Evicted stale t t := fun _ => Or.inl rfl

/-- What is stale may become more. -/
theorem mono {stale' : β → Prop} (h : Evicted stale full part) (hstale : ∀ b, stale b → stale' b) :
    Evicted stale' full part := fun key =>
  (h key).imp_right fun ⟨hnone, b, hb, hs⟩ => ⟨hnone, b, hb, hstale b hs⟩

/-- Writing the same entry into both. -/
theorem insert (h : Evicted stale full part) (key : α) (b : β) :
    Evicted stale (full.insert key b) (part.insert key b) := by
  intro other
  rw [Std.ExtTreeMap.getElem?_insert, Std.ExtTreeMap.getElem?_insert]
  split
  · exact Or.inl rfl
  · exact h other

/-- Erasing an entry from both. -/
theorem erase (h : Evicted stale full part) (key : α) :
    Evicted stale (full.erase key) (part.erase key) := by
  intro other
  rw [Std.ExtTreeMap.getElem?_erase, Std.ExtTreeMap.getElem?_erase]
  split
  · exact Or.inl rfl
  · exact h other

/-- What is left has no other keys. -/
theorem mem (h : Evicted stale full part) {key : α} (hkey : key ∈ part) : key ∈ full := by
  rw [← Std.ExtTreeMap.contains_iff_mem, Std.ExtTreeMap.contains_eq_isSome_getElem?] at hkey ⊢
  cases h key with
  | inl hsame => rw [← hsame]; exact hkey
  | inr hgone => rw [hgone.1] at hkey; exact absurd hkey (by simp)

/-- **Evicting more**: what is not kept is stale. -/
theorem filter (h : Evicted stale full part) {keep : β → Bool}
    (hkeep : ∀ (key : α) (b : β), full[key]? = some b → keep b = false → stale b) :
    Evicted stale full (part.filter fun _ b => keep b) := by
  intro key
  rw [Std.ExtTreeMap.getElem?_filter]
  cases h key with
  | inr hgone =>
      rw [hgone.1]
      exact Or.inr ⟨rfl, hgone.2⟩
  | inl hsame =>
      cases hb : full[key]? with
      | none =>
          rw [hsame, hb]
          exact Or.inl rfl
      | some b =>
          rw [hsame, hb]
          cases hkept : keep b with
          | true => exact Or.inl (by simp [Option.pfilter, hkept])
          | false => exact Or.inr ⟨by simp [Option.pfilter, hkept], b, rfl, hkeep key b hb hkept⟩

/-- **What is left is no larger.** -/
theorem size_le [Std.LawfulEqOrd α] (h : Evicted stale full part) : part.size ≤ full.size := by
  rw [← Std.ExtTreeMap.length_keys, ← Std.ExtTreeMap.length_keys]
  have hsub : part.keys ⊆ full.keys := by
    intro key hkey
    rw [Std.ExtTreeMap.mem_keys] at hkey ⊢
    exact h.mem hkey
  exact (List.subperm_of_subset Std.ExtTreeMap.nodup_keys hsub).length_le

end Evicted

end DockerProxy.Lib
