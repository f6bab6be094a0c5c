/-
  DockerProxy.Lib.Pruning — edits that only take away.

  An edit that writes a leaf, or that cuts a location off, opens no way through a
  tree.  With `T` the segments that paths are made of and `C` the children that are cut
  off, that means: the segments step on no label that is written, and to no child of
  `C` that is gone.  Then a path names after the edit only what it named before
  (`Prunes.back`), and it still names that where any path leads there (`Prunes.stays`).

    • `edit_of_unrelated` — an edit leaves what is neither above nor below it,
    • `prunes_runEdits` — a list of such edits prunes,
    • `runEdits_of_unrelated` — it leaves what is unrelated to all the locations that
      its paths name in the beginning,
    • `runEdits_idempotent` — it changes nothing in its own result.
-/
import DockerProxy.Lib.Views

namespace DockerProxy.Lib

variable {σ S : Type*} {erase : S → σ → S}

/-! ## §1. The nodes above a location. -/

/-- A path steps at every node above the location that it names. -/
theorem exists_step_of_resolve (path : List (Segment erase)) :
    ∀ {V : View σ S} {p q : List σ}, resolve path V = some q → p <+: q → p ≠ q →
      ∃ seg ∈ path, ∃ s st, V p = some s ∧ seg.step s = some st := by
  induction path with
  | nil =>
      intro V p q h hp hne
      obtain rfl := Option.some.inj h
      exact absurd (List.prefix_nil.mp hp) hne
  | cons seg path ih =>
      intro V p q h hp hne
      obtain ⟨s, st, q', hs, hstep, hq', rfl⟩ := resolve_cons_eq_some.mp h
      cases p with
      | nil => exact ⟨seg, List.mem_cons_self, s, st, hs, hstep⟩
      | cons st' p =>
          obtain ⟨rfl, htail⟩ := List.cons_prefix_cons.mp hp
          have hne : p ≠ q' := fun heq => hne (by rw [heq])
          obtain ⟨seg', hseg', s', st'', hs', hstep'⟩ := ih hq' htail hne
          exact ⟨seg', List.mem_cons_of_mem seg hseg', s', st'', hs', hstep'⟩

theorem resolve_ne_nil {path : List (Segment erase)} {V : View σ S} {q : List σ}
    (hpath : path ≠ []) (h : resolve path V = some q) : q ≠ [] := by
  obtain ⟨seg, rest, rfl⟩ := List.exists_cons_of_ne_nil hpath
  obtain ⟨-, st, q', -, -, -, rfl⟩ := resolve_cons_eq_some.mp h
  exact List.cons_ne_nil st q'

/-- Segments that step at least where others do name at least what those name. -/
theorem resolve_map_mono {ι : Type*} {f g : ι → Segment erase}
    (h : ∀ x s st, (f x).step s = some st → (g x).step s = some st) (xs : List ι) :
    ∀ {V : View σ S} {q : List σ}, resolve (xs.map f) V = some q →
      resolve (xs.map g) V = some q := by
  induction xs with
  | nil => intro V q hq; exact hq
  | cons x xs ih =>
      intro V q hq
      obtain ⟨s, st, q', hs, hstep, hq', rfl⟩ := resolve_cons_eq_some.mp hq
      exact resolve_cons_eq_some.mpr ⟨s, st, q', hs, h x s st hstep, ih hq', rfl⟩

section

variable [DecidableEq σ] {new : Option (View σ S)}

/-- The root after an edit below it: the same, or without a child. -/
theorem edit_root_cases (st : σ) (q : List σ) (V : View σ S) :
    edit erase new (st :: q) V [] = V [] ∨
      (q = [] ∧ new = none) ∧ edit erase new (st :: q) V [] = (V []).map (erase · st) := by
  unfold edit
  split
  next h =>
    rw [Bool.and_eq_true, List.isEmpty_iff, Option.isNone_iff_eq_none] at h
    exact Or.inr ⟨h, rfl⟩
  next => exact Or.inl rfl

/-- What is not at or below an edit: the same, or without a child. -/
theorem edit_of_uncovered (q : List σ) : ∀ {V : View σ S} {loc : List σ}, ¬ q <+: loc →
    edit erase new q V loc = V loc ∨ ∃ st, edit erase new q V loc = (V loc).map (erase · st) := by
  induction q with
  | nil => intro V loc h; exact absurd List.nil_prefix h
  | cons st q ih =>
      intro V loc h
      cases loc with
      | nil => exact (edit_root_cases st q V).imp_right fun ⟨_, herased⟩ => ⟨st, herased⟩
      | cons st' loc =>
          by_cases hst : st' = st
          · rw [hst] at h ⊢
            show (edit erase new (st :: q) V).below [st] loc = V.below [st] loc ∨
              ∃ st', (edit erase new (st :: q) V).below [st] loc =
                (V.below [st] loc).map (erase · st')
            rw [edit_below_self]
            exact ih fun hp => h (List.cons_prefix_cons.mpr ⟨rfl, hp⟩)
          · exact Or.inl (congrFun (edit_below_of_ne hst q V) loc)

/-- **What is neither above nor below an edit** stays. -/
theorem edit_of_unrelated (q : List σ) : ∀ {V : View σ S} {loc : List σ}, ¬ q <+: loc →
    ¬ loc <+: q → edit erase new q V loc = V loc := by
  induction q with
  | nil => intro V loc h _; exact absurd List.nil_prefix h
  | cons st q ih =>
      intro V loc h h'
      cases loc with
      | nil => exact absurd List.nil_prefix h'
      | cons st' loc =>
          by_cases hst : st' = st
          · rw [hst] at h h' ⊢
            show (edit erase new (st :: q) V).below [st] loc = V.below [st] loc
            rw [edit_below_self]
            refine ih (fun hp => h ?_) (fun hp => h' ?_)
            · exact List.cons_prefix_cons.mpr ⟨rfl, hp⟩
            · exact List.cons_prefix_cons.mpr ⟨rfl, hp⟩
          · exact congrFun (edit_below_of_ne hst q V) loc

/-- What is not at or below a location stays when something is written there. -/
theorem edit_write_of_uncovered {N : View σ S} (q : List σ) :
    ∀ {V : View σ S} {loc : List σ}, ¬ q <+: loc → edit erase (some N) q V loc = V loc := by
  induction q with
  | nil => intro V loc h; exact absurd List.nil_prefix h
  | cons st q ih =>
      intro V loc h
      cases loc with
      | nil => exact edit_root_of_append (Or.inr rfl)
      | cons st' loc =>
          by_cases hst : st' = st
          · rw [hst] at h ⊢
            show (edit erase (some N) (st :: q) V).below [st] loc = V.below [st] loc
            rw [edit_below_self]
            exact ih fun hp => h (List.cons_prefix_cons.mpr ⟨rfl, hp⟩)
          · exact congrFun (edit_below_of_ne hst q V) loc

end

/-! ## §2. Taking away. -/

section

variable (T : Set (Segment erase)) (C : Set σ)

/-- A path of these segments. -/
def Within (path : List (Segment erase)) : Prop := ∀ seg ∈ path, seg ∈ T

/-- The segments step on no label of the tree. -/
def Unsteppable (N : View σ S) : Prop :=
  ∀ seg ∈ T, ∀ loc s, N loc = some s → seg.step s = none

/-- Where a child of `C` is cut off, the segments do not step to it, and otherwise as
before. -/
def CutsOff : Prop :=
  ∀ seg ∈ T, ∀ s st, ∀ st' ∈ C, seg.step (erase s st') = some st → seg.step s = some st ∧ st ≠ st'

/-- An edit at the location cuts off a child of `C`, if it cuts. -/
def CutsIn (new : Option (View σ S)) (q₀ : List σ) : Prop :=
  new = none → ∀ q st, q₀ = q ++ [st] → st ∈ C

/-- **The edit only takes away**: it writes a leaf, or cuts off a child of `C`. -/
structure Edit.TakesAway (e : Edit σ S erase) : Prop where
  ne_nil : e.path ≠ []
  within : Within T e.path
  leaf : ∀ N, e.new = some N → Unsteppable T N
  cuts : ∀ V q, resolve e.path V = some q → CutsIn C e.new q

/-- Some path leads to the location. -/
def Reaches (V : View σ S) (q : List σ) : Prop := ∃ path, Within T path ∧ resolve path V = some q

/-- **`W` is `V` with something taken away**, as far as paths see it. -/
structure Prunes (V W : View σ S) : Prop where
  back : ∀ path q, Within T path → resolve path W = some q → resolve path V = some q
  stays : ∀ path q, Within T path → resolve path V = some q → Reaches T W q →
    resolve path W = some q

end

variable {T : Set (Segment erase)} {C : Set σ}

theorem Within.tail {seg : Segment erase} {path : List (Segment erase)}
    (h : Within T (seg :: path)) : Within T path :=
  fun seg' hseg' => h seg' (List.mem_cons_of_mem seg hseg')

theorem Prunes.refl (V : View σ S) : Prunes T V V :=
  ⟨fun _ _ _ h => h, fun _ _ _ h _ => h⟩

theorem Prunes.trans {V W X : View σ S} (h : Prunes T V W) (h' : Prunes T W X) :
    Prunes T V X := by
  refine ⟨fun path q hT hX => ?_, fun path q hT hV hreach => ?_⟩
  · exact h.back path q hT (h'.back path q hT hX)
  · obtain ⟨path', hT', hX⟩ := hreach
    exact h'.stays path q hT (h.stays path q hT hV ⟨path', hT', h'.back path' q hT' hX⟩)
      ⟨path', hT', hX⟩

variable {new : Option (View σ S)}

theorem CutsIn.tail {st : σ} {q : List σ} (h : CutsIn C new (st :: q)) : CutsIn C new q :=
  fun hnone q' st' hq => h hnone (st :: q') st' (by rw [hq]; rfl)

variable [DecidableEq σ]

/-- The first step after an edit is a first step of before, and not where it cuts. -/
theorem step_of_edit_root (hcut : CutsOff T C) (hnew : ∀ N, new = some N → Unsteppable T N)
    {q₀ : List σ} (hin : CutsIn C new q₀) {V : View σ S} {seg : Segment erase} (hseg : seg ∈ T)
    {s : S} {st : σ}
    (hs : edit erase new q₀ V [] = some s) (hstep : seg.step s = some st) :
    ∃ st₀ q s', q₀ = st₀ :: q ∧ V [] = some s' ∧ seg.step s' = some st ∧
      (s = s' ∨ s = erase s' st₀ ∧ st ≠ st₀) ∧ (q = [] → new = none → st ≠ st₀) := by
  cases q₀ with
  | nil =>
      obtain ⟨N, hN, hroot⟩ := Option.bind_eq_some_iff.mp hs
      exact absurd ((hnew N hN seg hseg [] s hroot).symm.trans hstep) (by simp)
  | cons st₀ q =>
      obtain hsame | ⟨hend, herased⟩ := @edit_root_cases _ _ erase _ new st₀ q V
      · -- where the root is as before, the edit does not end in cutting this child off
        refine ⟨st₀, q, s, rfl, hsame.symm.trans hs, hstep, Or.inl rfl, fun hq hnone => ?_⟩
        have hmap : edit erase new (st₀ :: q) V [] = (V []).map (erase · st₀) := by
          rw [hq, hnone]
          rfl
        obtain ⟨s', -, hs'⟩ := Option.map_eq_some_iff.mp (hmap.symm.trans hs)
        rw [← hs'] at hstep
        exact (hcut seg hseg s' st st₀ (hin hnone [] st₀ (by rw [hq]; rfl)) hstep).2
      · obtain ⟨s', hs', rfl⟩ := Option.map_eq_some_iff.mp (herased.symm.trans hs)
        have hC : st₀ ∈ C := hin hend.2 [] st₀ (by rw [hend.1]; rfl)
        obtain ⟨hstep', hne⟩ := hcut seg hseg s' st st₀ hC hstep
        exact ⟨st₀, q, s', rfl, hs', hstep', Or.inr ⟨rfl, hne⟩, fun _ _ => hne⟩

/-- **A path names after the edit only what it named before.** -/
theorem resolve_of_edit (hcut : CutsOff T C) (hnew : ∀ N, new = some N → Unsteppable T N)
    (path : List (Segment erase)) : ∀ {V : View σ S} {q₀ q : List σ}, CutsIn C new q₀ →
      Within T path → resolve path (edit erase new q₀ V) = some q → resolve path V = some q := by
  induction path with
  | nil => intro V q₀ q _ _ h; exact h
  | cons seg path ih =>
      intro V q₀ q hin hT h
      obtain ⟨s, st, q', hs, hstep, hq', rfl⟩ := resolve_cons_eq_some.mp h
      obtain ⟨st₀, q₁, s', rfl, hV, hstep', -, -⟩ :=
        step_of_edit_root hcut hnew hin (hT seg List.mem_cons_self) hs hstep
      refine resolve_cons_eq_some.mpr ⟨s', st, q', hV, hstep', ?_, rfl⟩
      by_cases hst : st = st₀
      · rw [hst, edit_below_self] at hq'
        rw [hst]
        exact ih hin.tail hT.tail hq'
      · rwa [edit_below_of_ne hst] at hq'

/-- **A path still names after the edit what it named before**, where any path leads. -/
theorem resolve_edit_of_reaches (hcut : CutsOff T C)
    (hnew : ∀ N, new = some N → Unsteppable T N) (path : List (Segment erase)) :
    ∀ {V : View σ S} {q₀ q : List σ} {path' : List (Segment erase)}, CutsIn C new q₀ →
      Within T path' → resolve path V = some q →
        resolve path' (edit erase new q₀ V) = some q →
          resolve path (edit erase new q₀ V) = some q := by
  induction path with
  | nil => intro V q₀ q path' _ _ h _; exact h
  | cons seg path ih =>
      intro V q₀ q path' hin hT' h h'
      obtain ⟨s, st, q', hs, hstep, hq', rfl⟩ := resolve_cons_eq_some.mp h
      cases path' with
      | nil => exact absurd (Option.some.inj h') (List.cons_ne_nil st q').symm
      | cons seg' path' =>
          obtain ⟨t, st', q'', ht, hstep', hq'', heq⟩ := resolve_cons_eq_some.mp h'
          obtain ⟨rfl, rfl⟩ := List.cons.inj heq
          obtain ⟨st₀, q₁, s', rfl, hV, -, ht', -⟩ :=
            step_of_edit_root hcut hnew hin (hT' seg' List.mem_cons_self) ht hstep'
          obtain rfl := Option.some.inj (hV.symm.trans hs)
          have hroot : seg.step t = some st := by
            obtain rfl | ⟨rfl, hne⟩ := ht'
            · exact hstep
            · exact seg.step_erase hstep hne
          refine resolve_cons_eq_some.mpr ⟨t, st, q', ht, hroot, ?_, rfl⟩
          by_cases hst : st = st₀
          · rw [hst, edit_below_self] at hq'' ⊢
            rw [hst] at hq'
            exact ih hin.tail hT'.tail hq' hq''
          · rw [edit_below_of_ne hst]
            exact hq'

/-- **No path leads below an edit**, nor to what it cuts off. -/
theorem eq_of_resolve_edit (hcut : CutsOff T C) (hnew : ∀ N, new = some N → Unsteppable T N)
    (path : List (Segment erase)) : ∀ {V : View σ S} {q₀ q : List σ}, CutsIn C new q₀ →
      Within T path → resolve path (edit erase new q₀ V) = some q → q₀ <+: q →
        q₀ = q ∧ (new.isSome = true ∨ q = []) := by
  induction path with
  | nil =>
      intro V q₀ q _ _ h hp
      obtain rfl := Option.some.inj h
      exact ⟨List.prefix_nil.mp hp, Or.inr rfl⟩
  | cons seg path ih =>
      intro V q₀ q hin hT h hp
      obtain ⟨s, st, q', hs, hstep, hq', rfl⟩ := resolve_cons_eq_some.mp h
      obtain ⟨st₀, q₁, s', rfl, -, -, -, hend⟩ :=
        step_of_edit_root hcut hnew hin (hT seg List.mem_cons_self) hs hstep
      obtain ⟨rfl, htail⟩ := List.cons_prefix_cons.mp hp
      rw [edit_below_self] at hq'
      obtain ⟨rfl, hsome | hnil⟩ := ih hin.tail hT.tail hq' htail
      · exact ⟨rfl, Or.inl hsome⟩
      · refine ⟨rfl, Or.inl ?_⟩
        cases hnew' : new with
        | none => exact absurd rfl (hend hnil hnew')
        | some N => rfl

/-! ## §3. Runs. -/

variable {e : Edit σ S erase} {edits : List (Edit σ S erase)}

/-- **One edit prunes.** -/
theorem prunes_run (hcut : CutsOff T C) (he : e.TakesAway T C) (V : View σ S) :
    Prunes T V (e.run V) := by
  cases hq : resolve e.path V with
  | none =>
      rw [Edit.run_of_none hq]
      exact Prunes.refl V
  | some q₀ =>
      rw [Edit.run_of_some hq]
      have hin := he.cuts V q₀ hq
      refine ⟨fun path q hT => resolve_of_edit hcut he.leaf path hin hT,
        fun path q _ h hreach => ?_⟩
      obtain ⟨path', hT', h'⟩ := hreach
      exact resolve_edit_of_reaches hcut he.leaf path hin hT' h h'

/-- **The edits prune.** -/
theorem prunes_runEdits (hcut : CutsOff T C) (edits : List (Edit σ S erase)) :
    (∀ e ∈ edits, e.TakesAway T C) → ∀ V : View σ S, Prunes T V (runEdits edits V) := by
  induction edits with
  | nil => intro _ V; exact Prunes.refl V
  | cons e edits ih =>
      intro htake V
      have hfirst := prunes_run hcut (htake e List.mem_cons_self) V
      exact hfirst.trans (ih (fun e' he' => htake e' (List.mem_cons_of_mem e he')) (e.run V))

/-- **What is unrelated to all that is named in the beginning** stays. -/
theorem runEdits_of_unrelated (hcut : CutsOff T C) (edits : List (Edit σ S erase)) :
    (∀ e ∈ edits, e.TakesAway T C) → ∀ {V : View σ S} {loc : List σ},
      (∀ e ∈ edits, ∀ q, resolve e.path V = some q → ¬ q <+: loc ∧ ¬ loc <+: q) →
        runEdits edits V loc = V loc := by
  induction edits with
  | nil => intro _ V loc _; rfl
  | cons e edits ih =>
      intro htake V loc hloc
      have he := htake e List.mem_cons_self
      have hrun : e.run V loc = V loc := by
        cases hq : resolve e.path V with
        | none => rw [Edit.run_of_none hq]
        | some q =>
            obtain ⟨hbelow, habove⟩ := hloc e List.mem_cons_self q hq
            rw [Edit.run_of_some hq]
            exact edit_of_unrelated q hbelow habove
      rw [← hrun]
      -- what a later edit names after this one, it has named before
      refine ih (fun e' he' => htake e' (List.mem_cons_of_mem e he')) fun e' he' q hq => ?_
      have he'T := htake e' (List.mem_cons_of_mem e he')
      exact hloc e' (List.mem_cons_of_mem e he') q
        ((prunes_run hcut he V).back e'.path q he'T.within hq)

/-- A leaf that is still reached in the end is there in the end, or a later edit names
its location. -/
theorem below_or_named (hcut : CutsOff T C) {N : View σ S} (hN : Unsteppable T N)
    (edits : List (Edit σ S erase)) : (∀ e ∈ edits, e.TakesAway T C) →
      ∀ {V : View σ S} {q : List σ}, V.below q = N → Reaches T (runEdits edits V) q →
        (runEdits edits V).below q = N ∨
          ∃ e ∈ edits, resolve e.path (runEdits edits V) = some q := by
  induction edits with
  | nil => intro _ V q h _; exact Or.inl h
  | cons e edits ih =>
      intro htake V q hleaf hreach
      have he := htake e List.mem_cons_self
      have hrest : ∀ e' ∈ edits, e'.TakesAway T C := fun e' he' =>
        htake e' (List.mem_cons_of_mem e he')
      have hfinal := prunes_runEdits hcut edits hrest (e.run V)
      -- it is enough that this edit leaves the leaf, or names its location
      suffices h : (e.run V).below q = N ∨ resolve e.path V = some q by
        cases h with
        | inl hbelow =>
            refine (ih hrest hbelow hreach).imp_right fun ⟨e', he', hnamed⟩ => ?_
            exact ⟨e', List.mem_cons_of_mem e he', hnamed⟩
        | inr hnamed =>
            have hall := prunes_runEdits hcut (e :: edits) htake V
            exact Or.inr ⟨e, List.mem_cons_self, hall.stays e.path q he.within hnamed hreach⟩
      cases hm : resolve e.path V with
      | none =>
          rw [Edit.run_of_none hm]
          exact Or.inl hleaf
      | some m =>
          by_cases hmq : m <+: q
          · -- at or above the leaf: nothing below an edit is reached
            obtain ⟨path, hT, hpath⟩ := hreach
            have hback := hfinal.back path q hT hpath
            rw [Edit.run_of_some hm] at hback
            obtain ⟨rfl, -⟩ := eq_of_resolve_edit hcut he.leaf path (he.cuts V m hm) hT hback hmq
            exact Or.inr rfl
          · by_cases hqm : q <+: m
            · -- below the leaf: the path would step on it
              have hne : q ≠ m := fun heq => hmq (by rw [heq])
              obtain ⟨seg, hseg, s, st, hs, hstep⟩ := exists_step_of_resolve e.path hm hqm hne
              have hroot : N [] = some s := by
                rw [← hleaf, ← hs]
                show V (q ++ []) = V q
                rw [List.append_nil]
              exact absurd ((hN seg (he.within seg hseg) [] s hroot).symm.trans hstep) (by simp)
            · refine Or.inl ?_
              rw [← hleaf, Edit.run_of_some hm]
              funext loc
              show edit erase e.new m V (q ++ loc) = V (q ++ loc)
              refine edit_of_unrelated m (fun hp => ?_) fun hp => hqm ?_
              · -- two prefixes of one location are related
                cases List.prefix_or_prefix_of_prefix hp (List.prefix_append q loc) with
                | inl h => exact hmq h
                | inr h => exact hqm h
              · exact (List.prefix_append q loc).trans hp

/-- Making the first edit over again in the result changes nothing that the others do not
write. -/
theorem runEdits_run_result (hcut : CutsOff T C) (he : e.TakesAway T C)
    (htake : ∀ e' ∈ edits, e'.TakesAway T C) {V F : View σ S}
    (hF : runEdits edits (e.run V) = F) : runEdits edits (e.run F) = runEdits edits F := by
  have hfinal := prunes_runEdits hcut edits htake (e.run V)
  rw [hF] at hfinal
  cases hq : resolve e.path F with
  | none => rw [Edit.run_of_none hq]
  | some q =>
      -- the edit has named this location at its first turn already
      have hfirst := hfinal.back e.path q he.within hq
      have hV := (prunes_run hcut he V).back e.path q he.within hfirst
      have hrunV := Edit.run_of_some (e := e) hV
      rw [hrunV] at hfirst
      obtain ⟨-, hnew | hnil⟩ :=
        eq_of_resolve_edit hcut he.leaf e.path (he.cuts V q hV) he.within hfirst List.prefix_rfl
      · obtain ⟨N, hN⟩ := Option.isSome_iff_exists.mp hnew
        have hleaf : (e.run V).below q = N := by
          funext loc
          show e.run V (q ++ loc) = N loc
          rw [hrunV, edit_of_covered q (List.prefix_append q loc), hN, Option.bind_some,
            List.drop_left]
        have hrun : e.run F = edit erase (some N) q F := by rw [Edit.run_of_some hq, hN]
        have hcases := below_or_named hcut (he.leaf N hN) edits htake hleaf
          (by rw [hF]; exact ⟨e.path, he.within, hq⟩)
        rw [hF] at hcases
        obtain hsame | ⟨e', he', hnamed⟩ := hcases
        · -- the leaf is still there
          rw [hrun, ← hsame, edit_self]
        · -- a later edit names the location in both trees, and they agree outside of it
          have hnamed' : resolve e'.path (e.run F) = some q := by
            refine resolve_congr e'.path hnamed fun p hp hne => ?_
            rw [hrun]
            refine (edit_write_of_uncovered q fun hqp => hne ?_).symm
            exact hp.eq_of_length_le hqp.length_le
          refine runEdits_eq edits fun loc hloc => ?_
          rw [hrun]
          exact edit_write_of_uncovered q (hloc q ⟨e', he', hnamed', hnamed⟩)
      · exact absurd hnil (resolve_ne_nil he.ne_nil hV)

/-- **Edits that only take away change nothing in their own result.** -/
theorem runEdits_idempotent (hcut : CutsOff T C) (edits : List (Edit σ S erase)) :
    (∀ e ∈ edits, e.TakesAway T C) → ∀ V : View σ S,
      runEdits edits (runEdits edits V) = runEdits edits V := by
  induction edits with
  | nil => intro _ V; rfl
  | cons e edits ih =>
      intro htake V
      have hrest : ∀ e' ∈ edits, e'.TakesAway T C := fun e' he' =>
        htake e' (List.mem_cons_of_mem e he')
      calc runEdits (e :: edits) (runEdits (e :: edits) V)
          = runEdits edits (e.run (runEdits edits (e.run V))) := rfl
        _ = runEdits edits (runEdits edits (e.run V)) :=
            runEdits_run_result hcut (htake e List.mem_cons_self) hrest rfl
        _ = runEdits edits (e.run V) := ih hrest (e.run V)
        _ = runEdits (e :: edits) V := rfl

end DockerProxy.Lib
