/-
  DockerProxy.Lib.Views — trees seen through their locations, and edits by path.

  A `View` says what stands at each location of a tree, a location being the
  steps that lead there.  A path is a list of segments, each of which names a
  child of the node it is read at; `resolve` finds the location it names.  An
  `Edit` writes a tree at the location of its path, or cuts that location off.
  The facts a client uses:

    • `resolve_congr` — what a path names depends on the nodes above it alone;
    • `resolve_edit` — an edit leaves the paths to locations outside of it;
    • `Edit.run_append` — an edit below a location is one of the subtree there;
    • `runEdits_eq` — two trees that agree outside the locations that the edits
      name in both become the same tree.
-/
import Mathlib.Data.List.Infix
import Mathlib.Order.WellFounded

namespace DockerProxy.Lib

/-! ## §1. Views. -/

/-- What stands at each location of a tree: a label, or nothing. -/
abbrev View (σ S : Type*) := List σ → Option S

variable {σ S : Type*}

/-- The subtree at the location `p`. -/
def View.below (V : View σ S) (p : List σ) : View σ S := fun loc => V (p ++ loc)

theorem View.below_cons (V : View σ S) (st : σ) (p : List σ) :
    V.below (st :: p) = (V.below [st]).below p := rfl

/-- All labels of the tree satisfy `P`. -/
def View.All (P : S → Prop) (V : View σ S) : Prop := ∀ loc s, V loc = some s → P s

/-- A segment of a path: the step it names at a node.  `erase s st` is the node
without its child at `st`; that no other name changes is part of the segment. -/
structure Segment (erase : S → σ → S) where
  step : S → Option σ
  step_erase : ∀ {s : S} {st st' : σ}, step s = some st → st ≠ st' →
    step (erase s st') = some st

/-- **An edit by path**: what it names gets `new`, or is cut off. -/
structure Edit (σ S : Type*) (erase : S → σ → S) where
  path : List (Segment erase)
  new : Option (View σ S)

variable {erase : S → σ → S}

/-- The location that a path names. -/
def resolve : List (Segment erase) → View σ S → Option (List σ)
  | [], _ => some []
  | seg :: path, V =>
      ((V []).bind seg.step).bind fun st => (resolve path (V.below [st])).map (st :: ·)

theorem resolve_cons (seg : Segment erase) (path : List (Segment erase)) (V : View σ S) :
    resolve (seg :: path) V =
      ((V []).bind seg.step).bind fun st => (resolve path (V.below [st])).map (st :: ·) := rfl

theorem resolve_cons_eq_some {seg : Segment erase} {path : List (Segment erase)} {V : View σ S}
    {q : List σ} : resolve (seg :: path) V = some q ↔ ∃ s st q', V [] = some s ∧
      seg.step s = some st ∧ resolve path (V.below [st]) = some q' ∧ q = st :: q' := by
  rw [resolve_cons]
  refine Iff.intro (fun h => ?_) (fun h => ?_)
  · obtain ⟨st, hst, hq⟩ := Option.bind_eq_some_iff.mp h
    obtain ⟨s, hs, hstep⟩ := Option.bind_eq_some_iff.mp hst
    obtain ⟨q', hq', hcons⟩ := Option.map_eq_some_iff.mp hq
    exact ⟨s, st, q', hs, hstep, hq', hcons.symm⟩
  · obtain ⟨s, st, q', hs, hstep, hq', hcons⟩ := h
    rw [hs, Option.bind_some, hstep, Option.bind_some, hq', hcons]
    rfl

/-- A path in two parts: the second is read below what the first names. -/
theorem resolve_append (path path' : List (Segment erase)) :
    ∀ V : View σ S, resolve (path ++ path') V =
      (resolve path V).bind fun p => (resolve path' (V.below p)).map (p ++ ·) := by
  induction path with
  | nil =>
      intro V
      show resolve path' V = (resolve path' V).map ([] ++ ·)
      simp
  | cons seg path ih =>
      intro V
      rw [List.cons_append, resolve_cons, resolve_cons]
      cases (V []).bind seg.step with
      | none => rfl
      | some st =>
          rw [Option.bind_some, Option.bind_some, ih]
          cases resolve path (V.below [st]) with
          | none => rfl
          | some p =>
              simp only [Option.bind_some, Option.map_some, Option.map_map, V.below_cons st p]
              rfl

/-- **What a path names depends on the nodes above it alone.** -/
theorem resolve_congr (path : List (Segment erase)) :
    ∀ {V W : View σ S} {q : List σ}, resolve path V = some q →
      (∀ p, p <+: q → p ≠ q → V p = W p) → resolve path W = some q := by
  induction path with
  | nil => intro V W q h _; exact h
  | cons seg path ih =>
      intro V W q h hagree
      obtain ⟨s, st, q', hs, hstep, hq', rfl⟩ := resolve_cons_eq_some.mp h
      -- the root is above the location, so the first step is the same
      refine resolve_cons_eq_some.mpr ⟨s, st, q', ?_, hstep, ?_, rfl⟩
      · rw [← hagree [] List.nil_prefix (List.cons_ne_nil st q').symm]
        exact hs
      · refine ih hq' fun p hp hne => ?_
        exact hagree (st :: p) (List.cons_prefix_cons.mpr ⟨rfl, hp⟩)
          fun heq => hne (List.cons_injective heq)

/-! ## §2. Agreement. -/

/-- The trees agree at every location that is not at or below one of `M`. -/
def AgreeOutside (M : Set (List σ)) (V W : View σ S) : Prop :=
  ∀ loc, (∀ m ∈ M, ¬ m <+: loc) → V loc = W loc

/-- The locations that an edit of the list names in both trees. -/
def common (edits : List (Edit σ S erase)) (V W : View σ S) : Set (List σ) :=
  {m | ∃ e ∈ edits, resolve e.path V = some m ∧ resolve e.path W = some m}

theorem AgreeOutside.symm {M : Set (List σ)} {V W : View σ S} (h : AgreeOutside M V W) :
    AgreeOutside M W V := fun loc hloc => (h loc hloc).symm

/-- Above every location of a set there is an outermost one. -/
theorem exists_outermost {M : Set (List σ)} {m : List σ} (hm : m ∈ M) :
    ∃ m₀ ∈ M, m₀ <+: m ∧ ∀ m' ∈ M, m' <+: m₀ → m' = m₀ := by
  obtain ⟨m₀, ⟨hm₀, hp₀⟩, hleast⟩ := (measure List.length).wf.has_min {m' | m' ∈ M ∧ m' <+: m}
    ⟨m, hm, List.prefix_rfl⟩
  refine ⟨m₀, hm₀, hp₀, fun m' hm' hp => ?_⟩
  have hlen : ¬ m'.length < m₀.length := hleast m' ⟨hm', hp.trans hp₀⟩
  exact hp.eq_of_length_le (Nat.not_lt.mp hlen)

/-- **Where a path parts**: if it does not name the same location in a tree that
agrees outside of `M`, it led into one of `M`. -/
theorem exists_above_of_resolve_ne {M : Set (List σ)} {V W : View σ S} (h : AgreeOutside M V W)
    {path : List (Segment erase)} {q : List σ} (hV : resolve path V = some q)
    (hW : resolve path W ≠ some q) : ∃ m ∈ M, m <+: q ∧ m ≠ q := by
  by_contra hnone
  push Not at hnone
  -- otherwise the trees agree at every node above the location
  refine hW (resolve_congr path hV fun p hp hne => h p fun m hm hmp => hne ?_)
  have hmq := hnone m hm (hmp.trans hp)
  rw [hmq] at hmp
  exact hp.eq_of_length_le hmp.length_le

/-! ## §3. Edits at a location. -/

variable [DecidableEq σ]

/-- The tree with `new` at the location, or without the location. -/
def edit (erase : S → σ → S) (new : Option (View σ S)) : List σ → View σ S → View σ S
  | [], _, loc => new.bind fun N => N loc
  | st :: q, V, [] => if q.isEmpty && new.isNone then (V []).map (erase · st) else V []
  | st :: q, V, st' :: loc =>
      if st' = st then edit erase new q (V.below [st]) loc else V (st' :: loc)

variable {new : Option (View σ S)}

theorem edit_root_of_append {st : σ} {q : List σ} {V : View σ S} (h : q ≠ [] ∨ new.isSome = true) :
    edit erase new (st :: q) V [] = V [] := by
  unfold edit
  refine if_neg fun hcut => ?_
  rw [Bool.and_eq_true, List.isEmpty_iff, Option.isNone_iff_eq_none] at hcut
  obtain ⟨hq, hnew⟩ := hcut
  cases h with
  | inl h => exact h hq
  | inr h => rw [hnew] at h; exact absurd h (by simp)

theorem edit_below_self (st : σ) (q : List σ) (V : View σ S) :
    (edit erase new (st :: q) V).below [st] = edit erase new q (V.below [st]) := by
  funext loc
  exact if_pos rfl

theorem edit_below_of_ne {st st' : σ} (h : st' ≠ st) (q : List σ) (V : View σ S) :
    (edit erase new (st :: q) V).below [st'] = V.below [st'] := by
  funext loc
  exact if_neg h

/-- At and below the location stands what is new. -/
theorem edit_of_covered (q : List σ) : ∀ {V : View σ S} {loc : List σ}, q <+: loc →
    edit erase new q V loc = new.bind fun N => N (loc.drop q.length) := by
  induction q with
  | nil => intro V loc _; rfl
  | cons st q ih =>
      intro V loc h
      obtain ⟨rest, rfl⟩ := h
      show (edit erase new (st :: q) V).below [st] (q ++ rest) = _
      rw [edit_below_self]
      exact ih (List.prefix_append q rest)

/-- What stands at a location after an edit depends on what stood there alone. -/
theorem edit_congr (q : List σ) : ∀ {V W : View σ S} {loc : List σ}, V loc = W loc →
    edit erase new q V loc = edit erase new q W loc := by
  induction q with
  | nil => intro V W loc _; rfl
  | cons st q ih =>
      intro V W loc h
      cases loc with
      | nil =>
          unfold edit
          rw [h]
      | cons st' loc =>
          by_cases hst : st' = st
          · rw [hst] at h ⊢
            show (edit erase new (st :: q) V).below [st] loc =
              (edit erase new (st :: q) W).below [st] loc
            rw [edit_below_self, edit_below_self]
            exact ih h
          · unfold edit
            rw [if_neg hst, if_neg hst, h]

/-- **The frame of an edit**: nothing changes outside the subtrees that the location
lies strictly inside of. -/
theorem edit_of_outside (q : List σ) : ∀ {V : View σ S} {m loc : List σ}, m <+: q → m ≠ q →
    ¬ m <+: loc → edit erase new q V loc = V loc := by
  induction q with
  | nil => intro V m loc hm hne _; exact absurd (List.prefix_nil.mp hm) hne
  | cons st q ih =>
      intro V m loc hm hne hout
      cases m with
      | nil => exact absurd List.nil_prefix hout
      | cons st₀ m =>
          obtain ⟨hst₀, hm⟩ := List.cons_prefix_cons.mp hm
          rw [hst₀] at hne hout
          have hne : m ≠ q := fun heq => hne (by rw [heq])
          cases loc with
          | nil =>
              refine edit_root_of_append (Or.inl fun hq => hne ?_)
              rw [hq] at hm ⊢
              exact List.prefix_nil.mp hm
          | cons st' loc =>
              by_cases hst : st' = st
              · rw [hst] at hout ⊢
                show (edit erase new (st :: q) V).below [st] loc = V.below [st] loc
                rw [edit_below_self]
                exact ih hm hne fun hp => hout (List.cons_prefix_cons.mpr ⟨rfl, hp⟩)
              · exact congrFun (edit_below_of_ne hst q V) loc

/-- An edit below a location is an edit of the subtree there. -/
theorem edit_append (p : List σ) {q : List σ} (hq : q ≠ [] ∨ new.isSome = true) : ∀ V : View σ S,
    edit erase (some (edit erase new q (V.below p))) p V = edit erase new (p ++ q) V := by
  induction p with
  | nil => intro V; rfl
  | cons st p ih =>
      intro V
      funext loc
      cases loc with
      | nil =>
          rw [List.cons_append, edit_root_of_append (Or.inr rfl),
            edit_root_of_append (hq.imp (List.append_ne_nil_of_right_ne_nil p) id)]
      | cons st' loc =>
          by_cases hst : st' = st
          · rw [hst]
            show (edit erase _ (st :: p) V).below [st] loc =
              (edit erase new (st :: (p ++ q)) V).below [st] loc
            rw [edit_below_self, edit_below_self, ← ih (V.below [st]), V.below_cons st p]
          · show (edit erase _ (st :: p) V).below [st'] loc =
              (edit erase new (st :: (p ++ q)) V).below [st'] loc
            rw [edit_below_of_ne hst, edit_below_of_ne hst]

/-- Writing what is there changes nothing. -/
theorem edit_self (q : List σ) : ∀ V : View σ S, edit erase (some (V.below q)) q V = V := by
  induction q with
  | nil => intro V; rfl
  | cons st q ih =>
      intro V
      funext loc
      cases loc with
      | nil => exact edit_root_of_append (Or.inr rfl)
      | cons st' loc =>
          by_cases hst : st' = st
          · rw [hst]
            show (edit erase _ (st :: q) V).below [st] loc = V.below [st] loc
            rw [edit_below_self, V.below_cons st q, ih (V.below [st])]
          · exact congrFun (edit_below_of_ne hst q V) loc

/-- What holds of all labels, and of the new ones, holds of all labels after an edit. -/
theorem all_edit {P : S → Prop} (herase : ∀ s st, P s → P (erase s st))
    (hnew : ∀ N, new = some N → N.All P) (q : List σ) :
    ∀ {V : View σ S}, V.All P → (edit erase new q V).All P := by
  induction q with
  | nil =>
      intro V _ loc s h
      obtain ⟨N, hN, hs⟩ := Option.bind_eq_some_iff.mp h
      exact hnew N hN loc s hs
  | cons st q ih =>
      intro V hV loc s h
      cases loc with
      | nil =>
          unfold edit at h
          split at h
          · obtain ⟨s₀, hs₀, rfl⟩ := Option.map_eq_some_iff.mp h
            exact herase s₀ st (hV [] s₀ hs₀)
          · exact hV [] s h
      | cons st' loc =>
          unfold edit at h
          split at h
          · exact ih (fun loc' => hV (st :: loc')) loc s h
          · exact hV (st' :: loc) s h

/-- **An edit leaves the paths to locations outside of it.** -/
theorem resolve_edit (path : List (Segment erase)) : ∀ {V : View σ S} {m q : List σ},
    resolve path V = some m → ¬ q <+: m → resolve path (edit erase new q V) = some m := by
  induction path with
  | nil => intro V m q h _; exact h
  | cons seg path ih =>
      intro V m q h hq
      obtain ⟨s, st, m, hs, hstep, hm, rfl⟩ := resolve_cons_eq_some.mp h
      cases q with
      | nil => exact absurd List.nil_prefix hq
      | cons st' q =>
          have hbelow : resolve path ((edit erase new (st' :: q) V).below [st]) = some m := by
            by_cases hst : st = st'
            · rw [hst, edit_below_self]
              rw [hst] at hm hq
              exact ih hm fun hp => hq (List.cons_prefix_cons.mpr ⟨rfl, hp⟩)
            · rw [edit_below_of_ne hst]
              exact hm
          by_cases hcut : q.isEmpty && new.isNone
          · -- the node loses another child than the one the path goes to
            have hne : st ≠ st' := by
              intro hst
              rw [Bool.and_eq_true, List.isEmpty_iff] at hcut
              refine hq (List.cons_prefix_cons.mpr ⟨hst.symm, ?_⟩)
              rw [hcut.1]
              exact List.nil_prefix
            refine resolve_cons_eq_some.mpr ⟨erase s st', st, m, ?_, seg.step_erase hstep hne,
              hbelow, rfl⟩
            unfold edit
            rw [if_pos hcut, hs]
            rfl
          · refine resolve_cons_eq_some.mpr ⟨s, st, m, ?_, hstep, hbelow, rfl⟩
            unfold edit
            rw [if_neg hcut]
            exact hs

/-! ## §4. Edits by path. -/

/-- The tree after the edit; a path that names nothing edits nothing. -/
def Edit.run (e : Edit σ S erase) (V : View σ S) : View σ S :=
  match resolve e.path V with
  | some q => edit erase e.new q V
  | none => V

/-- The tree after the edits. -/
def runEdits (edits : List (Edit σ S erase)) (V : View σ S) : View σ S :=
  edits.foldl (fun V e => e.run V) V

theorem Edit.run_of_some {e : Edit σ S erase} {V : View σ S} {q : List σ}
    (h : resolve e.path V = some q) : e.run V = edit erase e.new q V := by
  unfold Edit.run
  rw [h]

theorem Edit.run_of_none {e : Edit σ S erase} {V : View σ S} (h : resolve e.path V = none) :
    e.run V = V := by
  unfold Edit.run
  rw [h]

/-- An edit by a path in two parts is one of the subtree that the first part leads to. -/
theorem Edit.run_append {path path' : List (Segment erase)} (hne : path' ≠ [] ∨ new.isSome = true)
    {V : View σ S} {p : List σ} (hp : resolve path V = some p) :
    (Edit.mk (path ++ path') new).run V =
      edit erase (some ((Edit.mk path' new).run (V.below p))) p V := by
  have happend := resolve_append path path' V
  rw [hp, Option.bind_some] at happend
  cases hq : resolve path' (V.below p) with
  | none =>
      rw [hq] at happend
      rw [Edit.run_of_none happend, Edit.run_of_none hq, edit_self]
  | some q =>
      -- a path with a segment never names the root
      have hq' : q ≠ [] ∨ new.isSome = true := by
        refine hne.imp_left fun hpath hnil => ?_
        obtain ⟨seg, rest, hcons⟩ := List.exists_cons_of_ne_nil hpath
        rw [hcons, hnil] at hq
        obtain ⟨-, st, q', -, -, -, heq⟩ := resolve_cons_eq_some.mp hq
        exact List.cons_ne_nil st q' heq.symm
      rw [hq] at happend
      rw [Edit.run_of_some happend, Edit.run_of_some hq, edit_append p hq']

/-- What holds of all labels, and of the new ones, holds of all labels in the end. -/
theorem all_runEdits {P : S → Prop} (herase : ∀ s st, P s → P (erase s st))
    (edits : List (Edit σ S erase)) (hnew : ∀ e ∈ edits, ∀ N, e.new = some N → N.All P) :
    ∀ {V : View σ S}, V.All P → (runEdits edits V).All P := by
  induction edits with
  | nil => intro V hV; exact hV
  | cons e edits ih =>
      intro V hV
      have hrun : (e.run V).All P := by
        cases hq : resolve e.path V with
        | none => rw [Edit.run_of_none hq]; exact hV
        | some q =>
            rw [Edit.run_of_some hq]
            exact all_edit herase (hnew e List.mem_cons_self) q hV
      exact ih (fun e' he' => hnew e' (List.mem_cons_of_mem e he')) hrun

/-- An edit leaves the paths to locations outside of it. -/
theorem resolve_run {e : Edit σ S erase} {path : List (Segment erase)} {V : View σ S} {m : List σ}
    (h : resolve path V = some m) (hout : ∀ q, resolve e.path V = some q → ¬ q <+: m) :
    resolve path (e.run V) = some m := by
  cases hq : resolve e.path V with
  | none => rw [Edit.run_of_none hq]; exact h
  | some q => rw [Edit.run_of_some hq]; exact resolve_edit path h (hout q hq)

/-- An edit strictly inside of `m` leaves what is outside of `m`. -/
theorem run_of_outside {e : Edit σ S erase} {V : View σ S} {loc : List σ}
    (h : ∀ q, resolve e.path V = some q → ∃ m, m <+: q ∧ m ≠ q ∧ ¬ m <+: loc) :
    e.run V loc = V loc := by
  cases hq : resolve e.path V with
  | none => rw [Edit.run_of_none hq]
  | some q =>
      obtain ⟨m, hm, hne, hout⟩ := h q hq
      rw [Edit.run_of_some hq]
      exact edit_of_outside q hm hne hout

/-! ## §5. Edits of two trees. -/

section

variable {e : Edit σ S erase} {edits : List (Edit σ S erase)} {V W : View σ S}

/-- An outermost common location is still named by a later edit, unless this edit
was at or above it in both trees. -/
theorem outermost_common_run (h : AgreeOutside (common (e :: edits) V W) V W) {m : List σ}
    (hm : m ∈ common (e :: edits) V W)
    (hleast : ∀ m' ∈ common (e :: edits) V W, m' <+: m → m' = m) :
    m ∈ common edits (e.run V) (e.run W) ∨
      ∃ q, resolve e.path V = some q ∧ resolve e.path W = some q ∧ q <+: m := by
  by_cases hhit : ∃ q, resolve e.path V = some q ∧ resolve e.path W = some q ∧ q <+: m
  · exact Or.inr hhit
  · refine Or.inl ?_
    obtain ⟨e', he', hV, hW⟩ := hm
    have hmem : e' ∈ edits := by
      cases List.mem_cons.mp he' with
      | inl heq => rw [heq] at hV hW; exact absurd ⟨m, hV, hW, List.prefix_rfl⟩ hhit
      | inr hmem => exact hmem
    -- where the edit names another location in the other tree, it is inside a common one
    have hinside : ∀ {X Y : View σ S}, AgreeOutside (common (e :: edits) V W) X Y → ∀ q,
        resolve e.path X = some q → resolve e.path Y ≠ some q → ¬ q <+: m := by
      intro X Y hagree q hX hY hq
      obtain ⟨m', hm', hp, hne⟩ := exists_above_of_resolve_ne hagree hX hY
      have heq := hleast m' hm' (hp.trans hq)
      rw [heq] at hp hne
      exact hne (hp.eq_of_length_le hq.length_le)
    refine ⟨e', hmem, resolve_run hV fun q hq hp => ?_, resolve_run hW fun q hq hp => ?_⟩
    · by_cases hother : resolve e.path W = some q
      · exact hhit ⟨q, hq, hother, hp⟩
      · exact hinside h q hq hother hp
    · by_cases hother : resolve e.path V = some q
      · exact hhit ⟨q, hother, hq, hp⟩
      · exact hinside h.symm q hq hother hp

/-- **One edit**: if the trees agree outside the locations that the edits name in
both, so do the trees after the first edit, for the others. -/
theorem agreeOutside_run (h : AgreeOutside (common (e :: edits) V W) V W) :
    AgreeOutside (common edits (e.run V) (e.run W)) (e.run V) (e.run W) := by
  intro loc hloc
  by_cases hhit : ∃ q, resolve e.path V = some q ∧ resolve e.path W = some q ∧ q <+: loc
  · -- both trees have the same new subtree here
    obtain ⟨q, hV, hW, hp⟩ := hhit
    rw [Edit.run_of_some hV, Edit.run_of_some hW, edit_of_covered q hp, edit_of_covered q hp]
  · -- everything else that the trees may differ in is still to be edited
    have hout : ∀ m ∈ common (e :: edits) V W, ¬ m <+: loc := by
      intro m hm hp
      obtain ⟨m₀, hm₀, hp₀, hleast⟩ := exists_outermost hm
      cases outermost_common_run h hm₀ hleast with
      | inl hcommon => exact hloc m₀ hcommon (hp₀.trans hp)
      | inr hq =>
          obtain ⟨q, hV, hW, hq⟩ := hq
          exact hhit ⟨q, hV, hW, hq.trans (hp₀.trans hp)⟩
    by_cases hsame : resolve e.path V = resolve e.path W
    · cases hW : resolve e.path W with
      | none =>
          rw [Edit.run_of_none (hsame.trans hW), Edit.run_of_none hW]
          exact h loc hout
      | some q =>
          rw [Edit.run_of_some (hsame.trans hW), Edit.run_of_some hW]
          exact edit_congr q (h loc hout)
    · -- each tree is edited inside of a common location, if at all
      have hinside : ∀ {X Y : View σ S}, AgreeOutside (common (e :: edits) V W) X Y →
          resolve e.path X ≠ resolve e.path Y → e.run X loc = X loc := by
        intro X Y hagree hne
        refine run_of_outside fun q hX => ?_
        obtain ⟨m, hm, hp, hmq⟩ := exists_above_of_resolve_ne hagree hX fun hY =>
          hne (hX.trans hY.symm)
        exact ⟨m, hp, hmq, hout m hm⟩
      rw [hinside h hsame, hinside h.symm (Ne.symm hsame)]
      exact h loc hout

/-- **Edits do not interfere**: two trees that agree outside the locations that the
edits name in both become the same tree. -/
theorem runEdits_eq (edits : List (Edit σ S erase)) : ∀ {V W : View σ S},
    AgreeOutside (common edits V W) V W → runEdits edits V = runEdits edits W := by
  induction edits with
  | nil =>
      intro V W h
      funext loc
      exact h loc fun m ⟨e, he, _⟩ => absurd he List.not_mem_nil
  | cons e edits ih =>
      intro V W h
      exact ih (agreeOutside_run h)

end

end DockerProxy.Lib
