/-
  DockerProxy.Json.Paths — where a field path leads, and what is written there.

  `locate` is the location that a path names in a document.  The walkers of `Json`
  are reading and writing at that location:

    • `jsonGet_eq` — `json_get` is the value there,
    • `jsonWalkMut_eq` — the reference of `json_get_mut` writes there,
    • `valueAt_setAt` — what is written is there afterwards,
    • `valueAt_setAt_of_apart` — and nothing else has changed.
-/
import DockerProxy.Json.Locations

namespace DockerProxy

open DockerProxy.Lib

/-! ## §1. The location of a path. -/

/-- **The location that a field path names**: its segments read as object keys, or as
indices where the container is an array. -/
def locate (v : JsonValue) (path : String) : Option (List Step) := resolve (walkPath path) v.view

/-- A segment that names a step finds a value there. -/
theorem child_of_segmentStep {v : JsonValue} {segment : String} {st : Step}
    (h : segmentStep segment v.shape = some st) : ∃ c, v.child st = some c := by
  obtain ⟨hnone, -⟩ | ⟨st', c, hst', hc, -⟩ := jsonChildMut_cases v segment
  · rw [hnone] at h
    exact absurd h (by simp)
  · rw [hst'] at h
    exact ⟨c, by rw [← Option.some.inj h]; exact hc⟩

/-- One segment of `json_get`. -/
theorem jsonChild_eq (v : JsonValue) (segment : String) :
    jsonChild v segment = (segmentStep segment v.shape).bind v.child := by
  have hmut : jsonChild v segment = (jsonChildMut v segment).map Prod.fst := by
    unfold jsonChild jsonChildMut
    split
    · rfl
    · cases v with
      | object map =>
          dsimp only
          rw [Option.map_map]
          exact (congrFun Option.map_id _).symm
      | array arr =>
          dsimp only
          rw [Option.map_bind]
          refine congrArg (Option.bind _) (funext fun idx => ?_)
          show arr[idx]? = Option.map Prod.fst (Option.map _ arr[idx]?)
          rw [Option.map_map]
          exact (congrFun Option.map_id _).symm
      | _ => rfl
  rw [hmut]
  obtain ⟨hnone, hnone'⟩ | ⟨st, c, hst, hc, hsome⟩ := jsonChildMut_cases v segment
  · rw [hnone, hnone']
    rfl
  · rw [hst, hsome, Option.bind_some, hc]
    rfl

/-- The first segment, and the rest in the child that it names. -/
theorem resolve_walk_cons (segment : String) (rest : List String) (v : JsonValue) :
    resolve ((segment :: rest).map walkSegment) v.view =
      (segmentStep segment v.shape).bind fun st => (v.child st).bind fun c =>
        (resolve (rest.map walkSegment) c.view).map (st :: ·) := by
  rw [List.map_cons, resolve_cons]
  show (segmentStep segment v.shape).bind _ = _
  cases hst : segmentStep segment v.shape with
  | none => rfl
  | some st =>
      obtain ⟨c, hc⟩ := child_of_segmentStep hst
      rw [Option.bind_some, Option.bind_some, hc, JsonValue.view_below hc, Option.bind_some]

theorem valueAt_cons (v : JsonValue) (st : Step) (loc : List Step) :
    v.valueAt (st :: loc) = (v.child st).bind fun c => c.valueAt loc := rfl

theorem valueAt_append (p q : List Step) : ∀ v : JsonValue,
    v.valueAt (p ++ q) = (v.valueAt p).bind fun c => c.valueAt q := by
  induction p with
  | nil => intro v; rfl
  | cons st p ih =>
      intro v
      rw [List.cons_append, valueAt_cons, valueAt_cons]
      cases v.child st with
      | none => rfl
      | some c => exact ih c

/-- The view of a value is in the view of the document. -/
theorem view_below_of_valueAt {v c : JsonValue} {loc : List Step} (h : v.valueAt loc = some c) :
    v.view.below loc = c.view := by
  funext rest
  show (v.valueAt (loc ++ rest)).map JsonValue.shape = _
  rw [valueAt_append, h]
  rfl

theorem uniqueKeys_of_valueAt {v c : JsonValue} {loc : List Step} (hv : v.UniqueKeys)
    (h : v.valueAt loc = some c) : c.UniqueKeys := by
  intro rest s hs
  rw [← view_below_of_valueAt h] at hs
  exact hv (loc ++ rest) s hs

/-- **Values are what is seen of them**, at a location of two documents. -/
theorem valueAt_eq_of_below {v w : JsonValue} (hv : v.UniqueKeys) (hw : w.UniqueKeys)
    {loc : List Step} (h : v.view.below loc = w.view.below loc) :
    v.valueAt loc = w.valueAt loc := by
  have hroot : (v.valueAt loc).map JsonValue.shape = (w.valueAt loc).map JsonValue.shape := by
    have hnil : v.view (loc ++ []) = w.view (loc ++ []) := congrFun h []
    rwa [List.append_nil] at hnil
  cases hc : v.valueAt loc with
  | none =>
      rw [hc, Option.map_none] at hroot
      exact (Option.map_eq_none_iff.mp hroot.symm).symm
  | some c =>
      rw [hc, Option.map_some] at hroot
      obtain ⟨d, hd, -⟩ := Option.map_eq_some_iff.mp hroot.symm
      rw [hd]
      refine congrArg some (JsonValue.eq_of_view_eq c d (uniqueKeys_of_valueAt hv hc)
        (uniqueKeys_of_valueAt hw hd) ?_)
      rw [← view_below_of_valueAt hc, ← view_below_of_valueAt hd, h]

/-- Where the segments lead there is a value. -/
theorem exists_valueAt_of_resolve (segments : List String) : ∀ {v : JsonValue} {loc : List Step},
    resolve (segments.map walkSegment) v.view = some loc → ∃ c, v.valueAt loc = some c := by
  induction segments with
  | nil =>
      intro v loc h
      obtain rfl := Option.some.inj h
      exact ⟨v, rfl⟩
  | cons segment rest ih =>
      intro v loc h
      rw [resolve_walk_cons] at h
      obtain ⟨st, -, h⟩ := Option.bind_eq_some_iff.mp h
      obtain ⟨c, hc, h⟩ := Option.bind_eq_some_iff.mp h
      obtain ⟨loc', hloc', rfl⟩ := Option.map_eq_some_iff.mp h
      obtain ⟨d, hd⟩ := ih hloc'
      exact ⟨d, by rw [valueAt_cons, hc]; exact hd⟩

/-- The loop of `json_get` over the segments. -/
theorem foldlM_jsonChild (segments : List String) : ∀ v : JsonValue,
    segments.foldlM jsonChild v =
      (resolve (segments.map walkSegment) v.view).bind v.valueAt := by
  induction segments with
  | nil => intro v; rfl
  | cons segment rest ih =>
      intro v
      rw [List.foldlM_cons, resolve_walk_cons, jsonChild_eq]
      cases segmentStep segment v.shape with
      | none => rfl
      | some st =>
          rw [Option.bind_some, Option.bind_some]
          cases hc : v.child st with
          | none => rfl
          | some c =>
              show rest.foldlM jsonChild c = _
              rw [ih, Option.bind_some]
              -- one step further in, and the same location from there
              cases resolve (rest.map walkSegment) c.view with
              | none => rfl
              | some loc =>
                  rw [Option.map_some, Option.bind_some, Option.bind_some, valueAt_cons, hc]
                  rfl

/-- **`json_get`** is the value at the location of its path. -/
theorem jsonGet_eq (v : JsonValue) (path : String) :
    jsonGet v path = (locate v path).bind v.valueAt :=
  foldlM_jsonChild (splitStr path '.') v

/-! ## §2. Writing at a location. -/

namespace JsonValue

/-- The document with `w` at a location where there is a value. -/
def setAt : JsonValue → List Step → JsonValue → JsonValue
  | _, [], w => w
  | v, st :: loc, w =>
      match v.child st with
      | some c => v.setChild st (c.setAt loc w)
      | none => v

/-- The value without what is one step inside; the elements after it move up. -/
def removeChild : JsonValue → Step → JsonValue
  | .object entries, .key k => .object (objectRemove entries k)
  | .array items, .index i => .array (items.eraseIdx i)
  | v, _ => v

/-- **The document without the value at a location.** -/
def without (v : JsonValue) (loc : List Step) : JsonValue :=
  match v.valueAt loc.dropLast, loc.getLast? with
  | some parent, some st => v.setAt loc.dropLast (parent.removeChild st)
  | _, _ => v

theorem setAt_cons {v c : JsonValue} {st : Step} (h : v.child st = some c) (loc : List Step)
    (w : JsonValue) : v.setAt (st :: loc) w = v.setChild st (c.setAt loc w) := by
  rw [setAt, h]

/-- **What is written is there afterwards.** -/
theorem valueAt_setAt (loc : List Step) (w : JsonValue) : ∀ {v c : JsonValue},
    v.valueAt loc = some c → (v.setAt loc w).valueAt loc = some w := by
  induction loc with
  | nil => intro v c _; rfl
  | cons st loc ih =>
      intro v c h
      obtain ⟨d, hd, hrest⟩ := Option.bind_eq_some_iff.mp h
      rw [setAt_cons hd, valueAt_cons, child_setChild hd, if_pos rfl, Option.bind_some]
      exact ih hrest

/-- **What is written changes nothing elsewhere**: not at a location that is neither above
nor below. -/
theorem valueAt_setAt_of_apart (w : JsonValue) (loc : List Step) : ∀ {v c : JsonValue}
    {loc' : List Step}, v.valueAt loc = some c → ¬ loc <+: loc' → ¬ loc' <+: loc →
      (v.setAt loc w).valueAt loc' = v.valueAt loc' := by
  induction loc with
  | nil => intro v c loc' _ hbelow _; exact absurd List.nil_prefix hbelow
  | cons st loc ih =>
      intro v c loc' h hbelow habove
      cases loc' with
      | nil => exact absurd List.nil_prefix habove
      | cons st' loc' =>
          obtain ⟨d, hd, hrest⟩ := Option.bind_eq_some_iff.mp h
          rw [setAt_cons hd, valueAt_cons, valueAt_cons, child_setChild hd]
          by_cases hst : st' = st
          · -- the locations part further in
            rw [if_pos hst, hst, hd, Option.bind_some, Option.bind_some]
            rw [hst, List.cons_prefix_cons] at hbelow habove
            exact ih hrest (fun hp => hbelow ⟨rfl, hp⟩) fun hp => habove ⟨rfl, hp⟩
          · rw [if_neg hst]

theorem without_append (v : JsonValue) {p : List Step} {parent : JsonValue}
    (h : v.valueAt p = some parent) (st : Step) :
    v.without (p ++ [st]) = v.setAt p (parent.removeChild st) := by
  unfold without
  rw [List.dropLast_concat, List.getLast?_concat, h]

end JsonValue

/-- **A path leads to what is written at its end.** -/
theorem resolve_setAt (w : JsonValue) (segments : List String) : ∀ {v : JsonValue}
    {loc : List Step}, resolve (segments.map walkSegment) v.view = some loc →
      resolve (segments.map walkSegment) (v.setAt loc w).view = some loc := by
  induction segments with
  | nil =>
      intro v loc h
      exact h
  | cons segment rest ih =>
      intro v loc h
      rw [resolve_walk_cons] at h
      obtain ⟨st, hst, h⟩ := Option.bind_eq_some_iff.mp h
      obtain ⟨c, hc, h⟩ := Option.bind_eq_some_iff.mp h
      obtain ⟨loc', hloc', rfl⟩ := Option.map_eq_some_iff.mp h
      -- the first step is the same, and the rest is in the child that was written
      rw [JsonValue.setAt_cons hc, resolve_walk_cons, JsonValue.shape_setChild, hst,
        Option.bind_some, JsonValue.child_setChild hc, if_pos rfl, Option.bind_some, ih hloc']
      rfl

/-- **The reference of `json_get_mut`** is to the value at the location, and writes
there. -/
theorem jsonWalkMut_eq (segments : List String) : ∀ v : JsonValue, segments ≠ [] →
    jsonWalkMut v segments = (resolve (segments.map walkSegment) v.view).bind fun loc =>
      (v.valueAt loc).map fun c => (c, v.setAt loc) := by
  induction segments with
  | nil => intro v h; exact absurd rfl h
  | cons segment rest ih =>
      intro v _
      rw [resolve_walk_cons]
      obtain ⟨hstep, hchild⟩ | ⟨st, c, hstep, hc, hchild⟩ := jsonChildMut_cases v segment
      · rw [hstep]
        cases rest with
        | nil => exact hchild
        | cons next rest => unfold jsonWalkMut; rw [hchild]; rfl
      · rw [hstep, Option.bind_some, hc, Option.bind_some]
        have hput : ∀ loc, v.setAt (st :: loc) = fun w => v.setChild st (c.setAt loc w) :=
          fun loc => funext fun w => JsonValue.setAt_cons hc loc w
        cases rest with
        | nil =>
            show jsonChildMut v segment = Option.map _ (v.valueAt [st])
            rw [hchild, valueAt_cons, hc, hput]
            rfl
        | cons next rest =>
            have hwalk : jsonWalkMut v (segment :: next :: rest) =
                (jsonWalkMut c (next :: rest)).map
                  fun ref => (ref.1, fun w => v.setChild st (ref.2 w)) := by
              rw [jsonWalkMut, hchild]
              · rfl
              · exact List.cons_ne_nil next rest
            rw [hwalk, ih c (List.cons_ne_nil next rest)]
            cases resolve ((next :: rest).map walkSegment) c.view with
            | none => rfl
            | some loc =>
                rw [Option.bind_some, Option.map_some, Option.bind_some, valueAt_cons, hc, hput,
                  Option.bind_some, Option.map_map]
                rfl

end DockerProxy
