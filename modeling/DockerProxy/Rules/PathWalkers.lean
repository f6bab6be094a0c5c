/-
  DockerProxy.Rules.PathWalkers — `json_get` and `json_get_mut` agree.

  Conditions read a field path with `json_get`, and filters write to it through
  `json_get_mut`, which has a loop of its own with a case for the last segment.  Both go
  to the location that the path names (`locate`):

    • `jsonGetMut_eq` — where `json_get_mut` points, and how it writes,
    • `jsonGetMut_agrees` — it finds what `json_get` finds, and `json_get` reads what it
      has written; the rest of the document stays.
-/
import DockerProxy.Rules.FilterTargets

namespace DockerProxy.Rules

open DockerProxy.Lib

/-- **`json_get_mut` points at the location of its path**, and writes there. -/
theorem jsonGetMut_eq (v : JsonValue) (path : String) :
    jsonGetMut v path = (locate v path).bind fun loc =>
      (v.valueAt loc).map fun c => (c, v.setAt loc) :=
  jsonWalkMut_eq (splitStr path '.') v (splitStr_ne_nil path '.')

/-- **One finds what the other finds.** -/
theorem jsonGetMut_fst (v : JsonValue) (path : String) :
    (jsonGetMut v path).map Prod.fst = jsonGet v path := by
  rw [jsonGetMut_eq, jsonGet_eq, Option.map_bind]
  refine congrArg (Option.bind _) (funext fun loc => ?_)
  show Option.map Prod.fst ((v.valueAt loc).map _) = v.valueAt loc
  rw [Option.map_map]
  exact congrFun Option.map_id _

/-- **The two walkers agree**, on every document and every path.  `json_get_mut` finds a
value exactly when `json_get` does, and the same one; writing `w` through it puts `w` at
the location of the path, where `json_get` then finds it, and leaves every location that
is neither above nor below as it was. -/
theorem jsonGetMut_agrees (v : JsonValue) (path : String) :
    (jsonGetMut v path).map Prod.fst = jsonGet v path ∧
      ∀ target put, jsonGetMut v path = some (target, put) →
        ∃ loc, locate v path = some loc ∧ v.valueAt loc = some target ∧ ∀ w,
          locate (put w) path = some loc ∧ jsonGet (put w) path = some w ∧
            ∀ loc', Unrelated loc' loc → (put w).valueAt loc' = v.valueAt loc' := by
  refine ⟨jsonGetMut_fst v path, fun target put h => ?_⟩
  rw [jsonGetMut_eq] at h
  obtain ⟨loc, hloc, h⟩ := Option.bind_eq_some_iff.mp h
  obtain ⟨c, hc, h⟩ := Option.map_eq_some_iff.mp h
  injection h with htarget hput
  subst htarget hput
  refine ⟨loc, hloc, hc, fun w => ?_⟩
  -- writing changes no key and no length on the way, so the path still leads there
  have hafter : locate (v.setAt loc w) path = some loc := resolve_setAt w _ hloc
  refine ⟨hafter, ?_, fun loc' hunrelated => ?_⟩
  · rw [jsonGet_eq, hafter, Option.bind_some]
    exact JsonValue.valueAt_setAt loc w hc
  · exact JsonValue.valueAt_setAt_of_apart w loc hc hunrelated.1 hunrelated.2

end DockerProxy.Rules
