/-
  DockerProxy.Rules.Removal — what a `remove` filter removes.

  A field path may name an object key or an array element, and `redact` and `replace`
  write to either.  `remove` asks for an object: at the root when the path has one
  segment, and as the parent in `json_remove` otherwise.

    • `applyFilter_remove_object` — from an object, the key is removed and nothing else
      changes,
    • `applyFilter_remove_array` — from an array nothing is removed,
    • `applyFilter_remove_iff` — so a value that `json_get` finds is removed exactly if
      its parent is an object.
-/
import DockerProxy.Json.Paths
import DockerProxy.Rules.Redaction

namespace DockerProxy.Rules

open DockerProxy.Lib

/-- The filter that removes a field. -/
def removeFilter (path : String) : ResponseFilterEntry := { field := path, action := "remove" }

/-- A location that the path names, in two parts: the parent's, and one step. -/
theorem exists_parent_of_locate {json : JsonValue} {path : String} {loc : List Step}
    (h : locate json path = some loc) :
    ∃ p st parent c, loc = p ++ [st] ∧ json.valueAt p = some parent ∧ parent.child st = some c ∧
      resolve ((splitStr path '.').dropLast.map walkSegment) json.view = some p ∧
      segmentStep ((splitStr path '.').getLastD "") parent.shape = some st := by
  have hsplit : (splitStr path '.').map walkSegment =
      (splitStr path '.').dropLast.map walkSegment ++
        [((splitStr path '.').getLastD "")].map walkSegment := by
    rw [← List.map_append, ← splitStr_eq_dropLast_append]
  unfold locate walkPath at h
  rw [hsplit, resolve_append] at h
  obtain ⟨p, hp, h⟩ := Option.bind_eq_some_iff.mp h
  obtain ⟨q, hq, hloc⟩ := Option.map_eq_some_iff.mp h
  obtain ⟨parent, hparent⟩ := exists_valueAt_of_resolve _ hp
  rw [view_below_of_valueAt hparent, resolve_walk_cons] at hq
  obtain ⟨st, hst, hq⟩ := Option.bind_eq_some_iff.mp hq
  obtain ⟨c, hc, hq⟩ := Option.bind_eq_some_iff.mp hq
  obtain rfl := Option.some.inj hq
  exact ⟨p, st, parent, c, hloc.symm, hparent, hc, hp, hst⟩

/-- **What the filter does**: it removes a key of the parent, if that is an object. -/
theorem applyFilter_remove_eq {json parent : JsonValue} {path : String} {p : List Step}
    (hp : resolve ((splitStr path '.').dropLast.map walkSegment) json.view = some p)
    (hparent : json.valueAt p = some parent) :
    applyFilter json (removeFilter path) =
      match parent with
      | .object map => json.setAt p (.object (objectRemove map ((splitStr path '.').getLastD "")))
      | _ => json := by
  show (if (splitStr path '.').length = 1 then _ else _) = _
  by_cases hsingle : (splitStr path '.').length = 1
  · -- one segment: the parent is the root
    rw [if_pos hsingle]
    rw [splitStr_of_single hsingle] at hp ⊢
    obtain rfl := Option.some.inj hp
    obtain rfl := Option.some.inj hparent
    cases json <;> rfl
  · rw [if_neg hsingle]
    have hlen : ¬ (splitStr path '.').length < 2 := by
      have hpos := List.length_pos_iff.mpr (splitStr_ne_nil path '.')
      omega
    have hne : (splitStr path '.').dropLast ≠ [] := by
      rw [← List.length_pos_iff, List.length_dropLast]
      omega
    have hsplit : splitStr (joinStr (splitStr path '.').dropLast ".") '.' =
        (splitStr path '.').dropLast :=
      splitStr_joinStr rfl hne fun part hpart => List.mem_of_mem_dropLast hpart
    have hwalk := jsonWalkMut_eq (splitStr path '.').dropLast json hne
    rw [hp, Option.bind_some, hparent, Option.map_some] at hwalk
    show (jsonRemove json path).2 = _
    unfold jsonRemove jsonGetMut
    simp only [if_neg hlen, hsplit, hwalk]
    cases parent <;> rfl

/-- **From an object**, the key that the path names is removed. -/
theorem applyFilter_remove_object {json : JsonValue} {path : String} {loc : List Step}
    (hloc : locate json path = some loc) {map : List (String × JsonValue)}
    (hparent : json.valueAt loc.dropLast = some (.object map)) :
    applyFilter json (removeFilter path) = json.without loc := by
  obtain ⟨p, st, parent, c, rfl, hp, -, hresolve, hstep⟩ := exists_parent_of_locate hloc
  rw [List.dropLast_concat, hp] at hparent
  obtain rfl := Option.some.inj hparent
  -- an object's step is the segment itself
  have hkey : st = .key ((splitStr path '.').getLastD "") := by
    unfold segmentStep at hstep
    split at hstep
    · exact absurd hstep (by simp)
    · obtain ⟨-, -, -, hst⟩ := keyStep_eq_some.mp hstep
      exact hst
  rw [applyFilter_remove_eq hresolve hp, json.without_append hp, hkey]
  rfl

/-- **From an array**, nothing is removed, and the document is not the one without the
element. -/
theorem applyFilter_remove_array {json : JsonValue} {path : String} {loc : List Step}
    (hloc : locate json path = some loc) {items : List JsonValue}
    (hparent : json.valueAt loc.dropLast = some (.array items)) :
    applyFilter json (removeFilter path) = json ∧ json ≠ json.without loc := by
  obtain ⟨p, st, parent, c, rfl, hp, hc, hresolve, -⟩ := exists_parent_of_locate hloc
  rw [List.dropLast_concat, hp] at hparent
  obtain rfl := Option.some.inj hparent
  refine ⟨applyFilter_remove_eq hresolve hp, fun heq => ?_⟩
  -- the array at the parent's location would have to be shorter
  have hafter := JsonValue.valueAt_setAt p ((JsonValue.array items).removeChild st) hp
  rw [← json.without_append hp, ← heq, hp] at hafter
  cases st with
  | key k => exact absurd hc (by simp [JsonValue.child])
  | index i =>
      have hlt : i < items.length := (List.getElem?_eq_some_iff.mp hc).1
      have hitems : items = items.eraseIdx i := by
        injection hafter with hafter
        injection hafter
      have hlen := congrArg List.length hitems
      rw [List.length_eraseIdx_of_lt hlt] at hlen
      omega

/-- **When a value that `json_get` finds is removed, exactly**: its parent is an object. -/
theorem applyFilter_remove_iff {json target : JsonValue} {path : String}
    (hget : jsonGet json path = some target) :
    ∃ loc, locate json path = some loc ∧ json.valueAt loc = some target ∧
      (applyFilter json (removeFilter path) = json.without loc ↔
        ∃ map, json.valueAt loc.dropLast = some (.object map)) := by
  rw [jsonGet_eq] at hget
  obtain ⟨loc, hloc, htarget⟩ := Option.bind_eq_some_iff.mp hget
  refine ⟨loc, hloc, htarget, fun happly => ?_, fun ⟨map, hmap⟩ => ?_⟩
  · obtain ⟨p, st, parent, c, rfl, hp, hc, -, -⟩ := exists_parent_of_locate hloc
    cases parent with
    | object map => exact ⟨map, by rwa [List.dropLast_concat]⟩
    | array items =>
        have hparent : json.valueAt (p ++ [st]).dropLast = some (.array items) := by
          rwa [List.dropLast_concat]
        obtain ⟨hsame, hne⟩ := applyFilter_remove_array hloc hparent
        exact absurd (hsame.symm.trans happly) hne
    | _ => cases st <;> exact absurd hc (by simp [JsonValue.child])
  · exact applyFilter_remove_object hloc hmap

/-- The filter on the bytes of a body: what is printed is the document without the value. -/
theorem applyResponseFilters_remove (deps : Externals) {body : List UInt8} {json : JsonValue}
    (hbody : deps.jsonFromSlice body = .ok json) {path : String} {loc : List Step}
    (hloc : locate json path = some loc) {map : List (String × JsonValue)}
    (hparent : json.valueAt loc.dropLast = some (.object map)) :
    applyResponseFilters deps [removeFilter path] body =
      (deps.jsonToVec (json.without loc)).getD body := by
  rw [applyResponseFilters_of_json deps (by simp) hbody, List.foldl_cons, List.foldl_nil,
    applyFilter_remove_object hloc hparent]

/-- A removal from the document of a container. -/
theorem applyFilter_remove_env : ∃ loc, locate (containerDoc "A=1") "Config.Env" = some loc ∧
    applyFilter (containerDoc "A=1") (removeFilter "Config.Env") =
      (containerDoc "A=1").without loc := by
  have hlocate : locate (containerDoc "A=1") "Config.Env" = some [.key "Config", .key "Env"] := by
    decide +kernel
  have hget : jsonGet (containerDoc "A=1") "Config.Env" = some (.string "A=1") := by
    rw [jsonGet_eq, hlocate]
    rfl
  obtain ⟨loc, hloc, -, hiff⟩ := applyFilter_remove_iff hget
  obtain rfl := Option.some.inj (hloc.symm.trans hlocate)
  exact ⟨_, hloc, hiff.mpr ⟨[("Env", .string "A=1")], rfl⟩⟩

/-- The document of a container with two mounts. -/
def mountsDoc : JsonValue :=
  .object [("Mounts", .array [.string "/var/run/docker.sock", .string "/data"])]

/-- **An element that stays**: `json_get` finds the first mount, and the filter leaves
the document as it is. -/
theorem applyFilter_remove_mount :
    jsonGet mountsDoc "Mounts.0" = some (.string "/var/run/docker.sock") ∧
    locate mountsDoc "Mounts.0" = some [.key "Mounts", .index 0] ∧
    mountsDoc.without [.key "Mounts", .index 0] = .object [("Mounts", .array [.string "/data"])] ∧
    applyFilter mountsDoc (removeFilter "Mounts.0") = mountsDoc ∧
    applyFilter mountsDoc (removeFilter "Mounts.0") ≠
      mountsDoc.without [.key "Mounts", .index 0] := by
  have hlocate : locate mountsDoc "Mounts.0" = some [.key "Mounts", .index 0] := by
    decide +kernel
  have hparent : mountsDoc.valueAt [.key "Mounts"] =
      some (.array [.string "/var/run/docker.sock", .string "/data"]) := rfl
  obtain ⟨hsame, hne⟩ := applyFilter_remove_array hlocate hparent
  refine ⟨?_, hlocate, rfl, hsame, ?_⟩
  · rw [jsonGet_eq, hlocate]
    rfl
  · rw [hsame]
    exact hne

end DockerProxy.Rules
