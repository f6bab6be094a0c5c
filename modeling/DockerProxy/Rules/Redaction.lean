/-
  DockerProxy.Rules.Redaction — response filters show nothing of what they filter.

  A filter is an edit of the body's view at the location that its field path names.
  Two bodies that are equal except at and below the locations that the filters name
  in both become the same output (`applyResponseFilters_noninterfering`): whatever
  the order and nesting of the filters, what was there cannot be told from it.
-/
import DockerProxy.Json.Locations
import DockerProxy.Rules.ResponseFilters

namespace DockerProxy.Rules

open DockerProxy.Lib

/-! ## §1. Filters are edits. -/

/-- The edit that a filter makes; an unknown action makes none. -/
def filterEdit (filter : ResponseFilterEntry) : Option (Edit Step Shape eraseStep) :=
  match filter.action with
  | "redact" => some ⟨walkPath filter.field, some (JsonValue.string "***REDACTED***").view⟩
  | "remove" => some ⟨removePath filter.field, none⟩
  | "replace" =>
      some ⟨walkPath filter.field, some (JsonValue.string (filter.replacement.getD "")).view⟩
  | _ => none

/-- A path of one segment is that segment. -/
theorem splitStr_of_single {s : String} (h : (splitStr s '.').length = 1) :
    splitStr s '.' = [s] := by
  obtain ⟨part, hpart⟩ := List.length_eq_one_iff.mp h
  have hjoin : joinStr (splitStr s '.') "." = s := joinStr_splitStr rfl s
  rw [hpart] at hjoin ⊢
  exact congrArg (fun t => [t]) hjoin

/-- **One filter** is its edit of the view. -/
theorem applyFilter_view (json : JsonValue) (filter : ResponseFilterEntry) :
    (applyFilter json filter).view = runEdits (filterEdit filter).toList json.view := by
  unfold applyFilter
  split
  next hredact =>
    simp only [filterEdit, hredact]
    exact jsonGetMut_view json filter.field _
  next hremove =>
    simp only [filterEdit, hremove]
    -- a single segment is removed from the root, without `json_remove`
    by_cases hsingle : (splitStr filter.field '.').length = 1
    · have hpath : removePath filter.field = [keySegment filter.field] := by
        unfold removePath
        rw [splitStr_of_single hsingle]
        rfl
      rw [if_pos hsingle, hpath]
      exact removeKey_view filter.field json
    · rw [if_neg hsingle]
      exact jsonRemove_view json hsingle
  next hreplace =>
    simp only [filterEdit, hreplace]
    exact jsonGetMut_view json filter.field _
  next hredact hremove hreplace =>
    -- an unknown action leaves the document
    unfold filterEdit
    split
    next h => exact absurd h hredact
    next h => exact absurd h hremove
    next h => exact absurd h hreplace
    next => rfl

/-- **The filters one after another** are their edits. -/
theorem foldl_applyFilter_view (filters : List ResponseFilterEntry) : ∀ json : JsonValue,
    (filters.foldl applyFilter json).view = runEdits (filters.filterMap filterEdit) json.view := by
  induction filters with
  | nil => intro json; rfl
  | cons filter filters ih =>
      intro json
      rw [List.foldl_cons, ih, applyFilter_view]
      cases hedit : filterEdit filter with
      | none => rw [List.filterMap_cons_none hedit]; rfl
      | some e => rw [List.filterMap_cons_some hedit]; rfl

/-- What a filter writes is a string. -/
theorem new_filterEdit {filter : ResponseFilterEntry} {e : Edit Step Shape eraseStep}
    (h : filterEdit filter = some e) {N : View Step Shape} (hN : e.new = some N) :
    ∃ s, N = (JsonValue.string s).view := by
  unfold filterEdit at h
  split at h
  · injection h with h
    rw [← h] at hN
    exact ⟨_, (Option.some.inj hN).symm⟩
  · injection h with h
    rw [← h] at hN
    exact absurd hN (by simp)
  · injection h with h
    rw [← h] at hN
    exact ⟨_, (Option.some.inj hN).symm⟩
  · exact absurd h (by simp)

theorem uniqueKeys_string (s : String) : (JsonValue.string s).UniqueKeys :=
  JsonValue.uniqueKeys_iff.mpr
    ⟨fun _ h => absurd h (by simp [JsonValue.shape]), fun st c h => by cases st <;> cases h⟩

/-- **Filters repeat no key.** -/
theorem uniqueKeys_foldl_applyFilter (filters : List ResponseFilterEntry) {json : JsonValue}
    (h : json.UniqueKeys) : (filters.foldl applyFilter json).UniqueKeys := by
  unfold JsonValue.UniqueKeys
  rw [foldl_applyFilter_view]
  refine all_runEdits (fun s st hs keys hkeys => ?_) _ (fun e he N hN => ?_) h
  · -- an object that loses a key keeps the others as they were
    cases s with
    | object keys' =>
        have hnodup : keys'.Nodup := hs keys' rfl
        cases st with
        | key k => injection hkeys with hkeys; rw [← hkeys]; exact hnodup.filter _
        | index i => injection hkeys with hkeys; rw [← hkeys]; exact hnodup
    | _ => exact absurd hkeys (by simp [eraseStep])
  · obtain ⟨filter, -, hedit⟩ := List.mem_filterMap.mp he
    obtain ⟨s, hs⟩ := new_filterEdit hedit hN
    rw [hs]
    exact uniqueKeys_string s

/-! ## §2. Noninterference. -/

/-- The locations that the field paths name in both documents; a removal names an
object key. -/
def filteredLocations (filters : List ResponseFilterEntry) (json json' : JsonValue) :
    Set (List Step) :=
  common (filters.filterMap filterEdit) json.view json'.view

/-- What is relied on in `serde_json`: a parsed object repeats no key, and every
value prints. -/
structure SerdeJson (deps : Externals) : Prop where
  uniqueKeys : ∀ body json, deps.jsonFromSlice body = .ok json → json.UniqueKeys
  prints : ∀ json, (deps.jsonToVec json).isSome = true

/-- **Filters do not interfere**: documents that agree outside the filtered locations
become the same document. -/
theorem foldl_applyFilter_eq {filters : List ResponseFilterEntry} {json json' : JsonValue}
    (hkeys : json.UniqueKeys) (hkeys' : json'.UniqueKeys)
    (h : AgreeOutside (filteredLocations filters json json') json.view json'.view) :
    filters.foldl applyFilter json = filters.foldl applyFilter json' := by
  refine JsonValue.eq_of_view_eq _ _ (uniqueKeys_foldl_applyFilter filters hkeys)
    (uniqueKeys_foldl_applyFilter filters hkeys') ?_
  rw [foldl_applyFilter_view, foldl_applyFilter_view]
  exact runEdits_eq _ h

/-- **Redaction is noninterfering.**  Two JSON bodies that are equal except for the
values at and below the locations that the filters name in both give the same output.
Without filters a body is not parsed, and equal bodies are equal texts. -/
theorem applyResponseFilters_noninterfering {deps : Externals} (hserde : SerdeJson deps)
    {filters : List ResponseFilterEntry} {body body' : List UInt8} {json json' : JsonValue}
    (hbody : deps.jsonFromSlice body = .ok json) (hbody' : deps.jsonFromSlice body' = .ok json')
    (hagree : AgreeOutside (filteredLocations filters json json') json.view json'.view)
    (hplain : filters = [] → body = body') :
    applyResponseFilters deps filters body = applyResponseFilters deps filters body' := by
  by_cases hnil : filters = []
  · rw [hplain hnil]
  · have hsame := foldl_applyFilter_eq (hserde.uniqueKeys _ _ hbody)
      (hserde.uniqueKeys _ _ hbody') hagree
    obtain ⟨bytes, hbytes⟩ := Option.isSome_iff_exists.mp
      (hserde.prints (filters.foldl applyFilter json'))
    rw [applyResponseFilters_of_json deps hnil hbody,
      applyResponseFilters_of_json deps hnil hbody', hsame, hbytes]
    rfl

/-! ## §3. A run. -/

/-- The document of a container with one variable. -/
def containerDoc (env : String) : JsonValue :=
  .object [("Config", .object [("Env", .string env)]), ("Id", .string "web")]

/-- The text of such a container, as Docker sends it. -/
def containerText (env : String) : List UInt8 :=
  asBytes ("\x7b\"Config\":\x7b\"Env\":\"" ++ env ++ "\"\x7d,\"Id\":\"web\"\x7d")

/-- What an object whose values are strings prints as. -/
def printStrings : JsonValue → List UInt8
  | .object entries =>
      asBytes ("\x7b" ++ joinStr (entries.map fun e =>
        "\"" ++ e.1 ++ "\":\"" ++ e.2.asStr.getD "" ++ "\"") "," ++ "\x7d")
  | _ => asBytes "null"

/-- The documents of two of the texts. -/
def containerFromSlice (body : List UInt8) : Except String JsonValue :=
  if body = containerText "A=1" then .ok (containerDoc "A=1")
  else if body = containerText "B=22" then .ok (containerDoc "B=22")
  else .error "expected value"

/-- `serde_json` on these. -/
def containerDeps : Externals :=
  { Externals.uncalled with
    jsonFromSlice := containerFromSlice
    jsonToVec := fun json => some (printStrings json) }

theorem uniqueKeys_containerDoc (env : String) : (containerDoc env).UniqueKeys := by
  refine JsonValue.uniqueKeys_object (by simp) fun e he => ?_
  simp only [List.mem_cons, List.not_mem_nil, or_false] at he
  obtain rfl | rfl := he
  · refine JsonValue.uniqueKeys_object (by simp) fun e he => ?_
    rw [List.mem_singleton.mp he]
    exact uniqueKeys_string env
  · exact uniqueKeys_string "web"

/-- Two containers that differ in the variable, under a filter that removes it and one
that redacts the object around it. -/
theorem applyResponseFilters_noninterfering_env :
    applyResponseFilters containerDeps
        [{ field := "Config.Env", action := "remove" }, { field := "Config", action := "redact" }]
        (containerText "A=1") =
      applyResponseFilters containerDeps
        [{ field := "Config.Env", action := "remove" }, { field := "Config", action := "redact" }]
        (containerText "B=22") := by
  have hserde : SerdeJson containerDeps := by
    refine ⟨fun body json h => ?_, fun json => rfl⟩
    have h : containerFromSlice body = .ok json := h
    unfold containerFromSlice at h
    split at h
    · injection h with h
      rw [← h]
      exact uniqueKeys_containerDoc _
    · split at h
      · injection h with h
        rw [← h]
        exact uniqueKeys_containerDoc _
      · exact absurd h (by simp)
  have hbody : containerFromSlice (containerText "A=1") = .ok (containerDoc "A=1") := if_pos rfl
  have hbody' : containerFromSlice (containerText "B=22") = .ok (containerDoc "B=22") :=
    (if_neg (by decide +kernel)).trans (if_pos rfl)
  refine applyResponseFilters_noninterfering hserde hbody hbody' (fun loc hloc => ?_) (by simp)
  cases loc with
  | nil => rfl
  | cons st loc =>
      by_cases hst : st = .key "Config"
      · -- the whole object is redacted in both
        have hnamed : resolve (walkPath "Config") (containerDoc "A=1").view =
            some [.key "Config"] := by decide +kernel
        have hnamed' : resolve (walkPath "Config") (containerDoc "B=22").view =
            some [.key "Config"] := by decide +kernel
        refine absurd ?_ (hloc [.key "Config"]
          ⟨⟨walkPath "Config", some (JsonValue.string "***REDACTED***").view⟩,
            List.mem_cons_of_mem _ List.mem_cons_self, hnamed, hnamed'⟩)
        rw [hst]
        exact List.prefix_append [_] loc
      · have hchild : (containerDoc "A=1").child st = (containerDoc "B=22").child st := by
          cases st with
          | key k =>
              have hk : k ≠ "Config" := fun heq => hst (by rw [heq])
              have hget : ∀ env, (containerDoc env).child (.key k) =
                  objectGet [("Id", .string "web")] k :=
                fun env => (objectGet_cons _).trans (if_neg hk)
              rw [hget, hget]
          | index i => rfl
        rw [JsonValue.view_cons, JsonValue.view_cons, hchild]

end DockerProxy.Rules
