/-
  DockerProxy.Rules.ListRecords — filters on a response that is a list.

  Docker answers a listing with an array of objects.  A field path is read from the
  root of the document, so at an array its first segment has to be an index: a path
  that starts with a key names nothing there, in whatever record it would.

    • `cleared_applyFilter_iff` — a filter clears a location exactly if its own is at
      or above it,
    • `listRecords_cleared_iff` — so every record is cleared exactly if the path from
      the root covers the path in the record, wherever that leads to a value,
    • `foldl_applyFilter_array` — filters whose paths start with no number leave every
      array as it is.
-/
import DockerProxy.Rules.FilterTargets

namespace DockerProxy.Rules

open DockerProxy.Lib

/-! ## §1. What a filter clears. -/

/-- **Redacted or removed**: at the location is nothing, or the text that stands for
what was there. -/
def Cleared (json : JsonValue) (loc : List Step) : Prop :=
  json.valueAt loc = none ∨ json.valueAt loc = some (.string "***REDACTED***")

theorem shape_eq_string {v : JsonValue} {x : String} : v.shape = .string x ↔ v = .string x := by
  constructor
  · intro h
    cases v with
    | string y => rw [Shape.string.inj h]
    | _ => exact absurd h (by simp [JsonValue.shape])
  · rintro rfl
    rfl

theorem cleared_iff {json : JsonValue} {loc : List Step} :
    Cleared json loc ↔ json.view loc = none ∨ json.view loc = some (.string "***REDACTED***") := by
  unfold Cleared JsonValue.view
  rw [Option.map_eq_none_iff, Option.map_eq_some_iff]
  refine or_congr_right ⟨fun h => ⟨_, h, rfl⟩, fun ⟨v, hv, hshape⟩ => ?_⟩
  rw [hv, shape_eq_string.mp hshape]

/-- A node that loses a child is a string only if it was one. -/
theorem eraseStep_eq_string {s : Shape} {st : Step} {x : String} :
    eraseStep s st = .string x ↔ s = .string x := by
  cases s <;> cases st <;> simp [eraseStep]

/-- **What a filter clears**: what is at or below its own location, and what is the
redaction text already. -/
theorem cleared_applyFilter_iff {json c : JsonValue} {filter : ResponseFilterEntry}
    {e : Edit Step Shape eraseStep} (he : filterEdit filter = some e)
    (hnew : e.new = none ∨ e.new = some (JsonValue.string "***REDACTED***").view)
    {loc : List Step} (hc : json.valueAt loc = some c) :
    Cleared (applyFilter json filter) loc ↔
      (∃ q, resolve e.path json.view = some q ∧ q <+: loc) ∨ c = .string "***REDACTED***" := by
  have hview : json.view loc = some c.shape := congrArg (Option.map JsonValue.shape) hc
  have hrun : (applyFilter json filter).view = e.run json.view := by
    rw [applyFilter_view, he]
    rfl
  rw [cleared_iff, hrun]
  -- outside of the edit, what is there stays or loses a child
  have hkept : ∀ s, (s = c.shape ∨ ∃ st, s = eraseStep c.shape st) →
      ((some s = none ∨ some s = some (Shape.string "***REDACTED***")) ↔
        c = .string "***REDACTED***") := by
    rintro s (rfl | ⟨st, rfl⟩)
    · simpa using shape_eq_string
    · simpa [eraseStep_eq_string] using shape_eq_string
  cases hq : resolve e.path json.view with
  | none =>
      rw [Edit.run_of_none hq, hview, hkept _ (Or.inl rfl)]
      simp
  | some q =>
      rw [Edit.run_of_some hq]
      by_cases hp : q <+: loc
      · rw [edit_of_covered q hp]
        refine iff_of_true ?_ (Or.inl ⟨q, rfl, hp⟩)
        obtain hnone | hsome := hnew
        · rw [hnone]
          exact Or.inl rfl
        · rw [hsome, Option.bind_some]
          cases loc.drop q.length with
          | nil => exact Or.inr rfl
          | cons st rest => cases st <;> exact Or.inl rfl
      · have hcond : (∃ q', some q = some q' ∧ q' <+: loc) ↔ False := by
          rw [iff_false]
          rintro ⟨q', hq', hp'⟩
          rw [← Option.some.inj hq'] at hp'
          exact hp hp'
        rw [hcond, false_or]
        obtain hsame | ⟨st, herased⟩ := @edit_of_uncovered _ _ eraseStep _ e.new q json.view _ hp
        · rw [hsame, hview, hkept _ (Or.inl rfl)]
        · rw [herased, hview, Option.map_some, hkept _ (Or.inr ⟨st, rfl⟩)]

/-! ## §2. The records of a list. -/

/-- The location that a filter has in a document. -/
def filterLocation (filter : ResponseFilterEntry) (json : JsonValue) : Option (List Step) :=
  (filterEdit filter).bind fun e => resolve e.path json.view

/-- **The filter reaches the records**: in every record where its path leads somewhere,
that is redacted or removed. -/
def ReachesRecords (items : List JsonValue) (filter : ResponseFilterEntry) : Prop :=
  ∀ (i : Nat) (item : JsonValue) (loc : List Step), items[i]? = some item →
    locate item filter.field = some loc →
      Cleared (applyFilter (.array items) filter) (.index i :: loc)

/-- **The path from the root covers the path in the records**: wherever that leads, in
one of them, the filter's location in the list is there or above, or the redaction text
is there already. -/
def CoversRecords (items : List JsonValue) (filter : ResponseFilterEntry) : Prop :=
  ∀ (i : Nat) (item : JsonValue) (loc : List Step), items[i]? = some item →
    locate item filter.field = some loc →
      (∃ q, filterLocation filter (.array items) = some q ∧ q <+: .index i :: loc) ∨
        item.valueAt loc = some (.string "***REDACTED***")

/-- **When a list's records are reached, exactly**: the path from the root covers the path
in the records. -/
theorem listRecords_cleared_iff {deps : Externals} {body : List UInt8} {items : List JsonValue}
    (hbody : deps.jsonFromSlice body = .ok (.array items)) {filter : ResponseFilterEntry}
    (haction : filter.action = "redact" ∨ filter.action = "remove") :
    applyResponseFilters deps [filter] body =
        (deps.jsonToVec (applyFilter (.array items) filter)).getD body ∧
      (ReachesRecords items filter ↔ CoversRecords items filter) := by
  refine ⟨applyResponseFilters_of_json deps (by simp) hbody, ?_⟩
  obtain ⟨e, he, hnew⟩ : ∃ e, filterEdit filter = some e ∧
      (e.new = none ∨ e.new = some (JsonValue.string "***REDACTED***").view) := by
    unfold filterEdit
    obtain hredact | hremove := haction
    · rw [hredact]
      exact ⟨_, rfl, Or.inr rfl⟩
    · rw [hremove]
      exact ⟨_, rfl, Or.inl rfl⟩
  unfold ReachesRecords CoversRecords filterLocation
  rw [he]
  refine forall₃_congr fun i item loc => forall₂_congr fun hitem hloc => ?_
  obtain ⟨c, hc⟩ := exists_valueAt_of_resolve _ hloc
  -- the record's value is the list's, one step further in
  have hrecord : (JsonValue.array items).valueAt (.index i :: loc) = some c := by
    rw [valueAt_cons]
    show (items[i]?).bind _ = _
    rw [hitem]
    exact hc
  rw [cleared_applyFilter_iff he hnew hrecord, hc, Option.bind_some, Option.some_inj]

/-- A path whose first segment is no number names nothing in an array. -/
theorem jsonGetMut_array {path first : String} {rest : List String}
    (hpath : splitStr path '.' = first :: rest) (hfirst : parseUsize first = none)
    (items : List JsonValue) : jsonGetMut (.array items) path = none := by
  have hstep : segmentStep first (JsonValue.array items).shape = none := by
    unfold segmentStep
    split
    · rfl
    · show ((parseUsize first).filter _).map _ = none
      rw [hfirst]
      rfl
  unfold jsonGetMut
  rw [hpath, jsonWalkMut_eq _ _ (List.cons_ne_nil first rest), resolve_walk_cons, hstep]
  rfl

/-- **A filter whose path starts with no number** leaves every array as it is. -/
theorem applyFilter_array {filter : ResponseFilterEntry} {first : String} {rest : List String}
    (hpath : splitStr filter.field '.' = first :: rest) (hfirst : parseUsize first = none)
    (items : List JsonValue) : applyFilter (.array items) filter = .array items := by
  have hget := jsonGetMut_array hpath hfirst items
  unfold applyFilter
  split
  · rw [hget]
  · split
    · rfl
    next hlen =>
      -- the parent's path starts with the same segment
      rw [hpath] at hlen
      obtain ⟨next, rest', rfl⟩ : ∃ next rest', rest = next :: rest' := by
        cases rest with
        | nil => exact absurd rfl hlen
        | cons next rest' => exact ⟨next, rest', rfl⟩
      have hsplit : splitStr (joinStr (splitStr filter.field '.').dropLast ".") '.' =
          first :: (next :: rest').dropLast := by
        rw [splitStr_joinStr rfl (by rw [hpath]; simp) fun part hpart =>
          List.mem_of_mem_dropLast hpart, hpath]
        rfl
      have hparent := jsonGetMut_array hsplit hfirst items
      rw [hpath] at hparent
      unfold jsonRemove
      simp only [hpath, hparent]
      split <;> rfl
  · rw [hget]
  · rfl

/-- **So do all such filters together**: a listing is passed on with every record in it. -/
theorem foldl_applyFilter_array {filters : List ResponseFilterEntry}
    (h : ∀ filter ∈ filters, ∃ first rest, splitStr filter.field '.' = first :: rest ∧
      parseUsize first = none) (items : List JsonValue) :
    filters.foldl applyFilter (.array items) = .array items := by
  induction filters with
  | nil => rfl
  | cons filter filters ih =>
      obtain ⟨first, rest, hpath, hfirst⟩ := h filter List.mem_cons_self
      rw [List.foldl_cons, applyFilter_array hpath hfirst]
      exact ih fun filter' hfilter' => h filter' (List.mem_cons_of_mem filter hfilter')

/-- So a filter whose path starts with a key reaches the records only where there is
nothing left to do. -/
theorem reachesRecords_key_iff {filter : ResponseFilterEntry} {first : String}
    {rest : List String} (hpath : splitStr filter.field '.' = first :: rest)
    (hfirst : parseUsize first = none) (items : List JsonValue) :
    ReachesRecords items filter ↔
      ∀ (i : Nat) (item : JsonValue) (loc : List Step), items[i]? = some item →
        locate item filter.field = some loc →
          item.valueAt loc = some (.string "***REDACTED***") := by
  unfold ReachesRecords Cleared
  refine forall₃_congr fun i item loc => forall₂_congr fun hitem hloc => ?_
  obtain ⟨c, hc⟩ := exists_valueAt_of_resolve _ hloc
  have hrecord : (JsonValue.array items).valueAt (.index i :: loc) = item.valueAt loc := by
    rw [valueAt_cons]
    show (items[i]?).bind _ = _
    rw [hitem]
    rfl
  rw [applyFilter_array hpath hfirst, hrecord, hc]
  simp

/-! ## §3. A listing. -/

/-- The list of one container, with the command it runs. -/
def containerList (command : String) : List JsonValue :=
  [.object [("Command", .string command), ("Id", .string "web")]]

/-- The text of such a list, as Docker sends it. -/
def listText (command : String) : List UInt8 :=
  asBytes ("[\x7b\"Command\":\"" ++ command ++ "\",\"Id\":\"web\"\x7d]")

/-- `serde_json` on such a list. -/
def listDeps (command : String) : Externals :=
  { Externals.uncalled with
    jsonFromSlice := fun body =>
      if body = listText command then .ok (.array (containerList command))
      else .error "expected value"
    jsonToVec := fun json =>
      match json with
      | .array [item] => some (asBytes "[" ++ printStrings item ++ asBytes "]")
      | _ => none }

theorem jsonFromSlice_listText (command : String) :
    (listDeps command).jsonFromSlice (listText command) = .ok (.array (containerList command)) := by
  unfold listDeps
  dsimp only
  rw [if_pos rfl]

/-- The filters of `redact-container-command-in-list`. -/
def listFilters : List ResponseFilterEntry :=
  [{ field := "Command", action := "redact" }, { field := "Labels", action := "redact" }]

theorem locate_command (command : String) {i : Nat} {item : JsonValue} {loc : List Step}
    (hitem : (containerList command)[i]? = some item) (hloc : locate item "Command" = some loc) :
    loc = [.key "Command"] ∧ item.valueAt loc = some (.string command) := by
  have hsplit : splitStr "Command" '.' = ["Command"] := by decide +kernel
  have hmem := List.mem_of_getElem? hitem
  rw [List.mem_singleton.mp hmem] at hloc ⊢
  unfold locate walkPath at hloc
  rw [hsplit, resolve_walk_cons] at hloc
  obtain ⟨st, hst, hloc⟩ := Option.bind_eq_some_iff.mp hloc
  obtain ⟨c, hc, hloc⟩ := Option.bind_eq_some_iff.mp hloc
  have hkey : segmentStep "Command" (.object ["Command", "Id"]) = some (.key "Command") := by
    decide +kernel
  obtain rfl := Option.some.inj (hst.symm.trans hkey)
  obtain rfl := Option.some.inj hloc
  exact ⟨rfl, rfl⟩

/-- A list whose one command is redacted already. -/
theorem listRecords_cleared_again :
    ReachesRecords (containerList "***REDACTED***") { field := "Command", action := "redact" } :=
  (listRecords_cleared_iff (jsonFromSlice_listText "***REDACTED***") (Or.inl rfl)).2.mpr
    fun _ _ _ hitem hloc => Or.inr (locate_command "***REDACTED***" hitem hloc).2

/-- **A command that is shown**: the filters that are to hide it in the listing leave the
body as it is. -/
theorem listRecords_command_shown :
    locate (.object [("Command", .string "sh -c secret"), ("Id", .string "web")]) "Command" =
        some [.key "Command"] ∧
    applyResponseFilters (listDeps "sh -c secret") listFilters (listText "sh -c secret") =
        listText "sh -c secret" ∧
    ¬ ReachesRecords (containerList "sh -c secret") { field := "Command", action := "redact" } := by
  have hlocate : locate (.object [("Command", .string "sh -c secret"), ("Id", .string "web")])
      "Command" = some [.key "Command"] := by decide +kernel
  have hcommand : splitStr "Command" '.' = ["Command"] ∧ parseUsize "Command" = none := by
    decide +kernel
  have hlabels : splitStr "Labels" '.' = ["Labels"] ∧ parseUsize "Labels" = none := by
    decide +kernel
  refine ⟨hlocate, ?_, fun h => ?_⟩
  · rw [applyResponseFilters_of_json _ (by simp [listFilters]) (jsonFromSlice_listText _),
      foldl_applyFilter_array]
    · show asBytes "[" ++ printStrings _ ++ asBytes "]" = listText "sh -c secret"
      decide +kernel
    · intro filter hfilter
      simp only [listFilters, List.mem_cons, List.not_mem_nil, or_false] at hfilter
      obtain rfl | rfl := hfilter
      · exact ⟨"Command", [], hcommand⟩
      · exact ⟨"Labels", [], hlabels⟩
  · have hredacted := (reachesRecords_key_iff hcommand.1 hcommand.2 _).mp h 0 _ _ rfl hlocate
    exact absurd hredacted (by simp [JsonValue.valueAt, JsonValue.child, objectGet])

end DockerProxy.Rules
