/-
  DockerProxy.Rules.FilterTargets — filters touch their targets only, and only once.

  A filter writes a string or cuts a key off, so it only takes away from a document:
  what its field path names later in a run it named in the beginning.

    • `takesAway_filterEdit` — the edits of filters are of that kind,
    • `foldl_applyFilter_frame` — what is unrelated to every named location stays,
    • `applyResponseFilters_idempotent` — filtering a filtered body changes nothing.
-/
import DockerProxy.Json.Paths
import DockerProxy.Lib.Pruning
import DockerProxy.Rules.Redaction

namespace DockerProxy.Rules

open DockerProxy.Lib

/-! ## §1. Filters only take away. -/

/-- The child that a segment names: a key of an object, or an index of an array. -/
def fieldStep (segment : String) : Shape → Option Step
  | .array length => ((parseUsize segment).filter fun idx => decide (idx < length)).map .index
  | s => keyStep segment s

/-- `json_get_mut` reads a segment so, unless it is empty. -/
theorem fieldStep_of_segmentStep {segment : String} {s : Shape} {st : Step}
    (h : segmentStep segment s = some st) : fieldStep segment s = some st := by
  unfold segmentStep at h
  split at h
  · exact absurd h (by simp)
  · cases s <;> exact h

/-- A removal reads its last segment so, unless it is an index. -/
theorem fieldStep_of_keyStep {key : String} {s : Shape} {st : Step}
    (h : keyStep key s = some st) : fieldStep key s = some st := by
  obtain ⟨keys, rfl, -, -⟩ := keyStep_eq_some.mp h
  exact h

/-- What a node without a key still steps to. -/
theorem fieldStep_of_erase {segment k : String} {s : Shape} {st : Step}
    (h : fieldStep segment (eraseStep s (.key k)) = some st) :
    fieldStep segment s = some st ∧ st ≠ .key k := by
  cases s with
  | object keys =>
      have h : keyStep segment (.object (keys.filter fun key => key ≠ k)) = some st := h
      obtain ⟨keys', hkeys, hmem, rfl⟩ := keyStep_eq_some.mp h
      obtain rfl := Shape.object.inj hkeys
      obtain ⟨hmem, hne⟩ := List.mem_filter.mp hmem
      refine ⟨keyStep_eq_some.mpr ⟨keys, rfl, hmem, rfl⟩, fun heq => ?_⟩
      exact of_decide_eq_true hne (Step.key.inj heq)
  | array length =>
      refine ⟨h, fun heq => ?_⟩
      obtain ⟨idx, -, hidx⟩ := Option.map_eq_some_iff.mp h
      exact absurd (hidx.trans heq) (by simp)
  | _ => exact absurd h (by simp [fieldStep, eraseStep, keyStep])

theorem fieldStep_erase (segment : String) {s : Shape} {st st' : Step}
    (h : fieldStep segment s = some st) (hne : st ≠ st') :
    fieldStep segment (eraseStep s st') = some st := by
  cases s with
  | object keys =>
      have hkey := keyStep_erase segment (s := .object keys) h hne
      cases st' <;> exact hkey
  | array length => exact h
  | _ => exact absurd h (by simp [fieldStep, keyStep])

/-- A segment, as a field path is read: an object key or an array index. -/
def fieldSegment (segment : String) : Segment eraseStep :=
  ⟨fieldStep segment, fieldStep_erase segment⟩

/-- **The location that a field path names**, with empty keys too. -/
def fieldLocation (json : JsonValue) (path : String) : Option (List Step) :=
  resolve ((splitStr path '.').map fieldSegment) json.view

/-- The steps that are cut off. -/
def keySteps : Set Step := Set.range Step.key

/-- The segments that step to no key that is gone, and on no string. -/
def documentSegments : Set (Segment eraseStep) :=
  {seg | (∀ s st k, seg.step (eraseStep s (.key k)) = some st →
      seg.step s = some st ∧ st ≠ .key k) ∧ ∀ x, seg.step (.string x) = none}

theorem cutsOff_documentSegments : CutsOff documentSegments keySteps := by
  rintro seg ⟨hseg, -⟩ s st st' ⟨k, rfl⟩ hstep
  exact hseg s st k hstep

theorem walkSegment_mem (segment : String) : walkSegment segment ∈ documentSegments := by
  refine ⟨fun s st k h => ?_, fun x => ?_⟩
  · obtain ⟨hfield, hne⟩ := fieldStep_of_erase (fieldStep_of_segmentStep h)
    refine ⟨?_, hne⟩
    have h : segmentStep segment (eraseStep s (.key k)) = some st := h
    show segmentStep segment s = some st
    unfold segmentStep at h ⊢
    split at h
    · exact absurd h (by simp)
    next hempty =>
      rw [if_neg hempty]
      cases s <;> exact hfield
  · show segmentStep segment (.string x) = none
    unfold segmentStep
    split <;> rfl

theorem keySegment_mem (key : String) : keySegment key ∈ documentSegments := by
  refine ⟨fun s st k h => ?_, fun x => rfl⟩
  have hfield := fieldStep_of_erase (fieldStep_of_keyStep h)
  cases s with
  | object keys => exact hfield
  | _ => exact absurd h (by simp [keySegment, eraseStep, keyStep])

/-- What a string shows below its root. -/
theorem view_string {x : String} {loc : List Step} {s : Shape}
    (h : (JsonValue.string x).view loc = some s) : loc = [] ∧ s = .string x := by
  cases loc with
  | nil => exact ⟨rfl, (Option.some.inj h).symm⟩
  | cons st loc =>
      rw [JsonValue.view_cons] at h
      cases st <;> exact absurd h (by simp [JsonValue.child])

/-- A removal's path names an object key. -/
theorem resolve_removePath {path : String} {V : View Step Shape} {q : List Step}
    (h : resolve (removePath path) V = some q) :
    ∃ p, q = p ++ [.key ((splitStr path '.').getLastD "")] := by
  unfold removePath at h
  rw [resolve_append] at h
  obtain ⟨p, -, h⟩ := Option.bind_eq_some_iff.mp h
  obtain ⟨r, hr, hq⟩ := Option.map_eq_some_iff.mp h
  obtain ⟨s, st, r', -, hstep, hr', rfl⟩ := resolve_cons_eq_some.mp hr
  obtain ⟨-, -, -, rfl⟩ := keyStep_eq_some.mp hstep
  obtain rfl := Option.some.inj hr'
  exact ⟨p, hq.symm⟩

theorem walkPath_ne_nil (path : String) : walkPath path ≠ [] := by
  unfold walkPath
  rw [ne_eq, List.map_eq_nil_iff]
  exact splitStr_ne_nil path '.'

theorem within_walkPath (path : String) : Within documentSegments (walkPath path) := by
  intro seg hseg
  obtain ⟨segment, -, rfl⟩ := List.mem_map.mp hseg
  exact walkSegment_mem segment

/-- **The edit of a filter only takes away.** -/
theorem takesAway_filterEdit {filter : ResponseFilterEntry} {e : Edit Step Shape eraseStep}
    (h : filterEdit filter = some e) : e.TakesAway documentSegments keySteps := by
  have hleaf : ∀ N, e.new = some N → Unsteppable documentSegments N := by
    intro N hN seg hseg loc s hs
    obtain ⟨x, rfl⟩ := new_filterEdit h hN
    obtain ⟨-, rfl⟩ := view_string hs
    exact hseg.2 x
  have hwrite : ∀ N, e = ⟨walkPath filter.field, some N⟩ →
      e.TakesAway documentSegments keySteps := by
    rintro N rfl
    exact ⟨walkPath_ne_nil _, within_walkPath _, hleaf, fun V q _ hnone => absurd hnone (by simp)⟩
  unfold filterEdit at h
  split at h
  · exact hwrite _ (Option.some.inj h).symm
  · obtain rfl := Option.some.inj h
    refine ⟨List.append_ne_nil_of_right_ne_nil _ (List.cons_ne_nil _ _), ?_, hleaf, ?_⟩
    · intro seg hseg
      cases List.mem_append.mp hseg with
      | inl hwalk =>
          obtain ⟨segment, -, rfl⟩ := List.mem_map.mp hwalk
          exact walkSegment_mem segment
      | inr hkey =>
          rw [List.mem_singleton.mp hkey]
          exact keySegment_mem _
    · -- what is cut off is a key
      intro V q hq _ q' st hq'
      obtain ⟨p, hp⟩ := resolve_removePath hq
      rw [hp] at hq'
      obtain ⟨-, hst⟩ := List.append_inj' hq' rfl
      rw [← (List.cons.inj hst).1]
      exact Set.mem_range_self _
  · exact hwrite _ (Option.some.inj h).symm
  · exact absurd h (by simp)

/-! ## §2. What stays. -/

/-- **What an edit names is what its field path names.** -/
theorem fieldLocation_of_resolve {filter : ResponseFilterEntry} {e : Edit Step Shape eraseStep}
    (h : filterEdit filter = some e) {json : JsonValue} {q : List Step}
    (hq : resolve e.path json.view = some q) : fieldLocation json filter.field = some q := by
  have hwalk : ∀ {segments : List String} {V : View Step Shape} {q : List Step},
      resolve (segments.map walkSegment) V = some q →
        resolve (segments.map fieldSegment) V = some q := fun {segments} _ _ =>
    resolve_map_mono (fun _ _ _ => fieldStep_of_segmentStep) segments
  unfold filterEdit at h
  split at h
  · obtain rfl := Option.some.inj h
    exact hwalk hq
  · obtain rfl := Option.some.inj h
    -- the parent's segments, and then the last one, which names a key
    have hq : resolve ((splitStr filter.field '.').dropLast.map walkSegment ++
        [(splitStr filter.field '.').getLastD ""].map keySegment) json.view = some q := hq
    rw [resolve_append] at hq
    obtain ⟨p, hp, hq⟩ := Option.bind_eq_some_iff.mp hq
    obtain ⟨r, hr, hq⟩ := Option.map_eq_some_iff.mp hq
    have hr := resolve_map_mono (g := fieldSegment) (fun _ _ _ => fieldStep_of_keyStep) _ hr
    unfold fieldLocation
    rw [splitStr_eq_dropLast_append, List.map_append, resolve_append, hwalk hp, Option.bind_some]
    exact (congrArg _ hr).trans (congrArg some hq)
  · obtain rfl := Option.some.inj h
    exact hwalk hq
  · exact absurd h (by simp)

/-- A location that is neither equal to, nor above, nor below another. -/
def Unrelated (loc q : List Step) : Prop := ¬ q <+: loc ∧ ¬ loc <+: q

theorem Unrelated.append {loc q : List Step} (h : Unrelated loc q) (rest : List Step) :
    Unrelated (loc ++ rest) q := by
  obtain ⟨hbelow, habove⟩ := h
  refine ⟨fun hp => ?_, fun hp => habove ((List.prefix_append loc rest).trans hp)⟩
  cases List.prefix_or_prefix_of_prefix hp (List.prefix_append loc rest) with
  | inl h => exact hbelow h
  | inr h => exact habove h

/-- **Filters touch their targets only**: a value stays that stands at none of the
locations that the field paths name in the document, nor above or below one; and what
is made of the document is what `apply_response_filters` prints. -/
theorem foldl_applyFilter_frame {json : JsonValue} (hkeys : json.UniqueKeys)
    {filters : List ResponseFilterEntry} {loc : List Step}
    (hloc : ∀ filter ∈ filters, ∀ q, fieldLocation json filter.field = some q →
      Unrelated loc q) :
    (filters.foldl applyFilter json).valueAt loc = json.valueAt loc ∧
      ∀ (deps : Externals) (body : List UInt8), filters ≠ [] →
        deps.jsonFromSlice body = .ok json →
          applyResponseFilters deps filters body =
            (deps.jsonToVec (filters.foldl applyFilter json)).getD body := by
  refine ⟨valueAt_eq_of_below (uniqueKeys_foldl_applyFilter filters hkeys) hkeys ?_,
    fun deps body hne hbody => applyResponseFilters_of_json deps hne hbody⟩
  funext rest
  show (filters.foldl applyFilter json).view (loc ++ rest) = json.view (loc ++ rest)
  rw [foldl_applyFilter_view]
  refine runEdits_of_unrelated cutsOff_documentSegments _ (fun e he => ?_) fun e he q hq => ?_
  · obtain ⟨filter, -, hedit⟩ := List.mem_filterMap.mp he
    exact takesAway_filterEdit hedit
  · obtain ⟨filter, hfilter, hedit⟩ := List.mem_filterMap.mp he
    exact (hloc filter hfilter q (fieldLocation_of_resolve hedit hq)).append rest

/-- The object beside a removed variable stays. -/
theorem foldl_applyFilter_frame_id :
    (applyFilter (containerDoc "A=1") { field := "Config.Env", action := "remove" }).valueAt
      [.key "Id"] = some (.string "web") := by
  have hapart : ∀ filter ∈ [{ field := "Config.Env", action := "remove" : ResponseFilterEntry }],
      ∀ q, fieldLocation (containerDoc "A=1") filter.field = some q →
        Unrelated [.key "Id"] q := by
    intro filter hfilter q hq
    rw [List.mem_singleton.mp hfilter] at hq
    have hnamed : fieldLocation (containerDoc "A=1") "Config.Env" =
        some [.key "Config", .key "Env"] := by decide +kernel
    obtain rfl := Option.some.inj (hq.symm.trans hnamed)
    exact ⟨by decide, by decide⟩
  exact (foldl_applyFilter_frame (uniqueKeys_containerDoc "A=1") hapart).1

/-! ## §3. Filtering twice. -/

/-- **Filters change nothing in what they have made.** -/
theorem foldl_applyFilter_foldl (filters : List ResponseFilterEntry) {json : JsonValue}
    (hkeys : json.UniqueKeys) :
    filters.foldl applyFilter (filters.foldl applyFilter json) =
      filters.foldl applyFilter json := by
  have honce := uniqueKeys_foldl_applyFilter filters hkeys
  refine JsonValue.eq_of_view_eq _ _ (uniqueKeys_foldl_applyFilter filters honce) honce ?_
  rw [foldl_applyFilter_view, foldl_applyFilter_view]
  refine runEdits_idempotent cutsOff_documentSegments _ (fun e he => ?_) json.view
  obtain ⟨filter, -, hedit⟩ := List.mem_filterMap.mp he
  exact takesAway_filterEdit hedit

/-- What is relied on in `serde_json`: a parsed object repeats no key, and what is
printed is parsed as the value it was printed from. -/
structure SerdeRoundTrip (deps : Externals) : Prop where
  uniqueKeys : ∀ body json, deps.jsonFromSlice body = .ok json → json.UniqueKeys
  parses : ∀ json bytes, json.UniqueKeys → deps.jsonToVec json = some bytes →
    deps.jsonFromSlice bytes = .ok json

/-- **Filtering a filtered body changes nothing**, whatever the filters and the body. -/
theorem applyResponseFilters_idempotent {deps : Externals} (hserde : SerdeRoundTrip deps)
    (filters : List ResponseFilterEntry) (body : List UInt8) :
    applyResponseFilters deps filters (applyResponseFilters deps filters body) =
      applyResponseFilters deps filters body := by
  by_cases hnil : filters = []
  · rw [hnil]
    rfl
  · cases hbody : deps.jsonFromSlice body with
    | error e =>
        -- a body that is not JSON is left alone, and so it is the second time
        have hsame : applyResponseFilters deps filters body = body := by
          unfold applyResponseFilters
          rw [List.isEmpty_eq_false_iff.mpr hnil, hbody]
          rfl
        rw [hsame, hsame]
    | ok json =>
        have hkeys := hserde.uniqueKeys body json hbody
        have hout := applyResponseFilters_of_json deps hnil hbody
        cases hprint : deps.jsonToVec (filters.foldl applyFilter json) with
        | none =>
            -- what does not print is left alone as well
            rw [hprint, Option.getD_none] at hout
            rw [hout, hout]
        | some bytes =>
            rw [hprint, Option.getD_some] at hout
            have hagain := hserde.parses _ bytes (uniqueKeys_foldl_applyFilter filters hkeys) hprint
            rw [hout, applyResponseFilters_of_json deps hnil hagain,
              foldl_applyFilter_foldl filters hkeys, hprint, Option.getD_some]

/-- A variable that is redacted, and removed unless it was. -/
def envFilters : List ResponseFilterEntry :=
  [{ field := "Env", action := "redact" }, { field := "Env.0", action := "remove" }]

/-- An object of one variable, open or redacted, as text. -/
def envToVec : JsonValue → Option (List UInt8)
  | .object [("Env", .string value)] =>
      if value = "A=1" ∨ value = "***REDACTED***" then some (asBytes (oneField "Env" value))
      else none
  | _ => none

def envFromSlice (body : List UInt8) : Except String JsonValue :=
  if body = asBytes (oneField "Env" "A=1") then .ok (.object [("Env", .string "A=1")])
  else if body = asBytes (oneField "Env" "***REDACTED***") then
    .ok (.object [("Env", .string "***REDACTED***")])
  else .error "expected value at line 1 column 1"

/-- `serde_json` on these. -/
def envDeps : Externals :=
  { Externals.uncalled with jsonFromSlice := envFromSlice, jsonToVec := envToVec }

theorem envFromSlice_oneField {value : String} (h : value = "A=1" ∨ value = "***REDACTED***") :
    envFromSlice (asBytes (oneField "Env" value)) = .ok (.object [("Env", .string value)]) := by
  obtain rfl | rfl := h
  · exact if_pos rfl
  · exact (if_neg (by decide +kernel)).trans (if_pos rfl)

theorem serdeRoundTrip_envDeps : SerdeRoundTrip envDeps := by
  have hobject : ∀ value, (JsonValue.object [("Env", .string value)]).UniqueKeys := fun value =>
    JsonValue.uniqueKeys_object (by simp) fun e he => by
      rw [List.mem_singleton.mp he]
      exact uniqueKeys_string value
  refine ⟨fun body json h => ?_, fun json bytes _ h => ?_⟩
  · have h : envFromSlice body = .ok json := h
    unfold envFromSlice at h
    split at h
    · rw [← Except.ok.inj h]
      exact hobject _
    · split at h
      · rw [← Except.ok.inj h]
        exact hobject _
      · exact absurd h (by simp)
  · have h : envToVec json = some bytes := h
    unfold envToVec at h
    split at h
    · split at h
      next value hvalue =>
        rw [← Option.some.inj h]
        exact envFromSlice_oneField hvalue
      next => exact absurd h (by simp)
    · exact absurd h (by simp)

/-- A body that is filtered, and filtered again. -/
theorem applyResponseFilters_idempotent_env :
    applyResponseFilters envDeps envFilters
        (applyResponseFilters envDeps envFilters (asBytes (oneField "Env" "A=1"))) =
      applyResponseFilters envDeps envFilters (asBytes (oneField "Env" "A=1")) :=
  applyResponseFilters_idempotent serdeRoundTrip_envDeps envFilters _

end DockerProxy.Rules
