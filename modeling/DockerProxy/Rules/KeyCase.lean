/-
  DockerProxy.Rules.KeyCase — body conditions and the letter case of keys.

  Docker's decoder takes a key of a request body for a field whatever the case of its
  letters; `json_get` takes it letter by letter.  Bodies that are equal up to the case
  of their keys are one request to Docker, and may be two to the rules:

    • `EqUpToKeyCase.jsonGet` — values found by one path in both are equal up to key
      case again,
    • `evaluateCondition_keyCase_iff` — when a condition agrees on both bodies,
    • `conditions_keyCase_iff` — all conditions on a path agree exactly when it finds the
      same text in both bodies, or nothing in both.
-/
import DockerProxy.Json.Locations
import DockerProxy.Rules.Negation

namespace DockerProxy.Rules

open DockerProxy.Lib

/-! ## §1. Equality up to the case of keys. -/

/-- The entries of an object stand in the order of their keys, as `serde_json` keeps them. -/
def SortedKeys (map : List (String × JsonValue)) : Prop := map.Pairwise fun e e' => e.1 < e'.1

/-- **The documents differ in the letter case of object keys at most.** -/
inductive EqUpToKeyCase : JsonValue → JsonValue → Prop where
  | null : EqUpToKeyCase .null .null
  | bool (b : Bool) : EqUpToKeyCase (.bool b) (.bool b)
  | number (n : Number) : EqUpToKeyCase (.number n) (.number n)
  | string (s : String) : EqUpToKeyCase (.string s) (.string s)
  | array {arr arr' : List JsonValue} (hlen : arr.length = arr'.length)
      (hitems : ∀ (i : Nat) (v w : JsonValue), arr[i]? = some v → arr'[i]? = some w →
        EqUpToKeyCase v w) :
      EqUpToKeyCase (.array arr) (.array arr')
  | object {map map' : List (String × JsonValue)}
      (hsorted : SortedKeys map) (hsorted' : SortedKeys map')
      (hkeys : ∀ e ∈ map, ∃ e' ∈ map', eqIgnoreAsciiCase e.1 e'.1 = true)
      (hkeys' : ∀ e' ∈ map', ∃ e ∈ map, eqIgnoreAsciiCase e.1 e'.1 = true)
      (hvalues : ∀ e ∈ map, ∀ e' ∈ map', eqIgnoreAsciiCase e.1 e'.1 = true →
        EqUpToKeyCase e.2 e'.2) :
      EqUpToKeyCase (.object map) (.object map')

mutual

/-- No two keys of an object are equal ignoring case. -/
def distinctKeys : JsonValue → Bool
  | .array items => distinctKeysAll items
  | .object entries =>
      decide ((entries.map fun e => e.1.toList.map Char.toLower).Nodup) &&
        distinctKeysEntries entries
  | _ => true

def distinctKeysAll : List JsonValue → Bool
  | [] => true
  | v :: items => distinctKeys v && distinctKeysAll items

def distinctKeysEntries : List (String × JsonValue) → Bool
  | [] => true
  | (_, v) :: entries => distinctKeys v && distinctKeysEntries entries

end

/-- A key is itself, ignoring case. -/
theorem eqIgnoreAsciiCase_self (s : String) : eqIgnoreAsciiCase s s = true :=
  beq_self_eq_true _

/-- One segment finds values equal up to key case, if it finds both. -/
theorem EqUpToKeyCase.jsonChild {v w c d : JsonValue} (h : EqUpToKeyCase v w) {segment : String}
    (hc : jsonChild v segment = some c) (hd : jsonChild w segment = some d) :
    EqUpToKeyCase c d := by
  unfold DockerProxy.jsonChild at hc hd
  split at hc
  next => exact absurd hc (by simp)
  next hempty =>
    rw [if_neg hempty] at hd
    cases h with
    | null | bool | number | string => exact absurd hc (by simp)
    | array hlen hitems =>
        obtain ⟨idx, hidx, hc⟩ := Option.bind_eq_some_iff.mp hc
        obtain ⟨idx', hidx', hd⟩ := Option.bind_eq_some_iff.mp hd
        rw [hidx] at hidx'
        cases hidx'
        exact hitems idx c d hc hd
    | object _ _ hkeys hkeys' hvalues =>
        exact hvalues (segment, c) (mem_of_objectGet hc) (segment, d) (mem_of_objectGet hd)
          (eqIgnoreAsciiCase_self segment)

/-- **One path finds values equal up to key case**, if it finds both. -/
theorem EqUpToKeyCase.jsonGet {v w c d : JsonValue} (h : EqUpToKeyCase v w) {path : String}
    (hc : jsonGet v path = some c) (hd : jsonGet w path = some d) : EqUpToKeyCase c d := by
  unfold DockerProxy.jsonGet at hc hd
  generalize splitStr path '.' = segments at hc hd
  induction segments generalizing v w with
  | nil =>
      cases hc
      cases hd
      exact h
  | cons segment rest ih =>
      rw [List.foldlM_cons] at hc hd
      obtain ⟨v', hv, hc⟩ := Option.bind_eq_some_iff.mp hc
      obtain ⟨w', hw, hd⟩ := Option.bind_eq_some_iff.mp hd
      exact ih (h.jsonChild hv hw) hc hd

/-! ## §2. What the operators see of a value. -/

section

variable {v w : JsonValue} (h : EqUpToKeyCase v w)

include h

/-- `as_str` sees no keys. -/
theorem EqUpToKeyCase.asStr : v.asStr = w.asStr := by
  cases h <;> rfl

/-- `value_equal` sees no keys: it is false for every array and object. -/
theorem EqUpToKeyCase.valueEqual (yamlVal : YamlValue) :
    valueEqual yamlVal v = valueEqual yamlVal w := by
  cases h with
  | null | bool b | number n | string s => rfl
  | array | object => cases yamlVal <;> rfl

end

/-- Items that are no texts are none in both arrays, whatever their keys. -/
theorem EqUpToKeyCase.asStr_items {arr arr' : List JsonValue}
    (h : EqUpToKeyCase (.array arr) (.array arr')) :
    arr.map JsonValue.asStr = arr'.map JsonValue.asStr := by
  cases h with
  | array hlen hitems =>
      refine List.ext_getElem (by rw [List.length_map, List.length_map, hlen]) ?_
      intro i hi hi'
      rw [List.length_map] at hi hi'
      rw [List.getElem_map, List.getElem_map]
      have hitem := hitems i _ _ (List.getElem?_eq_getElem hi) (List.getElem?_eq_getElem hi')
      exact hitem.asStr

variable (deps : Externals)

/-- **The test of an operator on a text**: of a string, or of what a value prints. -/
def textTest (condition : Condition) (text : String) : Bool :=
  match condition.operator with
  | "contains" => isSomeAnd (condition.value.bind yamlValueToString) fun s => containsStr text s
  | "not_contains" =>
      isNoneOr (condition.value.bind yamlValueToString) fun s => !containsStr text s
  | "starts_with" => isSomeAnd (condition.value.bind yamlValueToString) fun s => startsWith text s
  | "matches" => regexMatches condition text
  | _ => false

/-- `contains` among the items of an array. -/
def containsItem (condStr : String) (arr : List JsonValue) : Bool :=
  arr.any fun item => isSomeAnd item.asStr fun s => s == condStr

/-- **The test of an operator on a value**: the value is compared, its items are, or its
text is read. -/
def valueTest (condition : Condition) (v : JsonValue) : Bool :=
  match condition.operator with
  | "equals" => isSomeAnd condition.value fun cv => valueEqual cv v
  | "not_equals" => isNoneOr condition.value fun cv => !valueEqual cv v
  | "in" =>
      match condition.value with
      | some (.sequence seq) => seq.any fun cv => valueEqual cv v
      | _ => false
  | "not_in" =>
      match condition.value with
      | some (.sequence seq) => seq.all fun cv => !valueEqual cv v
      | _ => true
  | "contains" =>
      match v with
      | .array arr =>
          isSomeAnd (condition.value.bind yamlValueToString) fun s => containsItem s arr
      | v => textTest condition (jsonText deps v)
  | "not_contains" =>
      match v with
      | .array arr =>
          isNoneOr (condition.value.bind yamlValueToString) fun s => !containsItem s arr
      | v => textTest condition (jsonText deps v)
  | _ => textTest condition (jsonText deps v)

/-- The operator asks whether there is a value. -/
def AsksPresence (operator : String) : Prop := operator = "exists" ∨ operator = "not_exists"

/-- **The operator reads the printed keys** of the value. -/
def ReadsKeys (operator : String) : JsonValue → Prop
  | .array _ => operator = "starts_with" ∨ operator = "matches"
  | .object _ =>
      operator = "starts_with" ∨ operator = "matches" ∨ operator = "contains" ∨
        operator = "not_contains"
  | _ => False

/-- A path that leads to nothing. -/
theorem matchBodyCondition_of_none {condition : Condition} {body : JsonValue} {path : String}
    (hv : jsonGet body path = none) :
    matchBodyCondition deps condition (some body) path =
      decide (condition.operator = "not_exists") := by
  unfold matchBodyCondition
  simp only [Option.bind_some, hv]
  split
  next hop => rw [hop]; rfl
  next hop => rw [hop]; rfl
  next hop => exact (decide_eq_false hop).symm

/-- A path that leads to a value. -/
theorem matchBodyCondition_of_some {condition : Condition} {body v : JsonValue} {path : String}
    (hv : jsonGet body path = some v) (hop : ¬ AsksPresence condition.operator) :
    matchBodyCondition deps condition (some body) path = valueTest deps condition v := by
  unfold matchBodyCondition valueTest textTest
  simp only [Option.bind_some, hv]
  split
  next h => exact absurd (Or.inl h) hop
  next h => exact absurd (Or.inr h) hop
  next =>
    split
    next h =>
      rw [h]
      rfl
    next h =>
      rw [h]
      rfl
    next h =>
      rw [h]
      cases condition.value.bind yamlValueToString <;> cases v <;> rfl
    next h =>
      rw [h]
      cases condition.value.bind yamlValueToString with
      | none => cases v <;> rfl
      | some s =>
          cases v with
          | array arr => exact all_of_not (fun item => isNoneOr_of_not (fun _ => rfl) _) _
          | null | bool b | number n | string s | object entries => rfl
    next h =>
      rw [h]
      rfl
    next h =>
      rw [h]
      rfl
    next h =>
      rw [h]
      rfl
    next h =>
      rw [h]
      rfl
    next =>
      -- an operator that is none of these
      simp_all

/-- Only four operators read texts. -/
theorem textTest_of_not_mem {condition : Condition} (text : String)
    (h : condition.operator ∉ ["contains", "not_contains", "starts_with", "matches"]) :
    textTest condition text = false := by
  simp only [List.mem_cons, List.not_mem_nil, or_false, not_or] at h
  obtain ⟨hcontains, hnot, hstarts, hmatches⟩ := h
  unfold textTest
  split
  next hop => exact absurd hop hcontains
  next hop => exact absurd hop hnot
  next hop => exact absurd hop hstarts
  next hop => exact absurd hop hmatches
  next => rfl

/-- An operator that reads the keys tests the text. -/
theorem valueTest_of_readsKeys {condition : Condition} {v : JsonValue}
    (h : ReadsKeys condition.operator v) :
    valueTest deps condition v = textTest condition (jsonText deps v) := by
  unfold valueTest
  cases v with
  | null | bool b | number n | string s => exact absurd h not_false
  | array arr => rcases h with h | h <;> rw [h] <;> rfl
  | object entries => rcases h with h | h | h | h <;> rw [h] <;> rfl

section

variable {v w : JsonValue} (h : EqUpToKeyCase v w) {condition : Condition}

include h

theorem EqUpToKeyCase.readsKeys (hreads : ReadsKeys condition.operator v) :
    ReadsKeys condition.operator w := by
  cases h <;> exact hreads

/-- **An operator that does not read the keys sees none.** -/
theorem EqUpToKeyCase.valueTest_of_not_readsKeys (hreads : ¬ ReadsKeys condition.operator v) :
    valueTest deps condition v = valueTest deps condition w := by
  have hequal := h.valueEqual
  cases h with
  | null | bool b | number n | string s => rfl
  | @array arr arr' hlen hitems =>
      have hcontains : ∀ s, containsItem s arr = containsItem s arr' := by
        intro s
        have hany := congrArg (fun items => items.any fun o => isSomeAnd o fun t => t == s)
          (EqUpToKeyCase.array hlen hitems).asStr_items
        simp only [List.any_map] at hany
        exact hany
      unfold valueTest
      simp only [hequal, hcontains]
      split
      all_goals try rfl
      next hcontains hnot =>
        have hno : condition.operator ∉ ["contains", "not_contains", "starts_with", "matches"] := by
          simp only [List.mem_cons, List.not_mem_nil, or_false]
          rintro (hop | hop | hop)
          · exact hcontains hop
          · exact hnot hop
          · exact hreads hop
        rw [textTest_of_not_mem _ hno, textTest_of_not_mem _ hno]
  | object =>
      unfold valueTest
      simp only [hequal]
      split
      all_goals try rfl
      next hop => exact absurd (Or.inr (Or.inr (Or.inl hop))) hreads
      next hop => exact absurd (Or.inr (Or.inr (Or.inr hop))) hreads
      next hcontains hnot =>
        have hno : condition.operator ∉ ["contains", "not_contains", "starts_with", "matches"] := by
          simp only [List.mem_cons, List.not_mem_nil, or_false]
          rintro (hop | hop | hop)
          · exact hcontains hop
          · exact hnot hop
          · exact hreads (hop.imp_right Or.inl)
        rw [textTest_of_not_mem _ hno, textTest_of_not_mem _ hno]

/-- **Two values that a path finds**: the tests agree exactly when an operator that reads
the keys answers alike on both texts. -/
theorem EqUpToKeyCase.valueTest_iff :
    valueTest deps condition v = valueTest deps condition w ↔
      (ReadsKeys condition.operator v →
        textTest condition (jsonText deps v) = textTest condition (jsonText deps w)) := by
  by_cases hreads : ReadsKeys condition.operator v
  · rw [valueTest_of_readsKeys deps hreads, valueTest_of_readsKeys deps (h.readsKeys hreads)]
    exact ⟨fun heq _ => heq, fun himp => himp hreads⟩
  · exact iff_of_true (h.valueTest_of_not_readsKeys deps hreads) fun hr => absurd hr hreads

end

/-! ## §3. When conditions agree. -/

/-- **The key case does not show** in a condition whose path finds these values: nothing in
both bodies; a value in one, and the operator's test fails on it as it does on nothing; or
a value in both, and an operator that reads the keys answers alike on both texts. -/
def CaseHidden (condition : Condition) : Option JsonValue → Option JsonValue → Prop
  | none, none => True
  | some v, none | none, some v =>
      ¬ AsksPresence condition.operator ∧ valueTest deps condition v = false
  | some v, some w =>
      ReadsKeys condition.operator v →
        textTest condition (jsonText deps v) = textTest condition (jsonText deps w)

/-- A value that is there is enough for `exists`, and for `not_exists` it is not. -/
theorem matchBodyCondition_of_asksPresence {condition : Condition} {body v : JsonValue}
    {path : String} (hv : jsonGet body path = some v) (hop : AsksPresence condition.operator) :
    matchBodyCondition deps condition (some body) path =
      decide (condition.operator = "exists") := by
  unfold matchBodyCondition
  simp only [Option.bind_some, hv]
  rcases hop with hop | hop <;> rw [hop] <;> rfl

/-- These two operators read no keys. -/
theorem not_readsKeys_of_asksPresence {operator : String} (hop : AsksPresence operator)
    (v : JsonValue) : ¬ ReadsKeys operator v := by
  unfold ReadsKeys
  rcases hop with hop | hop <;> rw [hop] <;> cases v <;> simp

/-- A value in one body only. -/
theorem matchBodyCondition_one_iff {condition : Condition} {body body' v : JsonValue}
    {path : String} (hv : jsonGet body path = some v) (hw : jsonGet body' path = none) :
    matchBodyCondition deps condition (some body) path =
        matchBodyCondition deps condition (some body') path ↔
      ¬ AsksPresence condition.operator ∧ valueTest deps condition v = false := by
  rw [matchBodyCondition_of_none deps hw]
  by_cases hop : AsksPresence condition.operator
  · refine iff_of_false ?_ fun h => h.1 hop
    rw [matchBodyCondition_of_asksPresence deps hv hop]
    rcases hop with hop | hop <;> rw [hop] <;> decide
  · have hnot : decide (condition.operator = "not_exists") = false :=
      decide_eq_false fun h => hop (Or.inr h)
    rw [matchBodyCondition_of_some deps hv hop, hnot]
    exact ⟨fun h => ⟨hop, h⟩, fun h => h.2⟩

/-- A value in both bodies. -/
theorem matchBodyCondition_both_iff {condition : Condition} {body body' v w : JsonValue}
    {path : String} (hv : jsonGet body path = some v) (hw : jsonGet body' path = some w)
    (h : EqUpToKeyCase v w) :
    matchBodyCondition deps condition (some body) path =
        matchBodyCondition deps condition (some body') path ↔
      (ReadsKeys condition.operator v →
        textTest condition (jsonText deps v) = textTest condition (jsonText deps w)) := by
  by_cases hop : AsksPresence condition.operator
  · -- both have one, whatever it is
    rw [matchBodyCondition_of_asksPresence deps hv hop,
      matchBodyCondition_of_asksPresence deps hw hop]
    exact iff_of_true rfl fun hr => absurd hr (not_readsKeys_of_asksPresence hop v)
  · rw [matchBodyCondition_of_some deps hv hop, matchBodyCondition_of_some deps hw hop]
    exact h.valueTest_iff deps

/-- A condition on a path into the body. -/
theorem evaluateCondition_body {condition : Condition} {path : String}
    (hfield : condition.field = "body." ++ path) (ctx : EvaluationContext) :
    evaluateCondition deps condition ctx = matchBodyCondition deps condition ctx.bodyJson path := by
  obtain ⟨hkind, hpath⟩ := fieldKind_body path
  rw [← hfield] at hkind hpath
  rw [evaluateCondition_of_kind condition deps hkind, matchKind_body, hpath]

/-- **When key case does not matter**, for the condition on a path. -/
theorem matchBodyCondition_keyCase_iff {body body' : JsonValue} (h : EqUpToKeyCase body body')
    (condition : Condition) (path : String) :
    matchBodyCondition deps condition (some body) path =
        matchBodyCondition deps condition (some body') path ↔
      CaseHidden deps condition (jsonGet body path) (jsonGet body' path) := by
  cases hv : jsonGet body path with
  | none =>
      cases hw : jsonGet body' path with
      | none =>
          rw [matchBodyCondition_of_none deps hv, matchBodyCondition_of_none deps hw]
          exact iff_of_true rfl trivial
      | some w =>
          rw [eq_comm]
          exact matchBodyCondition_one_iff deps hw hv
  | some v =>
      cases hw : jsonGet body' path with
      | none => exact matchBodyCondition_one_iff deps hv hw
      | some w => exact matchBodyCondition_both_iff deps hv hw (h.jsonGet hv hw)

/-- **When key case does not matter**: a condition on a body agrees on two bodies that are
equal up to key case exactly when the case does not show in what its path finds. -/
theorem evaluateCondition_keyCase_iff {body body' : JsonValue} (h : EqUpToKeyCase body body')
    {condition : Condition} {path : String} (hfield : condition.field = "body." ++ path)
    (ctx : EvaluationContext) :
    evaluateCondition deps condition { ctx with bodyJson := some body } =
        evaluateCondition deps condition { ctx with bodyJson := some body' } ↔
      CaseHidden deps condition (jsonGet body path) (jsonGet body' path) := by
  rw [evaluateCondition_body deps hfield, evaluateCondition_body deps hfield]
  exact matchBodyCondition_keyCase_iff deps h condition path

/-- Objects of one entry, equal up to the case of its key. -/
theorem EqUpToKeyCase.single {k k' : String} {v w : JsonValue}
    (hk : eqIgnoreAsciiCase k k' = true) (h : EqUpToKeyCase v w) :
    EqUpToKeyCase (.object [(k, v)]) (.object [(k', w)]) := by
  refine .object (List.pairwise_singleton _ _) (List.pairwise_singleton _ _) ?_ ?_ ?_
  · intro e he
    rw [List.mem_singleton.mp he]
    exact ⟨(k', w), List.mem_singleton_self _, hk⟩
  · intro e he
    rw [List.mem_singleton.mp he]
    exact ⟨(k, v), List.mem_singleton_self _, hk⟩
  · intro e he e' he' _
    rw [List.mem_singleton.mp he, List.mem_singleton.mp he']
    exact h

/-- A body that asks for a privileged container, with its two keys spelled in some way. -/
def privilegedBody (hostConfig privileged : String) : JsonValue :=
  .object [(hostConfig, .object [(privileged, .bool true)])]

/-- The presence of `HostConfig` is the same, however the key in it is spelled. -/
theorem evaluateCondition_keyCase_inside :
    let condition : Condition := { field := "body.HostConfig", operator := "exists" }
    evaluateCondition Externals.uncalled condition
        (createRequest (some (privilegedBody "HostConfig" "Privileged"))) =
      evaluateCondition Externals.uncalled condition
        (createRequest (some (privilegedBody "HostConfig" "privileged"))) := by
  intro condition
  have hbodies : EqUpToKeyCase (privilegedBody "HostConfig" "Privileged")
      (privilegedBody "HostConfig" "privileged") :=
    .single (by decide) (.single (by decide) (.bool true))
  refine (evaluateCondition_keyCase_iff Externals.uncalled hbodies
    (show condition.field = "body." ++ "HostConfig" from rfl) (createRequest none)).mpr ?_
  -- both find the object, and `exists` does not read it
  exact fun hreads => absurd hreads (not_readsKeys_of_asksPresence (Or.inl rfl) _)

/-- **A privileged container that the rules do not see**: its keys are spelled in lower
case, and the condition on `HostConfig.Privileged` does not hold. -/
theorem evaluateCondition_keyCase_privileged :
    EqUpToKeyCase (privilegedBody "HostConfig" "Privileged")
        (privilegedBody "hostconfig" "privileged") ∧
      distinctKeys (privilegedBody "HostConfig" "Privileged") = true ∧
      distinctKeys (privilegedBody "hostconfig" "privileged") = true ∧
      evaluateCondition Externals.uncalled { privilegedLeaf with operator := "equals" }
        (createRequest (some (privilegedBody "HostConfig" "Privileged"))) = true ∧
      evaluateCondition Externals.uncalled { privilegedLeaf with operator := "equals" }
        (createRequest (some (privilegedBody "hostconfig" "privileged"))) = false := by
  refine ⟨.single (by decide) (.single (by decide) (.bool true)), ?_, ?_, ?_, ?_⟩
  all_goals decide +kernel

/-! ## §4. All conditions on a path. -/

/-- **What the conditions on a path see**: the text at its end, if there is anything. -/
def seenText (body : JsonValue) (path : String) : Option String :=
  (jsonGet body path).map (jsonText deps)

/-- Texts that begin with each other are equal. -/
theorem eq_of_startsWith {s t : String} (hst : startsWith s t = true)
    (hts : startsWith t s = true) : s = t := by
  have hst := List.isPrefixOf_iff_prefix.mp hst
  have hts := List.isPrefixOf_iff_prefix.mp hts
  exact String.toList_inj.mp (hts.eq_of_length_le hst.length_le)

theorem startsWith_self (s : String) : startsWith s s = true :=
  List.isPrefixOf_iff_prefix.mpr List.prefix_rfl

/-- `starts_with` tells a value from one that prints to another text. -/
theorem seenText_eq_of_startsWith {body body' v w : JsonValue} {path : String}
    (hv : jsonGet body path = some v) (hw : jsonGet body' path = some w)
    (h : ∀ condition : Condition, condition.field = "body." ++ path →
      matchBodyCondition deps condition (some body) path =
        matchBodyCondition deps condition (some body') path) :
    jsonText deps v = jsonText deps w := by
  -- the condition that asks for a text `t` in front
  have hprobe : ∀ t, startsWith (jsonText deps v) t = startsWith (jsonText deps w) t := by
    intro t
    have ht := h { field := "body." ++ path, operator := "starts_with", value := some (.string t) }
      rfl
    unfold matchBodyCondition at ht
    simp only [Option.bind_some, hv, hw] at ht
    exact ht
  apply eq_of_startsWith
  · rw [hprobe]
    exact startsWith_self _
  · rw [← hprobe]
    exact startsWith_self _

/-- **All conditions on a path agree** on two bodies that are equal up to key case exactly
when the path finds the same text in both, or nothing in both. -/
theorem conditions_keyCase_iff {body body' : JsonValue} (h : EqUpToKeyCase body body')
    (path : String) (ctx : EvaluationContext) :
    (∀ condition : Condition, condition.field = "body." ++ path →
      evaluateCondition deps condition { ctx with bodyJson := some body } =
        evaluateCondition deps condition { ctx with bodyJson := some body' }) ↔
      seenText deps body path = seenText deps body' path := by
  constructor
  · intro hall
    -- `exists` and `starts_with` tell bodies with different texts apart
    have hmatch : ∀ condition : Condition, condition.field = "body." ++ path →
        matchBodyCondition deps condition (some body) path =
          matchBodyCondition deps condition (some body') path := by
      intro condition hfield
      have hcondition := hall condition hfield
      rwa [evaluateCondition_body deps hfield, evaluateCondition_body deps hfield] at hcondition
    have hexists : (jsonGet body path).isSome = (jsonGet body' path).isSome :=
      hmatch { field := "body." ++ path, operator := "exists" } rfl
    unfold seenText
    cases hv : jsonGet body path with
    | none =>
        rw [hv] at hexists
        have hnone := Option.isSome_eq_false_iff.mp hexists.symm
        rw [Option.isNone_iff_eq_none.mp hnone]
    | some v =>
        rw [hv] at hexists
        obtain ⟨w, hw⟩ := Option.isSome_iff_exists.mp hexists.symm
        rw [hw, Option.map_some, Option.map_some, seenText_eq_of_startsWith deps hv hw hmatch]
  · intro htext condition hfield
    rw [evaluateCondition_body deps hfield, evaluateCondition_body deps hfield]
    refine (matchBodyCondition_keyCase_iff deps h condition path).mpr ?_
    unfold seenText at htext
    cases hv : jsonGet body path with
    | none =>
        rw [hv, Option.map_none] at htext
        rw [Option.map_eq_none_iff.mp htext.symm]
        exact trivial
    | some v =>
        rw [hv, Option.map_some] at htext
        obtain ⟨w, hw, htext⟩ := Option.map_eq_some_iff.mp htext.symm
        rw [hw]
        exact fun _ => congrArg (textTest condition) htext.symm

end DockerProxy.Rules
