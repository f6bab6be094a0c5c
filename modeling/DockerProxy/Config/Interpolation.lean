/-
  DockerProxy.Config.Interpolation — which strings of a configuration are expanded.

  `resolve_env_vars` walks the credentials of the authentication settings, and of every
  rule the message, the values of its conditions and the methods.  It does not come to
  the other strings: the global settings, the roles and the certificate mappings, what a
  response filter names, the keys of a condition, and what stands in a mapping or behind
  a tag of a condition's value.

    • `outcome_expandEnv` — a text is expanded reference by reference,
    • `outcome_expandNodeEnv`, `outcome_resolveRule`, `outcome_resolveAuth` — what the
      walk makes of the parts,
    • `resolveEnvVars_everywhere_iff` — the whole configuration is expanded exactly if
      the strings the walk does not come to are their own expansion, and the walk fails
      exactly if a credential names a variable that is not set.
-/
import DockerProxy.Config.Load
import DockerProxy.Lib.Template
import Mathlib.Data.List.TakeWhile

/-! ## §1. The strings of a configuration. -/

namespace DockerProxy

section

variable (f : String → String)

mutual

/-- Change every string of a value; the keys of a mapping and a tag are names. -/
def YamlValue.mapStrings : YamlValue → YamlValue
  | .string s => .string (f s)
  | .sequence seq => .sequence (mapStringsAll seq)
  | .mapping entries => .mapping (mapStringsEntries entries)
  | .tagged tag value => .tagged tag value.mapStrings
  | value => value

def YamlValue.mapStringsAll : List YamlValue → List YamlValue
  | [] => []
  | value :: seq => value.mapStrings :: mapStringsAll seq

def YamlValue.mapStringsEntries : List (YamlValue × YamlValue) → List (YamlValue × YamlValue)
  | [] => []
  | (key, value) :: entries => (key, value.mapStrings) :: mapStringsEntries entries

end

def TlsConfig.mapStrings (tls : TlsConfig) : TlsConfig :=
  { tls with cert := f tls.cert, key := f tls.key, clientCa := tls.clientCa.map f }

def MetricsConfig.mapStrings (metrics : MetricsConfig) : MetricsConfig :=
  { metrics with path := metrics.path.map f }

def GlobalConfig.mapStrings (global : GlobalConfig) : GlobalConfig :=
  { global with
    socket := global.socket.map f
    logLevel := global.logLevel.map f
    logFormat := global.logFormat.map f
    auditLog := global.auditLog.map f
    bind := global.bind.map f
    tls := global.tls.map (TlsConfig.mapStrings f)
    metrics := global.metrics.map (MetricsConfig.mapStrings f)
    trustedProxies := global.trustedProxies.map (List.map f) }

def CertRoleMapping.mapStrings (mapping : CertRoleMapping) : CertRoleMapping :=
  { cn := f mapping.cn, role := f mapping.role }

def MtlsConfig.mapStrings (mtls : MtlsConfig) : MtlsConfig :=
  { certRoleMap := mtls.certRoleMap.map (List.map (CertRoleMapping.mapStrings f))
    defaultRole := mtls.defaultRole.map f }

def TokenEntry.mapStrings (t : TokenEntry) : TokenEntry :=
  { token := f t.token, role := t.role.map f }

def AuthConfig.mapStrings (auth : AuthConfig) : AuthConfig :=
  { authType := auth.authType.map f
    secret := auth.secret.map f
    tokens := auth.tokens.map (List.map (TokenEntry.mapStrings f))
    mtls := auth.mtls.map (MtlsConfig.mapStrings f) }

def Condition.mapStrings (condition : Condition) : Condition :=
  { condition with
    field := f condition.field
    operator := f condition.operator
    value := condition.value.map (YamlValue.mapStrings f) }

mutual

def ConditionNode.mapStrings : ConditionNode → ConditionNode
  | .leaf condition => .leaf (condition.mapStrings f)
  | .and nodes => .and (mapStringsAll nodes)
  | .or nodes => .or (mapStringsAll nodes)

def ConditionNode.mapStringsAll : List ConditionNode → List ConditionNode
  | [] => []
  | node :: nodes => node.mapStrings :: mapStringsAll nodes

end

def ResponseFilterEntry.mapStrings (entry : ResponseFilterEntry) : ResponseFilterEntry :=
  { field := f entry.field, action := f entry.action, replacement := entry.replacement.map f }

def Rule.mapStrings (rule : Rule) : Rule :=
  { rule with
    name := f rule.name
    description := rule.description.map f
    action := f rule.action
    conditions := rule.conditions.map (ConditionNode.mapStrings f)
    message := rule.message.map f
    role := rule.role.map f
    responseFilter := rule.responseFilter.map (List.map (ResponseFilterEntry.mapStrings f))
    methods := rule.methods.map (List.map f) }

/-- **Change every string of the configuration.** -/
def ProxyConfig.mapStrings (config : ProxyConfig) : ProxyConfig :=
  { global := config.global.map (GlobalConfig.mapStrings f)
    auth := config.auth.map (AuthConfig.mapStrings f)
    rules := config.rules.map (List.map (Rule.mapStrings f)) }

end

mutual

/-- The strings of a value. -/
def YamlValue.strings : YamlValue → List String
  | .string s => [s]
  | .sequence seq => stringsAll seq
  | .mapping entries => stringsEntries entries
  | .tagged _ value => value.strings
  | _ => []

def YamlValue.stringsAll : List YamlValue → List String
  | [] => []
  | value :: seq => value.strings ++ stringsAll seq

def YamlValue.stringsEntries : List (YamlValue × YamlValue) → List String
  | [] => []
  | (_, value) :: entries => value.strings ++ stringsEntries entries

end

def TlsConfig.strings (tls : TlsConfig) : List String := [tls.cert, tls.key] ++ tls.clientCa.toList

def MetricsConfig.strings (metrics : MetricsConfig) : List String := metrics.path.toList

def GlobalConfig.strings (global : GlobalConfig) : List String :=
  global.socket.toList ++ global.logLevel.toList ++ global.logFormat.toList ++
    global.auditLog.toList ++ global.bind.toList ++ global.tls.toList.flatMap TlsConfig.strings ++
    global.metrics.toList.flatMap MetricsConfig.strings ++
    global.trustedProxies.getD []

def CertRoleMapping.strings (mapping : CertRoleMapping) : List String := [mapping.cn, mapping.role]

def MtlsConfig.strings (mtls : MtlsConfig) : List String :=
  (mtls.certRoleMap.getD []).flatMap CertRoleMapping.strings ++ mtls.defaultRole.toList

def ResponseFilterEntry.strings (entry : ResponseFilterEntry) : List String :=
  [entry.field, entry.action] ++ entry.replacement.toList

/-! ## §2. The strings that `resolve_env_vars` does not come to. -/

mutual

/-- What stands in a mapping of the value, or behind a tag. -/
def YamlValue.unvisited : YamlValue → List String
  | .sequence seq => unvisitedAll seq
  | .mapping entries => stringsEntries entries
  | .tagged _ value => value.strings
  | _ => []

def YamlValue.unvisitedAll : List YamlValue → List String
  | [] => []
  | value :: seq => value.unvisited ++ unvisitedAll seq

end

def Condition.unvisited (condition : Condition) : List String :=
  [condition.field, condition.operator] ++ condition.value.toList.flatMap YamlValue.unvisited

mutual

def ConditionNode.unvisited : ConditionNode → List String
  | .leaf condition => condition.unvisited
  | .and nodes => unvisitedAll nodes
  | .or nodes => unvisitedAll nodes

def ConditionNode.unvisitedAll : List ConditionNode → List String
  | [] => []
  | node :: nodes => node.unvisited ++ unvisitedAll nodes

end

def Rule.unvisited (rule : Rule) : List String :=
  [rule.name, rule.action] ++ rule.description.toList ++ rule.role.toList ++
    (rule.responseFilter.getD []).flatMap ResponseFilterEntry.strings ++
    rule.conditions.flatMap ConditionNode.unvisited

def AuthConfig.unvisited (auth : AuthConfig) : List String :=
  auth.authType.toList ++ (auth.tokens.getD []).flatMap (fun t => t.role.toList) ++
    auth.mtls.toList.flatMap MtlsConfig.strings

/-- **The strings that `resolve_env_vars` does not come to.** -/
def ProxyConfig.unvisited (config : ProxyConfig) : List String :=
  config.global.toList.flatMap GlobalConfig.strings ++
    config.auth.toList.flatMap AuthConfig.unvisited ++
    (config.rules.getD []).flatMap Rule.unvisited

def AuthConfig.credentials (auth : AuthConfig) : List String :=
  auth.secret.toList ++ (auth.tokens.getD []).map TokenEntry.token

/-- The tokens and the secret. -/
def ProxyConfig.credentials (config : ProxyConfig) : List String :=
  config.auth.toList.flatMap AuthConfig.credentials

section

variable {f : String → String}

theorem list_map_eq_self {α : Type*} {g : α → α} {xs : List α} :
    xs.map g = xs ↔ ∀ x ∈ xs, g x = x := by
  refine Iff.trans ?_ (List.map_eq_map_iff (g := id))
  rw [List.map_id]

theorem option_map_eq_self {α : Type*} {g : α → α} {o : Option α} :
    o.map g = o ↔ ∀ x ∈ o, g x = x := by
  cases o <;> simp

/-- The value that may be missing. -/
theorem forall_mem_toList {α : Type*} {P : α → Prop} {o : Option α} :
    (∀ x ∈ o.toList, P x) ↔ ∀ x ∈ o, P x := by
  cases o <;> simp

/-- The elements of a list that may be missing. -/
theorem forall_mem_getD {α : Type*} {P : α → Prop} {o : Option (List α)} :
    (∀ x ∈ o.getD [], P x) ↔ ∀ xs ∈ o, ∀ x ∈ xs, P x := by
  cases o <;> simp

mutual

/-- A value is unchanged exactly if its strings are. -/
theorem YamlValue.mapStrings_eq_self :
    ∀ value : YamlValue, value.mapStrings f = value ↔ ∀ s ∈ value.strings, f s = s
  | .null | .bool _ | .number _ => by simp [YamlValue.mapStrings, YamlValue.strings]
  | .string s => by simp [YamlValue.mapStrings, YamlValue.strings]
  | .sequence seq => by
      rw [YamlValue.mapStrings, YamlValue.strings, YamlValue.sequence.injEq]
      exact YamlValue.mapStringsAll_eq_self seq
  | .mapping entries => by
      rw [YamlValue.mapStrings, YamlValue.strings, YamlValue.mapping.injEq]
      exact YamlValue.mapStringsEntries_eq_self entries
  | .tagged tag value => by
      rw [YamlValue.mapStrings, YamlValue.strings, YamlValue.tagged.injEq, eq_self_iff_true,
        true_and]
      exact value.mapStrings_eq_self

theorem YamlValue.mapStringsAll_eq_self : ∀ seq : List YamlValue,
    YamlValue.mapStringsAll f seq = seq ↔ ∀ s ∈ YamlValue.stringsAll seq, f s = s
  | [] => by simp [YamlValue.mapStringsAll, YamlValue.stringsAll]
  | value :: seq => by
      rw [YamlValue.mapStringsAll, YamlValue.stringsAll, List.cons.injEq, List.forall_mem_append,
        value.mapStrings_eq_self, YamlValue.mapStringsAll_eq_self seq]

theorem YamlValue.mapStringsEntries_eq_self : ∀ entries : List (YamlValue × YamlValue),
    YamlValue.mapStringsEntries f entries = entries ↔
      ∀ s ∈ YamlValue.stringsEntries entries, f s = s
  | [] => by simp [YamlValue.mapStringsEntries, YamlValue.stringsEntries]
  | (key, value) :: entries => by
      rw [YamlValue.mapStringsEntries, YamlValue.stringsEntries, List.cons.injEq, Prod.mk.injEq,
        eq_self_iff_true, true_and, List.forall_mem_append, value.mapStrings_eq_self,
        YamlValue.mapStringsEntries_eq_self entries]

end

theorem TlsConfig.mapStrings_eq_self (tls : TlsConfig) :
    tls.mapStrings f = tls ↔ ∀ s ∈ tls.strings, f s = s := by
  cases tls
  simp [TlsConfig.mapStrings, TlsConfig.strings, option_map_eq_self]

theorem MetricsConfig.mapStrings_eq_self (metrics : MetricsConfig) :
    metrics.mapStrings f = metrics ↔ ∀ s ∈ metrics.strings, f s = s := by
  cases metrics
  simp [MetricsConfig.mapStrings, MetricsConfig.strings, option_map_eq_self]

/-- The global settings are unchanged exactly if their strings are. -/
theorem GlobalConfig.mapStrings_eq_self (global : GlobalConfig) :
    global.mapStrings f = global ↔ ∀ s ∈ global.strings, f s = s := by
  cases global
  unfold GlobalConfig.mapStrings GlobalConfig.strings
  simp only [List.forall_mem_append, List.forall_mem_flatMap, forall_mem_toList, forall_mem_getD,
    GlobalConfig.mk.injEq, option_map_eq_self, list_map_eq_self, TlsConfig.mapStrings_eq_self,
    MetricsConfig.mapStrings_eq_self, and_assoc, true_and]

theorem CertRoleMapping.mapStrings_eq_self (mapping : CertRoleMapping) :
    mapping.mapStrings f = mapping ↔ ∀ s ∈ mapping.strings, f s = s := by
  cases mapping
  simp [CertRoleMapping.mapStrings, CertRoleMapping.strings]

/-- The certificate roles are unchanged exactly if their strings are. -/
theorem MtlsConfig.mapStrings_eq_self (mtls : MtlsConfig) :
    mtls.mapStrings f = mtls ↔ ∀ s ∈ mtls.strings, f s = s := by
  cases mtls
  unfold MtlsConfig.mapStrings MtlsConfig.strings
  simp only [List.forall_mem_append, List.forall_mem_flatMap, forall_mem_toList, forall_mem_getD,
    MtlsConfig.mk.injEq, option_map_eq_self, list_map_eq_self, CertRoleMapping.mapStrings_eq_self]

theorem ResponseFilterEntry.mapStrings_eq_self (entry : ResponseFilterEntry) :
    entry.mapStrings f = entry ↔ ∀ s ∈ entry.strings, f s = s := by
  cases entry
  simp [ResponseFilterEntry.mapStrings, ResponseFilterEntry.strings, option_map_eq_self]

end

end DockerProxy

namespace DockerProxy.Config

open DockerProxy.Lib

/-! ## §3. The expansion of a text. -/

section

variable (env : LoadEnv)

/-- **The text begins with `${name}`**, and `rest` follows. -/
def RefersTo (text name rest : List Char) : Prop :=
  name ≠ [] ∧ (∀ c ∈ name, env.isWordChar c = true) ∧
    text = '$' :: '\x7b' :: (name ++ '\x7d' :: rest)

/-- The value of a variable; of one that is not set, the empty string. -/
def valueOf (name : List Char) : List Char := ((env.var (String.ofList name)).getD "").toList

/-- **What a text is expanded to.** -/
def Expands (s s' : String) : Prop :=
  ∃ pieces, Reads (RefersTo env) s.toList pieces ∧ s'.toList = fill (valueOf env) pieces

/-- The text names a variable that is not set. -/
def NamesUnset (s : String) : Prop :=
  ∃ pieces name, Reads (RefersTo env) s.toList pieces ∧ Piece.reference name ∈ pieces ∧
    env.var (String.ofList name) = none

end

section

variable {env : LoadEnv}

/-- `\w+` takes the name up to the brace. -/
theorem takeWhile_of_refersTo (hword : env.isWordChar '\x7d' = false) {name : List Char}
    (hname : ∀ c ∈ name, env.isWordChar c = true) (rest : List Char) :
    (name ++ '\x7d' :: rest).takeWhile env.isWordChar = name ∧
      (name ++ '\x7d' :: rest).dropWhile env.isWordChar = '\x7d' :: rest := by
  rw [List.takeWhile_append_of_pos hname, List.dropWhile_append_of_pos hname]
  rw [List.takeWhile_cons_of_neg (by simp [hword]), List.dropWhile_cons_of_neg (by simp [hword])]
  exact ⟨List.append_nil name, rfl⟩

/-- **A reference is matched where one begins.** -/
theorem matchReference_eq_some (hword : env.isWordChar '\x7d' = false)
    {text name rest : List Char} :
    matchReference env text = some (name, rest) ↔ RefersTo env text name rest := by
  constructor
  · intro h
    unfold matchReference at h
    split at h
    next body =>
      have hall := List.takeWhile_append_dropWhile (p := env.isWordChar) (l := body)
      split at h
      next c cs rest' htake hdrop =>
        injection h with h
        injection h with hname hrest
        rw [htake, hdrop, hrest] at hall
        rw [← hname]
        refine ⟨List.cons_ne_nil c cs, fun x hx => ?_, by rw [hall]⟩
        rw [← htake] at hx
        exact List.mem_takeWhile_imp hx
      next => exact absurd h (by simp)
    next => exact absurd h (by simp)
  · rintro ⟨hne, hname, rfl⟩
    obtain ⟨htake, hdrop⟩ := takeWhile_of_refersTo hword hname rest
    obtain ⟨c, cs, rfl⟩ := List.exists_cons_of_ne_nil hne
    unfold matchReference
    simp only [htake, hdrop]

/-- A reference is as long as its name, and three characters. -/
theorem length_of_refersTo (text name rest : List Char) (h : RefersTo env text name rest) :
    rest.length < text.length := by
  obtain ⟨-, -, rfl⟩ := h
  simp only [List.length_cons, List.length_append]
  omega

/-- The names, of the references in a text, that are not set. -/
def unsetNames (env : LoadEnv) (pieces : List (Piece Char (List Char))) : List String :=
  pieces.filterMap fun
    | .letter _ => none
    | .reference name =>
        if (env.var (String.ofList name)).isNone then some (String.ofList name) else none

/-- **The references are replaced as the text is read.** -/
theorem replaceReferences_of_reads (hword : env.isWordChar '\x7d' = false) {text : List Char}
    {pieces : List (Piece Char (List Char))} (h : Reads (RefersTo env) text pieces) :
    ∀ fuel, text.length ≤ fuel →
      replaceReferences env fuel text = (fill (valueOf env) pieces, unsetNames env pieces) := by
  induction h with
  | nil =>
      intro fuel _
      cases fuel <;> rfl
  | @reference text name rest pieces href hrest ih =>
      intro fuel hfuel
      have hshorter := length_of_refersTo _ _ _ href
      cases fuel with
      | zero => omega
      | succ fuel =>
          have hmatch := (matchReference_eq_some hword).mpr href
          cases text with
          | nil => exact absurd hshorter (Nat.not_lt_zero _)
          | cons c cs =>
              unfold replaceReferences
              rw [hmatch]
              simp only [ih fuel (by omega)]
              rw [fill_reference]
              unfold valueOf unsetNames
              cases hvar : env.var (String.ofList name) with
              | some v => simp [hvar]
              | none => simp [hvar]
  | @letter a text pieces hno hrest ih =>
      intro fuel hfuel
      cases fuel with
      | zero => exact absurd hfuel (by simp)
      | succ fuel =>
          have hmatch : matchReference env (a :: text) = none := by
            cases hm : matchReference env (a :: text) with
            | none => rfl
            | some found =>
                exact absurd ((matchReference_eq_some hword).mp hm) (hno found.1 found.2)
          rw [List.length_cons] at hfuel
          unfold replaceReferences
          rw [hmatch]
          simp only [ih fuel (by omega)]
          rfl

/-- Something is missing exactly if a name is not set. -/
theorem unsetNames_ne_nil {pieces : List (Piece Char (List Char))} :
    unsetNames env pieces ≠ [] ↔
      ∃ name, Piece.reference name ∈ pieces ∧ env.var (String.ofList name) = none := by
  unfold unsetNames
  constructor
  · intro hne
    obtain ⟨_, hmem⟩ := List.exists_mem_of_ne_nil _ hne
    obtain ⟨piece, hpiece, h⟩ := List.mem_filterMap.mp hmem
    cases piece with
    | letter a => exact absurd h (by simp)
    | reference name =>
        refine ⟨name, hpiece, ?_⟩
        simp only at h
        split at h
        next hnone => exact Option.isNone_iff_eq_none.mp hnone
        next => exact absurd h (by simp)
  · rintro ⟨name, hmem, hnone⟩
    have hunset : String.ofList name ∈ unsetNames env pieces :=
      List.mem_filterMap.mpr ⟨.reference name, hmem, by simp [hnone]⟩
    exact List.ne_nil_of_mem hunset

/-- **A text has one expansion.** -/
theorem Expands.unique (hword : env.isWordChar '\x7d' = false) {s s₁ s₂ : String}
    (h₁ : Expands env s s₁) (h₂ : Expands env s s₂) : s₁ = s₂ := by
  obtain ⟨p₁, hreads₁, h₁⟩ := h₁
  obtain ⟨p₂, hreads₂, h₂⟩ := h₂
  have hsame := (replaceReferences_of_reads hword hreads₁ _ (Nat.le_refl _)).symm.trans
    (replaceReferences_of_reads hword hreads₂ _ (Nat.le_refl _))
  rw [← String.toList_inj, h₁, h₂]
  exact congrArg Prod.fst hsame

/-- **`expand_env`** gives the expansion, and fails exactly if that is required and a
variable is not set. -/
theorem outcome_expandEnv (hword : env.isWordChar '\x7d' = false) {s s' : String}
    (h : Expands env s s') (required : Bool) :
    Outcome (expandEnv env s required) (required = true ∧ NamesUnset env s) s' True := by
  obtain ⟨pieces, hreads, hs'⟩ := h
  have hreplace := replaceReferences_of_reads hword hreads _ (Nat.le_refl _)
  have hunset : NamesUnset env s ↔ unsetNames env pieces ≠ [] := by
    constructor
    · rintro ⟨pieces', name, hreads', hmem, hnone⟩
      have hsame := hreplace.symm.trans
        (replaceReferences_of_reads hword hreads' _ (Nat.le_refl _))
      injection hsame with _ hsame
      rw [hsame]
      exact unsetNames_ne_nil.mpr ⟨name, hmem, hnone⟩
    · intro hne
      obtain ⟨name, hmem, hnone⟩ := unsetNames_ne_nil.mp hne
      exact ⟨pieces, name, hreads, hmem, hnone⟩
  unfold expandEnv
  rw [hreplace, hunset]
  simp only
  by_cases hfail : required = true ∧ unsetNames env pieces ≠ []
  · have hcond : (required && !(unsetNames env pieces).isEmpty) = true := by
      rw [hfail.1, Bool.true_and, Bool.not_eq_true', List.isEmpty_eq_false_iff]
      exact hfail.2
    rw [if_pos hcond]
    exact ⟨iff_of_true ⟨_, rfl⟩ hfail, fun x hx => nomatch hx⟩
  · have hcond : ¬ (required && !(unsetNames env pieces).isEmpty) = true := by
      rw [Bool.and_eq_true, Bool.not_eq_true', List.isEmpty_eq_false_iff]
      exact hfail
    rw [if_neg hcond]
    refine ⟨iff_of_false (fun ⟨e, he⟩ => nomatch he) hfail, fun x hx => iff_of_true ?_ trivial⟩
    injection hx with hx
    rw [← hx, ← hs', String.ofList_toList]

end

/-! ## §4. What the walk makes of the configuration. -/

section

variable {env : LoadEnv} {f : String → String}

theorem outcome_expandEnv_optional (hword : env.isWordChar '\x7d' = false)
    (hf : ∀ s, Expands env s (f s)) (s : String) :
    Outcome (expandEnv env s false) False (f s) True :=
  (outcome_expandEnv hword (hf s) false).congr (by simp) Iff.rfl

theorem outcome_expandEnv_required (hword : env.isWordChar '\x7d' = false)
    (hf : ∀ s, Expands env s (f s)) (s : String) :
    Outcome (expandEnv env s true) (NamesUnset env s) (f s) True :=
  (outcome_expandEnv hword (hf s) true).congr (by simp) Iff.rfl

mutual

/-- **`expand_value_env`** comes to the texts and, through sequences, to theirs. -/
theorem outcome_expandValueEnv (hword : env.isWordChar '\x7d' = false)
    (hf : ∀ s, Expands env s (f s)) : ∀ value : YamlValue,
      Outcome (expandValueEnv env false value) False (value.mapStrings f)
        (∀ s ∈ value.unvisited, f s = s)
  | .string s => by
      refine ((outcome_expandEnv_optional hword hf s).wrap fun _ _ => YamlValue.string.inj).congr
        Iff.rfl ?_
      simp [YamlValue.unvisited]
  | .sequence seq =>
      (outcome_expandValuesEnv hword hf seq).wrap fun _ _ => YamlValue.sequence.inj
  | .mapping entries => by
      refine Outcome.pure ?_
      rw [YamlValue.mapStrings, YamlValue.mapping.injEq, eq_comm]
      exact YamlValue.mapStringsEntries_eq_self entries
  | .tagged tag value => by
      refine Outcome.pure ?_
      rw [eq_comm]
      exact (YamlValue.tagged tag value).mapStrings_eq_self
  | .null => Outcome.pure (by simp [YamlValue.mapStrings, YamlValue.unvisited])
  | .bool b => Outcome.pure (by simp [YamlValue.mapStrings, YamlValue.unvisited])
  | .number n => Outcome.pure (by simp [YamlValue.mapStrings, YamlValue.unvisited])

theorem outcome_expandValuesEnv (hword : env.isWordChar '\x7d' = false)
    (hf : ∀ s, Expands env s (f s)) : ∀ seq : List YamlValue,
      Outcome (expandValuesEnv env false seq) False (YamlValue.mapStringsAll f seq)
        (∀ s ∈ YamlValue.unvisitedAll seq, f s = s)
  | [] => Outcome.pure (by simp [YamlValue.mapStringsAll, YamlValue.unvisitedAll])
  | value :: seq => by
      rw [expandValuesEnv]
      refine ((outcome_expandValueEnv hword hf value).cons
        (outcome_expandValuesEnv hword hf seq)).congr (or_self_iff) ?_
      rw [YamlValue.unvisitedAll, List.forall_mem_append]

end

/-- **`expand_node_env` on a leaf** comes to the value. -/
theorem outcome_expandConditionEnv (hword : env.isWordChar '\x7d' = false)
    (hf : ∀ s, Expands env s (f s)) (condition : Condition) :
    Outcome (expandConditionEnv env false condition) False (condition.mapStrings f)
      (∀ s ∈ condition.unvisited, f s = s) := by
  unfold expandConditionEnv Condition.mapStrings Condition.unvisited
  obtain ⟨field, operator, value, regex⟩ := condition
  cases value with
  | none =>
      refine Outcome.pure ?_
      rw [eq_comm]
      simp
  | some value =>
      have hleaf : ∀ value', (⟨field, operator, some value', regex⟩ : Condition) =
          ⟨f field, f operator, some (value.mapStrings f), regex⟩ ↔
            value' = value.mapStrings f ∧ f field = field ∧ f operator = operator := by
        intro value'
        simp only [Condition.mk.injEq, Option.some.injEq, and_true]
        rw [eq_comm (a := field), eq_comm (a := operator)]
        exact ⟨fun ⟨h₁, h₂, h₃⟩ => ⟨h₃, h₁, h₂⟩, fun ⟨h₃, h₁, h₂⟩ => ⟨h₁, h₂, h₃⟩⟩
      refine ((outcome_expandValueEnv hword hf value).map hleaf).congr Iff.rfl ?_
      rw [List.forall_mem_append, List.forall_mem_flatMap, forall_mem_toList, and_comm]
      simp

mutual

/-- **`expand_node_env`** comes to every leaf. -/
theorem outcome_expandNodeEnv (hword : env.isWordChar '\x7d' = false)
    (hf : ∀ s, Expands env s (f s)) : ∀ node : ConditionNode,
      Outcome (expandNodeEnv env false node) False (node.mapStrings f)
        (∀ s ∈ node.unvisited, f s = s)
  | .leaf condition =>
      (outcome_expandConditionEnv hword hf condition).wrap fun _ _ => ConditionNode.leaf.inj
  | .and nodes => (outcome_expandNodesEnv hword hf nodes).wrap fun _ _ => ConditionNode.and.inj
  | .or nodes => (outcome_expandNodesEnv hword hf nodes).wrap fun _ _ => ConditionNode.or.inj

theorem outcome_expandNodesEnv (hword : env.isWordChar '\x7d' = false)
    (hf : ∀ s, Expands env s (f s)) : ∀ nodes : List ConditionNode,
      Outcome (traverseNodes (expandConditionEnv env false) nodes) False
        (ConditionNode.mapStringsAll f nodes) (∀ s ∈ ConditionNode.unvisitedAll nodes, f s = s)
  | [] => Outcome.pure (by simp [ConditionNode.mapStringsAll, ConditionNode.unvisitedAll])
  | node :: nodes => by
      rw [traverseNodes]
      refine ((outcome_expandNodeEnv hword hf node).cons
        (outcome_expandNodesEnv hword hf nodes)).congr (or_self_iff) ?_
      rw [ConditionNode.unvisitedAll, List.forall_mem_append]

end

/-- **What the walk makes of a rule**: it never fails, and comes to its message, its
conditions and its methods. -/
theorem outcome_resolveRule (hword : env.isWordChar '\x7d' = false)
    (hf : ∀ s, Expands env s (f s)) (rule : Rule) :
    Outcome (resolveRule env rule) False (rule.mapStrings f) (∀ s ∈ rule.unvisited, f s = s) := by
  have hmessage : Outcome (rule.message.mapM fun msg => expandEnv env msg false) _ _ _ :=
    Outcome.optionMapM fun msg _ => outcome_expandEnv_optional hword hf msg
  have hconditions : Outcome (rule.conditions.mapM (expandNodeEnv env false)) _ _ _ :=
    Outcome.mapM fun node _ => outcome_expandNodeEnv hword hf node
  have hmethods : Outcome (rule.methods.mapM fun methods => methods.mapM fun m =>
      expandEnv env m false) _ _ _ :=
    Outcome.optionMapM fun methods _ => Outcome.mapM fun m _ =>
      outcome_expandEnv_optional hword hf m
  have hrule : ∀ message conditions methods,
      { rule with message, conditions, methods } = rule.mapStrings f ↔
        message = rule.message.map f ∧
          conditions = rule.conditions.map (ConditionNode.mapStrings f) ∧
            methods = rule.methods.map (List.map f) ∧ f rule.name = rule.name ∧
              f rule.action = rule.action ∧ rule.description.map f = rule.description ∧
                rule.role.map f = rule.role ∧
                  rule.responseFilter.map (List.map (ResponseFilterEntry.mapStrings f)) =
                    rule.responseFilter := by
    intro message conditions methods
    unfold Rule.mapStrings
    simp only [Rule.mk.injEq, true_and, and_true]
    rw [eq_comm (a := rule.name), eq_comm (a := rule.action), eq_comm (a := rule.description),
      eq_comm (a := rule.role), eq_comm (a := rule.responseFilter)]
    tauto
  refine (hmessage.map₃ hconditions hmethods hrule).congr (by simp) ?_
  unfold Rule.unvisited
  simp only [List.forall_mem_append, List.forall_mem_cons, List.forall_mem_flatMap,
    forall_mem_toList, forall_mem_getD, option_map_eq_self, list_map_eq_self,
    ResponseFilterEntry.mapStrings_eq_self, implies_true, List.not_mem_nil, false_implies]
  tauto

/-- What the walk makes of a token. -/
theorem outcome_resolveToken (hword : env.isWordChar '\x7d' = false)
    (hf : ∀ s, Expands env s (f s)) (t : TokenEntry) :
    Outcome (resolveToken env t) (NamesUnset env t.token) (t.mapStrings f)
      (∀ s ∈ t.role.toList, f s = s) := by
  have htoken : ∀ token, { t with token } = t.mapStrings f ↔
      token = f t.token ∧ t.role.map f = t.role := by
    intro token
    unfold TokenEntry.mapStrings
    rw [TokenEntry.mk.injEq, eq_comm (a := t.role)]
  refine ((outcome_expandEnv_required hword hf t.token).map htoken).congr Iff.rfl ?_
  rw [true_and, option_map_eq_self, forall_mem_toList]

/-- **What the walk makes of the authentication settings**: it fails for a credential. -/
theorem outcome_resolveAuth (hword : env.isWordChar '\x7d' = false)
    (hf : ∀ s, Expands env s (f s)) (auth : AuthConfig) :
    Outcome (resolveAuth env auth) (∃ s ∈ auth.credentials, NamesUnset env s) (auth.mapStrings f)
      (∀ s ∈ auth.unvisited, f s = s) := by
  have hsecret : Outcome (auth.secret.mapM fun secret => expandEnv env secret true) _ _ _ :=
    Outcome.optionMapM fun secret _ => outcome_expandEnv_required hword hf secret
  have htokens : Outcome (auth.tokens.mapM fun tokens => tokens.mapM (resolveToken env)) _ _ _ :=
    Outcome.optionMapM fun tokens _ => Outcome.mapM fun t _ => outcome_resolveToken hword hf t
  have hauth : ∀ secret tokens, { auth with secret, tokens } = auth.mapStrings f ↔
      secret = auth.secret.map f ∧ tokens = auth.tokens.map (List.map (TokenEntry.mapStrings f)) ∧
        auth.authType.map f = auth.authType ∧
          auth.mtls.map (MtlsConfig.mapStrings f) = auth.mtls := by
    intro secret tokens
    unfold AuthConfig.mapStrings
    rw [AuthConfig.mk.injEq, eq_comm (a := auth.authType), eq_comm (a := auth.mtls)]
    tauto
  refine (hsecret.map₂ htokens hauth).congr ?_ ?_
  · unfold AuthConfig.credentials
    cases auth.secret <;> cases auth.tokens <;> simp
  · unfold AuthConfig.unvisited
    simp only [List.forall_mem_append, List.forall_mem_flatMap, forall_mem_toList,
      forall_mem_getD, option_map_eq_self, MtlsConfig.mapStrings_eq_self]
    tauto

/-- **The whole configuration is expanded** exactly if the strings that
`resolve_env_vars` does not come to are their own expansion; and it fails exactly if a
token or the secret names a variable that is not set. -/
theorem resolveEnvVars_everywhere_iff (hword : env.isWordChar '\x7d' = false)
    (hf : ∀ s, Expands env s (f s)) (config : ProxyConfig) :
    (∀ config', resolveEnvVars env config = .ok config' →
        (config' = config.mapStrings f ↔ ∀ s ∈ config.unvisited, f s = s)) ∧
      ((∃ e, resolveEnvVars env config = .error e) ↔
        ∃ s ∈ config.credentials, NamesUnset env s) := by
  have hauth : Outcome (config.auth.mapM (resolveAuth env)) _ _ _ :=
    Outcome.optionMapM fun auth _ => outcome_resolveAuth hword hf auth
  have hrules : Outcome (config.rules.mapM fun rules => rules.mapM (resolveRule env)) _ _ _ :=
    Outcome.optionMapM fun rules _ => Outcome.mapM fun rule _ =>
      outcome_resolveRule hword hf rule
  have hconfig : ∀ auth rules, { config with auth, rules } = config.mapStrings f ↔
      auth = config.auth.map (AuthConfig.mapStrings f) ∧
        rules = config.rules.map (List.map (Rule.mapStrings f)) ∧
          config.global.map (GlobalConfig.mapStrings f) = config.global := by
    intro auth rules
    unfold ProxyConfig.mapStrings
    rw [ProxyConfig.mk.injEq, eq_comm (a := config.global)]
    tauto
  have houtcome := hauth.map₂ hrules hconfig
  refine ⟨fun config' h => (houtcome.gives config' h).trans ?_, houtcome.fails.trans ?_⟩
  · unfold ProxyConfig.unvisited
    simp only [List.forall_mem_append, List.forall_mem_flatMap, forall_mem_toList,
      forall_mem_getD, option_map_eq_self, GlobalConfig.mapStrings_eq_self]
    tauto
  · unfold ProxyConfig.credentials
    cases config.auth <;> simp

end

/-! ## §5. Configurations that are expanded everywhere, and one that is not. -/

section

variable {env : LoadEnv}

/-- **A text without a dollar sign** is its own expansion. -/
theorem expands_self {s : String} (h : '$' ∉ s.toList) : Expands env s s := by
  refine ⟨s.toList.map Piece.letter, reads_letters ?_, (fill_letters _ _).symm⟩
  rintro suffix hsuffix name rest ⟨-, -, htext⟩
  rw [htext] at hsuffix
  exact h (hsuffix.subset List.mem_cons_self)

/-- The expansion of a text. -/
def expansion (env : LoadEnv) (s : String) : String :=
  String.ofList (replaceReferences env s.toList.length s.toList).1

theorem expands_expansion (hword : env.isWordChar '\x7d' = false) (s : String) :
    Expands env s (expansion env s) := by
  obtain ⟨pieces, hreads⟩ := exists_reads length_of_refersTo s.toList.length s.toList
    (Nat.le_refl _)
  refine ⟨pieces, hreads, ?_⟩
  unfold expansion
  rw [String.toList_ofList, replaceReferences_of_reads hword hreads _ (Nat.le_refl _)]

/-- An environment with one variable. -/
def envWith (name value : String) : LoadEnv where
  var n := if n = name then some value else none
  pathExists _ := false
  readFile _ := .error "no such file"
  parse _ := .ok {}
  isWordChar c := c.isAlphanum || c == '_'
  compileRegex _ := .error "unsupported"

/-- A rule whose message names a variable is expanded. -/
theorem resolveEnvVars_message :
    let env := envWith "TEAM" "ops"
    let config : ProxyConfig :=
      { rules := some [{ name := "no-exec", action := "deny", message := "ask $\x7bTEAM\x7d" }] }
    resolveEnvVars env config = .ok (config.mapStrings (expansion env)) := by
  intro env config
  have hword : env.isWordChar '\x7d' = false := by decide
  have hresolve : resolveEnvVars env config = .ok
      { rules := some [{ name := "no-exec", action := "deny", message := "ask ops" }] } := by
    rfl
  rw [hresolve]
  refine congrArg Except.ok (((resolveEnvVars_everywhere_iff hword (expands_expansion hword)
    config).1 _ hresolve).mpr fun s hs => ?_)
  have hplain : ∀ s ∈ config.unvisited, '$' ∉ s.toList := by decide +kernel
  exact (expands_expansion hword s).unique hword (expands_self (hplain s hs))

/-- **A trusted network that is named by a variable** stays as it is written, so that no
proxy is trusted. -/
theorem resolveEnvVars_trusted_proxies :
    let env := envWith "NET" "10.0.0.0/8"
    let config : ProxyConfig := { global := some { trustedProxies := some ["$\x7bNET\x7d"] } }
    resolveEnvVars env config = .ok config ∧ Expands env "$\x7bNET\x7d" "10.0.0.0/8" ∧
      ¬ ∃ f, (∀ s, Expands env s (f s)) ∧ config = config.mapStrings f := by
  intro env config
  have hword : env.isWordChar '\x7d' = false := by decide
  have hexpands : Expands env "$\x7bNET\x7d" "10.0.0.0/8" := by
    refine ⟨[.reference "NET".toList], .reference ⟨?_, ?_, rfl⟩ .nil, ?_⟩
    · decide
    · exact List.all_eq_true.mp (by decide)
    · decide
  refine ⟨rfl, hexpands, ?_⟩
  rintro ⟨f, hf, hsame⟩
  have hglobal := congrArg (fun config => (config.global.bind GlobalConfig.trustedProxies)) hsame
  have hkept : some ["$\x7bNET\x7d"] = some [f "$\x7bNET\x7d"] := hglobal
  injection hkept with hkept
  injection hkept with hkept
  have hvalue := (hf "$\x7bNET\x7d").unique hword hexpands
  rw [← hkept] at hvalue
  exact absurd hvalue (by decide)

end

end DockerProxy.Config
