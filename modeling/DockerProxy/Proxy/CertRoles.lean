/-
  DockerProxy.Proxy.CertRoles — which entry of `cert_role_map` decides.

  The documented rule reads the map in order: the first entry that matches any name
  of the certificate gives the role, and `*.rest` matches one label before `.rest`.
  `resolve_mtls_role` goes through the names first and through the map for each name,
  and `cn_match` takes an empty label too.

    • `cnMatch_iff` — what a pattern matches,
    • `resolveMtlsRole_of_mapped` — the first name that an entry matches decides, with
      the first entry that matches it,
    • `resolveMtlsRole_byRule_iff` — when that is what the rule says,
    • `resolveMtlsRole_of_single` — as it is for one name, but for the empty label.
-/
import DockerProxy.Lib.FirstStop
import DockerProxy.Proxy.Authenticate
import Mathlib.Data.List.Nodup

namespace DockerProxy.Proxy

open DockerProxy.Lib

/-! ## §1. Patterns. -/

/-- **What a pattern matches**: itself, and `*.rest` whatever ends in `.rest` and has no
dot before that. -/
theorem cnMatch_iff {pattern value : String} :
    cnMatch pattern value = true ↔
      pattern = value ∨ ∃ label rest, '.' ∉ label.toList ∧ pattern = "*." ++ rest ∧
        value = label ++ "." ++ rest := by
  have hsplit : ∀ label rest : String,
      (label ++ "." ++ rest).toList = label.toList ++ '.' :: rest.toList := by
    intro label rest
    rw [String.toList_append, String.toList_append, List.append_assoc]
    rfl
  unfold cnMatch
  by_cases heq : pattern = value
  · rw [if_pos (beq_iff_eq.mpr heq)]
    exact iff_of_true rfl (Or.inl heq)
  rw [if_neg (by simpa using heq)]
  constructor
  · intro h
    refine Or.inr ?_
    cases hstrip : stripPrefix pattern "*." with
    | none => rw [hstrip] at h; exact absurd h (by simp)
    | some rest =>
        rw [hstrip] at h
        dsimp only at h
        by_cases hdot : '.' ∈ value.toList
        · obtain ⟨label, tail, hvalue, hlabel⟩ := List.eq_append_cons_of_mem hdot
          rw [hvalue, findIdx?_append_cons hlabel] at h
          dsimp only at h
          rw [← List.singleton_append, ← List.append_assoc,
            List.drop_left' (by rw [List.length_append]; rfl), beq_iff_eq] at h
          refine ⟨String.ofList label, rest, by rwa [String.toList_ofList],
            stripPrefix_eq_some.mp hstrip, ?_⟩
          rw [← String.toList_inj, hsplit, String.toList_ofList, ← h]
          exact hvalue
        · rw [findIdx?_of_not_mem hdot] at h
          exact absurd h (by simp)
  · rintro (h | ⟨label, rest, hlabel, hpattern, hvalue⟩)
    · exact absurd h heq
    · rw [stripPrefix_eq_some.mpr hpattern]
      dsimp only
      rw [hvalue, hsplit, findIdx?_append_cons hlabel]
      dsimp only
      rw [← List.singleton_append, ← List.append_assoc,
        List.drop_left' (by rw [List.length_append]; rfl), beq_self_eq_true]

/-- **What a pattern is to match**: an equal name, and `*.rest` a name of one label, not
empty, before `.rest`. -/
def PatternMatches (pattern name : String) : Prop :=
  pattern = name ∨ ∃ label rest, label ≠ "" ∧ '.' ∉ label.toList ∧ pattern = "*." ++ rest ∧
    name = label ++ "." ++ rest

/-- The name is what follows the star of the pattern. -/
def EmptyLabel (pattern name : String) : Prop :=
  ∃ rest, pattern = "*." ++ rest ∧ name = "." ++ rest

/-- **A pattern matches what it is to match, exactly** except for an empty label. -/
theorem cnMatch_patternMatches_iff {pattern name : String} :
    (cnMatch pattern name = true ↔ PatternMatches pattern name) ↔ ¬ EmptyLabel pattern name := by
  rw [cnMatch_iff]
  unfold PatternMatches EmptyLabel
  constructor
  · rintro hiff ⟨rest, hpattern, hname⟩
    have hmatch := hiff.mp (Or.inr ⟨"", rest, by simp, hpattern, hname⟩)
    obtain heq | ⟨label, rest', hlabel, -, hpattern', hname'⟩ := hmatch
    · -- a star is not a dot
      have hlist := congrArg String.toList (hpattern.symm.trans (heq.trans hname))
      simp only [String.toList_append] at hlist
      exact absurd hlist (by simp)
    · -- both readings have the same rest, so the label is empty
      have hrest : rest = rest' := (String.append_right_inj _).mp (hpattern.symm.trans hpattern')
      rw [hname, hrest] at hname'
      have hlen := congrArg String.length hname'
      simp only [String.length_append] at hlen
      exact hlabel (String.length_eq_zero_iff.mp (by omega))
  · intro hempty
    constructor
    · rintro (heq | ⟨label, rest, hlabel, hpattern, hname⟩)
      · exact Or.inl heq
      · refine Or.inr ⟨label, rest, ?_, hlabel, hpattern, hname⟩
        rintro rfl
        exact hempty ⟨rest, hpattern, by rwa [String.empty_append] at hname⟩
    · rintro (heq | ⟨label, rest, -, hlabel, hpattern, hname⟩)
      · exact Or.inl heq
      · exact Or.inr ⟨label, rest, hlabel, hpattern, hname⟩

/-! ## §2. Which entry decides. -/

/-- The names of a certificate: the CN and the SANs. -/
def CertIdentity.names (identity : CertIdentity) : List String :=
  identity.commonName.toList ++ identity.sans

/-- `cert_role_map`, where there is one. -/
def roleMap (mtls : Option MtlsConfig) : List CertRoleMapping :=
  (mtls.bind fun cfg => cfg.certRoleMap).getD []

/-- The entry matches one of the names. -/
def Names (matching : String → String → Prop) (names : List String) (entry : CertRoleMapping) :
    Prop :=
  ∃ name ∈ names, matching entry.cn name

/-- `cn_match` accepts. -/
def CodeMatches (pattern name : String) : Prop := cnMatch pattern name = true

/-- **The documented role**: of the first entry that matches a name, or the default. -/
def RoleByRule (identity : CertIdentity) (mtls : Option MtlsConfig) (role : Option String) : Prop :=
  (∃ entry, FirstIn (Names PatternMatches identity.names) (roleMap mtls) entry ∧
      role = some entry.role) ∨
    (∀ entry ∈ roleMap mtls, ¬ Names PatternMatches identity.names entry) ∧
      role = mtls.bind fun m => m.defaultRole

/-- The name is matched by an entry of the map. -/
def Mapped (mtls : Option MtlsConfig) (name : String) : Prop :=
  ∃ entry ∈ roleMap mtls, CodeMatches entry.cn name

/-- The searched list of `resolve_mtls_role`. -/
theorem resolveMtlsRole_eq (identity : CertIdentity) (mtls : Option MtlsConfig) :
    resolveMtlsRole identity mtls =
      (identity.names.findSome? fun name =>
        ((roleMap mtls).find? fun entry => cnMatch entry.cn name).map fun entry =>
          entry.role).or (mtls.bind fun m => m.defaultRole) := by
  unfold resolveMtlsRole roleMap CertIdentity.names
  cases mtls.bind fun cfg => cfg.certRoleMap with
  | none =>
      -- without a map no name finds an entry
      have hnone : ((identity.commonName.toList ++ identity.sans).findSome? fun name =>
          ((none.getD [] : List CertRoleMapping).find? fun entry => cnMatch entry.cn name).map
            fun entry => entry.role) = none := by
        rw [List.findSome?_eq_none_iff]
        intro name _
        rfl
      rw [hnone]
      rfl
  | some map => rfl

/-- **The first mapped name decides**, with the first entry that matches it. -/
theorem resolveMtlsRole_of_mapped {identity : CertIdentity} {mtls : Option MtlsConfig}
    {name : String} {entry : CertRoleMapping} (hname : FirstIn (Mapped mtls) identity.names name)
    (hentry : FirstIn (fun e => CodeMatches e.cn name) (roleMap mtls) entry) :
    resolveMtlsRole identity mtls = some entry.role := by
  have hfirst : FirstIn (fun name => (((roleMap mtls).find? fun e => cnMatch e.cn name).map
      fun e => e.role).isSome = true) identity.names name := by
    have hmapped : ∀ name, (((roleMap mtls).find? fun e => cnMatch e.cn name).map
        fun e => e.role).isSome = true ↔ Mapped mtls name := by
      intro name
      rw [Option.isSome_map, List.find?_isSome]
      rfl
    simpa only [hmapped] using hname
  rw [resolveMtlsRole_eq, hfirst.findSome?, hentry.find?]
  rfl

/-- No mapped name: the default role. -/
theorem resolveMtlsRole_of_unmapped {identity : CertIdentity} {mtls : Option MtlsConfig}
    (h : ∀ name ∈ identity.names, ¬ Mapped mtls name) :
    resolveMtlsRole identity mtls = mtls.bind fun m => m.defaultRole := by
  have hnone : (identity.names.findSome? fun name =>
      ((roleMap mtls).find? fun entry => cnMatch entry.cn name).map fun entry =>
        entry.role) = none := by
    rw [List.findSome?_eq_none_iff]
    intro name hname
    rw [Option.map_eq_none_iff, List.find?_eq_none]
    intro entry hentry hmatch
    exact h name hname ⟨entry, hentry, hmatch⟩
  rw [resolveMtlsRole_eq, hnone, Option.none_or]

/-! ## §3. When the rule is followed. -/

/-- What a pattern is to match is matched. -/
theorem codeMatches_of_patternMatches {pattern name : String} (h : PatternMatches pattern name) :
    CodeMatches pattern name := by
  refine cnMatch_iff.mpr ?_
  obtain heq | ⟨label, rest, -, hlabel, hpattern, hname⟩ := h
  · exact Or.inl heq
  · exact Or.inr ⟨label, rest, hlabel, hpattern, hname⟩

/-- **The first name decides by the rule**: of the names that `cn_match` accepts for any
entry, the first is accepted for the entry that the rule gives, and no entry above that
one takes it with an empty label. -/
def FirstNameByRule (identity : CertIdentity) (mtls : Option MtlsConfig) : Prop :=
  ∀ name, FirstIn (Mapped mtls) identity.names name →
    ∃ above entry below, roleMap mtls = above ++ entry :: below ∧
      Names PatternMatches identity.names entry ∧
      (∀ e ∈ above, ¬ Names PatternMatches identity.names e) ∧
      CodeMatches entry.cn name ∧ ∀ e ∈ above, ¬ EmptyLabel e.cn name

/-- **A role tells which entry it comes from**, and the default is the role of none. -/
def RolesApart (mtls : Option MtlsConfig) : Prop :=
  ((roleMap mtls).map fun entry => entry.role).Nodup ∧
    ∀ entry ∈ roleMap mtls, (mtls.bind fun m => m.defaultRole) ≠ some entry.role

section

variable {identity : CertIdentity} {mtls : Option MtlsConfig}

/-- **The rule is followed** where the first name decides by it. -/
theorem roleByRule_of_firstName (h : FirstNameByRule identity mtls) :
    RoleByRule identity mtls (resolveMtlsRole identity mtls) := by
  by_cases hmapped : ∃ name ∈ identity.names, Mapped mtls name
  · obtain ⟨mapped, hmem, hmap⟩ := hmapped
    obtain ⟨name, hname⟩ := exists_firstIn hmem hmap
    obtain ⟨above, entry, below, hsplit, hrule, habove, hcode, hempty⟩ := h name hname
    -- an entry above would accept the name for an empty label or by the rule
    have hentry : FirstIn (fun e => CodeMatches e.cn name) (roleMap mtls) entry := by
      refine ⟨above, below, hsplit, hcode, fun e he haccepted => ?_⟩
      have hpattern := (cnMatch_patternMatches_iff.mpr (hempty e he)).mp haccepted
      exact habove e he ⟨name, hname.mem, hpattern⟩
    refine Or.inl ⟨entry, ⟨above, below, hsplit, hrule, habove⟩, ?_⟩
    exact resolveMtlsRole_of_mapped hname hentry
  · -- nothing is accepted: the default, both ways
    refine Or.inr ⟨?_, resolveMtlsRole_of_unmapped fun name hname h => hmapped ⟨name, hname, h⟩⟩
    rintro entry hentry ⟨name, hname, hpattern⟩
    exact hmapped ⟨name, hname, entry, hentry, codeMatches_of_patternMatches hpattern⟩

/-- **The first name decides by the rule** where the rule is followed, if the role tells
the entry. -/
theorem firstName_of_roleByRule (hroles : RolesApart mtls)
    (h : RoleByRule identity mtls (resolveMtlsRole identity mtls)) :
    FirstNameByRule identity mtls := by
  intro name hname
  obtain ⟨accepted, haccepted, hcode⟩ := hname.holds
  obtain ⟨first, hfirst⟩ :=
    exists_firstIn (p := fun e => CodeMatches e.cn name) haccepted hcode
  rw [resolveMtlsRole_of_mapped hname hfirst] at h
  obtain ⟨entry, hentry, hrole⟩ | ⟨-, hdefault⟩ := h
  · have hsame : first = entry :=
      List.inj_on_of_nodup_map hroles.1 hfirst.mem hentry.mem (Option.some.inj hrole)
    obtain ⟨above, below, hsplit, hrule, habove⟩ := hentry
    refine ⟨above, entry, below, hsplit, hrule, habove, hsame ▸ hfirst.holds, ?_⟩
    rintro e he ⟨rest, hpattern, hempty⟩
    -- the first entry that accepts the name would stand above
    have hcode : CodeMatches e.cn name :=
      cnMatch_iff.mpr (Or.inr ⟨"", rest, by simp, hpattern, by rw [hempty]; rfl⟩)
    obtain ⟨e', he'⟩ := exists_firstIn (p := fun e => CodeMatches e.cn name) he hcode
    have hwhole : FirstIn (fun e => CodeMatches e.cn name) (roleMap mtls) e' := by
      obtain ⟨pre, post, habove', hholds, hbefore⟩ := he'
      exact ⟨pre, post ++ entry :: below, by rw [hsplit, habove', List.append_assoc]; rfl,
        hholds, hbefore⟩
    have hmem := he'.mem
    rw [← hfirst.unique hwhole, hsame] at hmem
    exact habove entry hmem hrule
  · exact absurd hdefault.symm (hroles.2 first hfirst.mem)

/-- **A certificate of one name** gets the documented role, unless an entry takes the name
with an empty label. -/
theorem resolveMtlsRole_of_single {name : String}
    (hempty : ∀ e ∈ roleMap mtls, ¬ EmptyLabel e.cn name) :
    RoleByRule ⟨some name, []⟩ mtls (resolveMtlsRole ⟨some name, []⟩ mtls) := by
  refine roleByRule_of_firstName fun first hfirst => ?_
  obtain rfl : first = name := List.mem_singleton.mp hfirst.mem
  have hexact : ∀ e ∈ roleMap mtls, (CodeMatches e.cn first ↔ PatternMatches e.cn first) :=
    fun e he => cnMatch_patternMatches_iff.mpr (hempty e he)
  obtain ⟨accepted, haccepted, hcode⟩ := hfirst.holds
  obtain ⟨entry, above, below, hsplit, hentry, habove⟩ :=
    exists_firstIn (p := fun e => CodeMatches e.cn first) haccepted hcode
  have hmem : ∀ e ∈ above, e ∈ roleMap mtls :=
    fun e he => hsplit ▸ List.mem_append_left _ he
  have hentrymem : entry ∈ roleMap mtls := hsplit ▸ List.mem_append_right _ List.mem_cons_self
  refine ⟨above, entry, below, hsplit, ?_, fun e he hnames => ?_, hentry,
    fun e he => hempty e (hmem e he)⟩
  · exact ⟨first, List.mem_singleton_self first, (hexact entry hentrymem).mp hentry⟩
  · -- the only name is the one that no entry above accepts
    obtain ⟨name', hname', hpattern⟩ := hnames
    obtain rfl : name' = first := List.mem_singleton.mp hname'
    exact habove e he ((hexact e (hmem e he)).mpr hpattern)

end

/-- **When the rule is followed.**  `cn_match` matches what a pattern is to match, exactly
but for empty labels; and the role is the documented one if the first name decides by the
rule, and only if, where the role tells which entry it comes from. -/
theorem resolveMtlsRole_byRule_iff (identity : CertIdentity) (mtls : Option MtlsConfig) :
    (∀ pattern name, (cnMatch pattern name = true ↔ PatternMatches pattern name) ↔
        ¬ EmptyLabel pattern name) ∧
      (FirstNameByRule identity mtls → RoleByRule identity mtls (resolveMtlsRole identity mtls)) ∧
      (RolesApart mtls → RoleByRule identity mtls (resolveMtlsRole identity mtls) →
        FirstNameByRule identity mtls) :=
  ⟨fun _ _ => cnMatch_patternMatches_iff, roleByRule_of_firstName, firstName_of_roleByRule⟩

/-! ## §4. A role that the rule does not give. -/

/-- A build machine reads, and the root of the site administrates. -/
def siteRoles : MtlsConfig where
  certRoleMap := some [⟨"ci.example.com", "readonly"⟩, ⟨"root.example.com", "admin"⟩]

/-- Any host of a site reads. -/
def hostRoles : MtlsConfig where
  certRoleMap := some [⟨"*.example.com", "readonly"⟩]

/-- **The later entry wins, and an empty label is matched**: the CN matches the second
entry and a SAN the first one, and the role is the second entry's; and a name that is
a dot and the domain gets the role of the hosts. -/
theorem resolveMtlsRole_against_rule :
    (resolveMtlsRole ⟨some "root.example.com", ["ci.example.com"]⟩ (some siteRoles) =
        some "admin" ∧
      FirstIn (Names PatternMatches ["root.example.com", "ci.example.com"])
        (roleMap (some siteRoles)) ⟨"ci.example.com", "readonly"⟩ ∧
      ¬ RoleByRule ⟨some "root.example.com", ["ci.example.com"]⟩ (some siteRoles)
        (some "admin")) ∧
    resolveMtlsRole ⟨some ".example.com", []⟩ (some hostRoles) = some "readonly" ∧
      ¬ PatternMatches "*.example.com" ".example.com" ∧
      ¬ RoleByRule ⟨some ".example.com", []⟩ (some hostRoles) (some "readonly") := by
  have hfirst : FirstIn (Names PatternMatches ["root.example.com", "ci.example.com"])
      (roleMap (some siteRoles)) ⟨"ci.example.com", "readonly"⟩ :=
    ⟨[], _, rfl, ⟨"ci.example.com", by simp, Or.inl rfl⟩, fun _ h => absurd h List.not_mem_nil⟩
  have hempty : EmptyLabel "*.example.com" ".example.com" :=
    ⟨"example.com", by decide +kernel, by decide +kernel⟩
  have hdot : ¬ PatternMatches "*.example.com" ".example.com" := by
    intro h
    refine cnMatch_patternMatches_iff.mp (iff_of_true ?_ h) hempty
    decide +kernel
  refine ⟨⟨by decide +kernel, hfirst, ?_⟩, by decide +kernel, hdot, ?_⟩
  · rintro (⟨entry, hentry, hrole⟩ | ⟨hnone, -⟩)
    · rw [hentry.unique hfirst] at hrole
      exact absurd hrole (by decide)
    · exact hnone _ hfirst.mem hfirst.holds
  · rintro (⟨entry, hentry, -⟩ | ⟨-, hrole⟩)
    · -- the only entry and the only name
      have honly : entry = ⟨"*.example.com", "readonly"⟩ := List.mem_singleton.mp hentry.mem
      obtain ⟨name, hname, hmatch⟩ := hentry.holds
      have hname : name = ".example.com" := List.mem_singleton.mp hname
      rw [honly, hname] at hmatch
      exact hdot hmatch
    · exact absurd hrole (by simp [hostRoles])

end DockerProxy.Proxy
