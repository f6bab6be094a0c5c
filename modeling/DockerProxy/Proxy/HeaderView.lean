/-
  DockerProxy.Proxy.HeaderView — the headers that the rules see, and those that
  Docker gets.

  The rule context holds one value for a name: its first value that is text.
  Docker gets every line.  `ruleHeaders_lookup` says what the rules see;
  `handle_header_view_iff` says for which header maps that is all that Docker
  gets.
-/
import DockerProxy.Proxy.Forwarding

namespace DockerProxy.Proxy

open DockerProxy.Lib DockerProxy.Limiter DockerProxy.Rules

/-! ## §1. What the rules see. -/

/-- The first value of a name that is text. -/
def firstText (headers : HeaderMap) (name : String) : Option String :=
  headers.findSome? fun h => if h.1 == name then h.2.toStr else none

/-- One line, added to the header map of the rule context. -/
def insertFirst (map : List (String × String)) (h : String × HeaderValue) :
    List (String × String) :=
  match h.2.toStr with
  | some v => if map.any fun e => e.1 == h.1 then map else map ++ [(h.1, v)]
  | none => map

theorem ruleHeaders_eq (headers : HeaderMap) : ruleHeaders headers = headers.foldl insertFirst [] :=
  rfl

/-- A line adds its text under its name, unless the name has one. -/
theorem lookup_insertFirst (map : List (String × String)) (h : String × HeaderValue)
    (name : String) :
    (insertFirst map h).lookup name =
      (map.lookup name).or (if h.1 == name then h.2.toStr else none) := by
  unfold insertFirst
  cases htext : h.2.toStr with
  | none => simp
  | some v =>
      simp only
      by_cases hany : map.any (fun e => e.1 == h.1) = true
      · -- the name is taken, so the line changes nothing
        rw [if_pos hany]
        by_cases hname : h.1 = name
        · have hsome : (map.lookup name).isSome = true := by
            rw [List.lookup_isSome_iff]
            obtain ⟨e, he, heq⟩ := List.any_eq_true.mp hany
            exact ⟨e, he, beq_iff_eq.mpr ((beq_iff_eq.mp heq).trans hname).symm⟩
          rw [Option.or_of_isSome hsome]
        · simp [hname]
      · rw [if_neg hany, List.lookup_append]
        by_cases hname : h.1 = name
        · simp [hname]
        · have hne : (name == h.1) = false := beq_eq_false_iff_ne.mpr (Ne.symm hname)
          simp [hname, List.lookup_singleton, hne]

/-- **The rules see the first textual value of each name**, and nothing else. -/
theorem ruleHeaders_lookup (headers : HeaderMap) (name : String) :
    (ruleHeaders headers).lookup name = firstText headers name := by
  have hfold : ∀ (lines : HeaderMap) (map : List (String × String)),
      (lines.foldl insertFirst map).lookup name = (map.lookup name).or (firstText lines name) := by
    intro lines
    induction lines with
    | nil => intro map; simp [firstText]
    | cons h lines ih =>
        intro map
        rw [List.foldl_cons, ih, lookup_insertFirst, Option.or_assoc]
        congr 1
        unfold firstText
        rw [List.findSome?_cons]
        cases (if h.1 == name then h.2.toStr else none) <;> rfl
  rw [ruleHeaders_eq, hfold headers []]
  rfl

/-- The names in the rule context are names of lines. -/
theorem mem_ruleHeaders {headers : HeaderMap} {e : String × String} (he : e ∈ ruleHeaders headers) :
    ∃ h ∈ headers, h.1 = e.1 := by
  have hsome : ((ruleHeaders headers).lookup e.1).isSome = true :=
    List.lookup_isSome_iff.mpr ⟨e, he, beq_self_eq_true _⟩
  rw [ruleHeaders_lookup] at hsome
  obtain ⟨v, hv⟩ := Option.isSome_iff_exists.mp hsome
  obtain ⟨h, hmem, hh⟩ := List.exists_of_findSome?_eq_some hv
  by_cases hname : h.1 = e.1
  · exact ⟨h, hmem, hname⟩
  · simp [hname] at hh

/-- A header name as the map of a request holds it: in lower case. -/
def LowerNames (headers : HeaderMap) : Prop :=
  ∀ h ∈ headers, h.1.toList.map Char.toLower = h.1.toList

/-- Looking a name up without regard to case is looking up its lower-case form. -/
theorem find_ruleHeaders {headers : HeaderMap} (hlower : LowerNames headers) (name : String) :
    ((ruleHeaders headers).find? fun e => eqIgnoreAsciiCase e.1 name).map Prod.snd =
      firstText headers (String.ofList (name.toList.map Char.toLower)) := by
  rw [← ruleHeaders_lookup]
  have hnames : ∀ e ∈ ruleHeaders headers, e.1.toList.map Char.toLower = e.1.toList := by
    intro e he
    obtain ⟨h, hmem, hname⟩ := mem_ruleHeaders he
    rw [← hname]
    exact hlower h hmem
  generalize ruleHeaders headers = map at hnames ⊢
  induction map with
  | nil => rfl
  | cons e map ih =>
      have he := hnames e List.mem_cons_self
      have ih := ih fun e he => hnames e (List.mem_cons_of_mem _ he)
      have hiff : eqIgnoreAsciiCase e.1 name =
          (String.ofList (name.toList.map Char.toLower) == e.1) := by
        unfold eqIgnoreAsciiCase
        rw [he, Bool.eq_iff_iff, beq_iff_eq, beq_iff_eq, eq_comm, ← String.toList_inj]
        simp
      rw [List.find?_cons, List.lookup_cons, hiff]
      cases String.ofList (name.toList.map Char.toLower) == e.1 with
      | true => rfl
      | false => exact ih

/-- **A condition on a header looks at the first textual value alone.**  Whatever
follows it under the same name cannot change the condition. -/
theorem matchHeaderCondition_congr {headers headers' : HeaderMap} (hlower : LowerNames headers)
    (hlower' : LowerNames headers') {name : String}
    (h : firstText headers (String.ofList (name.toList.map Char.toLower)) =
      firstText headers' (String.ofList (name.toList.map Char.toLower))) (condition : Condition) :
    matchHeaderCondition condition (ruleHeaders headers) name =
      matchHeaderCondition condition (ruleHeaders headers') name := by
  unfold matchHeaderCondition
  rw [find_ruleHeaders hlower, find_ruleHeaders hlower', h]

/-! ## §2. What Docker gets besides. -/

/-- Every forwarded value is text, and the lines of one name agree. -/
def ReadsAlike (headers : HeaderMap) : Prop :=
  (∀ h ∈ forwardHeaders headers, h.2.toStr.isSome = true) ∧
    ∀ h ∈ forwardHeaders headers, ∀ h' ∈ forwardHeaders headers,
      h.1 = h'.1 → h.2.toStr = h'.2.toStr

/-- Headers are dropped by name. -/
theorem mem_forwardHeaders_of_name {headers : HeaderMap} {h h' : String × HeaderValue}
    (hmem : h ∈ forwardHeaders headers) (hmem' : h' ∈ headers) (hname : h'.1 = h.1) :
    h' ∈ forwardHeaders headers := by
  have hkept := (List.mem_filter.mp hmem).2
  refine List.mem_filter.mpr ⟨hmem', ?_⟩
  rw [hname]
  exact hkept

/-- The rules see every forwarded line if and only if the lines read alike. -/
theorem ruleHeaders_view_iff (headers : HeaderMap) :
    (∀ h ∈ forwardHeaders headers, ∃ v,
        h.2.toStr = some v ∧ (ruleHeaders headers).lookup h.1 = some v) ↔ ReadsAlike headers := by
  simp only [ruleHeaders_lookup]
  refine Iff.intro (fun hview => ⟨fun h hmem => ?_, fun h hmem h' hmem' hname => ?_⟩) ?_
  · obtain ⟨v, hv, -⟩ := hview h hmem
    rw [hv]
    rfl
  · obtain ⟨v, hv, hseen⟩ := hview h hmem
    obtain ⟨v', hv', hseen'⟩ := hview h' hmem'
    rw [hv, hv', ← hseen, ← hseen', hname]
  · intro ⟨htext, halike⟩ h hmem
    obtain ⟨v, hv⟩ := Option.isSome_iff_exists.mp (htext h hmem)
    refine ⟨v, hv, ?_⟩
    -- `h` itself is a candidate, so some line of its name is the first
    cases hfirst : firstText headers h.1 with
    | none =>
        have hnone := List.findSome?_eq_none_iff.mp hfirst h (List.mem_filter.mp hmem).1
        simp [hv] at hnone
    | some w =>
        obtain ⟨h', hmem', hw⟩ := List.exists_of_findSome?_eq_some hfirst
        by_cases hname : h'.1 = h.1
        · have hforward := mem_forwardHeaders_of_name hmem hmem' hname
          rw [if_pos (beq_iff_eq.mpr hname), halike h' hforward h hmem hname, hv] at hw
          exact hw.symm
        · simp [hname] at hw

variable (deps : Externals)

/-- The headers of the context that `handle` evaluates the rules in. -/
theorem handle_evaluated_headers {st : ProxyState} {req : Request} {peer : deps.Ip}
    {cert : Option CertIdentity} {docker : Docker} {m : Moment} {ctx : EvaluationContext}
    {decision : RuleDecision}
    (h : (handle deps st req peer cert docker m).evaluated = some (ctx, decision)) :
    ctx.headers = ruleHeaders req.headers := by
  unfold handle at h
  cases hreceive : receive deps st req peer cert m with
  | mk received st₁ =>
      rw [hreceive] at h
      cases received with
      | error response => exact absurd h (by simp)
      | ok call =>
          obtain ⟨-, -, -, -, hheaders, -⟩ := receive_ok deps hreceive
          have hctx : ∃ bodyJson, ctx = call.evalCtx bodyJson := by
            simp only at h
            split at h
            · exact ⟨none, (serveUpgrade_evaluated deps h)⟩
            · exact servePlain_evaluated deps h
          obtain ⟨bodyJson, rfl⟩ := hctx
          exact hheaders

/-- **When the rules see every header that Docker gets, exactly**: when every
forwarded value is text and repeated lines of a name carry the same text. -/
theorem handle_header_view_iff {st : ProxyState} {req : Request} {peer : deps.Ip}
    {cert : Option CertIdentity} {docker : Docker} {m : Moment} {ctx : EvaluationContext}
    {decision : RuleDecision}
    (hctx : (handle deps st req peer cert docker m).evaluated = some (ctx, decision)) :
    (∀ h ∈ forwardHeaders req.headers, ∃ v,
        h.2.toStr = some v ∧ ctx.headers.lookup h.1 = some v) ↔ ReadsAlike req.headers := by
  rw [handle_evaluated_headers deps hctx]
  exact ruleHeaders_view_iff req.headers

/-! ## §3. A header line that the rules do not see. -/

/-- A proxy without authentication whose one rule denies a team its requests. -/
def teamState : ProxyState where
  config :=
    { auth := some { authType := some "none" }
      rules := some
        [{ name := "no-blocked-team", action := "deny"
           conditions := [.leaf
             { field := "header.x-team", operator := "equals"
               value := some (.string "blocked") }] }] }
  envSecret := ""
  rateLimiter := RateLimiter.new
  authLimiter := AuthLimiter.new
  metrics := {}
  audit := none
  metricsPath := none

/-- The lines of a request that names two teams. -/
def twoTeams : HeaderMap := [("x-team", .ofStr "open"), ("x-team", .ofStr "blocked")]

/-- A line whose value is the byte `E9`, which is no text. -/
def untextualTeam : HeaderMap := [("x-team", ⟨[0xE9], none⟩)]

/-- The inspection of a container, served under the rule. -/
def inspectTeam (headers : HeaderMap) : Outcome :=
  handle Externals.sample teamState (inspectRequest headers) () none inspectDocker momentZero

/-- **A repeated line and a value that is no text reach Docker unseen.**  The rule
denies the second line alone, and allows it behind the first. -/
theorem handle_header_view_blind :
    ((inspectTeam [("x-team", .ofStr "blocked")]).evaluated.map fun e => e.2.result) =
      some (.deny 403 "Forbidden by rule") ∧
    ((inspectTeam twoTeams).evaluated.map fun e => (e.1.headers.lookup "x-team", e.2.result)) =
      some (some "open", .allow) ∧
    ((inspectTeam twoTeams).sent.map fun out =>
      out.headers.contains ("x-team", .ofStr "blocked")) = some true ∧
    ((inspectTeam untextualTeam).evaluated.map fun e =>
      (e.1.headers.lookup "x-team", e.2.result)) = some (none, .allow) ∧
    ((inspectTeam untextualTeam).sent.map fun out =>
      out.headers.contains ("x-team", ⟨[0xE9], none⟩)) = some true := by
  decide +kernel

/-- With one textual line the rules see what Docker gets. -/
theorem handle_header_view_team :
    ∃ ctx decision,
      (inspectTeam [("x-team", .ofStr "open")]).evaluated = some (ctx, decision) ∧
      ((∀ h ∈ forwardHeaders (inspectRequest [("x-team", .ofStr "open")]).headers, ∃ v,
          h.2.toStr = some v ∧ ctx.headers.lookup h.1 = some v) ↔
        ReadsAlike (inspectRequest [("x-team", .ofStr "open")]).headers) := by
  have hsome : (inspectTeam [("x-team", .ofStr "open")]).evaluated.isSome = true := by
    decide +kernel
  obtain ⟨⟨ctx, decision⟩, hctx⟩ := Option.isSome_iff_exists.mp hsome
  unfold inspectTeam at hctx ⊢
  exact ⟨ctx, decision, hctx, handle_header_view_iff Externals.sample hctx⟩

end DockerProxy.Proxy
