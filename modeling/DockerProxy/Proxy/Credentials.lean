/-
  DockerProxy.Proxy.Credentials — who has a key to a running proxy.

  A file lists tokens and a secret, whose variables are expanded when it is loaded; the
  process may hold a secret of its own.  `Grants` says which role a token has by the file
  and the process, without the steps of loading and comparing; `admits_completeLoad_iff`
  connects it to what the loaded configuration admits.  Over whole runs:

    • `revoked_run` — a token that no loaded file grants any more is refused, whoever
      presents it,
    • `secret_run` — the secret of the process opens the proxy after every reload of every
      file, unless the file turns bearer tokens off.
-/
import DockerProxy.Proxy.Launch
import DockerProxy.Proxy.System

namespace DockerProxy.Proxy

open DockerProxy.Lib DockerProxy.Path DockerProxy.Limiter DockerProxy.Rules DockerProxy.Config

/-! ## §1. The credentials of a file. -/

/-- The secret of the process, if it has one. -/
def processSecret (vars : String → Option String) : Option String :=
  (vars "DOCKER_PROXY_SECRET").filter fun s => !s.isEmpty

section

variable (env : LoadEnv)

/-- A credential with its variables expanded, if they are all set. -/
def credentialText (s : String) : Option String := (expandEnv env s true).toOption

/-- The token entries of a file. -/
def tokenEntries (auth : Option AuthConfig) : List TokenEntry := (auth.bind fun a => a.tokens).getD []

/-- The secret in force: that of the process, else that of the file. -/
def secretInForce (auth : Option AuthConfig) : Option String :=
  (processSecret env.var).or ((auth.bind fun a => a.secret).bind (credentialText env))

/-- **The role that a token has**: that of the first entry of the file that reads so; else
admin, if it is the secret in force. -/
def Grants (auth : Option AuthConfig) (t r : String) : Prop :=
  (∃ e, ((tokenEntries auth).find? fun e => credentialText env e.token == some t) = some e ∧
      r = e.role.getD "user") ∨
    ((∀ e ∈ tokenEntries auth, credentialText env e.token ≠ some t) ∧
      secretInForce env auth = some t ∧ r = "admin")

/-- An entry with its token expanded. -/
def expandedEntry (e : TokenEntry) : TokenEntry :=
  { e with token := (credentialText env e.token).getD "" }

end

section

variable {env : LoadEnv} {cfg₀ cfg : ProxyConfig}

theorem credentialText_of_ok {s text : String} (h : expandEnv env s true = .ok text) :
    credentialText env s = some text := by
  unfold credentialText
  rw [h]
  rfl

/-- Expanding the entries of a file. -/
theorem resolveTokens_eq {xs ys : List TokenEntry} (h : xs.mapM (resolveToken env) = .ok ys) :
    ys = xs.map (expandedEntry env) ∧
      ∀ e ∈ xs, credentialText env e.token = some (expandedEntry env e).token := by
  have hall := forall₂_of_mapM h
  clear h
  induction hall with
  | nil => exact ⟨rfl, fun e he => absurd he List.not_mem_nil⟩
  | @cons x y xs ys hxy _ ih =>
      obtain ⟨text, htext, hy⟩ := bind_eq_ok.mp hxy
      have hcredential := credentialText_of_ok htext
      have hentry : expandedEntry env x = y := by
        unfold expandedEntry
        rw [hcredential, ← pure_eq_ok.mp hy]
        rfl
      refine ⟨by rw [List.map_cons, hentry, ih.1], fun e he => ?_⟩
      cases List.mem_cons.mp he with
      | inl heq => rw [heq, hentry, hcredential, ← pure_eq_ok.mp hy]
      | inr hmem => exact ih.2 e hmem

/-- The authentication settings, as they are loaded. -/
theorem auth_completeLoad (h : completeLoad env cfg₀ = .ok cfg) :
    ∃ auth, cfg₀.auth.mapM (resolveAuth env) = .ok auth ∧
      cfg.auth = (processSecret env.var).elim auth fun secret =>
        some { auth.getD { authType := some "bearer" } with
          secret := some secret
          authType := some ((auth.getD { authType := some "bearer" }).authType.getD "bearer") } := by
  obtain ⟨resolved, compiled, hresolve, hcompile, -, rfl⟩ := completeLoad_ok h
  obtain ⟨rules, -, hcompiled⟩ := bind_eq_ok.mp hcompile
  obtain ⟨auth, hauth, hresolve⟩ := bind_eq_ok.mp hresolve
  obtain ⟨rules', -, hresolved⟩ := bind_eq_ok.mp hresolve
  refine ⟨auth, hauth, ?_⟩
  rw [← pure_eq_ok.mp hcompiled, ← pure_eq_ok.mp hresolved]
  show (applyEnvOverrides env { cfg₀ with auth := auth, rules := rules' }).auth = _
  unfold applyEnvOverrides processSecret
  dsimp only
  cases (env.var "DOCKER_PROXY_PORT").bind parseU16 <;>
    cases (env.var "DOCKER_SOCKET").filter env.pathExists <;>
    cases (env.var "DOCKER_PROXY_SECRET").filter (fun s => !s.isEmpty) <;> rfl

/-- The entries that are loaded. -/
theorem tokenEntries_completeLoad (h : completeLoad env cfg₀ = .ok cfg) :
    tokenEntries cfg.auth = (tokenEntries cfg₀.auth).map (expandedEntry env) ∧
      ∀ e ∈ tokenEntries cfg₀.auth, credentialText env e.token =
        some (expandedEntry env e).token := by
  obtain ⟨auth, hauth, hcfg⟩ := auth_completeLoad h
  have hentries : tokenEntries cfg.auth = tokenEntries auth := by
    rw [hcfg]
    unfold tokenEntries
    cases processSecret env.var with
    | none => rfl
    | some secret => cases auth <;> rfl
  rw [hentries]
  unfold tokenEntries
  cases ha : cfg₀.auth with
  | none =>
      rw [ha] at hauth
      rw [← pure_eq_ok.mp hauth]
      exact ⟨rfl, fun e he => absurd he List.not_mem_nil⟩
  | some a =>
      rw [ha] at hauth
      obtain ⟨a', ha', hauth⟩ := bind_eq_ok.mp hauth
      obtain ⟨secret, -, ha'⟩ := bind_eq_ok.mp ha'
      obtain ⟨tokens, htokens, ha'⟩ := bind_eq_ok.mp ha'
      rw [← pure_eq_ok.mp hauth, ← pure_eq_ok.mp ha']
      show tokens.getD [] = (a.tokens.getD []).map (expandedEntry env) ∧ _
      cases ht : a.tokens with
      | none =>
          rw [ht] at htokens
          rw [← pure_eq_ok.mp htokens]
          refine ⟨rfl, fun e he => ?_⟩
          rw [Option.bind_some, ht] at he
          exact absurd he List.not_mem_nil
      | some toks =>
          rw [ht] at htokens
          obtain ⟨toks', htoks, htokens⟩ := bind_eq_ok.mp htokens
          obtain ⟨heq, hall⟩ := resolveTokens_eq htoks
          rw [← pure_eq_ok.mp htokens]
          refine ⟨heq, fun e he => ?_⟩
          rw [Option.bind_some, ht] at he
          exact hall e he

/-- The secret that is loaded. -/
theorem secret_completeLoad (h : completeLoad env cfg₀ = .ok cfg) :
    (cfg.auth.bind fun a => a.secret) = secretInForce env cfg₀.auth := by
  obtain ⟨auth, hauth, hcfg⟩ := auth_completeLoad h
  rw [hcfg]
  unfold secretInForce
  cases processSecret env.var with
  | some secret => rfl
  | none =>
      show (auth.bind fun a => a.secret) = (cfg₀.auth.bind fun a => a.secret).bind _
      cases ha : cfg₀.auth with
      | none =>
          rw [ha] at hauth
          rw [← pure_eq_ok.mp hauth]
          rfl
      | some a =>
          rw [ha] at hauth
          obtain ⟨a', ha', hauth⟩ := bind_eq_ok.mp hauth
          obtain ⟨secret, hsecret, ha'⟩ := bind_eq_ok.mp ha'
          obtain ⟨tokens, -, ha'⟩ := bind_eq_ok.mp ha'
          rw [← pure_eq_ok.mp hauth, ← pure_eq_ok.mp ha']
          show secret = a.secret.bind (credentialText env)
          cases hs : a.secret with
          | none =>
              rw [hs] at hsecret
              exact (pure_eq_ok.mp hsecret).symm
          | some s =>
              rw [hs] at hsecret
              obtain ⟨text, htext, hsecret⟩ := bind_eq_ok.mp hsecret
              rw [← pure_eq_ok.mp hsecret, Option.bind_some, credentialText_of_ok htext]

/-- **Loading keeps who has which role**: the loaded configuration, with the secret of the
process beside it, admits exactly what the file and the process grant. -/
theorem admits_completeLoad_iff (h : completeLoad env cfg₀ = .ok cfg) {t r : String} (hne : t ≠ "") :
    Admits cfg ((env.var "DOCKER_PROXY_SECRET").getD "") t r ↔ Grants env cfg₀.auth t r := by
  obtain ⟨hentries, htexts⟩ := tokenEntries_completeLoad h
  have hsecret := secret_completeLoad h
  unfold Admits Grants
  cases hauth : cfg.auth with
  | some auth =>
      rw [hauth] at hentries hsecret
      have hentries : auth.tokens.getD [] = (tokenEntries cfg₀.auth).map (expandedEntry env) :=
        hentries
      have hsecret : auth.secret = secretInForce env cfg₀.auth := hsecret
      dsimp only
      rw [hentries, hsecret, List.find?_map]
      have hfind : (tokenEntries cfg₀.auth).find?
            ((fun e => e.token == t) ∘ expandedEntry env) =
          (tokenEntries cfg₀.auth).find? fun e => credentialText env e.token == some t := by
        generalize tokenEntries cfg₀.auth = entries at htexts
        induction entries with
        | nil => rfl
        | cons e entries ih =>
            have ih := ih fun e' he' => htexts e' (List.mem_cons_of_mem e he')
            rw [List.find?_cons, List.find?_cons, ih, htexts e List.mem_cons_self]
            rfl
      rw [hfind]
      constructor
      · rintro (⟨e, he, hr⟩ | ⟨hall, hs, -, hr⟩)
        · obtain ⟨e', he', rfl⟩ := Option.map_eq_some_iff.mp he
          exact Or.inl ⟨e', he', hr⟩
        · refine Or.inr ⟨fun e he htext => ?_, hs, hr⟩
          rw [htexts e he] at htext
          exact hall _ (List.mem_map_of_mem he) (Option.some.inj htext)
      · rintro (⟨e, he, hr⟩ | ⟨hall, hs, hr⟩)
        · exact Or.inl ⟨expandedEntry env e, by rw [he]; rfl, hr⟩
        · refine Or.inr ⟨fun e he htext => ?_, hs, hne, hr⟩
          obtain ⟨e', he', rfl⟩ := List.mem_map.mp he
          exact hall e' he' (by rw [htexts e' he', htext])
  | none =>
      -- without settings there is no secret of the process either
      rw [hauth] at hentries hsecret
      have hnil : tokenEntries cfg₀.auth = [] := (List.map_eq_nil_iff.mp hentries.symm)
      have hnone : secretInForce env cfg₀.auth = none := hsecret.symm
      have hprocess : processSecret env.var = none := by
        unfold secretInForce at hnone
        exact (Option.or_eq_none_iff.mp hnone).1
      dsimp only
      rw [hnil, hnone]
      constructor
      · rintro ⟨henv, -, -⟩
        have hvar : env.var "DOCKER_PROXY_SECRET" = some t := by
          cases hv : env.var "DOCKER_PROXY_SECRET" with
          | none =>
              rw [hv] at henv
              exact absurd henv.symm hne
          | some s =>
              rw [hv] at henv
              exact congrArg some henv
        unfold processSecret at hprocess
        rw [hvar] at hprocess
        exact absurd hprocess (by simp [Option.filter, hne])
      · rintro (⟨e, he, -⟩ | ⟨-, hs, -⟩)
        · exact absurd he (by simp)
        · exact absurd hs (by simp)

end

/-! ## §2. Runs of a process. -/

/-- A configuration that this process can load: of some file with the property, under the
variables of the process. -/
def LoadedIn (vars : String → Option String) (P : LoadEnv → ProxyConfig → Prop)
    (config : ProxyConfig) : Prop :=
  ∃ env parsed, env.var = vars ∧ completeLoad env parsed = .ok config ∧ P env parsed

variable {deps : Externals}

/-- The configurations that are swapped in are loaded by the process. -/
def SystemEvent.Loads (vars : String → Option String) (P : LoadEnv → ProxyConfig → Prop) :
    SystemEvent deps → Prop
  | .happens (.reload config) => LoadedIn vars P config
  | .happens (.request _ _ _ _ _) | .cleanup _ _ | .tunnel _ _ => True

/-- The proxy runs on a configuration that the process loaded, beside its secret. -/
structure Provisioned (vars : String → Option String) (P : LoadEnv → ProxyConfig → Prop)
    (st : ProxyState) : Prop where
  envSecret : st.envSecret = (vars "DOCKER_PROXY_SECRET").getD ""
  config : LoadedIn vars P st.config

section

variable {vars : String → Option String} {P : LoadEnv → ProxyConfig → Prop}

theorem provisioned_step {st : ProxyState} {e : SystemEvent deps} (h : Provisioned vars P st)
    (he : e.Loads vars P) : Provisioned vars P (e.step st) := by
  cases e with
  | happens h' =>
      cases h' with
      | request req peer cert docker m =>
          obtain ⟨-, hrest⟩ := touched_handle deps st req peer cert docker m
          refine ⟨hrest.envSecret.trans h.envSecret, ?_⟩
          show LoadedIn vars P (handle deps st req peer cert docker m).state.config
          rw [hrest.config]
          exact h.config
      | reload config => exact ⟨h.envSecret, he⟩
  | cleanup rateNow authNow => exact ⟨h.envSecret, h.config⟩
  | tunnel client docker =>
      have hkept := kept_countResolve st (resolveUpgrades client docker)
      refine ⟨hkept.envSecret.trans h.envSecret, ?_⟩
      show LoadedIn vars P (st.countResolve _).config
      rw [hkept.config]
      exact h.config

/-- A proxy that is started is provisioned by its source. -/
theorem provisioned_launch {env : LaunchEnv} {args : List String} {proxy : Started}
    (h : launch env args = .started proxy) :
    Provisioned (processEnv env args).var (fun _ _ => True) proxy.state := by
  obtain ⟨parsed, cfg, hstarts⟩ := launch_started h
  rw [hstarts.state]
  exact ⟨rfl, _, parsed, rfl, hstarts.complete, trivial⟩

end

/-! ## §3. A token that is taken away. -/

/-- Bearer tokens are turned off, by another kind of authentication or by none. -/
def TokensOff (config : ProxyConfig) : Prop :=
  authType config = some "none" ∨ authType config = some "mtls"

/-- **The file does not know the token**: it asks for bearer tokens, and neither it nor the
process grants this one a role.  Its credentials are shorter than `2^32` bytes. -/
structure Revokes (t : String) (env : LoadEnv) (file : ProxyConfig) : Prop where
  bearer : ¬ TokensOff file
  ungranted : ∀ r, ¬ Grants env file.auth t r
  shortTokens : ∀ e ∈ tokenEntries file.auth, ∀ text, credentialText env e.token = some text →
    text.utf8ByteSize < 2 ^ 32
  shortSecret : ∀ text, secretInForce env file.auth = some text → text.utf8ByteSize < 2 ^ 32

section

variable {env : LoadEnv} {cfg₀ cfg : ProxyConfig}

/-- The kind of authentication is that of the file, or bearer tokens. -/
theorem tokensOff_completeLoad (h : completeLoad env cfg₀ = .ok cfg) :
    TokensOff cfg ↔ TokensOff cfg₀ := by
  obtain ⟨auth, hauth, hcfg⟩ := auth_completeLoad h
  have htype : (auth.bind fun a => a.authType) = authType cfg₀ := by
    unfold authType
    cases ha : cfg₀.auth with
    | none =>
        rw [ha] at hauth
        rw [← pure_eq_ok.mp hauth]
    | some a =>
        rw [ha] at hauth
        obtain ⟨a', ha', hauth⟩ := bind_eq_ok.mp hauth
        obtain ⟨secret, -, ha'⟩ := bind_eq_ok.mp ha'
        obtain ⟨tokens, -, ha'⟩ := bind_eq_ok.mp ha'
        rw [← pure_eq_ok.mp hauth, ← pure_eq_ok.mp ha']
        rfl
  unfold TokensOff
  rw [← htype]
  unfold authType
  rw [hcfg]
  cases processSecret env.var with
  | none => exact Iff.rfl
  | some secret =>
      cases auth with
      | none =>
          show (some "bearer" = some "none" ∨ some "bearer" = some "mtls") ↔
            ((none : Option String) = some "none" ∨ (none : Option String) = some "mtls")
          decide
      | some a =>
          show (some (a.authType.getD "bearer") = _ ∨ some (a.authType.getD "bearer") = _) ↔
            (a.authType = _ ∨ a.authType = _)
          cases a.authType with
          | none => simp
          | some kind => exact Iff.rfl

/-- Short credentials of a file are short when they are loaded. -/
theorem shortCredentials_completeLoad {t : String} (h : completeLoad env cfg₀ = .ok cfg)
    (hrevokes : Revokes t env cfg₀) :
    ShortCredentials cfg ((env.var "DOCKER_PROXY_SECRET").getD "") := by
  obtain ⟨hentries, htexts⟩ := tokenEntries_completeLoad h
  refine ⟨?_, fun auth hauth => ⟨fun e he => ?_, fun s hs => ?_⟩⟩
  · cases hvar : env.var "DOCKER_PROXY_SECRET" with
    | none => decide
    | some s =>
        show s.utf8ByteSize < 2 ^ 32
        cases hempty : s.isEmpty with
        | true =>
            rw [String.isEmpty_iff.mp hempty]
            decide
        | false =>
            refine hrevokes.shortSecret s ?_
            unfold secretInForce processSecret
            rw [hvar]
            simp [Option.filter, hempty]
  · have hmem : e ∈ tokenEntries cfg.auth := by
      rw [hauth]
      exact he
    rw [hentries] at hmem
    obtain ⟨e', he', rfl⟩ := List.mem_map.mp hmem
    exact hrevokes.shortTokens e' he' _ (htexts e' he')
  · refine hrevokes.shortSecret s ?_
    rw [← secret_completeLoad h, hauth]
    exact hs

end

/-- The requests that present the token are refused. -/
def SystemEvent.RefusesToken (deps : Externals) (t : String) (statuses : List UInt16)
    (st : ProxyState) : SystemEvent deps → Prop
  | .happens (.request req peer cert docker m) =>
      PresentsToken req.headers t → Refused req statuses (handle deps st req peer cert docker m)
  | .happens (.reload _) | .cleanup _ _ | .tunnel _ _ => True

section

variable {vars : String → Option String} {t : String}

/-- A revoked token is not accepted. -/
theorem authenticate_revoked {st : ProxyState} (h : Provisioned vars (Revokes t) st)
    {headers : HeaderMap} (hpresents : PresentsToken headers t) (peer : deps.Ip)
    (cert : Option CertIdentity) (m : Moment) :
    ∃ status message, (authenticate deps st st.config headers peer cert m).1 =
      .denied status message ∧ status ∈ [401, 429] := by
  obtain ⟨hsecret, env, file, rfl, hcomplete, hrevokes⟩ := h
  have hbearer := mt (tokensOff_completeLoad hcomplete).mp hrevokes.bearer
  unfold TokensOff at hbearer
  rw [not_or] at hbearer
  cases hblocked : st.authLimiter.isBlocked m.checkedAt (deps.ipToString peer) with
  | true =>
      refine ⟨429, "Too many authentication failures", ?_, by decide⟩
      unfold authenticate
      dsimp only
      rw [hblocked]
      rfl
  | false =>
      obtain ⟨hne, hlt⟩ := size_of_presentsToken hpresents
      have hrole : resolveTokenRole st.config st.envSecret t = none := by
        cases hr : resolveTokenRole st.config st.envSecret t with
        | none => rfl
        | some r =>
            rw [hsecret] at hr
            have hadmits := (resolveTokenRole_iff
              (shortCredentials_completeLoad hcomplete hrevokes) hne hlt r).mp hr
            exact absurd ((admits_completeLoad_iff hcomplete hne).mp hadmits)
              (hrevokes.ungranted r)
      rw [authenticate_bearer deps headers cert hbearer.1 hbearer.2 hblocked,
        (extractBearerToken_iff headers t).mpr hpresents]
      dsimp only
      rw [hrole]
      split
      · exact ⟨_, _, rfl, by decide⟩
      · exact ⟨_, _, rfl, by decide⟩

/-- **A revoked token stays out**: once a file is loaded that does not know the token, and
as long as every file that is loaded after it does not either, every request that presents
the token is refused, whoever sends it, no rule is asked, and Docker is sent nothing. -/
theorem revoked_run {env : LaunchEnv} {args : List String} {proxy : Started}
    (h : launch env args = .started proxy) {past events : List (SystemEvent deps)}
    {config : ProxyConfig}
    (hpast : ∀ e ∈ past, e.Loads (processEnv env args).var fun _ _ => True)
    (hrevoked : LoadedIn (processEnv env args).var (Revokes t) config)
    (hevents : ∀ e ∈ events, e.Loads (processEnv env args).var (Revokes t)) :
    Along SystemEvent.step (fun st e => e.RefusesToken deps t [401, 429] st)
      (run SystemEvent.step proxy.state (past ++ [.happens (.reload config)])) events := by
  have hreached := along_invariant SystemEvent.step
    (I := Provisioned (processEnv env args).var fun _ _ => True)
    (fun st e hst he => provisioned_step hst he) past _ (provisioned_launch h)
    (along_of_forall SystemEvent.step past _ hpast)
  have hstart : Provisioned (processEnv env args).var (Revokes t)
      (run SystemEvent.step proxy.state (past ++ [.happens (.reload config)])) := by
    rw [run_concat]
    exact ⟨hreached.envSecret, hrevoked⟩
  refine along_along SystemEvent.step (I := Provisioned (processEnv env args).var (Revokes t))
    (fun st e hst he => ⟨?_, provisioned_step hst he⟩) events _ hstart
    (along_of_forall SystemEvent.step events _ hevents)
  cases e with
  | happens h' =>
      cases h' with
      | request req peer cert docker m =>
          intro hpresents
          obtain ⟨status, message, hdenied, hstatus⟩ :=
            authenticate_revoked hst hpresents peer cert m
          exact handle_refused deps hdenied hstatus docker
      | reload config => exact trivial
  | cleanup rateNow authNow => exact trivial
  | tunnel client docker => exact trivial

end

/-- A file that lists another token. -/
def rotatedFile : ProxyConfig where
  auth := some { tokens := some [{ token := "omega", role := some "ci" }] }

/-- The configuration that the rotated file is loaded to. -/
def rotatedLoaded : ProxyConfig where
  global := some { port := some 8443, socket := some "/srv/docker.sock" }
  auth := some { tokens := some [{ token := "omega", role := some "ci" }] }

/-- An inspection of a container with a token. -/
def inspectWith (token : String) : SystemEvent Externals.sample :=
  .happens (.request (inspectRequest [("authorization", .ofStr ("Bearer " ++ token))]) () none
    inspectDocker momentZero)

theorem revokes_rotatedFile : Revokes "alpha" (sampleMachine "alpha").toLoadEnv rotatedFile where
  bearer := by unfold TokensOff; decide
  ungranted := by
    rintro r (⟨e, he, -⟩ | ⟨-, hs, -⟩)
    · have hnone : ((tokenEntries rotatedFile.auth).find? fun e =>
          credentialText (sampleMachine "alpha").toLoadEnv e.token == some "alpha") = none := by
        decide +kernel
      rw [hnone] at he
      exact absurd he (by simp)
    · exact absurd hs (by decide +kernel)
  shortTokens := by
    intro e he text htext
    obtain rfl := List.mem_singleton.mp he
    have homega : credentialText (sampleMachine "alpha").toLoadEnv "omega" = some "omega" := by
      decide +kernel
    obtain rfl := Option.some.inj (homega.symm.trans htext)
    decide
  shortSecret := by
    intro text htext
    have hnone : secretInForce (sampleMachine "alpha").toLoadEnv rotatedFile.auth = none := by
      decide +kernel
    rw [hnone] at htext
    exact absurd htext (by simp)

/-- The token is rotated, and the old one is refused. -/
theorem revoked_run_rotated :
    Along SystemEvent.step
      (fun st e => e.RefusesToken Externals.sample "alpha" [401, 429] st)
      (run SystemEvent.step sampleProxy.state
        ([inspectWith "alpha"] ++ [.happens (.reload rotatedLoaded)]))
      [inspectWith "alpha", .happens (.reload rotatedLoaded), inspectWith "alpha"] := by
  have hloaded : LoadedIn (processEnv (sampleMachine "alpha") []).var (Revokes "alpha")
      rotatedLoaded :=
    ⟨(sampleMachine "alpha").toLoadEnv, rotatedFile, rfl, rfl, revokes_rotatedFile⟩
  refine revoked_run launch_sampleMachine (fun e he => ?_) hloaded (fun e he => ?_)
  · obtain rfl := List.mem_singleton.mp he
    exact trivial
  · simp only [List.mem_cons, List.not_mem_nil, or_false] at he
    obtain rfl | rfl | rfl := he
    · exact trivial
    · exact hloaded
    · exact trivial

/-! ## §4. The secret of the process. -/

/-- A request that presents the token gets in, from an address that is not locked out. -/
def SystemEvent.AdmitsToken (deps : Externals) (t : String) (st : ProxyState) :
    SystemEvent deps → Prop
  | .happens (.request req peer cert _ m) =>
      ¬ TokensOff st.config → PresentsToken req.headers t →
        st.authLimiter.isBlocked m.checkedAt (deps.ipToString peer) = false →
        ∃ role, (authenticated deps st req peer cert m).1 = .allowed (some role) none
  | .happens (.reload _) | .cleanup _ _ | .tunnel _ _ => True

/-- The configured secret has a role, whatever the tokens are. -/
theorem resolveTokenRole_secret {config : ProxyConfig} (envSecret : String) {t : String}
    (hne : t ≠ "") (hsecret : (config.auth.bind fun a => a.secret) = some t) :
    (resolveTokenRole config envSecret t).isSome = true := by
  unfold resolveTokenRole
  cases hauth : config.auth with
  | none =>
      rw [hauth] at hsecret
      exact absurd hsecret (by simp)
  | some auth =>
      rw [hauth] at hsecret
      have hs : auth.secret = some t := hsecret
      dsimp only
      split
      · rfl
      · have hself : constantTimeEq (asBytes t) (asBytes t) = true := by
          unfold constantTimeEq
          rw [beq_iff_eq, foldl_or_eq_zero]
          exact ⟨by simp, fun i _ => by simp⟩
        rw [hs]
        simp [hne, hself]

/-- **The secret of the process opens the proxy**: however the file is changed and
reloaded, as long as it asks for bearer tokens, a request that presents the secret that the
process was started with is authenticated. -/
theorem secret_run {env : LaunchEnv} {args : List String} {proxy : Started} {t : String}
    (h : launch env args = .started proxy) (hsecret : env.var "DOCKER_PROXY_SECRET" = some t)
    (hne : t ≠ "") {events : List (SystemEvent deps)}
    (hevents : ∀ e ∈ events, e.Loads (processEnv env args).var fun _ _ => True) :
    Along SystemEvent.step (fun st e => e.AdmitsToken deps t st) proxy.state events := by
  rw [← var_processEnv env args (by decide)] at hsecret
  refine along_along SystemEvent.step
    (I := Provisioned (processEnv env args).var fun _ _ => True)
    (fun st e hst he => ⟨?_, provisioned_step hst he⟩) events _ (provisioned_launch h)
    (along_of_forall SystemEvent.step events _ hevents)
  cases e with
  | happens h' =>
      cases h' with
      | request req peer cert docker m =>
          intro hbearer hpresents hfree
          unfold TokensOff at hbearer
          rw [not_or] at hbearer
          obtain ⟨-, env', file, hvar, hcomplete, -⟩ := hst
          have hforce : (st.config.auth.bind fun a => a.secret) = some t := by
            rw [secret_completeLoad hcomplete]
            unfold secretInForce processSecret
            rw [hvar, hsecret]
            simp [Option.filter, hne]
          obtain ⟨role, hrole⟩ := Option.isSome_iff_exists.mp
            (resolveTokenRole_secret st.envSecret hne hforce)
          have hset : isAuthStrictlyConfigured st.config st.envSecret = true := by
            unfold isAuthStrictlyConfigured
            cases hauth : st.config.auth with
            | none =>
                rw [hauth] at hforce
                exact absurd hforce (by simp)
            | some auth =>
                rw [hauth] at hforce
                have hs : auth.secret = some t := hforce
                dsimp only
                split
                · rfl
                · split
                  · rfl
                  · rw [hs]
                    simp [hne]
          refine ⟨role, ?_⟩
          refine (authenticate_count deps st _ st.config req.headers peer cert m).trans ?_
          rw [authenticate_bearer deps req.headers cert hbearer.1 hbearer.2 hfree, hset, if_pos rfl,
            (extractBearerToken_iff req.headers t).mpr hpresents]
          dsimp only
          rw [hrole]
      | reload config => exact trivial
  | cleanup rateNow authNow => exact trivial
  | tunnel client docker => exact trivial

/-- The machine, with a secret. -/
def secretMachine : LaunchEnv := (sampleMachine "alpha").setVar "DOCKER_PROXY_SECRET" "hunter2"

/-- The proxy that starts on this machine. -/
def secretProxy : Started where
  socketPath := "/srv/docker.sock"
  loadedFrom := some "config.yaml"
  state := freshState secretMachine.toLoadEnv
    { global := some { port := some 8443, socket := some "/srv/docker.sock" }
      auth := some
        { authType := some "bearer", secret := some "hunter2"
          tokens := some [{ token := "alpha", role := some "ci" }] } }

/-- The file is changed to another secret, and that of the process still works. -/
theorem secret_run_changed :
    Along SystemEvent.step (fun st e => e.AdmitsToken Externals.sample "hunter2" st)
      secretProxy.state
      [inspectWith "hunter2",
        .happens (.reload
          { global := some { port := some 8443, socket := some "/srv/docker.sock" }
            auth := some { authType := some "bearer", secret := some "hunter2" } }),
        inspectWith "hunter2"] := by
  have hlaunch : launch secretMachine [] = .started secretProxy := rfl
  refine secret_run hlaunch rfl (by decide) fun e he => ?_
  simp only [List.mem_cons, List.not_mem_nil, or_false] at he
  obtain rfl | rfl | rfl := he
  · exact trivial
  · exact ⟨secretMachine.toLoadEnv, { auth := some { secret := some "hunter3" } }, rfl, rfl, trivial⟩
  · exact trivial

end DockerProxy.Proxy
