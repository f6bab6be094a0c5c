/-
  DockerProxy.Proxy.Launch — `main` up to its accept loop.

  The arguments are read from left to right, the configuration is loaded, and the program
  prints what `--check-config` asks for or goes on: it sets up its log, looks for Docker's
  socket, and makes the state that all requests share.  `launch` is the whole of it.

    • `launch_started` — what a proxy that is started has found,
    • `check_config_hides_secrets` — what `--check-config` prints does not depend on
      anything secret,
    • `settings_in_force` — the socket and the address of a started proxy.

  The lines of the log are left out.
-/
import DockerProxy.Config.Effective
import DockerProxy.Proxy.Reload
import DockerProxy.Proxy.State

namespace DockerProxy.Proxy

open DockerProxy.Lib DockerProxy.Config DockerProxy.Limiter DockerProxy.Rules

/-! ## §1. The arguments. -/

/-- What the arguments ask for. -/
inductive Arguments where
  | help
  /-- They cannot be understood. -/
  | misused (message : String)
  | run (checkConfig : Bool) (explicitConfig : Option String)
  deriving DecidableEq

/-- The loop over the arguments, after the program's name. -/
def parseArguments (checkConfig : Bool) (explicitConfig : Option String) :
    List String → Arguments
  | [] => .run checkConfig explicitConfig
  | "--check-config" :: args => parseArguments true explicitConfig args
  | ["--config"] => .misused "--config requires a path argument"
  | "--config" :: path :: args => parseArguments checkConfig (some path) args
  | "--help" :: _ => .help
  | "-h" :: _ => .help
  | other :: _ => .misused ("unknown argument: " ++ other)

/-! ## §2. `main`. -/

/-- What `main` finds, besides what loading does. -/
structure LaunchEnv extends LoadEnv where
  /-- `target_os = "macos"`. -/
  macos : Bool
  /-- The directive `docker_proxy=<level>` for the log, with the text of its error. -/
  parseLevel : String → Except String Unit

/-- `env::set_var`. -/
def LaunchEnv.setVar (env : LaunchEnv) (name value : String) : LaunchEnv :=
  { env with var := fun n => if n = name then some value else env.var n }

/-- A proxy at the top of its accept loop. -/
structure Started where
  socketPath : String
  loadedFrom : Option String
  state : ProxyState

/-- What `main` comes to. -/
inductive Launch where
  /-- It prints something and returns. -/
  | done (stdout stderr : String)
  /-- `process::exit`. -/
  | exit (code : Nat) (stderr : String)
  /-- It returns an error. -/
  | failed (e : String)
  | started (proxy : Started)

/-- The text of `--help`. -/
def helpText : String :=
  "docker-proxy [--config <path>] [--check-config]\n  --config        path to YAML config " ++
    "(default: $DOCKER_PROXY_CONFIG or ./config.yaml)\n  --check-config  parse and print " ++
    "effective rule set, then exit"

/-- The path that the metrics are served at. -/
def metricsPathOf (config : ProxyConfig) : Option String :=
  (config.global.bind fun g => g.metrics).bind fun m =>
    if m.enabled.getD false then some (m.path.getD "/metrics") else none

/-- The log of the audit records, if one is named. -/
def auditOf (config : ProxyConfig) : Option (List AuditEvent) :=
  match config.global.bind fun g => g.auditLog with
  | some p => if !p.isEmpty then some [] else none
  | none => none

/-- The state that a proxy is started with. -/
def freshState (env : LoadEnv) (config : ProxyConfig) : ProxyState where
  config := config
  envSecret := (env.var "DOCKER_PROXY_SECRET").getD ""
  rateLimiter := RateLimiter.new
  authLimiter := AuthLimiter.new
  metrics := {}
  audit := auditOf config
  metricsPath := metricsPathOf config

/-- `main`, after the arguments: load, then check or serve. -/
def runMain (env : LaunchEnv) (checkConfig : Bool) : Launch :=
  match loadConfigFromDefaultPath env.toLoadEnv with
  | .error e => .exit 2 ("config load failed: " ++ e ++ "\n")
  | .ok (config, loadedFrom) =>
      if checkConfig then
        .done (renderEffectiveRules config ++ "\n")
          ("Loaded config from: " ++ loadedFrom.getD "(defaults — no file found)" ++ "\n")
      else
        match (config.global.bind fun g => g.logLevel).forM env.parseLevel with
        | .error e => .failed e
        | .ok () =>
            match resolveSocketPath env.toLoadEnv env.macos (socketOf config) with
            | none => .exit 1 ""
            | some socketPath =>
                .started
                  { socketPath := socketPath
                    loadedFrom := loadedFrom
                    state := freshState env.toLoadEnv config }

/-- The environment that the rest of `main` sees. -/
def LaunchEnv.withConfig (env : LaunchEnv) (explicitConfig : Option String) : LaunchEnv :=
  match explicitConfig with
  | some p => env.setVar "DOCKER_PROXY_CONFIG" p
  | none => env

/-- The environment of the process, once the arguments are read. -/
def processEnv (env : LaunchEnv) (args : List String) : LaunchEnv :=
  match parseArguments false none args with
  | .run _ explicitConfig => env.withConfig explicitConfig
  | .help | .misused _ => env

/-- `main`, up to the accept loop. -/
def launch (env : LaunchEnv) (args : List String) : Launch :=
  match parseArguments false none args with
  | .help => .done (helpText ++ "\n") ""
  | .misused message => .exit 2 (message ++ "\n")
  | .run checkConfig _ => runMain (processEnv env args) checkConfig

/-! ## §3. A proxy that is started. -/

/-- **What a proxy that is started has found**: a source that loads, and a socket. -/
structure Starts (env : LoadEnv) (macos : Bool) (parsed cfg : ProxyConfig) (proxy : Started) :
    Prop where
  holds : Holds env proxy.loadedFrom parsed
  complete : completeLoad env parsed = .ok cfg
  socket : resolveSocketPath env macos (socketOf cfg) = some proxy.socketPath
  state : proxy.state = freshState env cfg

theorem runMain_started {env : LaunchEnv} {checkConfig : Bool} {proxy : Started}
    (h : runMain env checkConfig = .started proxy) :
    checkConfig = false ∧ ∃ parsed cfg, Starts env.toLoadEnv env.macos parsed cfg proxy := by
  unfold runMain at h
  split at h
  next => exact absurd h (by simp)
  next cfg loadedFrom hload =>
    obtain ⟨-, parsed, hholds, hcomplete⟩ := loadConfig_ok_iff.mp hload
    split at h
    next => exact absurd h (by simp)
    next hcheck =>
      split at h
      next => exact absurd h (by simp)
      next =>
        split at h
        next => exact absurd h (by simp)
        next socketPath hsocket =>
          obtain rfl := Launch.started.inj h
          exact ⟨by simpa using hcheck, parsed, cfg, hholds, hcomplete, hsocket, rfl⟩

theorem launch_started {env : LaunchEnv} {args : List String} {proxy : Started}
    (h : launch env args = .started proxy) :
    ∃ parsed cfg,
      Starts (processEnv env args).toLoadEnv (processEnv env args).macos parsed cfg proxy := by
  unfold launch at h
  split at h
  next => exact absurd h (by simp)
  next => exact absurd h (by simp)
  next => exact (runMain_started h).2

theorem var_setVar_self {env : LaunchEnv} {name value : String} :
    (env.setVar name value).var name = some value := if_pos rfl

/-- Another variable is not changed. -/
theorem var_setVar {env : LaunchEnv} {name value other : String} (h : other ≠ name) :
    (env.setVar name value).var other = env.var other := if_neg h

/-- The arguments set one variable, and nothing else. -/
theorem processEnv_cases (env : LaunchEnv) (args : List String) :
    processEnv env args = env ∨ ∃ path, processEnv env args =
      env.setVar "DOCKER_PROXY_CONFIG" path := by
  unfold processEnv
  split
  next explicitConfig _ =>
    cases explicitConfig with
    | none => exact Or.inl rfl
    | some path => exact Or.inr ⟨path, rfl⟩
  next => exact Or.inl rfl
  next => exact Or.inl rfl

theorem var_processEnv (env : LaunchEnv) (args : List String) {name : String}
    (h : name ≠ "DOCKER_PROXY_CONFIG") : (processEnv env args).var name = env.var name := by
  obtain henv | ⟨path, henv⟩ := processEnv_cases env args
  · rw [henv]
  · rw [henv, var_setVar h]

/-! ## §4. What `--check-config` prints. -/

/-- **The environments differ in secrets at most**: they name the same source, lay the same
port and socket over it, both have a secret or neither, and what they read shows the same. -/
structure SameButSecrets (env env' : LaunchEnv) : Prop where
  source : env'.var "DOCKER_PROXY_CONFIG" = env.var "DOCKER_PROXY_CONFIG"
  found : env'.pathExists = env.pathExists
  overrides : overrides env'.toLoadEnv = overrides env.toLoadEnv
  shown : ∀ source parsed parsed', Holds env.toLoadEnv source parsed →
    Holds env'.toLoadEnv source parsed' → shown parsed' = shown parsed

theorem SameButSecrets.withConfig {env env' : LaunchEnv} (h : SameButSecrets env env')
    (explicitConfig : Option String) :
    SameButSecrets (env.withConfig explicitConfig) (env'.withConfig explicitConfig) := by
  cases explicitConfig with
  | none => exact h
  | some path =>
      refine ⟨?_, h.found, ?_, h.shown⟩
      · show (env'.setVar "DOCKER_PROXY_CONFIG" path).var "DOCKER_PROXY_CONFIG" =
          (env.setVar "DOCKER_PROXY_CONFIG" path).var "DOCKER_PROXY_CONFIG"
        rw [var_setVar_self, var_setVar_self]
      · have hsame : ∀ env : LaunchEnv, Config.overrides
            (env.setVar "DOCKER_PROXY_CONFIG" path).toLoadEnv = Config.overrides env.toLoadEnv := by
          intro env
          unfold Config.overrides
          rw [var_setVar (by decide), var_setVar (by decide), var_setVar (by decide)]
          rfl
        show Config.overrides (env'.setVar "DOCKER_PROXY_CONFIG" path).toLoadEnv =
          Config.overrides (env.setVar "DOCKER_PROXY_CONFIG" path).toLoadEnv
        rw [hsame, hsame, h.overrides]

/-- The same source is loaded. -/
theorem SameButSecrets.defaultPath {env env' : LaunchEnv} (h : SameButSecrets env env') :
    defaultPath env'.toLoadEnv = defaultPath env.toLoadEnv := by
  unfold Config.defaultPath
  rw [h.source, h.found]

/-- The host that a configuration binds. -/
def hostOf (config : ProxyConfig) : String := (config.global.bind fun g => g.bind).getD "127.0.0.1"

theorem listenAddress_eq (lenv : ListenEnv) (config : ProxyConfig) :
    listenAddress lenv config = hostOf config ++ ":" ++
      toString (((portOf config).or
        ((lenv.var "DOCKER_PROXY_PORT").bind parseU16)).getD 2376).toNat := rfl

theorem hostOf_completeLoad {env : LoadEnv} {cfg₀ cfg : ProxyConfig}
    (h : completeLoad env cfg₀ = .ok cfg) : hostOf cfg = hostOf cfg₀ := by
  unfold hostOf
  rw [global_completeLoad h]
  unfold applyEnvOverrides
  dsimp only
  cases (env.var "DOCKER_PROXY_PORT").bind parseU16 <;>
    cases (env.var "DOCKER_SOCKET").filter env.pathExists <;>
    cases (env.var "DOCKER_PROXY_SECRET").filter (fun s => !s.isEmpty) <;>
    cases cfg₀.global <;> rfl

/-- **The settings of a started proxy**: the variables, then the file, then the defaults.
The socket is the first that exists. -/
theorem settings_in_force {env : LaunchEnv} {args : List String} {proxy : Started}
    (h : launch env args = .started proxy) :
    ∃ parsed, Holds (processEnv env args).toLoadEnv proxy.loadedFrom parsed ∧
      ((env.var "DOCKER_SOCKET").toList ++ (socketOf parsed).toList ++
          socketCandidates env.toLoadEnv env.macos).find? env.pathExists =
        some proxy.socketPath ∧
      ∀ lenv : ListenEnv, lenv.var = (processEnv env args).var →
        listenAddress lenv proxy.state.config = hostOf parsed ++ ":" ++
          toString ((((env.var "DOCKER_PROXY_PORT").bind parseU16).or
            (portOf parsed)).getD 2376).toNat := by
  obtain ⟨parsed, cfg, hstarts⟩ := launch_started h
  refine ⟨parsed, hstarts.holds, ?_, fun lenv hvar => ?_⟩
  · have hsocket := hstarts.socket
    rw [socket_in_force hstarts.complete] at hsocket
    obtain henv | ⟨path, henv⟩ := processEnv_cases env args
    · rw [henv] at hsocket
      exact hsocket
    · rw [henv] at hsocket
      exact hsocket
  · rw [hstarts.state]
    show listenAddress lenv cfg = _
    rw [listenAddress_eq, hvar, port_in_force hstarts.complete,
      hostOf_completeLoad hstarts.complete, var_processEnv env args (by decide)]

/-! ## §6. Reloads. -/

/-- The variables of the process, which a load or an attempt to listen sees. -/
def TaskEvent.Under (vars : String → Option String) : TaskEvent → Prop
  | .load env => env.var = vars
  | .create env => env.var = vars
  | .sighup | .recv | .swap | .notify | .read | .notified | .wake => True

/-- **The tasks stay on the port**: every configuration that they hold names it, and the
listener in service is bound to it. -/
structure Tasks.OnPort (p : UInt16) (s : Tasks) : Prop where
  current : portOf s.current = some p
  main : ∀ config, s.main.config = some config → portOf config = some p
  loaded : ∀ config, s.reloader = .loaded config → portOf config = some p
  serving : ∀ config listener, s.main = .serving config listener →
    listener.address = hostOf config ++ ":" ++ toString p.toNat

/-- A listener is bound to the address of its configuration. -/
theorem address_of_createListener {lenv : ListenEnv} {config : ProxyConfig} {listener : Listener}
    (h : createListener lenv config = .ok listener) :
    listener.address = listenAddress lenv config := by
  obtain ⟨tls, -, h⟩ := bind_eq_ok.mp h
  obtain ⟨_, -, h⟩ := bind_eq_ok.mp h
  rw [← pure_eq_ok.mp h]

section

variable {vars : String → Option String} {p : UInt16} {path : String}

/-- **Whatever file is loaded, it gets the variable's port.** -/
theorem portOf_loadFromPath {env : LoadEnv} {config : ProxyConfig} (hvar : env.var = vars)
    (hport : (vars "DOCKER_PROXY_PORT").bind parseU16 = some p)
    (h : loadFromPath env path = .ok config) : portOf config = some p := by
  obtain ⟨content, parsed, -, -, hcomplete⟩ := loadFromPath_ok_iff.mp h
  rw [portOf_completeLoad hcomplete, hvar, hport, Option.some_or]

/-- One event of the two tasks. -/
theorem onPort_step (hport : (vars "DOCKER_PROXY_PORT").bind parseU16 = some p) {s : Tasks}
    {e : TaskEvent} (h : s.OnPort p) (he : e.Under vars) : (Tasks.step path s e).OnPort p := by
  have hmoves := Tasks.step_moves path s e
  generalize Tasks.step path s e = s' at hmoves
  cases hmoves with
  | stay => exact h
  | sighup => exact ⟨h.current, h.main, h.loaded, h.serving⟩
  | recv | loadErr =>
      exact ⟨h.current, h.main, fun config hconfig => absurd hconfig (by simp), h.serving⟩
  | loadOk hloading hload =>
      refine ⟨h.current, h.main, fun config hconfig => ?_, h.serving⟩
      obtain rfl := ReloaderPhase.loaded.inj hconfig
      exact portOf_loadFromPath he hport hload
  | swap hloaded =>
      exact ⟨h.loaded _ hloaded, h.main, fun config hconfig => absurd hconfig (by simp), h.serving⟩
  | notify =>
      exact ⟨h.current, h.main, fun config hconfig => absurd hconfig (by simp), h.serving⟩
  | read =>
      refine ⟨h.current, fun config hconfig => ?_, h.loaded, fun _ _ hmain => absurd hmain (by simp)⟩
      obtain rfl := Option.some.inj hconfig
      exact h.current
  | createOk hbinding hcreate =>
      have hconfig := h.main _ (by rw [hbinding]; rfl)
      refine ⟨h.current, fun config hmain => ?_, h.loaded, fun config listener hmain => ?_⟩
      · obtain rfl := Option.some.inj hmain
        exact hconfig
      · obtain ⟨rfl, rfl⟩ := MainPhase.serving.inj hmain
        rw [address_of_createListener hcreate, listenAddress_eq, hconfig, Option.some_or]
        rfl
  | createFirst | createErr | notified | wake =>
      exact ⟨h.current, fun config hconfig => absurd hconfig (by simp [MainPhase.config]), h.loaded,
        fun _ _ hmain => absurd hmain (by simp)⟩

end

/-- **The variable's port stays**: whenever a proxy that is started with `DOCKER_PROXY_PORT`
listens, it listens on that port, after whatever reloads of whatever files. -/
theorem port_run {env : LaunchEnv} {args : List String} {proxy : Started} {p : UInt16}
    (h : launch env args = .started proxy)
    (hport : (env.var "DOCKER_PROXY_PORT").bind parseU16 = some p) (path : String)
    {events : List TaskEvent} (hevents : ∀ e ∈ events, e.Under (processEnv env args).var) :
    (run (Tasks.step path) (Tasks.start proxy.state.config) events).OnPort p := by
  rw [← var_processEnv env args (by decide)] at hport
  obtain ⟨parsed, cfg, hstarts⟩ := launch_started h
  have hstart : (Tasks.start proxy.state.config).OnPort p := by
    refine ⟨?_, fun _ hmain => absurd hmain (by simp [Tasks.start, MainPhase.config]),
      fun _ hloaded => absurd hloaded (by simp [Tasks.start]),
      fun _ _ hmain => absurd hmain (by simp [Tasks.start])⟩
    show portOf proxy.state.config = some p
    rw [hstarts.state]
    show portOf cfg = some p
    rw [portOf_completeLoad hstarts.complete, hport, Option.some_or]
  exact along_invariant (Tasks.step path) (fun s e hs he => onPort_step hport hs he) events _
    hstart (along_of_forall (Tasks.step path) events _ hevents)

/-! ## §7. A proxy that is started. -/

/-- A machine on which Docker's socket is in the usual place, and in another. -/
def sampleMachine (token : String) : LaunchEnv where
  var n :=
    if n = "DOCKER_PROXY_PORT" then some "8443"
    else if n = "DOCKER_SOCKET" then some "/srv/docker.sock"
    else if n = "CI_TOKEN" then some token
    else none
  pathExists p := p == "/srv/docker.sock" || p == "/var/run/docker.sock" || p == "config.yaml"
  readFile _ := .ok ""
  parse _ := .ok
    { global := some { port := some 2376, socket := some "/var/run/docker.sock" }
      auth := some { tokens := some [{ token := "$\x7bCI_TOKEN\x7d", role := some "ci" }] } }
  isWordChar c := c.isAlphanum || c == '_'
  compileRegex _ := .error "unsupported"
  macos := false
  parseLevel _ := .ok ()

/-- The configuration that is loaded on it. -/
def sampleLoaded (token : String) : ProxyConfig where
  global := some { port := some 8443, socket := some "/srv/docker.sock" }
  auth := some { tokens := some [{ token := token, role := some "ci" }] }

/-- The proxy that starts on this machine. -/
def sampleProxy : Started where
  socketPath := "/srv/docker.sock"
  loadedFrom := some "config.yaml"
  state := freshState (sampleMachine "alpha").toLoadEnv (sampleLoaded "alpha")

theorem launch_sampleMachine : launch (sampleMachine "alpha") [] = .started sampleProxy := by
  rfl

/-- The socket and the port of the variables are in force, not those of the file. -/
theorem settings_in_force_sample :
    ∃ parsed, Holds (processEnv (sampleMachine "alpha") []).toLoadEnv sampleProxy.loadedFrom
        parsed ∧
      (((sampleMachine "alpha").var "DOCKER_SOCKET").toList ++ (socketOf parsed).toList ++
          socketCandidates (sampleMachine "alpha").toLoadEnv false).find?
            (sampleMachine "alpha").pathExists = some "/srv/docker.sock" ∧
      ∀ lenv : ListenEnv, lenv.var = (processEnv (sampleMachine "alpha") []).var →
        listenAddress lenv sampleProxy.state.config = hostOf parsed ++ ":" ++
          toString (((((sampleMachine "alpha").var "DOCKER_PROXY_PORT").bind parseU16).or
            (portOf parsed)).getD 2376).toNat :=
  settings_in_force launch_sampleMachine

/-- A listener on this machine; everything can be bound. -/
def sampleNetwork : ListenEnv where
  var := (sampleMachine "alpha").var
  openFile _ := .error "no such file"
  pemCerts _ := []
  pemPrivateKey _ := .ok none
  addRoot _ := .ok ()
  buildVerifier _ _ := .ok ()
  withSingleCert _ _ := .ok ()
  bind _ := .ok ()

/-- The proxy on it listens on the variable's port. -/
theorem port_run_sample :
    (run (Tasks.step "config.yaml") (Tasks.start sampleProxy.state.config)
      [.read, .create sampleNetwork]).OnPort 8443 := by
  refine port_run launch_sampleMachine rfl "config.yaml" fun e he => ?_
  simp only [List.mem_cons, List.not_mem_nil, or_false] at he
  obtain rfl | rfl := he
  · trivial
  · exact rfl

end DockerProxy.Proxy
