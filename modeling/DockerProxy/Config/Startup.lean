/-
  DockerProxy.Config.Startup — which file is loaded, and which settings are in force.

  A program that is started without a file runs on the defaults, one that is started with
  a file on what `load_from_path` makes of it; both end with the same steps
  (`completeLoad`).  The environment is laid over the file in these steps, and asked again
  for the port and the socket where they are used.  Once loading has laid them over, the
  second question never changes the answer:

    • `socket_in_force` — `DOCKER_SOCKET`, then the file's socket, then the usual places,
    • `port_in_force` — `DOCKER_PROXY_PORT`, then the file's port, then 2376.
-/
import DockerProxy.Config.Load

namespace DockerProxy.Config

open DockerProxy.Lib

variable (env : LoadEnv)

/-! ## §1. Loading without a file. -/

/-- The steps that follow parsing. -/
def completeLoad (cfg : ProxyConfig) : Except String ProxyConfig := do
  let cfg ← resolveEnvVars env cfg
  let cfg := applyEnvOverrides env cfg
  let cfg ← compileRegexes env cfg
  validate cfg
  return sortRulesByPriority cfg

/-- The path of the configuration: `DOCKER_PROXY_CONFIG`, or `config.yaml` if it is there. -/
def defaultPath : Option String :=
  (env.var "DOCKER_PROXY_CONFIG").or
    (if env.pathExists "config.yaml" then some "config.yaml" else none)

/-- `ProxyConfig::load`. -/
def load : Except String ProxyConfig := do
  let config ← match (defaultPath env).filter env.pathExists with
    | some path => do
        let content ← (env.readFile path).mapError fun e => "failed to read config file: " ++ e
        let cfg ← (env.parse content).mapError fun e => "failed to parse config: " ++ e
        pure (parsedConfig cfg)
    | none => pure {}
  completeLoad env config

/-- `load_config_from_default_path`. -/
def loadConfigFromDefaultPath : Except String (ProxyConfig × Option String) :=
  match defaultPath env with
  | some p => do
      let cfg ← loadFromPath env p
      return (cfg, some p)
  | none => do
      let cfg ← load env
      return (cfg, none)

section

variable {env}

/-- A file is completed once it is read and parsed. -/
theorem loadFromPath_ok_iff {path : String} {cfg : ProxyConfig} :
    loadFromPath env path = .ok cfg ↔ ∃ content parsed, env.readFile path = .ok content ∧
      env.parse content = .ok parsed ∧ completeLoad env (parsedConfig parsed) = .ok cfg := by
  have hload : loadFromPath env path = (do
      let content ← (env.readFile path).mapError fun e => "read failed: " ++ e
      let parsed ← (env.parse content).mapError fun e => "parse failed: " ++ e
      completeLoad env (parsedConfig parsed)) := rfl
  rw [hload]
  simp only [bind_eq_ok, mapError_eq_ok]
  constructor
  · rintro ⟨content, hread, parsed, hparse, hcomplete⟩
    exact ⟨content, parsed, hread, hparse, hcomplete⟩
  · rintro ⟨content, parsed, hread, hparse, hcomplete⟩
    exact ⟨content, hread, parsed, hparse, hcomplete⟩

/-- What the source of a configuration holds; without a file, the defaults. -/
def Holds (env : LoadEnv) (source : Option String) (parsed : ProxyConfig) : Prop :=
  match source with
  | some path => ∃ content file, env.readFile path = .ok content ∧ env.parse content = .ok file ∧
      parsed = parsedConfig file
  | none => parsed = {}

/-- **What the program starts with**: the configuration of its source, completed. -/
theorem loadConfig_ok_iff {cfg : ProxyConfig} {source : Option String} :
    loadConfigFromDefaultPath env = .ok (cfg, source) ↔
      source = defaultPath env ∧ ∃ parsed, Holds env source parsed ∧
        completeLoad env parsed = .ok cfg := by
  unfold loadConfigFromDefaultPath
  cases hpath : defaultPath env with
  | some path =>
      dsimp only
      rw [bind_eq_ok]
      constructor
      · rintro ⟨cfg', hload, hpair⟩
        obtain ⟨rfl, rfl⟩ := Prod.mk.inj (pure_eq_ok.mp hpair)
        obtain ⟨content, file, hread, hparse, hcomplete⟩ := loadFromPath_ok_iff.mp hload
        exact ⟨rfl, _, ⟨content, file, hread, hparse, rfl⟩, hcomplete⟩
      · rintro ⟨rfl, parsed, ⟨content, file, hread, hparse, rfl⟩, hcomplete⟩
        exact ⟨cfg, loadFromPath_ok_iff.mpr ⟨content, file, hread, hparse, hcomplete⟩, rfl⟩
  | none =>
      -- `load` looks for the path again, and finds none
      have hload : load env = completeLoad env {} := by
        unfold load
        rw [hpath]
        rfl
      dsimp only
      rw [hload, bind_eq_ok]
      constructor
      · rintro ⟨cfg', hcomplete, hpair⟩
        obtain ⟨rfl, rfl⟩ := Prod.mk.inj (pure_eq_ok.mp hpair)
        exact ⟨rfl, _, rfl, hcomplete⟩
      · rintro ⟨rfl, parsed, rfl, hcomplete⟩
        exact ⟨cfg, hcomplete, rfl⟩

/-- **The steps of completing**: expanded, overridden, compiled, validated, sorted. -/
theorem completeLoad_ok {cfg₀ cfg : ProxyConfig} (h : completeLoad env cfg₀ = .ok cfg) :
    ∃ resolved compiled, resolveEnvVars env cfg₀ = .ok resolved ∧
      compileRegexes env (applyEnvOverrides env resolved) = .ok compiled ∧
      validate compiled = .ok () ∧ cfg = sortRulesByPriority compiled := by
  obtain ⟨resolved, hresolve, h⟩ := bind_eq_ok.mp h
  obtain ⟨compiled, hcompile, h⟩ := bind_eq_ok.mp h
  obtain ⟨u, hvalidate, h⟩ := bind_eq_ok.mp h
  exact ⟨resolved, compiled, hresolve, hcompile, hvalidate, (pure_eq_ok.mp h).symm⟩

/-- **Only the overrides reach the global settings.** -/
theorem global_completeLoad {cfg₀ cfg : ProxyConfig} (h : completeLoad env cfg₀ = .ok cfg) :
    cfg.global = (applyEnvOverrides env cfg₀).global := by
  obtain ⟨resolved, compiled, hresolve, hcompile, -, rfl⟩ := completeLoad_ok h
  obtain ⟨rules, -, hcompiled⟩ := bind_eq_ok.mp hcompile
  obtain ⟨auth, -, hresolve⟩ := bind_eq_ok.mp hresolve
  obtain ⟨rules', -, hresolved⟩ := bind_eq_ok.mp hresolve
  rw [← pure_eq_ok.mp hcompiled, ← pure_eq_ok.mp hresolved]
  show (applyEnvOverrides env { cfg₀ with auth := auth, rules := rules' }).global = _
  unfold applyEnvOverrides
  dsimp only
  cases (env.var "DOCKER_PROXY_PORT").bind parseU16 <;>
    cases (env.var "DOCKER_SOCKET").filter env.pathExists <;>
    cases (env.var "DOCKER_PROXY_SECRET").filter (fun s => !s.isEmpty) <;> rfl

end

/-! ## §2. The socket. -/

/-- Where Docker's socket usually is. -/
def socketCandidates (macos : Bool) : List String :=
  if macos then
    let home := (env.var "HOME").getD "/tmp"
    [home ++ "/.docker/run/docker.sock", "/var/run/docker.sock",
      home ++ "/.docker/desktop/docker.sock"]
  else ["/var/run/docker.sock", "/run/docker.sock"]

/-- `resolve_socket_path`. -/
def resolveSocketPath (macos : Bool) (configSocket : Option String) : Option String :=
  match configSocket.filter env.pathExists with
  | some p => some p
  | none =>
      match (env.var "DOCKER_SOCKET").filter env.pathExists with
      | some p => some p
      | none => (socketCandidates env macos).find? env.pathExists

/-- The socket that a configuration names. -/
def socketOf (config : ProxyConfig) : Option String := config.global.bind fun g => g.socket

/-- The port that a configuration names. -/
def portOf (config : ProxyConfig) : Option UInt16 := config.global.bind fun g => g.port

section

variable {env} {cfg₀ cfg : ProxyConfig}

theorem socketOf_completeLoad (h : completeLoad env cfg₀ = .ok cfg) :
    socketOf cfg = ((env.var "DOCKER_SOCKET").filter env.pathExists).or (socketOf cfg₀) := by
  unfold socketOf
  rw [global_completeLoad h]
  unfold applyEnvOverrides
  dsimp only
  cases (env.var "DOCKER_PROXY_PORT").bind parseU16 <;>
    cases (env.var "DOCKER_SOCKET").filter env.pathExists <;>
    cases (env.var "DOCKER_PROXY_SECRET").filter (fun s => !s.isEmpty) <;>
    cases cfg₀.global <;> rfl

theorem portOf_completeLoad (h : completeLoad env cfg₀ = .ok cfg) :
    portOf cfg = ((env.var "DOCKER_PROXY_PORT").bind parseU16).or (portOf cfg₀) := by
  unfold portOf
  rw [global_completeLoad h]
  unfold applyEnvOverrides
  dsimp only
  cases (env.var "DOCKER_PROXY_PORT").bind parseU16 <;>
    cases (env.var "DOCKER_SOCKET").filter env.pathExists <;>
    cases (env.var "DOCKER_PROXY_SECRET").filter (fun s => !s.isEmpty) <;>
    cases cfg₀.global <;> rfl

/-- The first of some paths that exists, one after the other. -/
theorem find?_toList_append (p : String → Bool) (o : Option String) (rest : List String) :
    (o.toList ++ rest).find? p = (o.filter p).or (rest.find? p) := by
  cases o with
  | none => rfl
  | some s =>
      show (s :: rest).find? p = _
      rw [List.find?_cons]
      cases hs : p s with
      | true => simp [Option.filter, hs]
      | false => simp [Option.filter, hs]

/-- **The socket in force**: of the variable's socket, the file's, and the usual places,
the first that exists.  The file's comes second: the variable has been laid over it, and
asking for the variable again changes nothing. -/
theorem socket_in_force (h : completeLoad env cfg₀ = .ok cfg) (macos : Bool) :
    resolveSocketPath env macos (socketOf cfg) =
      ((env.var "DOCKER_SOCKET").toList ++ (socketOf cfg₀).toList ++
        socketCandidates env macos).find? env.pathExists := by
  rw [List.append_assoc, find?_toList_append, find?_toList_append, socketOf_completeLoad h]
  unfold resolveSocketPath
  cases hvar : (env.var "DOCKER_SOCKET").filter env.pathExists with
  | some p =>
      obtain ⟨-, hp⟩ := Option.filter_eq_some_iff.mp hvar
      have hfilter : (some p).filter env.pathExists = some p := if_pos hp
      rw [Option.some_or, hfilter, Option.some_or]
  | none =>
      rw [Option.none_or, Option.none_or]
      cases (socketOf cfg₀).filter env.pathExists <;> rfl

/-- **The port in force**: the variable's, the file's, 2376. -/
theorem port_in_force (h : completeLoad env cfg₀ = .ok cfg) :
    ((portOf cfg).or ((env.var "DOCKER_PROXY_PORT").bind parseU16)).getD 2376 =
      (((env.var "DOCKER_PROXY_PORT").bind parseU16).or (portOf cfg₀)).getD 2376 := by
  rw [portOf_completeLoad h]
  cases (env.var "DOCKER_PROXY_PORT").bind parseU16 with
  | some p => rfl
  | none => rw [Option.none_or, Option.or_none]

end

end DockerProxy.Config
