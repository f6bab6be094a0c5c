/-
  DockerProxy.Proxy.Reload — a reload from the signal to the listener.

  Two tasks take part.  `spawn_sighup_reloader`'s task loads the file, swaps the
  configuration, and notifies; `main`'s loop reads the current configuration, creates a
  listener, serves it until it is notified, and drops it.  Their steps interleave in
  every order, and each attempt to load or to listen meets files and a network of its
  own.

    • `failed_loads` — a file that fails to load leaves the configuration and the
      listener as they are;
    • `reachable_consistent` — a listener in service was created from the current
      configuration, unless a reload is on its way to it;
    • `reload_outcome` — both over all runs, and what happens when a file loads and
      its listener cannot be created;
    • `reload_loses_listener` — then the proxy has the new configuration and no
      listener.

  What the accept loop does with its clients is in `DockerProxy.Proxy.Connections`.
-/
import DockerProxy.Config.Load
import DockerProxy.Lib.Exec

namespace DockerProxy.Proxy

open DockerProxy.Config DockerProxy.Lib

/-! ## §1. `create_listener`. -/

/-- A DER blob: a certificate or a private key. -/
abbrev Der := List UInt8

/-- What an attempt to listen meets: variables, files, `rustls` and the network, the
failures with the text of the error. -/
structure ListenEnv where
  /-- `env::var`. -/
  var : String → Option String
  /-- `File::open`. -/
  openFile : String → Except String Unit
  /-- `rustls_pemfile::certs` of a file. -/
  pemCerts : String → List (Except String Der)
  /-- `rustls_pemfile::private_key` of a file. -/
  pemPrivateKey : String → Except String (Option Der)
  /-- `RootCertStore::add`. -/
  addRoot : Der → Except String Unit
  /-- `build` of the `WebPkiClientVerifier` for these roots; whether it insists on a
  client certificate. -/
  buildVerifier : List Der → Bool → Except String Unit
  /-- `with_single_cert`. -/
  withSingleCert : List Der → Der → Except String Unit
  /-- `TcpListener::bind`. -/
  bind : String → Except String Unit

/-- A `ServerConfig`; `clientAuth` holds the roots for client certificates and whether
one is required. -/
structure ServerConfig where
  certs : List Der
  key : Der
  clientAuth : Option (List Der × Bool)
  deriving DecidableEq

/-- A bound `TcpListener` and its `TlsAcceptor`. -/
structure Listener where
  address : String
  tls : Option ServerConfig
  deriving DecidableEq

section

variable (env : ListenEnv)

/-- `load_certs`. -/
def loadCerts (path : String) : Except String (List Der) := do
  (env.openFile path).mapError fun e => "open " ++ path ++ " failed: " ++ e
  let certs ← (env.pemCerts path).mapM fun item =>
    item.mapError fun e => "parse cert failed: " ++ e
  if certs.isEmpty then .error ("no certificates found in " ++ path) else return certs

/-- `load_private_key`. -/
def loadPrivateKey (path : String) : Except String Der := do
  (env.openFile path).mapError fun e => "open " ++ path ++ " failed: " ++ e
  match ← (env.pemPrivateKey path).mapError fun e => "parse key failed: " ++ e with
  | some key => return key
  | none => .error ("no private key found in " ++ path)

/-- `tls::build_server_config`. -/
def buildServerConfig (tls : TlsConfig) : Except String ServerConfig := do
  let certs ← loadCerts env tls.cert
  let key ← loadPrivateKey env tls.key
  match tls.clientCa with
  | some caPath =>
      let roots ← loadCerts env caPath
      for cert in roots do
        (env.addRoot cert).mapError fun e => "client CA add failed: " ++ e
      let require := tls.requireClientCert.getD false
      (env.buildVerifier roots require).mapError fun e => "client verifier build failed: " ++ e
      (env.withSingleCert certs key).mapError fun e => "server cert install failed: " ++ e
      return ⟨certs, key, some (roots, require)⟩
  | none =>
      (env.withSingleCert certs key).mapError fun e => "server cert install failed: " ++ e
      return ⟨certs, key, none⟩

/-- The address that `create_listener` binds. -/
def listenAddress (config : ProxyConfig) : String :=
  let port := (config.global.bind fun g => g.port).or
    ((env.var "DOCKER_PROXY_PORT").bind parseU16)
  let bindHost := (config.global.bind fun g => g.bind).getD "127.0.0.1"
  bindHost ++ ":" ++ toString (port.getD 2376).toNat

/-- `create_listener`. -/
def createListener (config : ProxyConfig) : Except String Listener := do
  let tls ← (config.global.bind fun g => g.tls).mapM (buildServerConfig env)
  env.bind (listenAddress env config)
  return ⟨listenAddress env config, tls⟩

/-- **A listener cannot be created** exactly when its TLS files are unusable or its
address is not bindable. -/
theorem createListener_fails_iff (config : ProxyConfig) :
    (∃ e, createListener env config = .error e) ↔
      (∃ tls e, (config.global.bind fun g => g.tls) = some tls ∧
          buildServerConfig env tls = .error e) ∨
        ∃ e, env.bind (listenAddress env config) = .error e := by
  unfold createListener
  cases (config.global.bind fun g => g.tls) with
  | none =>
      cases env.bind (listenAddress env config) with
      | error e => exact Iff.intro (fun _ => Or.inr ⟨e, rfl⟩) (fun _ => ⟨e, rfl⟩)
      | ok _ => exact Iff.intro (fun ⟨_, h⟩ => nomatch h) (fun h => by simp at h)
  | some tls =>
      cases htls : buildServerConfig env tls with
      | error e =>
          refine Iff.intro (fun _ => Or.inl ⟨tls, e, rfl, htls⟩) (fun _ => ⟨e, ?_⟩)
          rw [Option.mapM_some, htls]
          rfl
      | ok built =>
          rw [Option.mapM_some, htls]
          cases env.bind (listenAddress env config) with
          | error e => exact Iff.intro (fun _ => Or.inr ⟨e, rfl⟩) (fun _ => ⟨e, rfl⟩)
          | ok _ => exact Iff.intro (fun ⟨_, h⟩ => nomatch h) (fun h => by simp [htls] at h)

end

/-! ## §2. The two tasks. -/

/-- Where `main`'s loop is. -/
inductive MainPhase where
  /-- At the top, before `current_config`. -/
  | top
  /-- With a configuration, before `create_listener`. -/
  | binding (config : ProxyConfig)
  /-- In the accept loop, with the listener made from a configuration. -/
  | serving (config : ProxyConfig) (listener : Listener)
  /-- In the pause after `create_listener` failed. -/
  | sleeping
  /-- `main` returned the error. -/
  | exited (e : String)

/-- The configuration that `main` has read. -/
def MainPhase.config : MainPhase → Option ProxyConfig
  | .binding config | .serving config _ => some config
  | .top | .sleeping | .exited _ => none

/-- Where the reloader is. -/
inductive ReloaderPhase where
  /-- In `signal.recv()`. -/
  | waiting
  /-- A signal came, before `load_from_path`. -/
  | loading
  /-- The file loaded, before `swap_config`. -/
  | loaded (config : ProxyConfig)
  /-- After `swap_config`, before `notify_one`. -/
  | swapped

/-- Both tasks, and what they share. -/
structure Tasks where
  /-- The current configuration. -/
  current : ProxyConfig
  /-- The permit that `reload_notify` stores. -/
  permit : Bool
  /-- A signal waits for `signal.recv()`; further ones coalesce with it. -/
  pending : Bool
  /-- `first_bind`. -/
  firstBind : Bool
  main : MainPhase
  reloader : ReloaderPhase

/-- A signal, or the next step of a task. -/
inductive TaskEvent where
  | sighup
  | recv
  | load (env : LoadEnv)
  | swap
  | notify
  | read
  | create (env : ListenEnv)
  | notified
  | wake

namespace Tasks

/-- `main` before its loop, with the configuration it was started with. -/
def start (config : ProxyConfig) : Tasks :=
  { current := config, permit := false, pending := false, firstBind := true, main := .top,
    reloader := .waiting }

section

variable (path : String)

/-- One event; what a task cannot do where it is changes nothing. -/
def step (s : Tasks) : TaskEvent → Tasks
  | .sighup => { s with pending := true }
  | .recv =>
      match s.reloader, s.pending with
      | .waiting, true => { s with pending := false, reloader := .loading }
      | _, _ => s
  | .load env =>
      match s.reloader with
      | .loading =>
          match loadFromPath env path with
          | .ok config => { s with reloader := .loaded config }
          | .error _ => { s with reloader := .waiting }
      | _ => s
  | .swap =>
      match s.reloader with
      | .loaded config => { s with current := config, reloader := .swapped }
      | _ => s
  | .notify =>
      match s.reloader with
      | .swapped => { s with permit := true, reloader := .waiting }
      | _ => s
  | .read =>
      match s.main with
      | .top => { s with main := .binding s.current }
      | _ => s
  | .create env =>
      match s.main with
      | .binding config =>
          match createListener env config with
          | .ok listener => { s with main := .serving config listener }
          | .error e =>
              if s.firstBind then { s with main := .exited e } else { s with main := .sleeping }
      | _ => s
  | .notified =>
      match s.main, s.permit with
      -- the accept loop ends, and the listener is dropped
      | .serving _ _, true => { s with permit := false, firstBind := false, main := .top }
      | _, _ => s
  | .wake =>
      match s.main with
      | .sleeping => { s with main := .top }
      | _ => s

/-- What an event does, case by case. -/
inductive Moves (s : Tasks) : TaskEvent → Tasks → Prop
  | stay (e : TaskEvent) : Moves s e s
  | sighup : Moves s .sighup { s with pending := true }
  | recv (h : s.reloader = .waiting) :
      Moves s .recv { s with pending := false, reloader := .loading }
  | loadOk {env : LoadEnv} {config : ProxyConfig} (h : s.reloader = .loading)
      (hload : loadFromPath env path = .ok config) :
      Moves s (.load env) { s with reloader := .loaded config }
  | loadErr {env : LoadEnv} {e : String} (h : s.reloader = .loading)
      (hload : loadFromPath env path = .error e) :
      Moves s (.load env) { s with reloader := .waiting }
  | swap {config : ProxyConfig} (h : s.reloader = .loaded config) :
      Moves s .swap { s with current := config, reloader := .swapped }
  | notify (h : s.reloader = .swapped) :
      Moves s .notify { s with permit := true, reloader := .waiting }
  | read (h : s.main = .top) : Moves s .read { s with main := .binding s.current }
  | createOk {env : ListenEnv} {config : ProxyConfig} {listener : Listener}
      (h : s.main = .binding config) (hcreate : createListener env config = .ok listener) :
      Moves s (.create env) { s with main := .serving config listener }
  | createFirst {env : ListenEnv} {config : ProxyConfig} {e : String}
      (h : s.main = .binding config) (hcreate : createListener env config = .error e)
      (hfirst : s.firstBind = true) : Moves s (.create env) { s with main := .exited e }
  | createErr {env : ListenEnv} {config : ProxyConfig} {e : String}
      (h : s.main = .binding config) (hcreate : createListener env config = .error e)
      (hfirst : s.firstBind = false) : Moves s (.create env) { s with main := .sleeping }
  | notified {config : ProxyConfig} {listener : Listener} (h : s.main = .serving config listener)
      (hpermit : s.permit = true) :
      Moves s .notified { s with permit := false, firstBind := false, main := .top }
  | wake (h : s.main = .sleeping) : Moves s .wake { s with main := .top }

/-- **All that an event can do.** -/
theorem step_moves (s : Tasks) (e : TaskEvent) : Moves path s e (step path s e) := by
  cases e with
  | sighup => exact .sighup
  | recv =>
      simp only [step]
      split
      · rename_i h _
        exact .recv h
      · exact .stay _
  | load env =>
      simp only [step]
      split
      · rename_i h
        cases hload : loadFromPath env path with
        | ok config => exact .loadOk h hload
        | error e => exact .loadErr h hload
      · exact .stay _
  | swap =>
      simp only [step]
      split
      · rename_i config h
        exact .swap h
      · exact .stay _
  | notify =>
      simp only [step]
      split
      · rename_i h
        exact .notify h
      · exact .stay _
  | read =>
      simp only [step]
      split
      · rename_i h
        exact .read h
      · exact .stay _
  | create env =>
      simp only [step]
      split
      · rename_i config h
        cases hcreate : createListener env config with
        | ok listener => exact .createOk h hcreate
        | error e =>
            simp only
            split
            · rename_i hfirst
              exact .createFirst h hcreate hfirst
            · rename_i hfirst
              exact .createErr h hcreate (by simpa using hfirst)
      · exact .stay _
  | notified =>
      simp only [step]
      split
      · rename_i config listener h hpermit
        exact .notified h hpermit
      · exact .stay _
  | wake =>
      simp only [step]
      split
      · rename_i h
        exact .wake h
      · exact .stay _

/-! ## §3. What every step keeps. -/

/-- The listener was bound once. -/
def Bound (s : Tasks) : Prop :=
  (∃ config listener, s.main = .serving config listener) ∨ s.firstBind = false

/-- The current configuration is on its way to the listener. -/
def OnItsWay (s : Tasks) : Prop := s.permit = true ∨ s.reloader = .swapped

/-- The two tasks agree. -/
structure Consistent (s : Tasks) : Prop where
  /-- What `main` works with is current, or it will be told. -/
  told : ∀ config, s.main.config = some config → config = s.current ∨ s.OnItsWay
  /-- A listener was created from its configuration. -/
  made : ∀ config listener, s.main = .serving config listener →
    ∃ env, createListener env config = .ok listener
  /-- `main` returns an error only at its first attempt to listen. -/
  first : ∀ e, s.main = .exited e → s.firstBind = true

variable {path}

/-- **Once bound, always bound**: `main` does not return. -/
theorem Moves.bound {s s' : Tasks} {e : TaskEvent} (hmoves : Moves path s e s') (h : s.Bound) :
    s'.Bound := by
  cases hmoves with
  | stay | sighup | recv | loadOk | loadErr | swap | notify => exact h
  | createOk => exact Or.inl ⟨_, _, rfl⟩
  | notified => exact Or.inr rfl
  | createErr _ _ hfirst => exact Or.inr hfirst
  | read hmain | wake hmain =>
      obtain ⟨_, _, hserving⟩ | hfirst := h
      · rw [hmain] at hserving
        exact nomatch hserving
      · exact Or.inr hfirst
  | createFirst hmain _ hfirst =>
      -- `main` returns only while `first_bind` is still set
      obtain ⟨_, _, hserving⟩ | hbound := h
      · rw [hmain] at hserving
        exact nomatch hserving
      · rw [hbound] at hfirst
        exact nomatch hfirst

theorem consistent_start (config : ProxyConfig) : (start config).Consistent where
  told _ h := nomatch h
  made _ _ h := nomatch h
  first _ h := nomatch h

/-- **The tasks go on agreeing.** -/
theorem Moves.consistent {s s' : Tasks} {e : TaskEvent} (hmoves : Moves path s e s')
    (h : s.Consistent) : s'.Consistent := by
  cases hmoves with
  | stay => exact h
  | sighup => exact ⟨h.told, h.made, h.first⟩
  | recv hreloader | loadOk hreloader | loadErr hreloader =>
      -- no notification is lost: the reloader was not between the swap and `notify_one`
      refine ⟨fun config hconfig => ?_, h.made, h.first⟩
      obtain hcurrent | hpermit | hswapped := h.told config hconfig
      · exact Or.inl hcurrent
      · exact Or.inr (Or.inl hpermit)
      · rw [hreloader] at hswapped
        exact nomatch hswapped
  | swap => exact ⟨fun _ _ => Or.inr (Or.inr rfl), h.made, h.first⟩
  | notify => exact ⟨fun _ _ => Or.inr (Or.inl rfl), h.made, h.first⟩
  | read =>
      refine ⟨fun config hconfig => ?_, fun _ _ hmain => (nomatch hmain), fun _ hmain =>
        (nomatch hmain)⟩
      exact Or.inl (Option.some.inj hconfig).symm
  | createOk hmain hcreate =>
      refine ⟨fun config hconfig => ?_, fun config listener hserving => ?_, fun _ hexit =>
        (nomatch hexit)⟩
      · rw [← Option.some.inj hconfig]
        exact h.told _ (by rw [hmain]; rfl)
      · injection hserving with hconfig hlistener
        rw [← hconfig, ← hlistener]
        exact ⟨_, hcreate⟩
  | createFirst _ _ hfirst =>
      exact ⟨fun _ hconfig => (nomatch hconfig), fun _ _ hmain => (nomatch hmain),
        fun _ _ => hfirst⟩
  | createErr | notified | wake =>
      exact ⟨fun _ hconfig => (nomatch hconfig), fun _ _ hmain => (nomatch hmain),
        fun _ hmain => (nomatch hmain)⟩

/-! ## §4. Reloads over whole runs. -/

/-- What the tasks can come to, from a start with any configuration. -/
def Reachable (path : String) (s : Tasks) : Prop :=
  ∃ config events, s = run (step path) (start config) events

theorem reachable_consistent {s : Tasks} (h : Reachable path s) : s.Consistent := by
  obtain ⟨config, events, rfl⟩ := h
  exact run_invariant (step path) (fun s e h => (step_moves path s e).consistent h) events _
    (consistent_start config)

theorem run_bound {s : Tasks} (h : s.Bound) (events : List TaskEvent) :
    (run (step path) s events).Bound :=
  run_invariant (step path) (fun s e h => (step_moves path s e).bound h) events s h

theorem Reachable.run {s : Tasks} (h : Reachable path s) (events : List TaskEvent) :
    Reachable path (run (step path) s events) := by
  obtain ⟨config, before, rfl⟩ := h
  exact ⟨config, before ++ events, (run_append _ _ _ _).symm⟩

/-- No reload that loaded is under way. -/
def Quiet (s : Tasks) : Prop :=
  s.permit = false ∧ (s.reloader = .waiting ∨ s.reloader = .loading)

/-- If the event loads the file, it fails. -/
def FailsToLoad (path : String) (e : TaskEvent) : Prop :=
  ∀ env, e = .load env → ∃ err, loadFromPath env path = .error err

/-- With nothing under way, an event whose load fails keeps the configuration, and the
listener in service. -/
theorem Moves.quiet {s s' : Tasks} {e : TaskEvent} (hmoves : Moves path s e s') (h : s.Quiet)
    (hfails : FailsToLoad path e) :
    s'.Quiet ∧ s'.current = s.current ∧
      ∀ config listener, s.main = .serving config listener → s'.main = s.main := by
  obtain ⟨hpermit, hreloader⟩ := h
  cases hmoves with
  | stay | sighup => exact ⟨⟨hpermit, hreloader⟩, rfl, fun _ _ _ => rfl⟩
  | recv => exact ⟨⟨hpermit, Or.inr rfl⟩, rfl, fun _ _ _ => rfl⟩
  | loadErr => exact ⟨⟨hpermit, Or.inl rfl⟩, rfl, fun _ _ _ => rfl⟩
  | loadOk _ hload =>
      obtain ⟨err, herr⟩ := hfails _ rfl
      rw [hload] at herr
      exact nomatch herr
  | swap hloaded | notify hloaded =>
      rw [hloaded] at hreloader
      exact absurd hreloader (by simp)
  | notified _ hset =>
      rw [hpermit] at hset
      exact nomatch hset
  | read hmain | createOk hmain | createFirst hmain | createErr hmain | wake hmain =>
      refine ⟨⟨hpermit, hreloader⟩, rfl, fun _ _ hserving => ?_⟩
      rw [hmain] at hserving
      exact nomatch hserving

/-- **A file that fails to load leaves the service intact**, however often it is
reloaded. -/
theorem failed_loads {s : Tasks} (h : s.Quiet) {events : List TaskEvent}
    (hfails : ∀ e ∈ events, FailsToLoad path e) :
    (run (step path) s events).current = s.current ∧
      ∀ config listener, s.main = .serving config listener →
        (run (step path) s events).main = .serving config listener := by
  have hkeeps := along_invariant (step path)
    (I := fun s' => s'.Quiet ∧ s'.current = s.current ∧
      ∀ config listener, s.main = .serving config listener →
        s'.main = .serving config listener)
    (P := fun _ e => FailsToLoad path e)
    (fun s' e ⟨hquiet, hcurrent, hmain⟩ hfails => by
      obtain ⟨hquiet, hsame, hkeep⟩ := (step_moves path s' e).quiet hquiet hfails
      refine ⟨hquiet, hsame.trans hcurrent, fun config listener hserving => ?_⟩
      have hserving := hmain config listener hserving
      exact (hkeep config listener hserving).trans hserving)
    events s ⟨h, rfl, fun _ _ hserving => hserving⟩ (along_of_forall _ _ _ hfails)
  exact hkeeps.2

/-- Where an attempt to listen leads after the first bind. -/
def attempted (env : ListenEnv) (config : ProxyConfig) : MainPhase :=
  match createListener env config with
  | .ok listener => .serving config listener
  | .error _ => .sleeping

/-- The next steps of `main` without a listener. -/
def attempt (env : ListenEnv) : List TaskEvent := [.wake, .read, .create env]

/-- **`main` tries again** with the configuration it has read, or else with the current
one, and changes nothing else. -/
theorem run_attempt {s : Tasks} (hconsistent : s.Consistent) (hbound : s.Bound)
    (hdown : ∀ config listener, s.main ≠ .serving config listener) (env : ListenEnv) :
    run (step path) s (attempt env) =
      { s with main := attempted env (s.main.config.getD s.current) } := by
  have hfirst : s.firstBind = false := by
    obtain ⟨config, listener, hserving⟩ | hfirst := hbound
    · exact absurd hserving (hdown config listener)
    · exact hfirst
  -- up to the attempt `main` only gets hold of a configuration
  have hread : run (step path) s [.wake, .read] =
      { s with main := .binding (s.main.config.getD s.current) } := by
    cases hmain : s.main with
    | top | sleeping => simp [step, hmain, MainPhase.config]
    | binding config =>
        have hsame : run (step path) s [.wake, .read] = s := by simp [step, hmain]
        rw [hsame]
        show s = { s with main := .binding config }
        rw [← hmain]
    | serving config listener => exact absurd hmain (hdown config listener)
    | exited e =>
        rw [hconsistent.first e hmain] at hfirst
        exact nomatch hfirst
  have hattempt : attempt env = [.wake, .read] ++ [.create env] := rfl
  rw [hattempt, run_append, hread]
  unfold attempted
  cases hcreate : createListener env (s.main.config.getD s.current) with
  | ok listener => simp only [run_cons, run_nil, step, hcreate]
  | error e => simp [step, hcreate, hfirst]

/-- What a reload comes to, in a state after the first bind. -/
structure ReloadOutcome (path : String) (s : Tasks) : Prop where
  /-- `main` does not return. -/
  bound : ∀ events, (run (step path) s events).Bound ∧
    ∀ e, (run (step path) s events).main ≠ .exited e
  /-- A file that fails to load is not seen by `main`. -/
  unseen : ∀ env err, loadFromPath env path = .error err →
    (step path s (.load env)).current = s.current ∧ (step path s (.load env)).main = s.main ∧
      (step path s (.load env)).permit = s.permit
  /-- Files that fail to load leave the configuration and the listener. -/
  intact : s.Quiet → ∀ events, (∀ e ∈ events, FailsToLoad path e) →
    (run (step path) s events).current = s.current ∧
      ∀ config listener, s.main = .serving config listener →
        (run (step path) s events).main = .serving config listener
  /-- A file that loads becomes current, and the old listener is dropped. -/
  swapped : ∀ env config old listener, s.reloader = .loading →
    loadFromPath env path = .ok config → s.main = .serving old listener →
    run (step path) s [.load env, .swap, .notify, .notified] =
      { s with current := config, permit := false, firstBind := false, main := .top,
               reloader := .waiting }
  /-- A listener was created from the current configuration, unless `main` is still to be
  told of it. -/
  listening : ∀ config listener, s.main = .serving config listener →
    (∃ env, createListener env config = .ok listener) ∧ (config = s.current ∨ s.OnItsWay)
  /-- Without a listener `main` tries again until one can be created. -/
  retried : (∀ config listener, s.main ≠ .serving config listener) → ∀ env,
    run (step path) s (attempt env) =
      { s with main := attempted env (s.main.config.getD s.current) }

/-- A load that fails does nothing that `main` sees. -/
theorem step_load_error {s : Tasks} {env : LoadEnv} {err : String}
    (hload : loadFromPath env path = .error err) :
    (step path s (.load env)).current = s.current ∧ (step path s (.load env)).main = s.main ∧
      (step path s (.load env)).permit = s.permit := by
  have hmoves := step_moves path s (.load env)
  generalize step path s (.load env) = s' at hmoves ⊢
  cases hmoves with
  | stay => exact ⟨rfl, rfl, rfl⟩
  | loadErr => exact ⟨rfl, rfl, rfl⟩
  | loadOk _ hok =>
      rw [hok] at hload
      exact nomatch hload

/-- **What reloads come to**, in every order of the tasks' steps. -/
theorem reload_outcome {s : Tasks} (h : Reachable path s) (hbound : s.Bound) :
    ReloadOutcome path s where
  bound events := by
    have hbound : (run (step path) s events).Bound := run_bound hbound events
    refine ⟨hbound, fun e hexit => ?_⟩
    have hfirst := (reachable_consistent (h.run events)).first e hexit
    obtain ⟨_, _, hserving⟩ | hnotfirst := hbound
    · rw [hexit] at hserving
      exact nomatch hserving
    · rw [hfirst] at hnotfirst
      exact nomatch hnotfirst
  unseen _ _ hload := step_load_error hload
  intact hquiet _ hfails := failed_loads hquiet hfails
  swapped env config old listener hloading hload hserving := by
    simp [step, hloading, hload, hserving]
  listening config listener hserving :=
    have hconsistent := reachable_consistent h
    ⟨hconsistent.made config listener hserving, hconsistent.told config (by rw [hserving]; rfl)⟩
  retried hdown env := run_attempt (reachable_consistent h) hbound hdown env

end

/-- A host that has the loopback address only. -/
def loopbackOnly : ListenEnv where
  var _ := none
  openFile path := .error ("No such file or directory: " ++ path)
  pemCerts _ := []
  pemPrivateKey _ := .ok none
  addRoot _ := .ok ()
  buildVerifier _ _ := .ok ()
  withSingleCert _ _ := .ok ()
  bind address :=
    if address = "127.0.0.1:2376" then .ok () else .error "Cannot assign requested address"

/-- `main` listens, with the configuration it was started with. -/
def listening : Tasks := run (step "config.yaml") (start {}) [.read, .create loopbackOnly]

theorem reload_outcome_listening : ReloadOutcome "config.yaml" listening :=
  reload_outcome ⟨{}, [.read, .create loopbackOnly], rfl⟩ (Or.inl ⟨_, _, rfl⟩)

/-- The configuration with another bind address. -/
def elsewhere : ProxyConfig := { global := some { bind := some "203.0.113.1" } }

/-- A file that binds elsewhere. -/
def elsewhereFile : LoadEnv where
  var _ := none
  pathExists _ := false
  readFile _ := .ok "global: \x7b bind: 203.0.113.1 \x7d"
  parse _ := .ok elsewhere
  isWordChar _ := false
  compileRegex pattern := .error pattern

/-- **A reload that loads and cannot listen** leaves the new configuration and no
listener. -/
theorem reload_loses_listener :
    listening.main = .serving {} ⟨"127.0.0.1:2376", none⟩ ∧
      loadFromPath elsewhereFile "config.yaml" = .ok elsewhere ∧
      createListener loopbackOnly elsewhere = .error "Cannot assign requested address" ∧
      run (step "config.yaml") listening [.sighup, .recv, .load elsewhereFile, .swap, .notify,
          .notified, .read, .create loopbackOnly] =
        { listening with current := elsewhere, firstBind := false, main := .sleeping } := by
  refine ⟨rfl, rfl, rfl, rfl⟩

end Tasks

end DockerProxy.Proxy
