/-
  DockerProxy.Config — the configuration as `config.rs` declares it.

  Field by field the structs that serde fills from the YAML file.  `None` of an
  optional field is `none`; the defaults the program puts in its place stand
  where it puts them.
-/
import Mathlib.Data.Rat.Defs

namespace DockerProxy

/-! ## §1. Values of the third-party crates. -/

/-- A compiled `Regex`: its pattern and what it matches. -/
structure Regex where
  pattern : String
  isMatch : String → Bool

/-- A `serde_json::Number` or a `serde_yaml::Number`, as its accessors show it:
an integer in the range of `i64` or `u64`, or a finite float; a YAML `.nan` or
`.inf`, which equals no JSON number, has no `asF64`. -/
structure Number where
  asI64 : Option Int
  asU64 : Option Nat
  asF64 : Option ℚ
  text : String
  deriving DecidableEq

/-- A `serde_yaml::Value`. -/
inductive YamlValue where
  | null
  | bool (b : Bool)
  | number (n : Number)
  | string (s : String)
  | sequence (seq : List YamlValue)
  | mapping (entries : List (YamlValue × YamlValue))
  | tagged (tag : String) (value : YamlValue)

/-- `yaml_value_to_string`. -/
def yamlValueToString : YamlValue → Option String
  | .string s => some s
  | .bool b => some (if b then "true" else "false")
  | .number n => some n.text
  | _ => none

/-! ## §2. The structs. -/

structure TlsConfig where
  cert : String
  key : String
  clientCa : Option String := none
  requireClientCert : Option Bool := none
  deriving DecidableEq

structure MetricsConfig where
  enabled : Option Bool := none
  path : Option String := none
  deriving DecidableEq

structure GlobalConfig where
  port : Option UInt16 := none
  socket : Option String := none
  logLevel : Option String := none
  logFormat : Option String := none
  auditLog : Option String := none
  bind : Option String := none
  tls : Option TlsConfig := none
  metrics : Option MetricsConfig := none
  trustedProxies : Option (List String) := none
  deriving DecidableEq

structure CertRoleMapping where
  cn : String
  role : String
  deriving DecidableEq

structure MtlsConfig where
  certRoleMap : Option (List CertRoleMapping) := none
  defaultRole : Option String := none
  deriving DecidableEq

structure TokenEntry where
  token : String
  role : Option String := none
  deriving DecidableEq

structure AuthConfig where
  authType : Option String := none
  secret : Option String := none
  tokens : Option (List TokenEntry) := none
  mtls : Option MtlsConfig := none
  deriving DecidableEq

/-- A condition leaf; `compiledRegex` is filled after loading. -/
structure Condition where
  field : String
  operator : String := ""
  value : Option YamlValue := none
  compiledRegex : Option Regex := none

inductive ConditionNode where
  | leaf (condition : Condition)
  | and (nodes : List ConditionNode)
  | or (nodes : List ConditionNode)

structure ResponseFilterEntry where
  field : String
  action : String
  replacement : Option String := none
  deriving DecidableEq

structure RateLimitConfig where
  requests : UInt64 := 50
  period : UInt64 := 30
  penalty : UInt64 := 30
  deriving DecidableEq

structure Rule where
  name : String
  description : Option String := none
  action : String := ""
  priority : Option UInt32 := none
  conditions : List ConditionNode := []
  message : Option String := none
  role : Option String := none
  responseFilter : Option (List ResponseFilterEntry) := none
  status : Option UInt16 := none
  methods : Option (List String) := none
  rateLimit : Option RateLimitConfig := none
  dryRun : Option Bool := none

structure ProxyConfig where
  global : Option GlobalConfig := none
  auth : Option AuthConfig := none
  rules : Option (List Rule) := none

end DockerProxy
