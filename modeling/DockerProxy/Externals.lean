/-
  DockerProxy.Externals — the third-party functions the program calls.

  Everything the model uses of `ipnet`, of `serde_json`'s reader and printer, of
  `http`'s `Uri` and of the address types of the standard library, as one
  parameter.
-/
import DockerProxy.Json

namespace DockerProxy

/-- The functions that come from outside the repository. -/
structure Externals where
  /-- `IpAddr`. -/
  Ip : Type
  decEqIp : DecidableEq Ip
  /-- `s.parse::<IpAddr>()`. -/
  parseIp : String → Option Ip
  /-- `ip.to_string()`. -/
  ipToString : Ip → String
  /-- `IpNet`. -/
  Net : Type
  /-- `s.parse::<IpNet>()`. -/
  parseNet : String → Option Net
  /-- `net.contains(&ip)`. -/
  netContains : Net → Ip → Bool
  /-- `serde_json::from_slice`, with the text of its error. -/
  jsonFromSlice : List UInt8 → Except String JsonValue
  /-- `serde_json::to_vec`. -/
  jsonToVec : JsonValue → Option (List UInt8)
  /-- `value.to_string()`. -/
  jsonToString : JsonValue → String
  /-- The request line's target for a `Uri` made of this text, if it is one. -/
  uriTarget : String → Option String

instance (deps : Externals) : DecidableEq deps.Ip := deps.decEqIp

/-- Functions that accept nothing, for inputs on which none of them is called. -/
def Externals.uncalled : Externals where
  Ip := Empty
  decEqIp := inferInstance
  parseIp _ := none
  ipToString ip := ip.elim
  Net := Empty
  parseNet _ := none
  netContains net := net.elim
  jsonFromSlice _ := .error ""
  jsonToVec _ := none
  jsonToString _ := ""
  uriTarget _ := none

/-- The object with one text field, where neither needs an escape. -/
def oneField (key value : String) : String := "\x7b\"" ++ key ++ "\":\"" ++ value ++ "\"\x7d"

/-- Functions that know the loopback address and the object `Env` with the value
`hunter2`, and print objects of one field. -/
def Externals.sample : Externals where
  Ip := Unit
  decEqIp := inferInstance
  parseIp s := if s = "127.0.0.1" then some () else none
  ipToString _ := "127.0.0.1"
  Net := Empty
  parseNet _ := none
  netContains net := net.elim
  jsonFromSlice body :=
    if body = Lib.asBytes (oneField "Env" "hunter2") then .ok (.object [("Env", .string "hunter2")])
    else .error "expected value at line 1 column 1"
  jsonToVec
    | .object [(key, .string value)] => some (Lib.asBytes (oneField key value))
    | _ => none
  jsonToString
    | .object [(key, .string value)] => oneField key value
    | _ => "null"
  uriTarget := some

end DockerProxy
