/-
  DockerProxy.Json — JSON documents and the dotted-path walkers of `rules.rs`.

  An object is its entries in key order, as `serde_json`'s map keeps them.  A
  `&mut` into a document is what it points at together with the document that
  results from writing through it.
-/
import DockerProxy.Config
import DockerProxy.Lib.Text

namespace DockerProxy

open DockerProxy.Lib

/-! ## §1. Documents. -/

/-- A `serde_json::Value`. -/
inductive JsonValue where
  | null
  | bool (b : Bool)
  | number (n : Number)
  | string (s : String)
  | array (items : List JsonValue)
  | object (entries : List (String × JsonValue))

namespace JsonValue

/-- `as_str`. -/
def asStr : JsonValue → Option String
  | .string s => some s
  | _ => none

/-- `as_bool`. -/
def asBool : JsonValue → Option Bool
  | .bool b => some b
  | _ => none

/-- `as_i64`. -/
def asI64 : JsonValue → Option Int
  | .number n => n.asI64
  | _ => none

/-- `as_u64`. -/
def asU64 : JsonValue → Option Nat
  | .number n => n.asU64
  | _ => none

/-- `as_f64`. -/
def asF64 : JsonValue → Option ℚ
  | .number n => n.asF64
  | _ => none

end JsonValue

/-- `map.get(key)`. -/
def objectGet (entries : List (String × JsonValue)) (key : String) : Option JsonValue :=
  entries.lookup key

/-- The entries after writing `v` under a key that is there. -/
def objectSet (entries : List (String × JsonValue)) (key : String) (v : JsonValue) :
    List (String × JsonValue) :=
  entries.map fun e => if e.1 = key then (e.1, v) else e

/-- The entries after `map.remove(key)`. -/
def objectRemove (entries : List (String × JsonValue)) (key : String) :
    List (String × JsonValue) :=
  entries.filter fun e => e.1 ≠ key

/-! ## §2. Walking a path. -/

/-- One segment of `json_get`. -/
def jsonChild (current : JsonValue) (segment : String) : Option JsonValue :=
  if segment.isEmpty then none
  else
    match current with
    | .object map => objectGet map segment
    | .array arr => (parseUsize segment).bind fun idx => arr[idx]?
    | _ => none

/-- `json_get`. -/
def jsonGet (root : JsonValue) (path : String) : Option JsonValue :=
  (splitStr path '.').foldlM jsonChild root

/-- A mutable reference into a document: the value, and the document after a
write. -/
abbrev JsonRef := JsonValue × (JsonValue → JsonValue)

/-- One segment of `json_get_mut`. -/
def jsonChildMut (current : JsonValue) (segment : String) : Option JsonRef :=
  if segment.isEmpty then none
  else
    match current with
    | .object map =>
        (objectGet map segment).map fun v => (v, fun w => .object (objectSet map segment w))
    | .array arr =>
        (parseUsize segment).bind fun idx =>
          (arr[idx]?).map fun v => (v, fun w => .array (arr.set idx w))
    | _ => none

/-- The loop of `json_get_mut` over the segments that are left. -/
def jsonWalkMut (current : JsonValue) : List String → Option JsonRef
  | [] => none
  | [segment] => jsonChildMut current segment
  | segment :: rest =>
      (jsonChildMut current segment).bind fun (child, put) =>
        (jsonWalkMut child rest).map fun (target, put') => (target, fun w => put (put' w))

/-- `json_get_mut`. -/
def jsonGetMut (root : JsonValue) (path : String) : Option JsonRef :=
  jsonWalkMut root (splitStr path '.')

/-- `json_remove`: was a key removed, and the document afterwards. -/
def jsonRemove (root : JsonValue) (path : String) : Bool × JsonValue :=
  let segments := splitStr path '.'
  if segments.length < 2 then (false, root)
  else
    let parentPath := joinStr segments.dropLast "."
    let key := segments.getLastD ""
    match jsonGetMut root parentPath with
    | some (.object map, put) =>
        ((objectGet map key).isSome, put (.object (objectRemove map key)))
    | _ => (false, root)

end DockerProxy
