/-
  DockerProxy.Proxy.Http — requests, responses and headers, and the header rules
  of `main.rs` and `upgrade.rs`.

  A header map is its lines in iteration order, with lower-case names; a header
  value is its bytes and what `to_str` makes of them.  A body that is still to be
  read is the bytes that will arrive and how it ends.
-/
import DockerProxy.Externals

namespace DockerProxy.Proxy

open DockerProxy.Lib

/-! ## §1. Headers. -/

structure HeaderValue where
  bytes : List UInt8
  toStr : Option String
  deriving DecidableEq

/-- A header value made of text. -/
def HeaderValue.ofStr (s : String) : HeaderValue := ⟨asBytes s, some s⟩

abbrev HeaderMap := List (String × HeaderValue)

namespace HeaderMap

/-- `headers.get(name)`: the first value. -/
def get (headers : HeaderMap) (name : String) : Option HeaderValue := headers.lookup name

/-- `headers.get_all(name)`. -/
def getAll (headers : HeaderMap) (name : String) : List HeaderValue :=
  (headers.filter fun h => h.1 == name).map Prod.snd

/-- `headers.get(name).and_then(|v| v.to_str().ok())`. -/
def getStr (headers : HeaderMap) (name : String) : Option String :=
  (headers.get name).bind HeaderValue.toStr

end HeaderMap

/-- `HOP_BY_HOP_HEADERS`. -/
def hopByHopHeaders : List String :=
  ["connection", "keep-alive", "proxy-authenticate", "proxy-authorization", "te", "trailer",
    "transfer-encoding", "content-length"]

/-- `CLIENT_FORWARD_DROP_HEADERS`. -/
def clientForwardDropHeaders : List String :=
  ["authorization", "host", "x-forwarded-for", "x-forwarded-host", "x-forwarded-proto",
    "x-forwarded-port", "x-real-ip", "forwarded", "via"]

/-- `header_has_token`. -/
def headerHasToken (value : HeaderValue) (token : String) : Bool :=
  match value.toStr with
  | some s => ((splitStr s ',').map trim).any fun t => eqIgnoreAsciiCase t token
  | none => false

/-- `is_upgrade_request`. -/
def isUpgradeRequest (headers : HeaderMap) : Bool :=
  let connectionHasUpgrade :=
    (headers.getAll "connection").any fun v => headerHasToken v "upgrade"
  let hasUpgradeHeader := (headers.get "upgrade").isSome
  connectionHasUpgrade && hasUpgradeHeader

/-- The header map of the rule context: the first textual value of each name. -/
def ruleHeaders (headers : HeaderMap) : List (String × String) :=
  headers.foldl (fun map h =>
    match h.2.toStr with
    | some v => if map.any fun e => e.1 == h.1 then map else map ++ [(h.1, v)]
    | none => map) []

/-- The client's headers that are sent on to Docker. -/
def forwardHeaders (headers : HeaderMap) : HeaderMap :=
  headers.filter fun h =>
    !hopByHopHeaders.contains h.1 && !clientForwardDropHeaders.contains h.1 && h.1 != "upgrade"

/-- Docker's headers that are sent on to the client. -/
def responseHeaders (headers : HeaderMap) : HeaderMap :=
  headers.filter fun h => !hopByHopHeaders.contains h.1 && h.1 != "content-length"

/-- Docker's headers on a switch of protocols. -/
def upgradeResponseHeaders (headers : HeaderMap) : HeaderMap :=
  headers.filter fun h =>
    h.1 != "content-length" &&
      !(hopByHopHeaders.contains h.1 && h.1 != "connection" && h.1 != "upgrade")

/-! ## §2. Bodies. -/

/-- `MAX_REQ_BODY_BYTES`. -/
def maxReqBodyBytes : Nat := 10 * 1024 * 1024

/-- `MAX_RESP_BODY_BYTES`. -/
def maxRespBodyBytes : Nat := 64 * 1024 * 1024

inductive BodyEnding where
  /-- The body is complete. -/
  | complete
  /-- The transport fails. -/
  | failed
  /-- Nothing more arrives before the timeout. -/
  | stalled
  deriving DecidableEq

/-- A body that is still to be read. -/
structure BodyStream where
  bytes : List UInt8
  ending : BodyEnding
  deriving DecidableEq

/-- The outcome of reading a body through `Limited` and a timeout. -/
inductive BodyRead where
  | bytes (bs : List UInt8)
  | tooLarge
  | failed
  | timedOut
  deriving DecidableEq

/-- `timeout(.., Limited::new(body, limit).collect())`. -/
def BodyStream.read (body : BodyStream) (limit : Nat) : BodyRead :=
  if limit < body.bytes.length then .tooLarge
  else
    match body.ending with
    | .complete => .bytes body.bytes
    | .failed => .failed
    | .stalled => .timedOut

/-! ## §3. Requests and responses. -/

/-- A client's request. -/
structure Request where
  method : String
  path : String
  query : Option String
  headers : HeaderMap
  body : BodyStream
  deriving DecidableEq

/-- The request sent to Docker. -/
structure ProxiedRequest where
  method : String
  target : String
  headers : HeaderMap
  body : List UInt8
  deriving DecidableEq

/-- A response of Docker, its body still to be read. -/
structure UpstreamResponse where
  status : UInt16
  headers : HeaderMap
  body : BodyStream
  deriving DecidableEq

/-- The response a client gets. -/
structure Response where
  status : UInt16
  headers : HeaderMap
  body : List UInt8
  deriving DecidableEq

/-- `StatusCode::from_u16(status).unwrap_or(StatusCode::FORBIDDEN)`. -/
def statusCodeOr403 (status : UInt16) : UInt16 :=
  if 100 ≤ status ∧ status < 1000 then status else 403

/-- `make_response` and `make_response_string`. -/
def makeResponse (status : UInt16) (body : String) : Response where
  status := status
  headers := [("content-type", .ofStr "text/plain; charset=utf-8")]
  body := asBytes body

/-- `make_response_bytes`. -/
def makeResponseBytes (status : UInt16) (contentType : String) (body : List UInt8) : Response where
  status := status
  headers := [("content-type", .ofStr contentType)]
  body := body

/-! ## §4. Docker. -/

/-- The outcome of a step that can fail or time out. -/
inductive Attempt (α : Type) where
  | ok (a : α)
  | failed
  | timedOut
  deriving DecidableEq

/-- The Docker side of one request. -/
structure Docker where
  /-- Connecting to the socket. -/
  connect : Attempt Unit
  /-- The HTTP handshake on the connection. -/
  handshake : Bool
  /-- What comes back for a request. -/
  respond : ProxiedRequest → Attempt UpstreamResponse

end DockerProxy.Proxy
