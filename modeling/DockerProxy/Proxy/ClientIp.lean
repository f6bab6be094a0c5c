/-
  DockerProxy.Proxy.ClientIp — `parse_trusted_proxies` and `compute_client_ip`
  of `main.rs`.

  Only a trusted peer's headers are looked at: `X-Real-Ip`, then
  `X-Forwarded-For`, then `Forwarded`, each in its first line only.
-/
import DockerProxy.Proxy.Http

namespace DockerProxy.Proxy

open DockerProxy.Lib

variable (deps : Externals)

/-- `parse_trusted_proxies`. -/
def parseTrustedProxies (raw : List String) : List deps.Net := raw.filterMap deps.parseNet

/-- The address is in one of the trusted networks. -/
def isTrusted (trustedProxies : List deps.Net) (ip : deps.Ip) : Bool :=
  trustedProxies.any fun net => deps.netContains net ip

/-- The address that one parameter of a `Forwarded` element names. -/
def forwardedFor (param : String) : Option deps.Ip :=
  (stripPrefix (trim param) "for=").bind fun rest =>
    let raw := trimMatches rest (· == '"')
    let raw := ((stripPrefix raw "[").bind fun s => stripSuffix s "]").getD raw
    deps.parseIp raw

/-- `X-Real-Ip`. -/
def realIp (headers : HeaderMap) : Option deps.Ip :=
  (headers.getStr "x-real-ip").bind fun v => deps.parseIp (trim v)

/-- `X-Forwarded-For`: the rightmost entry that is an untrusted address. -/
def forwardedForIp (headers : HeaderMap) (trustedProxies : List deps.Net) : Option deps.Ip :=
  (headers.getStr "x-forwarded-for").bind fun v =>
    ((splitStr v ',').map trim).reverse.findSome? fun entry =>
      (deps.parseIp entry).filter fun ip => !isTrusted deps trustedProxies ip

/-- `Forwarded`: the first address of the rightmost element that names one. -/
def forwardedIp (headers : HeaderMap) : Option deps.Ip :=
  (headers.getStr "forwarded").bind fun v =>
    (splitStr v ',').reverse.findSome? fun segment =>
      (splitStr segment ';').findSome? (forwardedFor deps)

/-- `compute_client_ip`. -/
def computeClientIp (peer : deps.Ip) (headers : HeaderMap) (trustedProxies : List deps.Net) :
    deps.Ip :=
  if !isTrusted deps trustedProxies peer then peer
  else
    match realIp deps headers with
    | some ip => ip
    | none =>
        match forwardedForIp deps headers trustedProxies with
        | some ip => ip
        | none => (forwardedIp deps headers).getD peer

end DockerProxy.Proxy
