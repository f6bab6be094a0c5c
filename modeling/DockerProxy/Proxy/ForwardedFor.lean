/-
  DockerProxy.Proxy.ForwardedFor — whether a client can choose its own address.

  Every proxy on the way appends the address it was called from, to the last
  `X-Forwarded-For` line or as a line of its own.  So over all lines in order the
  rightmost untrusted address is one that a trusted proxy has seen, and what a
  client sends stands to its left.  `compute_client_ip` reads the first line only,
  and not even that when it is not text.  It returns the rightmost untrusted
  address of all lines exactly if that first line is text and decides, or if
  `Forwarded` happens to name the same address (`computeClientIp_forwardedFor_iff`).
-/
import DockerProxy.Proxy.ClientIp

namespace DockerProxy.Proxy

open DockerProxy.Lib

/-! ## §1. The entries of all lines. -/

/-- A visible ASCII byte, a space or a tab, as `to_str` accepts them. -/
def isTextByte (b : UInt8) : Bool := (32 ≤ b && b < 127) || b == 9

/-- The entries of one line: those of its text, or the entries that are text. -/
def lineEntries (line : HeaderValue) : List String :=
  match line.toStr with
  | some s => (splitStr s ',').map trim
  | none => (line.bytes.splitOn 44).filterMap fun piece =>
      if piece.all isTextByte then (fromUtf8 piece).map trim else none

/-- **The list `L`**: the entries of all `X-Forwarded-For` lines, in order. -/
def forwardedForEntries (headers : HeaderMap) : List String :=
  (headers.getAll "x-forwarded-for").flatMap lineEntries

variable (deps : Externals)

/-- **The rightmost untrusted address** of a list of entries. -/
def rightmostUntrusted (trustedProxies : List deps.Net) (entries : List String) : Option deps.Ip :=
  entries.reverse.findSome? fun entry =>
    (deps.parseIp entry).filter fun ip => !isTrusted deps trustedProxies ip

/-- **What stands to the left does not count**, as soon as there is an untrusted
address to the right. -/
theorem rightmostUntrusted_append (trustedProxies : List deps.Net) (xs ys : List String) :
    rightmostUntrusted deps trustedProxies (xs ++ ys) =
      (rightmostUntrusted deps trustedProxies ys).or
        (rightmostUntrusted deps trustedProxies xs) := by
  unfold rightmostUntrusted
  rw [List.reverse_append, List.findSome?_append]

/-- The address is untrusted. -/
theorem not_isTrusted_of_rightmostUntrusted {trustedProxies : List deps.Net}
    {entries : List String} {ip : deps.Ip}
    (h : rightmostUntrusted deps trustedProxies entries = some ip) :
    isTrusted deps trustedProxies ip = false := by
  obtain ⟨entry, -, hentry⟩ := List.exists_of_findSome?_eq_some h
  obtain ⟨-, huntrusted⟩ := Option.filter_eq_some_iff.mp hentry
  simpa using huntrusted

/-! ## §2. The line that is read. -/

/-- `get` is the first of `get_all`. -/
theorem HeaderMap.get_eq_head? (headers : HeaderMap) (name : String) :
    headers.get name = (headers.getAll name).head? := by
  unfold HeaderMap.get HeaderMap.getAll
  induction headers with
  | nil => rfl
  | cons h headers ih =>
      obtain ⟨key, value⟩ := h
      rw [List.lookup_cons, List.filter_cons, Bool.beq_comm (a := name)]
      cases hname : key == name with
      | true => rfl
      | false => simpa using ih

/-- What `X-Forwarded-For` yields: the rightmost untrusted address of the first line,
if that line is text. -/
theorem forwardedForIp_eq {headers : HeaderMap} {first : HeaderValue} {rest : List HeaderValue}
    (hlines : headers.getAll "x-forwarded-for" = first :: rest) (trustedProxies : List deps.Net) :
    forwardedForIp deps headers trustedProxies =
      if first.toStr.isSome then rightmostUntrusted deps trustedProxies (lineEntries first)
      else none := by
  unfold forwardedForIp HeaderMap.getStr
  rw [HeaderMap.get_eq_head?, hlines, List.head?_cons, Option.bind_some]
  unfold lineEntries
  cases first.toStr with
  | none => rfl
  | some s => rfl

theorem forwardedForEntries_cons {headers : HeaderMap} {first : HeaderValue}
    {rest : List HeaderValue} (hlines : headers.getAll "x-forwarded-for" = first :: rest) :
    forwardedForEntries headers = lineEntries first ++ rest.flatMap lineEntries := by
  unfold forwardedForEntries
  rw [hlines, List.flatMap_cons]

/-- **The first line decides**: it is text, and the lines after it hold no untrusted
address, or the one that is the first line's rightmost; or it yields nothing, and
`Forwarded` names the address. -/
def FirstLineDecides (headers : HeaderMap) (trustedProxies : List deps.Net) (ip : deps.Ip) : Prop :=
  match headers.getAll "x-forwarded-for" with
  | [] => False
  | first :: rest =>
      let own := rightmostUntrusted deps trustedProxies (lineEntries first)
      let later := rightmostUntrusted deps trustedProxies (rest.flatMap lineEntries)
      (first.toStr.isSome = true ∧ (later = none ∨ own = later)) ∨
        ((first.toStr.isSome = false ∨ own = none) ∧ forwardedIp deps headers = some ip)

/-- From a trusted peer without `X-Real-Ip`: the two other headers in order, and the
peer as a fallback. -/
theorem computeClientIp_of_trusted {peer : deps.Ip} {headers : HeaderMap}
    {trustedProxies : List deps.Net} (hpeer : isTrusted deps trustedProxies peer = true)
    (hreal : realIp deps headers = none) :
    computeClientIp deps peer headers trustedProxies =
      ((forwardedForIp deps headers trustedProxies).or (forwardedIp deps headers)).getD peer := by
  unfold computeClientIp
  rw [hpeer, hreal]
  cases forwardedForIp deps headers trustedProxies with
  | none => rfl
  | some ip => rfl

/-! ## §3. When the address cannot be chosen. -/

/-- **The address of a forwarded request, exactly**: it is the rightmost untrusted
address of all lines if and only if the first line decides. -/
theorem computeClientIp_forwardedFor_iff {peer : deps.Ip} {headers : HeaderMap}
    {trustedProxies : List deps.Net} (hpeer : isTrusted deps trustedProxies peer = true)
    (hreal : realIp deps headers = none) {ip : deps.Ip}
    (hlist : rightmostUntrusted deps trustedProxies (forwardedForEntries headers) = some ip) :
    computeClientIp deps peer headers trustedProxies = ip ↔
      FirstLineDecides deps headers trustedProxies ip := by
  -- the peer is trusted and the address is not, so the fallback is never the address
  have hne : peer ≠ ip := by
    intro heq
    rw [heq, not_isTrusted_of_rightmostUntrusted deps hlist] at hpeer
    exact absurd hpeer (by simp)
  have hgetD : ∀ o : Option deps.Ip, o.getD peer = ip ↔ o = some ip := by
    intro o
    cases o with
    | none => simp [hne]
    | some a => simp
  rw [computeClientIp_of_trusted deps hpeer hreal, hgetD]
  unfold FirstLineDecides
  cases hlines : headers.getAll "x-forwarded-for" with
  | nil =>
      unfold forwardedForEntries at hlist
      rw [hlines] at hlist
      exact absurd hlist (by simp [rightmostUntrusted])
  | cons first rest =>
      rw [forwardedForEntries_cons hlines, rightmostUntrusted_append] at hlist
      rw [forwardedForIp_eq deps hlines]
      -- by what the first line yields, and then by what the others hold
      show _ ↔ (first.toStr.isSome = true ∧ _) ∨ _
      cases htext : first.toStr.isSome with
      | false => simp
      | true =>
          cases hown : rightmostUntrusted deps trustedProxies (lineEntries first) with
          | none =>
              -- then the address is from a later line, and only `Forwarded` can name it
              rw [hown, Option.or_none] at hlist
              rw [hlist]
              simp
          | some own =>
              rw [hown] at hlist
              cases hlater : rightmostUntrusted deps trustedProxies (rest.flatMap lineEntries) with
              | none =>
                  rw [hlater, Option.none_or] at hlist
                  simpa using Option.some.inj hlist
              | some later =>
                  rw [hlater, Option.some_or] at hlist
                  simp [Option.some.inj hlist]

/-! ## §4. A line in front. -/

/-- Three addresses: a trusted proxy, a client, and one that the client makes up. -/
inductive EdgeIp where
  | proxy
  | client
  | madeUp
  deriving DecidableEq

/-- Functions that know three addresses and the network of the proxies. -/
abbrev edge : Externals where
  Ip := EdgeIp
  decEqIp := inferInstance
  parseIp s :=
    if s = "10.0.0.1" then some .proxy
    else if s = "203.0.113.9" then some .client
    else if s = "198.51.100.1" then some .madeUp
    else none
  ipToString
    | .proxy => "10.0.0.1"
    | .client => "203.0.113.9"
    | .madeUp => "198.51.100.1"
  Net := Unit
  parseNet s := if s = "10.0.0.0/8" then some () else none
  netContains _ ip := ip = .proxy
  jsonFromSlice _ := .error ""
  jsonToVec _ := none
  jsonToString _ := ""
  uriTarget _ := none

/-- The lines of a request from the proxy. -/
def forwardedLines (lines : List HeaderValue) : HeaderMap :=
  lines.map fun line => ("x-forwarded-for", line)

/-- One line: what the client sent, and the client's address after it. -/
theorem computeClientIp_forwardedFor_appended :
    computeClientIp edge EdgeIp.proxy
      (forwardedLines [.ofStr "198.51.100.1, 203.0.113.9, 10.0.0.1"]) [()] = EdgeIp.client := by
  refine (@computeClientIp_forwardedFor_iff edge EdgeIp.proxy
    (forwardedLines [.ofStr "198.51.100.1, 203.0.113.9, 10.0.0.1"]) [()] (by decide +kernel)
    (by decide +kernel) EdgeIp.client (by decide +kernel)).mpr (Or.inl ?_)
  exact ⟨rfl, Or.inl (by decide +kernel)⟩

/-- **A client that chooses its address**: the proxy appends a line of its own, and the
client's line in front of it is read; or the client puts a byte that is not text into
the line, and the address of the proxy is taken. -/
theorem computeClientIp_forwardedFor_spoofed :
    isTrusted edge [()] EdgeIp.proxy = true ∧
    (∀ lines ∈ [[HeaderValue.ofStr "198.51.100.1", .ofStr "203.0.113.9"],
        [⟨0xff :: asBytes ", 203.0.113.9", none⟩]],
      realIp edge (forwardedLines lines) = none ∧
      rightmostUntrusted edge [()] (forwardedForEntries (forwardedLines lines))
        = some EdgeIp.client ∧
      computeClientIp edge EdgeIp.proxy (forwardedLines lines) [()] ≠ EdgeIp.client) ∧
    computeClientIp edge EdgeIp.proxy
      (forwardedLines [.ofStr "198.51.100.1", .ofStr "203.0.113.9"]) [()] = EdgeIp.madeUp := by
  refine ⟨by decide +kernel, fun lines hlines => ?_, by decide +kernel⟩
  simp only [List.mem_cons, List.not_mem_nil, or_false] at hlines
  obtain rfl | rfl := hlines
  · exact ⟨by decide +kernel, by decide +kernel, by decide +kernel⟩
  · exact ⟨by decide +kernel, by decide +kernel, by decide +kernel⟩

end DockerProxy.Proxy
