/-
  DockerProxy.Proxy.Authenticate — `authenticate` of `main.rs`, and the functions
  it calls.

  Whom bearer authentication admits is said once, without reference to how the
  token is compared or scanned for (`Admits`), and `authenticate_allowed_iff`
  shows that the code admits exactly those, with that role.
-/
import DockerProxy.Proxy.State
import Mathlib.Data.List.GetD

namespace DockerProxy.Proxy

open DockerProxy.Lib DockerProxy.Limiter

/-! ## §1. Comparing bytes. -/

/-- `constant_time_eq`: the lengths' difference and every byte's difference, with
zeros past the end, or-ed together. -/
def constantTimeEq (a b : List UInt8) : Bool :=
  let maxLen := max a.length b.length
  let diff := UInt32.ofNat (a.length ^^^ b.length)
  (List.range maxLen).foldl
    (fun diff i => diff ||| UInt32.ofNat (a.getD i 0 ^^^ b.getD i 0).toNat) diff == 0

/-- Or-ing together gives zero exactly when everything is zero. -/
theorem foldl_or_eq_zero {α : Type*} (f : α → UInt32) (xs : List α) :
    ∀ diff, xs.foldl (fun diff x => diff ||| f x) diff = 0 ↔ diff = 0 ∧ ∀ x ∈ xs, f x = 0 := by
  induction xs with
  | nil => intro diff; simp
  | cons x xs ih =>
      intro diff
      rw [List.foldl_cons, ih, UInt32.or_eq_zero_iff]
      simp only [List.mem_cons, forall_eq_or_imp, and_assoc]

theorem ofNat_xor_eq_zero {m n : Nat} (hm : m < 2 ^ 32) (hn : n < 2 ^ 32) :
    UInt32.ofNat (m ^^^ n) = 0 ↔ m = n := by
  rw [UInt32.ofNat_xor, UInt32.xor_eq_zero_iff, ← UInt32.toNat_inj, UInt32.toNat_ofNat',
    UInt32.toNat_ofNat', Nat.mod_eq_of_lt hm, Nat.mod_eq_of_lt hn]

/-- **Below `2^32` bytes the comparison is equality.** -/
theorem constantTimeEq_iff {a b : List UInt8} (ha : a.length < 2 ^ 32) (hb : b.length < 2 ^ 32) :
    constantTimeEq a b = true ↔ a = b := by
  unfold constantTimeEq
  rw [beq_iff_eq, foldl_or_eq_zero, ofNat_xor_eq_zero ha hb]
  constructor
  · intro ⟨hlen, hbytes⟩
    -- with equal lengths no byte is compared with the padding
    refine List.ext_getElem hlen (fun i hi hi' => ?_)
    have hzero := hbytes i (List.mem_range.mpr (by omega))
    rw [List.getD_eq_getElem _ _ hi, List.getD_eq_getElem _ _ hi'] at hzero
    have hlt := (a[i] ^^^ b[i]).toNat_lt
    rw [← UInt32.toNat_inj, UInt32.toNat_ofNat', Nat.mod_eq_of_lt (by omega)] at hzero
    have hxor : a[i] ^^^ b[i] = 0 := UInt8.toNat_inj.mp hzero
    exact UInt8.xor_eq_zero_iff.mp hxor
  · intro hab
    rw [hab]
    refine ⟨rfl, fun i _ => ?_⟩
    simp

/-! ## §2. Client certificates. -/

/-- What a client certificate says of its holder. -/
structure CertIdentity where
  commonName : Option String
  sans : List String
  deriving DecidableEq

/-- `cn_match`: equal, or the pattern is `*.` and what follows the value's first
dot. -/
def cnMatch (pattern value : String) : Bool :=
  if pattern == value then true
  else
    match stripPrefix pattern "*." with
    | some rest =>
        match value.toList.findIdx? (· == '.') with
        | some dot => value.toList.drop (dot + 1) == rest.toList
        | none => false
    | none => false

/-- `resolve_mtls_role`: the first name of the certificate that an entry of the
map matches, else the default role. -/
def resolveMtlsRole (identity : CertIdentity) (mtls : Option MtlsConfig) : Option String :=
  let candidates := identity.commonName.toList ++ identity.sans
  let mapped := (mtls.bind fun cfg => cfg.certRoleMap).bind fun map =>
    candidates.findSome? fun cand =>
      (map.find? fun entry => cnMatch entry.cn cand).map fun entry => entry.role
  mapped.or (mtls.bind fun m => m.defaultRole)

/-! ## §3. Bearer tokens. -/

/-- `MAX_TOKEN_LEN`, in bytes. -/
def maxTokenLen : Nat := 4096

/-- `extract_bearer_token`: no `Authorization` header, the token of the only one,
or an error. -/
def extractBearerToken (headers : HeaderMap) : Except Unit (Option String) :=
  match headers.getAll "authorization" with
  | [] => .ok none
  | [first] =>
      match first.toStr with
      | none => .error ()
      | some v =>
          match stripPrefix v "Bearer " with
          | some t => if !t.isEmpty && t.utf8ByteSize ≤ maxTokenLen then .ok (some t) else .error ()
          | none => .error ()
  | _ => .error ()

/-- `resolve_token_role`. -/
def resolveTokenRole (config : ProxyConfig) (envSecret token : String) : Option String :=
  let tokenBytes := asBytes token
  match config.auth with
  | some authConfig =>
      -- the scan goes on behind a match, and the first match stays
      let matched := (authConfig.tokens.getD []).foldl (fun matched t =>
        let eq := constantTimeEq (asBytes t.token) tokenBytes
        if eq && matched.isNone then some (t.role.getD "user") else matched) none
      match matched with
      | some role => some role
      | none =>
          match authConfig.secret with
          | some secret =>
              if !secret.isEmpty && constantTimeEq (asBytes secret) tokenBytes then some "admin"
              else none
          | none => none
  | none =>
      if !envSecret.isEmpty && constantTimeEq (asBytes envSecret) tokenBytes then some "admin"
      else none

/-- `auth.type`. -/
def authType (config : ProxyConfig) : Option String := config.auth.bind fun a => a.authType

/-- `is_auth_strictly_configured`. -/
def isAuthStrictlyConfigured (config : ProxyConfig) (envSecret : String) : Bool :=
  match config.auth with
  | some auth =>
      if auth.authType == some "none" then true
      else if auth.authType == some "mtls" then true
      else
        let hasTokens := (auth.tokens.map fun tk => tk.any fun x => !x.token.isEmpty).getD false
        let hasSecret := (auth.secret.map fun s => !s.isEmpty).getD false
        hasTokens || hasSecret
  | none => !envSecret.isEmpty

/-! ## §4. The outcome of a request's authentication. -/

inductive AuthOutcome where
  | allowed (role identity : Option String)
  | denied (status : UInt16) (message : String)
  deriving DecidableEq

/-- A failed authentication is counted and recorded, and so is a lockout that it
starts. -/
def recordAuthFailure (st : ProxyState) (authKey : String) (m : Moment) : ProxyState :=
  let st := st.count fun c => { c with authFailuresTotal := c.authFailuresTotal + 1 }
  let (started, al) :=
    st.authLimiter.recordFailure m.recordedAt authKey authFailMax authFailWindow authFailLockout
  let st := { st with authLimiter := al }
  if started then st.count fun c => { c with authLockoutsTotal := c.authLockoutsTotal + 1 } else st

/-- A successful authentication clears the address. -/
def recordAuthSuccess (st : ProxyState) (authKey : String) : ProxyState :=
  { st with authLimiter := st.authLimiter.recordSuccess authKey }

variable (deps : Externals)

/-- `authenticate`. -/
def authenticate (st : ProxyState) (config : ProxyConfig) (headers : HeaderMap) (peer : deps.Ip)
    (cert : Option CertIdentity) (m : Moment) : AuthOutcome × ProxyState :=
  let authKey := deps.ipToString peer
  -- the lock is taken once for this check and once more for what is recorded
  if st.authLimiter.isBlocked m.checkedAt authKey then
    (.denied 429 "Too many authentication failures", st)
  else if authType config == some "none" then (.allowed none none, st)
  else if authType config == some "mtls" then
    match cert with
    | none => (.denied 401 "mTLS required but no client certificate presented", st)
    | some id =>
        match resolveMtlsRole id (config.auth.bind fun a => a.mtls) with
        | some role =>
            (.allowed (some role) (id.commonName.or id.sans.head?), recordAuthSuccess st authKey)
        | none =>
            (.denied 401 "Client certificate not authorized", recordAuthFailure st authKey m)
  else if !isAuthStrictlyConfigured config st.envSecret then
    (.denied 401 "Authentication is not configured", st)
  else
    match extractBearerToken headers with
    | .ok (some token) =>
        match resolveTokenRole config st.envSecret token with
        | some role => (.allowed (some role) none, recordAuthSuccess st authKey)
        | none => (.denied 401 "Invalid token", recordAuthFailure st authKey m)
    | .ok none => (.denied 401 "Missing authorization", recordAuthFailure st authKey m)
    | .error () => (.denied 401 "Malformed authorization", recordAuthFailure st authKey m)

/-! ## §5. Whom bearer authentication admits. -/

/-- **The request presents the token `t`**: its only `Authorization` header is
text and reads `Bearer t`, for a token of 1 to 4096 bytes. -/
def PresentsToken (headers : HeaderMap) (t : String) : Prop :=
  ∃ v, headers.getAll "authorization" = [v] ∧ v.toStr = some ("Bearer " ++ t) ∧
    1 ≤ t.utf8ByteSize ∧ t.utf8ByteSize ≤ maxTokenLen

/-- **The role that the token `t` has**: that of the first entry with this token;
admin, if no entry has it and it is the configured secret; admin, if there is no
`auth` section and it is the secret of the environment. -/
def Admits (config : ProxyConfig) (envSecret t r : String) : Prop :=
  match config.auth with
  | some auth =>
      (∃ e, (auth.tokens.getD []).find? (fun e => e.token == t) = some e ∧ r = e.role.getD "user") ∨
      ((∀ e ∈ auth.tokens.getD [], e.token ≠ t) ∧ auth.secret = some t ∧ t ≠ "" ∧ r = "admin")
  | none => envSecret = t ∧ t ≠ "" ∧ r = "admin"

/-- Every configured credential is shorter than `2^32` bytes. -/
def ShortCredentials (config : ProxyConfig) (envSecret : String) : Prop :=
  envSecret.utf8ByteSize < 2 ^ 32 ∧ ∀ auth, config.auth = some auth →
    (∀ e ∈ auth.tokens.getD [], e.token.utf8ByteSize < 2 ^ 32) ∧
    ∀ s, auth.secret = some s → s.utf8ByteSize < 2 ^ 32

/-- No credential is configured, or only empty ones. -/
def NoCredential (config : ProxyConfig) (envSecret : String) : Prop :=
  match config.auth with
  | some auth =>
      (∀ e ∈ auth.tokens.getD [], e.token = "") ∧ ∀ s, auth.secret = some s → s = ""
  | none => envSecret = ""

theorem extractBearerToken_iff (headers : HeaderMap) (t : String) :
    extractBearerToken headers = .ok (some t) ↔ PresentsToken headers t := by
  have hlen : (!t.isEmpty && decide (t.utf8ByteSize ≤ maxTokenLen)) = true ↔
      1 ≤ t.utf8ByteSize ∧ t.utf8ByteSize ≤ maxTokenLen := by
    rw [Bool.and_eq_true, decide_eq_true_iff, Bool.not_eq_true', String.isEmpty,
      beq_eq_false_iff_ne]
    omega
  unfold extractBearerToken PresentsToken
  constructor
  · intro h
    split at h
    · exact absurd h (by simp)
    next first hone =>
      split at h
      · exact absurd h (by simp)
      next v hv =>
        split at h
        next t' ht' =>
          split at h
          next hok =>
            injection h with h
            injection h with h
            rw [h] at ht' hok
            rw [stripPrefix_eq_some.mp ht'] at hv
            exact ⟨first, hone, hv, hlen.mp hok⟩
          next => exact absurd h (by simp)
        next => exact absurd h (by simp)
    next => exact absurd h (by simp)
  · intro ⟨v, hone, hv, hsize⟩
    rw [hone]
    simp only [hv, stripPrefix_eq_some.mpr rfl, hlen.mpr hsize, if_true]

/-- A token is found in the entries by a scan that keeps the first match. -/
theorem foldl_first_match {α β : Type*} {p q : α → Bool} (f : α → β) (xs : List α)
    (hpq : ∀ x ∈ xs, p x = q x) :
    xs.foldl (fun matched x => if p x && matched.isNone then some (f x) else matched) none =
      (xs.find? q).map f := by
  have hsome : ∀ (xs : List α) (b : β),
      xs.foldl (fun matched x => if p x && matched.isNone then some (f x) else matched) (some b) =
        some b := by
    intro xs b
    induction xs with
    | nil => rfl
    | cons x xs ih =>
        rw [List.foldl_cons, Option.isNone_some, Bool.and_false, if_neg (by simp), ih]
  induction xs with
  | nil => rfl
  | cons x xs ih =>
      rw [List.foldl_cons, Option.isNone_none, Bool.and_true, List.find?_cons,
        hpq x List.mem_cons_self]
      cases q x with
      | true => exact hsome xs (f x)
      | false => exact ih (fun y hy => hpq y (List.mem_cons_of_mem x hy))

/-- Comparing credentials is comparing strings. -/
theorem constantTimeEq_asBytes {s t : String} (hs : s.utf8ByteSize < 2 ^ 32)
    (ht : t.utf8ByteSize < 2 ^ 32) : constantTimeEq (asBytes s) (asBytes t) = (s == t) := by
  rw [Bool.eq_iff_iff, constantTimeEq_iff (by rwa [length_asBytes]) (by rwa [length_asBytes]),
    asBytes_inj, beq_iff_eq]

/-- A secret that is set is compared with the token. -/
theorem secret_matches_iff {s t : String} (hs : s.utf8ByteSize < 2 ^ 32)
    (ht : t.utf8ByteSize < 2 ^ 32) (hne : t ≠ "") :
    (!s.isEmpty && constantTimeEq (asBytes s) (asBytes t)) = true ↔ s = t := by
  rw [constantTimeEq_asBytes hs ht, Bool.and_eq_true, beq_iff_eq]
  constructor
  · intro h
    exact h.2
  · intro h
    rw [h]
    refine ⟨?_, rfl⟩
    simpa using hne

/-- **The fallback of an `auth` section**: its secret, if it is set. -/
theorem secretRole_iff {secret : Option String} {t : String}
    (hshort : ∀ s, secret = some s → s.utf8ByteSize < 2 ^ 32) (ht : t.utf8ByteSize < 2 ^ 32)
    (hne : t ≠ "") (r : String) :
    (match secret with
      | some secret =>
          if !secret.isEmpty && constantTimeEq (asBytes secret) (asBytes t) then some "admin"
          else none
      | none => none) = some r ↔ secret = some t ∧ r = "admin" := by
  cases secret with
  | none => simp
  | some s =>
      have hiff := secret_matches_iff (hshort s rfl) ht hne
      simp only
      by_cases hst : s = t
      · rw [if_pos (hiff.mpr hst), hst]
        simp [eq_comm]
      · rw [if_neg (mt hiff.mp hst)]
        simp [hst]

/-- **The scan, the fallback and the comparison find exactly the token's role.** -/
theorem resolveTokenRole_iff {config : ProxyConfig} {envSecret t : String}
    (hshort : ShortCredentials config envSecret) (hne : t ≠ "")
    (ht : t.utf8ByteSize < 2 ^ 32) (r : String) :
    resolveTokenRole config envSecret t = some r ↔ Admits config envSecret t r := by
  obtain ⟨henv, hauth⟩ := hshort
  unfold resolveTokenRole Admits
  cases hc : config.auth with
  | none =>
      have hiff := secret_matches_iff henv ht hne
      simp only
      split
      next h => simp [hiff.mp h, hne, eq_comm]
      next h =>
        have hno : envSecret ≠ t := fun he => h (hiff.mpr he)
        simp [hno]
  | some auth =>
      obtain ⟨htokens, hsec⟩ := hauth auth hc
      -- the scan keeps the first entry with this token
      simp only
      rw [foldl_first_match _ _ fun (e : TokenEntry) he => constantTimeEq_asBytes (htokens e he) ht]
      cases hfind : (auth.tokens.getD []).find? fun e => e.token == t with
      | some e =>
          have het : e.token = t := by simpa using List.find?_some hfind
          have hmem := List.mem_of_find?_eq_some hfind
          constructor
          · intro h
            injection h with h
            exact Or.inl ⟨e, rfl, h.symm⟩
          · intro h
            obtain ⟨e', he', hr⟩ | ⟨hall, -⟩ := h
            · injection he' with he'
              rw [hr, ← he']
              rfl
            · exact absurd het (hall e hmem)
      | none =>
          have hall : ∀ x ∈ auth.tokens.getD [], x.token ≠ t := by
            intro x hx
            simpa using List.find?_eq_none.mp hfind x hx
          simp only [Option.map_none, reduceCtorEq, false_and, exists_false, false_or]
          rw [secretRole_iff hsec ht hne]
          exact ⟨fun h => ⟨hall, h.1, hne, h.2⟩, fun h => ⟨h.2.1, h.2.2.2⟩⟩

/-- A token that is admitted is a configured credential. -/
theorem isAuthStrictlyConfigured_of_admits {config : ProxyConfig} {envSecret t r : String}
    (hne : t ≠ "") (h : Admits config envSecret t r) :
    isAuthStrictlyConfigured config envSecret = true := by
  unfold Admits at h
  unfold isAuthStrictlyConfigured
  cases hc : config.auth with
  | none =>
      rw [hc] at h
      have henv : envSecret = t := h.1
      rw [henv]
      simpa using hne
  | some auth =>
      rw [hc] at h
      simp only
      split
      · rfl
      · split
        · rfl
        · obtain ⟨e, hfind, -⟩ | ⟨-, hs, -, -⟩ := h
          · have hmem := List.mem_of_find?_eq_some hfind
            have het : e.token = t := by simpa using List.find?_some hfind
            cases htk : auth.tokens with
            | none =>
                rw [htk] at hmem
                exact absurd hmem (by simp)
            | some tk =>
                rw [htk] at hmem
                have hany : tk.any (fun x => !x.token.isEmpty) = true :=
                  List.any_eq_true.mpr ⟨e, hmem, by simpa [het] using hne⟩
                simp [hany]
          · rw [hs]
            simp [hne]

/-- Without a credential no token is admitted. -/
theorem not_admits_of_noCredential {config : ProxyConfig} {envSecret t r : String} (hne : t ≠ "")
    (h : NoCredential config envSecret) : ¬ Admits config envSecret t r := by
  unfold NoCredential at h
  unfold Admits
  cases hc : config.auth with
  | none =>
      rw [hc] at h
      intro hadm
      exact hne (hadm.1.symm.trans h)
  | some auth =>
      rw [hc] at h
      obtain ⟨htokens, hsecret⟩ := h
      intro hadm
      obtain ⟨e, hfind, -⟩ | ⟨-, hs, -, -⟩ := hadm
      · have het : e.token = t := by simpa using List.find?_some hfind
        exact hne (het.symm.trans (htokens e (List.mem_of_find?_eq_some hfind)))
      · exact hne (hsecret t hs)

/-- A token that is presented is not empty, and far below `2^32` bytes. -/
theorem size_of_presentsToken {headers : HeaderMap} {t : String} (h : PresentsToken headers t) :
    t ≠ "" ∧ t.utf8ByteSize < 2 ^ 32 := by
  obtain ⟨_, _, _, hpos, hle⟩ := h
  refine ⟨fun he => ?_, ?_⟩
  · rw [he] at hpos
    exact absurd hpos (by decide)
  · unfold maxTokenLen at hle
    omega

/-- **What bearer authentication comes to** for an address that is not locked out. -/
theorem authenticate_bearer {st : ProxyState} {config : ProxyConfig} (headers : HeaderMap)
    {peer : deps.Ip} (cert : Option CertIdentity) {m : Moment}
    (hnone : authType config ≠ some "none") (hmtls : authType config ≠ some "mtls")
    (hfree : st.authLimiter.isBlocked m.checkedAt (deps.ipToString peer) = false) :
    (authenticate deps st config headers peer cert m).1 =
      if isAuthStrictlyConfigured config st.envSecret then
        match extractBearerToken headers with
        | .ok (some token) =>
            match resolveTokenRole config st.envSecret token with
            | some role => .allowed (some role) none
            | none => .denied 401 "Invalid token"
        | .ok none => .denied 401 "Missing authorization"
        | .error () => .denied 401 "Malformed authorization"
      else .denied 401 "Authentication is not configured" := by
  unfold authenticate
  simp only [hfree, Bool.false_eq_true, if_false, beq_iff_eq, hnone, hmtls]
  cases isAuthStrictlyConfigured config st.envSecret with
  | false => rfl
  | true =>
      simp only [Bool.not_true, Bool.false_eq_true, if_false, if_true]
      split
      next token htoken =>
        cases resolveTokenRole config st.envSecret token <;> rfl
      next => rfl
      next => rfl

/-- **Bearer authentication, exactly.**  A request from an address that is not
locked out is let in with a role if and only if it presents a token that has this
role; and where no credential is configured, nobody is let in. -/
theorem authenticate_allowed_iff {st : ProxyState} {config : ProxyConfig} (headers : HeaderMap)
    {peer : deps.Ip} (cert : Option CertIdentity) {m : Moment}
    (hnone : authType config ≠ some "none") (hmtls : authType config ≠ some "mtls")
    (hfree : st.authLimiter.isBlocked m.checkedAt (deps.ipToString peer) = false)
    (hshort : ShortCredentials config st.envSecret) :
    (∀ role identity, (authenticate deps st config headers peer cert m).1 = .allowed role identity ↔
      identity = none ∧ ∃ t r, PresentsToken headers t ∧ Admits config st.envSecret t r ∧
        role = some r) ∧
    (NoCredential config st.envSecret → ∀ role identity,
      (authenticate deps st config headers peer cert m).1 ≠ .allowed role identity) := by
  have hiff : ∀ role identity,
      (authenticate deps st config headers peer cert m).1 = .allowed role identity ↔
        identity = none ∧ ∃ t r, PresentsToken headers t ∧ Admits config st.envSecret t r ∧
          role = some r := by
    intro role identity
    rw [authenticate_bearer deps headers cert hnone hmtls hfree]
    constructor
    · intro h
      split at h
      · split at h
        next token htoken =>
          have hpresents := (extractBearerToken_iff headers token).mp htoken
          obtain ⟨hne, hlt⟩ := size_of_presentsToken hpresents
          split at h
          next r hr =>
            injection h with hrole hident
            exact ⟨hident.symm, token, r, hpresents,
              (resolveTokenRole_iff hshort hne hlt r).mp hr, hrole.symm⟩
          next => exact absurd h (by simp)
        next => exact absurd h (by simp)
        next => exact absurd h (by simp)
      · exact absurd h (by simp)
    · intro ⟨hident, t, r, hpresents, hadmits, hrole⟩
      obtain ⟨hne, hlt⟩ := size_of_presentsToken hpresents
      rw [isAuthStrictlyConfigured_of_admits hne hadmits, if_pos rfl,
        (extractBearerToken_iff headers t).mpr hpresents]
      simp only [(resolveTokenRole_iff hshort hne hlt r).mpr hadmits, hident, hrole]
  refine ⟨hiff, fun hno role identity hallowed => ?_⟩
  obtain ⟨-, t, r, hpresents, hadmits, -⟩ := (hiff role identity).mp hallowed
  exact not_admits_of_noCredential (size_of_presentsToken hpresents).1 hno hadmits

/-- A proxy with one token. -/
def oneTokenState : ProxyState where
  config := { auth := some { tokens := some [{ token := "s3cret", role := some "dev" }] } }
  envSecret := ""
  rateLimiter := RateLimiter.new
  authLimiter := AuthLimiter.new
  metrics := {}
  audit := none
  metricsPath := none

/-- The holder of the token gets its role. -/
theorem authenticate_allowed_token :
    (authenticate Externals.sample oneTokenState oneTokenState.config
      [("authorization", .ofStr "Bearer s3cret")] () none momentZero).1 =
        .allowed (some "dev") none := by
  have hshort : ShortCredentials oneTokenState.config oneTokenState.envSecret := by
    refine ⟨by decide, fun auth hauth => ?_⟩
    injection hauth with hauth
    rw [← hauth]
    exact ⟨by decide, by simp⟩
  have hiff := (@authenticate_allowed_iff Externals.sample oneTokenState oneTokenState.config
    [("authorization", .ofStr "Bearer s3cret")] () none momentZero (by decide) (by decide)
    (by decide +kernel) hshort).1 (some "dev") none
  refine hiff.mpr ⟨rfl, "s3cret", "dev", ⟨.ofStr "Bearer s3cret", rfl, rfl, ?_⟩, ?_, rfl⟩
  · decide
  · exact Or.inl ⟨{ token := "s3cret", role := some "dev" }, by decide, rfl⟩

end DockerProxy.Proxy
