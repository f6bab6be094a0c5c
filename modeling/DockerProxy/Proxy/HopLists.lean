/-
  DockerProxy.Proxy.HopLists — one list of hops, in `X-Forwarded-For` or in
  `Forwarded`.

  A proxy tells the addresses a request came through in one of the two headers, as
  `a1, ..., an` or as `for=a1, ..., for=an`.  The loop over `X-Forwarded-For` passes
  over the trusted addresses, the loop over `Forwarded` takes what comes last.

    • `computeClientIp_forwardedForList` — from `X-Forwarded-For`, the rightmost
      untrusted address, and the peer if there is none,
    • `computeClientIp_forwardedList` — from `Forwarded`, the last address,
    • `hopLists_agree_iff` — so the two agree exactly if the last address is
      untrusted, or if no address is and the last one is the peer.
-/
import DockerProxy.Proxy.ForwardedFor

namespace DockerProxy.Proxy

open DockerProxy.Lib

/-! ## §1. Addresses as text. -/

/-- `Ipv4Addr`: four octets. -/
structure Ipv4Addr where
  a : UInt8
  b : UInt8
  c : UInt8
  d : UInt8
  deriving DecidableEq

/-- The dotted text of an address. -/
def Ipv4Addr.text (addr : Ipv4Addr) : String :=
  joinStr ([addr.a, addr.b, addr.c, addr.d].map fun octet => octet.toNat.repr) "."

example : (Ipv4Addr.mk 203 0 113 9).text = "203.0.113.9" := by decide +kernel

/-- An address is written in digits and dots. -/
theorem Ipv4Addr.mem_text {addr : Ipv4Addr} {x : Char} (h : x ∈ addr.text.toList) :
    x.isDigit = true ∨ x = '.' := by
  unfold Ipv4Addr.text joinStr at h
  rw [String.toList_intercalate, List.map_map] at h
  simp only [List.map_cons, List.map_nil, List.intercalate_cons_cons, List.intercalate_singleton,
    List.mem_append] at h
  have hrepr : ∀ octet : UInt8, x ∈ octet.toNat.repr.toList → x.isDigit = true := by
    intro octet hx
    rw [Nat.toList_repr] at hx
    exact Nat.isDigit_of_mem_toDigits (by omega) (by omega) hx
  have hdot : x ∈ ".".toList → x = '.' := by
    intro hx
    simpa using hx
  obtain (ha | hdot₁) | (hb | hdot₂) | (hc | hdot₃) | hd := h
  · exact Or.inl (hrepr _ ha)
  · exact Or.inr (hdot hdot₁)
  · exact Or.inl (hrepr _ hb)
  · exact Or.inr (hdot hdot₂)
  · exact Or.inl (hrepr _ hc)
  · exact Or.inr (hdot hdot₃)
  · exact Or.inl (hrepr _ hd)

/-- So a character that is neither is not in the text. -/
theorem Ipv4Addr.not_mem_text (addr : Ipv4Addr) {x : Char} (hdigit : x.isDigit = false)
    (hdot : x ≠ '.') : x ∉ addr.text.toList := by
  intro hx
  cases Ipv4Addr.mem_text hx with
  | inl h => exact absurd (h.symm.trans hdigit) (by simp)
  | inr h => exact hdot h

/-- There is nothing to trim. -/
theorem Ipv4Addr.isWhitespace_of_mem_text {addr : Ipv4Addr} {x : Char}
    (hx : x ∈ addr.text.toList) : isWhitespace x = false := by
  cases Ipv4Addr.mem_text hx with
  | inl hdigit =>
      obtain ⟨hlow, hhigh⟩ := Char.isDigit_iff_toNat.mp hdigit
      have h0 : '0'.toNat = 48 := by decide
      have h9 : '9'.toNat = 57 := by decide
      simp only [isWhitespace, Bool.or_eq_false_iff, Bool.and_eq_false_iff, beq_eq_false_iff_ne,
        decide_eq_false_iff_not]
      omega
  | inr hdot =>
      rw [hdot]
      decide

/-- A header line with one entry for each address. -/
def hopList (entry : Ipv4Addr → String) (addrs : List Ipv4Addr) : HeaderValue :=
  .ofStr (joinStr (addrs.map entry) ", ")

/-- The value of `X-Forwarded-For`. -/
def forwardedForList : List Ipv4Addr → HeaderValue := hopList Ipv4Addr.text

/-- An element of `Forwarded`. -/
def forwardedElement (addr : Ipv4Addr) : String := "for=" ++ addr.text

/-- The value of `Forwarded`. -/
def forwardedList : List Ipv4Addr → HeaderValue := hopList forwardedElement

/-- **The pieces of such a line**, through a function that does not look at a space in
front: one for each address. -/
theorem map_splitStr_hopList {β : Type} {entry : Ipv4Addr → String} {f : String → β}
    (hcomma : ∀ addr, ',' ∉ (entry addr).toList)
    (hspace : ∀ addr, f (" " ++ entry addr) = f (entry addr))
    {addrs : List Ipv4Addr} (hne : addrs ≠ []) {s : String}
    (hs : (hopList entry addrs).toStr = some s) :
    (splitStr s ',').map f = addrs.map fun addr => f (entry addr) := by
  have hjoin : s = joinStr (addrs.map entry) ", " := (Option.some.inj hs).symm
  obtain ⟨first, rest, rfl⟩ := List.exists_cons_of_ne_nil hne
  have hpad : ',' ∉ [' '] := by decide
  have hrest : ∀ piece ∈ (rest.map entry).map String.toList, ',' ∉ piece := by
    intro piece hpiece
    rw [List.map_map] at hpiece
    obtain ⟨addr, -, rfl⟩ := List.mem_map.mp hpiece
    exact hcomma addr
  have hpieces : splitStr s ',' = entry first :: rest.map fun addr => " " ++ entry addr := by
    unfold splitStr
    rw [hjoin, joinStr, String.toList_intercalate]
    show List.map String.ofList (List.splitOn ',' (List.intercalate [',', ' ']
      ((entry first).toList :: (rest.map entry).map String.toList))) = _
    rw [splitOn_intercalate_cons hpad hrest _ (hcomma first), List.map_cons, String.ofList_toList,
      List.map_map, List.map_map, List.map_map]
    refine congrArg (entry first :: ·) (List.map_congr_left fun addr _ => ?_)
    rw [← String.toList_inj, String.toList_append]
    exact String.toList_ofList
  rw [hpieces, List.map_cons, List.map_cons, List.map_map]
  exact congrArg (f (entry first) :: ·) (List.map_congr_left fun addr _ => hspace addr)

/-! ## §2. What the two headers yield. -/

section Reading

variable (deps : Externals) {ofV4 : Ipv4Addr → deps.Ip}

/-- The dotted text of an address is parsed as that address. -/
def ParsesIpv4 (ofV4 : Ipv4Addr → deps.Ip) : Prop :=
  ∀ addr : Ipv4Addr, deps.parseIp addr.text = some (ofV4 addr)

/-- Of the three headers that are looked at, only this one is there, on one line. -/
def OnlyProxyHeader (headers : HeaderMap) (name : String) (value : HeaderValue) : Prop :=
  headers.getAll name = [value] ∧
    ∀ other ∈ ["x-real-ip", "x-forwarded-for", "forwarded"], other ≠ name →
      headers.getAll other = []

theorem getStr_of_getAll_nil {headers : HeaderMap} {name : String}
    (h : headers.getAll name = []) : headers.getStr name = none := by
  unfold HeaderMap.getStr
  rw [HeaderMap.get_eq_head?, h]
  rfl

theorem trim_text (addr : Ipv4Addr) : trim addr.text = addr.text :=
  trimMatches_eq_self fun _ hx => Ipv4Addr.isWhitespace_of_mem_text hx

theorem trim_space_text (addr : Ipv4Addr) : trim (" " ++ addr.text) = addr.text :=
  trimMatches_append (List.all_eq_true.mp (by decide)) fun _ hx => Ipv4Addr.isWhitespace_of_mem_text hx

/-- The entries of `X-Forwarded-For` are the texts of the addresses. -/
theorem forwardedForIp_list {headers : HeaderMap} {addrs : List Ipv4Addr} (hne : addrs ≠ [])
    (hheader : headers.getAll "x-forwarded-for" = [forwardedForList addrs])
    (trustedProxies : List deps.Net) :
    forwardedForIp deps headers trustedProxies =
      rightmostUntrusted deps trustedProxies (addrs.map Ipv4Addr.text) := by
  have hentries : lineEntries (forwardedForList addrs) = addrs.map Ipv4Addr.text := by
    show (splitStr _ ',').map trim = _
    rw [map_splitStr_hopList (fun addr => addr.not_mem_text (by decide) (by decide))
      (fun addr => (trim_space_text addr).trans (trim_text addr).symm) hne rfl]
    exact List.map_congr_left fun addr _ => trim_text addr
  rw [forwardedForIp_eq deps hheader, hentries]
  exact if_pos rfl

/-- A character of an element of `Forwarded`. -/
theorem not_mem_forwardedElement (addr : Ipv4Addr) {x : Char} (hfor : x ∉ "for=".toList)
    (hdigit : x.isDigit = false) (hdot : x ≠ '.') : x ∉ (forwardedElement addr).toList := by
  unfold forwardedElement
  rw [String.toList_append, List.mem_append, not_or]
  exact ⟨hfor, addr.not_mem_text hdigit hdot⟩

/-- **An element of `Forwarded` names its address**, with or without a space in front. -/
theorem forwardedFor_element (hparse : ParsesIpv4 deps ofV4) {pad : String}
    (hpad : ∀ c ∈ pad.toList, isWhitespace c = true) (addr : Ipv4Addr) :
    forwardedFor deps (pad ++ forwardedElement addr) = some (ofV4 addr) := by
  have htrim : trim (pad ++ forwardedElement addr) = "for=" ++ addr.text := by
    refine trimMatches_append hpad fun x hx => ?_
    unfold forwardedElement at hx
    rw [String.toList_append, List.mem_append] at hx
    cases hx with
    | inl hfor =>
        have hprefix : "for=".toList.all (fun c => !isWhitespace c) = true := by decide
        have hx := List.all_eq_true.mp hprefix x hfor
        rwa [Bool.not_eq_true'] at hx
    | inr htext => exact Ipv4Addr.isWhitespace_of_mem_text htext
  -- neither quotes nor brackets stand around a dotted text
  have hquotes : trimMatches addr.text (· == '"') = addr.text :=
    trimMatches_eq_self fun x hx => by
      rw [beq_eq_false_iff_ne]
      rintro rfl
      exact addr.not_mem_text (by decide) (by decide) hx
  have hbracket : stripPrefix addr.text "[" = none := by
    cases hstrip : stripPrefix addr.text "[" with
    | none => rfl
    | some rest =>
        refine absurd ?_ (addr.not_mem_text (x := '[') (by decide) (by decide))
        rw [stripPrefix_eq_some.mp hstrip, String.toList_append]
        exact List.mem_append_left _ (by decide)
  unfold forwardedFor
  rw [htrim, stripPrefix_eq_some.mpr rfl, Option.bind_some, hquotes]
  show deps.parseIp (((stripPrefix addr.text "[").bind _).getD addr.text) = _
  rw [hbracket]
  exact hparse addr

/-- **From `Forwarded`, the last address**, trusted or not. -/
theorem forwardedIp_list (hparse : ParsesIpv4 deps ofV4) {headers : HeaderMap}
    {addrs : List Ipv4Addr} (hne : addrs ≠ [])
    (hheader : headers.getAll "forwarded" = [forwardedList addrs]) :
    forwardedIp deps headers = some (ofV4 (addrs.getLast hne)) := by
  have hsegment : ∀ pad : String, (∀ c ∈ pad.toList, isWhitespace c = true) → ';' ∉ pad.toList →
      ∀ addr, (splitStr (pad ++ forwardedElement addr) ';').findSome? (forwardedFor deps) =
        some (ofV4 addr) := by
    intro pad hpad hsemi addr
    have hfree : ';' ∉ (pad ++ forwardedElement addr).toList := by
      rw [String.toList_append, List.mem_append, not_or]
      exact ⟨hsemi, not_mem_forwardedElement addr (by decide) (by decide) (by decide)⟩
    unfold splitStr
    rw [List.splitOn_eq_singleton hfree, List.map_singleton, String.ofList_toList,
      List.findSome?_singleton]
    exact forwardedFor_element deps hparse hpad addr
  have hplain : ∀ addr, (splitStr (forwardedElement addr) ';').findSome? (forwardedFor deps) =
      some (ofV4 addr) := by
    intro addr
    have h := hsegment "" (by simp) (by simp) addr
    rwa [String.empty_append] at h
  have hspaced := hsegment " " (List.all_eq_true.mp (by decide)) (by decide)
  obtain ⟨line, hline⟩ : ∃ line, (forwardedList addrs).toStr = some line := ⟨_, rfl⟩
  have hpieces := @map_splitStr_hopList _ forwardedElement
    (fun segment => (splitStr segment ';').findSome? (forwardedFor deps))
    (fun addr => not_mem_forwardedElement addr (by decide) (by decide) (by decide))
    (fun addr => (hspaced addr).trans (hplain addr).symm) addrs hne line hline
  unfold forwardedIp HeaderMap.getStr
  rw [HeaderMap.get_eq_head?, hheader, List.head?_cons, Option.bind_some, hline, Option.bind_some]
  have hmap : ∀ segments : List String,
      segments.findSome? (fun segment => (splitStr segment ';').findSome? (forwardedFor deps)) =
        (segments.map fun segment =>
          (splitStr segment ';').findSome? (forwardedFor deps)).findSome? id := by
    intro segments
    rw [List.findSome?_map]
    rfl
  rw [hmap, List.map_reverse, hpieces, List.map_congr_left fun addr _ => hplain addr]
  -- every piece names an address, so the first one from the right decides
  conv_lhs => rw [← List.dropLast_append_getLast hne]
  rw [List.map_append, List.reverse_append]
  rfl

/-! ## §3. When the two agree. -/

/-- The rightmost untrusted one of the addresses. -/
theorem rightmostUntrusted_text (hparse : ParsesIpv4 deps ofV4) (trustedProxies : List deps.Net)
    (addrs : List Ipv4Addr) :
    rightmostUntrusted deps trustedProxies (addrs.map Ipv4Addr.text) =
      (addrs.reverse.map ofV4).find? fun ip => !isTrusted deps trustedProxies ip := by
  unfold rightmostUntrusted
  rw [← List.map_reverse]
  generalize addrs.reverse = hops
  induction hops with
  | nil => rfl
  | cons addr hops ih =>
      rw [List.map_cons, List.map_cons, List.findSome?_cons, List.find?_cons, hparse addr,
        Option.filter_some]
      -- by whether this hop is passed over
      cases isTrusted deps trustedProxies (ofV4 addr) with
      | true => exact ih
      | false => rfl

/-- **From `X-Forwarded-For`, the rightmost untrusted address**, else the peer. -/
theorem computeClientIp_forwardedForList (hparse : ParsesIpv4 deps ofV4) {peer : deps.Ip}
    {headers : HeaderMap} {trustedProxies : List deps.Net} {addrs : List Ipv4Addr}
    (hpeer : isTrusted deps trustedProxies peer = true) (hne : addrs ≠ [])
    (hheader : OnlyProxyHeader headers "x-forwarded-for" (forwardedForList addrs)) :
    computeClientIp deps peer headers trustedProxies =
      ((addrs.reverse.map ofV4).find? fun ip => !isTrusted deps trustedProxies ip).getD peer := by
  obtain ⟨hlist, hothers⟩ := hheader
  have hreal : realIp deps headers = none := by
    unfold realIp
    rw [getStr_of_getAll_nil (hothers "x-real-ip" (by decide) (by decide))]
    rfl
  have hforwarded : forwardedIp deps headers = none := by
    unfold forwardedIp
    rw [getStr_of_getAll_nil (hothers "forwarded" (by decide) (by decide))]
    rfl
  rw [computeClientIp_of_trusted deps hpeer hreal, forwardedForIp_list deps hne hlist, hforwarded,
    Option.or_none, rightmostUntrusted_text deps hparse]

/-- **From `Forwarded`, the last address**, whether it is trusted or not. -/
theorem computeClientIp_forwardedList (hparse : ParsesIpv4 deps ofV4) {peer : deps.Ip}
    {headers : HeaderMap} {trustedProxies : List deps.Net} {addrs : List Ipv4Addr}
    (hpeer : isTrusted deps trustedProxies peer = true) (hne : addrs ≠ [])
    (hheader : OnlyProxyHeader headers "forwarded" (forwardedList addrs)) :
    computeClientIp deps peer headers trustedProxies = ofV4 (addrs.getLast hne) := by
  obtain ⟨hlist, hothers⟩ := hheader
  have hreal : realIp deps headers = none := by
    unfold realIp
    rw [getStr_of_getAll_nil (hothers "x-real-ip" (by decide) (by decide))]
    rfl
  have hfor : forwardedForIp deps headers trustedProxies = none := by
    unfold forwardedForIp
    rw [getStr_of_getAll_nil (hothers "x-forwarded-for" (by decide) (by decide))]
    rfl
  rw [computeClientIp_of_trusted deps hpeer hreal, hfor, Option.none_or,
    forwardedIp_list deps hparse hne hlist, Option.getD_some]

/-- **The two headers agree**: the same address comes out, and it is a trusted one only
as the fallback to the peer. -/
def HeadersAgree (peer : deps.Ip) (trustedProxies : List deps.Net)
    (viaForwardedFor viaForwarded : HeaderMap) : Prop :=
  computeClientIp deps peer viaForwardedFor trustedProxies =
      computeClientIp deps peer viaForwarded trustedProxies ∧
    ∀ headers ∈ [viaForwardedFor, viaForwarded],
      isTrusted deps trustedProxies (computeClientIp deps peer headers trustedProxies) = true →
        computeClientIp deps peer headers trustedProxies = peer

/-- **When the headers agree, exactly**: the last hop is untrusted, or every hop is
trusted and the last one is the peer itself. -/
theorem hopLists_agree_iff (hparse : ParsesIpv4 deps ofV4) {peer : deps.Ip}
    {trustedProxies : List deps.Net} (hpeer : isTrusted deps trustedProxies peer = true)
    {addrs : List Ipv4Addr} (hne : addrs ≠ []) {viaForwardedFor viaForwarded : HeaderMap}
    (hfor : OnlyProxyHeader viaForwardedFor "x-forwarded-for" (forwardedForList addrs))
    (hforwarded : OnlyProxyHeader viaForwarded "forwarded" (forwardedList addrs)) :
    HeadersAgree deps peer trustedProxies viaForwardedFor viaForwarded ↔
      isTrusted deps trustedProxies (ofV4 (addrs.getLast hne)) = false ∨
        ((∀ addr ∈ addrs, isTrusted deps trustedProxies (ofV4 addr) = true) ∧
          ofV4 (addrs.getLast hne) = peer) := by
  have hviaFor := computeClientIp_forwardedForList deps hparse hpeer hne hfor
  have hviaForwarded := computeClientIp_forwardedList deps hparse hpeer hne hforwarded
  unfold HeadersAgree
  simp only [List.forall_mem_cons, List.not_mem_nil, false_implies, implies_true, and_true]
  rw [hviaFor, hviaForwarded]
  -- by what the loop over `X-Forwarded-For` finds
  cases hfind : (addrs.reverse.map ofV4).find? fun ip => !isTrusted deps trustedProxies ip with
  | none =>
      have hall : ∀ addr ∈ addrs, isTrusted deps trustedProxies (ofV4 addr) = true := by
        intro addr haddr
        have h := List.find?_eq_none.mp hfind (ofV4 addr)
          (List.mem_map_of_mem (List.mem_reverse.mpr haddr))
        simpa using h
      have hlast := hall _ (List.getLast_mem hne)
      rw [Option.getD_none, hlast]
      constructor
      · rintro ⟨heq, -⟩
        exact Or.inr ⟨hall, heq.symm⟩
      · rintro (h | ⟨-, heq⟩)
        · exact absurd h (by simp)
        · exact ⟨heq.symm, fun _ => rfl, fun _ => heq⟩
  | some ip =>
      have huntrusted : isTrusted deps trustedProxies ip = false := by
        simpa using List.find?_some hfind
      rw [Option.getD_some, huntrusted]
      constructor
      · rintro ⟨heq, -⟩
        rw [← heq]
        exact Or.inl huntrusted
      · rintro (h | ⟨hall, -⟩)
        · -- the last hop is then the first one that the loop looks at
          have hhead : (addrs.reverse.map ofV4).find?
              (fun ip => !isTrusted deps trustedProxies ip) = some (ofV4 (addrs.getLast hne)) := by
            conv_lhs => rw [← List.dropLast_append_getLast hne]
            rw [List.reverse_append, List.reverse_singleton, List.singleton_append, List.map_cons,
              List.find?_cons, h]
            rfl
          have heq : ip = ofV4 (addrs.getLast hne) := Option.some.inj (hfind.symm.trans hhead)
          exact ⟨heq, fun h' => absurd h' (by simp), fun h' => absurd (h'.symm.trans h) (by simp)⟩
        · obtain ⟨addr, haddr, rfl⟩ := List.mem_map.mp (List.mem_of_find?_eq_some hfind)
          exact absurd ((hall addr (List.mem_reverse.mp haddr)).symm.trans huntrusted) (by simp)

end Reading

/-! ## §4. A trusted hop at the end. -/

/-- An octet without leading zeros. -/
def parseOctet (s : String) : Option UInt8 :=
  ((List.range 256).find? fun n => n.repr == s).map UInt8.ofNat

/-- `s.parse::<Ipv4Addr>()`. -/
def parseDotted (s : String) : Option Ipv4Addr :=
  match (splitStr s '.').map parseOctet with
  | [some a, some b, some c, some d] => some ⟨a, b, c, d⟩
  | _ => none

/-- IPv4 addresses, and networks of one first octet. -/
abbrev dotted : Externals where
  Ip := Ipv4Addr
  decEqIp := inferInstance
  parseIp := parseDotted
  ipToString := Ipv4Addr.text
  Net := UInt8
  parseNet s := if s = "10.0.0.0/8" then some 10 else none
  netContains net ip := ip.a = net
  jsonFromSlice _ := .error ""
  jsonToVec _ := none
  jsonToString _ := ""
  uriTarget _ := none

theorem parseOctet_repr (octet : UInt8) : parseOctet octet.toNat.repr = some octet := by
  unfold parseOctet
  cases hfind : (List.range 256).find? fun n => n.repr == octet.toNat.repr with
  | none =>
      have h := List.find?_eq_none.mp hfind octet.toNat (List.mem_range.mpr octet.toNat_lt)
      exact absurd (beq_self_eq_true _) h
  | some n =>
      have hrepr : n.repr = octet.toNat.repr := by simpa using List.find?_some hfind
      have hdigits : Nat.toDigits 10 n = Nat.toDigits 10 octet.toNat := by
        rw [← Nat.toList_repr, ← Nat.toList_repr, hrepr]
      have hn : n = octet.toNat := by
        rw [← @Nat.ofDigitChars_ten_toDigits n, hdigits, Nat.ofDigitChars_ten_toDigits]
      rw [hn, Option.map_some, UInt8.ofNat_toNat]

/-- The dotted text is read back. -/
theorem parseDotted_text (addr : Ipv4Addr) : parseDotted addr.text = some addr := by
  have hfree : ∀ piece ∈ [addr.a, addr.b, addr.c, addr.d].map (fun octet =>
      octet.toNat.repr.toList), '.' ∉ piece := by
    intro piece hpiece hdot
    obtain ⟨octet, -, rfl⟩ := List.mem_map.mp hpiece
    rw [Nat.toList_repr] at hdot
    exact absurd (Nat.isDigit_of_mem_toDigits (by omega) (by omega) hdot) (by decide)
  have hsplit : splitStr addr.text '.' =
      [addr.a, addr.b, addr.c, addr.d].map fun octet => octet.toNat.repr := by
    unfold splitStr Ipv4Addr.text joinStr
    rw [String.toList_intercalate, List.map_map]
    show List.map String.ofList (List.splitOn '.' (List.intercalate ['.']
      ([addr.a, addr.b, addr.c, addr.d].map fun octet => octet.toNat.repr.toList))) = _
    rw [List.splitOn_intercalate '.' hfree (by simp), List.map_map]
    exact List.map_congr_left fun octet _ => String.ofList_toList
  unfold parseDotted
  rw [hsplit]
  simp only [List.map_cons, List.map_nil, parseOctet_repr]

theorem parsesIpv4_dotted : ParsesIpv4 dotted id := by
  intro addr
  dsimp only [dotted]
  exact parseDotted_text addr

/-- A request through two hops, of which the last is untrusted. -/
theorem hopLists_agree_client :
    HeadersAgree dotted ⟨10, 0, 0, 1⟩ [10]
      [("x-forwarded-for", forwardedForList [⟨10, 0, 0, 7⟩, ⟨203, 0, 113, 9⟩])]
      [("forwarded", forwardedList [⟨10, 0, 0, 7⟩, ⟨203, 0, 113, 9⟩])] :=
  (hopLists_agree_iff dotted parsesIpv4_dotted rfl (by simp) ⟨rfl, by decide⟩
    ⟨rfl, by decide⟩).mpr (Or.inl rfl)

/-- **A proxy that is taken for the client**: the client's request came through a
second trusted proxy.  `X-Forwarded-For` names the client, `Forwarded` the proxy. -/
theorem hopLists_proxy_as_client :
    isTrusted dotted [10] ⟨10, 0, 0, 1⟩ = true ∧
    computeClientIp dotted ⟨10, 0, 0, 1⟩
      [("x-forwarded-for", forwardedForList [⟨203, 0, 113, 9⟩, ⟨10, 0, 0, 7⟩])] [10] =
        ⟨203, 0, 113, 9⟩ ∧
    computeClientIp dotted ⟨10, 0, 0, 1⟩
      [("forwarded", forwardedList [⟨203, 0, 113, 9⟩, ⟨10, 0, 0, 7⟩])] [10] = ⟨10, 0, 0, 7⟩ ∧
    ¬ HeadersAgree dotted ⟨10, 0, 0, 1⟩ [10]
      [("x-forwarded-for", forwardedForList [⟨203, 0, 113, 9⟩, ⟨10, 0, 0, 7⟩])]
      [("forwarded", forwardedList [⟨203, 0, 113, 9⟩, ⟨10, 0, 0, 7⟩])] := by
  have hfor : computeClientIp dotted ⟨10, 0, 0, 1⟩
      [("x-forwarded-for", forwardedForList [⟨203, 0, 113, 9⟩, ⟨10, 0, 0, 7⟩])] [10] =
        ⟨203, 0, 113, 9⟩ := by decide +kernel
  have hforwarded : computeClientIp dotted ⟨10, 0, 0, 1⟩
      [("forwarded", forwardedList [⟨203, 0, 113, 9⟩, ⟨10, 0, 0, 7⟩])] [10] =
        ⟨10, 0, 0, 7⟩ := by decide +kernel
  refine ⟨rfl, hfor, hforwarded, fun h => ?_⟩
  have heq := h.1
  rw [hfor, hforwarded] at heq
  exact absurd heq (by decide)

end DockerProxy.Proxy
