/-
  DockerProxy.Rules.ClientIpRanges — a client address against a list of ranges and
  addresses.

  `match_ip_condition` looks at the whole list before it compares: as soon as one
  entry is a range, only the ranges count and plain addresses are dropped; a list
  without a range is compared as text with the printed address.  So membership is
  entry by entry exactly as long as a plain entry with the client's address does
  not stand on its own beside a range, or in another spelling
  (`evaluateCondition_client_ip_iff`).
-/
import DockerProxy.Rules.Negation

namespace DockerProxy.Rules

open DockerProxy.Lib

/-! ## §1. Lists of entries. -/

/-- A leaf about the client's address with a list of texts. -/
def clientIpLeaf (operator : String) (entries : List String) : Condition where
  field := "client_ip"
  operator := operator
  value := some (.sequence (entries.map .string))

variable (deps : Externals)

/-- **An entry matches an address**: it is a range that contains it, or the same address. -/
def EntryMatches (ip : deps.Ip) (entry : String) : Prop :=
  (∃ net, deps.parseNet entry = some net ∧ deps.netContains net ip = true) ∨
    deps.parseIp entry = some ip

/-- Some entry is a range. -/
def HasRange (entries : List String) : Prop := ∃ e ∈ entries, (deps.parseNet e).isSome = true

/-- Some range of the list contains the address. -/
def InRange (ip : deps.Ip) (entries : List String) : Prop :=
  ∃ e ∈ entries, ∃ net, deps.parseNet e = some net ∧ deps.netContains net ip = true

/-- Some entry is the address itself, in whatever spelling. -/
def IsListed (ip : deps.Ip) (entries : List String) : Prop :=
  ∃ e ∈ entries, deps.parseIp e = some ip

/-- **Membership is entry by entry**, for both operators. -/
def EntryByEntry (ctx : EvaluationContext) (ip : deps.Ip) (entries : List String) : Prop :=
  (evaluateCondition deps (clientIpLeaf "in" entries) ctx = true ↔
      ∃ e ∈ entries, EntryMatches deps ip e) ∧
    (evaluateCondition deps (clientIpLeaf "not_in" entries) ctx = true ↔
      ¬ ∃ e ∈ entries, EntryMatches deps ip e)

/-- **Two lists are matched independently**: together they match if one of them does. -/
def Independent (ctx : EvaluationContext) (xs ys : List String) : Prop :=
  evaluateCondition deps (clientIpLeaf "in" (xs ++ ys)) ctx = true ↔
    evaluateCondition deps (clientIpLeaf "in" xs) ctx = true ∨
      evaluateCondition deps (clientIpLeaf "in" ys) ctx = true

variable {deps}

theorem InRange.hasRange {ip : deps.Ip} {entries : List String} (h : InRange deps ip entries) :
    HasRange deps entries := by
  obtain ⟨e, he, net, hparse, -⟩ := h
  exact ⟨e, he, by rw [hparse]; rfl⟩

theorem hasRange_append {xs ys : List String} :
    HasRange deps (xs ++ ys) ↔ HasRange deps xs ∨ HasRange deps ys := by
  unfold HasRange
  simp only [List.mem_append, or_and_right, exists_or]

theorem inRange_append {ip : deps.Ip} {xs ys : List String} :
    InRange deps ip (xs ++ ys) ↔ InRange deps ip xs ∨ InRange deps ip ys := by
  unfold InRange
  simp only [List.mem_append, or_and_right, exists_or]

theorem exists_entryMatches_iff {ip : deps.Ip} {entries : List String} :
    (∃ e ∈ entries, EntryMatches deps ip e) ↔
      InRange deps ip entries ∨ IsListed deps ip entries := by
  unfold EntryMatches InRange IsListed
  simp only [and_or_left, exists_or]

/-! ## §2. What the code compares. -/

/-- The entries of a list of texts are the texts. -/
theorem ipEntries_clientIpLeaf (operator : String) (entries : List String) :
    ipEntries (clientIpLeaf operator entries) = entries := by
  show (entries.map YamlValue.string).filterMap yamlValueToString = entries
  induction entries with
  | nil => rfl
  | cons e entries ih =>
      rw [List.map_cons, List.filterMap_cons]
      exact congrArg (e :: ·) ih

theorem filterMap_parseNet_isEmpty_iff {entries : List String} :
    (entries.filterMap deps.parseNet).isEmpty = true ↔ ¬ HasRange deps entries := by
  rw [List.isEmpty_iff, List.filterMap_eq_nil_iff]
  unfold HasRange
  refine Iff.intro (fun h hrange => ?_) (fun h e he => ?_)
  · obtain ⟨e, he, hsome⟩ := hrange
    rw [h e he] at hsome
    exact absurd hsome (by simp)
  · rw [← Option.not_isSome_iff_eq_none]
    exact fun hsome => h ⟨e, he, hsome⟩

theorem any_netContains_iff {ip : deps.Ip} {entries : List String} :
    ((entries.filterMap deps.parseNet).any fun net => deps.netContains net ip) = true ↔
      InRange deps ip entries := by
  rw [List.any_eq_true]
  refine Iff.intro (fun h => ?_) (fun h => ?_)
  · obtain ⟨net, hnet, hcontains⟩ := h
    obtain ⟨e, he, hparse⟩ := List.mem_filterMap.mp hnet
    exact ⟨e, he, net, hparse, hcontains⟩
  · obtain ⟨e, he, net, hparse, hcontains⟩ := h
    exact ⟨net, List.mem_filterMap.mpr ⟨e, he, hparse⟩, hcontains⟩

section

variable {ctx : EvaluationContext} {ip : deps.Ip}

/-- **The two modes**: with a range in the list only ranges count; without one the
printed address has to be in it. -/
theorem evaluateCondition_in_iff (hclient : deps.parseIp ctx.clientIp = some ip)
    (entries : List String) :
    evaluateCondition deps (clientIpLeaf "in" entries) ctx = true ↔
      InRange deps ip entries ∨ (¬ HasRange deps entries ∧ deps.ipToString ip ∈ entries) := by
  show matchIpCondition deps (clientIpLeaf "in" entries) ctx.clientIp = true ↔ _
  have hmatch : matchIpCondition deps (clientIpLeaf "in" entries) ctx.clientIp =
      if ((ipEntries (clientIpLeaf "in" entries)).filterMap deps.parseNet).isEmpty then
        isSomeAnd (deps.parseIp ctx.clientIp) fun ip =>
          (ipEntries (clientIpLeaf "in" entries)).any fun s => s == deps.ipToString ip
      else isSomeAnd (deps.parseIp ctx.clientIp) fun ip =>
        ((ipEntries (clientIpLeaf "in" entries)).filterMap deps.parseNet).any fun net =>
          deps.netContains net ip := rfl
  rw [hmatch, ipEntries_clientIpLeaf, hclient]
  by_cases hrange : HasRange deps entries
  · rw [if_neg (by rw [filterMap_parseNet_isEmpty_iff, not_not]; exact hrange)]
    show ((entries.filterMap deps.parseNet).any fun net => deps.netContains net ip) = true ↔ _
    rw [any_netContains_iff]
    exact Iff.intro Or.inl (fun h => h.resolve_right (fun h => h.1 hrange))
  · rw [if_pos (filterMap_parseNet_isEmpty_iff.mpr hrange)]
    show (entries.any fun s => s == deps.ipToString ip) = true ↔ _
    have hmem : (entries.any fun s => s == deps.ipToString ip) = true ↔
        deps.ipToString ip ∈ entries := by
      simp [List.any_eq_true]
    rw [hmem]
    exact Iff.intro (fun h => Or.inr ⟨hrange, h⟩)
      (fun h => (h.resolve_left (fun hin => hrange hin.hasRange)).2)

/-- `not_in` is the negation. -/
theorem evaluateCondition_not_in_iff (entries : List String) :
    evaluateCondition deps (clientIpLeaf "not_in" entries) ctx = true ↔
      ¬ evaluateCondition deps (clientIpLeaf "in" entries) ctx = true := by
  have hnegated : evaluateCondition deps (clientIpLeaf "not_in" entries) ctx =
      !evaluateCondition deps (clientIpLeaf "in" entries) ctx :=
    matchIpCondition_negated (clientIpLeaf "in" entries) deps
      (show OperatorPair.membership ∈ documentedPairs .clientIp by decide) ctx.clientIp
  rw [hnegated, Bool.not_eq_true', Bool.not_eq_true]

/-- Membership in a list is entry by entry exactly if the address, where it is an
entry, is seen by the mode of the list. -/
theorem entryByEntry_iff (hround : ∀ ip : deps.Ip, deps.parseIp (deps.ipToString ip) = some ip)
    (hclient : deps.parseIp ctx.clientIp = some ip) (entries : List String) :
    EntryByEntry deps ctx ip entries ↔ (IsListed deps ip entries →
      InRange deps ip entries ∨ (¬ HasRange deps entries ∧ deps.ipToString ip ∈ entries)) := by
  unfold EntryByEntry
  rw [evaluateCondition_not_in_iff, and_iff_left_of_imp not_congr,
    evaluateCondition_in_iff hclient, exists_entryMatches_iff]
  refine Iff.intro (fun h hlisted => h.mpr (Or.inr hlisted)) (fun h => Iff.intro (fun hin => ?_) ?_)
  · -- the printed address is a spelling of the address
    refine hin.imp_right fun htext => ?_
    exact ⟨deps.ipToString ip, htext.2, hround ip⟩
  · rintro (hin | hlisted)
    · exact Or.inl hin
    · exact h hlisted

/-- Two lists are independent unless just one of them has a range, and the address is
only in the other. -/
theorem independent_iff (hclient : deps.parseIp ctx.clientIp = some ip) (xs ys : List String) :
    Independent deps ctx xs ys ↔
      (HasRange deps xs → ¬ HasRange deps ys → deps.ipToString ip ∈ ys → InRange deps ip xs) ∧
      (HasRange deps ys → ¬ HasRange deps xs → deps.ipToString ip ∈ xs → InRange deps ip ys) := by
  unfold Independent
  rw [evaluateCondition_in_iff hclient, evaluateCondition_in_iff hclient,
    evaluateCondition_in_iff hclient, inRange_append, hasRange_append, List.mem_append]
  -- what is left is about which of the lists have a range; no other holds the address in one
  by_cases hx : HasRange deps xs
  · by_cases hy : HasRange deps ys
    · simp [hx, hy]
    · have hys : ¬ InRange deps ip ys := mt InRange.hasRange hy
      simp [hx, hy, hys]
  · have hxs : ¬ InRange deps ip xs := mt InRange.hasRange hx
    by_cases hy : HasRange deps ys
    · simp [hx, hy, hxs]
    · have hys : ¬ InRange deps ip ys := mt InRange.hasRange hy
      simp [hx, hy, hxs, hys]

/-- **Membership over a list, exactly**: entry by entry, unless the client's address is
an entry that the list's mode drops; and two lists are matched independently, unless
just one of them has a range. -/
theorem evaluateCondition_client_ip_iff
    (hround : ∀ ip : deps.Ip, deps.parseIp (deps.ipToString ip) = some ip)
    (hclient : deps.parseIp ctx.clientIp = some ip) :
    (∀ entries, EntryByEntry deps ctx ip entries ↔ (IsListed deps ip entries →
      InRange deps ip entries ∨ (¬ HasRange deps entries ∧ deps.ipToString ip ∈ entries))) ∧
    (∀ xs ys, Independent deps ctx xs ys ↔
      (HasRange deps xs → ¬ HasRange deps ys → deps.ipToString ip ∈ ys → InRange deps ip xs) ∧
      (HasRange deps ys → ¬ HasRange deps xs → deps.ipToString ip ∈ xs → InRange deps ip ys)) :=
  ⟨entryByEntry_iff hround hclient, independent_iff hclient⟩

end

/-! ## §3. A range that hides an address. -/

/-- The addresses of a small network. -/
inductive LanIp where
  | printer
  | laptop
  | loopback
  deriving DecidableEq

/-- Functions that know three addresses, one of them in two spellings, and the range of
one of them. -/
def lan : Externals where
  Ip := LanIp
  decEqIp := inferInstance
  parseIp s :=
    if s = "192.168.1.5" then some .printer
    else if s = "10.0.0.7" then some .laptop
    else if s = "::1" ∨ s = "0:0:0:0:0:0:0:1" then some .loopback
    else none
  ipToString
    | .printer => "192.168.1.5"
    | .laptop => "10.0.0.7"
    | .loopback => "::1"
  Net := Unit
  parseNet s := if s = "10.0.0.0/8" then some () else none
  netContains _ ip := ip = .laptop
  jsonFromSlice _ := .error ""
  jsonToVec _ := none
  jsonToString _ := ""
  uriTarget _ := none

/-- A request of one of them. -/
def lanRequest (clientIp : String) : EvaluationContext where
  path := "/images/json"
  method := "GET"
  clientIp := clientIp

/-- The laptop is in the range, beside which another address is listed. -/
theorem evaluateCondition_client_ip_laptop :
    EntryByEntry lan (lanRequest "10.0.0.7") .laptop ["192.168.1.5", "10.0.0.0/8"] := by
  refine ((@evaluateCondition_client_ip_iff lan (lanRequest "10.0.0.7") .laptop
    (fun ip => by cases ip <;> decide +kernel) (by decide +kernel)).1 _).mpr fun _ => Or.inl ?_
  exact ⟨"10.0.0.0/8", by simp, (), rfl, rfl⟩

/-- **A range that hides an address**: the printer is in the list of itself, and not in
the one with a range after it; and an address in another spelling is in no list. -/
theorem evaluateCondition_client_ip_hidden :
    evaluateCondition lan (clientIpLeaf "in" ["192.168.1.5"]) (lanRequest "192.168.1.5") = true ∧
    evaluateCondition lan (clientIpLeaf "in" ["192.168.1.5", "10.0.0.0/8"])
      (lanRequest "192.168.1.5") = false ∧
    ¬ EntryByEntry lan (lanRequest "192.168.1.5") .printer ["192.168.1.5", "10.0.0.0/8"] ∧
    ¬ EntryByEntry lan (lanRequest "::1") .loopback ["0:0:0:0:0:0:0:1"] := by
  refine ⟨by decide +kernel, by decide +kernel, fun h => ?_, fun h => ?_⟩
  · have hin := h.1.mpr ⟨"192.168.1.5", by simp, Or.inr (by decide +kernel)⟩
    exact absurd hin (by decide +kernel)
  · have hin := h.1.mpr ⟨"0:0:0:0:0:0:0:1", by simp, Or.inr (by decide +kernel)⟩
    exact absurd hin (by decide +kernel)

end DockerProxy.Rules
