/-
  DockerProxy.Lib.Text — the operations of Rust's `str` that the program uses.

  A string is its list of Unicode scalar values; positions never appear.
-/
import DockerProxy.Lib.Utf8
import Mathlib.Algebra.Group.Nat.Defs
import Mathlib.Data.List.Infix

namespace DockerProxy.Lib

/-! ## §1. Searching and comparing. -/

/-- `s.starts_with(p)`. -/
def startsWith (s p : String) : Bool := p.toList.isPrefixOf s.toList

/-- `s.ends_with(p)`. -/
def endsWith (s p : String) : Bool := p.toList.isSuffixOf s.toList

/-- `s.contains(p)`. -/
def containsStr (s p : String) : Bool := decide (p.toList <:+: s.toList)

/-- `s.strip_prefix(p)`. -/
def stripPrefix (s p : String) : Option String :=
  if startsWith s p then some (String.ofList (s.toList.drop p.toList.length)) else none

/-- A prefix is stripped exactly from the strings that begin with it. -/
theorem stripPrefix_eq_some {s p t : String} : stripPrefix s p = some t ↔ s = p ++ t := by
  unfold stripPrefix startsWith
  constructor
  · intro h
    split at h
    next hp =>
      injection h with h
      obtain ⟨rest, hrest⟩ := List.isPrefixOf_iff_prefix.mp hp
      rw [← String.toList_inj, String.toList_append, ← h, String.toList_ofList, ← hrest,
        List.drop_left]
    next => exact absurd h (by simp)
  · intro h
    have hlist : s.toList = p.toList ++ t.toList := by rw [h, String.toList_append]
    rw [hlist, if_pos (List.isPrefixOf_iff_prefix.mpr (List.prefix_append _ _)), List.drop_left,
      String.ofList_toList]

/-- `s.strip_suffix(p)`. -/
def stripSuffix (s p : String) : Option String :=
  if endsWith s p then some (String.ofList (s.toList.take (s.toList.length - p.toList.length)))
  else none

/-- `s.eq_ignore_ascii_case(t)`; `Char.toLower` changes ASCII letters only. -/
def eqIgnoreAsciiCase (s t : String) : Bool :=
  s.toList.map Char.toLower == t.toList.map Char.toLower

/-- A character that is not there is not found. -/
theorem findIdx?_of_not_mem {c : Char} {cs : List Char} (h : c ∉ cs) :
    cs.findIdx? (· == c) = none := by
  refine List.findIdx?_eq_none_iff.mpr fun x hx => beq_eq_false_iff_ne.mpr ?_
  rintro rfl
  exact h hx

/-- The first one is found right after the characters before it. -/
theorem findIdx?_append_cons {c : Char} {front : List Char} (h : c ∉ front) (rest : List Char) :
    (front ++ c :: rest).findIdx? (· == c) = some front.length := by
  rw [List.findIdx?_append, findIdx?_of_not_mem h, Option.none_or, List.findIdx?_cons,
    beq_self_eq_true]
  simp

/-! ## §2. Splitting and joining. -/

/-- `s.split(c)`. -/
def splitStr (s : String) (c : Char) : List String := (s.toList.splitOn c).map String.ofList

/-- `parts.join(sep)`. -/
def joinStr (parts : List String) (sep : String) : String := sep.intercalate parts

/-- The pieces of a split have no separator. -/
theorem not_mem_of_mem_splitOn {c : Char} (cs : List Char) : ∀ piece ∈ cs.splitOn c, c ∉ piece := by
  induction cs with
  | nil =>
      intro piece h
      rw [List.splitOn_nil, List.mem_singleton] at h
      rw [h]
      exact List.not_mem_nil
  | cons x xs ih =>
      intro piece h
      rw [List.splitOn_cons_eq_if_modifyHead] at h
      obtain ⟨first, rest, hsplit⟩ := List.exists_cons_of_ne_nil (List.splitOn_ne_nil c xs)
      rw [hsplit] at h ih
      split at h
      next =>
        cases List.mem_cons.mp h with
        | inl h => rw [h]; exact List.not_mem_nil
        | inr h => exact ih piece h
      next hx =>
        cases List.mem_cons.mp h with
        | inl h =>
            rw [h, List.mem_cons, not_or]
            exact ⟨fun hc => hx (beq_iff_eq.mpr hc.symm), ih first List.mem_cons_self⟩
        | inr h => exact ih piece (List.mem_cons_of_mem first h)

theorem splitStr_ne_nil (s : String) (c : Char) : splitStr s c ≠ [] := by
  unfold splitStr
  exact List.map_eq_nil_iff.not.mpr (List.splitOn_ne_nil c _)

/-- The pieces before the last one, and the last one. -/
theorem splitStr_eq_dropLast_append (s : String) (c : Char) :
    splitStr s c = (splitStr s c).dropLast ++ [(splitStr s c).getLastD ""] := by
  have hne := splitStr_ne_nil s c
  rw [List.getLastD_eq_getLast?, List.getLast?_eq_some_getLast hne, Option.getD_some,
    List.dropLast_append_getLast hne]

/-- Joining what was split. -/
theorem joinStr_splitStr {sep : String} {c : Char} (hsep : sep.toList = [c]) (s : String) :
    joinStr (splitStr s c) sep = s := by
  unfold joinStr splitStr
  rw [← String.toList_inj, String.toList_intercalate, hsep, List.map_map]
  have hid : String.toList ∘ String.ofList = id := by
    funext cs
    exact String.toList_ofList
  rw [hid, List.map_id, List.intercalate_splitOn]

/-- **Splitting what was joined** from pieces of a split. -/
theorem splitStr_joinStr {sep : String} {c : Char} (hsep : sep.toList = [c]) {parts : List String}
    (hne : parts ≠ []) {s : String} (hparts : ∀ part ∈ parts, part ∈ splitStr s c) :
    splitStr (joinStr parts sep) c = parts := by
  have hfree : ∀ piece ∈ parts.map String.toList, c ∉ piece := by
    intro piece hpiece
    obtain ⟨part, hpart, rfl⟩ := List.mem_map.mp hpiece
    obtain ⟨cs, hcs, rfl⟩ := List.mem_map.mp (hparts part hpart)
    rw [String.toList_ofList]
    exact not_mem_of_mem_splitOn s.toList cs hcs
  unfold joinStr splitStr
  rw [String.toList_intercalate, hsep, List.splitOn_intercalate c hfree
    (List.map_eq_nil_iff.not.mpr hne), List.map_map]
  have hid : String.ofList ∘ String.toList = id := by
    funext t
    exact String.ofList_toList
  rw [hid, List.map_id]

/-- Splitting what was joined with a separator that begins with the character: what
follows it in the separator goes to the next piece. -/
theorem splitOn_intercalate_cons {c : Char} {pad : List Char} (hpad : c ∉ pad)
    {rest : List (List Char)} (hrest : ∀ piece ∈ rest, c ∉ piece) :
    ∀ first, c ∉ first →
      ((c :: pad).intercalate (first :: rest)).splitOn c = first :: rest.map (pad ++ ·) := by
  induction rest with
  | nil =>
      intro first hfirst
      rw [List.intercalate_singleton, List.splitOn_eq_singleton hfirst, List.map_nil]
  | cons next rest ih =>
      intro first hfirst
      have hnext : c ∉ pad ++ next := by
        rw [List.mem_append, not_or]
        exact ⟨hpad, hrest next List.mem_cons_self⟩
      -- the padding moves into the next piece, and the induction is over that one
      have hmove : pad ++ (c :: pad).intercalate (next :: rest) =
          (c :: pad).intercalate ((pad ++ next) :: rest) := by
        cases rest with
        | nil => rw [List.intercalate_singleton, List.intercalate_singleton]
        | cons other rest =>
            rw [List.intercalate_cons_cons, List.intercalate_cons_cons]
            simp only [List.append_assoc]
      rw [List.intercalate_cons_cons, List.append_assoc, List.cons_append, hmove,
        List.splitOn_append_cons_self_of_not_mem hfirst,
        ih (fun piece hpiece => hrest piece (List.mem_cons_of_mem next hpiece)) _ hnext,
        List.map_cons]

/-- `char::is_whitespace`: the Unicode property White_Space. -/
def isWhitespace (c : Char) : Bool :=
  let n := c.toNat
  (0x09 ≤ n && n ≤ 0x0d) || n == 0x20 || n == 0x85 || n == 0xa0 || n == 0x1680
    || (0x2000 ≤ n && n ≤ 0x200a) || n == 0x2028 || n == 0x2029 || n == 0x202f || n == 0x205f
    || n == 0x3000

/-- Drop the characters that satisfy `p` at both ends: `trim_matches`. -/
def trimMatches (s : String) (p : Char → Bool) : String :=
  String.ofList (((s.toList.dropWhile p).reverse.dropWhile p).reverse)

/-- `s.trim()`. -/
def trim (s : String) : String := trimMatches s isWhitespace

/-- Only what stands in front is trimmed off a text that has nothing to trim. -/
theorem trimMatches_append {p : Char → Bool} {pad s : String}
    (hpad : ∀ c ∈ pad.toList, p c = true) (hs : ∀ c ∈ s.toList, p c = false) :
    trimMatches (pad ++ s) p = s := by
  have hkeep : ∀ cs : List Char, (∀ c ∈ cs, p c = false) → cs.dropWhile p = cs := by
    intro cs hcs
    cases cs with
    | nil => rfl
    | cons c cs => exact List.dropWhile_cons_of_neg (by simp [hcs c List.mem_cons_self])
  unfold trimMatches
  rw [String.toList_append, List.dropWhile_append_of_pos hpad, hkeep _ hs,
    hkeep _ (fun c hc => hs c (List.mem_reverse.mp hc)), List.reverse_reverse, String.ofList_toList]

theorem trimMatches_eq_self {p : Char → Bool} {s : String} (hs : ∀ c ∈ s.toList, p c = false) :
    trimMatches s p = s := by
  have hpad : ∀ c ∈ "".toList, p c = true := by simp
  have h := trimMatches_append hpad hs
  rwa [String.empty_append] at h

/-! ## §3. Numbers. -/

/-- The value of decimal digits, most significant first. -/
def digitsValue : List Char → Option Nat :=
  List.foldl (fun acc c => acc.bind fun n => if c.isDigit then some (n * 10 + (c.toNat - 48)) else none)
    (some 0)

/-- `s.parse::<usize>()` on a 64-bit target: one optional `+`, at least one
digit, and no overflow. -/
def parseUsize (s : String) : Option Nat :=
  let digits := match s.toList with
    | '+' :: rest => rest
    | cs => cs
  if digits.isEmpty then none
  else (digitsValue digits).filter fun n => decide (n < 2 ^ 64)

end DockerProxy.Lib
