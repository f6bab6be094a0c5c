/-
  DockerProxy.Path.Canonicalize — the request-path pipeline of `main.rs`.

  `canonicalizePath` is what `handle` runs on the raw request path before any
  rule is evaluated: percent-decode once, reject control bytes and invalid
  UTF-8, strip one `/v<digits and dots>` prefix, drop empty and `.` segments,
  let `..` delete the previous segment, restore one trailing slash.

  Bytes are `UInt8` lists and text is a list of Unicode scalar values, so a
  Rust `&str` is a `String` at the boundary and its bytes are `asBytes`.
-/
import DockerProxy.Lib.Text

namespace DockerProxy.Path

open DockerProxy.Lib

/-! ## §1. The stages. -/

/-- `MAX_PATH_LEN`, in bytes. -/
def maxPathLen : Nat := 8192

/-- The byte `%`. -/
def percentByte : UInt8 := 0x25

/-- `(b as char).to_digit(16)`. -/
def toDigit16 (b : UInt8) : Option Nat :=
  let n := b.toNat
  if 0x30 ≤ n ∧ n ≤ 0x39 then some (n - 0x30)
  else if 0x61 ≤ n ∧ n ≤ 0x66 then some (n - 0x61 + 10)
  else if 0x41 ≤ n ∧ n ≤ 0x46 then some (n - 0x41 + 10)
  else none

/-- `percent_decode`: a `%` must be followed by two hex digits, and the three
bytes become one; every other byte stands for itself. -/
def percentDecode : List UInt8 → Option (List UInt8)
  | [] => some []
  | b :: rest =>
      if b = percentByte then
        match rest with
        | h :: l :: rest =>
            match toDigit16 h, toDigit16 l with
            | some h, some l => (percentDecode rest).map (UInt8.ofNat (h * 16 + l) :: ·)
            | _, _ => none
        | _ => none
      else (percentDecode rest).map (b :: ·)

/-- The control bytes rejected in paths and in query strings. -/
def isControlByte (b : UInt8) : Bool := b == 0 || b < 0x20 || b == 0x7f

/-- `version_part` is non-empty, is not `.`, and has only digits and dots. -/
def isVersionPart (versionPart : List Char) : Bool :=
  !versionPart.isEmpty && versionPart != ['.']
    && versionPart.all (fun c => c.isDigit || c == '.')

/-- `strip_api_version_prefix`: drop `/v<version>` when a `/` follows it. -/
def stripApiVersionPrefix (path : List Char) : List Char :=
  if !(['/', 'v'].isPrefixOf path) || (utf8 path).length < 3 then path
  else
    match (path.drop 2).findIdx? (· == '/') with
    | some secondSlash =>
        let versionPart := (path.drop 2).take secondSlash
        if isVersionPart versionPart then path.drop (2 + secondSlash) else path
    | none => path

/-- One turn of the segment loop: `""` and `.` do nothing, `..` pops, a name is
pushed. -/
def pushSegment (segments : List (List Char)) (seg : List Char) : List (List Char) :=
  match seg with
  | [] => segments
  | ['.'] => segments
  | ['.', '.'] => segments.dropLast
  | s => segments ++ [s]

/-- The second half of `canonicalize_path`: resolve the segments of the decoded,
version-stripped path and put them together again. -/
def normalizePath (decoded : List Char) : List Char :=
  let trailingSlash := decide (1 < (utf8 decoded).length) && decoded.getLast? == some '/'
  let segments := (decoded.splitOn '/').foldl pushSegment []
  let out := '/' :: ['/'].intercalate segments
  if trailingSlash && decide (1 < (utf8 out).length) then out ++ ['/'] else out

/-- `canonicalize_path`: the path the rules are evaluated on, or `none` for a
request that is answered 400. -/
def canonicalizePath (raw : String) : Option String :=
  if raw.toList.isEmpty || !(['/'].isPrefixOf raw.toList) then none
  else if maxPathLen < raw.utf8ByteSize then none
  else
    (percentDecode (asBytes raw)).bind fun decodedBytes =>
      if decodedBytes.any isControlByte then none
      else
        (fromUtf8 decodedBytes).map fun decoded =>
          String.ofList (normalizePath (stripApiVersionPrefix decoded.toList))

/-- `handle` refuses a query that is too long or holds a control byte. -/
def queryAccepted (rawQuery : Option String) : Bool :=
  match rawQuery with
  | some q => !(decide (maxPathLen < q.utf8ByteSize) || (asBytes q).any isControlByte)
  | none => true

/-- `canonical_path_and_query`: the request target sent to Docker. -/
def canonicalPathAndQuery (canonicalPath : String) (rawQuery : Option String) : String :=
  match rawQuery with
  | some q => canonicalPath ++ "?" ++ q
  | none => canonicalPath

/-! ## §2. Percent-decoding, byte by byte. -/

@[simp] theorem percentDecode_nil : percentDecode [] = some [] := rfl

theorem percentDecode_cons_of_ne {b : UInt8} (hb : b ≠ percentByte) (rest : List UInt8) :
    percentDecode (b :: rest) = (percentDecode rest).map (b :: ·) := by
  rw [percentDecode.eq_def]
  exact if_neg hb

theorem percentDecode_escape (h l : UInt8) (rest : List UInt8) :
    percentDecode (percentByte :: h :: l :: rest) =
      (toDigit16 h).bind fun h =>
        (toDigit16 l).bind fun l =>
          (percentDecode rest).map (UInt8.ofNat (h * 16 + l) :: ·) := by
  rw [percentDecode.eq_def]
  simp only [if_true]
  cases toDigit16 h <;> cases toDigit16 l <;> rfl

/-- **What a successful decoding did first.** -/
theorem percentDecode_cons_cases {b : UInt8} {rest out : List UInt8}
    (hd : percentDecode (b :: rest) = some out) :
    (b ≠ percentByte ∧ ∃ out', percentDecode rest = some out' ∧ out = b :: out') ∨
    (b = percentByte ∧ ∃ h l rest' x y out', rest = h :: l :: rest' ∧
      toDigit16 h = some x ∧ toDigit16 l = some y ∧
      percentDecode rest' = some out' ∧ out = UInt8.ofNat (x * 16 + y) :: out') := by
  by_cases hb : b = percentByte
  · subst hb
    right
    refine ⟨rfl, ?_⟩
    match rest, hd with
    | h :: l :: rest', hd =>
        rw [percentDecode_escape] at hd
        simp only [Option.bind_eq_some_iff, Option.map_eq_some_iff] at hd
        obtain ⟨x, hx, y, hy, out', hout, rfl⟩ := hd
        exact ⟨h, l, rest', x, y, out', rfl, hx, hy, hout, rfl⟩
  · rw [percentDecode_cons_of_ne hb, Option.map_eq_some_iff] at hd
    obtain ⟨out', hout, rfl⟩ := hd
    exact Or.inl ⟨hb, out', hout, rfl⟩

/-- A byte that is no hex digit, such as `/`. -/
theorem toDigit16_slash : toDigit16 0x2f = none := by decide

/-- Bytes without `%` decode to themselves. -/
theorem percentDecode_of_not_mem (bs : List UInt8) (h : percentByte ∉ bs) :
    percentDecode bs = some bs := by
  induction bs with
  | nil => rfl
  | cons b bs ih =>
      simp only [List.mem_cons, not_or] at h
      rw [percentDecode_cons_of_ne (Ne.symm h.1), ih h.2]
      rfl

/-- Decoding never lengthens, and shortens whenever there is a `%`. -/
theorem percentDecode_length :
    ∀ (bs out : List UInt8), percentDecode bs = some out →
      out.length ≤ bs.length ∧ (percentByte ∈ bs → out.length < bs.length)
  | [], out, h => by
      simp only [percentDecode_nil, Option.some.injEq] at h
      subst h
      simp
  | b :: rest, out, h => by
      rcases percentDecode_cons_cases h with ⟨hb, out', hout, rfl⟩ |
        ⟨-, x, y, rest', _, _, out', rfl, -, -, hout, rfl⟩
      · obtain ⟨hle, hlt⟩ := percentDecode_length rest out' hout
        simp only [List.length_cons, List.mem_cons]
        refine ⟨by omega, fun hm => ?_⟩
        have := hlt (hm.resolve_left (Ne.symm hb))
        omega
      · obtain ⟨hle, -⟩ := percentDecode_length rest' out' hout
        simp only [List.length_cons]
        omega

/-- Only no bytes decode to no bytes. -/
theorem percentDecode_eq_nil {bs : List UInt8} (h : percentDecode bs = some []) : bs = [] := by
  cases bs with
  | nil => rfl
  | cons b rest =>
      rcases percentDecode_cons_cases h with ⟨-, out', -, hout⟩ |
        ⟨-, _, _, _, _, _, out', -, -, -, -, hout⟩
      · exact absurd hout (by simp)
      · exact absurd hout (by simp)

/-- Decoding commutes with appending to a string that decodes. -/
theorem percentDecode_append :
    ∀ (bs out cs : List UInt8), percentDecode bs = some out →
      percentDecode (bs ++ cs) = (percentDecode cs).map (out ++ ·)
  | [], out, cs, h => by
      simp only [percentDecode_nil, Option.some.injEq] at h
      subst h
      simp
  | b :: rest, out, cs, h => by
      rcases percentDecode_cons_cases h with ⟨hb, out', hout, rfl⟩ |
        ⟨rfl, x, y, rest', u, v, out', rfl, hx, hy, hout, rfl⟩
      · rw [List.cons_append, percentDecode_cons_of_ne hb,
          percentDecode_append rest out' cs hout, Option.map_map]
        rfl
      · rw [List.cons_append, List.cons_append, List.cons_append, percentDecode_escape, hx, hy]
        simp only [Option.bind_some]
        rw [percentDecode_append rest' out' cs hout, Option.map_map]
        rfl

/-- **A literal `/` cuts the decoding**: it is never part of an escape. -/
theorem percentDecode_cut :
    ∀ (bs cs out : List UInt8), percentDecode (bs ++ 0x2f :: cs) = some out →
      ∃ xs ys, percentDecode bs = some xs ∧ percentDecode cs = some ys ∧ out = xs ++ 0x2f :: ys
  | [], cs, out, h => by
      rw [List.nil_append, percentDecode_cons_of_ne (by decide), Option.map_eq_some_iff] at h
      obtain ⟨ys, hys, rfl⟩ := h
      exact ⟨[], ys, rfl, hys, rfl⟩
  | b :: rest, cs, out, h => by
      rw [List.cons_append] at h
      rcases percentDecode_cons_cases h with ⟨hb, out', hout, rfl⟩ |
        ⟨rfl, x, y, rest', u, v, out', hrest, hx, hy, hout, rfl⟩
      · obtain ⟨xs, ys, hxs, hys, rfl⟩ := percentDecode_cut rest cs out' hout
        exact ⟨b :: xs, ys, by rw [percentDecode_cons_of_ne hb, hxs]; rfl, hys, rfl⟩
      · -- the two digits of the escape come before the slash
        match rest, hrest with
        | [], hrest =>
            simp only [List.nil_append, List.cons.injEq] at hrest
            rw [← hrest.1, toDigit16_slash] at hx
            exact absurd hx (by simp)
        | [d], hrest =>
            simp only [List.cons_append, List.nil_append, List.cons.injEq] at hrest
            rw [← hrest.2.1, toDigit16_slash] at hy
            exact absurd hy (by simp)
        | d :: e :: rest, hrest =>
            simp only [List.cons_append, List.cons.injEq] at hrest
            obtain ⟨rfl, rfl, rfl⟩ := hrest
            obtain ⟨xs, ys, hxs, hys, rfl⟩ := percentDecode_cut rest cs out' hout
            refine ⟨UInt8.ofNat (u * 16 + v) :: xs, ys, ?_, hys, rfl⟩
            rw [percentDecode_escape, hx, hy, hxs]
            rfl

/-! ## §3. The version prefix. -/

theorem isVersionPart_no_slash {v : List Char} (h : isVersionPart v = true) : '/' ∉ v := by
  intro hs
  simp only [isVersionPart, Bool.and_eq_true, List.all_eq_true] at h
  exact absurd (h.2 '/' hs) (by decide)

/-- A version prefix followed by a slash is dropped. -/
theorem stripApiVersionPrefix_of_version {v : List Char} (hv : isVersionPart v = true)
    (rest : List Char) :
    stripApiVersionPrefix ('/' :: 'v' :: (v ++ '/' :: rest)) = '/' :: rest := by
  have hlen : ¬ (utf8 ('/' :: 'v' :: (v ++ '/' :: rest))).length < 3 := by
    rw [show utf8 ('/' :: 'v' :: (v ++ '/' :: rest))
      = [0x2f, 0x76] ++ (utf8 v ++ 0x2f :: utf8 rest) from by simp; rfl]
    simp
    omega
  unfold stripApiVersionPrefix
  rw [if_neg (by simp only [hlen]; simp)]
  simp only [List.drop_succ_cons, List.drop_zero, findIdx?_append_cons (isVersionPart_no_slash hv),
    List.take_left', hv, if_true]
  rw [Nat.add_comm]
  simp

/-- A path that does not start with `/v` is left alone. -/
theorem stripApiVersionPrefix_of_unversioned {path : List Char}
    (hp : ['/', 'v'].isPrefixOf path = false) : stripApiVersionPrefix path = path := by
  unfold stripApiVersionPrefix
  rw [if_pos (by simp [hp])]

/-- A first segment `v…` that is no version is left alone. -/
theorem stripApiVersionPrefix_of_not_version {v : List Char} (hs : '/' ∉ v)
    (hv : isVersionPart v = false) (rest : List Char) :
    stripApiVersionPrefix ('/' :: 'v' :: (v ++ '/' :: rest)) = '/' :: 'v' :: (v ++ '/' :: rest) := by
  unfold stripApiVersionPrefix
  split
  · rfl
  · simp only [List.drop_succ_cons, List.drop_zero, findIdx?_append_cons hs, List.take_left', hv]
    rfl

/-- A single segment has no slash after it, so it is left alone. -/
theorem stripApiVersionPrefix_of_single {t : List Char} (hs : '/' ∉ t) :
    stripApiVersionPrefix ('/' :: 'v' :: t) = '/' :: 'v' :: t := by
  unfold stripApiVersionPrefix
  split
  · rfl
  · simp only [List.drop_succ_cons, List.drop_zero, findIdx?_of_not_mem hs]

/-- **All that stripping can do**: nothing, or drop one version prefix. -/
theorem stripApiVersionPrefix_cases (path : List Char) :
    stripApiVersionPrefix path = path ∨
    ∃ v rest, isVersionPart v = true ∧ path = '/' :: 'v' :: (v ++ '/' :: rest) ∧
      stripApiVersionPrefix path = '/' :: rest := by
  by_cases hp : ['/', 'v'].isPrefixOf path = true
  · obtain ⟨t, ht⟩ := List.isPrefixOf_iff_prefix.mp hp
    have hpath : path = '/' :: 'v' :: t := ht.symm
    rw [hpath]
    by_cases hs : '/' ∈ t
    · obtain ⟨v, rest, hsplit, hv⟩ := List.eq_append_cons_of_mem hs
      rw [hsplit]
      by_cases hver : isVersionPart v = true
      · exact Or.inr ⟨v, rest, hver, rfl, stripApiVersionPrefix_of_version hver rest⟩
      · exact Or.inl (stripApiVersionPrefix_of_not_version hv (by simpa using hver) rest)
    · exact Or.inl (stripApiVersionPrefix_of_single hs)
  · exact Or.inl (stripApiVersionPrefix_of_unversioned ((Bool.not_eq_true _).mp hp))

end DockerProxy.Path
