/-
  DockerProxy.Path.Reading — what a canonical path IS, and that the pipeline
  computes it.

  `CanonicalPath` is a path as a value: its segments, none of which is empty,
  `.`, `..` or holds a slash, and whether a trailing slash follows them.  The
  string pipeline of `Canonicalize` factors through it:

      canonicalizePath raw = (decodedText raw).map (render ∘ readPath ∘ strip)

  and `readPath` is the exact inverse of `render` (`readPath_render`), so two
  accepted paths have the same spelling exactly when they have the same reading.
-/
import DockerProxy.Lib.DotSegments
import DockerProxy.Lib.Text
import DockerProxy.Path.Canonicalize
import Mathlib.Algebra.Order.BigOperators.Group.List
import Mathlib.Algebra.Order.Group.Nat
import Mathlib.Algebra.Ring.Nat

namespace DockerProxy.Path

open DockerProxy.Lib

/-! ## §1. Canonical paths. -/

/-- A segment that canonicalization can keep. -/
def CleanSegment (s : List Char) : Prop :=
  s ≠ [] ∧ s ≠ ['.'] ∧ s ≠ ['.', '.'] ∧ '/' ∉ s

/-- How the segment loop treats a segment. -/
def segmentKind : List Char → SegmentKind
  | [] => .skip
  | ['.'] => .skip
  | ['.', '.'] => .up
  | _ => .name

/-- **A canonical path**: clean segments, and a trailing slash only after one. -/
structure CanonicalPath where
  segments : List (List Char)
  trailingSlash : Bool
  clean : ∀ s ∈ segments, CleanSegment s
  rooted : segments = [] → trailingSlash = false

namespace CanonicalPath

/-- The spelling of a canonical path. -/
def render (p : CanonicalPath) : List Char :=
  '/' :: (['/'].intercalate p.segments ++ if p.trailingSlash then ['/'] else [])

/-- Does the spelling start with a `/v<version>` prefix and a slash? -/
def versioned (p : CanonicalPath) : Bool :=
  match p.segments with
  | ('v' :: v) :: rest => isVersionPart v && (!rest.isEmpty || p.trailingSlash)
  | _ => false

/-- Equal segments and equal trailing slashes make equal paths. -/
theorem ext {p q : CanonicalPath} (hs : p.segments = q.segments)
    (ht : p.trailingSlash = q.trailingSlash) : p = q := by
  cases p
  cases q
  simp only at hs ht
  subst hs
  subst ht
  rfl

end CanonicalPath

/-! ## §2. Reading a path. -/

theorem pushSegment_eq (segments : List (List Char)) (seg : List Char) :
    pushSegment segments seg = resolveStep segmentKind segments seg := by
  unfold pushSegment resolveStep segmentKind
  split <;> simp_all

theorem segmentKind_name {s : List Char} (h : CleanSegment s) : segmentKind s = .name := by
  obtain ⟨h0, h1, h2, -⟩ := h
  unfold segmentKind
  split <;> first | rfl | exact absurd rfl ‹_›

/-- A name between slashes is a clean segment. -/
theorem cleanSegment_of_name {s : List Char} (hk : segmentKind s = .name) (hs : '/' ∉ s) :
    CleanSegment s := by
  refine ⟨?_, ?_, ?_, hs⟩ <;> rintro rfl <;> simp [segmentKind] at hk

/-- A leading slash splits an empty piece off. -/
theorem splitOn_slash (d : List Char) : ('/' :: d).splitOn '/' = [] :: d.splitOn '/' := by
  rw [List.splitOn_cons_eq_if_modifyHead]
  simp

/-- The segments of a path that survive: the names that no later `..` removes. -/
def keptSegments (decoded : List Char) : List (List Char) :=
  survivors segmentKind (decoded.splitOn '/')

theorem keptSegments_eq (decoded : List Char) :
    keptSegments decoded = resolveFrom segmentKind [] (decoded.splitOn '/') :=
  (resolveFrom_eq_survivors segmentKind _).symm

/-- The empty piece before a leading slash is skipped. -/
theorem keptSegments_slash (d : List Char) :
    keptSegments ('/' :: d) = resolveFrom segmentKind [] (d.splitOn '/') := by
  rw [keptSegments_eq, splitOn_slash]
  rfl

theorem keptSegments_clean (decoded : List Char) :
    ∀ s ∈ keptSegments decoded, CleanSegment s := by
  intro s hs
  rw [keptSegments_eq] at hs
  rcases mem_resolveFrom segmentKind _ [] s hs with h | ⟨h, hk⟩
  · exact absurd h (by simp)
  · exact cleanSegment_of_name hk (not_mem_of_mem_splitOn decoded s h)

/-- **The reading of a path**: its kept segments, and its trailing slash. -/
def readPath (decoded : List Char) : CanonicalPath where
  segments := keptSegments decoded
  trailingSlash := decoded.getLast? == some '/' && !(keptSegments decoded).isEmpty
  clean := keptSegments_clean decoded
  rooted := by
    intro h
    simp [h]

/-- A reading is made of the kept segments and the last character. -/
theorem readPath_congr {d d' : List Char} (hsegs : keptSegments d = keptSegments d')
    (hlast : d.getLast? = d'.getLast?) : readPath d = readPath d' := by
  refine CanonicalPath.ext hsegs ?_
  show (d.getLast? == some '/' && !(keptSegments d).isEmpty) =
    (d'.getLast? == some '/' && !(keptSegments d').isEmpty)
  rw [hsegs, hlast]

/-! ## §3. The string pipeline computes the reading. -/

theorem length_utf8_pos {cs : List Char} (h : cs ≠ []) : 0 < (utf8 cs).length := by
  cases cs with
  | nil => exact absurd rfl h
  | cons c cs =>
      have := c.utf8Size_pos
      simp only [utf8_cons, List.length_append, String.length_utf8EncodeChar]
      omega

/-- A path that keeps a segment and ends in a slash is longer than one byte. -/
theorem one_lt_length_of_kept {d : List Char} (hlast : d.getLast? = some '/')
    (hk : keptSegments d ≠ []) : 1 < (utf8 d).length := by
  obtain ⟨e, rfl⟩ := List.getLast?_eq_some_iff.mp hlast
  cases e with
  | nil => exact absurd rfl hk
  | cons c e =>
      have hpos := @length_utf8_pos (c :: e) (by simp)
      have hslash : (utf8 ['/']).length = 1 := rfl
      rw [utf8_append, List.length_append, hslash]
      omega

/-- The joined segments are empty only when there are none. -/
theorem intercalate_clean_eq_nil {ls : List (List Char)} (h : ∀ s ∈ ls, CleanSegment s) :
    ['/'].intercalate ls = [] ↔ ls = [] := by
  constructor
  · intro hi
    cases ls with
    | nil => rfl
    | cons s ls =>
        have hs : s ≠ [] := (h s List.mem_cons_self).1
        cases ls with
        | nil => exact absurd (by simpa using hi) hs
        | cons t ls => simp at hi
  · intro hl
    rw [hl]
    rfl

/-- **`normalizePath` spells the reading.** -/
theorem normalizePath_eq_render (d : List Char) : normalizePath d = (readPath d).render := by
  have hfold : (d.splitOn '/').foldl pushSegment [] = keptSegments d := by
    have hfun : pushSegment = resolveStep segmentKind := by
      funext segments seg
      exact pushSegment_eq segments seg
    rw [hfun, keptSegments_eq]
    rfl
  unfold normalizePath CanonicalPath.render
  simp only [hfold]
  show _ = '/' :: (['/'].intercalate (keptSegments d) ++ _)
  -- the two length tests of the source only say that some segment was kept
  by_cases hk : keptSegments d = []
  · have hout : (utf8 ('/' :: ['/'].intercalate (keptSegments d))).length = 1 := by rw [hk]; rfl
    rw [hout]
    simp [readPath, hk]
  · have hi := mt (intercalate_clean_eq_nil (keptSegments_clean d)).mp hk
    have hpos := length_utf8_pos hi
    have hout : 1 < (utf8 ('/' :: ['/'].intercalate (keptSegments d))).length := by
      have hslash : String.utf8EncodeChar '/' = [0x2f] := rfl
      rw [utf8_cons, hslash, List.length_append, List.length_singleton]
      omega
    by_cases hlast : d.getLast? = some '/'
    · have hlen := one_lt_length_of_kept hlast hk
      have ht : (readPath d).trailingSlash = true := by simp [readPath, hk, hlast]
      rw [ht, if_pos rfl, if_pos (by simp only [hlen, hlast, hout]; decide)]
      rfl
    · simp [readPath, hlast]

/-- The text that the version stripping and the segment loop work on. -/
def decodedText (raw : String) : Option (List Char) :=
  if raw.toList.isEmpty || !(['/'].isPrefixOf raw.toList) then none
  else if maxPathLen < raw.utf8ByteSize then none
  else
    (percentDecode (asBytes raw)).bind fun decodedBytes =>
      if decodedBytes.any isControlByte then none
      else (fromUtf8 decodedBytes).map String.toList

/-- The canonical path of a raw path, as a value. -/
def canonicalReading (raw : String) : Option CanonicalPath :=
  (decodedText raw).map fun d => readPath (stripApiVersionPrefix d)

/-- **`canonicalizePath` spells the canonical reading.** -/
theorem canonicalizePath_eq (raw : String) :
    canonicalizePath raw = (canonicalReading raw).map fun p => String.ofList p.render := by
  unfold canonicalizePath canonicalReading decodedText
  split
  · rfl
  · split
    · rfl
    · cases percentDecode (asBytes raw) with
      | none => rfl
      | some bytes =>
          simp only [Option.bind_some]
          split
          · rfl
          · rw [Option.map_map, Option.map_map]
            refine Option.map_congr fun s _ => ?_
            rw [Function.comp_apply, normalizePath_eq_render]
            rfl

/-- The first test of the source asks for a leading slash. -/
theorem leadingSlash_iff (cs : List Char) :
    (cs.isEmpty || !(['/'].isPrefixOf cs)) = false ↔ ∃ t, cs = '/' :: t := by
  cases cs with
  | nil => simp
  | cons c t =>
      constructor
      · intro h
        have hc : ('/' == c) = true := by simpa [List.isPrefixOf] using h
        exact ⟨t, by rw [← beq_iff_eq.mp hc]⟩
      · rintro ⟨u, hu⟩
        injection hu with hc
        rw [hc]
        rfl

/-- **What it takes to be decoded.** -/
theorem decodedText_eq_some {raw : String} {d : List Char} :
    decodedText raw = some d ↔
      (∃ t, raw.toList = '/' :: t) ∧ raw.utf8ByteSize ≤ maxPathLen ∧
      percentDecode (asBytes raw) = some (utf8 d) ∧ ∀ b ∈ utf8 d, isControlByte b = false := by
  have hstart := leadingSlash_iff raw.toList
  unfold decodedText
  constructor
  · intro h
    split at h
    · exact absurd h (by simp)
    next h0 =>
      split at h
      · exact absurd h (by simp)
      next h1 =>
        simp only [Option.bind_eq_some_iff] at h
        obtain ⟨bytes, hbytes, h⟩ := h
        split at h
        · exact absurd h (by simp)
        next hctl =>
          simp only [Option.map_eq_some_iff] at h
          obtain ⟨s, hs, hd⟩ := h
          have hb : utf8 d = bytes := by
            rw [← hd]
            exact fromUtf8_eq_some.mp hs
          refine ⟨hstart.mp ((Bool.not_eq_true _).mp h0), by omega, by rw [hbytes, hb], ?_⟩
          intro b hmem
          rw [hb] at hmem
          exact Bool.eq_false_iff.mpr (fun hc => hctl (List.any_eq_true.mpr ⟨b, hmem, hc⟩))
  · rintro ⟨h0, h1, h2, h3⟩
    rw [hstart.mpr h0, if_neg (by simp), if_neg (by omega), h2]
    simp only [Option.bind_some]
    have hctl : ¬ (utf8 d).any isControlByte = true := by
      intro hany
      obtain ⟨b, hmem, hc⟩ := List.any_eq_true.mp hany
      rw [h3 b hmem] at hc
      exact absurd hc (by simp)
    rw [if_neg hctl]
    have hs : fromUtf8 (utf8 d) = some (String.ofList d) :=
      fromUtf8_eq_some.mpr (asBytes_ofList d)
    rw [hs]
    simp

/-- A decoded path still starts with its slash. -/
theorem decodedText_slash {raw : String} {d : List Char} (h : decodedText raw = some d) :
    ∃ t, d = '/' :: t := by
  obtain ⟨⟨t, ht⟩, -, hdec, -⟩ := decodedText_eq_some.mp h
  have hraw : asBytes raw = [] ++ 0x2f :: utf8 t := by
    unfold asBytes
    rw [ht]
    rfl
  rw [hraw] at hdec
  obtain ⟨xs, ys, hxs, -, hd⟩ := percentDecode_cut [] (utf8 t) (utf8 d) hdec
  simp only [percentDecode_nil, Option.some.injEq] at hxs
  rw [← hxs] at hd
  obtain ⟨us, vs, hcs, hus, -⟩ := utf8_eq_append_cons (d := '/') (by decide) d [] ys hd
  have hnil : us = [] := utf8_inj (by rw [hus]; rfl)
  exact ⟨vs, by rw [hcs, hnil]; rfl⟩

/-! ## §4. `readPath` inverts `render`. -/

theorem splitOn_render (p : CanonicalPath) :
    ∃ pad, p.render.splitOn '/' = [] :: (p.segments ++ pad) ∧
      (∀ s ∈ pad, s = []) ∧ (p.trailingSlash = false → p.segments ≠ [] → pad = []) := by
  have hclean : ∀ s ∈ p.segments, '/' ∉ s := fun s hs => (p.clean s hs).2.2.2
  unfold CanonicalPath.render
  rw [splitOn_slash]
  by_cases hseg : p.segments = []
  · refine ⟨[[]], ?_, by simp, fun _ hne => absurd hseg hne⟩
    rw [hseg, p.rooted hseg]
    rfl
  · have hsplit := List.splitOn_intercalate '/' hclean hseg
    cases ht : p.trailingSlash with
    | false =>
        refine ⟨[], ?_, by simp, fun _ _ => rfl⟩
        simp [hsplit]
    | true =>
        refine ⟨[[]], ?_, by simp, fun h => absurd h (by simp)⟩
        simp only [if_true]
        rw [List.splitOn_append_cons_self, hsplit]
        rfl

/-- The kept segments of a spelling are the segments it spells. -/
theorem keptSegments_render (p : CanonicalPath) : keptSegments p.render = p.segments := by
  obtain ⟨pad, hsplit, hpad, -⟩ := splitOn_render p
  have hskip : ∀ s ∈ pad, segmentKind s = .skip := by
    intro s hs
    rw [hpad s hs]
    rfl
  have hdrop : ∀ (pad : List (List Char)) (st : List (List Char)),
      (∀ s ∈ pad, segmentKind s = .skip) → resolveFrom segmentKind st pad = st := by
    intro pad
    induction pad with
    | nil => intro st _; rfl
    | cons s pad ih =>
        intro st h
        rw [resolveFrom_cons, show resolveStep segmentKind st s = st from by
          simp [resolveStep, h s List.mem_cons_self]]
        exact ih st (fun u hu => h u (List.mem_cons_of_mem s hu))
  rw [keptSegments_eq, hsplit, resolveFrom_cons, show resolveStep segmentKind [] [] = [] from rfl,
    resolveFrom_append, hdrop pad _ hskip,
    resolveFrom_of_names segmentKind p.segments [] (fun s hs => segmentKind_name (p.clean s hs))]
  rfl

/-- A spelling ends in a slash after a segment only when the path says so. -/
theorem render_getLast (p : CanonicalPath) (hseg : p.segments ≠ []) :
    (p.render.getLast? == some '/') = p.trailingSlash := by
  cases ht : p.trailingSlash with
  | true => simp [CanonicalPath.render, ht, List.getLast?_cons]
  | false =>
      obtain ⟨pad, hsplit, -, hpad⟩ := splitOn_render p
      rw [hpad ht hseg, List.append_nil] at hsplit
      -- a final slash would leave an empty last segment
      by_contra hne
      have hlast : p.render.getLast? = some '/' := by simpa using hne
      obtain ⟨e, he⟩ := List.getLast?_eq_some_iff.mp hlast
      rw [he, List.splitOn_append_cons_self, List.splitOn_nil] at hsplit
      have hmem : ([] : List Char) ∈ p.segments := by
        have hl := congrArg List.getLast? hsplit
        rw [List.getLast?_concat, List.getLast?_cons] at hl
        cases hs : p.segments.getLast? with
        | none => exact absurd (List.getLast?_eq_none_iff.mp hs) hseg
        | some s =>
            rw [hs] at hl
            simp only [Option.getD_some, Option.some.injEq] at hl
            rw [hl]
            exact List.mem_of_getLast? hs
      exact (p.clean [] hmem).1 rfl

/-- **Round trip**: reading a canonical path's spelling gives it back. -/
theorem readPath_render (p : CanonicalPath) : readPath p.render = p := by
  have hk := keptSegments_render p
  refine CanonicalPath.ext hk ?_
  show (p.render.getLast? == some '/' && !(keptSegments p.render).isEmpty) = p.trailingSlash
  rw [hk]
  by_cases hseg : p.segments = []
  · simp [hseg, p.rooted hseg]
  · rw [render_getLast p hseg]
    simp [hseg]

/-- Canonical paths with the same spelling are the same. -/
theorem render_inj {p q : CanonicalPath} (h : p.render = q.render) : p = q := by
  rw [← readPath_render p, h, readPath_render q]

/-- **An accepted path's canonical spelling determines its reading.** -/
theorem canonicalizePath_eq_some {s : String} {r : CanonicalPath} :
    canonicalizePath s = some (String.ofList r.render) ↔ canonicalReading s = some r := by
  rw [canonicalizePath_eq]
  simp only [Option.map_eq_some_iff]
  constructor
  · rintro ⟨r', hr', he⟩
    have hlist : r'.render = r.render := by simpa using congrArg String.toList he
    rw [hr', render_inj hlist]
  · intro hr
    exact ⟨r, hr, rfl⟩

/-! ## §5. Canonicalization never lengthens a path. -/

/-- The bytes of `/s₁/s₂/…/sₙ`. -/
def spellLength (ls : List (List Char)) : Nat := (ls.map fun s => (utf8 s).length + 1).sum

theorem length_utf8_spell (ls : List (List Char)) (h : ls ≠ []) :
    (utf8 ('/' :: ['/'].intercalate ls)).length = spellLength ls := by
  have hslash : String.utf8EncodeChar '/' = [0x2f] := rfl
  induction ls with
  | nil => exact absurd rfl h
  | cons s ls ih =>
      cases ls with
      | nil => simp [spellLength, hslash]
      | cons t ls =>
          have ih := ih (by simp)
          rw [List.intercalate_cons_cons]
          simp only [utf8_cons, utf8_append, utf8_nil, hslash, List.length_append,
            List.length_singleton, List.length_nil] at ih ⊢
          have hsum : spellLength (s :: t :: ls) = (utf8 s).length + 1 + spellLength (t :: ls) := by
            simp [spellLength]
          omega

theorem spellLength_append (ks ls : List (List Char)) :
    spellLength (ks ++ ls) = spellLength ks + spellLength ls := by
  simp [spellLength]

theorem spellLength_sublist {ks ls : List (List Char)} (h : List.Sublist ks ls) :
    spellLength ks ≤ spellLength ls :=
  (h.map _).sum_le_sum (by simp)

/-- A path with a leading slash is as long as its pieces, each with a slash. -/
theorem length_utf8_slash (d : List Char) :
    (utf8 ('/' :: d)).length = spellLength (d.splitOn '/') := by
  rw [← length_utf8_spell _ (List.splitOn_ne_nil '/' d), List.intercalate_splitOn]

/-- The kept segments are spelled in no more bytes than the path. -/
theorem spellLength_kept_le (d : List Char) :
    spellLength (keptSegments ('/' :: d)) ≤ (utf8 ('/' :: d)).length := by
  rw [length_utf8_slash, keptSegments_slash]
  exact spellLength_sublist (resolveFrom_sublist segmentKind (d.splitOn '/') [])

/-- Where a final slash follows the kept segments, the piece behind it is empty
and pays for it. -/
theorem spellLength_kept_lt {d : List Char} (hlast : ('/' :: d).getLast? = some '/')
    (hne : keptSegments ('/' :: d) ≠ []) :
    spellLength (keptSegments ('/' :: d)) < (utf8 ('/' :: d)).length := by
  obtain ⟨d', hd⟩ := List.getLast?_eq_some_iff.mp hlast
  cases d' with
  | nil =>
      rw [hd] at hne
      exact absurd rfl hne
  | cons c d' =>
      injection hd with _ hd
      have hd : d = d' ++ ['/'] := hd
      have hsplit : d.splitOn '/' = d'.splitOn '/' ++ [[]] := by
        rw [hd, List.splitOn_append_cons_self]
        rfl
      have hkept : keptSegments ('/' :: d) = resolveFrom segmentKind [] (d'.splitOn '/') := by
        rw [keptSegments_slash, hsplit, resolveFrom_append]
        rfl
      have hle : spellLength (resolveFrom segmentKind [] (d'.splitOn '/')) ≤
          spellLength (d'.splitOn '/') :=
        spellLength_sublist (resolveFrom_sublist segmentKind (d'.splitOn '/') [])
      have hpad : spellLength [[]] = 1 := rfl
      rw [length_utf8_slash, hsplit, spellLength_append, hkept, hpad]
      omega

/-- A spelling is as long as its segments, and its trailing slash. -/
theorem length_render {r : CanonicalPath} (hne : r.segments ≠ []) :
    (utf8 r.render).length = spellLength r.segments + (if r.trailingSlash then 1 else 0) := by
  have hrender : r.render =
      ('/' :: ['/'].intercalate r.segments) ++ (if r.trailingSlash then ['/'] else []) := rfl
  rw [hrender, utf8_append, List.length_append, length_utf8_spell _ hne]
  cases r.trailingSlash <;> rfl

/-- The spelling of a reading is no longer than the path that was read. -/
theorem length_render_le {d : List Char} (hd : ∃ t, d = '/' :: t) :
    (utf8 (readPath d).render).length ≤ (utf8 d).length := by
  obtain ⟨e, rfl⟩ := hd
  by_cases hseg : keptSegments ('/' :: e) = []
  · have hroot : (readPath ('/' :: e)).render = ['/'] := by
      unfold CanonicalPath.render
      rw [show (readPath ('/' :: e)).segments = [] from hseg, (readPath ('/' :: e)).rooted hseg]
      rfl
    have hone : (utf8 ['/']).length = 1 := rfl
    have hpos := @length_utf8_pos ('/' :: e) (by simp)
    rw [hroot, hone]
    omega
  · rw [length_render (r := readPath ('/' :: e)) hseg]
    show spellLength (keptSegments ('/' :: e)) + _ ≤ _
    have hle := spellLength_kept_le e
    cases ht : (readPath ('/' :: e)).trailingSlash with
    | false => exact hle
    | true =>
        have ht : (('/' :: e).getLast? == some '/' &&
            !(keptSegments ('/' :: e)).isEmpty) = true := ht
        have hlast := beq_iff_eq.mp ((Bool.and_eq_true _ _).mp ht).1
        exact spellLength_kept_lt hlast hseg

end DockerProxy.Path
