/-
  DockerProxy.Path.Stability — which respellings a canonical path survives.

  Two laws one expects of a canonicalizer, and exactly when this one obeys them:

    • idempotence — reading the canonical path once more changes nothing.  It
      holds exactly when no kept segment holds a decoded `%` and the canonical
      path does not itself start with a version prefix;
    • redundancy — an empty or `.` segment at any slash changes nothing.  It
      holds at every slash but the first one, and there unless a version prefix
      follows that no later `..` removes.

  Both failures have one root: the version prefix is stripped once, before the
  segments are resolved, and escapes are decoded once.
-/
import DockerProxy.Path.Reading

namespace DockerProxy.Path

open DockerProxy.Lib

/-! ## §1. The characters of a canonical path come from the decoded path. -/

theorem mem_intercalate {c : Char} :
    ∀ ls : List (List Char), c ∈ ['/'].intercalate ls → c = '/' ∨ ∃ s ∈ ls, c ∈ s
  | [], h => by simp at h
  | [s], h => Or.inr ⟨s, by simp, by simpa using h⟩
  | s :: t :: ls, h => by
      rw [List.intercalate_cons_cons] at h
      simp only [List.mem_append, List.mem_singleton] at h
      rcases h with (h | h) | h
      · exact Or.inr ⟨s, List.mem_cons_self, h⟩
      · exact Or.inl h
      · rcases mem_intercalate (t :: ls) h with h | ⟨u, hu, hc⟩
        · exact Or.inl h
        · exact Or.inr ⟨u, List.mem_cons_of_mem s hu, hc⟩

theorem mem_intercalate_of_mem {c : Char} {s : List Char} (hc : c ∈ s) :
    ∀ ls : List (List Char), s ∈ ls → c ∈ ['/'].intercalate ls
  | [], h => by simp at h
  | [t], h => by
      rw [List.mem_singleton] at h
      rw [← h]
      simpa using hc
  | t :: u :: ls, h => by
      rw [List.intercalate_cons_cons]
      simp only [List.mem_append]
      rcases List.mem_cons.mp h with h | h
      · rw [← h]
        exact Or.inl (Or.inl hc)
      · exact Or.inr (mem_intercalate_of_mem hc (u :: ls) h)

theorem mem_render_iff (p : CanonicalPath) {c : Char} (hc : c ≠ '/') :
    c ∈ p.render ↔ ∃ s ∈ p.segments, c ∈ s := by
  unfold CanonicalPath.render
  constructor
  · intro h
    rcases List.mem_cons.mp h with h | h
    · exact absurd h hc
    · rcases List.mem_append.mp h with h | h
      · exact (mem_intercalate _ h).resolve_left hc
      · split at h
        · exact absurd (List.mem_singleton.mp h) hc
        · exact absurd h (by simp)
  · rintro ⟨s, hs, hcs⟩
    exact List.mem_cons_of_mem _ (List.mem_append_left _ (mem_intercalate_of_mem hcs _ hs))

theorem mem_of_mem_readPath {d : List Char} {c : Char} (h : c ∈ (readPath d).render) :
    c = '/' ∨ c ∈ d := by
  by_cases hc : c = '/'
  · exact Or.inl hc
  · obtain ⟨s, hs, hcs⟩ := (mem_render_iff _ hc).mp h
    rw [show (readPath d).segments = keptSegments d from rfl, keptSegments_eq] at hs
    rcases mem_resolveFrom segmentKind _ [] s hs with hnil | ⟨hsplit, -⟩
    · exact absurd hnil (by simp)
    · have hd := mem_intercalate_of_mem hcs _ hsplit
      rw [List.intercalate_splitOn] at hd
      exact Or.inr hd

theorem mem_of_mem_strip {d : List Char} {c : Char} (h : c ∈ stripApiVersionPrefix d) :
    c ∈ d := by
  rcases stripApiVersionPrefix_cases d with hs | ⟨v, rest, -, hd, hs⟩
  · rwa [hs] at h
  · rw [hs] at h
    rw [hd]
    exact List.mem_cons_of_mem _ (List.mem_cons_of_mem _ (List.mem_append_right v h))

/-- Stripping something makes the path shorter. -/
theorem length_strip (d : List Char) :
    stripApiVersionPrefix d = d ∨
      (utf8 (stripApiVersionPrefix d)).length < (utf8 d).length := by
  rcases stripApiVersionPrefix_cases d with hs | ⟨v, rest, -, hd, hs⟩
  · exact Or.inl hs
  · right
    have hv : (utf8 ['/', 'v']).length = 2 := rfl
    rw [hs, hd, show '/' :: 'v' :: (v ++ '/' :: rest) = ['/', 'v'] ++ (v ++ '/' :: rest) from rfl,
      utf8_append, utf8_append, List.length_append, List.length_append, hv]
    omega

theorem strip_slash {d : List Char} (h : ∃ t, d = '/' :: t) :
    ∃ t, stripApiVersionPrefix d = '/' :: t := by
  rcases stripApiVersionPrefix_cases d with hs | ⟨v, rest, -, -, hs⟩
  · rw [hs]
    exact h
  · exact ⟨rest, hs⟩

/-! ## §2. Decoding a canonical path again. -/

/-- **A canonical path is no longer than the raw path**: each stage shortens. -/
theorem length_canonicalReading_le {raw : String} {r : CanonicalPath}
    (h : canonicalReading raw = some r) : (utf8 r.render).length ≤ raw.utf8ByteSize := by
  simp only [canonicalReading, Option.map_eq_some_iff] at h
  obtain ⟨d, hd, rfl⟩ := h
  obtain ⟨-, -, hdec, -⟩ := decodedText_eq_some.mp hd
  -- spelling ≤ stripped ≤ decoded ≤ raw
  have h1 := length_render_le (strip_slash (decodedText_slash hd))
  have h2 := length_strip d
  have h3 := (percentDecode_length _ _ hdec).1
  rw [length_asBytes] at h3
  rcases h2 with h2 | h2
  · rw [h2] at h1 ⊢
    omega
  · omega

/-- **A canonical path holds no control byte**: its characters are decoded ones. -/
theorem isControlByte_canonicalReading {raw : String} {r : CanonicalPath}
    (h : canonicalReading raw = some r) : ∀ b ∈ utf8 r.render, isControlByte b = false := by
  simp only [canonicalReading, Option.map_eq_some_iff] at h
  obtain ⟨d, hd, rfl⟩ := h
  obtain ⟨-, -, -, hctl⟩ := decodedText_eq_some.mp hd
  intro b hb
  simp only [utf8, List.mem_flatMap] at hb
  obtain ⟨c, hc, hb⟩ := hb
  rcases mem_of_mem_readPath hc with hc | hc
  · rw [hc, show String.utf8EncodeChar '/' = [0x2f] from rfl, List.mem_singleton] at hb
    rw [hb]
    decide
  · refine hctl b ?_
    simp only [utf8, List.mem_flatMap]
    exact ⟨c, mem_of_mem_strip hc, hb⟩

/-- A canonical path without `%` decodes to itself. -/
theorem decodedText_render {raw : String} {r : CanonicalPath} (h : canonicalReading raw = some r)
    (hpct : '%' ∉ r.render) : decodedText (String.ofList r.render) = some r.render := by
  have hlen : raw.utf8ByteSize ≤ maxPathLen := by
    simp only [canonicalReading, Option.map_eq_some_iff] at h
    obtain ⟨d, hd, -⟩ := h
    exact (decodedText_eq_some.mp hd).2.1
  refine decodedText_eq_some.mpr ⟨?_, ?_, ?_, isControlByte_canonicalReading h⟩
  · rw [String.toList_ofList]
    exact ⟨_, rfl⟩
  · rw [← length_asBytes, asBytes_ofList]
    exact (length_canonicalReading_le h).trans hlen
  · rw [asBytes_ofList]
    refine percentDecode_of_not_mem _ (fun hb => hpct ?_)
    exact (mem_utf8_ascii (d := '%') (by decide)).mp hb

/-- A version segment holds no slash. -/
theorem version_no_slash {v : List Char} (hver : isVersionPart v = true) : '/' ∉ 'v' :: v := by
  simp only [List.mem_cons, not_or]
  exact ⟨by decide, isVersionPart_no_slash hver⟩

/-- A version prefix is not nothing. -/
theorem version_ne (v rest : List Char) : '/' :: rest ≠ '/' :: 'v' :: (v ++ '/' :: rest) := by
  intro he
  have hlen := congrArg List.length he
  simp only [List.length_cons, List.length_append] at hlen
  omega

/-- A versioned path is spelled with a version prefix. -/
theorem render_of_versioned {r : CanonicalPath} (h : r.versioned = true) :
    ∃ v t, isVersionPart v = true ∧ r.render = '/' :: 'v' :: (v ++ '/' :: t) := by
  unfold CanonicalPath.versioned at h
  split at h
  next v rest hseg =>
    simp only [Bool.and_eq_true, Bool.or_eq_true, Bool.not_eq_true', List.isEmpty_eq_false_iff] at h
    obtain ⟨hver, htail⟩ := h
    -- something with a slash in front follows the version
    have hrender : ∃ t, r.render = '/' :: 'v' :: (v ++ '/' :: t) := by
      unfold CanonicalPath.render
      rw [hseg]
      cases rest with
      | nil =>
          have ht : r.trailingSlash = true := htail.resolve_left (by simp)
          rw [ht]
          exact ⟨[], by simp⟩
      | cons s rest =>
          rw [List.intercalate_cons_cons]
          exact ⟨_, by simp only [List.cons_append, List.append_assoc, List.nil_append]; rfl⟩
    obtain ⟨t, ht⟩ := hrender
    exact ⟨v, t, hver, ht⟩
  next => exact absurd h (by simp)

/-- Only a versioned path is spelled with a version prefix. -/
theorem versioned_of_render {r : CanonicalPath} {v t : List Char} (hver : isVersionPart v = true)
    (hrender : r.render = '/' :: 'v' :: (v ++ '/' :: t)) : r.versioned = true := by
  obtain ⟨pad, hsplit, hpad, hnopad⟩ := splitOn_render r
  rw [hrender, splitOn_slash, show 'v' :: (v ++ '/' :: t) = ('v' :: v) ++ '/' :: t from rfl,
    List.splitOn_append_cons_self_of_not_mem (version_no_slash hver)] at hsplit
  injection hsplit with _ hsplit
  cases hseg : r.segments with
  | nil =>
      rw [hseg, List.nil_append] at hsplit
      have hempty := hpad ('v' :: v) (by rw [← hsplit]; exact List.mem_cons_self)
      exact absurd hempty (by simp)
  | cons s segs =>
      rw [hseg, List.cons_append] at hsplit
      injection hsplit with hs hrest
      by_contra hv
      unfold CanonicalPath.versioned at hv
      rw [hseg, ← hs] at hv
      simp only [hver, Bool.true_and, Bool.not_eq_true, Bool.or_eq_false_iff, Bool.not_eq_false',
        List.isEmpty_iff] at hv
      -- without a further segment or a trailing slash nothing follows the version
      rw [hv.1, hnopad hv.2 (by rw [hseg]; simp)] at hrest
      exact absurd hrest (List.splitOn_ne_nil '/' t)

/-- **A canonical path is stripped again exactly when it is versioned.** -/
theorem strip_render_iff (r : CanonicalPath) :
    stripApiVersionPrefix r.render = r.render ↔ r.versioned = false := by
  constructor
  · intro hs
    by_contra hv
    obtain ⟨v, t, hver, hrender⟩ := render_of_versioned ((Bool.not_eq_false _).mp hv)
    rw [hrender, stripApiVersionPrefix_of_version hver] at hs
    exact version_ne v t hs
  · intro hv
    rcases stripApiVersionPrefix_cases r.render with hs | ⟨v, rest, hver, hrender, -⟩
    · exact hs
    · have htrue := versioned_of_render hver hrender
      rw [hv] at htrue
      exact absurd htrue (by simp)

/-! ## §3. Idempotence. -/

/-- **The raw paths whose canonical path can be read again**: among the segments
that `..` does not remove, none spells a `%` (written `%25`), and the first is
not an API version in front of a further slash. -/
def readsOnce (raw : String) : Prop :=
  ∀ r, canonicalReading raw = some r → (∀ s ∈ r.segments, '%' ∉ s) ∧ r.versioned = false

/-- Reading a canonical path again gives it back exactly when it holds no `%`
and is not versioned. -/
theorem canonicalReading_render_iff {raw : String} {r : CanonicalPath}
    (h : canonicalReading raw = some r) :
    canonicalReading (String.ofList r.render) = some r ↔
      '%' ∉ r.render ∧ r.versioned = false := by
  constructor
  · intro hagain
    simp only [canonicalReading, Option.map_eq_some_iff] at hagain
    obtain ⟨d, hd, hr⟩ := hagain
    have hslash := decodedText_slash hd
    obtain ⟨-, -, hdec, -⟩ := decodedText_eq_some.mp hd
    rw [asBytes_ofList] at hdec
    have h1 := length_render_le (strip_slash hslash)
    rw [hr] at h1
    obtain ⟨h3, h3'⟩ := percentDecode_length _ _ hdec
    -- the lengths only fit if no stage shortened anything
    have hpct : '%' ∉ r.render := by
      intro hp
      have hlt := h3' ((mem_utf8_ascii (d := '%') (by decide)).mpr hp)
      rcases length_strip d with h2 | h2
      · rw [h2] at h1
        omega
      · omega
    refine ⟨hpct, (strip_render_iff r).mp ?_⟩
    have hself := decodedText_render h hpct
    rw [hd] at hself
    injection hself with hself
    rcases length_strip d with h2 | h2
    · rw [← hself]
      exact h2
    · omega
  · rintro ⟨hpct, hver⟩
    unfold canonicalReading
    rw [decodedText_render h hpct]
    show some (readPath (stripApiVersionPrefix r.render)) = some r
    rw [(strip_render_iff r).mpr hver, readPath_render]

/-- **Idempotence, exactly.**  For every accepted raw path, canonicalizing the
canonical path gives it back if and only if the raw path `readsOnce`. -/
theorem canonicalizePath_idempotent_iff {raw p : String} (h : canonicalizePath raw = some p) :
    canonicalizePath p = some p ↔ readsOnce raw := by
  rw [canonicalizePath_eq, Option.map_eq_some_iff] at h
  obtain ⟨r, hr, rfl⟩ := h
  rw [canonicalizePath_eq_some, canonicalReading_render_iff hr, mem_render_iff r (by decide)]
  unfold readsOnce
  rw [hr]
  simp

/-- A doubled version prefix is stripped once, and `%25` is decoded once. -/
theorem canonicalizePath_not_idempotent :
    (canonicalizePath "/v1.41/v1.41/containers/json" = some "/v1.41/containers/json" ∧
      canonicalizePath "/v1.41/containers/json" = some "/containers/json") ∧
    (canonicalizePath "/%2561" = some "/%61" ∧ canonicalizePath "/%61" = some "/a") := by
  decide +kernel

theorem canonicalizePath_idempotent_containers :
    canonicalizePath "/containers/json" = some "/containers/json" ↔
      readsOnce "/v1.41//containers/./json" :=
  canonicalizePath_idempotent_iff (by decide +kernel)

/-! ## §4. Redundant segments. -/

/-- What follows the first segment does not decide how much is stripped. -/
theorem strip_append (A : List Char) :
    ∃ A', ∀ Y, stripApiVersionPrefix ('/' :: (A ++ '/' :: Y)) = A' ++ '/' :: Y := by
  have hkeep : ∀ Y, '/' :: (A ++ '/' :: Y) = ('/' :: A) ++ '/' :: Y := fun Y => rfl
  cases A with
  | nil => exact ⟨['/'], fun Y => stripApiVersionPrefix_of_unversioned rfl⟩
  | cons c v =>
      by_cases hc : c = 'v'
      · subst hc
        by_cases hs : '/' ∈ v
        · -- the first segment ends inside `A`
          obtain ⟨u, w, rfl, hu⟩ := List.eq_append_cons_of_mem hs
          have hassoc : ∀ Y, '/' :: ('v' :: (u ++ '/' :: w) ++ '/' :: Y)
              = '/' :: 'v' :: (u ++ '/' :: (w ++ '/' :: Y)) := by simp
          by_cases hver : isVersionPart u = true
          · exact ⟨'/' :: w, fun Y => by
              rw [hassoc, stripApiVersionPrefix_of_version hver]; rfl⟩
          · exact ⟨'/' :: 'v' :: (u ++ '/' :: w), fun Y => by
              rw [hassoc, stripApiVersionPrefix_of_not_version hu (by simpa using hver)]; simp⟩
        · -- the first segment is all of `A`
          by_cases hver : isVersionPart v = true
          · exact ⟨[], fun Y => stripApiVersionPrefix_of_version hver Y⟩
          · exact ⟨'/' :: 'v' :: v, fun Y =>
              stripApiVersionPrefix_of_not_version hs (by simpa using hver) Y⟩
      · refine ⟨'/' :: c :: v, fun Y => ?_⟩
        rw [hkeep]
        refine stripApiVersionPrefix_of_unversioned ?_
        have hcv : ('v' == c) = false := beq_eq_false_iff_ne.mpr (Ne.symm hc)
        simp [List.isPrefixOf, hcv]

/-- A skipped segment after a slash does not change the reading. -/
theorem readPath_insert_skip {m : List Char} (hm : '/' ∉ m) (hk : segmentKind m = .skip)
    (X Y : List Char) : readPath (X ++ '/' :: (m ++ '/' :: Y)) = readPath (X ++ '/' :: Y) := by
  have hsegs : keptSegments (X ++ '/' :: (m ++ '/' :: Y)) = keptSegments (X ++ '/' :: Y) := by
    rw [keptSegments_eq, keptSegments_eq, List.splitOn_append_cons_self,
      List.splitOn_append_cons_self_of_not_mem hm,
      List.splitOn_append_cons_self, resolveFrom_insert_skip _ _ _ _ hk]
  have hlast : (X ++ '/' :: (m ++ '/' :: Y)).getLast? = (X ++ '/' :: Y).getLast? := by
    rw [show X ++ '/' :: (m ++ '/' :: Y) = (X ++ '/' :: m) ++ '/' :: Y from by simp,
      List.getLast?_append_cons, List.getLast?_append_cons]
  exact readPath_congr hsegs hlast

/-- Decoding a path cut at a literal slash cuts the decoded path there. -/
theorem decodedText_cut {a b : String} {d : List Char} (h : decodedText (a ++ "/" ++ b) = some d) :
    ∃ A B, d = A ++ '/' :: B ∧ percentDecode (asBytes a) = some (utf8 A) ∧
      percentDecode (asBytes b) = some (utf8 B) := by
  obtain ⟨-, -, hdec, -⟩ := decodedText_eq_some.mp h
  have hbytes : asBytes (a ++ "/" ++ b) = asBytes a ++ 0x2f :: asBytes b := by
    rw [asBytes_append, asBytes_append, List.append_assoc]
    rfl
  rw [hbytes] at hdec
  obtain ⟨xs, ys, hxs, hys, hd⟩ := percentDecode_cut _ _ _ hdec
  obtain ⟨A, B, hAB, hA, hB⟩ := utf8_eq_append_cons (d := '/') (by decide) d xs ys hd
  exact ⟨A, B, hAB, by rw [hxs, hA], by rw [hys, hB]⟩

/-- Literal text inserted after the slash is decoded as it stands. -/
theorem decodedText_insert {a b s : String} {mid A B : List Char}
    (h : decodedText (a ++ "/" ++ b) = some (A ++ '/' :: B))
    (hA : percentDecode (asBytes a) = some (utf8 A))
    (hB : percentDecode (asBytes b) = some (utf8 B))
    (hmid : percentDecode (utf8 mid) = some (utf8 mid))
    (hctl : ∀ c ∈ utf8 mid, isControlByte c = false)
    (hs : s = a ++ "/" ++ String.ofList mid ++ b) (hlen : s.utf8ByteSize ≤ maxPathLen) :
    decodedText s = some (A ++ '/' :: (mid ++ B)) := by
  obtain ⟨⟨t, ht⟩, -, -, hc⟩ := decodedText_eq_some.mp h
  have hslashDec : percentDecode (utf8 ['/']) = some (utf8 ['/']) := by decide
  have hcut : utf8 (A ++ '/' :: (mid ++ B)) = utf8 A ++ (utf8 ['/'] ++ (utf8 mid ++ utf8 B)) := by
    rw [utf8_append, show '/' :: (mid ++ B) = ['/'] ++ (mid ++ B) from rfl, utf8_append,
      utf8_append]
  refine decodedText_eq_some.mpr ⟨?_, hlen, ?_, ?_⟩
  · rw [hs]
    simp only [String.toList_append, List.append_assoc] at ht ⊢
    cases ha : a.toList with
    | nil =>
        exact ⟨_, rfl⟩
    | cons c cs =>
        rw [ha] at ht
        injection ht with hc' _
        rw [hc']
        exact ⟨_, rfl⟩
  · rw [hs, hcut, asBytes_append, asBytes_append, asBytes_append, asBytes_ofList mid,
      List.append_assoc, List.append_assoc, percentDecode_append _ _ _ hA,
      show asBytes "/" = utf8 ['/'] from rfl,
      percentDecode_append _ _ _ hslashDec, percentDecode_append _ _ _ hmid, hB]
    rfl
  · intro x hx
    have hd : utf8 (A ++ '/' :: B) = utf8 A ++ (utf8 ['/'] ++ utf8 B) := by
      rw [utf8_append, show '/' :: B = ['/'] ++ B from rfl, utf8_append]
    rw [hd] at hc
    rw [hcut] at hx
    simp only [List.mem_append] at hx hc
    rcases hx with hx | hx | hx | hx
    · exact hc x (Or.inl hx)
    · exact hc x (Or.inr (Or.inl hx))
    · exact hctl x hx
    · exact hc x (Or.inr (Or.inr hx))

/-- The two redundant insertions are a decoded empty and a decoded `.` segment. -/
theorem canonicalReading_insert {a b s : String} {m A B : List Char} (hm : m = [] ∨ m = ['.'])
    (h : decodedText (a ++ "/" ++ b) = some (A ++ '/' :: B))
    (hA : percentDecode (asBytes a) = some (utf8 A))
    (hB : percentDecode (asBytes b) = some (utf8 B))
    (hs : s = a ++ "/" ++ String.ofList (m ++ ['/']) ++ b) (hlen : s.utf8ByteSize ≤ maxPathLen) :
    canonicalReading s =
      some (readPath (stripApiVersionPrefix (A ++ '/' :: (m ++ '/' :: B)))) := by
  have hmid : percentDecode (utf8 (m ++ ['/'])) = some (utf8 (m ++ ['/'])) := by
    rcases hm with rfl | rfl <;> decide
  have hctl : ∀ c ∈ utf8 (m ++ ['/']), isControlByte c = false := by
    have hall : (utf8 (m ++ ['/'])).all (fun c => !isControlByte c) = true := by
      rcases hm with rfl | rfl <;> decide
    intro c hc
    simpa using List.all_eq_true.mp hall c hc
  have hdec : decodedText s = some (A ++ '/' :: (m ++ ['/'] ++ B)) :=
    decodedText_insert h hA hB hmid hctl hs hlen
  unfold canonicalReading
  rw [hdec]
  simp

/-- **Past the first slash an empty or `.` segment is never seen.** -/
theorem readPath_strip_insert {m A : List Char} (hm : m = [] ∨ m = ['.']) (B : List Char)
    (hA : ∃ A₁, A = '/' :: A₁) :
    readPath (stripApiVersionPrefix (A ++ '/' :: (m ++ '/' :: B))) =
      readPath (stripApiVersionPrefix (A ++ '/' :: B)) := by
  obtain ⟨A₁, rfl⟩ := hA
  obtain ⟨A', hstrip⟩ := strip_append A₁
  rw [List.cons_append, List.cons_append, hstrip, hstrip]
  rcases hm with rfl | rfl
  · exact readPath_insert_skip (by simp) rfl A' B
  · exact readPath_insert_skip (by decide) rfl A' B

/-- At the first slash it hides a version prefix from the stripping, which
leaves the version to the segment loop. -/
theorem readPath_strip_insert_first {m : List Char} (hm : m = [] ∨ m = ['.']) (B : List Char) :
    readPath (stripApiVersionPrefix ('/' :: (m ++ '/' :: B))) = readPath ('/' :: B) := by
  have hnone : stripApiVersionPrefix ('/' :: (m ++ '/' :: B)) = '/' :: (m ++ '/' :: B) := by
    refine stripApiVersionPrefix_of_unversioned ?_
    rcases hm with rfl | rfl <;> rfl
  rw [hnone]
  rcases hm with rfl | rfl
  · exact readPath_insert_skip (by simp) rfl [] B
  · exact readPath_insert_skip (by decide) rfl [] B

/-- A version segment is a name. -/
theorem segmentKind_version (v : List Char) : segmentKind ('v' :: v) = .name := by
  cases v with
  | nil => rfl
  | cons c v => cases v <;> rfl

/-- A version that is left in the path is the name at the bottom of the stack. -/
theorem keptSegments_version {v : List Char} (hver : isVersionPart v = true) (rest : List Char) :
    keptSegments ('/' :: 'v' :: (v ++ '/' :: rest)) =
      resolveFrom segmentKind ['v' :: v] (rest.splitOn '/') := by
  have hpush : resolveStep segmentKind [] ('v' :: v) = ['v' :: v] := by
    simp [resolveStep, segmentKind_version v]
  rw [keptSegments_slash, show 'v' :: (v ++ '/' :: rest) = ('v' :: v) ++ '/' :: rest from rfl,
    List.splitOn_append_cons_self_of_not_mem (version_no_slash hver), resolveFrom_cons, hpush]

/-- **A version left in the path is harmless exactly when a `..` removes it.** -/
theorem readPath_strip_eq_iff {d : List Char} :
    readPath (stripApiVersionPrefix d) = readPath d ↔
      stripApiVersionPrefix d = d ∨
        climbs segmentKind 0 ((stripApiVersionPrefix d).splitOn '/') = true := by
  rcases stripApiVersionPrefix_cases d with hs | ⟨v, rest, hver, rfl, hs⟩
  · rw [hs]
    exact ⟨fun _ => Or.inl rfl, fun _ => rfl⟩
  · have hkeep := keptSegments_version hver rest
    have hstripped := keptSegments_slash rest
    have hclimbs : climbs segmentKind 0 (('/' :: rest).splitOn '/') =
        climbs segmentKind 0 (rest.splitOn '/') := by
      rw [splitOn_slash]
      rfl
    rw [hs, hclimbs]
    constructor
    · intro heq
      right
      by_contra hno
      have hno : climbs segmentKind 0 (rest.splitOn '/') = false := by simpa using hno
      have hsegs : keptSegments ('/' :: rest) = keptSegments ('/' :: 'v' :: (v ++ '/' :: rest)) :=
        congrArg CanonicalPath.segments heq
      -- the version stays below whatever the rest keeps
      have hbottom := resolveFrom_append_of_not_climbs segmentKind ['v' :: v] _ [] hno
      rw [List.append_nil] at hbottom
      rw [hkeep, hstripped, hbottom] at hsegs
      have hlen := congrArg List.length hsegs
      simp only [List.length_append, List.length_singleton] at hlen
      omega
    · intro hclimb
      have hup : climbs segmentKind 0 (rest.splitOn '/') = true :=
        hclimb.resolve_left (version_ne v rest)
      have hsegs : keptSegments ('/' :: rest) =
          keptSegments ('/' :: 'v' :: (v ++ '/' :: rest)) := by
        rw [hkeep, hstripped]
        exact (resolveFrom_cons_of_climbs segmentKind ('v' :: v) _ [] hup).symm
      have hlast : ('/' :: rest).getLast? = ('/' :: 'v' :: (v ++ '/' :: rest)).getLast? := by
        rw [show '/' :: 'v' :: (v ++ '/' :: rest) = ('/' :: 'v' :: v) ++ '/' :: rest from rfl,
          List.getLast?_append_cons]
      exact readPath_congr hsegs hlast

/-- **The slashes at which an empty or `.` segment is never seen**: every slash
but the first one, and the first one too unless an API version prefix follows it
that no later `..` removes. -/
def redundantAt (a b : String) : Prop :=
  a ≠ "" ∨ ∀ d, decodedText ("/" ++ b) = some d →
    stripApiVersionPrefix d = d ∨
      climbs segmentKind 0 ((stripApiVersionPrefix d).splitOn '/') = true

/-- **Redundancy, exactly.**  For every accepted raw path and every literal
slash of it, inserting an empty and a `.` segment there leaves the canonical path
unchanged if and only if that slash is `redundantAt`. -/
theorem canonicalizePath_redundant_iff {a b p : String}
    (h : canonicalizePath (a ++ "/" ++ b) = some p)
    (hlen : (a ++ "/./" ++ b).utf8ByteSize ≤ maxPathLen) :
    (canonicalizePath (a ++ "//" ++ b) = some p ∧ canonicalizePath (a ++ "/./" ++ b) = some p) ↔
      redundantAt a b := by
  have hread := canonicalizePath_eq (a ++ "/" ++ b)
  rw [h] at hread
  obtain ⟨r, hr, hp⟩ := Option.map_eq_some_iff.mp hread.symm
  obtain ⟨d, hd, hrd⟩ := Option.map_eq_some_iff.mp hr
  obtain ⟨A, B, rfl, hA, hB⟩ := decodedText_cut hd
  have hslash2 : a ++ "//" ++ b = a ++ "/" ++ String.ofList ([] ++ ['/']) ++ b := by
    rw [@String.append_assoc a "/"]
    rfl
  have hslashDot : a ++ "/./" ++ b = a ++ "/" ++ String.ofList (['.'] ++ ['/']) ++ b := by
    rw [@String.append_assoc a "/"]
    rfl
  have hlen2 : (a ++ "//" ++ b).utf8ByteSize ≤ maxPathLen := by
    refine Nat.le_trans ?_ hlen
    simp only [String.utf8ByteSize_append]
    have h2 : "//".utf8ByteSize = 2 := rfl
    have h3 : "/./".utf8ByteSize = 3 := rfl
    omega
  have hempty := canonicalReading_insert (Or.inl rfl) hd hA hB hslash2 hlen2
  have hdot := canonicalReading_insert (Or.inr rfl) hd hA hB hslashDot hlen
  rw [← hp, canonicalizePath_eq_some, canonicalizePath_eq_some, hempty, hdot, ← hrd]
  simp only [Option.some.injEq]
  obtain ⟨t, ht⟩ := decodedText_slash hd
  unfold redundantAt
  by_cases ha : a = ""
  · -- the first slash: the inserted segment stands before any version prefix
    subst ha
    have hAnil : A = [] := utf8_inj (Option.some.inj hA).symm
    subst hAnil
    have hd' : decodedText ("/" ++ b) = some ('/' :: B) := by simpa using hd
    show readPath (stripApiVersionPrefix ('/' :: ([] ++ '/' :: B))) =
          readPath (stripApiVersionPrefix ('/' :: B)) ∧
        readPath (stripApiVersionPrefix ('/' :: (['.'] ++ '/' :: B))) =
          readPath (stripApiVersionPrefix ('/' :: B)) ↔ _
    rw [readPath_strip_insert_first (Or.inl rfl), readPath_strip_insert_first (Or.inr rfl), hd']
    constructor
    · rintro ⟨heq, -⟩
      refine Or.inr (fun d hdd => ?_)
      injection hdd with hdd
      rw [← hdd]
      exact readPath_strip_eq_iff.mp heq.symm
    · intro hcond
      have hiff := (hcond.resolve_left (by simp)) _ rfl
      have heq := readPath_strip_eq_iff.mpr hiff
      exact ⟨heq.symm, heq.symm⟩
  · have hA₁ : ∃ A₁, A = '/' :: A₁ := by
      cases A with
      | nil =>
          -- a decoding that is empty decoded nothing
          have hbytes : asBytes a = asBytes "" := percentDecode_eq_nil hA
          exact absurd (asBytes_inj.mp hbytes) ha
      | cons c A =>
          injection ht with hc _
          exact ⟨A, by rw [hc]⟩
    rw [readPath_strip_insert (Or.inl rfl) B hA₁, readPath_strip_insert (Or.inr rfl) B hA₁]
    exact ⟨fun _ => Or.inl ha, fun _ => ⟨rfl, rfl⟩⟩

/-- An empty or `.` segment in front of a version prefix keeps the prefix. -/
theorem canonicalizePath_redundant_version :
    canonicalizePath ("" ++ "/" ++ "v1.41/containers/json") = some "/containers/json" ∧
      canonicalizePath ("" ++ "//" ++ "v1.41/containers/json") = some "/v1.41/containers/json" ∧
      canonicalizePath ("" ++ "/./" ++ "v1.41/containers/json") =
        some "/v1.41/containers/json" := by
  decide +kernel

theorem canonicalizePath_redundant_containers :
    (canonicalizePath ("/v1.41/containers" ++ "//" ++ "json") = some "/containers/json" ∧
      canonicalizePath ("/v1.41/containers" ++ "/./" ++ "json") = some "/containers/json") ↔
      redundantAt "/v1.41/containers" "json" :=
  canonicalizePath_redundant_iff (by decide +kernel) (by decide +kernel)

end DockerProxy.Path
