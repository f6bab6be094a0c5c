/-
  DockerProxy.Path.Accepted — what every accepted path looks like.

  The rules compare the canonical path with `starts_with` and regular expressions, so
  they rely on its spelling.  This module collects what can be relied on, about the
  text itself and without the value that `Reading` has for it:

    • `readsTo_iff` — reading segments left to right, step by step, is what the loop
      over the segments computes,
    • `pathPieces_render` — the pieces of a canonical spelling are its segments,
    • `canonicalizePath_accepted` — the shape of an accepted path.
-/
import DockerProxy.Path.Stability

namespace DockerProxy.Path

open DockerProxy.Lib

/-! ## §1. Reading left to right. -/

/-- **The segments read so far, and those that are left of them**: empty and `.` segments
are dropped, and `..` deletes the previous one if there is one. -/
inductive ReadsTo : List (List Char) → List (List Char) → Prop where
  | start : ReadsTo [] []
  | dropped {read kept : List (List Char)} {seg : List Char} (h : ReadsTo read kept)
      (hseg : seg = [] ∨ seg = ['.']) : ReadsTo (read ++ [seg]) kept
  | up {read kept : List (List Char)} (h : ReadsTo read kept) :
      ReadsTo (read ++ [['.', '.']]) kept.dropLast
  | name {read kept : List (List Char)} {seg : List Char} (h : ReadsTo read kept)
      (hempty : seg ≠ []) (hdot : seg ≠ ['.']) (hdots : seg ≠ ['.', '.']) :
      ReadsTo (read ++ [seg]) (kept ++ [seg])

/-- What one more segment does. -/
theorem resolveStep_cases (kept : List (List Char)) (seg : List Char) :
    (seg = [] ∨ seg = ['.']) ∧ resolveStep segmentKind kept seg = kept ∨
      seg = ['.', '.'] ∧ resolveStep segmentKind kept seg = kept.dropLast ∨
        (seg ≠ [] ∧ seg ≠ ['.'] ∧ seg ≠ ['.', '.']) ∧
          resolveStep segmentKind kept seg = kept ++ [seg] := by
  by_cases hempty : seg = []
  · rw [hempty]
    exact Or.inl ⟨Or.inl rfl, rfl⟩
  by_cases hdot : seg = ['.']
  · rw [hdot]
    exact Or.inl ⟨Or.inr rfl, rfl⟩
  by_cases hdots : seg = ['.', '.']
  · rw [hdots]
    exact Or.inr (Or.inl ⟨rfl, rfl⟩)
  · have hkind : segmentKind seg = .name := by
      unfold segmentKind
      split <;> first | rfl | exact absurd rfl ‹_›
    refine Or.inr (Or.inr ⟨⟨hempty, hdot, hdots⟩, ?_⟩)
    unfold resolveStep
    rw [hkind]

theorem resolveFrom_snoc (read : List (List Char)) (seg : List Char) :
    resolveFrom segmentKind [] (read ++ [seg]) =
      resolveStep segmentKind (resolveFrom segmentKind [] read) seg := by
  rw [resolveFrom_append]
  rfl

/-- **The loop over the segments reads them left to right**, and there is one way to. -/
theorem readsTo_iff {read kept : List (List Char)} :
    ReadsTo read kept ↔ kept = resolveFrom segmentKind [] read := by
  constructor
  · intro h
    induction h with
    | start => rfl
    | dropped _ hseg ih =>
        rw [resolveFrom_snoc, ← ih]
        obtain rfl | rfl := hseg
        · rfl
        · rfl
    | up _ ih =>
        rw [resolveFrom_snoc, ← ih]
        rfl
    | @name read kept seg _ hempty hdot hdots ih =>
        rw [resolveFrom_snoc, ← ih]
        obtain ⟨hdrop | hdrop, -⟩ | ⟨hup, -⟩ | ⟨-, hname⟩ := resolveStep_cases kept seg
        · exact absurd hdrop hempty
        · exact absurd hdrop hdot
        · exact absurd hup hdots
        · exact hname.symm
  · rintro rfl
    -- from the end: the last segment is one more step of the reading
    induction read using List.reverseRecOn with
    | nil => exact ReadsTo.start
    | append_singleton read seg ih =>
        rw [resolveFrom_snoc]
        obtain ⟨hdrop, hstep⟩ | ⟨rfl, hstep⟩ | ⟨⟨hempty, hdot, hdots⟩, hstep⟩ :=
          resolveStep_cases (resolveFrom segmentKind [] read) seg
        · rw [hstep]
          exact ReadsTo.dropped ih hdrop
        · rw [hstep]
          exact ReadsTo.up ih
        · rw [hstep]
          exact ReadsTo.name ih hempty hdot hdots

/-! ## §2. The pieces of a path. -/

/-- The pieces between the slashes of a path, apart from what is in front of the first
and from one empty piece behind a trailing slash. -/
def pathPieces (path : List Char) : List (List Char) :=
  let pieces := (path.splitOn '/').drop 1
  if pieces.getLast? = some [] then pieces.dropLast else pieces

/-- **The pieces of a canonical spelling are its segments.** -/
theorem pathPieces_render (p : CanonicalPath) : pathPieces p.render = p.segments := by
  have hclean : ∀ s ∈ p.segments, '/' ∉ s := fun s hs => (p.clean s hs).2.2.2
  unfold pathPieces CanonicalPath.render
  rw [splitOn_slash]
  by_cases hseg : p.segments = []
  · rw [hseg, p.rooted hseg]
    rfl
  · have hsplit := List.splitOn_intercalate '/' hclean hseg
    cases p.trailingSlash with
    | false =>
        -- the last piece is a segment, and no segment is empty
        have hlast : p.segments.getLast? ≠ some [] := by
          intro h
          exact (p.clean [] (List.mem_of_getLast? h)).1 rfl
        show (if (List.splitOn '/' (['/'].intercalate p.segments ++ [])).getLast? = some [] then _
          else List.splitOn '/' (['/'].intercalate p.segments ++ [])) = p.segments
        rw [List.append_nil, hsplit, if_neg hlast]
    | true =>
        show (if (List.splitOn '/' (['/'].intercalate p.segments ++ ['/'])).getLast? = some [] then
          (List.splitOn '/' (['/'].intercalate p.segments ++ ['/'])).dropLast else _) = p.segments
        rw [List.splitOn_append_cons_self, hsplit]
        show (if (p.segments ++ [[]]).getLast? = some [] then (p.segments ++ [[]]).dropLast
          else _) = p.segments
        rw [List.getLast?_concat, if_pos rfl, List.dropLast_concat]

/-- A spelling begins with its first segment, and after it comes nothing or a slash. -/
theorem exists_tail_of_render (first : List Char) (rest : List (List Char)) (slash : Bool) :
    ∃ tail, ['/'].intercalate (first :: rest) ++ (if slash then ['/'] else []) = first ++ tail ∧
      (tail = [] ∨ ∃ t, tail = '/' :: t) := by
  cases rest with
  | nil =>
      rw [List.intercalate_singleton]
      refine ⟨_, rfl, ?_⟩
      cases slash with
      | false => exact Or.inl rfl
      | true => exact Or.inr ⟨[], rfl⟩
  | cons next rest =>
      rw [List.intercalate_cons_cons, List.append_assoc, List.append_assoc]
      exact ⟨_, rfl, Or.inr ⟨_, rfl⟩⟩

/-- A prefix without a slash, of a spelling, is a prefix of the first segment. -/
theorem prefix_render_iff (p : CanonicalPath) {start : List Char} (hstart : '/' ∉ start) :
    ('/' :: start) <+: p.render ↔
      start = [] ∨ ∃ first rest, p.segments = first :: rest ∧ start <+: first := by
  unfold CanonicalPath.render
  rw [List.cons_prefix_cons]
  simp only [true_and]
  cases hseg : p.segments with
  | nil =>
      rw [p.rooted hseg]
      show start <+: [] ↔ _
      rw [List.prefix_nil]
      simp
  | cons first rest =>
      obtain ⟨tail, htail, hslash⟩ := exists_tail_of_render first rest p.trailingSlash
      rw [htail]
      constructor
      · intro h
        refine Or.inr ⟨first, rest, rfl, ?_⟩
        cases List.prefix_or_prefix_of_prefix h (List.prefix_append first tail) with
        | inl h => exact h
        | inr h' =>
            obtain ⟨more, rfl⟩ := h'
            have hmore : more <+: tail := (List.prefix_append_right_inj first).mp h
            cases more with
            | nil => rw [List.append_nil]
            | cons c more =>
                -- what goes past the first segment is a slash
                obtain rfl | ⟨t, rfl⟩ := hslash
                · exact absurd (List.prefix_nil.mp hmore) (by simp)
                · obtain ⟨rfl, -⟩ := List.cons_prefix_cons.mp hmore
                  exact absurd (List.mem_append_right first List.mem_cons_self) hstart
      · rintro (rfl | ⟨first', rest', heq, h⟩)
        · exact List.nil_prefix
        · obtain ⟨rfl, -⟩ := List.cons.inj heq
          exact h.trans (List.prefix_append first tail)

/-! ## §3. Accepted paths. -/

/-- **The shape of an accepted path.** -/
structure AcceptedShape (raw p : String) (decoded : List Char) : Prop where
  rooted : startsWith p "/" = true
  /-- No empty segment, no `.` and no `..`, apart from a trailing slash. -/
  clean : ∀ s ∈ pathPieces p.toList, s ≠ [] ∧ s ≠ ['.'] ∧ s ≠ ['.', '.']
  noControl : ∀ b ∈ asBytes p, 0x20 ≤ b ∧ b ≠ 0x7f
  short : p.utf8ByteSize ≤ raw.utf8ByteSize
  /-- The segments of the decoded, version-stripped path, read left to right. -/
  reading : ReadsTo ((stripApiVersionPrefix decoded).splitOn '/') (pathPieces p.toList)
  /-- A prefix up to the second slash is one of the first segment. -/
  firstSegment : ∀ start, '/' ∉ start →
    (startsWith p (String.ofList ('/' :: start)) = true ↔
      start = [] ∨ ∃ first rest, pathPieces p.toList = first :: rest ∧ start <+: first)

/-- **Every accepted path has that shape**, with what it decodes to. -/
theorem canonicalizePath_accepted {raw p : String} (h : canonicalizePath raw = some p) :
    ∃ decoded, percentDecode (asBytes raw) = some (utf8 decoded) ∧
      AcceptedShape raw p decoded := by
  rw [canonicalizePath_eq, Option.map_eq_some_iff] at h
  obtain ⟨r, hr, rfl⟩ := h
  have hlen := length_canonicalReading_le hr
  have hctl := isControlByte_canonicalReading hr
  have hpieces := pathPieces_render r
  have hprefix := fun start hstart => @prefix_render_iff r start hstart
  simp only [canonicalReading, Option.map_eq_some_iff] at hr
  obtain ⟨d, hd, hread⟩ := hr
  refine ⟨d, (decodedText_eq_some.mp hd).2.2.1, ?_, ?_, ?_, ?_, ?_, ?_⟩
  · show ['/'].isPrefixOf (String.ofList r.render).toList = true
    rw [String.toList_ofList]
    rfl
  · intro s hs
    rw [String.toList_ofList, hpieces] at hs
    obtain ⟨hempty, hdot, hdots, -⟩ := r.clean s hs
    exact ⟨hempty, hdot, hdots⟩
  · intro b hb
    rw [asBytes_ofList] at hb
    have hb := hctl b hb
    simp only [isControlByte, Bool.or_eq_false_iff, decide_eq_false_iff_not,
      beq_eq_false_iff_ne] at hb
    exact ⟨UInt8.not_lt.mp hb.1.2, hb.2⟩
  · rw [← length_asBytes (String.ofList _), asBytes_ofList]
    exact hlen
  · rw [String.toList_ofList, hpieces, readsTo_iff, ← hread]
    exact keptSegments_eq _
  · intro start hstart
    unfold startsWith
    rw [String.toList_ofList, String.toList_ofList, List.isPrefixOf_iff_prefix, hpieces]
    exact hprefix start hstart

/-- A path that leaves the root and comes back. -/
theorem canonicalizePath_accepted_climbing :
    ∃ decoded, percentDecode (asBytes "/v1.41/%2e%2E/containers/") = some (utf8 decoded) ∧
      AcceptedShape "/v1.41/%2e%2E/containers/" "/containers/" decoded :=
  canonicalizePath_accepted (by decide +kernel)

end DockerProxy.Path
