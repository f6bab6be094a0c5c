/-
  DockerProxy.Path.Target — what the upstream server reads out of the request
  target that `handle` builds.

  `canonicalPathAndQuery` concatenates the decoded canonical path and the raw
  query.  A URI parser drops a `#` fragment and splits the rest at its first
  `?`.  The round trip holds exactly when no surviving segment of the path holds
  a decoded `?` or `#`, and the query holds no `#`.
-/
import DockerProxy.Path.Stability

namespace DockerProxy.Path

open DockerProxy.Lib

/-! ## §1. Cutting at the first occurrence of a character. -/

/-- What stands before the first `c`, and what stands after it if it occurs. -/
def splitOnce (c : Char) : List Char → List Char × Option (List Char)
  | [] => ([], none)
  | x :: xs => if x = c then ([], some xs) else ((x :: (splitOnce c xs).1), (splitOnce c xs).2)

theorem splitOnce_of_not_mem {c : Char} (xs : List Char) (h : c ∉ xs) :
    splitOnce c xs = (xs, none) := by
  induction xs with
  | nil => rfl
  | cons x xs ih =>
      simp only [List.mem_cons, not_or] at h
      rw [splitOnce, if_neg (Ne.symm h.1), ih h.2]

theorem splitOnce_append_cons {c : Char} (xs ys : List Char) (h : c ∉ xs) :
    splitOnce c (xs ++ c :: ys) = (xs, some ys) := by
  induction xs with
  | nil => simp [splitOnce]
  | cons x xs ih =>
      simp only [List.mem_cons, not_or] at h
      rw [List.cons_append, splitOnce, if_neg (Ne.symm h.1), ih h.2]

/-- The part before the cut is free of the character. -/
theorem not_mem_splitOnce (c : Char) (xs : List Char) : c ∉ (splitOnce c xs).1 := by
  induction xs with
  | nil => simp [splitOnce]
  | cons x xs ih =>
      rw [splitOnce]
      split
      · simp
      next hx =>
        simp only [List.mem_cons, not_or]
        exact ⟨Ne.symm hx, ih⟩

/-- A cut never adds characters. -/
theorem mem_of_mem_splitOnce {c : Char} (xs : List Char) :
    (∀ x ∈ (splitOnce c xs).1, x ∈ xs) ∧ ∀ ys, (splitOnce c xs).2 = some ys → ∀ y ∈ ys, y ∈ xs := by
  induction xs with
  | nil => simp [splitOnce]
  | cons x xs ih =>
      rw [splitOnce]
      split
      · refine ⟨by simp, fun ys hys y hy => ?_⟩
        injection hys with hys
        rw [← hys] at hy
        exact List.mem_cons_of_mem x hy
      · refine ⟨fun y hy => ?_, fun ys hys y hy => List.mem_cons_of_mem x (ih.2 ys hys y hy)⟩
        rcases List.mem_cons.mp hy with hy | hy
        · rw [hy]
          exact List.mem_cons_self
        · exact List.mem_cons_of_mem x (ih.1 y hy)

/-! ## §2. How a URI parser reads a request target. -/

/-- **Path and query of a target**: drop the fragment, split at the first `?`. -/
def splitTarget (target : String) : String × Option String :=
  let noFragment := (splitOnce '#' target.toList).1
  let (path, query) := splitOnce '?' noFragment
  (String.ofList path, query.map String.ofList)

theorem canonicalPathAndQuery_toList (path : String) (rawQuery : Option String) :
    (canonicalPathAndQuery path rawQuery).toList =
      path.toList ++ (match rawQuery with
        | some q => '?' :: q.toList
        | none => []) := by
  cases rawQuery with
  | none => simp [canonicalPathAndQuery]
  | some q => simp [canonicalPathAndQuery, String.toList_append]

/-- **A path and a query are read back exactly when they hold no delimiter.** -/
theorem splitTarget_eq_iff (path : String) (rawQuery : Option String) :
    splitTarget (canonicalPathAndQuery path rawQuery) = (path, rawQuery) ↔
      ('?' ∉ path.toList ∧ '#' ∉ path.toList) ∧ ∀ q, rawQuery = some q → '#' ∉ q.toList := by
  constructor
  · intro h
    unfold splitTarget at h
    simp only [Prod.mk.injEq] at h
    obtain ⟨hpath, hquery⟩ := h
    have hpath : (splitOnce '?' (splitOnce '#'
        (canonicalPathAndQuery path rawQuery).toList).1).1 = path.toList := by
      simpa using congrArg String.toList hpath
    -- both parts come from text without a fragment
    have hno := not_mem_splitOnce '#' (canonicalPathAndQuery path rawQuery).toList
    obtain ⟨hsub₁, hsub₂⟩ := @mem_of_mem_splitOnce '?'
      (splitOnce '#' (canonicalPathAndQuery path rawQuery).toList).1
    refine ⟨⟨?_, fun hm => ?_⟩, fun q hq hm => ?_⟩
    · rw [← hpath]
      exact not_mem_splitOnce '?' _
    · rw [← hpath] at hm
      exact hno (hsub₁ _ hm)
    · rw [hq] at hquery
      obtain ⟨ys, hys, hyq⟩ := Option.map_eq_some_iff.mp hquery
      rw [← hq] at hys
      rw [← hyq, String.toList_ofList] at hm
      exact hno (hsub₂ ys hys _ hm)
  · rintro ⟨⟨hp, hf⟩, hq⟩
    have hno : '#' ∉ (canonicalPathAndQuery path rawQuery).toList := by
      rw [canonicalPathAndQuery_toList]
      cases rawQuery with
      | none => simpa using hf
      | some q =>
          simp only [List.mem_append, List.mem_cons, not_or]
          exact ⟨hf, by decide, hq q rfl⟩
    unfold splitTarget
    rw [splitOnce_of_not_mem _ hno, canonicalPathAndQuery_toList]
    cases rawQuery with
    | none => simp [splitOnce_of_not_mem _ hp]
    | some q => simp [splitOnce_append_cons _ _ hp]

/-! ## §3. The target of an accepted request. -/

/-- **No delimiter survives**: no segment of the decoded path that `..` leaves in
place holds a `?` (written `%3F`) or a `#` (written `%23`), and the query holds
no `#`. -/
def targetUnambiguous (raw : String) (rawQuery : Option String) : Prop :=
  (∀ d, decodedText raw = some d →
    ∀ s ∈ keptSegments (stripApiVersionPrefix d), '?' ∉ s ∧ '#' ∉ s) ∧
  ∀ q, rawQuery = some q → '#' ∉ q.toList

/-- **The target round trip, exactly.**  For every accepted raw path and every
query, accepted or not, the upstream server reads the canonical path and the raw
query out of the target if and only if no delimiter survives in them. -/
theorem splitTarget_canonicalPathAndQuery_iff {raw p : String} (rawQuery : Option String)
    (h : canonicalizePath raw = some p) :
    splitTarget (canonicalPathAndQuery p rawQuery) = (p, rawQuery) ↔
      targetUnambiguous raw rawQuery := by
  rw [canonicalizePath_eq] at h
  obtain ⟨r, hr, rfl⟩ := Option.map_eq_some_iff.mp h
  obtain ⟨d, hd, hrd⟩ := Option.map_eq_some_iff.mp hr
  have hsegs : r.segments = keptSegments (stripApiVersionPrefix d) := by
    rw [← hrd]
    rfl
  rw [splitTarget_eq_iff, String.toList_ofList, mem_render_iff r (by decide),
    mem_render_iff r (by decide), hsegs]
  unfold targetUnambiguous
  rw [hd]
  constructor
  · rintro ⟨⟨hp, hf⟩, hq⟩
    refine ⟨fun d' hd' s hs => ?_, hq⟩
    injection hd' with hd'
    rw [← hd'] at hs
    exact ⟨fun hc => hp ⟨s, hs, hc⟩, fun hc => hf ⟨s, hs, hc⟩⟩
  · rintro ⟨hsegments, hq⟩
    exact ⟨⟨fun ⟨s, hs, hc⟩ => (hsegments d rfl s hs).1 hc,
      fun ⟨s, hs, hc⟩ => (hsegments d rfl s hs).2 hc⟩, hq⟩

/-- `%3F` and `%23` in the path become delimiters of the target. -/
theorem splitTarget_moves_path :
    (canonicalizePath "/containers/json%3Fall=1" = some "/containers/json?all=1" ∧
      splitTarget (canonicalPathAndQuery "/containers/json?all=1" none) =
        ("/containers/json", some "all=1")) ∧
    (canonicalizePath "/containers/json%23x" = some "/containers/json#x" ∧
      queryAccepted (some "all=1") = true ∧
      splitTarget (canonicalPathAndQuery "/containers/json#x" (some "all=1")) =
        ("/containers/json", none)) := by
  decide +kernel

theorem splitTarget_containers :
    splitTarget (canonicalPathAndQuery "/containers/json" (some "all=1")) =
        ("/containers/json", some "all=1") ↔
      targetUnambiguous "/v1.41/containers/json" (some "all=1") :=
  splitTarget_canonicalPathAndQuery_iff (some "all=1") (by decide +kernel)

end DockerProxy.Path
