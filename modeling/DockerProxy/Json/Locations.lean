/-
  DockerProxy.Json.Locations — JSON documents seen through their locations.

  A location is a sequence of object keys and array indices.  The view of a
  document says what stands at each: a scalar, the length of an array, the keys of
  an object, or nothing.  The walkers of `Json` are the library's paths and edits:

    • `jsonWalkMut_spec` — the walk ends where the path leads, and writing through
      the reference is an edit there;
    • `jsonRemove_view` — `json_remove` cuts off an object key;
    • `eq_of_view_eq` — documents whose objects repeat no key are their views.
-/
import DockerProxy.Json
import DockerProxy.Lib.Views

namespace DockerProxy

open DockerProxy.Lib

/-! ## §1. The entries of an object. -/

section

variable {map : List (String × JsonValue)} {key key' : String}

theorem objectGet_isSome : (objectGet map key).isSome = true ↔ key ∈ map.map Prod.fst := by
  unfold objectGet
  rw [List.lookup_isSome_iff, List.mem_map]
  refine exists_congr fun e => and_congr_right fun _ => ?_
  rw [beq_iff_eq, eq_comm]

theorem objectGet_cons (e : String × JsonValue) :
    objectGet (e :: map) key = if key = e.1 then some e.2 else objectGet map key := by
  unfold objectGet
  rw [List.lookup_cons]
  by_cases h : key = e.1
  · have hbeq : (key == e.1) = true := beq_iff_eq.mpr h
    rw [if_pos h, hbeq]
  · have hbeq : (key == e.1) = false := beq_eq_false_iff_ne.mpr h
    rw [if_neg h, hbeq]

theorem mem_of_objectGet {v : JsonValue} (h : objectGet map key = some v) : (key, v) ∈ map := by
  obtain ⟨before, after, hmap, -⟩ := List.lookup_eq_some_iff.mp h
  rw [hmap]
  exact List.mem_append_right before List.mem_cons_self

/-- Writing under a key is seen under that key alone. -/
theorem objectGet_objectSet (w : JsonValue) : objectGet (objectSet map key w) key' =
    if key' = key then (objectGet map key).map fun _ => w else objectGet map key' := by
  induction map with
  | nil => split <;> rfl
  | cons e map ih =>
      have hset : objectSet (e :: map) key w =
          (if e.1 = key then (e.1, w) else e) :: objectSet map key w := rfl
      rw [hset, objectGet_cons, objectGet_cons, objectGet_cons, ih]
      by_cases he : e.1 = key <;> by_cases hk : key' = key
      · simp [he, hk]
      · simp [he, hk]
      · simp [he, hk, Ne.symm he]
      · simp [he, hk]

theorem keys_objectSet (w : JsonValue) :
    (objectSet map key w).map Prod.fst = map.map Prod.fst := by
  unfold objectSet
  rw [List.map_map]
  refine List.map_congr_left fun e _ => ?_
  show (if e.1 = key then (e.1, w) else e).1 = e.1
  split <;> rfl

/-- Removing a key is seen under that key alone. -/
theorem objectGet_objectRemove : objectGet (objectRemove map key) key' =
    if key' = key then none else objectGet map key' := by
  induction map with
  | nil => split <;> rfl
  | cons e map ih =>
      unfold objectRemove at ih ⊢
      by_cases he : e.1 = key
      · rw [List.filter_cons_of_neg (by simpa using he), ih, objectGet_cons, he]
        split
        · rfl
        · rfl
      · rw [List.filter_cons_of_pos (by simpa using he), objectGet_cons, objectGet_cons, ih]
        by_cases hk : key' = key
        · simp [hk, Ne.symm he]
        · simp [hk]

theorem keys_objectRemove :
    (objectRemove map key).map Prod.fst = (map.map Prod.fst).filter fun k => k ≠ key := by
  unfold objectRemove
  rw [List.filter_map]
  rfl

end

/-! ## §2. Locations. -/

/-- One step into a document. -/
inductive Step where
  | key (key : String)
  | index (idx : Nat)
  deriving DecidableEq

/-- A value without the values inside of it. -/
inductive Shape where
  | null
  | bool (b : Bool)
  | number (n : Number)
  | string (s : String)
  | array (length : Nat)
  | object (keys : List String)
  deriving DecidableEq

namespace JsonValue

/-- What stands at the root. -/
def shape : JsonValue → Shape
  | .null => .null
  | .bool b => .bool b
  | .number n => .number n
  | .string s => .string s
  | .array items => .array items.length
  | .object entries => .object (entries.map Prod.fst)

/-- The value one step inside. -/
def child : JsonValue → Step → Option JsonValue
  | .object entries, .key k => objectGet entries k
  | .array items, .index i => items[i]?
  | _, _ => none

/-- The value with `w` one step inside. -/
def setChild : JsonValue → Step → JsonValue → JsonValue
  | .object entries, .key k, w => .object (objectSet entries k w)
  | .array items, .index i, w => .array (items.set i w)
  | v, _, _ => v

/-- The value at a location. -/
def valueAt : JsonValue → List Step → Option JsonValue
  | v, [] => some v
  | v, st :: loc => (v.child st).bind fun c => c.valueAt loc

/-- **The view of a document.** -/
def view (v : JsonValue) : View Step Shape := fun loc => (v.valueAt loc).map shape

/-- No object repeats a key. -/
def UniqueKeys (v : JsonValue) : Prop :=
  v.view.All fun s => ∀ keys, s = .object keys → keys.Nodup

theorem view_nil (v : JsonValue) : v.view [] = some v.shape := rfl

theorem view_cons (v : JsonValue) (st : Step) (loc : List Step) :
    v.view (st :: loc) = (v.child st).bind fun c => c.view loc := by
  unfold view
  rw [valueAt]
  cases v.child st <;> rfl

theorem view_below {v c : JsonValue} {st : Step} (h : v.child st = some c) :
    v.view.below [st] = c.view := by
  funext loc
  show v.view (st :: loc) = _
  rw [view_cons, h, Option.bind_some]

theorem shape_setChild (v : JsonValue) (st : Step) (w : JsonValue) :
    (v.setChild st w).shape = v.shape := by
  unfold setChild
  split
  · exact congrArg Shape.object (keys_objectSet _)
  · exact congrArg Shape.array List.length_set
  · rfl

/-- Setting a child is seen in that child alone. -/
theorem child_setChild {v c : JsonValue} {st : Step} (h : v.child st = some c) (w : JsonValue)
    (st' : Step) : (v.setChild st w).child st' = if st' = st then some w else v.child st' := by
  unfold child at h
  split at h
  next entries k =>
    cases st' with
    | key k' =>
        show objectGet (objectSet entries k w) k' = _
        rw [objectGet_objectSet, h]
        simp [child]
    | index i => rw [if_neg (by simp)]; rfl
  next items i =>
    cases st' with
    | key k' => rw [if_neg (by simp)]; rfl
    | index j =>
        show (items.set i w)[j]? = _
        have hlt : i < items.length := (List.getElem?_eq_some_iff.mp h).1
        rw [List.getElem?_set]
        by_cases hij : j = i
        · simp [hij, hlt]
        · simp [hij, Ne.symm hij, child]
  next => exact absurd h (by simp)

/-- Setting a child is an edit. -/
theorem view_setChild {v c : JsonValue} {st : Step} (h : v.child st = some c) (w : JsonValue)
    (erase : Shape → Step → Shape) :
    (v.setChild st w).view = edit erase (some w.view) [st] v.view := by
  funext loc
  cases loc with
  | nil => rw [edit_root_of_append (Or.inr rfl), view_nil, view_nil, shape_setChild]
  | cons st' loc =>
      rw [view_cons, child_setChild h, edit]
      split
      · rfl
      · rw [view_cons]

end JsonValue

/-! ## §3. Paths. -/

/-- A node without its child at the step; array elements stay. -/
def eraseStep : Shape → Step → Shape
  | .object keys, .key key => .object (keys.filter fun k => k ≠ key)
  | s, _ => s

/-- The key, if the node is an object that has it. -/
def keyStep (key : String) : Shape → Option Step
  | .object keys => if key ∈ keys then some (.key key) else none
  | _ => none

/-- The child that a segment of `json_get_mut` names. -/
def segmentStep (segment : String) (s : Shape) : Option Step :=
  if segment.isEmpty then none
  else
    match s with
    | .array length => ((parseUsize segment).filter fun idx => decide (idx < length)).map .index
    | s => keyStep segment s

theorem keyStep_eq_some {key : String} {s : Shape} {st : Step} :
    keyStep key s = some st ↔ ∃ keys, s = .object keys ∧ key ∈ keys ∧ st = .key key := by
  cases s with
  | object keys =>
      show (if key ∈ keys then some (Step.key key) else none) = some st ↔ _
      simp [eq_comm]
  | _ => simp [keyStep]

theorem keyStep_erase (key : String) {s : Shape} {st st' : Step} (h : keyStep key s = some st)
    (hne : st ≠ st') : keyStep key (eraseStep s st') = some st := by
  obtain ⟨keys, rfl, hmem, rfl⟩ := keyStep_eq_some.mp h
  cases st' with
  | key k =>
      have hk : key ≠ k := fun heq => hne (by rw [heq])
      exact keyStep_eq_some.mpr ⟨_, rfl, List.mem_filter.mpr ⟨hmem, decide_eq_true hk⟩, rfl⟩
  | index i => exact h

theorem segmentStep_erase (segment : String) {s : Shape} {st st' : Step}
    (h : segmentStep segment s = some st) (hne : st ≠ st') :
    segmentStep segment (eraseStep s st') = some st := by
  unfold segmentStep at h ⊢
  split at h
  next => exact absurd h (by simp)
  next hempty =>
    rw [if_neg hempty]
    cases s with
    | array length => exact h
    | object keys =>
        have hkey := keyStep_erase segment (s := .object keys) h hne
        cases st' <;> exact hkey
    | _ => exact absurd h (by simp [keyStep])

/-- A segment, as `json_get_mut` reads it. -/
def walkSegment (segment : String) : Segment eraseStep :=
  ⟨segmentStep segment, segmentStep_erase segment⟩

/-- A segment that is an object key as it stands. -/
def keySegment (key : String) : Segment eraseStep := ⟨keyStep key, keyStep_erase key⟩

/-- A mutable reference that points at a location. -/
def PointsAt (v : JsonValue) (q : List Step) (ref : JsonRef) : Prop :=
  v.view.below q = ref.1.view ∧ ∀ w, (ref.2 w).view = edit eraseStep (some w.view) q v.view

/-- One segment of `json_get_mut`. -/
theorem jsonChildMut_cases (v : JsonValue) (segment : String) :
    (segmentStep segment v.shape = none ∧ jsonChildMut v segment = none) ∨
      ∃ st c, segmentStep segment v.shape = some st ∧ v.child st = some c ∧
        jsonChildMut v segment = some (c, v.setChild st) := by
  unfold segmentStep jsonChildMut
  by_cases hempty : segment.isEmpty = true
  · rw [if_pos hempty, if_pos hempty]
    exact Or.inl ⟨rfl, rfl⟩
  · rw [if_neg hempty, if_neg hempty]
    cases v with
    | object map =>
        have hmem : (objectGet map segment).isSome = true ↔ segment ∈ map.map Prod.fst :=
          objectGet_isSome
        cases hget : objectGet map segment with
        | none =>
            rw [hget] at hmem
            exact Or.inl ⟨if_neg fun h => absurd (hmem.mpr h) (by simp), by simp [hget]⟩
        | some c =>
            rw [hget] at hmem
            refine Or.inr ⟨.key segment, c, if_pos (hmem.mp rfl), hget, ?_⟩
            simp only [hget, Option.map_some]
            rfl
    | array arr =>
        simp only [JsonValue.shape]
        cases parseUsize segment with
        | none => exact Or.inl ⟨rfl, rfl⟩
        | some idx =>
            by_cases hlt : idx < arr.length
            · refine Or.inr ⟨.index idx, arr[idx], ?_, List.getElem?_eq_getElem hlt, ?_⟩
              · simp [hlt]
              · simp [hlt]
                rfl
            · have hge : arr.length ≤ idx := Nat.not_lt.mp hlt
              exact Or.inl ⟨by simp [hge], by simp [hge]⟩
    | _ => exact Or.inl ⟨rfl, rfl⟩

theorem pointsAt_child {v c : JsonValue} {st : Step} (h : v.child st = some c) :
    PointsAt v [st] (c, v.setChild st) :=
  ⟨JsonValue.view_below h, fun w => JsonValue.view_setChild h w eraseStep⟩

/-- A reference through a reference. -/
theorem PointsAt.trans {v c t : JsonValue} {p q : List Step} {put put' : JsonValue → JsonValue}
    (hc : PointsAt v p (c, put)) (ht : PointsAt c q (t, put')) :
    PointsAt v (p ++ q) (t, fun w => put (put' w)) := by
  obtain ⟨hbelow, hput⟩ := hc
  obtain ⟨hbelow', hput'⟩ := ht
  have hview : (v.view.below p).below q = t.view := by rw [hbelow]; exact hbelow'
  refine ⟨?_, fun w => ?_⟩
  · funext loc
    rw [← hview]
    show v.view (p ++ q ++ loc) = v.view (p ++ (q ++ loc))
    rw [List.append_assoc]
  · show (put (put' w)).view = _
    rw [hput, hput', ← hbelow]
    exact edit_append p (Or.inr rfl) v.view

/-- **The walk of `json_get_mut`** ends where the path leads. -/
theorem jsonWalkMut_spec (segments : List String) : ∀ v, segments ≠ [] →
    (resolve (segments.map walkSegment) v.view = none ∧ jsonWalkMut v segments = none) ∨
      ∃ q ref, resolve (segments.map walkSegment) v.view = some q ∧
        jsonWalkMut v segments = some ref ∧ PointsAt v q ref := by
  induction segments with
  | nil => intro v h; exact absurd rfl h
  | cons segment rest ih =>
      intro v _
      have hroot : (v.view []).bind (walkSegment segment).step = segmentStep segment v.shape := rfl
      rw [List.map_cons, resolve_cons, hroot]
      obtain ⟨hstep, hchild⟩ | ⟨st, c, hstep, hc, hchild⟩ := jsonChildMut_cases v segment
      · -- the first segment names nothing, whether it is the last or not
        refine Or.inl ⟨by rw [hstep]; rfl, ?_⟩
        cases rest with
        | nil => exact hchild
        | cons next rest => unfold jsonWalkMut; rw [hchild]; rfl
      · rw [hstep, Option.bind_some, JsonValue.view_below hc]
        have hat := pointsAt_child hc
        cases rest with
        | nil => exact Or.inr ⟨[st], _, rfl, hchild, hat⟩
        | cons next rest =>
            -- the walk goes on in the child, and writes back through it
            have hwalk : jsonWalkMut v (segment :: next :: rest) =
                (jsonWalkMut c (next :: rest)).map
                  fun ref => (ref.1, fun w => v.setChild st (ref.2 w)) := by
              rw [jsonWalkMut, hchild]
              · rfl
              · exact List.cons_ne_nil next rest
            rw [hwalk]
            obtain ⟨hnone, hnone'⟩ | ⟨q, ref, hq, hsome, hpoints⟩ :=
              ih c (List.cons_ne_nil next rest)
            · rw [hnone, hnone']
              exact Or.inl ⟨rfl, rfl⟩
            · rw [hq, hsome]
              exact Or.inr ⟨st :: q, _, rfl, rfl, hat.trans hpoints⟩

/-- The path of a text, as `json_get_mut` reads it. -/
def walkPath (path : String) : List (Segment eraseStep) := (splitStr path '.').map walkSegment

/-- The path of a text, as a removal reads it: the last segment is an object key. -/
def removePath (path : String) : List (Segment eraseStep) :=
  (splitStr path '.').dropLast.map walkSegment ++ [keySegment ((splitStr path '.').getLastD "")]

/-- **Writing through `json_get_mut`** is an edit by its path. -/
theorem jsonGetMut_view (v : JsonValue) (path : String) (w : JsonValue) :
    (match jsonGetMut v path with | some (_, put) => put w | none => v).view =
      (Edit.mk (walkPath path) (some w.view)).run v.view := by
  unfold jsonGetMut walkPath
  obtain ⟨hnone, hnone'⟩ | ⟨q, ref, hq, hsome, -, hput⟩ :=
    jsonWalkMut_spec (splitStr path '.') v (splitStr_ne_nil path '.')
  · rw [Edit.run_of_none hnone, hnone']
  · rw [Edit.run_of_some hq, hsome]
    exact hput w

/-! ## §4. Removing a key. -/

/-- The value without the key, if it is an object. -/
def removeKey (key : String) : JsonValue → JsonValue
  | .object map => .object (objectRemove map key)
  | other => other

theorem removeKey_of_not_mem {map : List (String × JsonValue)} {key : String}
    (h : key ∉ map.map Prod.fst) : removeKey key (.object map) = .object map := by
  refine congrArg JsonValue.object (List.filter_eq_self.mpr fun e he => ?_)
  refine decide_eq_true fun hkey => h ?_
  rw [← hkey]
  exact List.mem_map_of_mem he

theorem child_removeKey (map : List (String × JsonValue)) (key : String) (st : Step) :
    (removeKey key (.object map)).child st =
      if st = .key key then none else (JsonValue.object map).child st := by
  cases st with
  | key k =>
      refine objectGet_objectRemove.trans ?_
      by_cases hk : k = key
      · rw [if_pos hk, if_pos (congrArg Step.key hk)]
      · rw [if_neg hk, if_neg fun h => hk (Step.key.inj h)]
        rfl
  | index i => rw [if_neg (by simp)]; rfl

/-- An object that loses a key. -/
theorem view_objectRemove (map : List (String × JsonValue)) (key : String) :
    (removeKey key (.object map)).view =
      edit eraseStep none [.key key] (JsonValue.object map).view := by
  funext loc
  cases loc with
  | nil =>
      show some (Shape.object _) = some (Shape.object _)
      rw [keys_objectRemove]
  | cons st loc =>
      rw [JsonValue.view_cons, child_removeKey, edit]
      split
      · rfl
      · rw [JsonValue.view_cons]

/-- **Removing a key** is cutting it off. -/
theorem removeKey_view (key : String) (v : JsonValue) :
    (removeKey key v).view = (Edit.mk [keySegment key] none).run v.view := by
  have hresolve : resolve [keySegment key] v.view = (keyStep key v.shape).map ([·]) := by
    rw [resolve_cons]
    show (keyStep key v.shape).bind (fun st => some [st]) = _
    cases keyStep key v.shape <;> rfl
  cases v with
  | object map =>
      by_cases hmem : key ∈ map.map Prod.fst
      · have hstep : keyStep key (JsonValue.object map).shape = some (.key key) :=
          keyStep_eq_some.mpr ⟨_, rfl, hmem, rfl⟩
        rw [hstep] at hresolve
        rw [Edit.run_of_some hresolve, view_objectRemove]
      · -- a key that is not there: the path names nothing, and nothing is removed
        have hstep : keyStep key (JsonValue.object map).shape = none := if_neg hmem
        rw [hstep] at hresolve
        rw [Edit.run_of_none hresolve, removeKey_of_not_mem hmem]
  | _ => exact (Edit.run_of_none hresolve).symm

/-- **`json_remove`** cuts off the object key that its path names. -/
theorem jsonRemove_view (v : JsonValue) {path : String} (h : (splitStr path '.').length ≠ 1) :
    (jsonRemove v path).2.view = (Edit.mk (removePath path) none).run v.view := by
  have hlen : ¬ (splitStr path '.').length < 2 := by
    have hpos := List.length_pos_iff.mpr (splitStr_ne_nil path '.')
    omega
  have hne : (splitStr path '.').dropLast ≠ [] := by
    rw [← List.length_pos_iff, List.length_dropLast]
    omega
  -- joining the parent's segments and splitting again changes nothing
  have hparent : splitStr (joinStr (splitStr path '.').dropLast ".") '.' =
      (splitStr path '.').dropLast :=
    splitStr_joinStr rfl hne fun part hpart => List.mem_of_mem_dropLast hpart
  unfold jsonRemove jsonGetMut removePath
  simp only [if_neg hlen, hparent]
  obtain ⟨hnone, hnone'⟩ | ⟨q, ref, hq, hsome, hbelow, hput⟩ :=
    jsonWalkMut_spec (splitStr path '.').dropLast v hne
  · rw [hnone']
    have hpath := resolve_append ((splitStr path '.').dropLast.map walkSegment)
      [keySegment ((splitStr path '.').getLastD "")] v.view
    rw [hnone] at hpath
    rw [Edit.run_of_none hpath]
  · rw [hsome, Edit.run_append (Or.inl (List.cons_ne_nil _ _)) hq, hbelow, ← removeKey_view, ← hput]
    obtain ⟨t, put⟩ := ref
    cases t with
    | object map => rfl
    | _ =>
        -- the parent is no object: writing it back changes nothing
        have hself : edit eraseStep (some (v.view.below q)) q v.view = v.view := edit_self q v.view
        rw [hput]
        rw [hbelow] at hself
        exact hself.symm

/-! ## §5. Documents are their views. -/

namespace JsonValue

theorem sizeOf_child_lt {v c : JsonValue} {st : Step} (h : v.child st = some c) :
    sizeOf c < sizeOf v := by
  unfold child at h
  split at h
  next entries k =>
    have hlt := List.sizeOf_lt_of_mem (mem_of_objectGet h)
    simp only [Prod.mk.sizeOf_spec] at hlt
    simp only [object.sizeOf_spec]
    omega
  next items i =>
    have hlt := List.sizeOf_lt_of_mem (List.mem_of_getElem? h)
    simp only [array.sizeOf_spec]
    omega
  next => exact absurd h (by simp)

/-- **Induction over a document**: from the values one step inside. -/
theorem child_induction {P : JsonValue → Prop}
    (step : ∀ v : JsonValue, (∀ st c, v.child st = some c → P c) → P v) (v : JsonValue) : P v :=
  step v fun _ c h =>
    have := sizeOf_child_lt h
    child_induction step c
termination_by v

/-- Keys are unique at the root and inside. -/
theorem uniqueKeys_iff {v : JsonValue} : v.UniqueKeys ↔
    (∀ keys, v.shape = .object keys → keys.Nodup) ∧ ∀ st c, v.child st = some c → c.UniqueKeys := by
  refine Iff.intro (fun hv => ⟨hv [] _ rfl, fun st c hc loc s hs => ?_⟩) (fun h loc s hs => ?_)
  · refine hv (st :: loc) s ?_
    rw [view_cons, hc]
    exact hs
  · obtain ⟨hroot, hchild⟩ := h
    cases loc with
    | nil =>
        injection hs with hs
        rw [← hs]
        exact hroot
    | cons st loc =>
        rw [view_cons] at hs
        obtain ⟨c, hc, hs⟩ := Option.bind_eq_some_iff.mp hs
        exact hchild st c hc loc s hs

theorem uniqueKeys_object {map : List (String × JsonValue)} (hkeys : (map.map Prod.fst).Nodup)
    (hentries : ∀ e ∈ map, e.2.UniqueKeys) : (JsonValue.object map).UniqueKeys := by
  refine uniqueKeys_iff.mpr ⟨fun keys h => ?_, fun st c h => ?_⟩
  · injection h with h
    rw [← h]
    exact hkeys
  · cases st with
    | key k => exact hentries (k, c) (mem_of_objectGet h)
    | index i => cases h

/-- The view of a child is in the view of the document. -/
theorem view_child_eq {v w c d : JsonValue} {st : Step} (h : v.view = w.view)
    (hc : v.child st = some c) (hd : w.child st = some d) : c.view = d.view := by
  rw [← view_below hc, ← view_below hd, h]

/-- An entry of an object without repeated keys is what its key gets. -/
theorem objectGet_of_mem {map : List (String × JsonValue)} (hkeys : (map.map Prod.fst).Nodup)
    {e : String × JsonValue} (he : e ∈ map) : objectGet map e.1 = some e.2 := by
  induction map with
  | nil => exact absurd he List.not_mem_nil
  | cons first map ih =>
      rw [List.map_cons, List.nodup_cons] at hkeys
      rw [objectGet_cons]
      cases List.mem_cons.mp he with
      | inl he => rw [he, if_pos rfl]
      | inr he =>
          have hne : e.1 ≠ first.1 := by
            intro hkey
            refine hkeys.1 ?_
            rw [← hkey]
            exact List.mem_map_of_mem he
          rw [if_neg hne]
          exact ih hkeys.2 he

/-- **Documents are their views**, if their objects repeat no key. -/
theorem eq_of_view_eq (v : JsonValue) : ∀ w : JsonValue, v.UniqueKeys → w.UniqueKeys →
    v.view = w.view → v = w := by
  induction v using child_induction with
  | step v ih =>
      intro w hv hw h
      have hshape : v.shape = w.shape := Option.some.inj (congrFun h [])
      have hchild : ∀ {st : Step} {c d : JsonValue}, v.child st = some c → w.child st = some d →
          c = d := fun hc hd =>
        ih _ _ hc _ ((uniqueKeys_iff.mp hv).2 _ _ hc) ((uniqueKeys_iff.mp hw).2 _ _ hd)
          (view_child_eq h hc hd)
      cases v with
      | array items =>
          cases w with
          | array items' =>
              injection hshape with hlen
              refine congrArg JsonValue.array (List.ext_getElem hlen fun i hi hi' => ?_)
              have hc : (JsonValue.array items).child (.index i) = some items[i] :=
                List.getElem?_eq_getElem hi
              exact hchild hc (List.getElem?_eq_getElem hi')
          | _ => exact absurd hshape (by simp [shape])
      | object map =>
          cases w with
          | object map' =>
              injection hshape with hkeys
              have hnodup : (map.map Prod.fst).Nodup := (uniqueKeys_iff.mp hv).1 _ rfl
              have hnodup' : (map'.map Prod.fst).Nodup := (uniqueKeys_iff.mp hw).1 _ rfl
              have hlen : map.length = map'.length := by
                rw [← List.length_map Prod.fst, hkeys, List.length_map]
              refine congrArg JsonValue.object (List.ext_getElem hlen fun i hi hi' => ?_)
              have hkey : map[i].1 = map'[i].1 := by
                have hget := congrArg (fun keys => keys[i]?) hkeys
                simpa [hi, hi'] using hget
              have hc : (JsonValue.object map).child (.key map[i].1) = some map[i].2 :=
                objectGet_of_mem hnodup (List.getElem_mem hi)
              refine Prod.ext hkey (hchild hc ?_)
              rw [hkey]
              exact objectGet_of_mem hnodup' (List.getElem_mem hi')
          | _ => exact absurd hshape (by simp [shape])
      | _ => cases w <;> simp_all [shape]

end JsonValue

end DockerProxy
