/-
  DockerProxy.Path.PercentDecode — the loop of `percent_decode`, and its language.

  The source walks an index over the bytes, by one at a plain byte and by three at an
  escape.  `percentDecodeLoop` is that loop, with the index checks of Rust: an access past
  the end would panic.

    • `percentDecodeLoop_eq` — at any index the loop ends, within a turn a byte and without
      a panic, with what `percentDecode` makes of the bytes from there on,
    • `percentDecode_eq_some_iff` — it accepts exactly the sequences of plain bytes and
      escapes (`Encodes`),
    • `percentDecode_exact` — both, and decoding piece by piece.
-/
import DockerProxy.Path.Canonicalize

namespace DockerProxy.Path

open DockerProxy.Lib

/-! ## §1. The loop. -/

/-- How a run of the loop ends. -/
inductive LoopEnd where
  /-- The function returns. -/
  | returned (result : Option (List UInt8))
  /-- An index is out of bounds. -/
  | panicked
  /-- The turns did not suffice. -/
  | running
  deriving DecidableEq

/-- The loop from index `i` on, with the bytes put out so far, for some turns. -/
def percentDecodeLoop (bytes : List UInt8) : Nat → Nat → List UInt8 → LoopEnd
  | 0, _, _ => .running
  | turns + 1, i, out =>
      if i < bytes.length then
        match bytes[i]? with
        | none => .panicked
        | some b =>
            if b = percentByte then
              -- `i + 2 >= bytes.len()`: the two digits are not there
              if bytes.length ≤ i + 2 then .returned none
              else
                match bytes[i + 1]?, bytes[i + 2]? with
                | some h, some l =>
                    match toDigit16 h, toDigit16 l with
                    | some h, some l =>
                        percentDecodeLoop bytes turns (i + 3) (out ++ [UInt8.ofNat (h * 16 + l)])
                    | _, _ => .returned none
                | _, _ => .panicked
            else percentDecodeLoop bytes turns (i + 1) (out ++ [b])
      else .returned (some out)

/-- A result with the bytes put out before it. -/
def endWith (out : List UInt8) (result : Option (List UInt8)) : LoopEnd :=
  .returned (result.map (out ++ ·))

theorem endWith_cons (out : List UInt8) (b : UInt8) (result : Option (List UInt8)) :
    endWith out (result.map (b :: ·)) = endWith (out ++ [b]) result := by
  unfold endWith
  cases result with
  | none => rfl
  | some rest => simp

/-- An escape is cut off at the end of the bytes. -/
theorem percentDecode_cut_off {rest : List UInt8} (h : rest.length < 2) :
    percentDecode (percentByte :: rest) = none := by
  match rest, h with
  | [], _ => rfl
  | [_], _ => rfl

/-- **The loop decodes the bytes from its index on**; with a turn for each of them, and one
more, it ends. -/
theorem percentDecodeLoop_eq (bytes : List UInt8) (turns : Nat) : ∀ (i : Nat) (out : List UInt8),
    bytes.length - i < turns →
      percentDecodeLoop bytes turns i out = endWith out (percentDecode (bytes.drop i)) := by
  induction turns with
  | zero => intro i out h; exact absurd h (Nat.not_lt_zero _)
  | succ turns ih =>
      intro i out h
      rw [percentDecodeLoop]
      by_cases hi : i < bytes.length
      · have hdrop : bytes.drop i = bytes[i] :: bytes.drop (i + 1) := List.drop_eq_getElem_cons hi
        rw [if_pos hi, List.getElem?_eq_getElem hi, hdrop]
        dsimp only
        by_cases hb : bytes[i] = percentByte
        · rw [if_pos hb, hb]
          by_cases hend : bytes.length ≤ i + 2
          · -- fewer than two bytes are left for the digits
            rw [if_pos hend, percentDecode_cut_off]
            · rfl
            · rw [List.length_drop]
              omega
          · have hh : i + 1 < bytes.length := by omega
            have hl : i + 2 < bytes.length := by omega
            rw [if_neg hend, List.getElem?_eq_getElem hh, List.getElem?_eq_getElem hl,
              List.drop_eq_getElem_cons hh, List.drop_eq_getElem_cons hl, percentDecode_escape]
            dsimp only
            cases toDigit16 bytes[i + 1] with
            | none => rfl
            | some x =>
                cases toDigit16 bytes[i + 2] with
                | none => rfl
                | some y =>
                    rw [Option.bind_some, Option.bind_some, endWith_cons]
                    exact ih (i + 3) _ (by omega)
        · rw [if_neg hb, percentDecode_cons_of_ne hb, endWith_cons]
          exact ih (i + 1) _ (by omega)
      · rw [if_neg hi, List.drop_eq_nil_of_le (Nat.not_lt.mp hi)]
        simp [endWith]

/-! ## §2. The language. -/

/-- **The text is a sequence of plain bytes and of escapes**, and these are its bytes. -/
inductive Encodes : List UInt8 → List UInt8 → Prop where
  | nil : Encodes [] []
  /-- A byte other than `%` stands for itself. -/
  | plain {b : UInt8} {text out : List UInt8} (hb : b ≠ percentByte) (h : Encodes text out) :
      Encodes (b :: text) (b :: out)
  /-- `%` and two hex digits stand for the byte they spell. -/
  | escape {h l : UInt8} {x y : Nat} {text out : List UInt8} (hh : toDigit16 h = some x)
      (hl : toDigit16 l = some y) (h' : Encodes text out) :
      Encodes (percentByte :: h :: l :: text) (UInt8.ofNat (x * 16 + y) :: out)

/-- **`percent_decode` accepts exactly the sequences of plain bytes and escapes**, and gives
their bytes. -/
theorem percentDecode_eq_some_iff {text out : List UInt8} :
    percentDecode text = some out ↔ Encodes text out := by
  constructor
  · intro h
    -- an escape takes three bytes at once, so the induction is on the length
    induction hn : text.length using Nat.strong_induction_on generalizing text out with
    | _ n ih =>
        subst hn
        cases text with
        | nil =>
            injection h with h
            rw [← h]
            exact .nil
        | cons b rest =>
            obtain ⟨hb, out', hrest, rfl⟩ |
                ⟨rfl, x, y, rest', u, v, out', rfl, hu, hv, hrest, rfl⟩ :=
              percentDecode_cons_cases h
            · exact .plain hb (ih rest.length (by simp) hrest rfl)
            · exact .escape hu hv (ih rest'.length (by simp; omega) hrest rfl)
  · intro h
    induction h with
    | nil => rfl
    | plain hb _ ih => rw [percentDecode_cons_of_ne hb, ih]; rfl
    | escape hh hl _ ih =>
        rw [percentDecode_escape, hh, hl, Option.bind_some, Option.bind_some, ih]
        rfl

/-- `percent_decode` on a string's bytes, in as many turns as it has bytes, and one more. -/
def percentDecodeRun (bytes : List UInt8) : LoopEnd :=
  percentDecodeLoop bytes (bytes.length + 1) 0 []

/-- **The loop is `percentDecode`**: it returns, for every string. -/
theorem percentDecodeRun_eq (bytes : List UInt8) :
    percentDecodeRun bytes = .returned (percentDecode bytes) := by
  unfold percentDecodeRun
  rw [percentDecodeLoop_eq bytes _ 0 [] (by omega), List.drop_zero]
  unfold endWith
  cases percentDecode bytes <;> rfl

/-- **What `percent_decode` accepts, and what it gives.**  It returns for every string,
without an access past the end: the bytes of a sequence of plain bytes and escapes, and
`None` for every other string.  After a string that is accepted, decoding goes on with
what follows. -/
theorem percentDecode_exact (bytes : List UInt8) :
    (∀ out, percentDecodeRun bytes = .returned (some out) ↔ Encodes bytes out) ∧
      (percentDecodeRun bytes = .returned none ↔ ¬ ∃ out, Encodes bytes out) ∧
      ∀ out, percentDecodeRun bytes = .returned (some out) → ∀ rest,
        percentDecodeRun (bytes ++ rest) = .returned ((percentDecode rest).map (out ++ ·)) := by
  have hsome : ∀ out, percentDecodeRun bytes = .returned (some out) ↔ Encodes bytes out := by
    intro out
    rw [percentDecodeRun_eq, LoopEnd.returned.injEq]
    exact percentDecode_eq_some_iff
  refine ⟨hsome, ?_, ?_⟩
  · rw [percentDecodeRun_eq, LoopEnd.returned.injEq, Option.eq_none_iff_forall_ne_some,
      not_exists]
    exact forall_congr' fun out => not_congr percentDecode_eq_some_iff
  · intro out h rest
    rw [percentDecodeRun_eq, LoopEnd.returned.injEq] at h
    rw [percentDecodeRun_eq, percentDecode_append bytes out rest h]

end DockerProxy.Path
