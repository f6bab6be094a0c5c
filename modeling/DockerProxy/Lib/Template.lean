/-
  DockerProxy.Lib.Template — texts with references, and what they read filled in.

  A text is read from left to right: where a reference begins, the reference is one
  piece, and elsewhere one letter is.  What a reference looks like is a parameter:
  `Ref text name rest` says that `text` begins with a reference to `name`, and that
  `rest` follows it.

    • `exists_reads` — every text can be read, if a reference is not empty,
    • `reads_letters` — a text without references reads letter by letter.
-/
import Mathlib.Data.List.Basic

namespace DockerProxy.Lib

variable {α ν : Type*}

/-- A letter that stands for itself, or a reference. -/
inductive Piece (α ν : Type*) where
  | letter (a : α)
  | reference (name : ν)

/-- **How a text is read.** -/
inductive Reads (Ref : List α → ν → List α → Prop) : List α → List (Piece α ν) → Prop
  | nil : Reads Ref [] []
  | reference {text name rest pieces} (href : Ref text name rest) (hrest : Reads Ref rest pieces) :
      Reads Ref text (.reference name :: pieces)
  | letter {a text pieces} (hno : ∀ name rest, ¬ Ref (a :: text) name rest)
      (hrest : Reads Ref text pieces) : Reads Ref (a :: text) (.letter a :: pieces)

variable {Ref : List α → ν → List α → Prop}

/-- **Every text can be read**, if a reference takes up some of it. -/
theorem exists_reads (hshorter : ∀ text name rest, Ref text name rest → rest.length < text.length)
    (n : Nat) : ∀ text : List α, text.length ≤ n → ∃ pieces, Reads Ref text pieces := by
  induction n with
  | zero =>
      intro text hlen
      rw [List.length_eq_zero_iff.mp (Nat.le_zero.mp hlen)]
      exact ⟨[], .nil⟩
  | succ n ih =>
      intro text hlen
      cases text with
      | nil => exact ⟨[], .nil⟩
      | cons a text =>
          rw [List.length_cons] at hlen
          by_cases href : ∃ name rest, Ref (a :: text) name rest
          · obtain ⟨name, rest, href⟩ := href
            have hrest := hshorter _ _ _ href
            rw [List.length_cons] at hrest
            obtain ⟨pieces, hpieces⟩ := ih rest (by omega)
            exact ⟨_, .reference href hpieces⟩
          · obtain ⟨pieces, hpieces⟩ := ih text (by omega)
            exact ⟨_, .letter (fun name rest h => href ⟨name, rest, h⟩) hpieces⟩

/-- **A text without references** reads letter by letter. -/
theorem reads_letters {text : List α} (hno : ∀ suffix, suffix <:+ text → ∀ name rest,
    ¬ Ref suffix name rest) : Reads Ref text (text.map Piece.letter) := by
  induction text with
  | nil => exact .nil
  | cons a text ih =>
      refine .letter (hno (a :: text) (List.suffix_refl _)) (ih fun suffix hsuffix => ?_)
      exact hno suffix (hsuffix.trans (List.suffix_cons a text))

/-- The text of the pieces, with the values of the references in their place. -/
def fill (value : ν → List α) (pieces : List (Piece α ν)) : List α :=
  pieces.flatMap fun
    | .letter a => [a]
    | .reference name => value name

@[simp] theorem fill_nil (value : ν → List α) : fill value [] = [] := rfl

@[simp] theorem fill_letter (value : ν → List α) (a : α) (pieces : List (Piece α ν)) :
    fill value (.letter a :: pieces) = a :: fill value pieces := rfl

@[simp] theorem fill_reference (value : ν → List α) (name : ν) (pieces : List (Piece α ν)) :
    fill value (.reference name :: pieces) = value name ++ fill value pieces := rfl

/-- Letters are filled in with themselves. -/
theorem fill_letters (value : ν → List α) (text : List α) :
    fill value (text.map Piece.letter) = text := by
  induction text with
  | nil => rfl
  | cons a text ih => rw [List.map_cons, fill_letter, ih]

end DockerProxy.Lib
