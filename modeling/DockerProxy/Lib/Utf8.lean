/-
  DockerProxy.Lib.Utf8 — text as Unicode scalar values, and its UTF-8 bytes.

  A text is a `List Char`; `utf8` is its encoding, `asBytes` the encoding of a
  `String` and `fromUtf8` the checked decoder.  The one fact that byte-level
  parsers need is `utf8_eq_append_cons`: an ASCII byte in an encoded text is a
  character of that text, so cutting the bytes there cuts the text there.
-/
import Mathlib.Data.List.Basic

namespace DockerProxy.Lib

/-! ## §1. Encoding and decoding. -/

/-- The UTF-8 bytes of a text. -/
def utf8 (cs : List Char) : List UInt8 := cs.flatMap String.utf8EncodeChar

/-- The UTF-8 bytes of a string. -/
def asBytes (s : String) : List UInt8 := utf8 s.toList

/-- The checked decoder: the string with these bytes, if there is one. -/
def fromUtf8 (bytes : List UInt8) : Option String := String.fromUTF8? ⟨bytes.toArray⟩

@[simp] theorem utf8_nil : utf8 [] = [] := rfl

@[simp] theorem utf8_cons (c : Char) (cs : List Char) :
    utf8 (c :: cs) = String.utf8EncodeChar c ++ utf8 cs := rfl

@[simp] theorem utf8_append (cs ds : List Char) : utf8 (cs ++ ds) = utf8 cs ++ utf8 ds := by
  simp [utf8]

theorem toByteArray_eq (s : String) : s.toByteArray = ⟨(asBytes s).toArray⟩ := by
  rw [← String.utf8Encode_toList]
  apply ByteArray.ext
  apply Array.toList_inj.mp
  show (List.utf8Encode s.toList).data.toList = _
  rw [List.utf8Encode, List.toList_data_toByteArray]
  rfl

/-- **The decoder inverts the encoder**, and accepts nothing else. -/
theorem fromUtf8_eq_some {bytes : List UInt8} {s : String} :
    fromUtf8 bytes = some s ↔ asBytes s = bytes := by
  constructor
  · intro h
    unfold fromUtf8 String.fromUTF8? at h
    split at h
    next hv =>
      injection h with h
      subst h
      have hb := toByteArray_eq (String.fromUTF8 ⟨bytes.toArray⟩ hv)
      have hb' : (ByteArray.mk bytes.toArray) = ⟨(asBytes (String.fromUTF8 _ hv)).toArray⟩ := hb
      injection hb' with hb'
      exact (List.toArray_inj hb').symm
    next => exact absurd h (by simp)
  · intro h
    have hb : (⟨bytes.toArray⟩ : ByteArray) = s.toByteArray := by rw [toByteArray_eq, h]
    unfold fromUtf8 String.fromUTF8?
    rw [hb, dif_pos s.isValidUTF8]
    rfl

@[simp] theorem fromUtf8_asBytes (s : String) : fromUtf8 (asBytes s) = some s :=
  fromUtf8_eq_some.mpr rfl

theorem asBytes_inj {s t : String} : asBytes s = asBytes t ↔ s = t := by
  constructor
  · intro h
    have hs := fromUtf8_asBytes s
    rw [h, fromUtf8_asBytes] at hs
    exact (Option.some.inj hs).symm
  · rintro rfl; rfl

theorem asBytes_append (s t : String) : asBytes (s ++ t) = asBytes s ++ asBytes t := by
  simp [asBytes]

@[simp] theorem asBytes_ofList (cs : List Char) : asBytes (String.ofList cs) = utf8 cs := by
  simp [asBytes]

theorem length_asBytes (s : String) : (asBytes s).length = s.utf8ByteSize := by
  rw [← String.size_toByteArray, toByteArray_eq]
  exact List.size_toArray.symm

/-! ## §2. ASCII characters are single bytes, and the only ones below `0x80`. -/

/-- A character below `0x80` is encoded as itself. -/
theorem utf8EncodeChar_ascii {c : Char} (h : c.toNat ≤ 0x7f) :
    String.utf8EncodeChar c = [UInt8.ofNat c.toNat] := by
  unfold String.utf8EncodeChar
  exact if_pos h

/-- An ASCII byte in the encoding of a character is the whole encoding. -/
theorem utf8EncodeChar_of_ascii_mem {c : Char} {b : UInt8} (hb : b ∈ String.utf8EncodeChar c)
    (hlt : b.toNat < 0x80) : c.toNat = b.toNat := by
  have hc : c.toNat = c.val.toNat := rfl
  rw [hc]
  simp only [String.utf8EncodeChar] at hb
  split at hb
  · simp only [List.mem_singleton] at hb
    subst hb
    simp only [UInt8.toNat_ofNat']
    omega
  · exfalso
    split at hb <;> [skip; split at hb] <;>
      simp only [List.mem_cons, List.not_mem_nil, or_false] at hb
    · rcases hb with rfl | rfl <;> simp only [UInt8.toNat_ofNat'] at hlt <;> omega
    · rcases hb with rfl | rfl | rfl <;> simp only [UInt8.toNat_ofNat'] at hlt <;> omega
    · rcases hb with rfl | rfl | rfl | rfl <;> simp only [UInt8.toNat_ofNat'] at hlt <;> omega

/-- The character with an ASCII byte's code. -/
theorem char_eq_of_ascii_mem {c d : Char} (hd : d.toNat < 0x80)
    (hb : UInt8.ofNat d.toNat ∈ String.utf8EncodeChar c) : c = d := by
  have hn : (UInt8.ofNat d.toNat).toNat = d.toNat := by
    simp only [UInt8.toNat_ofNat']
    omega
  have h := utf8EncodeChar_of_ascii_mem hb (by rw [hn]; exact hd)
  rw [hn] at h
  exact Char.toNat_inj.mp h

/-- An ASCII byte occurs in an encoded text exactly when its character does. -/
theorem mem_utf8_ascii {cs : List Char} {d : Char} (hd : d.toNat < 0x80) :
    UInt8.ofNat d.toNat ∈ utf8 cs ↔ d ∈ cs := by
  simp only [utf8, List.mem_flatMap]
  constructor
  · rintro ⟨c, hc, hb⟩
    exact char_eq_of_ascii_mem hd hb ▸ hc
  · intro h
    refine ⟨d, h, ?_⟩
    rw [utf8EncodeChar_ascii (by omega)]
    exact List.mem_singleton_self _

/-- **Cutting at an ASCII byte.**  Bytes that decode and contain an ASCII byte
are the encoding of a text cut at that character. -/
theorem utf8_eq_append_cons {d : Char} (hd : d.toNat < 0x80) :
    ∀ (cs : List Char) (as bs : List UInt8),
      utf8 cs = as ++ UInt8.ofNat d.toNat :: bs →
      ∃ xs ys, cs = xs ++ d :: ys ∧ utf8 xs = as ∧ utf8 ys = bs := by
  intro cs
  induction cs with
  | nil => intro as bs h; simp at h
  | cons c cs ih =>
      intro as bs h
      rw [utf8_cons] at h
      -- either the cut falls inside the first character or after it
      rcases List.append_eq_append_iff.mp h with ⟨as', has, hcs⟩ | ⟨pre, hpre, hb⟩
      · obtain ⟨xs, ys, rfl, hxs, hys⟩ := ih as' bs hcs
        exact ⟨c :: xs, ys, rfl, by rw [utf8_cons, hxs, has], hys⟩
      · cases pre with
        | nil =>
            obtain ⟨xs, ys, hcs, hxs, hys⟩ := ih [] bs (by simpa using hb.symm)
            refine ⟨c :: xs, ys, by rw [hcs]; rfl, ?_, hys⟩
            rw [utf8_cons, hxs, hpre]
            simp
        | cons b pre =>
            simp only [List.cons_append, List.cons.injEq] at hb
            obtain ⟨rfl, hb⟩ := hb
            -- the byte belongs to the first character, which is therefore `d`
            have hcd : c = d := char_eq_of_ascii_mem hd (by rw [hpre]; simp)
            subst hcd
            rw [utf8EncodeChar_ascii (by omega)] at hpre
            cases as with
            | nil =>
                simp only [List.nil_append, List.cons.injEq, true_and] at hpre
                subst hpre
                exact ⟨[], cs, rfl, rfl, by simpa using hb.symm⟩
            | cons a as => simp at hpre

/-- Deciding a text's bytes decides the text. -/
theorem utf8_inj {cs ds : List Char} (h : utf8 cs = utf8 ds) : cs = ds := by
  have : asBytes (String.ofList cs) = asBytes (String.ofList ds) := by simpa using h
  simpa using congrArg String.toList (asBytes_inj.mp this)

end DockerProxy.Lib
