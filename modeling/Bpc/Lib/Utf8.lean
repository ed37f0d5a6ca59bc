/-
  UTF-8 — the encoding of a character is recognised from the FRONT (`utf8_injective`) and from the
  BACK.
-/
import Bpc.Lib.SlashPath
import Mathlib

namespace Bpc.Utf8

open SlashPath (Str)

/-- The bytes of a character. -/
abbrev encodeChar : Char → List UInt8 := String.utf8EncodeChar

/-- The bytes of a text. -/
def utf8 (s : Str) : List UInt8 := s.flatMap encodeChar

theorem utf8_cons (c : Char) (s : Str) : utf8 (c :: s) = encodeChar c ++ utf8 s := rfl

theorem utf8_append (s t : Str) : utf8 (s ++ t) = utf8 s ++ utf8 t := List.flatMap_append

/-! ## From the front -/

theorem eq_of_append_eq {c d : Char} {r t : List UInt8}
    (h : encodeChar c ++ r = encodeChar d ++ t) : c = d := by
  have hc := ByteArray.utf8DecodeChar?_utf8EncodeChar_append (b := r.toByteArray) (c := c)
  have hd := ByteArray.utf8DecodeChar?_utf8EncodeChar_append (b := t.toByteArray) (c := d)
  have heq : (encodeChar c).toByteArray ++ r.toByteArray = (encodeChar d).toByteArray ++
    t.toByteArray := by
    rw [← List.toByteArray_append, ← List.toByteArray_append, h]
  rw [heq, hd] at hc
  exact (Option.some.inj hc).symm

theorem encodeChar_ne_nil (c : Char) : encodeChar c ≠ [] := String.utf8EncodeChar_ne_nil

/-- **A text is determined by its bytes.** -/
theorem utf8_injective : Function.Injective utf8 := by
  intro s
  induction s with
  | nil =>
    intro t h
    cases t with
    | nil => rfl
    | cons d t => exact absurd (List.append_eq_nil_iff.mp h.symm).1 (encodeChar_ne_nil d)
  | cons c s ih =>
    intro t h
    cases t with
    | nil => exact absurd (List.append_eq_nil_iff.mp h).1 (encodeChar_ne_nil c)
    | cons d t =>
      rw [utf8_cons, utf8_cons] at h
      obtain rfl := eq_of_append_eq h
      rw [ih (List.append_cancel_left h)]

theorem utf8_eq_nil {s : Str} : utf8 s = [] ↔ s = [] :=
  ⟨fun h => utf8_injective (h.trans (rfl : [] = utf8 [])), fun h => h ▸ rfl⟩

/-! ## From the back -/

theorem eq_of_eq_append {c d : Char} {front : List UInt8}
    (h : encodeChar c = front ++ encodeChar d) :
    c = d := by
  have hpos : 0 < (encodeChar d).length := List.length_pos_iff.mpr (encodeChar_ne_nil d)
  have hlt : front.length < (encodeChar c).length := by
    rw [h, List.length_append]
    omega
  have hfirst : (encodeChar d)[0].IsUTF8FirstByte :=
    UInt8.isUTF8FirstByte_getElem_zero_utf8EncodeChar
  have hget : (encodeChar c)[front.length] = (encodeChar d)[0] := by
    simp only [h]
    rw [List.getElem_append_right (Nat.le_refl _)]
    simp
  rw [← hget] at hfirst
  have hzero := UInt8.isUTF8FirstByte_getElem_utf8EncodeChar.mp hfirst
  rw [List.length_eq_zero_iff.mp hzero, List.nil_append] at h
  exact eq_of_append_eq (r := []) (t := []) (by rw [h])

theorem eq_of_append_eq_back {c d : Char} {r t : List UInt8}
    (h : r ++ encodeChar c = t ++ encodeChar d) : c = d := by
  rcases List.append_eq_append_iff.mp h with ⟨front, _, hc⟩ | ⟨front, _, hd⟩
  · exact eq_of_eq_append hc
  · exact (eq_of_eq_append hd).symm

/-! ## ASCII -/

theorem encodeChar_ascii {c : Char} (h : c.toNat < 128) : encodeChar c = [c.toNat.toUInt8] := by
  have hle : c.val.toNat ≤ 127 := Nat.le_of_lt_succ h
  show String.utf8EncodeChar c = _
  unfold String.utf8EncodeChar
  simp only [hle, if_true]
  rfl

theorem map_utf8_ascii {s : Str} (h : ∀ c ∈ s, c.toNat < 128) :
    (utf8 s).map (fun b => Char.ofNat b.toNat) = s := by
  induction s with
  | nil => rfl
  | cons c s ih =>
    obtain ⟨hc, hs⟩ := List.forall_mem_cons.mp h
    have hbyte : c.toNat.toUInt8.toNat = c.toNat := by
      rw [Nat.toUInt8, UInt8.toNat_ofNat']
      omega
    rw [utf8_cons, encodeChar_ascii hc, List.map_append, ih hs, List.map_singleton, hbyte,
      Char.ofNat_toNat]
    rfl

end Bpc.Utf8
