/-
  CHECKED ACCESS TO A SLICE — `byteAt` and `slice` return `none` where the language panics.

  `At raw offset rest` compares a parser that moves an offset with one that consumes bytes.
-/
import Mathlib

namespace Bpc.Slice

variable {α : Type}

/-- `raw[i]`. -/
def byteAt (raw : List α) (i : Nat) : Option α := raw[i]?

/-- `raw[i:j]`. -/
def slice (raw : List α) (i j : Nat) : Option (List α) :=
  if i ≤ j ∧ j ≤ raw.length then some ((raw.drop i).take (j - i)) else none

/-- Behind the offset stands `rest`. -/
structure At (raw : List α) (offset : Nat) (rest : List α) : Prop where
  length : offset + rest.length = raw.length
  drop : raw.drop offset = rest

variable {raw rest : List α} {offset : Nat}

theorem at_start (raw : List α) : At raw 0 raw := ⟨Nat.zero_add _, rfl⟩

theorem At.byte {b : α} (h : At raw offset (b :: rest)) :
    byteAt raw offset = some b ∧ At raw (offset + 1) rest := by
  obtain ⟨hlength, hdrop⟩ := h
  rw [List.length_cons] at hlength
  refine ⟨?_, by omega, ?_⟩
  · show raw[offset]? = some b
    rw [← List.head?_drop, hdrop]
    rfl
  · rw [← List.drop_drop, hdrop]
    rfl

/-- Reading `n` elements moves behind them. -/
theorem At.slice (h : At raw offset rest) {n : Nat} (hn : n ≤ rest.length) :
    slice raw offset (offset + n) = some (rest.take n) ∧ At raw (offset + n) (rest.drop n) := by
  obtain ⟨hlength, hdrop⟩ := h
  refine ⟨?_, ?_, ?_⟩
  · unfold Slice.slice
    rw [if_pos (by omega), hdrop, Nat.add_sub_cancel_left]
  · rw [List.length_drop]
    omega
  · rw [← List.drop_drop, hdrop]

theorem At.next {bytes : List α} {n : Nat} (hn : bytes.length = n)
    (h : At raw offset (bytes ++ rest)) :
    Slice.slice raw offset (offset + n) = some bytes ∧ At raw (offset + n) rest := by
  obtain ⟨hslice, hrest⟩ := h.slice (n := n) (by rw [List.length_append]; omega)
  rw [List.take_left' hn] at hslice
  rw [List.drop_left' hn] at hrest
  exact ⟨hslice, hrest⟩

end Bpc.Slice
