/-
  A LIBRARY THAT CAN BE RUN — the assumptions on `GoLib` are consistent.

  Base64 is decoded as Go does it, scores are integers, `sort.Slice` is an insertion sort.
-/
import Bpc.Routed.Config

namespace Bpc.Routed

/-- The value of a digit. -/
def base64Digit (b : UInt8) : Option Nat :=
  let n := b.toNat
  if 65 ≤ n ∧ n ≤ 90 then some (n - 65)
  else if 97 ≤ n ∧ n ≤ 122 then some (n - 71)
  else if 48 ≤ n ∧ n ≤ 57 then some (n + 4)
  else if n = 43 then some 62
  else if n = 47 then some 63
  else none

/-- Groups of four letters; `=` is 61. -/
def base64Groups : List UInt8 → Option (List UInt8)
  | [] => some []
  | [a, b, 61, 61] => do
    let x ← base64Digit a
    let y ← base64Digit b
    some [(x * 4 + y / 16).toUInt8]
  | [a, b, c, 61] => do
    let x ← base64Digit a
    let y ← base64Digit b
    let z ← base64Digit c
    some [(x * 4 + y / 16).toUInt8, (y % 16 * 16 + z / 4).toUInt8]
  | a :: b :: c :: d :: rest => do
    let x ← base64Digit a
    let y ← base64Digit b
    let z ← base64Digit c
    let w ← base64Digit d
    let bytes ← base64Groups rest
    some ((x * 4 + y / 16).toUInt8 :: (y % 16 * 16 + z / 4).toUInt8 :: (z % 4 * 64 + w).toUInt8 ::
      bytes)
  | _ => none

/-- `%q` of a printable ASCII text. -/
def quoteAscii (s : GoString) : GoString :=
  34 :: (s.flatMap fun b => if b = 34 ∨ b = 92 then [92, b] else [b]) ++ [34]

/-- The library. -/
def plainLibrary : GoLib Int where
  decodeBase64 s := base64Groups (s.filter fun b => b ≠ 10 && b ≠ 13)
  quote := quoteAscii
  ofNat := Int.ofNat
  add := (· + ·)
  sub := (· - ·)
  mul := (· * ·)
  lt a b := decide (a < b)
  eq a b := decide (a = b)
  sortSlice less l := l.insertionSort fun a b => less b a = false
  sortSlice_perm _ l := List.perm_insertionSort _ l
  sortSlice_sorted {α} key l := by
    let r : α → α → Prop := fun a b => decide (key a < key b) = false
    have hr : ∀ a b, r a b ↔ key b ≤ key a := by
      intro a b
      show decide (key a < key b) = false ↔ _
      rw [decide_eq_false_iff_not]
      omega
    have : Std.Total r := ⟨fun a b => by
      rw [hr, hr]
      omega⟩
    have : IsTrans α r := ⟨fun a b c hab hbc => by
      rw [hr] at *
      omega⟩
    exact (List.pairwise_insertionSort r l).imp fun h => (hr _ _).mp h

example : plainLibrary.decodeBase64 (ascii "QlBDIQ==") = some (ascii "BPC!") := by decide +kernel

end Bpc.Routed
