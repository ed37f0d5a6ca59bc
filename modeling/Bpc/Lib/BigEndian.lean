/-
  BIG-ENDIAN NUMBERS — a number as bytes; reading what was put gives it modulo `256 ^ width`
  (`value_put`).
-/
import Mathlib

namespace Bpc.BigEndian

/-- The low `width` bytes of a number. -/
def put : Nat → Nat → List UInt8
  | 0, _ => []
  | width + 1, n => (n / 256 ^ width).toUInt8 :: put width n

/-- The number that bytes stand for. -/
def value (bytes : List UInt8) : Nat := bytes.foldl (fun v b => v * 256 + b.toNat) 0

@[simp] theorem length_put (width n : Nat) : (put width n).length = width := by
  induction width with
  | zero => rfl
  | succ width ih => rw [put, List.length_cons, ih]

theorem foldl_put (width n v : Nat) :
    (put width n).foldl (fun v b => v * 256 + b.toNat) v = v * 256 ^ width + n % 256 ^ width := by
  induction width generalizing v with
  | zero => simp [put, Nat.mod_one]
  | succ width ih =>
    have hbyte : (n / 256 ^ width).toUInt8.toNat = n / 256 ^ width % 256 := by simp
    rw [put, List.foldl_cons, ih, hbyte, Nat.mod_pow_succ]
    ring

/-- **Reading what was put.** -/
theorem value_put (width n : Nat) : value (put width n) = n % 256 ^ width := by
  rw [value, foldl_put, Nat.zero_mul, Nat.zero_add]

end Bpc.BigEndian
