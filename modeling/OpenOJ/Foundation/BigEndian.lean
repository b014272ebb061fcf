import Mathlib.Algebra.GroupWithZero.Nat
import Mathlib.Tactic.Common

/-!
# Big-endian numbers

A number as a fixed count of bytes, the most significant one first. `toBytes n value` takes the last
`n` bytes of a number, `ofBytes` puts a number together from the bytes there are.

What is written in enough bytes is read back (`ofBytes_toBytes`), and the count of bytes is the one
asked for, whatever the number (`length_toBytes`). A length before a frame is such a number.
-/

namespace BigEndian

/-- The digits of a number in base 256, the most significant one first. -/
def toBytes : Nat → Nat → List UInt8
  | 0, _ => []
  | width + 1, n => toBytes width (n / 256) ++ [UInt8.ofNat (n % 256)]

/-- The number with these digits. -/
def ofBytes (bs : List UInt8) : Nat := bs.foldl (fun n b => 256 * n + b.toNat) 0

@[simp]
theorem length_toBytes (width n : Nat) : (toBytes width n).length = width := by
  induction width generalizing n with
  | zero => rfl
  | succ width ih => simp [toBytes, ih]

/-- A number that fits its width reads back. -/
theorem ofBytes_toBytes {width n : Nat} (h : n < 256 ^ width) :
    ofBytes (toBytes width n) = n := by
  induction width generalizing n with
  | zero =>
    obtain rfl : n = 0 := by simpa using h
    rfl
  | succ width ih =>
    have hdiv : n / 256 < 256 ^ width := by
      rw [Nat.pow_succ] at h
      exact Nat.div_lt_of_lt_mul (by omega)
    have hdigit : (UInt8.ofNat (n % 256)).toNat = n % 256 := by simp
    have ih := ih hdiv
    unfold ofBytes at ih ⊢
    rw [toBytes, List.foldl_append, ih, List.foldl_cons, List.foldl_nil, hdigit]
    omega

end BigEndian
