import Mathlib.Algebra.Group.Int.Defs
import Mathlib.Algebra.Group.Nat.Defs

/-!
This module contains the conversions between the C++ integer types that the sources rely on. An `int`
is an `Int` in the model, with `int32` for the result of its arithmetic. The unsigned types of fixed
width are Lean's, and `sizeT` and `uint32` convert a signed integer to one of them.
-/

abbrev Bytes := List UInt8

-- A signed type has at most 64 bits, so that only negative values wrap around.
def sizeT (x : Int) : Nat :=
  if x < 0 then
    (2 ^ 64 + x).toNat
  else
    x.toNat

def uint32 (x : Int) : UInt32 :=
  UInt32.ofNat (x % 2 ^ 32).toNat

def uint64 (x : Int) : UInt64 :=
  UInt64.ofNat (x % 2 ^ 64).toNat

def int32 (x : Int) : Int :=
  x.bmod (2 ^ 32)

theorem sizeT_of_nonneg {x : Int} (h : 0 ≤ x) : sizeT x = x.toNat := by
  simp [sizeT, Int.not_lt.mpr h]

theorem toNat_uint64_of_nonneg {x : Int} (h0 : 0 ≤ x) (h : x < 2 ^ 64) : (uint64 x).toNat = x.toNat := by
  unfold uint64
  rw [UInt64.toNat_ofNat', Int.emod_eq_of_lt h0 h]
  omega

theorem uint64_ne_zero {x : Int} (h0 : -2 ^ 63 ≤ x) (h : x < 2 ^ 63) (hne : x ≠ 0) : uint64 x ≠ 0 := by
  rw [Ne, ← UInt64.toNat_inj]
  unfold uint64
  rw [UInt64.toNat_ofNat', UInt64.toNat_zero]
  omega

theorem int32_of_bounds {x : Int} (h0 : -2 ^ 31 ≤ x) (h : x < 2 ^ 31) : int32 x = x := by
  unfold int32
  apply Int.bmod_eq_of_le <;> omega

theorem tdiv_two_eq (x : Int) : x.tdiv 2 = if 0 ≤ x then x / 2 else -(-x / 2) := by
  split
  . next h => exact Int.tdiv_eq_ediv_of_nonneg h
  . next h =>
    rw [← Int.tdiv_eq_ediv_of_nonneg (by omega), Int.neg_tdiv, Int.neg_neg]
