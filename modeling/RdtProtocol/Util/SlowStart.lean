import Mathlib.Algebra.Group.Nat.Defs
import Mathlib.Data.Nat.Log
import Mathlib.Logic.Function.Iterate

/-!
This module contains the growth of a window that is doubled as long as it is below a threshold, gets
larger by one from there on, and is cut off at an upper bound.
-/

namespace SlowStart

def climb (threshold size : Nat) : Nat :=
  if size < threshold then 2 * size else size + 1

def grow (max threshold size : Nat) : Nat :=
  min max (climb threshold size)

variable (max threshold : Nat) {size : Nat}

theorem le_climb (size : Nat) : size ≤ climb threshold size := by
  unfold climb
  split <;> omega

theorem iterate_grow (hle : size ≤ max) (n : Nat)
    : (grow max threshold)^[n] size = min max ((climb threshold)^[n] size) := by
  induction n with
  | zero => exact (Nat.min_eq_right hle).symm
  | succ n ih =>
    rw [Function.iterate_succ_apply', Function.iterate_succ_apply', ih, grow]
    by_cases hcut : (climb threshold)^[n] size ≤ max
    . rw [Nat.min_eq_right hcut]
    . have hmax := le_climb threshold max
      have hnext := le_climb threshold ((climb threshold)^[n] size)
      have hsize : min max ((climb threshold)^[n] size) = max := Nat.min_eq_left (by omega)
      rw [hsize, Nat.min_eq_left hmax, Nat.min_eq_left (by omega)]

def sizeAfter (threshold n : Nat) : Nat :=
  let k := Nat.clog 2 threshold
  if n ≤ k then 2 ^ n else 2 ^ k + (n - k)

theorem iterate_climb (n : Nat) : (climb threshold)^[n] 1 = sizeAfter threshold n := by
  induction n with
  | zero => simp [sizeAfter]
  | succ n ih =>
    rw [Function.iterate_succ_apply', ih, climb, sizeAfter, sizeAfter]
    have hle : threshold ≤ 2 ^ Nat.clog 2 threshold := Nat.le_pow_clog (by decide) threshold
    have hlt : n < Nat.clog 2 threshold ↔ 2 ^ n < threshold := Nat.lt_clog_iff_pow_lt (by decide)
    generalize Nat.clog 2 threshold = k at *
    obtain hn | rfl | hn := Nat.lt_trichotomy n k
    . have hnext : n + 1 ≤ k := hn
      rw [if_pos (Nat.le_of_lt hn), if_pos (hlt.mp hn), if_pos hnext, Nat.pow_succ, Nat.mul_comm]
    . rw [if_pos (Nat.le_refl n), if_neg (by omega), if_neg (by omega)]
      omega
    . have hpast : ¬ n ≤ k := by omega
      rw [if_neg hpast, if_neg (by omega), if_neg (by omega)]
      omega

theorem iterate_grow_one (hone : 1 ≤ max) (n : Nat)
    : (grow max threshold)^[n] 1 = min max (sizeAfter threshold n) := by
  rw [iterate_grow max threshold hone, iterate_climb]

end SlowStart
