import Mathlib.Algebra.BigOperators.Group.List.Basic
import Mathlib.Data.Int.ModEq

/-!
This module contains sums with an end-around carry. What exceeds `m` is carried around, so that the sum
is at most `m` and agrees with the true sum modulo `m`. Zero and `m` are kept apart: the result is zero
only where nothing has been added.
-/

namespace EndAroundCarry

variable {m n k x : Nat}

def add (m s x : Nat) : Nat :=
  if m < s + x then s + x - m else s + x

def fold (m n : Nat) : Nat :=
  if n = 0 then 0 else (n - 1) % m + 1

theorem fold_of_le (h : n ≤ m) : fold m n = n := by
  unfold fold
  split
  . next hn => exact hn.symm
  . rw [Nat.mod_eq_of_lt (by omega)]
    omega

theorem fold_of_pos (h : 0 < n) : fold m n = (n - 1) % m + 1 := by
  unfold fold
  rw [if_neg (Nat.ne_of_gt h)]

theorem fold_le (hm : 0 < m) : fold m n ≤ m := by
  unfold fold
  split
  . exact Nat.zero_le m
  . exact Nat.mod_lt _ hm

theorem fold_pos (h : 0 < n) : 0 < fold m n := by
  rw [fold_of_pos h]
  exact Nat.succ_pos _

theorem fold_eq_iff (hn : 0 < n) (hk : 0 < k) : fold m n = fold m k ↔ n ≡ k [MOD m] := by
  obtain ⟨n, rfl⟩ := Nat.exists_eq_succ_of_ne_zero (Nat.ne_of_gt hn)
  obtain ⟨k, rfl⟩ := Nat.exists_eq_succ_of_ne_zero (Nat.ne_of_gt hk)
  rw [fold_of_pos hn, fold_of_pos hk, Nat.add_right_cancel_iff]
  exact (Nat.ModEq.add_iff_right (Nat.ModEq.refl 1)).symm

theorem fold_ne (hne : n ≠ k) (hnk : n < k + m) (hkn : k < n + m) : fold m n ≠ fold m k := by
  intro h
  cases Nat.eq_zero_or_pos n with
  | inl hn =>
    have := fold_pos (m := m) (n := k) (by omega)
    rw [← h, hn] at this
    contradiction
  | inr hn =>
    cases Nat.eq_zero_or_pos k with
    | inl hk =>
      have := fold_pos (m := m) hn
      rw [h, hk] at this
      contradiction
    | inr hk =>
      rw [fold_eq_iff hn hk] at h
      apply hne
      apply h.eq_of_abs_lt
      rw [abs_lt]
      omega

theorem add_fold (hm : 0 < m) (hx : x ≤ m) : add m (fold m n) x = fold m (n + x) := by
  cases Nat.eq_zero_or_pos n with
  | inl hn => simp [fold_of_le hx, hn, fold_of_le (Nat.zero_le m), add, Nat.not_lt.mpr hx]
  | inr hn =>
    have hsum : n + x - 1 = (n - 1) % m + x + m * ((n - 1) / m) := by
      have := Nat.mod_add_div (n - 1) m
      omega
    rw [fold_of_pos hn, fold_of_pos (Nat.add_pos_left hn x), hsum, Nat.add_mul_mod_self_left]
    have hmod := Nat.mod_lt (n - 1) hm
    generalize (n - 1) % m = r at hmod
    unfold add
    split
    . rw [Nat.mod_eq_sub_mod (by omega), Nat.mod_eq_of_lt (by omega)]
      omega
    . rw [Nat.mod_eq_of_lt (by omega)]
      omega

end EndAroundCarry
