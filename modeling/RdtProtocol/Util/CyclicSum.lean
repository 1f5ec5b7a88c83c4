import Mathlib.Algebra.BigOperators.Intervals
import Mathlib.Data.Int.ConditionallyCompleteOrder
import Mathlib.Order.Monotone.Basic

/-!
This module contains the partial sums of the cyclic repetition of a list of positive numbers. They
divide the numbers from the first sum on into intervals, and the number after an interval's last one is
the next sum.
-/

namespace List

def cyclicSum (l : List Int) (k : Nat) : Int :=
  ∑ i ∈ Finset.range k, l.getD (i % l.length) 0

variable {l : List Int}

@[simp]
theorem cyclicSum_zero (l : List Int) : l.cyclicSum 0 = 0 := by
  rfl

theorem cyclicSum_succ (l : List Int) (k : Nat)
    : l.cyclicSum (k + 1) = l.cyclicSum k + l.getD (k % l.length) 0 := by
  unfold cyclicSum
  rw [Finset.sum_range_succ]

theorem getD_mod_mem (hl : l ≠ []) (k : Nat) : l.getD (k % l.length) 0 ∈ l := by
  have hlt : k % l.length < l.length := Nat.mod_lt _ (length_pos_iff.mpr hl)
  rw [getD_eq_getElem?_getD, getElem?_eq_getElem hlt, Option.getD_some]
  apply getElem_mem

theorem cyclicSum_strictMono (hl : l ≠ []) (hpos : ∀ x ∈ l, 0 < x) : StrictMono l.cyclicSum := by
  apply strictMono_nat_of_lt_succ
  intro k
  have := hpos _ (getD_mod_mem hl k)
  rw [cyclicSum_succ]
  omega

theorem exists_cyclicSum_eq_iff (hl : l ≠ []) (hpos : ∀ x ∈ l, 0 < x) {k : Nat} {n : Int}
    (hle : l.cyclicSum k ≤ n) (hlt : n < l.cyclicSum (k + 1))
    : (∃ j, n + 1 = l.cyclicSum (j + 1)) ↔ n + 1 = l.cyclicSum (k + 1) := by
  have hmono := cyclicSum_strictMono hl hpos
  constructor
  . intro ⟨j, hj⟩
    have hkj : k < j + 1 := by
      apply hmono.lt_iff_lt.mp
      omega
    have := hmono.monotone (Nat.succ_le_of_lt hkj)
    simp only [Nat.succ_eq_add_one] at this
    omega
  . intro h
    exact ⟨k, h⟩

end List
