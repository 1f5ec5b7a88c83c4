/-!
This module contains the cutting of a list into consecutive pieces of a given length, the last of
which may be shorter, and the induction over a list piece by piece.
-/

def List.chunks {α : Type} (n : Nat) (l : List α) : List (List α) :=
  go l.length l
where
  go : Nat → List α → List (List α)
    | 0, _ => []
    | fuel + 1, l => if l.isEmpty then [] else l.take n :: go fuel (l.drop n)

namespace List

variable {α : Type} {n : Nat}

theorem chunks.go_eq (hn : 0 < n) (fuel : Nat) (l : List α) (hfuel : l.length ≤ fuel)
    : chunks.go n fuel l = chunks n l := by
  induction fuel using Nat.strongRecOn generalizing l with
  | ind fuel ih =>
    cases l with
    | nil => cases fuel <;> simp [chunks, go]
    | cons x xs =>
      obtain ⟨fuel, rfl⟩ : ∃ k, fuel = k + 1 := ⟨fuel - 1, by simp at hfuel; omega⟩
      simp only [length_cons, Nat.add_le_add_iff_right] at hfuel
      have hdrop : ((x :: xs).drop n).length ≤ xs.length := by simp; omega
      simp only [chunks, length_cons, go, isEmpty_cons, Bool.false_eq_true, ↓reduceIte, cons.injEq,
        true_and]
      rw [ih fuel (by omega) _ (by omega)]
      by_cases hlt : xs.length < fuel + 1
      . exact (ih xs.length hlt _ hdrop).symm
      . omega

theorem chunks_nil : chunks n ([] : List α) = [] := by
  rfl

theorem chunks_of_ne_nil (hn : 0 < n) {l : List α} (hl : l ≠ [])
    : chunks n l = l.take n :: chunks n (l.drop n) := by
  cases l with
  | nil => contradiction
  | cons x xs =>
    have hdrop : ((x :: xs).drop n).length ≤ xs.length := by simp; omega
    rw [← chunks.go_eq hn _ _ hdrop]
    simp [chunks, chunks.go]

theorem chunks_eq_nil_iff (hn : 0 < n) {l : List α} : chunks n l = [] ↔ l = [] := by
  constructor
  . intro h
    by_cases hl : l = []
    . exact hl
    . simp [chunks_of_ne_nil hn hl] at h
  . intro h
    rw [h, chunks_nil]

theorem chunks_induction (hn : 0 < n) {P : List α → Prop} (hnil : P [])
    (hstep : ∀ l, l ≠ [] → P (l.drop n) → P l) (l : List α)
    : P l := by
  generalize hlen : l.length = len
  induction len using Nat.strongRecOn generalizing l with
  | ind len ih =>
    by_cases hl : l = []
    . exact hl ▸ hnil
    . apply hstep l hl
      have : 0 < l.length := length_pos_iff.mpr hl
      exact ih (l.drop n).length (by simp; omega) _ rfl

theorem flatten_chunks (hn : 0 < n) (l : List α) : (chunks n l).flatten = l := by
  induction l using chunks_induction hn with
  | hnil => rfl
  | hstep l hl ih => rw [chunks_of_ne_nil hn hl, flatten_cons, ih, take_append_drop]

theorem flatten_take_chunks_prefix (hn : 0 < n) (l : List α) (k : Nat)
    : ((chunks n l).take k).flatten <+: l := by
  refine ⟨((chunks n l).drop k).flatten, ?_⟩
  rw [← flatten_append, take_append_drop, flatten_chunks hn]

theorem length_pos_of_mem_chunks (hn : 0 < n) {l c : List α} (hc : c ∈ chunks n l)
    : 0 < c.length := by
  induction l using chunks_induction hn with
  | hnil => simp [chunks_nil] at hc
  | hstep l hl ih =>
    rw [chunks_of_ne_nil hn hl, mem_cons] at hc
    cases hc with
    | inl hc =>
      have : 0 < l.length := length_pos_iff.mpr hl
      simp [hc]; omega
    | inr hc => exact ih hc

theorem length_le_of_mem_chunks (hn : 0 < n) {l c : List α} (hc : c ∈ chunks n l)
    : c.length ≤ n := by
  induction l using chunks_induction hn with
  | hnil => simp [chunks_nil] at hc
  | hstep l hl ih =>
    rw [chunks_of_ne_nil hn hl, mem_cons] at hc
    cases hc with
    | inl hc =>
      rw [hc, length_take]
      apply Nat.min_le_left
    | inr hc => exact ih hc

theorem chunks_take_append_chunks_drop (hn : 0 < n) (k : Nat) (l : List α)
    : chunks n (l.take (n * k)) ++ chunks n (l.drop (n * k)) = chunks n l := by
  induction k generalizing l with
  | zero => simp [chunks_nil]
  | succ k ih =>
    by_cases hl : l = []
    . simp [hl, chunks_nil]
    . have htake : l.take (n * (k + 1)) ≠ [] := by
        have : 0 < n * (k + 1) := Nat.mul_pos hn (by omega)
        simp [take_eq_nil_iff, hl]; omega
      have hle : min n (n * (k + 1)) = n := by
        rw [Nat.mul_add_one]; omega
      rw [chunks_of_ne_nil hn htake, chunks_of_ne_nil hn hl, ← ih (l.drop n), take_take, hle,
        drop_take, drop_drop, Nat.mul_add_one, Nat.add_sub_cancel_right, Nat.add_comm, cons_append]

theorem length_chunks_le (hn : 0 < n) (l : List α) : (chunks n l).length ≤ l.length := by
  induction l using chunks_induction hn with
  | hnil => simp [chunks_nil]
  | hstep l hl ih =>
    have : 0 < l.length := length_pos_iff.mpr hl
    rw [chunks_of_ne_nil hn hl, length_cons]
    simp only [length_drop] at ih
    omega

theorem length_chunks (hn : 0 < n) (l : List α)
    : (chunks n l).length = (l.length + (n - 1)) / n := by
  induction l using chunks_induction hn with
  | hnil =>
    simp only [chunks_nil, length_nil, Nat.zero_add]
    exact (Nat.div_eq_of_lt (by omega)).symm
  | hstep l hl ih =>
    have hpos : 0 < l.length := length_pos_iff.mpr hl
    rw [chunks_of_ne_nil hn hl, length_cons, ih, length_drop]
    by_cases hle : n ≤ l.length
    . rw [← Nat.add_div_right _ hn]
      congr 1
      omega
    . rw [Nat.sub_eq_zero_of_le (by omega), Nat.zero_add, Nat.div_eq_of_lt (by omega)]
      apply (Nat.div_eq_of_lt_le _ _).symm <;> omega

theorem length_eq_of_mem_dropLast_chunks (hn : 0 < n) {l c : List α}
    (hc : c ∈ (chunks n l).dropLast)
    : c.length = n := by
  induction l using chunks_induction hn with
  | hnil => simp [chunks_nil] at hc
  | hstep l hl ih =>
    rw [chunks_of_ne_nil hn hl] at hc
    by_cases hrest : l.drop n = []
    . simp [hrest, chunks_nil] at hc
    . have hne : chunks n (l.drop n) ≠ [] := by
        rwa [Ne, chunks_eq_nil_iff hn]
      have hlt : n < l.length := by
        simpa using hrest
      rw [dropLast_cons_of_ne_nil hne, mem_cons] at hc
      cases hc with
      | inl hc =>
        rw [hc, length_take]
        omega
      | inr hc => exact ih hc

end List
