import Mathlib.Data.List.Perm.Subperm
import Mathlib.Data.Nat.Basic
import Mathlib.Order.Lattice

/-!
This module contains ordered sets whose elements are compared by a key, as lists in increasing order
of the key. Two elements with equal keys are the same element to such a set: the second one is not
inserted, and erasing either one removes whichever is there.
-/

namespace OrderedSet

variable {α κ : Type} [LinearOrder κ] (key : α → κ)

def insert (x : α) : List α → List α
  | [] => [x]
  | y :: ys =>
    if key x < key y then
      x :: y :: ys
    else if key y < key x then
      y :: insert x ys
    else
      y :: ys

def erase (x : α) (l : List α) : List α :=
  l.filter (fun y => key y ≠ key x)

def contains (x : α) (l : List α) : Bool :=
  l.any (fun y => key y = key x)

def Sorted (l : List α) : Prop :=
  l.Pairwise (fun x y => key x < key y)

variable {key}

theorem mem_or_eq_of_mem_insert {x y : α} {l : List α} (h : y ∈ insert key x l)
    : y = x ∨ y ∈ l := by
  induction l with
  | nil => simpa [insert] using h
  | cons z zs ih =>
    unfold insert at h
    split at h
    . simpa using h
    . split at h
      . simp only [List.mem_cons] at h ⊢
        cases h with
        | inl h => exact .inr (.inl h)
        | inr h => exact (ih h).imp id .inr
      . exact .inr h

theorem mem_insert_of_mem {x y : α} {l : List α} (h : y ∈ l) : y ∈ insert key x l := by
  induction l with
  | nil => simp at h
  | cons z zs ih =>
    unfold insert
    split
    . exact List.mem_cons_of_mem _ h
    . split
      . simp only [List.mem_cons] at h ⊢
        exact h.imp id ih
      . exact h

theorem insert_append {x : α} {l r : List α} (hl : ∀ y ∈ l, key y < key x)
    (hr : ∀ y ∈ r, key x < key y)
    : insert key x (l ++ r) = l ++ x :: r := by
  induction l with
  | nil =>
    cases r with
    | nil => rfl
    | cons z zs => simp [insert, hr z]
  | cons y ys ih =>
    have hy : key y < key x := hl y (by simp)
    simp [insert, hy, not_lt_of_gt hy, ih (fun z hz => hl z (by simp [hz]))]

theorem insert_eq_append {x : α} {l : List α} (hl : ∀ y ∈ l, key y < key x)
    : insert key x l = l ++ [x] := by
  simpa using insert_append (r := []) hl (by simp)

theorem foldl_insert_eq_append {xs l : List α} (h : Sorted key (xs ++ l))
    : xs.foldl (fun l x => insert key x l) l = xs ++ l := by
  suffices ∀ ys, Sorted key (ys ++ xs ++ l)
      → xs.foldl (fun l x => insert key x l) (ys ++ l) = ys ++ xs ++ l by
    simpa using this [] (by simpa using h)
  clear h
  induction xs with
  | nil => simp
  | cons x xs ih =>
    intro ys h
    simp only [Sorted, List.append_assoc, List.cons_append, List.pairwise_append,
      List.pairwise_cons, List.mem_append, List.mem_cons] at h
    obtain ⟨hys, ⟨hx, hrest⟩, hyx⟩ := h
    have hins : insert key x (ys ++ l) = (ys ++ [x]) ++ l := by
      rw [insert_append (fun y hy => hyx y hy x (.inl rfl)) (fun y hy => hx y (.inr hy))]
      simp
    rw [List.foldl_cons, hins, ih]
    . simp
    . simp only [Sorted, List.append_assoc, List.cons_append, List.nil_append,
        List.pairwise_append, List.pairwise_cons, List.mem_append, List.mem_cons]
      exact ⟨hys, ⟨hx, hrest⟩, hyx⟩

@[simp]
theorem mem_erase {x y : α} {l : List α} : y ∈ erase key x l ↔ y ∈ l ∧ key y ≠ key x := by
  simp [erase]

theorem foldl_erase_eq_filter (xs l : List α)
    : xs.foldl (fun l x => erase key x l) l = l.filter (fun y => ∀ x ∈ xs, key y ≠ key x) := by
  induction xs generalizing l with
  | nil => exact (List.filter_eq_self.mpr (by simp)).symm
  | cons x xs ih =>
    rw [List.foldl_cons, ih, erase, List.filter_filter]
    congr
    funext y
    simp [Bool.and_comm]

theorem Sorted.insert {x : α} {l : List α} (h : Sorted key l) : Sorted key (insert key x l) := by
  induction l with
  | nil => simp [Sorted, OrderedSet.insert]
  | cons y ys ih =>
    simp only [Sorted, List.pairwise_cons] at h
    unfold OrderedSet.insert
    split
    . next hlt =>
      simp only [Sorted, List.pairwise_cons, List.mem_cons]
      refine ⟨?_, h⟩
      intro z hz
      cases hz with
      | inl hz => exact hz ▸ hlt
      | inr hz => exact lt_trans hlt (h.1 z hz)
    . split
      . next hgt =>
        simp only [Sorted, List.pairwise_cons]
        refine ⟨?_, ih h.2⟩
        intro z hz
        cases mem_or_eq_of_mem_insert hz with
        | inl hz => exact hz ▸ hgt
        | inr hz => exact h.1 z hz
      . simpa [Sorted] using h

theorem Sorted.insert_eq_self {x y : α} {l : List α} (h : Sorted key l) (hy : y ∈ l)
    (heq : key y = key x)
    : OrderedSet.insert key x l = l := by
  induction l with
  | nil => simp at hy
  | cons z zs ih =>
    simp only [Sorted, List.pairwise_cons] at h
    unfold OrderedSet.insert
    rw [List.mem_cons] at hy
    cases hy with
    | inl hy => rw [← heq, hy, if_neg (lt_irrefl _), if_neg (lt_irrefl _)]
    | inr hy =>
      have hlt : key z < key x := heq ▸ h.1 y hy
      rw [if_neg (not_lt_of_gt hlt), if_pos hlt, ih h.2 hy]

theorem mem_insert_iff {x y : α} {l : List α} (hx : contains key x l = false)
    : y ∈ insert key x l ↔ y = x ∨ y ∈ l := by
  refine ⟨mem_or_eq_of_mem_insert, ?_⟩
  intro h
  cases h with
  | inr h => exact mem_insert_of_mem h
  | inl h =>
    subst h
    induction l with
    | nil => simp [insert]
    | cons z zs ih =>
      simp only [contains, List.any_cons, Bool.or_eq_false_iff, decide_eq_false_iff_not] at hx
      unfold insert
      split
      . simp
      . next hlt =>
        have hgt : key z < key y := lt_of_le_of_ne (le_of_not_gt hlt) hx.1
        simp only [hgt, ↓reduceIte, List.mem_cons]
        exact .inr (ih hx.2)

theorem insert_subperm (x : α) (l : List α) : (insert key x l).Subperm (x :: l) := by
  induction l with
  | nil => exact List.Subperm.refl _
  | cons y ys ih =>
    unfold insert
    split
    . exact List.Subperm.refl _
    . split
      . exact ((List.subperm_cons y).mpr ih).trans (List.Perm.swap x y ys).subperm
      . exact (List.sublist_cons_self x _).subperm

theorem perm_insert {x : α} {l : List α} (hx : contains key x l = false)
    : (insert key x l).Perm (x :: l) := by
  induction l with
  | nil => exact List.Perm.refl _
  | cons y ys ih =>
    simp only [contains, List.any_cons, Bool.or_eq_false_iff, decide_eq_false_iff_not] at hx
    unfold insert
    split
    . exact List.Perm.refl _
    . next hlt =>
      have hgt : key y < key x := lt_of_le_of_ne (le_of_not_gt hlt) hx.1
      rw [if_pos hgt]
      exact ((ih hx.2).cons y).trans (List.Perm.swap x y ys)

theorem perm_foldl_insert {xs l : List α} (h : (xs ++ l).Pairwise (fun x y => key x ≠ key y))
    : (xs.foldl (fun l x => OrderedSet.insert key x l) l).Perm (xs ++ l) := by
  induction xs generalizing l with
  | nil => exact List.Perm.refl _
  | cons x xs ih =>
    rw [List.cons_append, List.pairwise_cons] at h
    have hx : contains key x l = false := by
      rw [contains, List.any_eq_false]
      intro y hy heq
      exact h.1 y (List.mem_append_right xs hy) (of_decide_eq_true heq).symm
    have hins := (perm_insert hx).append_left xs
    rw [List.foldl_cons]
    apply (ih _).trans (hins.trans List.perm_middle)
    apply (hins.pairwise_iff (fun hne => hne.symm)).mpr
    apply (List.perm_middle.pairwise_iff (fun hne => hne.symm)).mpr
    exact List.pairwise_cons.mpr h

theorem Sorted.nodup {l : List α} (h : Sorted key l) : l.Nodup := by
  apply List.Pairwise.imp _ h
  intro x y hlt heq
  exact lt_irrefl _ (heq ▸ hlt)

theorem Sorted.eq_of_mem_iff {l r : List α} (hl : Sorted key l) (hr : Sorted key r)
    (h : ∀ x, x ∈ l ↔ x ∈ r)
    : l = r := by
  have hperm : l.Perm r := (List.perm_ext_iff_of_nodup hl.nodup hr.nodup).mpr h
  apply hperm.eq_of_pairwise _ hl hr
  intro x y _ _ hxy hyx
  exact absurd hxy (lt_asymm hyx)

theorem map_eq_map_of_key {β γ : Type} {key : α → γ} {view : α → β} {l r : List α}
    (h : l.map key = r.map key)
    (hview : ∀ x ∈ l, ∀ y ∈ r, key x = key y → view x = view y)
    : l.map view = r.map view := by
  induction l generalizing r with
  | nil =>
    rw [List.map_nil, eq_comm, List.map_eq_nil_iff] at h
    rw [h]
  | cons x l ih =>
    cases r with
    | nil => simp at h
    | cons y r =>
      simp only [List.map_cons, List.cons.injEq] at h ⊢
      refine ⟨hview x (by simp) y (by simp) h.1, ?_⟩
      apply ih h.2
      intro x' hx' y' hy'
      exact hview x' (List.mem_cons_of_mem _ hx') y' (List.mem_cons_of_mem _ hy')

theorem Sorted.map_key_eq {l r : List α} (hl : Sorted key l) (hr : Sorted key r)
    (h : ∀ x ∈ l, ∃ y ∈ r, key y = key x) (h' : ∀ y ∈ r, ∃ x ∈ l, key x = key y)
    : l.map key = r.map key := by
  have hkeys {s : List α} (hs : Sorted key s) : Sorted id (s.map key) := List.pairwise_map.mpr hs
  apply (hkeys hl).eq_of_mem_iff (hkeys hr)
  intro k
  simp only [List.mem_map]
  constructor
  . intro hk
    obtain ⟨x, hx, rfl⟩ := hk
    exact h x hx
  . intro hk
    obtain ⟨y, hy, rfl⟩ := hk
    exact h' y hy

theorem Sorted.length_add_le {key : α → Nat} {l : List α} {low high : Nat} (h : Sorted key l)
    (hlow : ∀ x ∈ l, low ≤ key x) (hhigh : ∀ x ∈ l, key x < high) (hle : low ≤ high)
    : low + l.length ≤ high := by
  induction l generalizing low with
  | nil => exact hle
  | cons x l ih =>
    simp only [Sorted, List.pairwise_cons] at h
    have hx := hlow x (by simp)
    have hlt := hhigh x (by simp)
    have hrest : low + 1 + l.length ≤ high := by
      apply ih h.2
      . intro y hy
        have := h.1 y hy
        omega
      . intro y hy
        exact hhigh y (List.mem_cons_of_mem _ hy)
      . omega
    rw [List.length_cons]
    omega

end OrderedSet
