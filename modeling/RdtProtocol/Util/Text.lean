import Mathlib.Data.List.TakeWhile
import Mathlib.Order.Basic

/-!
This module contains texts as lists of bytes: the lines of a text, its words, and the decimal numerals
in it.
-/

namespace Text

def newline : UInt8 := 10

def isSpace (c : UInt8) : Bool :=
  c = 32 ∨ 9 ≤ c ∧ c ≤ 13

def isDigit (c : UInt8) : Bool :=
  48 ≤ c ∧ c ≤ 57

-- The last line need not be ended.
def lines (s : List UInt8) : List (List UInt8) :=
  go [] s
where
  go (line : List UInt8) : List UInt8 → List (List UInt8)
    | [] => if line = [] then [] else [line]
    | c :: s => if c = newline then line :: go [] s else go (line ++ [c]) s

theorem lines_append {line : List UInt8} (h : newline ∉ line) (s : List UInt8)
    : lines (line ++ newline :: s) = line :: lines s := by
  have hgo (start : List UInt8) : lines.go start (line ++ newline :: s) = (start ++ line) :: lines s := by
    induction line generalizing start with
    | nil => simp [lines.go, lines]
    | cons c line ih =>
      rw [List.mem_cons, not_or] at h
      rw [List.cons_append, lines.go, if_neg (Ne.symm h.1), ih h.2, List.append_assoc,
        List.singleton_append]
  exact hgo []

theorem lines_singleton {line : List UInt8} (h : newline ∉ line) (hne : line ≠ [])
    : lines line = [line] := by
  have hgo (start : List UInt8) (hstart : start ++ line ≠ []) : lines.go start line = [start ++ line] := by
    induction line generalizing start with
    | nil =>
      rw [List.append_nil] at hstart ⊢
      rw [lines.go, if_neg hstart]
    | cons c line ih =>
      rw [List.mem_cons, not_or] at h
      rw [lines.go, if_neg (Ne.symm h.1)]
      by_cases hline : line = []
      . simp [hline, lines.go]
      . rw [ih h.2 hline _ (by simp), List.append_assoc, List.singleton_append]
  exact hgo [] hne

def unlines (ls : List (List UInt8)) : List UInt8 :=
  ls.flatMap (· ++ [newline])

theorem lines_unlines_append {ls : List (List UInt8)} (h : ∀ line ∈ ls, newline ∉ line) (s : List UInt8)
    : lines (unlines ls ++ s) = ls ++ lines s := by
  induction ls with
  | nil => rfl
  | cons line ls ih =>
    have hline := h line List.mem_cons_self
    have ih := ih (fun l hl => h l (List.mem_cons_of_mem line hl))
    have heq : unlines (line :: ls) ++ s = line ++ newline :: (unlines ls ++ s) := by
      simp [unlines]
    rw [heq, lines_append hline, ih, List.cons_append]

theorem lines_unlines {ls : List (List UInt8)} (h : ∀ line ∈ ls, newline ∉ line)
    : lines (unlines ls) = ls := by
  have := lines_unlines_append h []
  simpa [lines, lines.go] using this

inductive IsLines : List (List UInt8) → List UInt8 → Prop where
  | ended {ls : List (List UInt8)} : (∀ line ∈ ls, newline ∉ line) → IsLines ls (unlines ls)
  | unended {ls : List (List UInt8)} {line : List UInt8}
      : (∀ l ∈ ls ++ [line], newline ∉ l) → line ≠ [] → IsLines (ls ++ [line]) (unlines ls ++ line)

theorem IsLines.cons {line : List UInt8} (hline : newline ∉ line) {ls : List (List UInt8)} {s : List UInt8}
    (h : IsLines ls s)
    : IsLines (line :: ls) (line ++ newline :: s) := by
  have heq (ls : List (List UInt8)) : line ++ newline :: unlines ls = unlines (line :: ls) := by
    simp [unlines]
  cases h with
  | ended hls =>
    rw [heq]
    exact .ended (List.forall_mem_cons.mpr ⟨hline, hls⟩)
  | @unended ls last hls hne =>
    have happend : line ++ newline :: (unlines ls ++ last) = unlines (line :: ls) ++ last := by
      rw [← heq, List.append_assoc, List.cons_append]
    have hcons : ∀ l ∈ line :: ls ++ [last], newline ∉ l := List.forall_mem_cons.mpr ⟨hline, hls⟩
    rw [happend]
    exact .unended hcons hne

theorem isLines_go {line : List UInt8} (hline : newline ∉ line) (s : List UInt8)
    : IsLines (lines.go line s) (line ++ s) := by
  induction s generalizing line with
  | nil =>
    rw [lines.go, List.append_nil]
    split
    . next h =>
      subst h
      exact .ended (fun _ h => absurd h List.not_mem_nil)
    . next h => exact @IsLines.unended [] line (by simpa using hline) h
  | cons c s ih =>
    rw [lines.go]
    split
    . next h =>
      subst h
      exact .cons hline (ih List.not_mem_nil)
    . next h =>
      have hline' : newline ∉ line ++ [c] := by
        simp [hline, Ne.symm h]
      have := ih hline'
      rwa [List.append_assoc, List.singleton_append] at this

theorem lines_eq_iff {ls : List (List UInt8)} {s : List UInt8} : lines s = ls ↔ IsLines ls s := by
  constructor
  . rintro rfl
    exact isLines_go List.not_mem_nil s
  . intro h
    cases h with
    | ended hls => exact lines_unlines hls
    | unended hls hne =>
      rw [List.forall_mem_append] at hls
      rw [lines_unlines_append hls.1, lines_singleton (hls.2 _ List.mem_cons_self) hne]

-- The most significant digit is the first.
def value (ds : List UInt8) : Nat :=
  ds.foldl (fun n c => 10 * n + (c.toNat - 48)) 0

def numeral (n : Nat) : List UInt8 :=
  (Nat.toDigits 10 n).map Char.toUInt8

theorem toNat_toUInt8 {c : Char} (h : c.isDigit = true)
    : c.toUInt8.toNat = c.toNat ∧ 48 ≤ c.toNat ∧ c.toNat ≤ 57 := by
  simp only [Char.isDigit, Bool.and_eq_true, decide_eq_true_eq, ge_iff_le, UInt32.le_iff_toNat_le] at h
  have hlow : 48 ≤ c.toNat := h.1
  have hhigh : c.toNat ≤ 57 := h.2
  have hmod : c.toUInt8.toNat = c.toNat % 256 := rfl
  exact ⟨by omega, hlow, hhigh⟩

theorem isDigit_of_mem_numeral {n : Nat} {c : UInt8} (h : c ∈ numeral n) : isDigit c = true := by
  obtain ⟨d, hd, rfl⟩ := List.mem_map.mp h
  obtain ⟨heq, hlow, hhigh⟩ := toNat_toUInt8 (Nat.isDigit_of_mem_toDigits (by decide) (by decide) hd)
  simp only [isDigit, decide_eq_true_eq, UInt8.le_iff_toNat_le, heq]
  exact ⟨hlow, hhigh⟩

theorem numeral_ne_nil (n : Nat) : numeral n ≠ [] := by
  simp [numeral, Nat.toDigits_ne_nil]

theorem value_numeral (n : Nat) : value (numeral n) = n := by
  have hfoldl (cs : List Char) (hcs : ∀ c ∈ cs, c.isDigit = true) (k : Nat)
      : (cs.map Char.toUInt8).foldl (fun n c => 10 * n + (c.toNat - 48)) k = Nat.ofDigitChars 10 cs k := by
    induction cs generalizing k with
    | nil => rfl
    | cons c cs ih =>
      rw [List.map_cons, List.foldl_cons, Nat.ofDigitChars_cons, (toNat_toUInt8 (hcs c List.mem_cons_self)).1]
      exact ih (fun c' hc' => hcs c' (List.mem_cons_of_mem c hc')) _
  rw [value, numeral, hfoldl, Nat.ofDigitChars_ten_toDigits]
  intro c hc
  exact Nat.isDigit_of_mem_toDigits (by decide) (by decide) hc

def sign : List UInt8 → Bool × List UInt8
  | [] => (false, [])
  | c :: s => if c = 45 then (true, s) else if c = 43 then (false, s) else (false, c :: s)

def number? (s : List UInt8) : Option (Bool × Nat × List UInt8) :=
  let s := sign (s.dropWhile isSpace)
  let digits := s.2.takeWhile isDigit
  if digits = [] then none else some (s.1, value digits, s.2.dropWhile isDigit)

inductive IsSign : Bool → List UInt8 → Prop where
  | none : IsSign false []
  | plus : IsSign false [43]
  | minus : IsSign true [45]

inductive Number : Bool → Nat → List UInt8 → List UInt8 → Prop where
  | mk {negative : Bool} {ws sg digits rest : List UInt8}
      : (∀ c ∈ ws, isSpace c = true) → IsSign negative sg → digits ≠ []
          → (∀ c ∈ digits, isDigit c = true) → (∀ c ∈ rest.head?, isDigit c = false)
          → Number negative (value digits) (ws ++ (sg ++ (digits ++ rest))) rest

theorem not_isSpace_of_isDigit {c : UInt8} (h : isDigit c = true) : isSpace c = false := by
  simp only [isDigit, decide_eq_true_eq, UInt8.le_iff_toNat_le] at h
  simp only [isSpace, decide_eq_false_iff_not, not_or, not_and, UInt8.le_iff_toNat_le, ← UInt8.toNat_inj]
  simp only [UInt8.reduceToNat] at *
  omega

theorem dropWhile_append {p : UInt8 → Bool} {ws s : List UInt8} (hws : ∀ c ∈ ws, p c = true)
    (hs : ∀ c ∈ s.head?, p c = false)
    : (ws ++ s).dropWhile p = s := by
  rw [List.dropWhile_append_of_pos hws]
  cases s with
  | nil => rfl
  | cons c s =>
    have := hs c rfl
    rw [List.dropWhile_cons_of_neg (by simp [this])]

theorem takeWhile_append {p : UInt8 → Bool} {ws s : List UInt8} (hws : ∀ c ∈ ws, p c = true)
    (hs : ∀ c ∈ s.head?, p c = false)
    : (ws ++ s).takeWhile p = ws := by
  rw [List.takeWhile_append_of_pos hws]
  cases s with
  | nil => simp
  | cons c s =>
    have := hs c rfl
    rw [List.takeWhile_cons_of_neg (by simp [this]), List.append_nil]

theorem head_dropWhile {p : UInt8 → Bool} (s : List UInt8) : ∀ c ∈ (s.dropWhile p).head?, p c = false := by
  intro c hc
  have := List.head?_dropWhile_not p s
  rw [Option.mem_def.mp hc] at this
  simpa using this

theorem isSign_sign (s : List UInt8) : ∃ sg, IsSign (sign s).1 sg ∧ s = sg ++ (sign s).2 := by
  unfold sign
  split
  . exact ⟨[], .none, rfl⟩
  . next c s =>
    split
    . next h => exact ⟨[45], .minus, by simp [h]⟩
    . split
      . next h => exact ⟨[43], .plus, by simp [h]⟩
      . exact ⟨[], .none, rfl⟩

theorem sign_append {negative : Bool} {sg digits : List UInt8} (hsg : IsSign negative sg)
    (hne : digits ≠ []) (hdigits : ∀ c ∈ digits, isDigit c = true) (rest : List UInt8)
    : sign (sg ++ (digits ++ rest)) = (negative, digits ++ rest)
        ∧ ∀ c ∈ (sg ++ (digits ++ rest)).head?, isSpace c = false := by
  obtain ⟨c, cs, rfl⟩ := List.exists_cons_of_ne_nil hne
  have hdigit := hdigits c List.mem_cons_self
  have hc : c ≠ 45 ∧ c ≠ 43 := by
    constructor
    all_goals
      rintro rfl
      contradiction
  cases hsg with
  | none =>
    refine ⟨by simp [sign, hc], ?_⟩
    rintro _ ⟨⟩
    exact not_isSpace_of_isDigit hdigit
  | plus => exact ⟨rfl, by rintro _ ⟨⟩; rfl⟩
  | minus => exact ⟨rfl, by rintro _ ⟨⟩; rfl⟩

theorem number?_eq_some_iff {s rest : List UInt8} {negative : Bool} {n : Nat}
    : number? s = some (negative, n, rest) ↔ Number negative n s rest := by
  constructor
  . intro h
    simp only [number?, Option.ite_none_left_eq_some, Option.some.injEq, Prod.mk.injEq] at h
    obtain ⟨hne, rfl, rfl, rfl⟩ := h
    obtain ⟨sg, hsg, heq⟩ := isSign_sign (s.dropWhile isSpace)
    have hs : s = s.takeWhile isSpace
        ++ (sg ++ ((sign (s.dropWhile isSpace)).2.takeWhile isDigit
          ++ (sign (s.dropWhile isSpace)).2.dropWhile isDigit)) := by
      rw [List.takeWhile_append_dropWhile, ← heq, List.takeWhile_append_dropWhile]
    conv => arg 3; rw [hs]
    exact .mk (fun _ => List.mem_takeWhile_imp) hsg hne (fun _ => List.mem_takeWhile_imp) (head_dropWhile _)
  . intro h
    cases h with
    | mk hws hsg hne hdigits hrest =>
      obtain ⟨hsign, hhead⟩ := sign_append hsg hne hdigits rest
      simp only [number?, dropWhile_append hws hhead, hsign, takeWhile_append hdigits hrest,
        dropWhile_append hdigits hrest, if_neg hne]

theorem Number.ne_nil {negative : Bool} {n : Nat} {s rest : List UInt8} (h : Number negative n s rest)
    : s ≠ [] := by
  cases h
  simp [*]

def intNumeral (x : Int) : List UInt8 :=
  if x < 0 then 45 :: numeral x.natAbs else numeral x.natAbs

theorem number_numeral {ws rest : List UInt8} (hws : ∀ c ∈ ws, isSpace c = true)
    (hrest : ∀ c ∈ rest.head?, isDigit c = false) (n : Nat)
    : Number false n (ws ++ (numeral n ++ rest)) rest := by
  have := Number.mk hws .none (numeral_ne_nil n) (fun _ => isDigit_of_mem_numeral) hrest
  rwa [value_numeral] at this

theorem number_intNumeral {ws rest : List UInt8} (hws : ∀ c ∈ ws, isSpace c = true)
    (hrest : ∀ c ∈ rest.head?, isDigit c = false) (x : Int)
    : Number (decide (x < 0)) x.natAbs (ws ++ (intNumeral x ++ rest)) rest := by
  unfold intNumeral
  split
  . next h =>
    have := Number.mk hws .minus (numeral_ne_nil x.natAbs) (fun _ => isDigit_of_mem_numeral) hrest
    rw [value_numeral] at this
    simpa [h] using this
  . next h =>
    have := number_numeral hws hrest x.natAbs
    simpa [h] using this

theorem newline_notMem_numeral (n : Nat) : newline ∉ numeral n := by
  intro h
  have := isDigit_of_mem_numeral h
  contradiction

theorem newline_notMem_intNumeral (x : Int) : newline ∉ intNumeral x := by
  have := newline_notMem_numeral x.natAbs
  unfold intNumeral
  split
  . simpa [newline] using this
  . exact this

inductive Word : List UInt8 → List UInt8 → List UInt8 → Prop where
  | mk {ws word rest : List UInt8}
      : (∀ c ∈ ws, isSpace c = true) → word ≠ [] → (∀ c ∈ word, isSpace c = false)
          → (∀ c ∈ rest.head?, isSpace c = true) → Word word (ws ++ (word ++ rest)) rest

theorem Word.ne_nil {word s rest : List UInt8} (h : Word word s rest) : word ≠ [] ∧ s ≠ [] := by
  cases h
  simp [*]

def word? (s : List UInt8) : Option (List UInt8 × List UInt8) :=
  let s := s.dropWhile isSpace
  if s = [] then none else some (s.takeWhile (!isSpace ·), s.dropWhile (!isSpace ·))

theorem word?_eq_some_iff {s word rest : List UInt8}
    : word? s = some (word, rest) ↔ Word word s rest := by
  constructor
  . intro h
    simp only [word?, Option.ite_none_left_eq_some, Option.some.injEq, Prod.mk.injEq] at h
    obtain ⟨hne, rfl, rfl⟩ := h
    have hs : s = s.takeWhile isSpace ++ ((s.dropWhile isSpace).takeWhile (!isSpace ·)
        ++ (s.dropWhile isSpace).dropWhile (!isSpace ·)) := by
      rw [List.takeWhile_append_dropWhile, List.takeWhile_append_dropWhile]
    conv => arg 2; rw [hs]
    obtain ⟨c, cs, hcs⟩ := List.exists_cons_of_ne_nil hne
    have hc := head_dropWhile (p := isSpace) s c (by rw [hcs]; rfl)
    refine .mk (fun _ => List.mem_takeWhile_imp) ?_ ?_ ?_
    . simp [hcs, hc]
    . intro c' hc'
      simpa using List.mem_takeWhile_imp hc'
    . intro c' hc'
      simpa using head_dropWhile _ c' hc'
  . intro h
    cases h with
    | @mk ws word rest hws hne hword hrest =>
      obtain ⟨c, cs, rfl⟩ := List.exists_cons_of_ne_nil hne
      have hhead : ∀ c' ∈ (c :: cs ++ rest).head?, isSpace c' = false := by
        rintro _ ⟨⟩
        exact hword c List.mem_cons_self
      have hword' : ∀ c' ∈ c :: cs, (!isSpace c') = true := by simpa using hword
      have hrest' : ∀ c' ∈ rest.head?, (!isSpace c') = false := by simpa using hrest
      simp only [word?, dropWhile_append hws hhead, takeWhile_append hword' hrest',
        dropWhile_append hword' hrest']
      simp

end Text
