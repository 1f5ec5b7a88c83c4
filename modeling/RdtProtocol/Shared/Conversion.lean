import RdtProtocol.Shared.Basic
import RdtProtocol.Util.Text

/-!
This module contains how the C++ library turns texts into numbers: `stoi` and `stoul`, which take a
number from the beginning of a string, and the operator `>>` of a stream. What counts as a space or as
a digit is what does in the C locale.
-/

-- How a program ends before it has started up. Nothing catches the exceptions.
inductive Failure where
  | undefined
  | invalidArgument
  | outOfRange
  | exitFailure
  deriving DecidableEq, Repr

theorem bind_eq_ok_iff {α β : Type} {x : Except Failure α} {f : α → Except Failure β} {b : β}
    : (x >>= f) = .ok b ↔ ∃ a, x = .ok a ∧ f a = .ok b := by
  cases x with
  | error e => simp [bind, Except.bind]
  | ok a => simp [bind, Except.bind]

def ascii (s : String) : Bytes :=
  s.toList.map Char.toUInt8

def signed (negative : Bool) (n : Nat) : Int :=
  if negative then -n else n

theorem signed_natAbs (x : Int) : signed (decide (x < 0)) x.natAbs = x := by
  simp only [signed, decide_eq_true_eq]
  omega

def uint16 (x : Int) : UInt16 :=
  UInt16.ofNat (x % 2 ^ 16).toNat

theorem uint16_natCast (x : UInt16) : uint16 (signed false x.toNat) = x := by
  have := x.toNat_lt
  unfold uint16
  rw [show signed false x.toNat = x.toNat from rfl, Int.emod_eq_of_lt (by omega) (by omega),
    Int.toNat_natCast, UInt16.ofNat_toNat]

def stoi (s : Bytes) : Except Failure Int :=
  match Text.number? s with
  | none => .error .invalidArgument
  | some (negative, n, _) =>
    if -2 ^ 31 ≤ signed negative n ∧ signed negative n < 2 ^ 31 then
      .ok (signed negative n)
    else
      .error .outOfRange

-- A sign is no error, the number is negated modulo `2 ^ 64`.
def stoul (s : Bytes) : Except Failure UInt64 :=
  match Text.number? s with
  | none => .error .invalidArgument
  | some (negative, n, _) =>
    if n < 2 ^ 64 then .ok (uint64 (signed negative n)) else .error .outOfRange

theorem stoi_eq_ok_iff {s : Bytes} {x : Int}
    : stoi s = .ok x
        ↔ ∃ negative n rest, Text.Number negative n s rest ∧ signed negative n = x
            ∧ -2 ^ 31 ≤ x ∧ x < 2 ^ 31 := by
  unfold stoi
  constructor
  . intro h
    split at h
    . contradiction
    . next negative n rest hnumber =>
      rw [Text.number?_eq_some_iff] at hnumber
      split at h
      . next hbounds =>
        cases h
        exact ⟨negative, n, rest, hnumber, rfl, hbounds⟩
      . contradiction
  . rintro ⟨negative, n, rest, hnumber, rfl, hbounds⟩
    rw [Text.number?_eq_some_iff.mpr hnumber]
    exact if_pos hbounds

theorem stoul_eq_ok_iff {s : Bytes} {x : UInt64}
    : stoul s = .ok x
        ↔ ∃ negative n rest, Text.Number negative n s rest ∧ uint64 (signed negative n) = x
            ∧ n < 2 ^ 64 := by
  unfold stoul
  constructor
  . intro h
    split at h
    . contradiction
    . next negative n rest hnumber =>
      rw [Text.number?_eq_some_iff] at hnumber
      split at h
      . next hn =>
        cases h
        exact ⟨negative, n, rest, hnumber, rfl, hn⟩
      . contradiction
  . rintro ⟨negative, n, rest, hnumber, rfl, hn⟩
    rw [Text.number?_eq_some_iff.mpr hnumber]
    exact if_pos hn

-- `good` is what the stream says of itself: it has neither failed nor come to the end.
structure Istream where
  good : Bool
  rest : Bytes
  deriving DecidableEq, Repr

namespace Istream

def new (s : Bytes) : Istream :=
  { good := true, rest := s }

def fail (i : Istream) : Istream :=
  { i with good := false }

def advance (rest : Bytes) : Istream :=
  { good := rest ≠ [], rest }

def extractString (i : Istream) : Bytes × Istream :=
  if i.good then
    match Text.word? i.rest with
    | none => ([], i.fail)
    | some (word, rest) => (word, advance rest)
  else
    ([], i.fail)

-- `i >> x` for a number `x`, which keeps its value where the stream has come to the end, and is zero where
-- there is no number. `convert` says whether the number fits, and what `x` becomes.
def extractNumber {α : Type} (zero : α) (convert : Bool → Nat → Bool × α) (i : Istream)
    : Option α × Istream :=
  if i.good ∧ i.rest.dropWhile Text.isSpace ≠ [] then
    match Text.number? i.rest with
    | none => (some zero, i.fail)
    | some (negative, n, rest) =>
      (some (convert negative n).2, if (convert negative n).1 then advance rest else i.fail)
  else
    (none, i.fail)

def convertInt (negative : Bool) (n : Nat) : Bool × Int :=
  let x := signed negative n
  (-2 ^ 31 ≤ x ∧ x < 2 ^ 31, max (-2 ^ 31) (min (2 ^ 31 - 1) x))

-- Only the magnitude is compared, so that a negative number wraps around.
def convertUInt16 (negative : Bool) (n : Nat) : Bool × UInt16 :=
  if n < 2 ^ 16 then (true, uint16 (signed negative n)) else (false, 65535)

theorem advance_good {rest : Bytes} (h : rest ≠ []) : (advance rest).good = true := by
  simp [advance, h]

theorem new_eq_advance {s : Bytes} (h : s ≠ []) : new s = advance s := by
  simp [new, advance, h]

theorem extractString_of_word {i : Istream} (hgood : i.good = true) {word rest : Bytes}
    (h : Text.Word word i.rest rest)
    : i.extractString = (word, advance rest) := by
  unfold extractString
  rw [if_pos hgood, Text.word?_eq_some_iff.mpr h]

theorem word_of_extractString {i : Istream} (h : i.extractString.1 ≠ [])
    : ∃ word rest, i.good = true ∧ Text.Word word i.rest rest ∧ i.extractString = (word, advance rest) := by
  simp only [extractString] at h
  split at h
  . next hgood =>
    split at h
    . contradiction
    . next word rest hword =>
      rw [Text.word?_eq_some_iff] at hword
      exact ⟨word, rest, hgood, hword, extractString_of_word hgood hword⟩
  . contradiction

theorem extractString_ne_nil {i : Istream} (h : i.extractString.2.good = true)
    : i.extractString.1 ≠ [] := by
  unfold extractString at *
  split at h
  . next hgood =>
    rw [if_pos hgood]
    split at h
    . contradiction
    . next hword => exact (Text.word?_eq_some_iff.mp hword).ne_nil.1
  . contradiction

section

variable {α : Type} {zero : α} {convert : Bool → Nat → Bool × α} {i : Istream}

theorem extractNumber_of_number (hgood : i.good = true) {negative : Bool} {n : Nat} {rest : Bytes}
    (h : Text.Number negative n i.rest rest)
    : i.extractNumber zero convert
        = (some (convert negative n).2, if (convert negative n).1 then advance rest else i.fail) := by
  have hnumber := Text.number?_eq_some_iff.mpr h
  have hne : i.rest.dropWhile Text.isSpace ≠ [] := by
    intro hnil
    rw [Text.number?, hnil] at hnumber
    contradiction
  unfold extractNumber
  rw [if_pos ⟨hgood, hne⟩, hnumber]

theorem number_of_extractNumber (h : (i.extractNumber zero convert).2.good = true)
    : ∃ negative n rest, i.good = true ∧ Text.Number negative n i.rest rest ∧ (convert negative n).1 = true
        ∧ i.extractNumber zero convert = (some (convert negative n).2, advance rest) := by
  simp only [extractNumber] at h
  split at h
  . next hc =>
    split at h
    . contradiction
    . next negative n rest hnumber =>
      have hfits : (convert negative n).1 = true := by
        by_contra hfits
        rw [if_neg hfits] at h
        contradiction
      rw [Text.number?_eq_some_iff] at hnumber
      refine ⟨negative, n, rest, hc.1, hnumber, hfits, ?_⟩
      rw [extractNumber_of_number hc.1 hnumber, if_pos hfits]
  . contradiction

end

theorem convertInt_eq_true_iff {negative : Bool} {n : Nat} {x : Int}
    : convertInt negative n = (true, x) ↔ signed negative n = x ∧ -2 ^ 31 ≤ x ∧ x < 2 ^ 31 := by
  simp only [convertInt, Prod.mk.injEq, decide_eq_true_eq]
  omega

theorem convertUInt16_eq_true_iff {negative : Bool} {n : Nat} {x : UInt16}
    : convertUInt16 negative n = (true, x) ↔ uint16 (signed negative n) = x ∧ n < 2 ^ 16 := by
  unfold convertUInt16
  split
  . next hn => simp only [Prod.mk.injEq, true_and, hn, and_true]
  . next hn => simp only [Prod.mk.injEq, Bool.false_eq_true, false_and, hn, and_false]

end Istream
