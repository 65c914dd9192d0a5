import Mathlib.Algebra.Order.Ring.Abs
import Mathlib.Data.Int.Order.Basic
import Mathlib.Data.List.Induction
import Mathlib.Tactic.Linarith
import Mathlib.Tactic.NormNum
import Mathlib.Tactic.Ring

/-!
# Positional numerals

The number that a sequence of digits stands for, first digit first.  Digits may
be negative, so different numerals can stand for one number; the last digits of
two such numerals are the same unless they lie a whole base apart.
-/

namespace PositionalNumerals

section Semiring

variable {R : Type*} [CommSemiring R]

def value (base : R) (digits : List R) : R :=
  digits.foldl (fun number digit => number * base + digit) 0

variable {base : R} {digits others : List R}

@[simp]
theorem value_nil : value base [] = 0 :=
  rfl

@[simp]
theorem value_append_singleton (digits : List R) (digit : R) :
    value base (digits ++ [digit]) = value base digits * base + digit := by
  simp [value]

theorem value_append_of_value_eq (same : value base digits = value base others)
    (rest : List R) : value base (digits ++ rest) = value base (others ++ rest) := by
  rw [value, value] at same
  rw [value, value, List.foldl_append, List.foldl_append, same]

theorem value_cons (digit : R) (digits : List R) :
    value base (digit :: digits) = digit * base ^ digits.length + value base digits := by
  induction digits using List.reverseRecOn with
  | nil => simp [value]
  | append_singleton digits last ih =>
      rw [← List.cons_append, value_append_singleton, ih, value_append_singleton,
        List.length_append, List.length_singleton, pow_succ]
      ring

end Semiring

theorem natCast_value (base : ℕ) (digits : List ℕ) :
    ((value base digits : ℕ) : ℤ) = value (base : ℤ) (digits.map Nat.cast) := by
  induction digits using List.reverseRecOn with
  | nil => rfl
  | append_singleton digits last ih =>
      rw [value_append_singleton, List.map_append, List.map_singleton, value_append_singleton,
        ← ih]
      push_cast
      rfl

variable {base : ℤ} {digits others : List ℤ}

/-! ## Bounds -/

/-- The least number of a length, for digits from `-low` on. -/
theorem le_value_of_le {low : ℤ} (positive : 0 < base) (atLeast : ∀ digit ∈ digits, -low ≤ digit) :
    -(low * (base ^ digits.length - 1)) ≤ (base - 1) * value base digits := by
  induction digits using List.reverseRecOn with
  | nil => simp
  | append_singleton digits last ih =>
      have before := ih fun digit isDigit => atLeast digit (List.mem_append_left _ isDigit)
      have lastLe := atLeast last (by simp)
      rw [value_append_singleton, List.length_append, List.length_singleton, pow_succ]
      nlinarith

theorem value_nonneg (positive : 0 < base) (inRange : ∀ digit ∈ digits, 0 ≤ digit) :
    0 ≤ value base digits := by
  induction digits using List.reverseRecOn with
  | nil => simp
  | append_singleton digits last ih =>
      have before := ih fun digit isDigit => inRange digit (List.mem_append_left _ isDigit)
      have lastNonneg := inRange last (by simp)
      rw [value_append_singleton]
      positivity

theorem value_lt (positive : 0 < base) (inRange : ∀ digit ∈ digits, digit < base) :
    value base digits < base ^ digits.length := by
  induction digits using List.reverseRecOn with
  | nil => simp
  | append_singleton digits last ih =>
      have before := ih fun digit isDigit => inRange digit (List.mem_append_left _ isDigit)
      have lastLt := inRange last (by simp)
      rw [value_append_singleton, List.length_append, List.length_singleton, pow_succ]
      nlinarith

theorem natValue_lt {base : ℕ} {digits : List ℕ} (inRange : ∀ digit ∈ digits, digit < base) :
    value base digits < base ^ digits.length := by
  rcases Nat.eq_zero_or_pos base with rfl | positive
  · rw [List.eq_nil_iff_forall_not_mem.mpr fun digit isDigit =>
      absurd (inRange digit isDigit) (Nat.not_lt_zero digit)]
    simp
  · have below := @value_lt base (digits.map Nat.cast) (by exact_mod_cast positive)
      (List.forall_mem_map.mpr fun digit isDigit => by exact_mod_cast inRange digit isDigit)
    rw [← natCast_value, List.length_map] at below
    exact_mod_cast below

/-! ## Comparison -/

/-- The first digit decides before the others do. -/
theorem value_cons_lt_value_cons_iff {digit other : ℤ} (sameLength : digits.length = others.length)
    (inRange : ∀ digit ∈ digits, 0 ≤ digit ∧ digit < base)
    (othersInRange : ∀ digit ∈ others, 0 ≤ digit ∧ digit < base) (positive : 0 < base) :
    value base (digit :: digits) < value base (other :: others) ↔
      digit < other ∨ digit = other ∧ value base digits < value base others := by
  have nonneg := value_nonneg positive fun digit isDigit => (inRange digit isDigit).1
  have othersNonneg := value_nonneg positive fun digit isDigit => (othersInRange digit isDigit).1
  have lt := value_lt positive fun digit isDigit => (inRange digit isDigit).2
  have othersLt := value_lt positive fun digit isDigit => (othersInRange digit isDigit).2
  have power : 0 < base ^ others.length := pow_pos positive _
  rw [value_cons, value_cons, sameLength]
  rw [sameLength] at lt
  rcases lt_trichotomy digit other with less | rfl | greater
  · have gap : (digit + 1) * base ^ others.length ≤ other * base ^ others.length :=
      mul_le_mul_of_nonneg_right less power.le
    simp only [less, true_or, iff_true]
    linarith
  · simp
  · have gap : (other + 1) * base ^ others.length ≤ digit * base ^ others.length :=
      mul_le_mul_of_nonneg_right greater power.le
    simp only [greater.not_gt, greater.ne', false_and, or_self, iff_false]
    linarith

/-- Last digits that are less than a base apart are told by the number. -/
theorem eq_of_value_append_eq {digit other : ℤ} (close : |digit - other| < base)
    (same : value base (digits ++ [digit]) = value base (others ++ [other])) :
    digit = other ∧ value base digits = value base others := by
  rw [value_append_singleton, value_append_singleton] at same
  have multiple : digit - other = (value base others - value base digits) * base := by linarith
  have isZero : value base others - value base digits = 0 := by
    by_contra differ
    have atLeast : 1 ≤ |value base others - value base digits| := Int.one_le_abs differ
    have positive : 0 < base := (abs_nonneg _).trans_lt close
    rw [multiple, abs_mul, abs_of_pos positive] at close
    nlinarith
  rw [isZero, zero_mul] at multiple
  constructor <;> linarith

end PositionalNumerals
