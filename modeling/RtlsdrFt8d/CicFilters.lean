import Mathlib.Algebra.BigOperators.Intervals
import Mathlib.Algebra.Order.BigOperators.Group.Finset
import Mathlib.Logic.Function.Iterate

/-!
# Cascaded integrators and combs

A decimating filter may sum its input without bound and take differences
afterwards: the differences undo the growth of the sums.  This file states the
operators on sequences that start from rest, the identity between a cascade of
sums and differences and a cascade of moving sums, the bound that follows from
it, and the exchange of a difference with the reduction of the rate.
-/

namespace CicFilters

/-- A sequence that starts from rest. -/
@[ext]
structure Signal (α : Type*) [Zero α] where
  value : ℕ → α
  value_zero : value 0 = 0

section Operators

variable {α : Type*} [AddCommGroup α]

/-- The signal `lag` instants late. -/
def delay (lag : ℕ) (x : Signal α) : Signal α where
  value n := x.value (n - lag)
  value_zero := by rw [Nat.zero_sub, x.value_zero]

/-- An integrator. -/
def runningSum (x : Signal α) : Signal α where
  value n := ∑ i ∈ Finset.range n, x.value (i + 1)
  value_zero := rfl

/-- A comb with differential delay `lag`. -/
def comb (lag : ℕ) (x : Signal α) : Signal α where
  value n := x.value n - x.value (n - lag)
  value_zero := by rw [Nat.zero_sub, sub_self]

/-- The sum of the last `width` values. -/
def movingSum (width : ℕ) (x : Signal α) : Signal α :=
  comb width (runningSum x)

/-- Every `ratio`-th value. -/
def decimated (ratio : ℕ) (x : Signal α) : Signal α where
  value m := x.value (m * ratio)
  value_zero := by rw [Nat.zero_mul, x.value_zero]

/-- The sequence `x 0, x 1, ...`, from rest. -/
def fromRest (x : ℕ → α) : Signal α where
  value
    | 0 => 0
    | n + 1 => x n
  value_zero := rfl

@[simp]
theorem value_delay (lag : ℕ) (x : Signal α) (n : ℕ) :
    (delay lag x).value n = x.value (n - lag) :=
  rfl

@[simp]
theorem value_comb (lag : ℕ) (x : Signal α) (n : ℕ) :
    (comb lag x).value n = x.value n - x.value (n - lag) :=
  rfl

@[simp]
theorem value_decimated (ratio : ℕ) (x : Signal α) (m : ℕ) :
    (decimated ratio x).value m = x.value (m * ratio) :=
  rfl

@[simp]
theorem value_fromRest_succ (x : ℕ → α) (n : ℕ) : (fromRest x).value (n + 1) = x n :=
  rfl

theorem value_runningSum (x : Signal α) (n : ℕ) :
    (runningSum x).value n = ∑ i ∈ Finset.range n, x.value (i + 1) :=
  rfl

theorem value_runningSum_succ (x : Signal α) (n : ℕ) :
    (runningSum x).value (n + 1) = (runningSum x).value n + x.value (n + 1) :=
  Finset.sum_range_succ _ n

/-! ## Sums and differences -/

theorem runningSum_delay (lag : ℕ) (x : Signal α) :
    runningSum (delay lag x) = delay lag (runningSum x) := by
  ext n
  induction n with
  | zero => rw [value_delay, Nat.zero_sub]; rfl
  | succ n ih =>
      rw [value_runningSum_succ, ih, value_delay, value_delay, value_delay]
      by_cases early : n + 1 ≤ lag
      · rw [Nat.sub_eq_zero_of_le early, Nat.sub_eq_zero_of_le (by omega), x.value_zero, add_zero]
      · rw [Nat.sub_add_comm (by omega), value_runningSum_succ]

/-- Sums and differences may be taken in either order. -/
theorem comb_runningSum (lag : ℕ) (x : Signal α) :
    comb lag (runningSum x) = runningSum (comb lag x) := by
  ext n
  calc
    (comb lag (runningSum x)).value n =
        (runningSum x).value n - (runningSum (delay lag x)).value n := by
      rw [runningSum_delay]
      rfl
    _ = (runningSum (comb lag x)).value n := by
      simp only [value_runningSum, value_comb, value_delay, Finset.sum_sub_distrib]

theorem comb_commute_runningSum (lag : ℕ) :
    Function.Commute (comb (α := α) lag) runningSum :=
  comb_runningSum lag

/-- As many combs as integrators amount to as many moving sums. -/
theorem comb_iterate_runningSum_iterate (lag stages : ℕ) (x : Signal α) :
    (comb lag)^[stages] (runningSum^[stages] x) = (movingSum lag)^[stages] x :=
  (congrFun ((comb_commute_runningSum lag).comp_iterate stages) x).symm

/-- A comb behind the rate reduction is a comb with a longer delay in front of
it. -/
theorem comb_decimated (lag ratio : ℕ) (x : Signal α) :
    comb lag (decimated ratio x) = decimated ratio (comb (lag * ratio) x) := by
  ext m
  simp [Nat.sub_mul]

theorem value_movingSum (width : ℕ) (x : Signal α) (n : ℕ) :
    (movingSum width x).value n = ∑ i ∈ Finset.Ico (n - width) n, x.value (i + 1) :=
  (Finset.sum_Ico_eq_sub _ (Nat.sub_le n width)).symm

end Operators

/-! ## Homomorphisms -/

section Maps

variable {α β : Type*} [AddCommGroup α] [AddCommGroup β]

def Signal.map (f : α →+ β) (x : Signal α) : Signal β where
  value n := f (x.value n)
  value_zero := by rw [x.value_zero, map_zero]

@[simp]
theorem value_map (f : α →+ β) (x : Signal α) (n : ℕ) : (x.map f).value n = f (x.value n) :=
  rfl

theorem fromRest_map (f : α →+ β) (x : ℕ → α) :
    (fromRest x).map f = fromRest fun n => f (x n) := by
  ext n
  cases n with
  | zero => exact map_zero f
  | succ n => rfl

/-- Reducing the input of a moving sum reduces its output. -/
theorem movingSum_map (f : α →+ β) (width : ℕ) :
    Function.Semiconj (Signal.map f) (movingSum width) (movingSum width) := by
  intro x
  ext n
  simp only [value_map, value_movingSum, map_sum]

theorem movingSum_iterate_map (f : α →+ β) (width stages : ℕ) (x : Signal α) :
    ((movingSum width)^[stages] x).map f = (movingSum width)^[stages] (x.map f) :=
  (movingSum_map f width).iterate_right stages x

end Maps

/-! ## Bounds -/

section Bounds

variable {α : Type*} [AddCommGroup α] [LinearOrder α] [IsOrderedAddMonoid α]
  {x : Signal α} {bound : α}

theorem abs_movingSum_le (bounded : ∀ n, |x.value n| ≤ bound) (width n : ℕ) :
    |(movingSum width x).value n| ≤ width • bound := by
  have nonneg : 0 ≤ bound := (abs_nonneg _).trans (bounded 0)
  rw [value_movingSum]
  calc
    |∑ i ∈ Finset.Ico (n - width) n, x.value (i + 1)| ≤
        ∑ i ∈ Finset.Ico (n - width) n, |x.value (i + 1)| := Finset.abs_sum_le_sum_abs _ _
    _ ≤ (Finset.Ico (n - width) n).card • bound :=
      Finset.sum_le_card_nsmul _ _ _ fun i _ => bounded (i + 1)
    _ ≤ width • bound := by
      apply nsmul_le_nsmul_left nonneg
      rw [Nat.card_Ico]
      omega

/-- The gain of a cascade of moving sums. -/
theorem abs_movingSum_iterate_le (bounded : ∀ n, |x.value n| ≤ bound) (width stages n : ℕ) :
    |((movingSum width)^[stages] x).value n| ≤ width ^ stages • bound := by
  induction stages generalizing n with
  | zero =>
      rw [pow_zero, one_nsmul]
      exact bounded n
  | succ stages ih =>
      rw [Function.iterate_succ_apply', pow_succ', mul_nsmul']
      exact abs_movingSum_le ih width n

end Bounds

end CicFilters
