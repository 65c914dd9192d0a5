import Mathlib.Algebra.Order.Floor.Ring
import Mathlib.Data.Rat.Floor
import Mathlib.Tactic.Linarith
import Mathlib.Tactic.NormNum
import Mathlib.Tactic.Positivity
import Mathlib.Tactic.Ring

/-!
# Rounding to decimal places

`printf` rounds to the nearest number of the requested decimal places, and to
the even one of two equally near.
-/

namespace DecimalRounding

/-- The nearest integer, the even one at a midpoint. -/
def roundEven (x : Rat) : Int :=
  if x - ⌊x⌋ < 1 / 2 then ⌊x⌋
  else if 1 / 2 < x - ⌊x⌋ then ⌊x⌋ + 1
  else ⌊x⌋ + ⌊x⌋ % 2

/-- The number that `"%.*f"` prints. -/
def roundPlaces (places : Nat) (x : Rat) : Rat :=
  roundEven (x * 10 ^ places) / 10 ^ places

variable {x : Rat}

@[simp]
theorem roundEven_intCast (whole : Int) : roundEven whole = whole := by
  simp [roundEven]

theorem abs_roundEven_sub_le (x : Rat) : |(roundEven x : Rat) - x| ≤ 1 / 2 := by
  have lower := Int.floor_le x
  have upper := Int.lt_floor_add_one x
  unfold roundEven
  rw [abs_le]
  split_ifs with below above
  · constructor <;> linarith
  · push_cast
    constructor <;> linarith
  · have midpoint : x - ⌊x⌋ = 1 / 2 := le_antisymm (not_lt.mp above) (not_lt.mp below)
    rcases Int.emod_two_eq_zero_or_one ⌊x⌋ with even | odd
    · rw [even]
      push_cast
      constructor <;> linarith
    · rw [odd]
      push_cast
      constructor <;> linarith

theorem roundEven_nonneg (nonneg : 0 ≤ x) : 0 ≤ roundEven x := by
  have bound := abs_le.mp (abs_roundEven_sub_le x)
  have above : (-1 : Rat) < roundEven x := by linarith [bound.1]
  have aboveInt : (-1 : Int) < roundEven x := by exact_mod_cast above
  omega

theorem roundEven_nonpos (nonpos : x ≤ 0) : roundEven x ≤ 0 := by
  have bound := abs_le.mp (abs_roundEven_sub_le x)
  have below : (roundEven x : Rat) < 1 := by linarith [bound.2]
  have belowInt : roundEven x < 1 := by exact_mod_cast below
  omega

variable {places : Nat}

theorem roundPlaces_nonneg (nonneg : 0 ≤ x) : 0 ≤ roundPlaces places x := by
  have rounded := roundEven_nonneg (mul_nonneg nonneg (by positivity : (0 : Rat) ≤ 10 ^ places))
  exact div_nonneg (by exact_mod_cast rounded) (by positivity)

theorem roundPlaces_nonpos (nonpos : x ≤ 0) : roundPlaces places x ≤ 0 := by
  have rounded := roundEven_nonpos
    (mul_nonpos_of_nonpos_of_nonneg nonpos (by positivity : (0 : Rat) ≤ 10 ^ places))
  exact div_nonpos_of_nonpos_of_nonneg (by exact_mod_cast rounded) (by positivity)

theorem abs_roundPlaces_sub_le (places : Nat) (x : Rat) :
    |roundPlaces places x - x| ≤ 1 / (2 * 10 ^ places) := by
  have scale : (0 : Rat) < 10 ^ places := by positivity
  have distance : roundPlaces places x - x =
      (roundEven (x * 10 ^ places) - x * 10 ^ places) / 10 ^ places := by
    rw [roundPlaces, sub_div, mul_div_cancel_right₀ _ scale.ne']
  rw [distance, abs_div, abs_of_pos scale, div_le_div_iff₀ scale (by positivity)]
  have bound := abs_roundEven_sub_le (x * 10 ^ places)
  nlinarith

/-- What prints as zero has no digit in the places, apart from a midpoint. -/
theorem abs_le_of_roundPlaces_eq_zero (zero : roundPlaces places x = 0) :
    |x| ≤ 1 / (2 * 10 ^ places) := by
  have bound := abs_roundPlaces_sub_le places x
  rwa [zero, zero_sub, abs_neg] at bound

end DecimalRounding
