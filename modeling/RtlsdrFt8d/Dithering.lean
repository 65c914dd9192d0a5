import Mathlib.Algebra.Order.Field.Rat
import Mathlib.Tactic.FieldSimp
import Mathlib.Tactic.Linarith
import Mathlib.Tactic.Positivity
import Mathlib.Tactic.Ring
import RtlsdrFt8d.EventRuns

/-!
# Dithering between two values

A signal alternates between two values so that its mean comes close to a value
between them.  In each period the rounded share that is due in total is
compared with what was given so far; the error therefore does not add up.
-/

namespace Dithering

/-- The periods so far, in clocks, and the clocks given to the first value. -/
structure Progress where
  total : Int
  share : Int
  deriving DecidableEq

def start : Progress where
  total := 0
  share := 0

variable (round : Rat → Int) (ratio : Rat)

/-- Another period: the first value gets what it is due by its end. -/
def step (progress : Progress) (length : Int) : Progress :=
  let due := round (ratio * (progress.total + length : Int)) - progress.share
  { total := progress.total + length, share := progress.share + due }

/-- The mean over the periods of a signal with two values. -/
def mean (first second : Rat) (progress : Progress) : Rat :=
  (progress.share * first + (progress.total - progress.share) * second) / progress.total

/-- The mean that the ratio stands for. -/
def target (first second : Rat) : Rat :=
  ratio * first + (1 - ratio) * second

/-- The given share is the rounded one. -/
def OnSchedule (progress : Progress) : Prop :=
  progress.share = round (ratio * progress.total)

theorem onSchedule_start (nearest : ∀ x, |(round x : Rat) - x| ≤ 1 / 2) :
    OnSchedule round ratio start := by
  have bound := nearest 0
  rw [sub_zero, ← Int.cast_abs] at bound
  have small : ((|round 0| : Int) : Rat) < 1 := by linarith
  have zero : |round 0| < 1 := by exact_mod_cast small
  have roundZero : round 0 = 0 := Int.abs_lt_one_iff.mp zero
  simp [OnSchedule, start, roundZero]

variable {round ratio} {progress : Progress}

theorem onSchedule_step (length : Int) :
    OnSchedule round ratio (step round ratio progress length) := by
  simp [OnSchedule, step]

theorem abs_share_sub_le (nearest : ∀ x, |(round x : Rat) - x| ≤ 1 / 2)
    (onSchedule : OnSchedule round ratio progress) :
    |(progress.share : Rat) - ratio * progress.total| ≤ 1 / 2 := by
  rw [onSchedule]
  exact nearest _

/-- In no period does the first value get less than nothing or more than the
period. -/
theorem step_share_bounds (mono : ∀ x y, 0 ≤ x → x ≤ y → round x ≤ round y)
    (shift : ∀ x (whole : Int), 0 ≤ x → 0 ≤ whole → round (x + whole) = round x + whole)
    (ratioNonneg : 0 ≤ ratio) (ratioLe : ratio ≤ 1) (totalNonneg : 0 ≤ progress.total)
    (onSchedule : OnSchedule round ratio progress) {length : Int} (lengthNonneg : 0 ≤ length) :
    progress.share ≤ (step round ratio progress length).share ∧
      (step round ratio progress length).share ≤ progress.share + length := by
  have total : (0 : Rat) ≤ progress.total := by exact_mod_cast totalNonneg
  have period : (0 : Rat) ≤ length := by exact_mod_cast lengthNonneg
  have before : 0 ≤ ratio * progress.total := mul_nonneg ratioNonneg total
  have part : 0 ≤ ratio * length := mul_nonneg ratioNonneg period
  have atMost : ratio * length ≤ length := mul_le_of_le_one_left period ratioLe
  have after : ratio * (progress.total + length : Int) =
      ratio * progress.total + ratio * length := by
    push_cast
    ring
  rw [onSchedule_step length, onSchedule]
  change round (ratio * progress.total) ≤ round (ratio * (progress.total + length : Int)) ∧
    round (ratio * (progress.total + length : Int)) ≤ round (ratio * progress.total) + length
  rw [after, ← shift _ length before lengthNonneg]
  constructor
  · exact mono _ _ before (by linarith)
  · exact mono _ _ (by linarith) (by linarith)

/-- The mean misses its target by at most half a clock of the whole time. -/
theorem abs_mean_sub_target_le (nearest : ∀ x, |(round x : Rat) - x| ≤ 1 / 2)
    (onSchedule : OnSchedule round ratio progress) (positive : 0 < progress.total)
    (first second : Rat) :
    |mean first second progress - target ratio first second| ≤
      |first - second| / (2 * progress.total) := by
  have total : (0 : Rat) < progress.total := by exact_mod_cast positive
  have distance : mean first second progress - target ratio first second =
      (progress.share - ratio * progress.total) * (first - second) / progress.total := by
    unfold mean target
    field_simp
    ring
  have bound := nearest (ratio * progress.total)
  rw [← onSchedule] at bound
  rw [distance, abs_div, abs_mul, abs_of_pos total, div_le_div_iff₀ total (by positivity)]
  calc |(progress.share : Rat) - ratio * progress.total| * |first - second| *
          (2 * progress.total)
      ≤ 1 / 2 * |first - second| * (2 * progress.total) := by gcongr
    _ = |first - second| * progress.total := by ring

end Dithering
