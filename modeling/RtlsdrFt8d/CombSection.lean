import Mathlib.Tactic.Abel
import RtlsdrFt8d.CicDecimator

/-!
# The comb section

Each comb keeps its input in two variables and subtracts the older one, so its
differential delay is two instants.  The compensation filter is designed for a
delay of one.
-/

namespace RtlsdrFt8d

open CicFilters

/-! ## Wrapping sums -/

/-- The signed additions of the callback, which wrap around. -/
instance int32AddCommGroup : AddCommGroup Int32 where
  add_assoc := Int32.add_assoc
  zero_add := Int32.zero_add
  add_zero := Int32.add_zero
  add_comm := Int32.add_comm
  neg_add_cancel := Int32.add_left_neg
  sub_eq_add_neg := Int32.sub_eq_add_neg
  nsmul := nsmulRec
  zsmul := zsmulRec

/-! ## The registers of the combs -/

section Registers

variable {α : Type*} [AddCommGroup α]

/-- The delay lines after `m` instants with the inputs `x`. -/
structure HoldsDelays (x : Signal α) (m : ℕ) (channel : CicChannel α) : Prop where
  t1y : channel.t1y = x.value m
  t1z : channel.t1z = x.value (m - 1)
  t2y : channel.t2y = (CicFilters.comb 2 x).value m
  t2z : channel.t2z = (CicFilters.comb 2 x).value (m - 1)

theorem holdsDelays_initial (x : Signal α) (x1 x2 : α) :
    HoldsDelays x 0 { (CicChannel.initial : CicChannel α) with x1 := x1, x2 := x2 } where
  t1y := x.value_zero.symm
  t1z := x.value_zero.symm
  t2y := (CicFilters.comb 2 x).value_zero.symm
  t2z := (CicFilters.comb 2 x).value_zero.symm

variable {x : Signal α} {m : ℕ} {channel : CicChannel α}

theorem y1_comb (holds : HoldsDelays x m channel) (input : channel.x2 = x.value (m + 1)) :
    channel.comb.y1 = (CicFilters.comb 2 x).value (m + 1) := by
  rw [CicChannel.comb, holds.t1z, input]
  rfl

/-- The two combs together are two combs with delay two. -/
theorem y2_comb (holds : HoldsDelays x m channel) (input : channel.x2 = x.value (m + 1)) :
    channel.comb.y2 = (CicFilters.comb 2 (CicFilters.comb 2 x)).value (m + 1) := by
  have first := y1_comb holds input
  change channel.comb.y1 - channel.t2z = _
  rw [first, holds.t2z]
  rfl

theorem holdsDelays_comb (holds : HoldsDelays x m channel)
    (input : channel.x2 = x.value (m + 1)) : HoldsDelays x (m + 1) channel.comb where
  t1y := input
  t1z := holds.t1y
  t2y := y1_comb holds input
  t2z := holds.t2y

end Registers

/-! ## Delays of one and of two -/

section Torsion

variable {α : Type*} [AddCommGroup α] {x : Signal α}

/-- Where the two sections agree, a value is determined by one later and one
earlier value. -/
theorem three_nsmul_of_combs_eq
    (agree : ∀ n, (CicFilters.comb 2 (CicFilters.comb 2 x)).value (n + 1) =
      (CicFilters.comb 1 (CicFilters.comb 1 x)).value (n + 1)) (m : ℕ) :
    3 • x.value m = 2 • x.value (m + 1) + x.value (m - 2) := by
  have equal := agree (m + 1)
  simp only [value_comb, Nat.add_sub_cancel, Nat.reduceSubDiff] at equal
  have difference : 2 • x.value (m + 1) + x.value (m - 2) - 3 • x.value m =
      (x.value (m + 1 + 1) - x.value m - (x.value m - x.value (m - 2))) -
        (x.value (m + 1 + 1) - x.value (m + 1) - (x.value (m + 1) - x.value m)) := by
    abel
  rw [equal, sub_self] at difference
  exact (sub_eq_zero.mp difference).symm

/-- One power of two less still annihilates the signal. -/
theorem two_pow_nsmul_eq_zero {power : ℕ}
    (recurs : ∀ m, 3 • x.value m = 2 • x.value (m + 1) + x.value (m - 2))
    (annihilated : ∀ m, 2 ^ (power + 1) • x.value m = 0) (m : ℕ) :
    2 ^ power • x.value m = 0 := by
  induction m using Nat.strong_induction_on with
  | _ m ih =>
      have earlier : 2 ^ power • x.value (m - 2) = 0 := by
        by_cases first : m = 0
        · rw [first, Nat.zero_sub, x.value_zero, nsmul_zero]
        · exact ih (m - 2) (by omega)
      have twice (k : ℕ) : 2 • 2 ^ power • x.value k = 0 := by
        rw [← mul_nsmul', ← pow_succ']
        exact annihilated k
      calc
        2 ^ power • x.value m =
            2 ^ power • (3 • x.value m) - 2 • 2 ^ power • x.value m := by
          rw [nsmul_left_comm]
          abel
        _ = 2 ^ power • (2 • x.value (m + 1) + x.value (m - 2)) - 0 := by
          rw [recurs, twice]
        _ = 0 := by
          rw [nsmul_add, nsmul_left_comm, twice, earlier, add_zero, sub_zero]

theorem value_eq_zero_of_recurs {power : ℕ} (torsion : ∀ a : α, 2 ^ power • a = 0)
    (recurs : ∀ m, 3 • x.value m = 2 • x.value (m + 1) + x.value (m - 2)) (m : ℕ) :
    x.value m = 0 := by
  have annihilated : ∀ less, ∀ m, 2 ^ (power - less) • x.value m = 0 := by
    intro less
    induction less with
    | zero => exact fun m => torsion _
    | succ less ih =>
        by_cases done : power ≤ less
        · rw [show power - (less + 1) = power - less by omega]
          exact ih
        · exact two_pow_nsmul_eq_zero recurs
            (by rwa [show power - (less + 1) + 1 = power - less by omega])
  have last := annihilated power m
  rwa [Nat.sub_self, pow_zero, one_nsmul] at last

end Torsion

theorem two_pow_nsmul_int32 (a : Int32) : 2 ^ 32 • a = 0 := by
  have multiple (count : ℕ) : count • a = Int32.ofNat count * a := by
    induction count with
    | zero => rw [zero_nsmul]; exact Int32.zero_mul.symm
    | succ count ih =>
        rw [succ_nsmul, ih, Int32.ofNat_add, Int32.add_mul]
        exact congrArg _ (Int32.one_mul a).symm
  rw [multiple]
  exact Int32.zero_mul

/-! ## The documented section -/

/-- `x[n - k]`, zero before the first instant. -/
def past {α : Type*} [Zero α] (x : ℕ → α) (n k : ℕ) : α :=
  if k ≤ n then x (n - k) else 0

theorem past_eq {α : Type*} [AddCommGroup α] (x : ℕ → α) (n k : ℕ) :
    past x n k = (fromRest x).value (n + 1 - k) := by
  by_cases inPast : k ≤ n
  · rw [past, if_pos inPast, Nat.sub_add_comm inPast, value_fromRest_succ]
  · rw [past, if_neg inPast, Nat.sub_eq_zero_of_le (by omega), Signal.value_zero]

/-- The integrators hold these values at a decimation instant. -/
def Decimator.withIntegrators {α : Type*} (values : α × α) (decimator : Decimator α) :
    Decimator α :=
  { decimator with
    i := { decimator.i with x2 := values.1 }
    q := { decimator.q with x2 := values.2 } }

/-- The decimator right after instant `n`, when its second integrators held
`x 0` to `x n` at the instants so far. -/
def atInstant (x : ℕ → Int32 × Int32) : ℕ → Decimator Int32
  | 0 => ((Decimator.initial : Decimator Int32).withIntegrators (x 0)).comb
  | n + 1 => ((atInstant x n).withIntegrators (x (n + 1))).comb

/-- `x[n] - 2 x[n-1] + x[n-2]`. -/
def documentedComb (x : ℕ → Int32) (n : ℕ) : Int32 :=
  x n - 2 * past x n 1 + past x n 2

def CombsAsDocumented (x : ℕ → Int32 × Int32) : Prop :=
  ∀ n, (atInstant x n).i.y2 = documentedComb (fun k => (x k).1) n ∧
    (atInstant x n).q.y2 = documentedComb (fun k => (x k).2) n

theorem documentedComb_eq (x : ℕ → Int32) (n : ℕ) :
    documentedComb x n = (CicFilters.comb 1 (CicFilters.comb 1 (fromRest x))).value (n + 1) := by
  rw [documentedComb, past_eq, past_eq, Int32.two_mul]
  simp only [value_comb, value_fromRest_succ, Nat.add_sub_cancel, Nat.reduceSubDiff]
  abel

theorem holdsDelays_withIntegrators {x : Signal Int32} {m : ℕ} {channel : CicChannel Int32}
    (holds : HoldsDelays x m channel) (x2 : Int32) :
    HoldsDelays x m { channel with x2 := x2 } :=
  ⟨holds.t1y, holds.t1z, holds.t2y, holds.t2z⟩

theorem holdsDelays_atInstant (x : ℕ → Int32 × Int32) (n : ℕ) :
    HoldsDelays (fromRest fun k => (x k).1) (n + 1) (atInstant x n).i ∧
      HoldsDelays (fromRest fun k => (x k).2) (n + 1) (atInstant x n).q := by
  induction n with
  | zero =>
      exact ⟨holdsDelays_comb (holdsDelays_initial _ 0 _) rfl,
        holdsDelays_comb (holdsDelays_initial _ 0 _) rfl⟩
  | succ n ih =>
      exact ⟨holdsDelays_comb (holdsDelays_withIntegrators ih.1 _) rfl,
        holdsDelays_comb (holdsDelays_withIntegrators ih.2 _) rfl⟩

/-- What the combs compute: the differential delay is two. -/
theorem y2_atInstant (x : ℕ → Int32 × Int32) (n : ℕ) :
    (atInstant x n).i.y2 =
        (CicFilters.comb 2 (CicFilters.comb 2 (fromRest fun k => (x k).1))).value (n + 1) ∧
      (atInstant x n).q.y2 =
        (CicFilters.comb 2 (CicFilters.comb 2 (fromRest fun k => (x k).2))).value (n + 1) := by
  cases n with
  | zero =>
      exact ⟨y2_comb (holdsDelays_initial _ 0 _) rfl, y2_comb (holdsDelays_initial _ 0 _) rfl⟩
  | succ n =>
      obtain ⟨holdsI, holdsQ⟩ := holdsDelays_atInstant x n
      exact ⟨y2_comb (holdsDelays_withIntegrators holdsI _) rfl,
        y2_comb (holdsDelays_withIntegrators holdsQ _) rfl⟩

/-- `Iy2` is `x[n] - 2 x[n-2] + x[n-4]`. -/
theorem y2_atInstant_eq_past (x : ℕ → Int32 × Int32) (n : ℕ) :
    (atInstant x n).i.y2 =
      (x n).1 - 2 * past (fun k => (x k).1) n 2 + past (fun k => (x k).1) n 4 := by
  rw [(y2_atInstant x n).1, past_eq, past_eq, Int32.two_mul]
  simp only [value_comb, value_fromRest_succ, Nat.reduceSubDiff, Nat.sub_sub]
  abel

theorem comb_two_eq_documented_iff (x : ℕ → Int32) :
    (∀ n, (CicFilters.comb 2 (CicFilters.comb 2 (fromRest x))).value (n + 1) =
        documentedComb x n) ↔ ∀ n, x n = 0 := by
  constructor
  · intro agree n
    simp only [documentedComb_eq] at agree
    exact value_eq_zero_of_recurs two_pow_nsmul_int32 (three_nsmul_of_combs_eq agree) (n + 1)
  · intro silent n
    have rests (m : ℕ) : (fromRest x).value m = 0 := by
      cases m with
      | zero => rfl
      | succ m => exact silent m
    simp only [documentedComb_eq, value_comb, rests]

/-- The comb section is the documented one for no signal but silence. -/
theorem combsAsDocumented_iff (x : ℕ → Int32 × Int32) :
    CombsAsDocumented x ↔ ∀ n, x n = (0, 0) := by
  have onI := comb_two_eq_documented_iff fun k => (x k).1
  have onQ := comb_two_eq_documented_iff fun k => (x k).2
  simp only [CombsAsDocumented, y2_atInstant, Prod.ext_iff, forall_and]
  rw [onI, onQ]

/-- One value at the first instant. -/
def impulse (n : ℕ) : Int32 × Int32 :=
  if n = 0 then (1, 0) else (0, 0)

/-- At the instant after it the output is 0 instead of -2. -/
theorem not_combsAsDocumented_impulse : ¬ CombsAsDocumented impulse := by
  intro documented
  have next := (documented 1).1
  revert next
  decide

end RtlsdrFt8d
