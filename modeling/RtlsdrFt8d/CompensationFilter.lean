import Mathlib.Algebra.BigOperators.Fin
import RtlsdrFt8d.BasebandStream
import RtlsdrFt8d.CombSection
import RtlsdrFt8d.CountedLoops

/-!
# The compensation filter

The loop over the taps adds up the products with the delay line while it moves
the line up, and the newest value is taken in behind the loop.  Over any kind
of numbers this is the filter that `BasebandStream` works with, and in exact
arithmetic it is the convolution of the comb outputs with the coefficients.
-/

namespace RtlsdrFt8d

open CountedLoops

namespace Compensation

section Code

variable {α : Type*} [Zero α] [Add α] [Mul α] (zCoef : Vector α (firTaps + 1))

/-- The delay line and the sum of one channel: `firI` and `Isum`, or `firQ` and
`Qsum`. -/
structure Pass (α : Type*) where
  fir : Vector α firTaps
  sum : α

/-- The body of the loop, for one channel. -/
def tap (pass : Pass α) (j : Fin firTaps) : Pass α where
  sum := pass.sum + pass.fir[j] * zCoef[j.castSucc]
  fir :=
    if next : j.val + 1 < firTaps then pass.fir.set j pass.fir[j.val + 1] j.isLt else pass.fir

/-- `FIR_TAPS - 1`. -/
def lastPlace : Fin firTaps :=
  Fin.last 55

/-- The statements behind the loop, for one channel. -/
def lastTap (pass : Pass α) (y2 : α) : Pass α :=
  let fir := pass.fir.set lastPlace y2 lastPlace.isLt
  { fir := fir
    sum := pass.sum + fir[lastPlace] * zCoef[Fin.last firTaps] }

/-- `firI` and `firQ`. -/
structure Lines (α : Type*) where
  firI : Vector α firTaps
  firQ : Vector α firTaps

def Lines.initial : Lines α where
  firI := Vector.replicate firTaps 0
  firQ := Vector.replicate firTaps 0

/-- The filter for one pair of comb outputs: the channels side by side. -/
def firFilter (lines : Lines α) (iy2 qy2 : α) : Pass α × Pass α :=
  let passes := Fin.foldl firTaps
    (fun passes j => (tap zCoef passes.1 j, tap zCoef passes.2 j))
    ((⟨lines.firI, 0⟩, ⟨lines.firQ, 0⟩) : Pass α × Pass α)
  (lastTap zCoef passes.1 iy2, lastTap zCoef passes.2 qy2)

/-- The delay lines after the first `k` comb outputs. -/
def linesAfter (y : ℕ → α × α) : ℕ → Lines α
  | 0 => .initial
  | k + 1 =>
      let passes := firFilter zCoef (linesAfter y k) (y k).1 (y k).2
      ⟨passes.1.fir, passes.2.fir⟩

/-- `Isum` and `Qsum` for the comb outputs number `k`. -/
def sumsAt (y : ℕ → α × α) (k : ℕ) : α × α :=
  let passes := firFilter zCoef (linesAfter zCoef y k) (y k).1 (y k).2
  (passes.1.sum, passes.2.sum)

/-! ## The loop -/

/-- The line one place further, with a new last value. -/
def shifted (fir : Vector α firTaps) (y2 : α) : Vector α firTaps :=
  Vector.ofFn fun j : Fin firTaps =>
    if next : j.val + 1 < firTaps then fir[j.val + 1] else y2

/-- The products with the line, in the order of the loop. -/
def orderedSum (fir : Vector α firTaps) : α :=
  Fin.foldl firTaps (fun sum j => sum + fir[j] * zCoef[j.castSucc]) 0

/-- Before iteration `j` the places below `j` have moved. -/
structure Scanned (fir : Vector α firTaps) (j : ℕ) (pass : Pass α) (sum : α) : Prop where
  sum : pass.sum = sum
  moved : ∀ (i : Fin firTaps) (next : i.val + 1 < firTaps), i.val < j →
    pass.fir[i] = fir[i.val + 1]
  unmoved : ∀ i : Fin firTaps, j ≤ i.val → pass.fir[i] = fir[i]

variable {zCoef}

omit [Zero α] in
theorem scanned_tap {fir : Vector α firTaps} {pass : Pass α} {sum : α} (j : Fin firTaps)
    (scanned : Scanned fir j pass sum) :
    Scanned fir (j + 1) (tap zCoef pass j) (sum + fir[j] * zCoef[j.castSucc]) where
  sum := by
    simp only [tap]
    rw [scanned.sum, scanned.unmoved j le_rfl]
  moved := by
    intro i next iLe
    by_cases here : i = j
    · subst here
      have unmoved := scanned.unmoved ⟨i + 1, next⟩ (Nat.le_succ i)
      simpa [tap, next] using unmoved
    · have apart : j.val ≠ i.val := fun same => here (Fin.ext same.symm)
      have moved := scanned.moved i next (by omega)
      simp only [tap]
      split
      · simpa [apart] using moved
      · exact moved
  unmoved := by
    intro i iGt
    have apart : j.val ≠ i.val := by omega
    have unmoved := scanned.unmoved i (by omega)
    simp only [tap]
    split
    · simpa [apart] using unmoved
    · exact unmoved

/-- The loop computes the ordered sum with the line that it moves. -/
theorem scanned_foldl (fir : Vector α firTaps) :
    Scanned fir firTaps (Fin.foldl firTaps (tap zCoef) ⟨fir, 0⟩) (orderedSum zCoef fir) := by
  apply finFoldl_related (Scanned fir)
  · exact ⟨rfl, fun i next below => absurd below (Nat.not_lt_zero _), fun i _ => rfl⟩
  · exact fun j pass sum scanned => scanned_tap j scanned

omit [Zero α] in
theorem lastTap_of_scanned {fir : Vector α firTaps} {pass : Pass α} {sum : α}
    (scanned : Scanned fir firTaps pass sum) (y2 : α) :
    lastTap zCoef pass y2 = ⟨shifted fir y2, sum + y2 * zCoef[Fin.last firTaps]⟩ := by
  simp only [lastTap, Pass.mk.injEq]
  constructor
  · apply Vector.ext
    intro i iLt
    by_cases next : i + 1 < firTaps
    · have moved := scanned.moved ⟨i, iLt⟩ next iLt
      have apart : lastPlace.val ≠ i := by
        simp only [lastPlace, Fin.val_last, firTaps] at next ⊢
        omega
      simpa [shifted, next, apart] using moved
    · have isLast : lastPlace.val = i := by
        simp only [lastPlace, Fin.val_last, firTaps] at iLt next ⊢
        omega
      simp [shifted, next, isLast]
  · rw [scanned.sum]
    simp

/-- The channels do not disturb each other. -/
theorem firFilter_eq (lines : Lines α) (iy2 qy2 : α) :
    firFilter zCoef lines iy2 qy2 =
      (⟨shifted lines.firI iy2, orderedSum zCoef lines.firI + iy2 * zCoef[Fin.last firTaps]⟩,
        ⟨shifted lines.firQ qy2,
          orderedSum zCoef lines.firQ + qy2 * zCoef[Fin.last firTaps]⟩) := by
  rw [firFilter, finFoldl_prod]
  exact congrArg₂ Prod.mk (lastTap_of_scanned (scanned_foldl _) _)
    (lastTap_of_scanned (scanned_foldl _) _)

end Code

/-! ## Exact arithmetic -/

section Exact

variable {α : Type*} [CommSemiring α] (zCoef : Vector α (firTaps + 1))

/-- The line holds the last inputs of `k`, the oldest one first. -/
def HoldsLast (x : ℕ → α) (k : ℕ) (fir : Vector α firTaps) : Prop :=
  ∀ j : Fin firTaps, fir[j] = past x k (firTaps - j)

theorem holdsLast_initial (x : ℕ → α) : HoldsLast x 0 (Vector.replicate firTaps 0) := by
  intro j
  rw [past, if_neg (by omega)]
  simp

theorem holdsLast_shifted {x : ℕ → α} {k : ℕ} {fir : Vector α firTaps}
    (holds : HoldsLast x k fir) : HoldsLast x (k + 1) (shifted fir (x k)) := by
  intro j
  by_cases next : j.val + 1 < firTaps
  · have moved := holds ⟨j + 1, next⟩
    have sameInstant : past x (k + 1) (firTaps - j) = past x k (firTaps - (j + 1)) := by
      have place : firTaps - j = firTaps - (j + 1) + 1 := by omega
      rw [place, past, past, Nat.add_sub_add_right]
      exact if_congr (by omega) rfl rfl
    rw [sameInstant]
    simpa [shifted, next] using moved
  · have newest : firTaps - j = 1 := by omega
    rw [newest, past, if_pos (by omega), Nat.add_sub_cancel]
    simp [shifted, next]

theorem foldl_add_eq_sum {n : ℕ} (f : Fin n → α) :
    Fin.foldl n (fun sum j => sum + f j) 0 = ∑ j, f j := by
  induction n with
  | zero => simp
  | succ n ih => rw [Fin.foldl_succ_last, ih fun j => f j.castSucc, Fin.sum_univ_castSucc]

/-- The convolution with the coefficients, for the input number `k`. -/
def convolution (x : ℕ → α) (k : ℕ) : α :=
  ∑ j : Fin (firTaps + 1), zCoef[j] * past x k (firTaps - j)

/-- One channel takes the convolution of its inputs. -/
theorem sum_eq_convolution {x : ℕ → α} {k : ℕ} {fir : Vector α firTaps}
    (holds : HoldsLast x k fir) :
    orderedSum zCoef fir + x k * zCoef[Fin.last firTaps] = convolution zCoef x k := by
  have newest : past x k (firTaps - Fin.last firTaps) = x k := by
    rw [Fin.val_last, Nat.sub_self, past, if_pos (Nat.zero_le k), Nat.sub_zero]
  rw [orderedSum, foldl_add_eq_sum, convolution, Fin.sum_univ_castSucc, newest, mul_comm (x k)]
  refine congrArg (· + _) (Finset.sum_congr rfl ?_)
  intro j _
  rw [holds j, mul_comm, Fin.val_castSucc]

variable (y : ℕ → α × α)

/-- Both lines hold the last inputs of their channels. -/
structure LinesHold (k : ℕ) (lines : Lines α) : Prop where
  i : HoldsLast (fun n => (y n).1) k lines.firI
  q : HoldsLast (fun n => (y n).2) k lines.firQ

theorem linesHold_linesAfter (k : ℕ) : LinesHold y k (linesAfter zCoef y k) := by
  induction k with
  | zero => exact ⟨holdsLast_initial _, holdsLast_initial _⟩
  | succ k ih =>
      rw [linesAfter, firFilter_eq]
      exact ⟨holdsLast_shifted ih.i, holdsLast_shifted ih.q⟩

/-- In exact arithmetic the sums are the convolutions of the comb outputs with
the coefficients, and afterwards the lines hold the last outputs in order. -/
theorem sumsAt_eq_convolution (k : ℕ) :
    sumsAt zCoef y k =
        (∑ j : Fin (firTaps + 1), zCoef[j] * past (fun n => (y n).1) k (firTaps - j),
          ∑ j : Fin (firTaps + 1), zCoef[j] * past (fun n => (y n).2) k (firTaps - j)) ∧
      LinesHold y (k + 1) (linesAfter zCoef y (k + 1)) := by
  have holds := linesHold_linesAfter zCoef y k
  refine ⟨?_, linesHold_linesAfter zCoef y (k + 1)⟩
  rw [sumsAt, firFilter_eq]
  exact congrArg₂ Prod.mk (sum_eq_convolution zCoef holds.i) (sum_eq_convolution zCoef holds.q)

end Exact

/-! ## The filter of the callback -/

theorem shifted_float32 (fir : DelayLine) (y2 : Int32) :
    shifted fir y2.toFloat32 = fir.shift y2 :=
  rfl

theorem output_float32 (fir : DelayLine) (y2 : Int32) :
    orderedSum RtlsdrFt8d.zCoef fir + y2.toFloat32 * RtlsdrFt8d.zCoef[Fin.last firTaps] =
      fir.output y2 := by
  have newest : (fir.shift y2).get (Fin.last 55) = y2.toFloat32 := by
    have atEnd : ¬ lastPlace.val + 1 < firTaps := Nat.lt_irrefl firTaps
    change (shifted fir y2.toFloat32)[lastPlace] = y2.toFloat32
    simp [shifted, atEnd]
  rw [DelayLine.output, newest, orderedSum, Fin.foldl_eq_finRange_foldl]
  rfl

/-- With the numbers of the receiver the loop is the filter of `filterSample`. -/
theorem firFilter_float32 (state : FilterState) (iy2 qy2 : Int32) :
    firFilter RtlsdrFt8d.zCoef ⟨state.firI, state.firQ⟩ iy2.toFloat32 qy2.toFloat32 =
      (⟨state.firI.shift iy2, state.firI.output iy2⟩,
        ⟨state.firQ.shift qy2, state.firQ.output qy2⟩) := by
  rw [firFilter_eq, output_float32, output_float32, shifted_float32, shifted_float32]

end Compensation

end RtlsdrFt8d
