import RtlsdrFt8d.Calibration

/-!
# Calibrating again

The test tone of `calibrate` is meant to be uncorrected.  This file compares the
calibrations that start from different contents of the calibration file.
-/

namespace RtlsdrFt8d

open DecimalRounding (roundPlaces)

/-- Neither the test tone nor the result of a calibration depends on the earlier
content of the file, whatever the error of the oscillator and the test frequency:
it is as if there were no file. -/
structure IgnoresPrior (board : Board) (prior : Option Rat) : Prop where
  tone : ∀ error testFreq,
    toneOutput board error prior (startTxTone testFreq) =
      toneOutput board error none (startTxTone testFreq)
  stored : ∀ error testFreq measurements,
    calibrate board error testFreq measurements prior =
      calibrate board error testFreq measurements none

/-- A correction by zero is no correction. -/
theorem correction_zero (line : CommandLine) : correction line (some 0) = correction line none := by
  unfold correction
  split_ifs with given
  · cases ppm : line.ppm with
    | finite value =>
        have zero : value = 0 := by simpa [ppm, CNumerals.Double.isTrue] using given.2
        simp only [zero]
    | infinite negative => simp [ppm, CNumerals.Double.isTrue] at given
    | nan => simp [ppm, CNumerals.Double.isTrue] at given
  · rfl

theorem ignoresPrior_zero (board : Board) : IgnoresPrior board (some 0) := by
  have sameTone (error : Rat) (arguments : List (List Char)) :
      toneOutput board error (some 0) arguments = toneOutput board error none arguments := by
    simp only [toneOutput, Board.assumedClk, correction_zero]
  constructor
  · intro error testFreq
    exact sameTone error (startTxTone testFreq)
  · intro error testFreq measurements
    unfold calibrate
    rw [sameTone]

/-! ## A test frequency that tells corrections apart -/

/-- Around 14.074 MHz a whole divider is far off, whatever the board. -/
theorem whole_divider_far (board : Board) {clock quotient : Rat} {whole : Int}
    (clockLower : board.plldClk * (1 - 1 / 1000000) ≤ clock)
    (clockUpper : clock ≤ board.plldClk * (1 + 1 / 1000000)) (positive : 0 < quotient)
    (product : quotient * whole = clock) : quotient ≤ 14000000 ∨ 14110000 ≤ quotient := by
  rcases le_or_gt whole board.wholePart with low | high
  · right
    have lowRat : (whole : Rat) ≤ board.wholePart := by exact_mod_cast low
    have bound := mul_le_mul_of_nonneg_left lowRat positive.le
    rw [product] at bound
    cases board <;> norm_num [Board.plldClk, Board.wholePart] at clockLower bound <;> linarith
  · left
    have highRat : (board.wholePart : Rat) + 1 ≤ whole := by exact_mod_cast high
    have bound := mul_le_mul_of_nonneg_left highRat positive.le
    rw [product] at bound
    cases board <;> norm_num [Board.plldClk, Board.wholePart] at clockUpper bound <;> linarith

/-- A center that the hardware limit moves puts the test tone far off. -/
theorem moved_tone_far (board : Board) {clock plld : Rat} {whole : Int}
    (clockLower : board.plldClk * (1 - 1 / 1000000) ≤ clock)
    (clockUpper : clock ≤ board.plldClk * (1 + 1 / 1000000)) (plldPos : 0 < plld)
    (one_le : 1 ≤ whole) (below : (whole : Rat) ≤ plld / 14074000 + 1 / 4096) :
    (plld / whole - 31 / 10 * toneSpacing) * clock / plld ≤ 14000000 ∨
      14100000 ≤ (plld / whole - 31 / 10 * toneSpacing) * clock / plld := by
  have wholePos : (1 : Rat) ≤ whole := by exact_mod_cast one_le
  have clockPos : 0 < clock := by
    have positive := plldClk_pos board
    linarith
  have quotientPos : 0 < clock / whole := by positivity
  have shape : (plld / whole - 31 / 10 * toneSpacing) * clock / plld =
      clock / whole - 155 / 8 * (clock / plld) := by
    norm_num [toneSpacing]
    field_simp
  -- The spacing is small against the quotient, for the assumed clock is as
  -- large as the divider demands.
  have assumed : 7000000 * (whole : Rat) ≤ plld := by linarith
  have ratio : clock / plld ≤ clock / whole / 7000000 := by
    rw [div_div, mul_comm]
    exact div_le_div_of_nonneg_left clockPos.le (by positivity) assumed
  have spacingPos : 0 < 155 / 8 * (clock / plld) := by positivity
  rw [shape]
  rcases whole_divider_far board clockLower clockUpper quotientPos
    (div_mul_cancel₀ clock (by positivity)) with low | high
  · left
    linarith
  · right
    linarith

/-- A correction of the sign of a tie cannot measure within the tie. -/
theorem abs_lt_abs_measured {ppm tie : Rat} (nonzero : ppm ≠ 0) (factor : 0 < 1 - ppm / 1000000)
    (tieEq : tie = if 0 < ppm then 1 / 20000 else -(1 / 20000)) :
    1 / 20000 < |(tie + ppm) / (1 - ppm / 1000000)| := by
  rw [abs_div, abs_of_pos factor, lt_div_iff₀ factor]
  split_ifs at tieEq with positive
  · rw [abs_of_pos (by linarith)]
    linarith
  · have negative : ppm < 0 := lt_of_le_of_ne (not_lt.mp positive) nonzero
    rw [abs_of_neg (by linarith)]
    linarith

theorem firstTone_eq (target : Rat) :
    target + 3 / 2 * toneSpacing - 3 / 2 * toneSpacing = target := by
  ring

/-- With an oscillator that is off by a tie, the test tone on 14.074 MHz tells
every correction from none. -/
theorem abs_deviationPpm_tone_gt (board : Board) {ppm tie tone : Rat} (nonzero : ppm ≠ 0)
    (tieEq : tie = if 0 < ppm then 1 / 20000 else -(1 / 20000))
    (output : averageOutput (board.trueClk tie) (board.plldClk * (1 - ppm / 1000000))
      (14074000 + 3 / 2 * toneSpacing) 0 = some tone) :
    1 / 20000 < |deviationPpm tone 14074000| := by
  have positive := plldClk_pos board
  obtain ⟨plldPos, actual, centerEq, -, toneEq⟩ := averageOutput_eq_some (by omega) output
  rcases centerFreqActual_cases plldPos (by rw [firstTone_eq]; norm_num) centerEq with
    rfl | ⟨divider, one_le, below, rfl⟩
  · have factor : 0 < 1 - ppm / 1000000 := (mul_pos_iff_of_pos_left positive).mp plldPos
    have kept : toneFreq (14074000 + 3 / 2 * toneSpacing) toneSpacing 0 = 14074000 := by
      simp [toneFreq]
    rw [toneEq, kept, deviationPpm_of_clocks board (by norm_num) factor]
    exact abs_lt_abs_measured nonzero factor tieEq
  · have tiny : |tie| ≤ 1 / 20000 := by
      rw [tieEq]
      split_ifs <;> norm_num
    have tieBounds := abs_le.mp tiny
    have clockLower : board.plldClk * (1 - 1 / 1000000) ≤ board.trueClk tie := by
      apply mul_le_mul_of_nonneg_left _ positive.le
      linarith [tieBounds.1]
    have clockUpper : board.trueClk tie ≤ board.plldClk * (1 + 1 / 1000000) := by
      apply mul_le_mul_of_nonneg_left _ positive.le
      linarith [tieBounds.2]
    rw [firstTone_eq] at below
    have moved (assumed : Rat) : toneFreq (assumed / divider - 8 / 5 * toneSpacing)
        toneSpacing 0 = assumed / divider - 31 / 10 * toneSpacing := by
      simp only [toneFreq, Nat.cast_zero, zero_mul, add_zero]
      ring
    rw [moved] at toneEq
    have far := moved_tone_far board clockLower clockUpper plldPos one_le below
    rw [← toneEq] at far
    rw [deviationPpm, lt_abs]
    rcases far with low | high
    · right
      linarith
    · left
      linarith

theorem calibrate_ne_zero_of_corrected (board : Board) {ppm tie : Rat} (nonzero : ppm ≠ 0)
    (tieEq : tie = if 0 < ppm then 1 / 20000 else -(1 / 20000)) :
    calibrate board tie 14074000 1 (some ppm) ≠ some 0 := by
  intro writes
  have whole : DecimalRounding.roundEven 14074000 = 14074000 :=
    DecimalRounding.roundEven_intCast 14074000
  rw [calibrate_eq (by norm_num) (by norm_num), whole] at writes
  push_cast at writes
  obtain ⟨tone, output, zero⟩ := Option.map_eq_some_iff.mp writes
  have close := DecimalRounding.abs_le_of_roundPlaces_eq_zero zero
  have apart := abs_deviationPpm_tone_gt board nonzero tieEq output
  norm_num at close apart
  linarith

/-- Rounding hides the error of a tie. -/
theorem roundPlaces_tie : roundPlaces 4 (1 / 20000) = 0 ∧ roundPlaces 4 (-(1 / 20000)) = 0 := by
  have half : ⌊(1 / 2 : Rat)⌋ = 0 := by norm_num
  have minusHalf : ⌊(-(1 / 2) : Rat)⌋ = -1 := by norm_num
  have up : (1 / 20000 : Rat) * 10 ^ 4 = 1 / 2 := by norm_num
  have down : -(1 / 20000 : Rat) * 10 ^ 4 = -(1 / 2) := by norm_num
  constructor
  · rw [roundPlaces, up, DecimalRounding.roundEven, half]
    norm_num
  · rw [roundPlaces, down, DecimalRounding.roundEven, minusHalf]
    norm_num

/-- A calibration ignores the earlier content of the file exactly when there is
none, or one that corrects nothing. -/
theorem ignoresPrior_iff (board : Board) (prior : Option Rat) :
    IgnoresPrior board prior ↔ prior = none ∨ prior = some 0 := by
  constructor
  · intro ignores
    cases prior with
    | none => exact Or.inl rfl
    | some ppm =>
        right
        by_contra corrects
        have nonzero : ppm ≠ 0 := by
          rintro rfl
          exact corrects rfl
        apply calibrate_ne_zero_of_corrected board nonzero rfl
        rw [ignores.stored, calibrate_sampleFreq_none]
        split_ifs
        · rw [roundPlaces_tie.1]
        · rw [roundPlaces_tie.2]
  · rintro (rfl | rfl)
    · exact ⟨fun _ _ => rfl, fun _ _ _ => rfl⟩
    · exact ignoresPrior_zero board

/-- With an oscillator that is 10 ppm fast the first calibration stores 10.0000,
the second 20.0002. -/
theorem not_ignoresPrior_tenPpm :
    ¬ IgnoresPrior .rpi4 (calibrate .rpi4 10 14074000 8 none) := by
  have first : calibrate .rpi4 10 14074000 8 none = some 10 := by
    rw [calibrate_sampleFreq_none, roundPlaces, DecimalRounding.roundEven]
    norm_num
  have second : calibrate .rpi4 10 14074000 8 (some 10) = some (200002 / 10000) := by
    rw [calibrate_sampleFreq _ _ _ (by norm_num [txcalPpm]), txcalPpm, roundPlaces,
      DecimalRounding.roundEven]
    norm_num
  intro ignores
  have same := ignores.stored 10 14074000 8
  rw [first, second] at same
  norm_num at same

end RtlsdrFt8d
