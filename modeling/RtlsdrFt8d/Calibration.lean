import RtlsdrFt8d.DecimalRounding
import RtlsdrFt8d.FrequencySynthesis

/-!
# Calibration of the transmitter

`calibrate` starts `ft8` with a test tone, measures how far the tone is off and
writes the result to the calibration file, from which `ft8` takes its correction
when it is given none.  The measurement is without noise here, and the clock of
the board is off by a constant.
-/

namespace RtlsdrFt8d

open CNumerals (Double formatInt)

/-! ## The clock of a board -/

inductive Board where
  | rpi4
  | rpi23
  | rpi1
  deriving DecidableEq

/-- `F_PLLD_CLK`. -/
def Board.plldClk : Board → Rat
  | .rpi4 => 750000000
  | .rpi23 => 500000000
  | .rpi1 => 500000000 * (1 - 5 / 2 / 1000000)

/-- The clock of a board whose oscillator is off by an error in ppm. -/
def Board.trueClk (board : Board) (error : Rat) : Rat :=
  board.plldClk * (1 + error / 1000000)

/-- The `ppm` of `mainFT8`: one given on the command line, or else the content
of the calibration file. -/
def correction (line : CommandLine) (txcal : Option Rat) : Double :=
  if ¬ line.selfCal ∧ ¬ line.ppm.isTrue then
    match txcal with
    | some calPpm => .finite calPpm
    | none => line.ppm
  else line.ppm

/-- `F_PLLD_CLK * (1 - ppm / 1e6)`; a correction by NTP is not known here. -/
def Board.assumedClk (board : Board) (line : CommandLine) (txcal : Option Rat) : Option Rat :=
  match line.selfCal, correction line txcal with
  | false, .finite ppm => some (board.plldClk * (1 - ppm / 1000000))
  | _, _ => none

/-- The mean output of `ft8` for a test tone. -/
def toneOutput (board : Board) (error : Rat) (txcal : Option Rat)
    (arguments : List (List Char)) : Option Rat :=
  (parseCommandline arguments).bind fun line =>
    (board.assumedClk line txcal).bind fun plld =>
      match line.mode, line.testTone with
      | .tone, .finite testTone =>
          averageOutput (board.trueClk error) plld (testTone + 3 / 2 * toneSpacing) 0
      | _, _ => none

/-- The mean output of `ft8` for a symbol of a message. -/
def symbolOutput (board : Board) (error : Rat) (txcal : Option Rat) (line : CommandLine)
    (center : Rat) (symNum : Nat) : Option Rat :=
  (board.assumedClk line txcal).bind fun plld =>
    averageOutput (board.trueClk error) plld center symNum

/-! ## `calibrate` -/

/-- The arguments of `ft8` in `startTxTone`. -/
def startTxTone (freqHz : Rat) : List (List Char) :=
  ["-t".toList, formatInt 0 (DecimalRounding.roundEven freqHz), "-f".toList]

/-- The `ppm` of one measurement.  Without noise `measureToneOffset` finds the
offset of the tone from the tuned frequency. -/
def measuredPpm (testFreq tone : Rat) : Rat :=
  let centerFreq : Rat := ⌊testFreq - 100000⌋
  let offsetHz := tone - centerFreq
  let measuredFreq := centerFreq + offsetHz
  let errorHz := measuredFreq - testFreq
  errorHz / testFreq * 1000000

/-- How far an output is off its target, in ppm. -/
def deviationPpm (out target : Rat) : Rat :=
  (out - target) / target * 1000000

/-- What the next `txcal_read` finds. -/
def txcalWrite (ppm : Rat) : Rat :=
  DecimalRounding.roundPlaces 4 ppm

/-- The content that `calibrate` writes; `none` where it writes nothing.  The
tuner takes 32 bits, beyond which the conversion is undefined. -/
def calibrate (board : Board) (error testFreq : Rat) (measurements : Int)
    (txcal : Option Rat) : Option Rat :=
  if testFreq < 1000000 ∨ 2 ^ 32 ≤ testFreq - 100000 then none
  else
    (toneOutput board error txcal (startTxTone testFreq)).map fun tone =>
      let ppms := List.replicate (max 1 measurements).toNat (measuredPpm testFreq tone)
      txcalWrite (ppms.sum / ppms.length)

/-! ## What `ft8` makes of its arguments -/

variable {board : Board} {error testFreq : Rat} {txcal : Option Rat}

/-- The correction that comes from the file, or no correction. -/
def txcalPpm (txcal : Option Rat) : Rat :=
  txcal.getD 0

theorem assumedClk_of_uncorrected (board : Board) {line : CommandLine}
    (noPpm : line.ppm = .finite 0) (noSelfCal : line.selfCal = false) (txcal : Option Rat) :
    board.assumedClk line txcal =
      some (board.plldClk * (1 - txcalPpm txcal / 1000000)) := by
  cases txcal with
  | none => simp [Board.assumedClk, correction, noPpm, noSelfCal, txcalPpm]
  | some ppm => simp [Board.assumedClk, correction, noPpm, noSelfCal, txcalPpm, Double.isTrue]

theorem parseCommandline_testTone {number : Nat} (positive : 0 < number) :
    parseCommandline ["-t".toList, Nat.toDigits 10 number, "-f".toList] =
      some { defaultCommandLine with mode := .tone, testTone := .finite number } := by
  have scanned : GetoptPermutation.scan ft8Options none
      ["-t".toList, Nat.toDigits 10 number, "-f".toList] =
        ([.option 't' (some (Nat.toDigits 10 number)), .option 'f' none], []) :=
    rfl
  have value : doubleOption (Nat.toDigits 10 number) = some (.finite number) := by
    simp [doubleOption, CNumerals.strtod_toDigits]
  unfold parseCommandline
  rw [scanned]
  simp only [List.foldlM_cons, List.foldlM_nil, applyOption, value]
  simp [parseFreeArguments, checkCommandLine, defaultCommandLine, Double.leZero, positive.ne']

/-- The clock that `ft8` assumes for the test tone of `calibrate`: the file
corrects it, for `-f` only turns off the correction by NTP. -/
theorem toneOutput_startTxTone (large : 1000000 ≤ testFreq) :
    toneOutput board error txcal (startTxTone testFreq) =
      averageOutput (board.trueClk error) (board.plldClk * (1 - txcalPpm txcal / 1000000))
        (DecimalRounding.roundEven testFreq + 3 / 2 * toneSpacing) 0 := by
  have bound := abs_le.mp (DecimalRounding.abs_roundEven_sub_le testFreq)
  have positiveRat : (0 : Rat) < DecimalRounding.roundEven testFreq := by linarith [bound.1]
  have positive : 0 < DecimalRounding.roundEven testFreq := by exact_mod_cast positiveRat
  have sameRat : ((DecimalRounding.roundEven testFreq).natAbs : Rat) =
      DecimalRounding.roundEven testFreq := by
    rw [← Int.cast_natCast, Int.natAbs_of_nonneg positive.le]
  unfold toneOutput startTxTone
  rw [CNumerals.formatInt_zero_of_nonneg positive.le,
    parseCommandline_testTone (Int.natAbs_pos.mpr positive.ne'), Option.bind_some,
    assumedClk_of_uncorrected board rfl rfl, Option.bind_some, sameRat]

/-- The measurement does not depend on where the receiver is tuned. -/
theorem measuredPpm_eq (testFreq tone : Rat) :
    measuredPpm testFreq tone = deviationPpm tone testFreq := by
  simp only [measuredPpm, deviationPpm]
  ring

/-- Equal measurements average to themselves. -/
theorem average_replicate {count : Nat} (positive : 0 < count) (ppm : Rat) :
    (List.replicate count ppm).sum / (List.replicate count ppm).length = ppm := by
  have nonzero : (count : Rat) ≠ 0 := by exact_mod_cast positive.ne'
  rw [List.sum_replicate, List.length_replicate, nsmul_eq_mul, mul_div_cancel_left₀ _ nonzero]

theorem calibrate_eq (large : 1000000 ≤ testFreq) (tunable : testFreq - 100000 < 2 ^ 32)
    (measurements : Int) :
    calibrate board error testFreq measurements txcal =
      (averageOutput (board.trueClk error) (board.plldClk * (1 - txcalPpm txcal / 1000000))
        (DecimalRounding.roundEven testFreq + 3 / 2 * toneSpacing) 0).map fun tone =>
          txcalWrite (deviationPpm tone testFreq) := by
  have inRange : ¬ (testFreq < 1000000 ∨ 2 ^ 32 ≤ testFreq - 100000) := by
    rintro (small | above) <;> linarith
  have count : 0 < (max 1 measurements).toNat := by omega
  unfold calibrate
  rw [if_neg inRange, toneOutput_startTxTone large]
  simp only [average_replicate count, measuredPpm_eq]

theorem bounds_of_calibrate {measurements : Int} {stored : Rat}
    (writes : calibrate board error testFreq measurements txcal = some stored) :
    1000000 ≤ testFreq ∧ testFreq - 100000 < 2 ^ 32 := by
  unfold calibrate at writes
  split at writes
  · contradiction
  · next inRange =>
      rw [not_or, not_lt, not_le] at inRange
      exact inRange

theorem plldClk_pos (board : Board) : 0 < board.plldClk := by
  cases board <;> norm_num [Board.plldClk]

/-- A correction adds to the error instead of cancelling it: the clocks enter
as their quotient. -/
theorem deviationPpm_of_clocks (board : Board) {target ppm : Rat} (target_ne : target ≠ 0)
    (factor : 0 < 1 - ppm / 1000000) :
    deviationPpm (target * board.trueClk error / (board.plldClk * (1 - ppm / 1000000))) target =
      (error + ppm) / (1 - ppm / 1000000) := by
  have gap : 1000000 - ppm ≠ 0 := by linarith
  have clock_ne := (plldClk_pos board).ne'
  rw [deviationPpm, Board.trueClk]
  field_simp
  ring

/-! ## A reachable frequency -/

/-- The integer part of the divider around 14.075 MHz. -/
def Board.wholePart : Board → Int
  | .rpi4 => 53
  | .rpi23 => 35
  | .rpi1 => 35

theorem sharesInteger_near (board : Board) {plld center : Rat}
    (plldLower : board.plldClk * (1 - 3 / 10000) ≤ plld)
    (plldUpper : plld ≤ board.plldClk * (1 + 3 / 10000))
    (centerLower : 14074000 ≤ center) (centerUpper : center ≤ 14075100) :
    SharesInteger center plld board.wholePart := by
  cases board with
  | rpi4 =>
      norm_num [Board.plldClk] at plldLower plldUpper
      constructor <;> norm_num [Board.wholePart, toneSpacing] <;> linarith
  | rpi23 =>
      norm_num [Board.plldClk] at plldLower plldUpper
      constructor <;> norm_num [Board.wholePart, toneSpacing] <;> linarith
  | rpi1 =>
      norm_num [Board.plldClk] at plldLower plldUpper
      constructor <;> norm_num [Board.wholePart, toneSpacing] <;> linarith

theorem sharesInteger_corrected (board : Board) {ppm center : Rat} (small : |ppm| ≤ 300)
    (centerLower : 14074000 ≤ center) (centerUpper : center ≤ 14075100) :
    SharesInteger center (board.plldClk * (1 - ppm / 1000000)) board.wholePart := by
  have positive := plldClk_pos board
  have bounds := abs_le.mp small
  apply sharesInteger_near
  · apply mul_le_mul_of_nonneg_left _ positive.le
    linarith [bounds.2]
  · apply mul_le_mul_of_nonneg_left _ positive.le
    linarith [bounds.1]
  · exact centerLower
  · exact centerUpper

/-- On 14.074 MHz a calibration under a small correction adds the correction to
the error of the oscillator. -/
theorem calibrate_sampleFreq (board : Board) (error : Rat) (measurements : Int)
    (small : |txcalPpm txcal| ≤ 300) :
    calibrate board error 14074000 measurements txcal =
      some (DecimalRounding.roundPlaces 4
        ((error + txcalPpm txcal) / (1 - txcalPpm txcal / 1000000))) := by
  have bounds := abs_le.mp small
  have shares : SharesInteger (14074000 + 3 / 2 * toneSpacing)
      (board.plldClk * (1 - txcalPpm txcal / 1000000)) board.wholePart := by
    apply sharesInteger_corrected board small
    · norm_num [toneSpacing]
    · norm_num [toneSpacing]
  have whole : DecimalRounding.roundEven 14074000 = 14074000 :=
    DecimalRounding.roundEven_intCast 14074000
  have tone : toneFreq (14074000 + 3 / 2 * toneSpacing) toneSpacing 0 = 14074000 := by
    simp [toneFreq]
  rw [calibrate_eq (by norm_num) (by norm_num), whole]
  push_cast
  rw [shares.averageOutput_eq _ (by omega), tone, Option.map_some, txcalWrite,
    deviationPpm_of_clocks board (by norm_num) (by linarith [bounds.2])]

/-- The first calibration stores the error. -/
theorem calibrate_sampleFreq_none (board : Board) (error : Rat) (measurements : Int) :
    calibrate board error 14074000 measurements none =
      some (DecimalRounding.roundPlaces 4 error) := by
  rw [calibrate_sampleFreq board error measurements (by norm_num [txcalPpm])]
  simp [txcalPpm]

/-! ## The corrected output -/

/-- `ft8` was given neither `-p` nor `-s`, and the frequency needs no change of
the center. -/
structure CorrectedByFile (board : Board) (txcal : Option Rat) (line : CommandLine)
    (center : Rat) : Prop where
  ppm_eq : line.ppm = .finite 0
  selfCal_eq : line.selfCal = false
  onTarget : ∀ plld, board.assumedClk line txcal = some plld →
    centerFreqActual center toneSpacing plld = some center

/-- Calibration brings every output closer to its target than the error of the
oscillator left it. -/
def ReducesError (board : Board) (error : Rat) : Prop :=
  ∀ testFreq measurements stored,
    calibrate board error testFreq measurements none = some stored →
    ∀ line center symNum out, CorrectedByFile board (some stored) line center → symNum < 8 →
      symbolOutput board error (some stored) line center symNum = some out →
      |deviationPpm out (toneFreq center toneSpacing symNum)| < |error|

theorem deviationPpm_symbolOutput {line : CommandLine} {center stored out : Rat} {symNum : Nat}
    (corrected : CorrectedByFile board (some stored) line center) (inTable : symNum < 8)
    (output : symbolOutput board error (some stored) line center symNum = some out) :
    0 < 1 - stored / 1000000 ∧
      deviationPpm out (toneFreq center toneSpacing symNum) =
        (error + stored) / (1 - stored / 1000000) := by
  have clock := plldClk_pos board
  have assumed := assumedClk_of_uncorrected board corrected.ppm_eq
    corrected.selfCal_eq (some stored)
  unfold symbolOutput at output
  rw [assumed, Option.bind_some] at output
  obtain ⟨positive, actual, centerEq, tone_ne, rfl⟩ := averageOutput_eq_some inTable output
  rw [corrected.onTarget _ assumed] at centerEq
  obtain rfl := Option.some.inj centerEq
  have factor : 0 < 1 - stored / 1000000 := (mul_pos_iff_of_pos_left clock).mp positive
  exact ⟨factor, deviationPpm_of_clocks board tone_ne factor⟩

/-- Without noise a whole test frequency on target measures the error itself. -/
theorem calibrate_onTarget {testFreq : Int} {measurements : Int} {stored : Rat}
    (onTarget : centerFreqActual (testFreq + 3 / 2 * toneSpacing) toneSpacing board.plldClk =
      some (testFreq + 3 / 2 * toneSpacing))
    (writes : calibrate board error testFreq measurements none = some stored) :
    stored = DecimalRounding.roundPlaces 4 error := by
  obtain ⟨large, tunable⟩ := bounds_of_calibrate writes
  rw [calibrate_eq large tunable, DecimalRounding.roundEven_intCast] at writes
  obtain ⟨tone, output, rfl⟩ := Option.map_eq_some_iff.mp writes
  obtain ⟨-, actual, centerEq, -, rfl⟩ := averageOutput_eq_some (by omega) output
  have uncorrected : board.plldClk * (1 - txcalPpm none / 1000000) = board.plldClk := by
    simp [txcalPpm]
  rw [uncorrected, onTarget] at centerEq
  obtain rfl := Option.some.inj centerEq
  have tone : toneFreq (testFreq + 3 / 2 * toneSpacing) toneSpacing 0 = testFreq := by
    simp [toneFreq]
  rw [txcalWrite, tone, deviationPpm_of_clocks board (by linarith) (by norm_num [txcalPpm])]
  simp [txcalPpm]

/-- A correction of the sign of the error does not bring the output closer. -/
theorem abs_le_abs_deviation {stored : Rat} (small : |error| ≤ 200)
    (factor : 0 < 1 - stored / 1000000) (nonneg : 0 ≤ error → 0 ≤ stored)
    (nonpos : error ≤ 0 → stored ≤ 0) :
    |error| ≤ |(error + stored) / (1 - stored / 1000000)| := by
  rw [abs_div, abs_of_pos factor, le_div_iff₀ factor]
  have bounds := abs_le.mp small
  rcases le_total 0 error with atLeast | atMost
  · have storedNonneg := nonneg atLeast
    rw [abs_of_nonneg atLeast, abs_of_nonneg (by linarith)]
    nlinarith
  · have storedNonpos := nonpos atMost
    rw [abs_of_nonpos atMost, abs_of_nonpos (by linarith)]
    nlinarith

theorem le_deviationPpm (small : |error| ≤ 200) {line : CommandLine} {center out : Rat}
    {symNum : Nat}
    (corrected : CorrectedByFile board (some (DecimalRounding.roundPlaces 4 error)) line center)
    (inTable : symNum < 8)
    (output : symbolOutput board error (some (DecimalRounding.roundPlaces 4 error)) line center
      symNum = some out) :
    |error| ≤ |deviationPpm out (toneFreq center toneSpacing symNum)| := by
  obtain ⟨factor, deviation⟩ := deviationPpm_symbolOutput corrected inTable output
  rw [deviation]
  exact abs_le_abs_deviation small factor DecimalRounding.roundPlaces_nonneg
    DecimalRounding.roundPlaces_nonpos

/-- On 14.075 MHz the transmitter reaches its target with any small correction. -/
theorem symbolOutput_sampleFreq (board : Board) (error : Rat) {stored : Rat}
    (small : |stored| ≤ 300) :
    CorrectedByFile board (some stored) defaultCommandLine 14075000 ∧
      ∃ out, symbolOutput board error (some stored) defaultCommandLine 14075000 0 = some out := by
  have shares : SharesInteger 14075000 (board.plldClk * (1 - stored / 1000000))
      board.wholePart :=
    sharesInteger_corrected board small (by norm_num) (by norm_num)
  have assumed : board.assumedClk defaultCommandLine (some stored) = _ :=
    assumedClk_of_uncorrected board rfl rfl (some stored)
  refine ⟨⟨rfl, rfl, ?_⟩, ?_⟩
  · intro plld same
    obtain rfl := Option.some.inj (assumed.symm.trans same)
    exact shares.centerFreqActual_eq
  · unfold symbolOutput
    rw [assumed, Option.bind_some]
    exact ⟨_, shares.averageOutput_eq _ (by omega)⟩

theorem not_reducesError (board : Board) (small : |error| ≤ 200) : ¬ ReducesError board error := by
  intro reduces
  have close := DecimalRounding.abs_roundPlaces_sub_le 4 error
  have storedSmall : |DecimalRounding.roundPlaces 4 error| ≤ 300 := by
    have split := abs_add_le (DecimalRounding.roundPlaces 4 error - error) error
    rw [sub_add_cancel] at split
    norm_num at close
    linarith
  obtain ⟨corrected, out, output⟩ := symbolOutput_sampleFreq board error storedSmall
  have less := reduces 14074000 1 _ (calibrate_sampleFreq_none board error 1) _ _ 0 out corrected
    (by omega) output
  exact absurd less (not_lt.mpr (le_deviationPpm small corrected (by omega) output))

/-- No calibration reduces the error: what is stored for a whole test frequency
moves every output at least as far from its target as the error itself did. -/
theorem calibration_never_reduces (board : Board) (error : Rat) (small : |error| ≤ 200) :
    ¬ ReducesError board error ∧
      ∀ (testFreq : Int) measurements stored,
        centerFreqActual (testFreq + 3 / 2 * toneSpacing) toneSpacing board.plldClk =
          some (testFreq + 3 / 2 * toneSpacing) →
        calibrate board error testFreq measurements none = some stored →
        ∀ line center symNum out, CorrectedByFile board (some stored) line center →
          symNum < 8 → symbolOutput board error (some stored) line center symNum = some out →
          |error| ≤ |deviationPpm out (toneFreq center toneSpacing symNum)| := by
  refine ⟨not_reducesError board small, ?_⟩
  intro testFreq measurements stored onTarget writes line center symNum out corrected inTable
    output
  obtain rfl := calibrate_onTarget onTarget writes
  exact le_deviationPpm small corrected inTable output

/-- An oscillator that is 10 ppm fast. -/
theorem not_reducesError_tenPpm : ¬ ReducesError .rpi4 10 :=
  not_reducesError .rpi4 (by norm_num)

theorem calibration_never_reduces_tenPpm :
    ¬ ReducesError .rpi4 10 ∧
      ∀ (testFreq : Int) measurements stored,
        centerFreqActual (testFreq + 3 / 2 * toneSpacing) toneSpacing Board.rpi4.plldClk =
          some (testFreq + 3 / 2 * toneSpacing) →
        calibrate .rpi4 10 testFreq measurements none = some stored →
        ∀ line center symNum out, CorrectedByFile .rpi4 (some stored) line center →
          symNum < 8 → symbolOutput .rpi4 10 (some stored) line center symNum = some out →
          |10| ≤ |deviationPpm out (toneFreq center toneSpacing symNum)| :=
  calibration_never_reduces .rpi4 10 (by norm_num)

end RtlsdrFt8d
