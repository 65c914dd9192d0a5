import Mathlib.Tactic.FieldSimp
import Mathlib.Tactic.Linarith
import Mathlib.Tactic.NormNum
import Mathlib.Tactic.Positivity
import RtlsdrFt8d.Dithering
import RtlsdrFt8d.TransmitterDaemon

/-!
# Frequency synthesis

`setupDMATab` and `txSym` of `ft8.cpp`, in exact arithmetic.  A divider with
twelve fractional bits makes each tone from the PLLD clock: the output switches
between the two settings next to the tone, so that the tone is its mean.  The
settings are computed for an assumed clock and applied to the true one.
-/

namespace RtlsdrFt8d

open CNumerals (Double)

/-! ## The divider -/

/-- `bit_trunc`. -/
def bitTrunc (d : Rat) (lsb : Int) : Rat :=
  ⌊d / 2 ^ lsb⌋ * 2 ^ lsb

/-- `1.0 / FT8_SYMTIME`. -/
def toneSpacing : Rat := 1 / (1920 / 12000)

/-- `center_freq_actual`: moved where the first four tones do not share the
integer part of their dividers.  `none` stands for a division by zero. -/
def centerFreqActual (centerFreqDesired toneSpacing plldActualFreq : Rat) : Option Rat :=
  let divLo :=
    bitTrunc (plldActualFreq / (centerFreqDesired - 3 / 2 * toneSpacing)) (-12) + 2 ^ (-12 : Int)
  let divHi := bitTrunc (plldActualFreq / (centerFreqDesired + 3 / 2 * toneSpacing)) (-12)
  if ⌊divLo⌋ ≠ ⌊divHi⌋ then
    if ⌊divLo⌋ = 0 then none else some (plldActualFreq / ⌊divLo⌋ - 8 / 5 * toneSpacing)
  else some centerFreqDesired

/-- The tuning words: two for each of the eight tones, the rest unused. -/
def tuningWord (tone0Freq toneSpacing plldActualFreq : Rat) (i : Nat) : Int :=
  if i < 16 then
    let toneFreq := tone0Freq + (i / 2 : Nat) * toneSpacing
    let div := bitTrunc (plldActualFreq / toneFreq) (-12)
    ⌊(if i % 2 = 0 then div + 2 ^ (-12 : Int) else div) * 2 ^ 12⌋
  else (500 + i) * 2 ^ 12

/-- What `setupDMATab` programs. -/
structure DmaTab where
  centerFreqActual : Rat
  tuningWord : Nat → Int

/-- The assertion on the table: the two settings of a tone share their integer
part.  A zero word is no setting of the divider. -/
def SettingsPair (word : Nat → Int) : Prop :=
  ∀ i ∈ List.range 8, word (2 * i) / 4096 = word (2 * i + 1) / 4096 ∧
    word (2 * i) ≠ 0 ∧ word (2 * i + 1) ≠ 0

instance (word : Nat → Int) : Decidable (SettingsPair word) :=
  List.decidableBAll _ (List.range 8)

/-- `none` where the assertion fails. -/
def setupDMATab (centerFreqDesired toneSpacing plldActualFreq : Rat) : Option DmaTab :=
  (centerFreqActual centerFreqDesired toneSpacing plldActualFreq).bind fun center =>
    let word := tuningWord (center - 3 / 2 * toneSpacing) toneSpacing plldActualFreq
    if SettingsPair word then some { centerFreqActual := center, tuningWord := word } else none

/-- The frequency of a setting: `dma_table_freq` at the assumed clock, and what
the divider puts out at the true one. -/
def DmaTab.freq (table : DmaTab) (clock : Rat) (i : Nat) : Rat :=
  clock / (table.tuningWord i / 2 ^ 12)

/-! ## Symbols -/

/-- `tone_freq` of a symbol. -/
def toneFreq (center toneSpacing : Rat) (symNum : Nat) : Rat :=
  center - 3 / 2 * toneSpacing + symNum * toneSpacing

/-- `f0_ratio`, where the assertions of `txSym` hold. -/
def DmaTab.f0Ratio (table : DmaTab) (toneSpacing plldActualFreq : Rat) (symNum : Nat) :
    Option Rat :=
  let f0 := table.freq plldActualFreq (2 * symNum)
  let f1 := table.freq plldActualFreq (2 * symNum + 1)
  let tone := toneFreq table.centerFreqActual toneSpacing symNum
  if f0 ≤ tone ∧ tone ≤ f1 ∧ f0 ≠ f1 then some (1 - (tone - f0) / (f1 - f0)) else none

/-- `n_pwmclk` of an iteration: a random number of clocks around 1000. -/
def pwmClocks (draw : RandomDraw) : Int :=
  1000 + llround (.finite ((draw.value - 1 / 2) * 1000))

/-- One iteration of the loop of `txSym`, cut off at the end of the symbol. -/
def txSymStep (f0Ratio : Rat) (perSym : Int) (progress : Dithering.Progress)
    (draw : RandomDraw) : Dithering.Progress :=
  if progress.total < perSym then
    Dithering.step (fun x => llround (.finite x)) f0Ratio progress
      (if perSym < progress.total + pwmClocks draw then perSym - progress.total
        else pwmClocks draw)
  else progress

/-- The clocks of a symbol, and those given to the first setting. -/
def txSym (f0Ratio : Rat) (perSym : Int) (draws : List RandomDraw) : Dithering.Progress :=
  EventRuns.run (txSymStep f0Ratio perSym) Dithering.start draws

/-- The mean frequency that `txSym` approaches for a symbol, at the true clock,
where the table is made for an assumed one. -/
def averageOutput (clock plldActualFreq centerFreqDesired : Rat) (symNum : Nat) : Option Rat :=
  (setupDMATab centerFreqDesired toneSpacing plldActualFreq).bind fun table =>
    (table.f0Ratio toneSpacing plldActualFreq symNum).map fun f0Ratio =>
      Dithering.target f0Ratio (table.freq clock (2 * symNum)) (table.freq clock (2 * symNum + 1))

/-! ## The loop of a symbol -/

theorem abs_llround_sub_le (x : Rat) : |(llround (.finite x) : Rat) - x| ≤ 1 / 2 := by
  change |((if 0 ≤ x then ⌊x + 1 / 2⌋ else -⌊-x + 1 / 2⌋ : Int) : Rat) - x| ≤ 1 / 2
  rw [abs_le]
  split_ifs with nonneg
  · have lower := Int.floor_le (x + 1 / 2)
    have upper := Int.lt_floor_add_one (x + 1 / 2)
    constructor <;> linarith
  · have lower := Int.floor_le (-x + 1 / 2)
    have upper := Int.lt_floor_add_one (-x + 1 / 2)
    push_cast
    constructor <;> linarith

theorem pwmClocks_bounds (draw : RandomDraw) : 500 ≤ pwmClocks draw ∧ pwmClocks draw ≤ 1500 := by
  have nonneg := draw.nonneg
  have lt_one := draw.lt_one
  have bound := abs_le.mp (abs_llround_sub_le ((draw.value - 1 / 2) * 1000))
  have lower : (-501 : Rat) < llround (.finite ((draw.value - 1 / 2) * 1000)) := by
    linarith [bound.1]
  have upper : (llround (.finite ((draw.value - 1 / 2) * 1000)) : Rat) < 501 := by
    linarith [bound.2]
  have lowerInt : (-501 : Int) < llround (.finite ((draw.value - 1 / 2) * 1000)) := by
    exact_mod_cast lower
  have upperInt : llround (.finite ((draw.value - 1 / 2) * 1000)) < 501 := by
    exact_mod_cast upper
  unfold pwmClocks
  omega

variable (f0Ratio : Rat)

theorem onSchedule_txSym (perSym : Int) (draws : List RandomDraw) :
    Dithering.OnSchedule (fun x => llround (.finite x)) f0Ratio
      (txSym f0Ratio perSym draws) := by
  apply EventRuns.run_induction
  · exact Dithering.onSchedule_start _ _ abs_llround_sub_le
  · intro progress draw onSchedule
    unfold txSymStep
    split
    · exact Dithering.onSchedule_step _
    · exact onSchedule

theorem total_txSymStep (perSym : Int) (draw : RandomDraw) (progress : Dithering.Progress) :
    (txSymStep f0Ratio perSym progress draw).total =
      if progress.total < perSym then min perSym (progress.total + pwmClocks draw)
      else progress.total := by
  unfold txSymStep
  split
  · simp only [Dithering.step]
    split <;> omega
  · rfl

/-- Every iteration makes progress, and the loop stops at the end of the
symbol. -/
theorem total_txSym_bounds {perSym : Int} (nonneg : 0 ≤ perSym) (draws : List RandomDraw) :
    min perSym (500 * draws.length) ≤ (txSym f0Ratio perSym draws).total ∧
      (txSym f0Ratio perSym draws).total ≤ perSym := by
  induction draws using List.reverseRecOn with
  | nil =>
      simp only [txSym, EventRuns.run_nil, Dithering.start, List.length_nil]
      omega
  | append_singleton draws draw ih =>
      have clocks := pwmClocks_bounds draw
      unfold txSym at ih ⊢
      rw [EventRuns.run_append, EventRuns.run_cons, EventRuns.run_nil, total_txSymStep,
        List.length_append, List.length_singleton]
      push_cast
      split <;> omega

/-- The mean frequency of a complete symbol. -/
theorem abs_mean_txSym_sub_le {perSym : Int} (positive : 0 < perSym) (draws : List RandomDraw)
    (enough : perSym ≤ 500 * draws.length) (first second : Rat) :
    |Dithering.mean first second (txSym f0Ratio perSym draws) -
        Dithering.target f0Ratio first second| ≤ |first - second| / (2 * perSym) := by
  have bounds := total_txSym_bounds f0Ratio positive.le draws
  have complete : (txSym f0Ratio perSym draws).total = perSym := by omega
  have onSchedule := onSchedule_txSym f0Ratio perSym draws
  have close := Dithering.abs_mean_sub_target_le abs_llround_sub_le onSchedule (by omega)
    first second
  rwa [complete] at close

/-! ## What a table puts out -/

variable {clock plld center spacing : Rat} {symNum : Nat}

theorem bitTrunc_neg_twelve (d : Rat) : bitTrunc d (-12) = ⌊d * 4096⌋ / 4096 := by
  have power : (2 : Rat) ^ (-12 : Int) = 1 / 4096 := by norm_num
  rw [bitTrunc, power, div_div_eq_mul_div, div_one, mul_one_div]

/-- The two words of a tone are neighbours. -/
theorem tuningWord_pair (inTable : symNum < 8) :
    tuningWord (center - 3 / 2 * spacing) spacing plld (2 * symNum) =
        ⌊plld / toneFreq center spacing symNum * 4096⌋ + 1 ∧
      tuningWord (center - 3 / 2 * spacing) spacing plld (2 * symNum + 1) =
        ⌊plld / toneFreq center spacing symNum * 4096⌋ := by
  have half : 2 * symNum / 2 = symNum := by omega
  have halfOdd : (2 * symNum + 1) / 2 = symNum := by omega
  have even : 2 * symNum % 2 = 0 := by omega
  have odd : (2 * symNum + 1) % 2 ≠ 0 := by omega
  have whole (word : Int) : (word : Rat) / 4096 * 2 ^ 12 = word := by
    norm_num
  have next (word : Int) :
      ((word : Rat) / 4096 + 2 ^ (-12 : Int)) * 2 ^ 12 = (word + 1 : Int) := by
    push_cast
    norm_num
    ring
  constructor
  · rw [tuningWord, if_pos (by omega)]
    simp only [half, if_pos even]
    rw [bitTrunc_neg_twelve, next, Int.floor_intCast]
    rfl
  · rw [tuningWord, if_pos (by omega)]
    simp only [halfOdd, if_neg odd]
    rw [bitTrunc_neg_twelve, whole, Int.floor_intCast]
    rfl

/-- Neighbouring settings are in the order of their frequencies only under a
positive clock. -/
theorem pos_of_settings {word : Int} (word_ne : word ≠ 0) (next_ne : word + 1 ≠ 0)
    (ordered : plld / ((word + 1 : Int) / 2 ^ 12) < plld / (word / 2 ^ 12)) : 0 < plld := by
  have wordRat : (word : Rat) ≠ 0 := by exact_mod_cast word_ne
  have nextRat : (word : Rat) + 1 ≠ 0 := by exact_mod_cast next_ne
  have sameSign : 0 < word * (word + 1) := by
    rcases lt_or_gt_of_ne word_ne with negative | positive
    · exact mul_pos_of_neg_of_neg negative (by omega)
    · exact mul_pos positive (by omega)
  have product : (0 : Rat) < word * (word + 1) := by exact_mod_cast sameSign
  have gap : plld / (word / 2 ^ 12) - plld / ((word + 1 : Int) / 2 ^ 12) =
      plld * 2 ^ 12 / (word * (word + 1)) := by
    push_cast
    field_simp
    ring
  have positive : 0 < plld * 2 ^ 12 / (word * (word + 1)) := by
    rw [← gap]
    linarith
  have numerator := (div_pos_iff_of_pos_right product).mp positive
  linarith

/-! ## The settings around a tone -/

section Settings

variable {tone : Rat} {word : Int}

theorem freq_succ_le (positive : 0 < tone) (nonneg : 0 ≤ word)
    (above : plld / tone * 4096 < word + 1) :
    plld / (((word + 1 : Int) : Rat) / 2 ^ 12) ≤ tone := by
  have wordNonneg : (0 : Rat) ≤ word := by exact_mod_cast nonneg
  push_cast
  rw [div_mul_eq_mul_div, div_lt_iff₀ positive] at above
  rw [div_le_iff₀ (by positivity)]
  linarith

theorem le_freq (positive : 0 < tone) (wordPos : 0 < word) (below : word ≤ plld / tone * 4096) :
    tone ≤ plld / ((word : Rat) / 2 ^ 12) := by
  have wordRat : (0 : Rat) < word := by exact_mod_cast wordPos
  rw [div_mul_eq_mul_div, le_div_iff₀ positive] at below
  rw [le_div_iff₀ (by positivity)]
  linarith

theorem freq_succ_lt (plldPos : 0 < plld) (wordPos : 0 < word) :
    plld / (((word + 1 : Int) : Rat) / 2 ^ 12) < plld / ((word : Rat) / 2 ^ 12) := by
  have wordRat : (0 : Rat) < word := by exact_mod_cast wordPos
  push_cast
  apply div_lt_div_of_pos_left plldPos (by positivity)
  linarith

end Settings

/-- The center is kept, or moved next to a whole divider below the one of the
first tone. -/
theorem centerFreqActual_cases {actual : Rat} (plldPos : 0 < plld)
    (tonePos : 0 < center - 3 / 2 * spacing)
    (centerEq : centerFreqActual center spacing plld = some actual) :
    actual = center ∨
      ∃ whole : Int, 1 ≤ whole ∧ (whole : Rat) ≤ plld / (center - 3 / 2 * spacing) + 1 / 4096 ∧
        actual = plld / whole - 8 / 5 * spacing := by
  have power : (2 : Rat) ^ (-12 : Int) = 1 / 4096 := by norm_num
  simp only [centerFreqActual, bitTrunc_neg_twelve, power] at centerEq
  split_ifs at centerEq with differ zero
  · right
    obtain rfl := Option.some.inj centerEq
    refine ⟨_, ?_, ?_, rfl⟩
    · have nonneg : 0 ≤ ⌊plld / (center - 3 / 2 * spacing) * 4096⌋ :=
        Int.floor_nonneg.mpr (by positivity)
      have divLo : 0 ≤ ⌊(⌊plld / (center - 3 / 2 * spacing) * 4096⌋ : Rat) / 4096 + 1 / 4096⌋ :=
        Int.floor_nonneg.mpr (by positivity)
      omega
    · have outer := Int.floor_le ((⌊plld / (center - 3 / 2 * spacing) * 4096⌋ : Rat) / 4096 +
        1 / 4096)
      have inner := Int.floor_le (plld / (center - 3 / 2 * spacing) * 4096)
      linarith
  · exact Or.inl (Option.some.inj centerEq).symm

/-- The mean output is the tone, off by the ratio of the true clock to the
assumed one. -/
theorem averageOutput_eq_some {out : Rat} (inTable : symNum < 8)
    (output : averageOutput clock plld center symNum = some out) :
    0 < plld ∧ ∃ actual, centerFreqActual center toneSpacing plld = some actual ∧
      toneFreq actual toneSpacing symNum ≠ 0 ∧
      out = toneFreq actual toneSpacing symNum * clock / plld := by
  obtain ⟨table, programmed, symbol⟩ := Option.bind_eq_some_iff.mp output
  obtain ⟨ratio, ratioEq, rfl⟩ := Option.map_eq_some_iff.mp symbol
  obtain ⟨actual, centerEq, tableEq⟩ := Option.bind_eq_some_iff.mp programmed
  simp only [Option.ite_none_right_eq_some, Option.some.injEq] at tableEq
  obtain ⟨paired, rfl⟩ := tableEq
  obtain ⟨-, even_ne, odd_ne⟩ := paired symNum (List.mem_range.mpr inTable)
  have words := @tuningWord_pair plld actual toneSpacing symNum inTable
  rw [words.1] at even_ne
  rw [words.2] at odd_ne
  have tone_ne : toneFreq actual toneSpacing symNum ≠ 0 := by
    intro zero
    simp [zero] at odd_ne
  generalize ⌊plld / toneFreq actual toneSpacing symNum * 4096⌋ = word at words even_ne odd_ne
  simp only [DmaTab.f0Ratio, DmaTab.freq, words.1, words.2, Option.ite_none_right_eq_some,
    Option.some.injEq] at ratioEq
  obtain ⟨⟨atLeast, atMost, apart⟩, rfl⟩ := ratioEq
  have ordered := lt_of_le_of_ne (atLeast.trans atMost) apart
  have positive := pos_of_settings odd_ne even_ne ordered
  refine ⟨positive, actual, centerEq, tone_ne, ?_⟩
  simp only [DmaTab.freq, words.1, words.2, Dithering.target]
  have scaled (setting : Rat) : clock / setting = plld / setting * (clock / plld) := by
    field_simp
  have spread := sub_ne_zero.mpr ordered.ne'
  rw [scaled ((word + 1 : Int) / 2 ^ 12), scaled (word / 2 ^ 12)]
  generalize plld / (((word + 1 : Int) : Rat) / 2 ^ 12) = f0 at *
  generalize plld / ((word : Rat) / 2 ^ 12) = f1 at *
  field_simp
  ring

/-! ## Frequencies that the table reaches -/

/-- The dividers of all eight tones share their integer part, with room for the
second setting. -/
structure SharesInteger (center plld : Rat) (whole : Int) : Prop where
  one_le : 1 ≤ whole
  tone_pos : 0 < center - 3 / 2 * toneSpacing
  lower : whole * (center + 11 / 2 * toneSpacing) ≤ plld
  upper : plld < (whole + 1 - 1 / 4096) * (center - 3 / 2 * toneSpacing)

theorem toneFreq_bounds (center : Rat) (inTable : symNum < 8) :
    center - 3 / 2 * toneSpacing ≤ toneFreq center toneSpacing symNum ∧
      toneFreq center toneSpacing symNum ≤ center + 11 / 2 * toneSpacing := by
  have nonneg : (0 : Rat) ≤ symNum := by positivity
  have small : (symNum : Rat) ≤ 7 := by exact_mod_cast (by omega : symNum ≤ 7)
  simp only [toneFreq, toneSpacing]
  constructor <;> linarith

variable {whole : Int}

theorem SharesInteger.toneFreq_pos (shares : SharesInteger center plld whole)
    (inTable : symNum < 8) : 0 < toneFreq center toneSpacing symNum := by
  have bounds := toneFreq_bounds center inTable
  linarith [shares.tone_pos]

/-- The word below a tone, and the room above it. -/
theorem floor_toneFreq_bounds (tonePos : 0 < center - 3 / 2 * toneSpacing) (nonneg : 0 ≤ whole)
    (lower : whole * (center + 11 / 2 * toneSpacing) ≤ plld)
    (upper : plld < (whole + 1 - 1 / 4096) * (center - 3 / 2 * toneSpacing))
    (inTable : symNum < 8) :
    whole * 4096 ≤ ⌊plld / toneFreq center toneSpacing symNum * 4096⌋ ∧
      ⌊plld / toneFreq center toneSpacing symNum * 4096⌋ < whole * 4096 + 4095 := by
  have bounds := toneFreq_bounds center inTable
  have positive : 0 < toneFreq center toneSpacing symNum := by linarith
  have wholeNonneg : (0 : Rat) ≤ whole := by exact_mod_cast nonneg
  constructor
  · apply Int.le_floor.mpr
    push_cast
    have wholeLe : (whole : Rat) ≤ plld / toneFreq center toneSpacing symNum := by
      rw [le_div_iff₀ positive]
      calc (whole : Rat) * toneFreq center toneSpacing symNum
          ≤ whole * (center + 11 / 2 * toneSpacing) := by
            exact mul_le_mul_of_nonneg_left bounds.2 wholeNonneg
        _ ≤ plld := lower
    linarith
  · apply Int.floor_lt.mpr
    push_cast
    have ltWhole : plld / toneFreq center toneSpacing symNum < whole + 1 - 1 / 4096 := by
      rw [div_lt_iff₀ positive]
      calc plld < (whole + 1 - 1 / 4096) * (center - 3 / 2 * toneSpacing) := upper
        _ ≤ (whole + 1 - 1 / 4096) * toneFreq center toneSpacing symNum := by
            exact mul_le_mul_of_nonneg_left bounds.1 (by linarith)
    linarith

theorem SharesInteger.floor_bounds (shares : SharesInteger center plld whole)
    (inTable : symNum < 8) :
    whole * 4096 ≤ ⌊plld / toneFreq center toneSpacing symNum * 4096⌋ ∧
      ⌊plld / toneFreq center toneSpacing symNum * 4096⌋ < whole * 4096 + 4095 :=
  floor_toneFreq_bounds shares.tone_pos (by linarith [shares.one_le]) shares.lower shares.upper
    inTable

theorem floor_div_4096 (whole : Int) {word : Int} (lower : whole * 4096 ≤ word)
    (upper : word < whole * 4096 + 4096) : ⌊(word : Rat) / 4096⌋ = whole := by
  have lowerRat : (whole : Rat) * 4096 ≤ word := by exact_mod_cast lower
  have upperRat : (word : Rat) < whole * 4096 + 4096 := by exact_mod_cast upper
  rw [Int.floor_eq_iff, le_div_iff₀ (by norm_num), div_lt_iff₀ (by norm_num)]
  constructor <;> linarith

/-- The two dividers that decide whether the center is moved belong to the first
tone and to the fourth. -/
theorem centerFreqActual_eq_of_floor_bounds
    (first : whole * 4096 ≤ ⌊plld / toneFreq center toneSpacing 0 * 4096⌋ ∧
      ⌊plld / toneFreq center toneSpacing 0 * 4096⌋ < whole * 4096 + 4095)
    (fourth : whole * 4096 ≤ ⌊plld / toneFreq center toneSpacing 3 * 4096⌋ ∧
      ⌊plld / toneFreq center toneSpacing 3 * 4096⌋ < whole * 4096 + 4095) :
    centerFreqActual center toneSpacing plld = some center := by
  have firstTone : toneFreq center toneSpacing 0 = center - 3 / 2 * toneSpacing := by
    simp [toneFreq]
  have fourthTone : toneFreq center toneSpacing 3 = center + 3 / 2 * toneSpacing := by
    simp only [toneFreq]
    push_cast
    ring
  rw [firstTone] at first
  rw [fourthTone] at fourth
  have next (word : Int) :
      (word : Rat) / 4096 + 2 ^ (-12 : Int) = ((word + 1 : Int) : Rat) / 4096 := by
    push_cast
    norm_num
    ring
  simp only [centerFreqActual, bitTrunc_neg_twelve, next]
  rw [floor_div_4096 whole (by omega) (by omega),
    floor_div_4096 whole (by omega) (by omega), if_neg (by simp)]

theorem SharesInteger.centerFreqActual_eq (shares : SharesInteger center plld whole) :
    centerFreqActual center toneSpacing plld = some center :=
  centerFreqActual_eq_of_floor_bounds (shares.floor_bounds (by decide))
    (shares.floor_bounds (by decide))

/-- Where the tones share the integer part, every symbol is put out at the
asked center. -/
theorem SharesInteger.averageOutput_eq (shares : SharesInteger center plld whole)
    (clock : Rat) (inTable : symNum < 8) :
    averageOutput clock plld center symNum =
      some (toneFreq center toneSpacing symNum * clock / plld) := by
  have one_le := shares.one_le
  have paired : SettingsPair
      (tuningWord (center - 3 / 2 * toneSpacing) toneSpacing plld) := by
    intro i iMem
    have iInTable := List.mem_range.mp iMem
    have words := @tuningWord_pair plld center toneSpacing i iInTable
    have bounds := shares.floor_bounds iInTable
    rw [words.1, words.2]
    omega
  have words := @tuningWord_pair plld center toneSpacing symNum inTable
  have bounds := shares.floor_bounds inTable
  have positive := shares.toneFreq_pos inTable
  have plldPos : 0 < plld := by
    have wholePos : (0 : Rat) < whole := by exact_mod_cast (by omega : 0 < whole)
    have lower := shares.lower
    have tonePos := shares.tone_pos
    have spacingPos : (0 : Rat) < toneSpacing := by norm_num [toneSpacing]
    have product : 0 < whole * (center + 11 / 2 * toneSpacing) :=
      mul_pos wholePos (by linarith)
    linarith
  have programmed : setupDMATab center toneSpacing plld =
      some { centerFreqActual := center,
             tuningWord := tuningWord (center - 3 / 2 * toneSpacing) toneSpacing plld } := by
    rw [setupDMATab, shares.centerFreqActual_eq, Option.bind_some]
    exact if_pos paired
  have below := Int.floor_le (plld / toneFreq center toneSpacing symNum * 4096)
  have above := Int.lt_floor_add_one (plld / toneFreq center toneSpacing symNum * 4096)
  generalize ⌊plld / toneFreq center toneSpacing symNum * 4096⌋ = word
    at words bounds below above
  have wordPos : 0 < word := by omega
  have atLeast := freq_succ_le positive wordPos.le above
  have atMost := le_freq positive wordPos below
  have apart := (freq_succ_lt plldPos wordPos).ne
  have someOutput : ∃ out, averageOutput clock plld center symNum = some out := by
    unfold averageOutput
    rw [programmed, Option.bind_some]
    simp only [DmaTab.f0Ratio, DmaTab.freq, words.1, words.2]
    rw [if_pos ⟨atLeast, atMost, apart⟩]
    exact ⟨_, rfl⟩
  obtain ⟨out, output⟩ := someOutput
  obtain ⟨-, actual, centerEq, -, rfl⟩ := averageOutput_eq_some inTable output
  rw [shares.centerFreqActual_eq] at centerEq
  obtain rfl := Option.some.inj centerEq
  exact output

end RtlsdrFt8d
