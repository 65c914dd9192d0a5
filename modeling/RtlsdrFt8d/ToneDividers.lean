import RtlsdrFt8d.FrequencySynthesis

/-!
# Dividers of the tones

`setupDMATab` is meant to make all eight tones with one integer part of the
divider.  Its guard looks at the first four of them only, and where it moves the
center, an integer divider falls between the fourth tone and the fifth.
-/

namespace RtlsdrFt8d

/-- The words of all tones agree from bit 12 on. -/
def SharesIntegerPart (word : Nat → Int) : Prop :=
  ∃ whole : Int, ∀ i < 16, word i / 4096 = whole

/-- After `setupDMATab` has chosen the center, one integer divider makes all
tones. -/
def OneIntegerDivider (center plld : Rat) : Prop :=
  ∃ actual, centerFreqActual center toneSpacing plld = some actual ∧
    SharesIntegerPart (tuningWord (actual - 3 / 2 * toneSpacing) toneSpacing plld)

variable {center plld : Rat} {whole : Int} {symNum : Nat}

/-- The assertions of `setupDMATab` compare the two words of each tone. -/
theorem SharesIntegerPart.pair {word : Nat → Int} (shares : SharesIntegerPart word)
    (inTable : symNum < 8) : word (2 * symNum) / 4096 = word (2 * symNum + 1) / 4096 := by
  obtain ⟨whole, same⟩ := shares
  rw [same (2 * symNum) (by omega), same (2 * symNum + 1) (by omega)]

/-- What the words of a table say about the dividers: all are at least the
integer part, and less than the next one by what the second word adds. -/
theorem sharesIntegerPart_iff (center plld : Rat) :
    SharesIntegerPart (tuningWord (center - 3 / 2 * toneSpacing) toneSpacing plld) ↔
      ∃ whole : Int, ∀ symNum < 8,
        whole * 4096 ≤ ⌊plld / toneFreq center toneSpacing symNum * 4096⌋ ∧
          ⌊plld / toneFreq center toneSpacing symNum * 4096⌋ < whole * 4096 + 4095 := by
  refine exists_congr fun whole => ⟨fun same symNum inTable => ?_, fun bounds i inTable => ?_⟩
  · have words := @tuningWord_pair plld center toneSpacing symNum inTable
    have even := same (2 * symNum) (by omega)
    have odd := same (2 * symNum + 1) (by omega)
    rw [words.1] at even
    rw [words.2] at odd
    omega
  · have words := @tuningWord_pair plld center toneSpacing (i / 2) (by omega)
    have tone := bounds (i / 2) (by omega)
    rcases Nat.mod_two_eq_zero_or_one i with even | odd
    · rw [show i = 2 * (i / 2) by omega, words.1]
      omega
    · rw [show i = 2 * (i / 2) + 1 by omega, words.2]
      omega

/-- A moved center puts an integer divider between two tones. -/
theorem not_sharesIntegerPart_moved (one_le : 1 ≤ whole)
    (far : whole * toneSpacing ≤ plld) :
    ¬ SharesIntegerPart (tuningWord
      (plld / whole - 8 / 5 * toneSpacing - 3 / 2 * toneSpacing) toneSpacing plld) := by
  rw [sharesIntegerPart_iff]
  rintro ⟨other, bounds⟩
  have fourth := (bounds 3 (by decide)).2
  have fifth := (bounds 4 (by decide)).1
  have spacingPos : (0 : Rat) < toneSpacing := by norm_num [toneSpacing]
  have wholePos : (0 : Rat) < whole := by exact_mod_cast (by omega : 0 < whole)
  have atLeast : toneSpacing ≤ plld / whole := by
    rw [le_div_iff₀ wholePos]
    linarith
  have fourthTone : toneFreq (plld / whole - 8 / 5 * toneSpacing) toneSpacing 3 =
      plld / whole - 1 / 10 * toneSpacing := by
    simp only [toneFreq]
    push_cast
    ring
  have fifthTone : toneFreq (plld / whole - 8 / 5 * toneSpacing) toneSpacing 4 =
      plld / whole + 9 / 10 * toneSpacing := by
    simp only [toneFreq]
    push_cast
    ring
  have product : (whole : Rat) * (plld / whole) = plld := mul_div_cancel₀ plld wholePos.ne'
  rw [fourthTone] at fourth
  rw [fifthTone] at fifth
  have aboveWhole : whole * 4096 ≤ ⌊plld / (plld / whole - 1 / 10 * toneSpacing) * 4096⌋ := by
    have divider : (whole : Rat) ≤ plld / (plld / whole - 1 / 10 * toneSpacing) := by
      rw [le_div_iff₀ (by linarith), mul_sub, product]
      have step : 0 < (whole : Rat) * (1 / 10 * toneSpacing) := by positivity
      linarith
    apply Int.le_floor.mpr
    push_cast
    linarith
  have belowWhole : ⌊plld / (plld / whole + 9 / 10 * toneSpacing) * 4096⌋ < whole * 4096 := by
    have divider : plld / (plld / whole + 9 / 10 * toneSpacing) < whole := by
      rw [div_lt_iff₀ (by linarith), mul_add, product]
      have step : 0 < (whole : Rat) * (9 / 10 * toneSpacing) := by positivity
      linarith
    apply Int.floor_lt.mpr
    push_cast
    linarith
  omega

/-- One integer divider makes all tones exactly when the dividers of the first
tone and of the last have the same integer part, with room for the second word
of the first. -/
theorem oneIntegerDivider_iff (plldPos : 0 < plld) (aboveMegahertz : 1000000 < center) :
    OneIntegerDivider center plld ↔
      ∃ whole : Int, whole * (center + 11 / 2 * toneSpacing) ≤ plld ∧
        plld < (whole + 1 - 1 / 4096) * (center - 3 / 2 * toneSpacing) := by
  have spacingPos : (0 : Rat) < toneSpacing := by norm_num [toneSpacing]
  have firstPos : 900000 < center - 3 / 2 * toneSpacing := by
    norm_num [toneSpacing]
    linarith
  constructor
  · rintro ⟨actual, centerEq, shares⟩
    rcases centerFreqActual_cases plldPos (by linarith) centerEq with
      rfl | ⟨whole, one_le, atMost, rfl⟩
    · obtain ⟨whole, bounds⟩ := (sharesIntegerPart_iff actual plld).mp shares
      have first := (bounds 0 (by decide)).2
      have last := (bounds 7 (by decide)).1
      have firstTone : toneFreq actual toneSpacing 0 = actual - 3 / 2 * toneSpacing := by
        simp [toneFreq]
      have lastTone : toneFreq actual toneSpacing 7 = actual + 11 / 2 * toneSpacing := by
        simp only [toneFreq]
        push_cast
        ring
      rw [firstTone, Int.floor_lt] at first
      rw [lastTone, Int.le_floor] at last
      push_cast at first last
      refine ⟨whole, ?_, ?_⟩
      · rw [← le_div_iff₀ (by linarith)]
        linarith
      · rw [← div_lt_iff₀ (by linarith)]
        linarith
    · exfalso
      refine not_sharesIntegerPart_moved one_le ?_ shares
      have oneRat : (1 : Rat) ≤ whole := by exact_mod_cast one_le
      have spacingSmall : toneSpacing < 10 := by norm_num [toneSpacing]
      have near : (whole - 1 / 4096) * (center - 3 / 2 * toneSpacing) ≤ plld := by
        rw [← le_div_iff₀ (by linarith)]
        linarith
      calc (whole : Rat) * toneSpacing
          ≤ whole * 10 := mul_le_mul_of_nonneg_left spacingSmall.le (by linarith)
        _ ≤ (whole - 1 / 4096) * 900000 := by linarith
        _ ≤ (whole - 1 / 4096) * (center - 3 / 2 * toneSpacing) :=
            mul_le_mul_of_nonneg_left firstPos.le (by linarith)
        _ ≤ plld := near
  · rintro ⟨whole, lower, upper⟩
    have nonneg : 0 ≤ whole := by
      by_contra negative
      have atMost : (whole : Rat) ≤ -1 := by exact_mod_cast (by omega : whole ≤ -1)
      nlinarith
    have bounds {symNum : Nat} (inTable : symNum < 8) :=
      floor_toneFreq_bounds (by linarith) nonneg lower upper inTable
    refine ⟨center, centerFreqActual_eq_of_floor_bounds (bounds (by decide)) (bounds (by decide)),
      ?_⟩
    exact (sharesIntegerPart_iff center plld).mpr ⟨whole, fun symNum inTable => bounds inTable⟩

/-- In the middle of the 20 m band the dividers are a little above 35. -/
theorem oneIntegerDivider_fourteenMegahertz : OneIntegerDivider 14075000 500000000 :=
  (oneIntegerDivider_iff (by norm_num) (by norm_num)).mpr
    ⟨35, by norm_num [toneSpacing], by norm_num [toneSpacing]⟩

/-- The last tones around 14285690 Hz lie beyond a 35th of the clock, where the
guard does not look, and the assertion on the eighth tone fails. -/
theorem not_oneIntegerDivider_guardPassed :
    tuningWord (14285690 - 3 / 2 * toneSpacing) toneSpacing 500000000 14 / 4096 ≠
        tuningWord (14285690 - 3 / 2 * toneSpacing) toneSpacing 500000000 15 / 4096 ∧
      ¬ OneIntegerDivider 14285690 500000000 := by
  have guardPassed : centerFreqActual 14285690 toneSpacing 500000000 = some 14285690 := by
    decide +kernel
  have differ : tuningWord (14285690 - 3 / 2 * toneSpacing) toneSpacing 500000000 14 / 4096 ≠
      tuningWord (14285690 - 3 / 2 * toneSpacing) toneSpacing 500000000 15 / 4096 := by
    decide +kernel
  refine ⟨differ, ?_⟩
  rintro ⟨actual, centerEq, shares⟩
  obtain rfl : (14285690 : Rat) = actual := Option.some.inj (guardPassed.symm.trans centerEq)
  exact differ (shares.pair (show 7 < 8 by decide))

end RtlsdrFt8d
