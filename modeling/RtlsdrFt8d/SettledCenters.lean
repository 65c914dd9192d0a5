import RtlsdrFt8d.FrequencySynthesis

/-!
# Centers of transmissions

`setupDMATab` moves the asked center where a whole divider falls between the first
and the fourth tone, and its assertion ends the program where the two settings of a
tone do not share their integer part.  The words go into a register whose top byte
is a password.  This file says on which center a transmission settles.
-/

namespace RtlsdrFt8d

variable {plld desired center : Rat}

/-- The words are dividers beside the password `0x5a` of the register. -/
def DmaTab.FitsRegister (table : DmaTab) : Prop :=
  ∀ i < 16, 0 < table.tuningWord i ∧ table.tuningWord i < 2 ^ 24

/-- The divider of a tone with twelve fractional bits, rounded down. -/
def dividerBelow (plld center : Rat) (symNum : Nat) : Int :=
  ⌊plld / toneFreq center toneSpacing symNum * 4096⌋

/-- Every tone lies between two settings that share their integer part and fit in
the register. -/
def HasSettings (plld center : Rat) : Prop :=
  ∀ symNum < 8, 0 < dividerBelow plld center symNum ∧
    dividerBelow plld center symNum + 1 < 2 ^ 24 ∧ dividerBelow plld center symNum % 4096 ≠ 4095

/-- The center that `setupDMATab` chooses for an asked one is this, and its table
holds settings for all tones. -/
def SettlesOn (plld desired center : Rat) : Prop :=
  centerFreqActual desired toneSpacing plld = some center ∧ HasSettings plld center

/-- The table of a center is accepted, and its words fit, exactly where the center
has settings. -/
theorem hasSettings_iff (plld center : Rat) :
    HasSettings plld center ↔
      SettingsPair (tuningWord (center - 3 / 2 * toneSpacing) toneSpacing plld) ∧
        ∀ i < 16, 0 < tuningWord (center - 3 / 2 * toneSpacing) toneSpacing plld i ∧
          tuningWord (center - 3 / 2 * toneSpacing) toneSpacing plld i < 2 ^ 24 := by
  have words {symNum : Nat} (inTable : symNum < 8) :
      tuningWord (center - 3 / 2 * toneSpacing) toneSpacing plld (2 * symNum) =
          dividerBelow plld center symNum + 1 ∧
        tuningWord (center - 3 / 2 * toneSpacing) toneSpacing plld (2 * symNum + 1) =
          dividerBelow plld center symNum :=
    tuningWord_pair inTable
  constructor
  · intro settings
    refine ⟨fun symNum symNumMem => ?_, fun i inTable => ?_⟩
    · have inTable := List.mem_range.mp symNumMem
      have here := settings symNum inTable
      rw [(words inTable).1, (words inTable).2]
      omega
    · have here := settings (i / 2) (by omega)
      rcases Nat.mod_two_eq_zero_or_one i with even | odd
      · rw [show i = 2 * (i / 2) by omega, (words (by omega)).1]
        omega
      · rw [show i = 2 * (i / 2) + 1 by omega, (words (by omega)).2]
        omega
  · rintro ⟨paired, fits⟩ symNum inTable
    obtain ⟨same, -, -⟩ := paired symNum (List.mem_range.mpr inTable)
    have even := fits (2 * symNum) (by omega)
    have odd := fits (2 * symNum + 1) (by omega)
    rw [(words inTable).1] at even same
    rw [(words inTable).2] at odd same
    omega

theorem settlesOn_iff (plld desired center : Rat) :
    SettlesOn plld desired center ↔
      ∃ table, setupDMATab desired toneSpacing plld = some table ∧ table.FitsRegister ∧
        table.centerFreqActual = center := by
  unfold SettlesOn setupDMATab
  rw [hasSettings_iff]
  constructor
  · rintro ⟨centerEq, paired, fits⟩
    exact ⟨⟨center, tuningWord (center - 3 / 2 * toneSpacing) toneSpacing plld⟩,
      by rw [centerEq, Option.bind_some]; exact if_pos paired, fits, rfl⟩
  · rintro ⟨table, programmed, fits, rfl⟩
    obtain ⟨actual, centerEq, tableEq⟩ := Option.bind_eq_some_iff.mp programmed
    simp only [Option.ite_none_right_eq_some, Option.some.injEq] at tableEq
    obtain ⟨paired, rfl⟩ := tableEq
    exact ⟨centerEq, paired, fits⟩

/-! ## Centers with settings -/

theorem HasSettings.quotient_pos (settings : HasSettings plld center) {symNum : Nat}
    (inTable : symNum < 8) : 0 < plld / toneFreq center toneSpacing symNum := by
  have least := Int.le_floor.mp (show (1 : Int) ≤ _ from (settings symNum inTable).1)
  push_cast at least
  linarith

/-- A center with settings lies above the offset of the lowest tone, under a
positive clock. -/
theorem HasSettings.plld_pos (settings : HasSettings plld center) (nonneg : 0 ≤ center) :
    0 < plld ∧ 0 < toneFreq center toneSpacing 0 := by
  have lastPos : 0 < toneFreq center toneSpacing 7 := by
    simp only [toneFreq, toneSpacing]
    push_cast
    linarith
  have plldPos : 0 < plld :=
    (div_pos_iff_of_pos_right lastPos).mp (settings.quotient_pos (by decide))
  exact ⟨plldPos, (div_pos_iff_of_pos_left plldPos).mp (settings.quotient_pos (by decide))⟩

theorem HasSettings.ne_zero (settings : HasSettings plld center) : center ≠ 0 := by
  rintro rfl
  have tonePos := (settings.plld_pos le_rfl).2
  norm_num [toneFreq, toneSpacing] at tonePos

/-! ## Kept and moved centers -/

/-- The integer part of the divider of the first tone, as the guard takes it. -/
def wholeDivider (plld desired : Rat) : Int :=
  ⌊(dividerBelow plld desired 0 : Rat) / 4096 + 1 / 4096⌋

/-- Where the guard moves the center to. -/
def movedCenter (plld desired : Rat) : Rat :=
  plld / wholeDivider plld desired - 8 / 5 * toneSpacing

/-- The first tone and the fourth have dividers with the same integer part, and all
tones have settings. -/
structure KeepsCenter (plld center : Rat) : Prop where
  sameInteger : ⌊plld / toneFreq center toneSpacing 0⌋ = ⌊plld / toneFreq center toneSpacing 3⌋
  settings : HasSettings plld center

/-- The integer parts differ, and all tones have settings around the new center. -/
structure MovesCenter (plld desired : Rat) : Prop where
  otherInteger : wholeDivider plld desired ≠ ⌊plld / toneFreq desired toneSpacing 3⌋
  nonzero : wholeDivider plld desired ≠ 0
  settings : HasSettings plld (movedCenter plld desired)

theorem floor_dividerBelow (plld center : Rat) (symNum : Nat) :
    ⌊(dividerBelow plld center symNum : Rat) / 4096⌋ =
      ⌊plld / toneFreq center toneSpacing symNum⌋ := by
  have lower := Int.floor_le (plld / toneFreq center toneSpacing symNum)
  have upper := Int.lt_floor_add_one (plld / toneFreq center toneSpacing symNum)
  apply floor_div_4096
  · apply Int.le_floor.mpr
    push_cast
    linarith
  · apply Int.floor_lt.mpr
    push_cast
    linarith

/-- The second setting of the first tone does not reach the next integer. -/
theorem HasSettings.wholeDivider_eq (settings : HasSettings plld center) :
    wholeDivider plld center = ⌊plld / toneFreq center toneSpacing 0⌋ := by
  have room := (settings 0 (by decide)).2.2
  have sumEq : (dividerBelow plld center 0 : Rat) / 4096 + 1 / 4096 =
      ((dividerBelow plld center 0 + 1 : Int) : Rat) / 4096 := by
    push_cast
    ring
  rw [← floor_dividerBelow, wholeDivider, sumEq,
    floor_div_4096 (dividerBelow plld center 0 / 4096) (by omega) (by omega),
    floor_div_4096 (dividerBelow plld center 0 / 4096) (by omega) (by omega)]

theorem centerFreqActual_eq (plld desired : Rat) :
    centerFreqActual desired toneSpacing plld =
      if wholeDivider plld desired ≠ ⌊plld / toneFreq desired toneSpacing 3⌋ then
        if wholeDivider plld desired = 0 then none else some (movedCenter plld desired)
      else some desired := by
  have firstTone : toneFreq desired toneSpacing 0 = desired - 3 / 2 * toneSpacing := by
    simp [toneFreq]
  have fourthTone : toneFreq desired toneSpacing 3 = desired + 3 / 2 * toneSpacing := by
    simp only [toneFreq]
    push_cast
    ring
  have power : (2 : Rat) ^ (-12 : Int) = 1 / 4096 := by norm_num
  rw [← floor_dividerBelow]
  simp only [centerFreqActual, bitTrunc_neg_twelve, power, wholeDivider, movedCenter,
    dividerBelow, firstTone, fourthTone]

/-- A center is kept, or moved to another one. -/
theorem settlesOn_iff_kept_or_moved (plld desired center : Rat) :
    SettlesOn plld desired center ↔
      (center = desired ∧ KeepsCenter plld desired) ∨
        (center = movedCenter plld desired ∧ MovesCenter plld desired) := by
  unfold SettlesOn
  rw [centerFreqActual_eq]
  constructor
  · rintro ⟨centerEq, settings⟩
    split_ifs at centerEq with differ zero
    · obtain rfl := Option.some.inj centerEq
      exact Or.inr ⟨rfl, differ, zero, settings⟩
    · obtain rfl := Option.some.inj centerEq
      refine Or.inl ⟨rfl, ?_, settings⟩
      rw [← settings.wholeDivider_eq]
      exact not_not.mp differ
  · rintro (⟨rfl, same, settings⟩ | ⟨rfl, differ, zero, settings⟩)
    · rw [← settings.wholeDivider_eq] at same
      exact ⟨if_neg (not_not.mpr same), settings⟩
    · exact ⟨by rw [if_pos differ, if_neg zero], settings⟩

/-! ## How far a center is moved -/

section Tones

variable (center : Rat)

theorem toneFreq_first : toneFreq center toneSpacing 0 = center - 75 / 8 := by
  simp only [toneFreq, toneSpacing]
  push_cast
  ring

theorem toneFreq_fourth : toneFreq center toneSpacing 3 = center + 75 / 8 := by
  simp only [toneFreq, toneSpacing]
  push_cast
  ring

theorem toneFreq_fifth : toneFreq center toneSpacing 4 = center + 125 / 8 := by
  simp only [toneFreq, toneSpacing]
  push_cast
  ring

theorem toneFreq_last : toneFreq center toneSpacing 7 = center + 275 / 8 := by
  simp only [toneFreq, toneSpacing]
  push_cast
  ring

end Tones

theorem movedCenter_eq (plld desired : Rat) :
    movedCenter plld desired = plld / wholeDivider plld desired - 10 := by
  norm_num [movedCenter, toneSpacing]

/-- The divider of the first tone is at least its integer part, up to the last bit. -/
theorem wholeDivider_le (plld desired : Rat) :
    (wholeDivider plld desired : Rat) ≤ plld / toneFreq desired toneSpacing 0 + 1 / 4096 := by
  have belowLe := Int.floor_le (plld / toneFreq desired toneSpacing 0 * 4096)
  have wholeLe := Int.floor_le ((dividerBelow plld desired 0 : Rat) / 4096 + 1 / 4096)
  change (dividerBelow plld desired 0 : Rat) ≤ _ at belowLe
  change (wholeDivider plld desired : Rat) ≤ _ at wholeLe
  linarith

/-- Where the center is moved, it is moved down. -/
theorem movedCenter_lt (plldPos : 0 < plld)
    (differ : wholeDivider plld desired ≠ ⌊plld / toneFreq desired toneSpacing 3⌋)
    (movedPos : 0 < movedCenter plld desired) : movedCenter plld desired < desired := by
  have wholeLe := wholeDivider_le plld desired
  rw [← floor_dividerBelow] at differ
  rw [movedCenter_eq] at movedPos ⊢
  -- A divider that is not positive would make the center negative.
  have wholePos : 0 < wholeDivider plld desired := by
    by_contra notPos
    have nonpos : (wholeDivider plld desired : Rat) ≤ 0 := by exact_mod_cast not_lt.mp notPos
    have quotient := div_nonpos_of_nonneg_of_nonpos plldPos.le nonpos
    linarith
  have wholeRat : (1 : Rat) ≤ wholeDivider plld desired := by exact_mod_cast wholePos
  have firstPos : 0 < desired - 75 / 8 := by
    by_contra notPos
    have quotient := div_nonpos_of_nonneg_of_nonpos plldPos.le (not_lt.mp notPos)
    rw [toneFreq_first] at wholeLe
    linarith
  have fourthPos : 0 < desired + 75 / 8 := by linarith
  have ordered : dividerBelow plld desired 3 ≤ dividerBelow plld desired 0 := by
    apply Int.floor_le_floor
    have quotients : plld / (desired + 75 / 8) ≤ plld / (desired - 75 / 8) :=
      div_le_div_of_nonneg_left plldPos.le firstPos (by linarith)
    rw [toneFreq_first, toneFreq_fourth]
    linarith
  have strict : ⌊(dividerBelow plld desired 3 : Rat) / 4096⌋ < wholeDivider plld desired := by
    refine lt_of_le_of_ne (Int.floor_le_floor ?_) differ.symm
    have orderedRat : (dividerBelow plld desired 3 : Rat) ≤ dividerBelow plld desired 0 := by
      exact_mod_cast ordered
    linarith
  have below : dividerBelow plld desired 3 < wholeDivider plld desired * 4096 := by
    have bound := Int.floor_lt.mp strict
    rw [div_lt_iff₀ (by norm_num)] at bound
    exact_mod_cast bound
  have fourthLt : plld / wholeDivider plld desired < desired + 75 / 8 := by
    have bound := Int.floor_lt.mp below
    push_cast at bound
    rw [toneFreq_fourth, div_mul_eq_mul_div, div_lt_iff₀ fourthPos] at bound
    rw [div_lt_iff₀ (by linarith)]
    linarith
  linarith

/-- The center is the asked one, or lies below it. -/
theorem SettlesOn.eq_or_lt (settles : SettlesOn plld desired center) (centerPos : 0 < center) :
    center = desired ∨ center < desired := by
  have plldPos := (settles.2.plld_pos centerPos.le).1
  rcases (settlesOn_iff_kept_or_moved _ _ _).mp settles with ⟨rfl, -⟩ | ⟨rfl, differ, -, -⟩
  · exact Or.inl rfl
  · exact Or.inr (movedCenter_lt plldPos differ centerPos)

theorem MovesCenter.plld_pos (moves : MovesCenter plld desired) (firstPos : 75 / 8 < desired) :
    0 < plld ∧ 0 < wholeDivider plld desired := by
  have lastQuotient := moves.settings.quotient_pos (show 7 < 8 by decide)
  have firstTone : 0 < toneFreq desired toneSpacing 0 := by
    rw [toneFreq_first]
    linarith
  rw [toneFreq_last, movedCenter_eq] at lastQuotient
  rcases lt_trichotomy plld 0 with negative | rfl | positive
  · have wholeNeg : wholeDivider plld desired < 0 := by
      refine lt_of_le_of_ne ?_ moves.nonzero
      have quotient := div_neg_of_neg_of_pos negative firstTone
      have wholeLe := wholeDivider_le plld desired
      have small : (wholeDivider plld desired : Rat) < 1 := by linarith
      exact Int.lt_add_one_iff.mp (by exact_mod_cast small)
    have wholeRat : (wholeDivider plld desired : Rat) < 0 := by exact_mod_cast wholeNeg
    have quotient := div_pos_of_neg_of_neg negative wholeRat
    exact absurd lastQuotient (div_neg_of_neg_of_pos negative (by linarith)).not_gt
  · simp at lastQuotient
  · refine ⟨positive, lt_of_le_of_ne ?_ moves.nonzero.symm⟩
    have divider : 0 ≤ dividerBelow plld desired 0 := by
      unfold dividerBelow
      positivity
    unfold wholeDivider
    positivity

/-- The settings of the fifth tone leave room below the integer part. -/
theorem MovesCenter.quotient_lt (moves : MovesCenter plld desired)
    (firstPos : 75 / 8 < desired) :
    plld / wholeDivider plld desired < 23040 * wholeDivider plld desired := by
  obtain ⟨plldPos, wholePos⟩ := moves.plld_pos firstPos
  obtain ⟨-, -, room⟩ := moves.settings 4 (by decide)
  have wholeRat : (0 : Rat) < wholeDivider plld desired := by exact_mod_cast wholePos
  have fifthTone : toneFreq (movedCenter plld desired) toneSpacing 4 =
      plld / wholeDivider plld desired + 45 / 8 := by
    rw [toneFreq_fifth, movedCenter_eq]
    ring
  rw [dividerBelow, fifthTone] at room
  obtain ⟨quotient, isQuotient⟩ :
      ∃ quotient, quotient = plld / wholeDivider plld desired := ⟨_, rfl⟩
  have plldEq : plld = quotient * wholeDivider plld desired := by
    rw [isQuotient, div_mul_cancel₀ _ wholeRat.ne']
  have quotientPos : 0 < quotient := isQuotient ▸ div_pos plldPos wholeRat
  have fifthPos : 0 < quotient + 45 / 8 := by linarith
  rw [← isQuotient] at room ⊢
  generalize wholeDivider plld desired = whole at *
  have below : ⌊plld / (quotient + 45 / 8) * 4096⌋ < whole * 4096 := by
    apply Int.floor_lt.mpr
    push_cast
    rw [div_mul_eq_mul_div, div_lt_iff₀ fifthPos, plldEq]
    linarith
  have strict := Int.floor_lt.mp
    (show ⌊plld / (quotient + 45 / 8) * 4096⌋ < whole * 4096 - 1 by omega)
  push_cast at strict
  rw [div_mul_eq_mul_div, div_lt_iff₀ fifthPos, plldEq] at strict
  linarith

/-- The center is moved by little more than four tones. -/
theorem MovesCenter.lt_movedCenter (moves : MovesCenter plld desired)
    (firstPos : 75 / 8 < desired) : desired - 26 < movedCenter plld desired := by
  have wholePos := (moves.plld_pos firstPos).2
  have wholeRat : (1 : Rat) ≤ wholeDivider plld desired := by exact_mod_cast wholePos
  have wholeLe := wholeDivider_le plld desired
  have spare := moves.quotient_lt firstPos
  obtain ⟨quotient, isQuotient⟩ :
      ∃ quotient, quotient = plld / wholeDivider plld desired := ⟨_, rfl⟩
  have plldEq : plld = quotient * wholeDivider plld desired := by
    rw [isQuotient, div_mul_cancel₀ _ (by linarith)]
  rw [toneFreq_first] at wholeLe
  rw [movedCenter_eq]
  rw [← isQuotient] at spare ⊢
  generalize wholeDivider plld desired = whole at *
  have firstLe : (whole - 1 / 4096) * (desired - 75 / 8) ≤ quotient * whole := by
    rw [← plldEq, ← le_div_iff₀ (by linarith)]
    linarith
  by_contra tooLow
  have far : (whole - 1 / 4096) * (quotient + 53 / 8) ≤
      (whole - 1 / 4096 : Rat) * (desired - 75 / 8) :=
    mul_le_mul_of_nonneg_left (by linarith) (by linarith)
  linarith

/-- A positive center is kept exactly where the guard of `setupDMATab` finds one
integer part and all tones have settings. -/
theorem settlesOn_self_iff (centerPos : 0 < center) :
    SettlesOn plld center center ↔ KeepsCenter plld center := by
  rw [settlesOn_iff_kept_or_moved]
  constructor
  · rintro (⟨-, keeps⟩ | ⟨same, moves⟩)
    · exact keeps
    · have movedPos : 0 < movedCenter plld center := same ▸ centerPos
      have plldPos := (moves.settings.plld_pos movedPos.le).1
      exact absurd same (movedCenter_lt plldPos moves.otherInteger movedPos).ne'
  · exact fun keeps => Or.inl ⟨rfl, keeps⟩

/-- A center whose tones share the integer part of their dividers is kept. -/
theorem SharesInteger.keepsCenter {whole : Int} (shares : SharesInteger center plld whole)
    (atMost : whole ≤ 4095) : KeepsCenter plld center := by
  have one_le := shares.one_le
  have bounds {symNum : Nat} (inTable : symNum < 8) :
      whole * 4096 ≤ dividerBelow plld center symNum ∧
        dividerBelow plld center symNum < whole * 4096 + 4095 :=
    shares.floor_bounds inTable
  refine ⟨?_, fun symNum inTable => ?_⟩
  · have first := bounds (show 0 < 8 by decide)
    have fourth := bounds (show 3 < 8 by decide)
    rw [← floor_dividerBelow, ← floor_dividerBelow, floor_div_4096 whole (by omega) (by omega),
      floor_div_4096 whole (by omega) (by omega)]
  · have here := bounds inTable
    omega

end RtlsdrFt8d
