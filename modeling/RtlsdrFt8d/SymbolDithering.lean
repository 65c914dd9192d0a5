import Mathlib.Order.WithBot
import RtlsdrFt8d.FrequencySynthesis

/-!
# Dithering of a symbol

The two settings of a tone enclose it, so `txSym` can share the clocks of a
symbol between them.  Its iterations have random lengths, but what the first
setting is due in total is rounded anew in each of them.
-/

namespace RtlsdrFt8d

/-! ## The table -/

/-- The table as `setupDMATab` writes it, before its assertion is looked at. -/
def dmaTab (centerFreqDesired toneSpacing plldActualFreq : Rat) : Option DmaTab :=
  (centerFreqActual centerFreqDesired toneSpacing plldActualFreq).map fun center =>
    { centerFreqActual := center
      tuningWord := tuningWord (center - 3 / 2 * toneSpacing) toneSpacing plldActualFreq }

/-- `dma_table_freq`: a zero word stands for a frequency above all others. -/
def DmaTab.dmaTableFreq (table : DmaTab) (plldActualFreq : Rat) (i : Nat) : WithTop Rat :=
  if table.tuningWord i = 0 then ⊤ else (table.freq plldActualFreq i : Rat)

/-- The value of `f0_ratio`; nothing of the quotient is left where `f1_freq` is
infinite. -/
def f0RatioOf (tone f0Freq : Rat) : WithTop Rat → Rat
  | ⊤ => 1
  | (f1Freq : Rat) => 1 - (tone - f0Freq) / (f1Freq - f0Freq)

/-- `f0_ratio`, where the assertions of `txSym` hold. -/
def DmaTab.symbolRatio (table : DmaTab) (toneSpacing plldActualFreq : Rat) (symNum : Nat) :
    Option Rat :=
  let tone := toneFreq table.centerFreqActual toneSpacing symNum
  match table.dmaTableFreq plldActualFreq (2 * symNum),
    table.dmaTableFreq plldActualFreq (2 * symNum + 1) with
  | ⊤, _ => none
  | (f0Freq : Rat), f1Freq =>
      let f0Ratio := f0RatioOf tone f0Freq f1Freq
      if f0Freq ≤ tone ∧ tone ≤ f1Freq ∧ f1Freq ≠ f0Freq ∧ 0 ≤ f0Ratio ∧ f0Ratio ≤ 1 then
        some f0Ratio
      else none

/-! ## Iterations -/

/-- `n_f0` and `n_f1` of an iteration. -/
structure TxfrLens where
  f0 : Int
  f1 : Int

def TxfrLens.ofStep (taken : EventRuns.Step Dithering.Progress RandomDraw) : TxfrLens where
  f0 := taken.after.share - taken.before.share
  f1 := taken.after.total - taken.before.total - (taken.after.share - taken.before.share)

/-- `n_pwmclk_per_sym`. -/
def pwmClocksPerSym (fPwmClk tsym : Rat) : Int :=
  llround (.finite (fPwmClk * tsym))

/-- The iterations of a symbol, until the draws or the clocks run out. -/
def symbolLens (f0Ratio : Rat) (perSym : Int) (draws : List RandomDraw) : List TxfrLens :=
  ((EventRuns.steps (txSymStep f0Ratio perSym) Dithering.start draws).filter fun taken =>
    taken.before.total < perSym).map .ofStep

def f0Clocks (lens : List TxfrLens) : Int :=
  (lens.map (·.f0)).sum

def clocks (lens : List TxfrLens) : Int :=
  (lens.map fun each => each.f0 + each.f1).sum

def firstDraws (draws : Nat → RandomDraw) (count : Nat) : List RandomDraw :=
  (List.range count).map draws

/-- The loop ends with all clocks of the symbol sent, no iteration sends less than
nothing, and the share of the first setting is never off by more than half a
clock. -/
structure SendsSymbol (f0Ratio : Rat) (perSym : Int) (draws : Nat → RandomDraw) : Prop where
  terminates : ∃ count, perSym ≤ (txSym f0Ratio perSym (firstDraws draws count)).total
  clocks_eq : ∀ count, perSym ≤ (txSym f0Ratio perSym (firstDraws draws count)).total →
    clocks (symbolLens f0Ratio perSym (firstDraws draws count)) = max 0 perSym
  lens_nonneg : ∀ count, ∀ lens ∈ symbolLens f0Ratio perSym (firstDraws draws count),
    0 ≤ lens.f0 ∧ 0 ≤ lens.f1
  share_close : ∀ count,
    |(f0Clocks (symbolLens f0Ratio perSym (firstDraws draws count)) : Rat) -
      f0Ratio * clocks (symbolLens f0Ratio perSym (firstDraws draws count))| ≤ 1 / 2

/-- The settings enclose the tone and are apart, and their ratio sends every
symbol. -/
structure DithersExactly (table : DmaTab) (toneSpacing plld : Rat) (symNum : Nat)
    (perSym : Int) (draws : Nat → RandomDraw) : Prop where
  f0_le : table.dmaTableFreq plld (2 * symNum) ≤
    (toneFreq table.centerFreqActual toneSpacing symNum : Rat)
  le_f1 : (toneFreq table.centerFreqActual toneSpacing symNum : Rat) ≤
    table.dmaTableFreq plld (2 * symNum + 1)
  apart : table.dmaTableFreq plld (2 * symNum + 1) ≠ table.dmaTableFreq plld (2 * symNum)
  sends : ∃ f0Ratio, table.symbolRatio toneSpacing plld symNum = some f0Ratio ∧
    0 ≤ f0Ratio ∧ f0Ratio ≤ 1 ∧ SendsSymbol f0Ratio perSym draws

/-- The tones are frequencies that the divider reaches. -/
structure TonesInRange (center toneSpacing plld : Rat) : Prop where
  plld_pos : 0 < plld
  spacing_pos : 0 < toneSpacing
  tone_pos : ∀ symNum < 8, 0 < toneFreq center toneSpacing symNum
  divider_lt : ∀ symNum < 8, plld / toneFreq center toneSpacing symNum < 4096

/-! ## The loop -/

variable {f0Ratio : Rat} {perSym : Int} {draws : List RandomDraw}

theorem llround_of_nonneg {x : Rat} (nonneg : 0 ≤ x) : llround (.finite x) = ⌊x + 1 / 2⌋ :=
  if_pos nonneg

theorem llround_mono (x y : Rat) (nonneg : 0 ≤ x) (le : x ≤ y) :
    llround (.finite x) ≤ llround (.finite y) := by
  rw [llround_of_nonneg nonneg, llround_of_nonneg (nonneg.trans le)]
  exact Int.floor_mono (by linarith)

theorem llround_add_intCast (x : Rat) (whole : Int) (nonneg : 0 ≤ x) (wholeNonneg : 0 ≤ whole) :
    llround (.finite (x + whole)) = llround (.finite x) + whole := by
  have wholeRat : (0 : Rat) ≤ whole := by exact_mod_cast wholeNonneg
  rw [llround_of_nonneg nonneg, llround_of_nonneg (by linarith), add_right_comm,
    Int.floor_add_intCast]

/-- The lengths of the iterations add up to the counters of the loop. -/
theorem symbolLens_sums (f0Ratio : Rat) (perSym : Int) (draws : List RandomDraw) :
    f0Clocks (symbolLens f0Ratio perSym draws) = (txSym f0Ratio perSym draws).share ∧
      clocks (symbolLens f0Ratio perSym draws) = (txSym f0Ratio perSym draws).total := by
  induction draws using List.reverseRecOn with
  | nil => exact ⟨rfl, rfl⟩
  | append_singleton draws draw ih =>
      have after : txSym f0Ratio perSym (draws ++ [draw]) =
          txSymStep f0Ratio perSym (txSym f0Ratio perSym draws) draw := by
        rw [txSym, EventRuns.run_append]
        rfl
      rw [symbolLens, EventRuns.steps_append_singleton, List.filter_append, List.map_append,
        ← symbolLens, ← txSym, after]
      by_cases running : (txSym f0Ratio perSym draws).total < perSym
      · simp only [f0Clocks, clocks] at ih ⊢
        simp only [List.filter_cons, List.filter_nil, running, decide_true, if_true,
          List.map_append, List.map_cons, List.map_nil, List.sum_append, List.sum_cons,
          List.sum_nil, TxfrLens.ofStep, ih]
        constructor <;> omega
      · simp only [List.filter_cons, List.filter_nil, running, decide_false,
          Bool.false_eq_true, if_false, List.map_nil, List.append_nil, ih, txSymStep,
          and_self]

theorem length_firstDraws (draws : Nat → RandomDraw) (count : Nat) :
    (firstDraws draws count).length = count := by
  simp [firstDraws]

/-- The counters before an iteration, and that it has a length. -/
theorem total_txSym_nonneg (f0Ratio : Rat) (perSym : Int) (draws : List RandomDraw) :
    0 ≤ (txSym f0Ratio perSym draws).total ∧
      (txSym f0Ratio perSym draws).total ≤ max 0 perSym := by
  induction draws using List.reverseRecOn with
  | nil =>
      simp only [txSym, EventRuns.run_nil, Dithering.start]
      omega
  | append_singleton draws draw ih =>
      have clocks := pwmClocks_bounds draw
      unfold txSym at ih ⊢
      rw [EventRuns.run_append, EventRuns.run_cons, EventRuns.run_nil, total_txSymStep]
      split <;> omega

theorem nonneg_of_mem_symbolLens (ratioNonneg : 0 ≤ f0Ratio) (ratioLe : f0Ratio ≤ 1)
    {lens : TxfrLens} (isLens : lens ∈ symbolLens f0Ratio perSym draws) :
    0 ≤ lens.f0 ∧ 0 ≤ lens.f1 := by
  obtain ⟨taken, isStep, rfl⟩ := List.mem_map.mp isLens
  obtain ⟨isStep, running⟩ := List.mem_filter.mp isStep
  obtain ⟨earlier, later, -, before, after⟩ := EventRuns.mem_steps_iff.mp isStep
  rw [decide_eq_true_eq] at running
  have onSchedule := onSchedule_txSym f0Ratio perSym earlier
  have totalNonneg := (total_txSym_nonneg f0Ratio perSym earlier).1
  rw [txSym, ← before] at onSchedule totalNonneg
  rw [txSymStep, if_pos running] at after
  have clocksPos := (pwmClocks_bounds taken.event).1
  have bounds {length : Int} (lengthNonneg : 0 ≤ length) :=
    Dithering.step_share_bounds llround_mono llround_add_intCast ratioNonneg ratioLe totalNonneg
      onSchedule lengthNonneg
  have lengthNonneg : 0 ≤ if perSym < taken.before.total + pwmClocks taken.event then
      perSym - taken.before.total else pwmClocks taken.event := by
    split <;> omega
  have share := bounds lengthNonneg
  rw [← after] at share
  have total := congrArg Dithering.Progress.total after
  simp only [Dithering.step] at total
  simp only [TxfrLens.ofStep]
  omega

theorem sendsSymbol (ratioNonneg : 0 ≤ f0Ratio) (ratioLe : f0Ratio ≤ 1) (perSym : Int)
    (draws : Nat → RandomDraw) : SendsSymbol f0Ratio perSym draws where
  terminates := by
    refine ⟨perSym.toNat, ?_⟩
    rcases le_or_gt 0 perSym with nonneg | negative
    · have bounds := total_txSym_bounds f0Ratio nonneg (firstDraws draws perSym.toNat)
      rw [length_firstDraws] at bounds
      omega
    · have nonneg := (total_txSym_nonneg f0Ratio perSym (firstDraws draws perSym.toNat)).1
      omega
  clocks_eq count ended := by
    rw [(symbolLens_sums f0Ratio perSym _).2]
    have bounds := total_txSym_nonneg f0Ratio perSym (firstDraws draws count)
    omega
  lens_nonneg count lens isLens := nonneg_of_mem_symbolLens ratioNonneg ratioLe isLens
  share_close count := by
    rw [(symbolLens_sums f0Ratio perSym _).1, (symbolLens_sums f0Ratio perSym _).2]
    exact Dithering.abs_share_sub_le abs_llround_sub_le
      (onSchedule_txSym f0Ratio perSym (firstDraws draws count))

/-! ## The settings of a tone -/

variable {center spacing plld : Rat} {table : DmaTab} {symNum : Nat}

/-- A table that `setupDMATab` accepts is the one it writes. -/
theorem dmaTab_eq_some_of_setupDMATab
    (programmed : setupDMATab center spacing plld = some table) :
    dmaTab center spacing plld = some table := by
  obtain ⟨actual, centerEq, tableEq⟩ := Option.bind_eq_some_iff.mp programmed
  simp only [Option.ite_none_right_eq_some, Option.some.injEq] at tableEq
  obtain ⟨-, rfl⟩ := tableEq
  rw [dmaTab, centerEq]
  rfl

/-- There is a table where the first tone has a frequency. -/
theorem exists_dmaTab (plldPos : 0 < plld) (spacingPos : 0 < spacing)
    (tonePos : 0 < center - 3 / 2 * spacing) :
    ∃ table, dmaTab center spacing plld = some table := by
  suffices isSome : ∃ actual, centerFreqActual center spacing plld = some actual by
    obtain ⟨actual, centerEq⟩ := isSome
    exact ⟨_, by rw [dmaTab, centerEq, Option.map_some]⟩
  rw [centerFreqActual]
  split_ifs with differ zero
  · exfalso
    have atMost : plld / (center + 3 / 2 * spacing) ≤
        plld / (center - 3 / 2 * spacing) :=
      div_le_div_of_nonneg_left plldPos.le tonePos (by linarith)
    have truncated : bitTrunc (plld / (center + 3 / 2 * spacing)) (-12) ≤
        bitTrunc (plld / (center - 3 / 2 * spacing)) (-12) + 2 ^ (-12 : Int) := by
      rw [bitTrunc_neg_twelve, bitTrunc_neg_twelve]
      have floors : (⌊plld / (center + 3 / 2 * spacing) * 4096⌋ : Rat) ≤
          ⌊plld / (center - 3 / 2 * spacing) * 4096⌋ := by
        exact_mod_cast Int.floor_mono (by linarith)
      have positive : (0 : Rat) < 2 ^ (-12 : Int) := by positivity
      linarith
    have hiNonneg : 0 ≤ ⌊bitTrunc (plld / (center + 3 / 2 * spacing)) (-12)⌋ := by
      rw [bitTrunc_neg_twelve]
      have wordNonneg : 0 ≤ ⌊plld / (center + 3 / 2 * spacing) * 4096⌋ :=
        Int.floor_nonneg.mpr
          (mul_nonneg (div_nonneg plldPos.le (by linarith)) (by norm_num))
      exact Int.floor_nonneg.mpr (by positivity)
    have ordered := Int.floor_mono truncated
    omega
  · exact ⟨_, rfl⟩
  · exact ⟨_, rfl⟩

theorem f0RatioOf_bounds {tone f0Freq : Rat} {f1Freq : WithTop Rat} (atLeast : f0Freq ≤ tone)
    (atMost : tone ≤ f1Freq) :
    0 ≤ f0RatioOf tone f0Freq f1Freq ∧ f0RatioOf tone f0Freq f1Freq ≤ 1 := by
  cases f1Freq with
  | top => exact ⟨zero_le_one, le_rfl⟩
  | coe f1Freq =>
      have toneLe : tone ≤ f1Freq := WithTop.coe_le_coe.mp atMost
      change 0 ≤ 1 - (tone - f0Freq) / (f1Freq - f0Freq) ∧
        1 - (tone - f0Freq) / (f1Freq - f0Freq) ≤ 1
      have quotientNonneg : 0 ≤ (tone - f0Freq) / (f1Freq - f0Freq) :=
        div_nonneg (by linarith) (by linarith)
      have quotientLe : (tone - f0Freq) / (f1Freq - f0Freq) ≤ 1 :=
        div_le_one_of_le₀ (by linarith) (by linarith)
      constructor <;> linarith

theorem symbolRatio_of_enclosed {f0Freq : Rat}
    (f0Eq : table.dmaTableFreq plld (2 * symNum) = f0Freq)
    (atLeast : f0Freq ≤ toneFreq table.centerFreqActual spacing symNum)
    (atMost : toneFreq table.centerFreqActual spacing symNum ≤
      table.dmaTableFreq plld (2 * symNum + 1))
    (apart : table.dmaTableFreq plld (2 * symNum + 1) ≠ f0Freq) :
    table.symbolRatio spacing plld symNum =
      some (f0RatioOf (toneFreq table.centerFreqActual spacing symNum) f0Freq
        (table.dmaTableFreq plld (2 * symNum + 1))) := by
  rw [DmaTab.symbolRatio, f0Eq]
  exact if_pos ⟨atLeast, atMost, apart, f0RatioOf_bounds atLeast atMost⟩

/-- Where no word is zero, the assertions are those on finite frequencies. -/
theorem symbolRatio_eq_f0Ratio (even_ne : table.tuningWord (2 * symNum) ≠ 0)
    (odd_ne : table.tuningWord (2 * symNum + 1) ≠ 0) :
    table.symbolRatio spacing plld symNum = table.f0Ratio spacing plld symNum := by
  have f0Eq : table.dmaTableFreq plld (2 * symNum) = (table.freq plld (2 * symNum) : Rat) :=
    if_neg even_ne
  have f1Eq : table.dmaTableFreq plld (2 * symNum + 1) =
      (table.freq plld (2 * symNum + 1) : Rat) :=
    if_neg odd_ne
  rw [DmaTab.f0Ratio]
  by_cases holds : table.freq plld (2 * symNum) ≤
        toneFreq table.centerFreqActual spacing symNum ∧
      toneFreq table.centerFreqActual spacing symNum ≤ table.freq plld (2 * symNum + 1) ∧
      table.freq plld (2 * symNum) ≠ table.freq plld (2 * symNum + 1)
  · obtain ⟨atLeast, atMost, apart⟩ := holds
    rw [symbolRatio_of_enclosed f0Eq atLeast (f1Eq ▸ WithTop.coe_le_coe.mpr atMost)
      (f1Eq ▸ mt WithTop.coe_inj.mp apart.symm), f1Eq]
    exact (if_pos ⟨atLeast, atMost, apart⟩).symm
  · rw [DmaTab.symbolRatio, f0Eq, f1Eq]
    dsimp only
    rw [if_neg holds, if_neg]
    rintro ⟨atLeast, atMost, apart, -⟩
    exact holds ⟨atLeast, WithTop.coe_le_coe.mp atMost, fun same => apart (by rw [same])⟩

/-- The second setting of a tone: the frequency is above the tone, or without
bounds for a zero word. -/
theorem dmaTableFreq_odd {word : Int} (isWord : table.tuningWord (2 * symNum + 1) = word)
    (nonneg : 0 ≤ word) (plldPos : 0 < plld) {tone : Rat} (positive : 0 < tone)
    (below : word ≤ plld / tone * 4096) :
    tone ≤ table.dmaTableFreq plld (2 * symNum + 1) ∧
      table.dmaTableFreq plld (2 * symNum + 1) ≠
        (plld / (((word + 1 : Int) : Rat) / 2 ^ 12) : Rat) := by
  rw [DmaTab.dmaTableFreq, DmaTab.freq, isWord]
  rcases nonneg.eq_or_lt with rfl | wordPos
  · rw [if_pos rfl]
    exact ⟨le_top, WithTop.top_ne_coe⟩
  · rw [if_neg wordPos.ne', WithTop.coe_le_coe, Ne, WithTop.coe_inj]
    exact ⟨le_freq positive wordPos below, (freq_succ_lt plldPos wordPos).ne'⟩

/-- In exact arithmetic every symbol is sent as its tone. -/
theorem dithersExactly (built : dmaTab center spacing plld = some table)
    (inRange : TonesInRange table.centerFreqActual spacing plld) (inTable : symNum < 8)
    (fPwmClk tsym : Rat) (draws : Nat → RandomDraw) :
    DithersExactly table spacing plld symNum (pwmClocksPerSym fPwmClk tsym) draws := by
  obtain ⟨actual, centerEq, rfl⟩ := Option.map_eq_some_iff.mp built
  have words := @tuningWord_pair plld actual spacing symNum inTable
  have positive := inRange.tone_pos symNum inTable
  have below := Int.floor_le (plld / toneFreq actual spacing symNum * 4096)
  have above := Int.lt_floor_add_one (plld / toneFreq actual spacing symNum * 4096)
  have nonneg : 0 ≤ ⌊plld / toneFreq actual spacing symNum * 4096⌋ :=
    Int.floor_nonneg.mpr (by have plldPos := inRange.plld_pos; positivity)
  generalize ⌊plld / toneFreq actual spacing symNum * 4096⌋ = word
    at words below above nonneg
  generalize tableEq : (DmaTab.mk actual
    (tuningWord (actual - 3 / 2 * spacing) spacing plld)) = table
  have evenWord : table.tuningWord (2 * symNum) = word + 1 := tableEq ▸ words.1
  have oddWord : table.tuningWord (2 * symNum + 1) = word := tableEq ▸ words.2
  obtain rfl : table.centerFreqActual = actual := tableEq ▸ rfl
  have f0Eq : table.dmaTableFreq plld (2 * symNum) =
      (plld / (((word + 1 : Int) : Rat) / 2 ^ 12) : Rat) := by
    rw [DmaTab.dmaTableFreq, DmaTab.freq, evenWord, if_neg (by omega)]
  have atLeast := freq_succ_le positive nonneg above
  obtain ⟨atMost, apart⟩ := dmaTableFreq_odd oddWord nonneg inRange.plld_pos positive below
  have ratioBounds := f0RatioOf_bounds atLeast atMost
  exact
    { f0_le := by rw [f0Eq]; exact WithTop.coe_le_coe.mpr atLeast
      le_f1 := atMost
      apart := by rw [f0Eq]; exact apart
      sends := ⟨_, symbolRatio_of_enclosed f0Eq atLeast atMost apart, ratioBounds.1,
        ratioBounds.2, sendsSymbol ratioBounds.1 ratioBounds.2 _ _⟩ }

/-- A tone in the middle of the 20 m band. -/
theorem dithersExactly_fourteenMegahertz :
    DithersExactly
      { centerFreqActual := 14075000
        tuningWord := tuningWord (14075000 - 3 / 2 * toneSpacing) toneSpacing 500000000 }
      toneSpacing 500000000 3 (pwmClocksPerSym 31250000 (4 / 25))
      (fun _ => ⟨1 / 2, by norm_num, by norm_num⟩) := by
  have kept : centerFreqActual 14075000 toneSpacing 500000000 = some 14075000 := by
    decide +kernel
  refine dithersExactly (by rw [dmaTab, kept, Option.map_some]) ⟨?_, ?_, ?_, ?_⟩ (by decide) _ _ _
  · norm_num
  · norm_num [toneSpacing]
  · decide +kernel
  · decide +kernel

end RtlsdrFt8d
