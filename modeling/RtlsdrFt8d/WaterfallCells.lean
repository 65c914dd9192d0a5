import Mathlib.Data.Fin.VecNotation
import Mathlib.Tactic.Ring
import RtlsdrFt8d.EventRuns

/-!
# Cells of the waterfall

The magnitudes of a slot lie in one array with the layout
`[blocks][time_osr][freq_osr][num_bins]`.  `ft8_subsystem` fills it, the sync
scorer of ft8_lib and `estimateSNR` read it, and each of the three computes
indices in its own way.
-/

namespace RtlsdrFt8d

/-! ## Layout -/

/-- The geometry of `ftx_waterfall_t`. -/
structure Waterfall where
  numBlocks : Nat
  numBins : Nat
  timeOsr : Nat
  freqOsr : Nat

/-- `block_stride`. -/
def Waterfall.blockStride (wf : Waterfall) : Nat :=
  wf.timeOsr * wf.freqOsr * wf.numBins

/-- The number of magnitudes allocated. -/
def Waterfall.size (wf : Waterfall) : Nat :=
  wf.numBlocks * wf.blockStride

/-- A place in the waterfall: a block and its time subdivision, a frequency bin
and its subdivision. -/
@[ext]
structure WaterfallCell (wf : Waterfall) where
  block : Fin wf.numBlocks
  timeSub : Fin wf.timeOsr
  freqSub : Fin wf.freqOsr
  bin : Fin wf.numBins

variable {wf : Waterfall}

/-- The index of a cell in `mag`. -/
def WaterfallCell.index (cell : WaterfallCell wf) : Nat :=
  ((cell.block.val * wf.timeOsr + cell.timeSub.val) * wf.freqOsr + cell.freqSub.val) *
    wf.numBins + cell.bin.val

/-- One more dimension of an array. -/
theorem mul_add_lt_mul {high low rows columns : Nat} (highLt : high < rows)
    (lowLt : low < columns) : high * columns + low < rows * columns :=
  calc
    high * columns + low < high * columns + columns := Nat.add_lt_add_left lowLt _
    _ = (high + 1) * columns := (Nat.succ_mul high columns).symm
    _ ≤ rows * columns := Nat.mul_le_mul_right columns highLt

theorem mul_add_inj {high high' low low' columns : Nat} (lowLt : low < columns)
    (lowLt' : low' < columns) (same : high * columns + low = high' * columns + low') :
    high = high' ∧ low = low' := by
  have lows : low = low' :=
    calc
      low = (high * columns + low) % columns := (Nat.mul_add_mod_of_lt lowLt).symm
      _ = (high' * columns + low') % columns := by rw [same]
      _ = low' := Nat.mul_add_mod_of_lt lowLt'
  subst lows
  exact ⟨Nat.eq_of_mul_eq_mul_right (Nat.zero_lt_of_lt lowLt) (Nat.add_right_cancel same), rfl⟩

theorem WaterfallCell.index_lt (cell : WaterfallCell wf) : cell.index < wf.size := by
  have inBlock := mul_add_lt_mul
    (mul_add_lt_mul (mul_add_lt_mul cell.block.isLt cell.timeSub.isLt) cell.freqSub.isLt)
    cell.bin.isLt
  rwa [Nat.mul_assoc wf.numBlocks, Nat.mul_assoc wf.numBlocks] at inBlock

/-- Different cells have different indices. -/
theorem WaterfallCell.index_injective {cell other : WaterfallCell wf}
    (same : cell.index = other.index) : cell = other := by
  obtain ⟨rest, bin⟩ := mul_add_inj cell.bin.isLt other.bin.isLt same
  obtain ⟨rest, freqSub⟩ := mul_add_inj cell.freqSub.isLt other.freqSub.isLt rest
  obtain ⟨block, timeSub⟩ := mul_add_inj cell.timeSub.isLt other.timeSub.isLt rest
  exact WaterfallCell.ext (Fin.ext block) (Fin.ext timeSub) (Fin.ext freqSub) (Fin.ext bin)

/-- A loop that stops at the first element without a property sees all that
have it, if no such element follows one without it. -/
theorem takeWhile_eq_filter {α : Type*} (kept : α → Bool) {elements : List α}
    (downward : elements.Pairwise fun first second => kept second = true → kept first = true) :
    elements.takeWhile kept = elements.filter kept := by
  induction elements with
  | nil => rfl
  | cons first rest ih =>
      obtain ⟨firstKept, restDownward⟩ := List.pairwise_cons.mp downward
      cases isKept : kept first with
      | true => rw [List.takeWhile_cons_of_pos isKept, List.filter_cons_of_pos isKept,
          ih restDownward]
      | false =>
          have noneKept : rest.filter kept = [] := by
            rw [List.filter_eq_nil_iff]
            intro second secondMem secondKept
            simp [firstKept second secondMem secondKept] at isKept
          rw [List.takeWhile_cons_of_neg (by simp [isKept]),
            List.filter_cons_of_neg (by simp [isKept]), noneKept]

/-! ## Candidates -/

/-- A position that the loops of `ftx_find_candidates` visit for FT8. -/
structure FtxCandidate (wf : Waterfall) where
  timeOffset : Int
  freqOffset : Nat
  timeSub : Fin wf.timeOsr
  freqSub : Fin wf.freqOsr
  least_timeOffset : -10 ≤ timeOffset
  timeOffset_lt : timeOffset < 20
  freqOffset_lt : freqOffset + 7 < wf.numBins

/-- A geometry that the search can run over: the `int16_t freq_offset` reaches the
first bin behind the last position, and the `uint8_t time_sub` and `freq_sub` the
number of subdivisions. -/
structure SearchedWaterfall extends Waterfall where
  numBins_le : numBins ≤ 32774
  timeOsr_le : timeOsr ≤ 255
  freqOsr_le : freqOsr ≤ 255

instance : Coe SearchedWaterfall Waterfall :=
  ⟨SearchedWaterfall.toWaterfall⟩

/-- The bins of one signal. -/
def SearchedWaterfall.eightBins (numBlocks : Nat) : SearchedWaterfall where
  toWaterfall := ⟨numBlocks, 8, 1, 1⟩
  numBins_le := show 8 ≤ 32774 by decide
  timeOsr_le := show 1 ≤ 255 by decide
  freqOsr_le := show 1 ≤ 255 by decide

/-- `kFT8_Costas_pattern`. -/
def costasPattern : Fin 7 → Nat :=
  ![3, 1, 4, 0, 6, 5, 2]

/-- A sync symbol: its group and its number in the group. -/
abbrev CostasSymbol :=
  Fin 3 × Fin 7

/-- The position of a sync symbol in the message, `FT8_SYNC_OFFSET` apart from
group to group. -/
def CostasSymbol.position (symbol : CostasSymbol) : Nat :=
  36 * symbol.1.val + symbol.2.val

def CostasSymbol.tone (symbol : CostasSymbol) : Nat :=
  costasPattern symbol.2

theorem tone_le (symbol : CostasSymbol) : symbol.tone ≤ 6 :=
  (show ∀ number, costasPattern number ≤ 6 by decide) symbol.2

namespace FtxCandidate

/-- The block of the recording that a sync symbol falls on. -/
def blockAbs (candidate : FtxCandidate wf) (symbol : CostasSymbol) : Int :=
  candidate.timeOffset + symbol.position

/-- The symbol lies inside the recording. -/
abbrev Inside (candidate : FtxCandidate wf) (symbol : CostasSymbol) : Prop :=
  0 ≤ candidate.blockAbs symbol ∧ candidate.blockAbs symbol < wf.numBlocks

/-- The cell of a block and a bin in the subdivisions of a candidate. -/
def cellAt (candidate : FtxCandidate wf) {block : Int}
    (inside : 0 ≤ block ∧ block < wf.numBlocks) (bin : Fin wf.numBins) : WaterfallCell wf where
  block := ⟨block.toNat, (Int.toNat_lt inside.1).mpr inside.2⟩
  timeSub := candidate.timeSub
  freqSub := candidate.freqSub
  bin := bin

theorem index_cellAt (candidate : FtxCandidate wf) {block : Int}
    (inside : 0 ≤ block ∧ block < wf.numBlocks) (bin : Fin wf.numBins) :
    ((candidate.cellAt inside bin).index : Int) =
      block * wf.blockStride + candidate.timeSub.val * (wf.freqOsr * wf.numBins) +
        candidate.freqSub.val * wf.numBins + bin.val := by
  have blockCast : (block.toNat : Int) = block := Int.toNat_of_nonneg inside.1
  simp only [WaterfallCell.index, cellAt, Waterfall.blockStride]
  push_cast [blockCast]
  ring

/-! ## The sync scorer -/

/-- `get_cand_mag`, relative to `wf->mag`. -/
def candMag (candidate : FtxCandidate wf) : Int :=
  let offset := candidate.timeOffset
  let offset := offset * wf.timeOsr + candidate.timeSub.val
  let offset := offset * wf.freqOsr + candidate.freqSub.val
  offset * wf.numBins + candidate.freqOffset

/-- The cell `p8[sm]` of `ft8_sync_score`. -/
def scorerCell (candidate : FtxCandidate wf) (symbol : CostasSymbol) : Int :=
  candidate.candMag + symbol.position * wf.blockStride + symbol.tone

/-- The symbols of one group that the loop of `ft8_sync_score` scores: it skips
those before the recording and stops at the first one behind it. -/
def scoredSymbols (candidate : FtxCandidate wf) (group : Fin 3) : List (Fin 7) :=
  ((List.finRange 7).takeWhile fun number =>
      candidate.blockAbs (group, number) < wf.numBlocks).filter fun number =>
    0 ≤ candidate.blockAbs (group, number)

/-- The bin that the scorer expects a symbol in. -/
def expectedBin (candidate : FtxCandidate wf) (symbol : CostasSymbol) : Fin wf.numBins :=
  ⟨candidate.freqOffset + symbol.tone, by
    have tone := tone_le symbol
    have offset := candidate.freqOffset_lt
    omega⟩

theorem scorerCell_eq (candidate : FtxCandidate wf) {symbol : CostasSymbol}
    (inside : candidate.Inside symbol) :
    candidate.scorerCell symbol =
      (candidate.cellAt inside (candidate.expectedBin symbol)).index := by
  rw [index_cellAt]
  simp only [scorerCell, candMag, blockAbs, expectedBin, Waterfall.blockStride]
  push_cast
  ring

/-- The symbols behind the recording follow those inside it. -/
theorem mem_scoredSymbols_iff (candidate : FtxCandidate wf) (group : Fin 3) (number : Fin 7) :
    number ∈ candidate.scoredSymbols group ↔ candidate.Inside (group, number) := by
  have downward : (List.finRange 7).Pairwise fun first second =>
      decide (candidate.blockAbs (group, second) < wf.numBlocks) = true →
        decide (candidate.blockAbs (group, first) < wf.numBlocks) = true := by
    apply (List.pairwise_lt_finRange 7).imp
    intro first second isBefore
    have numbers : first.val < second.val := isBefore
    have later : candidate.blockAbs (group, first) ≤ candidate.blockAbs (group, second) := by
      simp only [blockAbs, CostasSymbol.position]
      omega
    intro secondKept
    exact decide_eq_true (later.trans_lt (of_decide_eq_true secondKept))
  rw [scoredSymbols, takeWhile_eq_filter _ downward]
  simp [Inside]

/-- The neighbours that the scorer compares a symbol with: one bin lower and
higher, one block earlier and later. -/
def neighbourCells (candidate : FtxCandidate wf) (symbol : CostasSymbol) : List Int :=
  let cell := candidate.scorerCell symbol
  (if 0 < symbol.tone then [cell - 1] else []) ++
    (if symbol.tone < 7 then [cell + 1] else []) ++
    (if 0 < symbol.2.val ∧ 0 < candidate.blockAbs symbol then [cell - wf.blockStride] else []) ++
    (if symbol.2.val + 1 < 7 ∧ candidate.blockAbs symbol + 1 < wf.numBlocks then
      [cell + wf.blockStride]
    else [])

/-- The differences whose sum is the score. -/
def differences (mag : Int → Int) (candidate : FtxCandidate wf) : List Int :=
  (List.finRange 3).flatMap fun group =>
    (candidate.scoredSymbols group).flatMap fun number =>
      (candidate.neighbourCells (group, number)).map fun neighbour =>
        mag (candidate.scorerCell (group, number)) - mag neighbour

def ft8SyncScore (mag : Int → Int) (candidate : FtxCandidate wf) : Int :=
  let differences := candidate.differences mag
  let numAverage := differences.length
  if 0 < numAverage then differences.sum.tdiv numAverage else differences.sum

/-- The scorer never leaves the waterfall. -/
theorem neighbourCells_inside (candidate : FtxCandidate wf) {symbol : CostasSymbol}
    (inside : candidate.Inside symbol) {neighbour : Int}
    (isNeighbour : neighbour ∈ candidate.neighbourCells symbol) :
    0 ≤ neighbour ∧ neighbour < wf.size := by
  obtain ⟨cell, rfl⟩ : ∃ cell : WaterfallCell wf, neighbour = cell.index := by
    have binLt := candidate.freqOffset_lt
    have symbolCell := candidate.scorerCell_eq inside
    rw [index_cellAt] at symbolCell
    simp only [neighbourCells, List.mem_append, List.mem_ite_nil_right, List.mem_singleton]
      at isNeighbour
    have tone := tone_le symbol
    have here := inside
    rcases isNeighbour with ((⟨notLowest, rfl⟩ | ⟨-, rfl⟩) | ⟨⟨-, notFirst⟩, rfl⟩) | ⟨⟨-, notLast⟩, rfl⟩
    · refine ⟨candidate.cellAt inside
        ⟨candidate.freqOffset + symbol.tone - 1, by omega⟩, ?_⟩
      rw [symbolCell, index_cellAt]
      simp only [expectedBin]
      omega
    · refine ⟨candidate.cellAt inside
        ⟨candidate.freqOffset + symbol.tone + 1, by omega⟩, ?_⟩
      rw [symbolCell, index_cellAt]
      simp only [expectedBin]
      push_cast
      ring
    · have earlier : 0 ≤ candidate.blockAbs symbol - 1 ∧
          candidate.blockAbs symbol - 1 < wf.numBlocks := by omega
      refine ⟨candidate.cellAt earlier (candidate.expectedBin symbol), ?_⟩
      rw [symbolCell, index_cellAt]
      ring
    · have later : 0 ≤ candidate.blockAbs symbol + 1 ∧
          candidate.blockAbs symbol + 1 < wf.numBlocks := by omega
      refine ⟨candidate.cellAt later (candidate.expectedBin symbol), ?_⟩
      rw [symbolCell, index_cellAt]
      ring
  exact ⟨Int.natCast_nonneg _, by exact_mod_cast cell.index_lt⟩

/-! ## The estimator -/

/-- The cell whose power `estimateSNR` adds for a sync symbol, if it does not
skip the symbol. -/
def estimatorCell (candidate : FtxCandidate wf) (symbol : CostasSymbol) : Option Int :=
  let block := candidate.blockAbs symbol
  if block < 0 ∨ (wf.numBlocks : Int) ≤ block then none
  else
    let bin : Int := candidate.freqOffset + symbol.tone * wf.freqOsr
    if bin < 0 ∨ (wf.numBins : Int) ≤ bin then none
    else
      let base : Int := block * wf.blockStride +
        candidate.timeSub.val * (wf.freqOsr * wf.numBins) + candidate.freqSub.val * wf.numBins
      some (base + bin)

theorem estimatorCell_eq_none (candidate : FtxCandidate wf) {symbol : CostasSymbol}
    (outside : wf.numBins ≤ candidate.freqOffset + symbol.tone * wf.freqOsr) :
    candidate.estimatorCell symbol = none := by
  have skipped : (wf.numBins : Int) ≤ candidate.freqOffset + symbol.tone * wf.freqOsr := by
    exact_mod_cast outside
  simp [estimatorCell, skipped]

theorem estimatorCell_eq_some (candidate : FtxCandidate wf) {symbol : CostasSymbol}
    (inside : candidate.Inside symbol)
    (binLt : candidate.freqOffset + symbol.tone * wf.freqOsr < wf.numBins) :
    candidate.estimatorCell symbol = some ((candidate.cellAt inside
      ⟨candidate.freqOffset + symbol.tone * wf.freqOsr, binLt⟩).index : Int) := by
  have blockKept : ¬ (candidate.blockAbs symbol < 0 ∨
      (wf.numBlocks : Int) ≤ candidate.blockAbs symbol) := by
    have atLeast := inside.1
    have below := inside.2
    omega
  have binKept : ¬ ((candidate.freqOffset + symbol.tone * wf.freqOsr : Int) < 0 ∨
      (wf.numBins : Int) ≤ candidate.freqOffset + symbol.tone * wf.freqOsr) := by
    exact_mod_cast show ¬ (candidate.freqOffset + symbol.tone * wf.freqOsr < 0 ∨
      wf.numBins ≤ candidate.freqOffset + symbol.tone * wf.freqOsr) by omega
  rw [estimatorCell, if_neg blockKept, if_neg binKept, index_cellAt]
  push_cast
  rfl

/-- The signal power is taken from the cells that the scorer matched, all of
them in the waterfall. -/
def ReadsOwnCells (candidate : FtxCandidate wf) : Prop :=
  ∀ symbol, candidate.Inside symbol →
    candidate.estimatorCell symbol = some (candidate.scorerCell symbol) ∧
      0 ≤ candidate.scorerCell symbol ∧ candidate.scorerCell symbol < wf.size

theorem scorerCell_inside (candidate : FtxCandidate wf) {symbol : CostasSymbol}
    (inside : candidate.Inside symbol) :
    0 ≤ candidate.scorerCell symbol ∧ candidate.scorerCell symbol < wf.size := by
  rw [candidate.scorerCell_eq inside]
  exact ⟨Int.natCast_nonneg _, by exact_mod_cast WaterfallCell.index_lt _⟩

/-- The two bins agree when the tone stride of the estimator makes no
difference. -/
theorem estimatorCell_eq_scorerCell_iff (candidate : FtxCandidate wf) {symbol : CostasSymbol}
    (inside : candidate.Inside symbol) :
    candidate.estimatorCell symbol = some (candidate.scorerCell symbol) ↔
      symbol.tone * wf.freqOsr = symbol.tone := by
  by_cases binLt : candidate.freqOffset + symbol.tone * wf.freqOsr < wf.numBins
  · rw [candidate.estimatorCell_eq_some inside binLt, candidate.scorerCell_eq inside,
      Option.some_inj, Int.natCast_inj]
    constructor
    · intro sameIndex
      have sameBin := congrArg WaterfallCell.bin (WaterfallCell.index_injective sameIndex)
      exact Nat.add_left_cancel (congrArg Fin.val sameBin)
    · intro sameTone
      simp only [expectedBin, sameTone]
  · rw [candidate.estimatorCell_eq_none (not_lt.mp binLt)]
    have expected := (candidate.expectedBin symbol).isLt
    simp only [expectedBin] at expected
    simp only [reduceCtorEq, false_iff]
    omega

theorem readsOwnCells_iff (candidate : FtxCandidate wf) :
    candidate.ReadsOwnCells ↔
      wf.freqOsr = 1 ∨ ∀ symbol, candidate.Inside symbol → symbol.tone = 0 := by
  constructor
  · intro own
    rw [or_iff_not_imp_left]
    intro oversampled symbol inside
    have sameBin := (candidate.estimatorCell_eq_scorerCell_iff inside).mp (own symbol inside).1
    by_contra higherTone
    exact oversampled (Nat.eq_of_mul_eq_mul_left (Nat.pos_of_ne_zero higherTone)
      (sameBin.trans (mul_one symbol.tone).symm))
  · intro strideIrrelevant symbol inside
    refine ⟨(candidate.estimatorCell_eq_scorerCell_iff inside).mpr ?_,
      candidate.scorerCell_inside inside⟩
    rcases strideIrrelevant with plain | lowestTones
    · rw [plain, mul_one]
    · rw [lowestTones symbol inside, zero_mul]

end FtxCandidate

/-- The waterfall of the wideband build. -/
def widebandWaterfall : Waterfall where
  numBlocks := 92
  numBins := 512
  timeOsr := 2
  freqOsr := 2

/-- A signal 625 Hz above the lower edge, on time. -/
def punctualCandidate : FtxCandidate widebandWaterfall where
  timeOffset := 0
  freqOffset := 100
  timeSub := ⟨0, by decide⟩
  freqSub := ⟨0, by decide⟩
  least_timeOffset := by decide
  timeOffset_lt := by decide
  freqOffset_lt := by decide

/-- The first symbol of the signal is in bin 103 and is measured in bin 106. -/
theorem not_readsOwnCells_punctualCandidate :
    ¬ ∀ (wf : Waterfall) (candidate : FtxCandidate wf), candidate.ReadsOwnCells := by
  intro always
  have inside : punctualCandidate.Inside (0, 0) := by decide
  have own := (always _ punctualCandidate (0, 0) inside).1
  have sameBin := (punctualCandidate.estimatorCell_eq_scorerCell_iff inside).mp own
  exact absurd sameBin (by decide)

end RtlsdrFt8d
