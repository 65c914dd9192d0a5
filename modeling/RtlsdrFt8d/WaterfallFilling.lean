import Mathlib.Data.Rat.Floor
import RtlsdrFt8d.CicDecimator
import RtlsdrFt8d.CountedLoops
import RtlsdrFt8d.WaterfallCells

/-!
# Filling of the waterfall

`ft8_subsystem` slides a window over the samples of a slot and stores the bins
of each spectrum behind one running offset, with all sizes derived from the
sample rate.  The decoder addresses the cells again by block, bin and
subdivisions, and turns a bin into a frequency.
-/

namespace RtlsdrFt8d

open CountedLoops

/-! ## Derived sizes -/

/-- `SIGNAL_LENGHT`. -/
def signalLength : Nat := 15

/-- `K_FREQ_OSR`. -/
def kFreqOsr : Nat := 2

/-- `K_TIME_OSR`. -/
def kTimeOsr : Nat := 2

/-- `K_FSK_DEV`. -/
def kFskDev : ℚ := 6.25

/-- `FT8_SYMBOL_PERIOD`. -/
def ft8SymbolPeriod : ℚ := 0.160

section DerivedSizes

variable (signalSampleRate : Nat)

def numBin : Nat :=
  ⌊signalSampleRate / (2 * kFskDev)⌋₊

def blockSize : Nat :=
  ⌊signalSampleRate / kFskDev⌋₊

def subBlockSize : Nat :=
  blockSize signalSampleRate / kTimeOsr

def nfft : Nat :=
  blockSize signalSampleRate * kFreqOsr

def numBlocks : Nat :=
  (signalLength * signalSampleRate - nfft signalSampleRate + subBlockSize signalSampleRate) /
    blockSize signalSampleRate

def magArray : Nat :=
  numBlocks signalSampleRate * kFreqOsr * kTimeOsr * numBin signalSampleRate

/-- The geometry that `ft8_subsystem` passes to the decoder. -/
def waterfall : Waterfall where
  numBlocks := numBlocks signalSampleRate
  numBins := numBin signalSampleRate
  timeOsr := kTimeOsr
  freqOsr := kFreqOsr

end DerivedSizes

/-! ## The loops of `ft8_subsystem` -/

/-- One assignment to `mag_power`: its index, the loop variables and the element
of `mag_db` it was computed from. -/
structure MagWrite where
  index : Nat
  block : Nat
  timeSub : Nat
  freqSub : Nat
  pos : Nat
  bin : Nat
  deriving DecidableEq

/-- `offset`, and which elements of the arrays have been accessed. -/
structure Filling where
  offset : Nat
  /-- Indices of `iSamples` and `qSamples`. -/
  samplesRead : List Nat
  /-- Indices of `fft_out` and `mag_db`. -/
  binsRead : List Nat
  writes : List MagWrite

def Filling.empty : Filling where
  offset := 0
  samplesRead := []
  binsRead := []
  writes := []

section Loops

variable (signalSampleRate : Nat)

/-- The body of the innermost loop. -/
def storeBin (idxBlock timeSub freqSub pos : Nat) (filling : Filling) : Filling :=
  let bin := pos * kFreqOsr + freqSub
  { filling with
    binsRead := filling.binsRead ++ [bin]
    writes := filling.writes ++ [⟨filling.offset, idxBlock, timeSub, freqSub, pos, bin⟩]
    offset := filling.offset + 1 }

def storeFreqSub (idxBlock timeSub freqSub : Nat) (filling : Filling) : Filling :=
  loop (numBin signalSampleRate) (storeBin idxBlock timeSub freqSub) filling

/-- The three loops over `NFFT` elements: windowing, and the magnitudes. -/
def transform (idxBlock timeSub : Nat) (filling : Filling) : Filling :=
  let first := idxBlock * blockSize signalSampleRate + timeSub * subBlockSize signalSampleRate
  { filling with
    samplesRead := filling.samplesRead ++
      (List.range (nfft signalSampleRate)).map fun i => first + i
    binsRead := filling.binsRead ++ List.range (nfft signalSampleRate) }

def fillTimeSub (idxBlock timeSub : Nat) (filling : Filling) : Filling :=
  loop kFreqOsr (storeFreqSub signalSampleRate idxBlock timeSub)
    (transform signalSampleRate idxBlock timeSub filling)

def fillBlock (idxBlock : Nat) (filling : Filling) : Filling :=
  loop kTimeOsr (fillTimeSub signalSampleRate idxBlock) filling

def ft8Subsystem : Filling :=
  loop (numBlocks signalSampleRate) (fillBlock signalSampleRate) Filling.empty

end Loops

/-! ## The candidates of the decoder -/

/-- The position in `ftx_candidate_t`. -/
structure CandidatePosition where
  timeOffset : Int16
  freqOffset : Int16
  timeSub : UInt8
  freqSub : UInt8
  deriving DecidableEq

namespace CandidatePosition

variable (wf : Waterfall) (candidate : CandidatePosition)

/-- `get_cand_mag`, relative to `wf->mag`. -/
def getCandMag : Int :=
  let offset := candidate.timeOffset.toInt
  let offset := offset * wf.timeOsr + candidate.timeSub.toNat
  let offset := offset * wf.freqOsr + candidate.freqSub.toNat
  offset * wf.numBins + candidate.freqOffset.toInt

/-- `freq_hz` in `decode`. -/
def freqHz : ℚ :=
  (candidate.freqOffset.toInt + (candidate.freqSub.toNat : ℚ) / wf.freqOsr) / ft8SymbolPeriod

/-- The candidate has the coordinates of a cell. -/
structure At (candidate : CandidatePosition) {wf : Waterfall} (cell : WaterfallCell wf) :
    Prop where
  timeOffset : candidate.timeOffset.toInt = cell.block.val
  timeSub : candidate.timeSub.toNat = cell.timeSub.val
  freqSub : candidate.freqSub.toNat = cell.freqSub.val
  freqOffset : candidate.freqOffset.toInt = cell.bin.val

end CandidatePosition

/-! ## Sizes at an admissible rate -/

/-- The rule for a new rate: it divides the sampling rate of the device, and a
symbol lasts a whole number of samples. -/
structure AdmissibleRate (signalSampleRate : Nat) : Prop where
  divides : signalSampleRate ∣ samplingRate.toNat
  wholeSymbol : ∃ samples : Nat, (ft8SymbolPeriod * signalSampleRate : ℚ) = samples

namespace AdmissibleRate

/-- An admissible rate is a multiple of 25, and so many samples belong to four
symbols. -/
theorem exists_eq {rate : Nat} (admissible : AdmissibleRate rate) :
    ∃ k, rate = 25 * k ∧ 0 < k ∧ k ∣ 96000 := by
  obtain ⟨samples, whole⟩ := admissible.wholeSymbol
  have fourSymbols : 4 * rate = 25 * samples := by
    have scaled : (4 * rate : ℚ) = 25 * samples := by
      rw [← whole, ft8SymbolPeriod]
      ring
    exact_mod_cast scaled
  obtain ⟨k, rfl⟩ : 25 ∣ rate := by omega
  have divides : 25 * k ∣ 25 * 96000 := admissible.divides
  have dividesRest : k ∣ 96000 := Nat.dvd_of_mul_dvd_mul_left (by omega) divides
  exact ⟨k, rfl, Nat.pos_of_dvd_of_pos dividesRest (by omega), dividesRest⟩

end AdmissibleRate

section Sizes

variable {k : Nat}

theorem numBin_eq : numBin (25 * k) = 2 * k := by
  have quotient : ((25 * k : Nat) : ℚ) / (2 * kFskDev) = (2 * k : Nat) := by
    rw [kFskDev]
    push_cast
    ring
  rw [numBin, quotient, Nat.floor_natCast]

theorem blockSize_eq : blockSize (25 * k) = 4 * k := by
  have quotient : ((25 * k : Nat) : ℚ) / kFskDev = (4 * k : Nat) := by
    rw [kFskDev]
    push_cast
    ring
  rw [blockSize, quotient, Nat.floor_natCast]

theorem subBlockSize_eq : subBlockSize (25 * k) = 2 * k := by
  rw [subBlockSize, blockSize_eq, kTimeOsr]
  omega

theorem nfft_eq : nfft (25 * k) = 8 * k := by
  rw [nfft, blockSize_eq, kFreqOsr]
  omega

/-- The number of blocks does not depend on the rate. -/
theorem numBlocks_eq (positive : 0 < k) : numBlocks (25 * k) = 92 := by
  rw [numBlocks, blockSize_eq, subBlockSize_eq, nfft_eq, signalLength]
  have total : 15 * (25 * k) - 8 * k + 2 * k = k + 4 * k * 92 := by omega
  rw [total, Nat.add_mul_div_left _ _ (by omega), Nat.div_eq_of_lt (by omega)]

theorem magArray_eq (positive : 0 < k) : magArray (25 * k) = 736 * k := by
  rw [magArray, numBlocks_eq positive, numBin_eq, kFreqOsr, kTimeOsr]
  omega

end Sizes

/-- The waterfalls of the two builds are small enough to be searched. -/
def searchedWaterfall (build : Build) : SearchedWaterfall where
  toWaterfall := waterfall build.signalSampleRate.toNat
  numBins_le := by
    cases build with
    | wide => exact (@numBin_eq 256).trans_le (by decide)
    | narrowband => exact (@numBin_eq 128).trans_le (by decide)
  timeOsr_le := show kTimeOsr ≤ 255 by decide
  freqOsr_le := show kFreqOsr ≤ 255 by decide

/-- In both builds the waterfall of a slot has blocks enough for the decoder. -/
theorem numBlocks_searchedWaterfall (build : Build) :
    (searchedWaterfall build).numBlocks = 92 := by
  cases build with
  | wide => exact @numBlocks_eq 256 (by decide)
  | narrowband => exact @numBlocks_eq 128 (by decide)

/-! ## The filled waterfall -/

/-- The assignment that fills a cell: it stores the element of the spectrum at
the cell's bin and subdivision. -/
def writeOf {rate : Nat} (cell : WaterfallCell (waterfall rate)) : MagWrite where
  index := cell.index
  block := cell.block
  timeSub := cell.timeSub
  freqSub := cell.freqSub
  pos := cell.bin
  bin := cell.bin * kFreqOsr + cell.freqSub

/-- The first `count` elements of the waterfall have been filled, and nothing
else has been touched. -/
structure Filled (rate count : Nat) (filling : Filling) : Prop where
  offset : filling.offset = count
  samples : ∀ i ∈ filling.samplesRead, i < signalLength * rate
  bins : ∀ bin ∈ filling.binsRead, bin < nfft rate
  indices : filling.writes.map MagWrite.index = List.range count
  cells : ∀ write ∈ filling.writes,
    ∃ cell : WaterfallCell (waterfall rate), write = writeOf cell

namespace Filled

variable {rate : Nat} {filling : Filling}

theorem storeBin (cell : WaterfallCell (waterfall rate)) (binLt : (writeOf cell).bin < nfft rate)
    (filled : Filled rate cell.index filling) :
    Filled rate (cell.index + 1)
      (storeBin cell.block cell.timeSub cell.freqSub cell.bin filling) where
  offset := congrArg (· + 1) filled.offset
  samples := filled.samples
  bins := by
    intro bin binMem
    rcases List.mem_append.mp binMem with early | isLast
    · exact filled.bins bin early
    · rw [List.mem_singleton.mp isLast]
      exact binLt
  indices := by
    rw [RtlsdrFt8d.storeBin, List.map_append, filled.indices, List.range_succ, filled.offset]
    rfl
  cells := by
    intro write writeMem
    rcases List.mem_append.mp writeMem with early | isLast
    · exact filled.cells write early
    · refine ⟨cell, ?_⟩
      rw [List.mem_singleton.mp isLast, filled.offset]
      rfl

theorem transform {count idxBlock timeSub : Nat}
    (lastSample : idxBlock * blockSize rate + timeSub * subBlockSize rate + nfft rate ≤
      signalLength * rate)
    (filled : Filled rate count filling) :
    Filled rate count (transform rate idxBlock timeSub filling) where
  offset := filled.offset
  samples := by
    intro i iMem
    rcases List.mem_append.mp iMem with early | window
    · exact filled.samples i early
    · obtain ⟨offset, offsetMem, rfl⟩ := List.mem_map.mp window
      have offsetLt := List.mem_range.mp offsetMem
      omega
  bins := by
    intro bin binMem
    rcases List.mem_append.mp binMem with early | window
    · exact filled.bins bin early
    · exact List.mem_range.mp window
  indices := filled.indices
  cells := filled.cells

/-- The rows of the waterfall: one for each block and pair of subdivisions. -/
theorem storeFreqSub {idxBlock timeSub freqSub : Nat} (blockLt : idxBlock < numBlocks rate)
    (timeSubLt : timeSub < kTimeOsr) (freqSubLt : freqSub < kFreqOsr)
    (binsLt : ∀ pos < numBin rate, pos * kFreqOsr + freqSub < nfft rate)
    (filled : Filled rate
      (((idxBlock * kTimeOsr + timeSub) * kFreqOsr + freqSub) * numBin rate) filling) :
    Filled rate (((idxBlock * kTimeOsr + timeSub) * kFreqOsr + (freqSub + 1)) * numBin rate)
      (storeFreqSub rate idxBlock timeSub freqSub filling) := by
  rw [← Nat.add_assoc, Nat.succ_mul]
  apply loop_invariant fun pos => Filled rate
    (((idxBlock * kTimeOsr + timeSub) * kFreqOsr + freqSub) * numBin rate + pos)
  · exact filled
  · intro pos posLt filling filled
    let cell : WaterfallCell (waterfall rate) :=
      ⟨⟨idxBlock, blockLt⟩, ⟨timeSub, timeSubLt⟩, ⟨freqSub, freqSubLt⟩, ⟨pos, posLt⟩⟩
    exact filled.storeBin cell (binsLt pos posLt)

end Filled

section AdmissibleSizes

variable {k idxBlock timeSub : Nat} {filling : Filling}

theorem filled_fillTimeSub (positive : 0 < k) (blockLt : idxBlock < numBlocks (25 * k))
    (timeSubLt : timeSub < kTimeOsr)
    (filled : Filled (25 * k)
      ((idxBlock * kTimeOsr + timeSub) * kFreqOsr * numBin (25 * k)) filling) :
    Filled (25 * k) ((idxBlock * kTimeOsr + (timeSub + 1)) * kFreqOsr * numBin (25 * k))
      (fillTimeSub (25 * k) idxBlock timeSub filling) := by
  rw [← Nat.add_assoc, Nat.succ_mul (idxBlock * kTimeOsr + timeSub)]
  apply loop_invariant fun freqSub => Filled (25 * k)
    (((idxBlock * kTimeOsr + timeSub) * kFreqOsr + freqSub) * numBin (25 * k))
  · apply filled.transform
    rw [numBlocks_eq positive] at blockLt
    have blocks : idxBlock * (4 * k) ≤ 91 * (4 * k) :=
      Nat.mul_le_mul_right _ (Nat.le_of_lt_succ blockLt)
    have subBlocks : timeSub * (2 * k) ≤ 1 * (2 * k) :=
      Nat.mul_le_mul_right _ (Nat.le_of_lt_succ timeSubLt)
    rw [blockSize_eq, subBlockSize_eq, nfft_eq, signalLength]
    omega
  · intro freqSub freqSubLt filling filled
    apply filled.storeFreqSub blockLt timeSubLt freqSubLt
    intro pos posLt
    rw [kFreqOsr] at freqSubLt
    rw [numBin_eq] at posLt
    rw [nfft_eq, kFreqOsr]
    omega

theorem filled_fillBlock (positive : 0 < k) (blockLt : idxBlock < numBlocks (25 * k))
    (filled : Filled (25 * k) (idxBlock * kTimeOsr * kFreqOsr * numBin (25 * k)) filling) :
    Filled (25 * k) ((idxBlock + 1) * kTimeOsr * kFreqOsr * numBin (25 * k))
      (fillBlock (25 * k) idxBlock filling) := by
  rw [Nat.succ_mul idxBlock]
  apply loop_invariant fun timeSub => Filled (25 * k)
    ((idxBlock * kTimeOsr + timeSub) * kFreqOsr * numBin (25 * k))
  · exact filled
  · intro timeSub timeSubLt filling filled
    exact filled_fillTimeSub positive blockLt timeSubLt filled

theorem filled_ft8Subsystem (positive : 0 < k) :
    Filled (25 * k) (magArray (25 * k)) (ft8Subsystem (25 * k)) := by
  rw [magArray, Nat.mul_right_comm (numBlocks (25 * k))]
  apply loop_invariant fun idxBlock => Filled (25 * k)
    (idxBlock * kTimeOsr * kFreqOsr * numBin (25 * k))
  · rw [Nat.zero_mul, Nat.zero_mul, Nat.zero_mul]
    exact ⟨rfl, by simp [Filling.empty], by simp [Filling.empty], rfl, by simp [Filling.empty]⟩
  · intro idxBlock blockLt filling filled
    exact filled_fillBlock positive blockLt filled

end AdmissibleSizes

example : waterfall 6400 = widebandWaterfall := by
  change waterfall (25 * 256) = widebandWaterfall
  rw [waterfall, numBlocks_eq (by omega), numBin_eq]
  rfl

theorem size_waterfall (rate : Nat) : (waterfall rate).size = magArray rate := by
  rw [Waterfall.size, Waterfall.blockStride, magArray, waterfall]
  ring

/-- The cells of the waterfall are filled once each. -/
theorem Filled.writeOf_mem {rate : Nat} {filling : Filling}
    (filled : Filled rate (magArray rate) filling) (cell : WaterfallCell (waterfall rate)) :
    writeOf cell ∈ filling.writes := by
  have indexMem : cell.index ∈ filling.writes.map MagWrite.index := by
    rw [filled.indices, List.mem_range, ← size_waterfall]
    exact cell.index_lt
  obtain ⟨write, writeMem, sameIndex⟩ := List.mem_map.mp indexMem
  obtain ⟨other, rfl⟩ := filled.cells write writeMem
  rwa [← WaterfallCell.index_injective sameIndex]

/-! ## The decoder's view -/

namespace CandidatePosition

variable {candidate : CandidatePosition}

theorem At.getCandMag_eq {wf : Waterfall} {cell : WaterfallCell wf} (isAt : candidate.At cell) :
    candidate.getCandMag wf = cell.index := by
  simp only [getCandMag, WaterfallCell.index, isAt.timeOffset, isAt.timeSub, isAt.freqSub,
    isAt.freqOffset]
  push_cast
  rfl

/-- The frequency of a candidate is the centre of the spectrum's element. -/
theorem At.freqHz_eq {k : Nat} (positive : 0 < k) {cell : WaterfallCell (waterfall (25 * k))}
    (isAt : candidate.At cell) :
    candidate.freqHz (waterfall (25 * k)) =
      (writeOf cell).bin * (25 * k : Nat) / nfft (25 * k) := by
  have nonzero : (k : ℚ) ≠ 0 := by exact_mod_cast positive.ne'
  rw [freqHz, isAt.freqOffset, isAt.freqSub, nfft_eq, ft8SymbolPeriod]
  simp only [waterfall, writeOf, kFreqOsr]
  push_cast
  field_simp
  ring

/-- A candidate reaches the cells whose bin fits in its 16 bits. -/
theorem exists_at_iff {k : Nat} (positive : 0 < k)
    (cell : WaterfallCell (waterfall (25 * k))) :
    (∃ candidate : CandidatePosition, candidate.At cell) ↔ cell.bin.val < 2 ^ 15 := by
  constructor
  · rintro ⟨candidate, isAt⟩
    have bounded := candidate.freqOffset.toInt_lt
    rw [isAt.freqOffset] at bounded
    exact_mod_cast bounded
  · intro binLt
    have blockLt : cell.block.val < 92 := numBlocks_eq positive ▸ cell.block.isLt
    have timeSubLt : cell.timeSub.val < 2 := cell.timeSub.isLt
    have freqSubLt : cell.freqSub.val < 2 := cell.freqSub.isLt
    refine ⟨⟨Int16.ofNat cell.block, Int16.ofNat cell.bin, UInt8.ofNat cell.timeSub,
      UInt8.ofNat cell.freqSub⟩, ?_⟩
    constructor
    · exact Int16.toInt_ofNat_of_lt (by omega)
    · exact UInt8.toNat_ofNat_of_lt' (by simp only [UInt8.size]; omega)
    · exact UInt8.toNat_ofNat_of_lt' (by simp only [UInt8.size]; omega)
    · exact Int16.toInt_ofNat_of_lt binLt

end CandidatePosition

/-- The assignment is made for the coordinates of the cell. -/
def MagWrite.Fills (write : MagWrite) {wf : Waterfall} (cell : WaterfallCell wf) : Prop :=
  write.block = cell.block ∧ write.timeSub = cell.timeSub ∧ write.freqSub = cell.freqSub ∧
    write.pos = cell.bin

/-- The loops stay inside of all arrays and fill every element once, and for
each cell the decoder finds what was stored for it, at the frequency it came
from. -/
structure FilledConsistently (rate : Nat) (filling : Filling) : Prop where
  offsetFits : magArray rate < 2 ^ 31
  samples : ∀ i ∈ filling.samplesRead, i < signalLength * rate
  bins : ∀ bin ∈ filling.binsRead, bin < nfft rate
  indices : filling.writes.map MagWrite.index = List.range (magArray rate)
  cells : ∀ cell : WaterfallCell (waterfall rate), ∃ write ∈ filling.writes,
    write.Fills cell ∧ (∀ other ∈ filling.writes, other.Fills cell → other = write) ∧
      write.bin = cell.bin * kFreqOsr + cell.freqSub ∧
      ∀ candidate : CandidatePosition, candidate.At cell →
        candidate.getCandMag (waterfall rate) = write.index ∧
        candidate.freqHz (waterfall rate) =
          (cell.bin * kFreqOsr + cell.freqSub : Nat) * rate / nfft rate

/-- At every admissible rate the waterfall is read as it was filled. -/
theorem filledConsistently_ft8Subsystem {rate : Nat} (admissible : AdmissibleRate rate) :
    FilledConsistently rate (ft8Subsystem rate) := by
  obtain ⟨k, rfl, positive, divides⟩ := admissible.exists_eq
  have filled := filled_ft8Subsystem positive
  refine ⟨?_, filled.samples, filled.bins, filled.indices, ?_⟩
  · have small := Nat.le_of_dvd (by omega) divides
    rw [magArray_eq positive]
    omega
  · intro cell
    refine ⟨writeOf cell, filled.writeOf_mem cell, ⟨rfl, rfl, rfl, rfl⟩, ?_, rfl, ?_⟩
    · rintro write writeMem ⟨block, timeSub, freqSub, pos⟩
      obtain ⟨other, rfl⟩ := filled.cells write writeMem
      congr 1
      exact WaterfallCell.ext (Fin.ext block) (Fin.ext timeSub) (Fin.ext freqSub) (Fin.ext pos)
    · intro candidate isAt
      exact ⟨isAt.getCandMag_eq, isAt.freqHz_eq positive⟩

theorem filledConsistently_ft8Subsystem_wide :
    FilledConsistently 6400 (ft8Subsystem 6400) :=
  filledConsistently_ft8Subsystem
    ⟨by decide, 1024, by rw [ft8SymbolPeriod]; norm_num⟩

end RtlsdrFt8d
