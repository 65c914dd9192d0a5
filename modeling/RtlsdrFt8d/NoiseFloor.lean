import Mathlib.Algebra.Order.Ring.Nat
import Mathlib.Data.Rat.Defs
import Mathlib.Algebra.Order.Ring.Unbundled.Rat
import RtlsdrFt8d.ExchangeSort

/-!
# The noise floor

`noiseFloorPower` takes the median of at most 8192 cells of the waterfall, at a
stride that is meant to spread them over the whole slot.  The stride is a
truncated quotient, and the array may be full before the slot is.
-/

namespace RtlsdrFt8d

/-- The fields of `ftx_waterfall_t` that `noiseFloorPower` reads. -/
structure WaterfallPower where
  numBlocks : Int32
  blockStride : Int32
  mag : Nat → UInt8

/-- The size of `samples`. -/
def samplesSize : Nat := 8192

namespace WaterfallPower

variable (wf : WaterfallPower)

/-- `total`, a `long`. -/
def total : Int :=
  wf.numBlocks.toInt * wf.blockStride.toInt

/-- `step`, an `int`. -/
def step : Nat :=
  let step := (Int32.ofInt (wf.total.tdiv samplesSize)).toInt
  if step < 1 then 1 else step.toNat

/-- The first loop from index `i` on, where `samples` has room for `room` values:
the indices of the cells it samples. -/
def sampledFrom : (room : Nat) → (i : Nat) → List Nat
  | 0, _ => []
  | room + 1, i => if i < wf.total then i :: sampledFrom room (i + wf.step) else []

def sampledCells : List Nat :=
  wf.sampledFrom samplesSize 0

/-- The value of a cell in decibels. -/
def sample (i : Nat) : ℚ :=
  (wf.mag i).toNat * 0.5 - 120

/-- The values in `samples`, in the order of the loop. -/
def samples : List ℚ :=
  wf.sampledCells.map wf.sample

/-- `medianDb`, or none where the function returns before the sort. -/
def medianDb : Option ℚ :=
  if notEmpty : wf.samples.length = 0 then none
  else
    let sorted := ExchangeSort.sort (⟨wf.samples.toArray, rfl⟩ : Vector ℚ wf.samples.length)
    some (sorted.get ⟨wf.samples.length / 2,
      Nat.div_lt_self (Nat.pos_of_ne_zero notEmpty) Nat.one_lt_two⟩)

/-- At most 8192 cells are sampled, a step apart from the first one up to within
a step of the end, and their median is selected. -/
structure MedianOfSlot : Prop where
  atMost : wf.sampledCells.length ≤ samplesSize
  strided : wf.sampledCells = (List.range wf.sampledCells.length).map (· * wf.step)
  inside : ∀ cell ∈ wf.sampledCells, cell < wf.total
  covers : ∃ last ∈ wf.sampledCells, wf.total ≤ last + wf.step
  median : wf.medianDb = (ExchangeSort.ascending wf.samples)[wf.samples.length / 2]?

/-! ## The sampled cells -/

/-- A loop that has begun at `i` stops at the end of the waterfall or with a full
array. -/
structure Sampled (room i : Nat) (cells : List Nat) : Prop where
  atMost : cells.length ≤ room
  strided : cells = (List.range cells.length).map (i + · * wf.step)
  inside : ∀ cell ∈ cells, cell < wf.total
  stopped : cells.length < room → wf.total ≤ i + cells.length * wf.step

theorem sampled_sampledFrom (room i : Nat) : wf.Sampled room i (wf.sampledFrom room i) := by
  induction room generalizing i with
  | zero => exact ⟨le_rfl, rfl, by simp [sampledFrom], fun full => absurd full (lt_irrefl 0)⟩
  | succ room ih =>
      rw [sampledFrom]
      split
      · next isInside =>
          have rest := ih (i + wf.step)
          refine ⟨Nat.succ_le_succ rest.atMost, ?_, ?_, ?_⟩
          · rw [List.length_cons, List.range_succ_eq_map, List.map_cons, List.map_map,
              Nat.zero_mul, Nat.add_zero]
            refine congrArg (i :: ·) (rest.strided.trans (List.map_congr_left ?_))
            intro k _
            simp only [Function.comp_apply, Nat.succ_mul]
            omega
          · rw [List.forall_mem_cons]
            exact ⟨isInside, rest.inside⟩
          · intro notFull
            have stopped := rest.stopped (Nat.lt_of_succ_lt_succ notFull)
            have oneMore : ((wf.sampledFrom room (i + wf.step)).length + 1 : Int) * wf.step =
                (wf.sampledFrom room (i + wf.step)).length * wf.step + wf.step := by
              rw [Int.add_mul, Int.one_mul]
            rw [List.length_cons]
            push_cast at stopped ⊢
            omega
      · next isOutside =>
          exact ⟨Nat.zero_le _, rfl, by simp, fun _ => by simpa using isOutside⟩

theorem sampled_sampledCells : wf.Sampled samplesSize 0 wf.sampledCells :=
  wf.sampled_sampledFrom samplesSize 0

theorem cast_samplesSize : (samplesSize : Int) = 8192 :=
  rfl

theorem step_pos : 0 < wf.step := by
  simp only [step]
  split <;> omega

theorem step_lt : wf.step < 2 ^ 31 := by
  have bounded := Int32.toInt_lt (Int32.ofInt (wf.total.tdiv samplesSize))
  simp only [step]
  split <;> omega

variable {wf}

/-- The stride of a waterfall that is larger than the array, where it fits in an
`int`. -/
theorem step_eq (large : samplesSize < wf.total) (fits : wf.total < 2 ^ 44) :
    (wf.step : Int) = wf.total / samplesSize := by
  rw [cast_samplesSize] at large ⊢
  have truncated : wf.total.tdiv samplesSize = wf.total / 8192 :=
    Int.tdiv_eq_ediv_of_nonneg (by omega)
  have noWrap : (Int32.ofInt (wf.total / 8192)).toInt = wf.total / 8192 :=
    Int32.toInt_ofInt_of_le (by omega) (by omega)
  simp only [step, truncated, noWrap]
  split <;> omega

/-- The array is large enough for the whole slot at this stride. -/
theorem total_le_iff (nonempty : 0 < wf.total) :
    wf.total ≤ samplesSize * wf.step ↔
      wf.total ≤ samplesSize ∨ (samplesSize : Int) ∣ wf.total ∧ wf.total < 2 ^ 44 := by
  have positive := wf.step_pos
  have bounded := wf.step_lt
  by_cases small : wf.total ≤ samplesSize
  · simp only [small, true_or, iff_true]
    rw [cast_samplesSize] at small ⊢
    omega
  · by_cases fits : wf.total < 2 ^ 44
    · have stride := step_eq (by omega) fits
      rw [cast_samplesSize] at small stride ⊢
      omega
    · rw [cast_samplesSize] at small ⊢
      omega

/-- The last sampled cell is a step from the end exactly if the array does not
fill up before. -/
theorem covers_iff (nonempty : 0 < wf.total) :
    (∃ last ∈ wf.sampledCells, wf.total ≤ last + wf.step) ↔
      wf.total ≤ samplesSize * wf.step := by
  obtain ⟨atMost, strided, -, stopped⟩ := wf.sampled_sampledCells
  constructor
  · rintro ⟨last, lastMem, covered⟩
    rw [strided] at lastMem
    obtain ⟨k, kMem, rfl⟩ := List.mem_map.mp lastMem
    have kLt : k + 1 ≤ samplesSize := (List.mem_range.mp kMem).trans_le atMost
    have stride : (k + 1 : Int) * wf.step ≤ samplesSize * wf.step := by
      exact_mod_cast Nat.mul_le_mul_right wf.step kLt
    have lastStep : (k + 1 : Int) * wf.step = k * wf.step + wf.step := by
      rw [Int.add_mul, Int.one_mul]
    push_cast at covered
    omega
  · intro enough
    -- Whether the loop stops at the end or with a full array, it has come far enough.
    have reached : wf.total ≤ wf.sampledCells.length * wf.step := by
      rcases atMost.lt_or_eq with notFull | full
      · simpa using stopped notFull
      · rwa [full]
    obtain ⟨count, isCount⟩ : ∃ count, wf.sampledCells.length = count + 1 := by
      apply Nat.exists_eq_succ_of_ne_zero
      intro none
      rw [none] at reached
      simp at reached
      omega
    have lastMem : 0 + count * wf.step ∈ wf.sampledCells := by
      rw [strided, isCount]
      exact List.mem_map_of_mem (List.mem_range.mpr (Nat.lt_succ_self count))
    refine ⟨_, lastMem, ?_⟩
    rw [isCount] at reached
    push_cast at reached ⊢
    rw [Int.add_mul, Int.one_mul] at reached
    omega

/-- The selected value has the rank `n / 2`. -/
theorem medianDb_eq (nonempty : wf.samples.length ≠ 0) :
    wf.medianDb = (ExchangeSort.ascending wf.samples)[wf.samples.length / 2]? := by
  have sorts := ExchangeSort.toList_sort
    (⟨wf.samples.toArray, rfl⟩ : Vector ℚ wf.samples.length)
  change _ = ExchangeSort.ascending wf.samples at sorts
  have inside : wf.samples.length / 2 < wf.samples.length :=
    Nat.div_lt_self (Nat.pos_of_ne_zero nonempty) Nat.one_lt_two
  rw [medianDb, dif_neg nonempty, ← sorts, List.getElem?_eq_getElem (by simpa using inside)]
  simp [Vector.get]

/-- All but the coverage holds of every waterfall. -/
theorem medianOfSlot_iff_covers (nonempty : 0 < wf.total) :
    wf.MedianOfSlot ↔ ∃ last ∈ wf.sampledCells, wf.total ≤ last + wf.step := by
  obtain ⟨atMost, strided, inside, -⟩ := wf.sampled_sampledCells
  have first : 0 ∈ wf.sampledCells := by
    have isInside : ((0 : Nat) : Int) < wf.total := nonempty
    change 0 ∈ wf.sampledFrom (8191 + 1) 0
    rw [sampledFrom, if_pos isInside]
    exact List.mem_cons_self
  have sampledSome : wf.samples.length ≠ 0 := by
    rw [samples, List.length_map]
    exact (List.length_pos_of_mem first).ne'
  constructor
  · exact fun isMedian => isMedian.covers
  · intro covers
    refine ⟨atMost, ?_, inside, covers, medianDb_eq sampledSome⟩
    simpa only [Nat.zero_add] using strided

/-- The median is taken over the whole slot exactly if the waterfall is no larger
than the array, or a multiple of it with a stride that is an `int`. -/
theorem medianOfSlot_iff (wf : WaterfallPower) (nonempty : 0 < wf.total) :
    wf.MedianOfSlot ↔
      wf.total ≤ samplesSize ∨ (samplesSize : Int) ∣ wf.total ∧ wf.total < 2 ^ 44 :=
  (medianOfSlot_iff_covers nonempty).trans ((covers_iff nonempty).trans (total_le_iff nonempty))

/-- A silent waterfall of a build: 92 blocks at the stride of its sample rate. -/
def silent (blockStride : Int32) : WaterfallPower where
  numBlocks := 92
  blockStride := blockStride
  mag _ := 0

/-- The wide build samples every 23rd cell, up to the last 23. -/
theorem medianOfSlot_iff_wide :
    0 < (silent 2048).total ∧ ((silent 2048).MedianOfSlot ↔
      (silent 2048).total ≤ samplesSize ∨
        (samplesSize : Int) ∣ (silent 2048).total ∧ (silent 2048).total < 2 ^ 44) :=
  ⟨by decide, medianOfSlot_iff (silent 2048) (by decide)⟩

/-- The narrow build samples every 11th cell, and leaves out the last four
blocks. -/
theorem not_medianOfSlot_narrow :
    ¬ ∀ wf : WaterfallPower, 0 < wf.total → wf.MedianOfSlot := by
  intro always
  have nonempty : 0 < (silent 1024).total := by decide
  have covers := (covers_iff nonempty).mp (always (silent 1024) nonempty).covers
  have tooSmall : ¬ (silent 1024).total ≤ samplesSize * (silent 1024).step := by decide
  exact tooSmall covers

end WaterfallPower

end RtlsdrFt8d
