import RtlsdrFt8d.CicDecimator

/-!
# The rate of the decimator

The counter is increased before it is compared with `DOWNSAMPLING`, so a block
that yields one baseband sample is one receiver sample longer than the ratio of
the two rates.
-/

namespace RtlsdrFt8d

variable {α : Type*} [Add α] [Sub α]

/-! ## The counter -/

/-- After `count` samples the counter and the number of baseband samples tell
`count` in blocks of `downsampling + 1`. -/
structure CountsBlocks (downsampling : UInt32) (count : Nat) (decimator : Decimator α) :
    Prop where
  total : count =
    decimator.outputs.length * (downsampling.toNat + 1) + decimator.decimationIndex.toNat
  below : decimator.decimationIndex.toNat ≤ downsampling.toNat

theorem decimateSample_of_next {downsampling : UInt32} {decimator : Decimator α}
    (next : decimator.decimationIndex + 1 ≤ downsampling) (sigIn : α × α) :
    decimateSample downsampling decimator sigIn =
      { decimator.integrate sigIn with decimationIndex := decimator.decimationIndex + 1 } := by
  simp [decimateSample, Decimator.integrate, next]

theorem decimateSample_of_full {downsampling : UInt32} {decimator : Decimator α}
    (full : ¬ decimator.decimationIndex + 1 ≤ downsampling) (sigIn : α × α) :
    decimateSample downsampling decimator sigIn =
      { (decimator.integrate sigIn).comb with decimationIndex := 0 } := by
  simp [decimateSample, Decimator.integrate, full]

theorem countsBlocks_decimateSample {downsampling : UInt32} {count : Nat}
    {decimator : Decimator α} (noWrap : downsampling.toNat + 1 < 2 ^ 32)
    (counts : CountsBlocks downsampling count decimator) (sigIn : α × α) :
    CountsBlocks downsampling (count + 1) (decimateSample downsampling decimator sigIn) := by
  obtain ⟨total, below⟩ := counts
  have increased : (decimator.decimationIndex + 1).toNat =
      decimator.decimationIndex.toNat + 1 := by
    rw [UInt32.toNat_add]
    exact Nat.mod_eq_of_lt (by rw [UInt32.toNat_one]; omega)
  by_cases next : decimator.decimationIndex + 1 ≤ downsampling
  · rw [decimateSample_of_next next]
    have small := UInt32.le_iff_toNat_le.mp next
    rw [increased] at small
    refine ⟨?_, increased ▸ small⟩
    change count + 1 = decimator.outputs.length * (downsampling.toNat + 1) +
      (decimator.decimationIndex + 1).toNat
    rw [increased, total, Nat.add_assoc]
  · rw [decimateSample_of_full next]
    have large : downsampling.toNat < decimator.decimationIndex.toNat + 1 := by
      rw [← increased]
      exact UInt32.lt_iff_toNat_lt.mp (UInt32.not_le.mp next)
    refine ⟨?_, Nat.zero_le _⟩
    change count + 1 = (decimator.outputs ++ [_]).length * (downsampling.toNat + 1) + 0
    rw [List.length_append, List.length_singleton, Nat.succ_mul, total]
    omega

theorem countsBlocks_run [Zero α] {downsampling : UInt32}
    (noWrap : downsampling.toNat + 1 < 2 ^ 32) (stream : List (α × α)) :
    CountsBlocks downsampling stream.length
      (EventRuns.run (decimateSample downsampling) .initial stream) := by
  induction stream using List.reverseRecOn with
  | nil => exact ⟨by simp [Decimator.initial], Nat.zero_le _⟩
  | append_singleton stream sigIn ih =>
      rw [List.length_append, EventRuns.run_append]
      exact countsBlocks_decimateSample noWrap ih sigIn

/-- The decimator lets one sample through for every `downsampling + 1`. -/
theorem length_outputs_run [Zero α] {downsampling : UInt32}
    (noWrap : downsampling.toNat + 1 < 2 ^ 32) (stream : List (α × α)) :
    (EventRuns.run (decimateSample downsampling) .initial stream).outputs.length =
      stream.length / (downsampling.toNat + 1) := by
  obtain ⟨total, below⟩ := countsBlocks_run noWrap stream
  rw [total, Nat.mul_comm, Nat.mul_add_div (Nat.succ_pos _),
    Nat.div_eq_of_lt (Nat.lt_succ_of_le below), Nat.add_zero]

theorem toNat_downsampling_lt (build : Build) : build.downsampling.toNat + 1 < 2 ^ 32 := by
  cases build <;> decide

theorem length_outputs_receive (build : Build) (buffers : List SampleBuffer) :
    (receive build buffers).outputs.length =
      samplesIn buffers / (build.downsampling.toNat + 1) := by
  obtain ⟨stream, length, received⟩ := receive_eq_run build buffers
  rw [received, length_outputs_run (toNat_downsampling_lt build), length]

/-! ## The documented rate -/

/-- Blocks of `ratio + 1` and blocks of `ratio` fit a number equally often as
long as the blocks and the rest fill no further short block. -/
theorem div_succ_eq_div_iff {ratio : Nat} (positive : 0 < ratio) (count : Nat) :
    count / (ratio + 1) = count / ratio ↔
      count / (ratio + 1) + count % (ratio + 1) < ratio := by
  have split := Nat.div_add_mod count (ratio + 1)
  have blocks : count =
      (count / (ratio + 1) + count % (ratio + 1)) + ratio * (count / (ratio + 1)) := by
    rw [Nat.add_mul, Nat.one_mul] at split
    omega
  have short : count / ratio =
      (count / (ratio + 1) + count % (ratio + 1)) / ratio + count / (ratio + 1) := by
    conv_lhs => rw [blocks]
    rw [Nat.add_mul_div_left _ _ positive]
  rw [short, ← Nat.div_eq_zero_iff_lt positive]
  omega

/-- The callbacks have produced baseband samples at the documented rate. -/
def ProducesAtRate (build : Build) (buffers : List SampleBuffer) : Prop :=
  (receive build buffers).outputs.length = samplesIn buffers / build.downsampling.toNat

/-- The rate is kept exactly as long as the blocks so far and the samples since
the last of them are together fewer than `DOWNSAMPLING`. -/
theorem producesAtRate_iff (build : Build) (buffers : List SampleBuffer) :
    ProducesAtRate build buffers ↔
      samplesIn buffers / (build.downsampling.toNat + 1) +
        samplesIn buffers % (build.downsampling.toNat + 1) < build.downsampling.toNat := by
  rw [ProducesAtRate, length_outputs_receive]
  apply div_succ_eq_div_iff
  cases build <;> decide

/-- Four blocks of 375 complex samples. -/
def fourBlocks : SampleBuffer where
  bytes := List.replicate 3000 128
  whole := by rw [List.length_replicate]; decide

/-- The wide build makes three baseband samples of them. -/
theorem not_producesAtRate_fourBlocks :
    ¬ ∀ build buffers, ProducesAtRate build buffers := by
  intro atRate
  have fourAtRate := atRate .wide [fourBlocks]
  have count : samplesIn [fourBlocks] = 1500 := by
    rw [samplesIn, List.map_singleton, List.sum_singleton, fourBlocks, List.length_replicate]
  rw [ProducesAtRate, length_outputs_receive, count] at fourAtRate
  exact absurd fourAtRate (by decide)

end RtlsdrFt8d
