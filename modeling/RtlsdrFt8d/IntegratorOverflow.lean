import RtlsdrFt8d.CombSection
import RtlsdrFt8d.DecimationRate

/-!
# Overflow of the integrators

The two integrators grow without bound and wrap around many times a minute.
The combs take the growth back, so their outputs are moving sums of moving sums
of the samples, whatever group the sums are taken in.  Over the integers such an
output is bounded by the gain of the filter, which is far below 2^31, and the
32 bits of the code carry it exactly.
-/

namespace RtlsdrFt8d

open CicFilters

/-! ## The outputs as moving sums -/

section Outputs

variable {α : Type*} [AddCommGroup α]

/-- A channel after the inputs up to `n` and `m` decimation instants, one every
`block` inputs. -/
structure FollowsInput (x : Signal α) (block n m : ℕ) (channel : CicChannel α) : Prop where
  x1 : channel.x1 = (runningSum x).value n
  x2 : channel.x2 = (runningSum (runningSum x)).value n
  delays : HoldsDelays (decimated block (runningSum (runningSum x))) m channel

/-- The output at the `m`-th decimation instant. -/
def combOutput (x : Signal α) (block m : ℕ) : α :=
  ((movingSum (2 * block))^[2] x).value (m * block)

variable {x : Signal α} {block n m : ℕ} {channel : CicChannel α}

theorem followsInput_initial (x : Signal α) (block : ℕ) :
    FollowsInput x block 0 0 CicChannel.initial where
  x1 := rfl
  x2 := rfl
  delays := holdsDelays_initial _ 0 0

theorem followsInput_integrate (follows : FollowsInput x block n m channel) :
    FollowsInput x block (n + 1) m (channel.integrate (x.value (n + 1))) where
  x1 := by
    rw [value_runningSum_succ, ← follows.x1]
    rfl
  x2 := by
    rw [value_runningSum_succ, value_runningSum_succ, ← follows.x1, ← follows.x2]
    rfl
  delays := ⟨follows.delays.t1y, follows.delays.t1z, follows.delays.t2y, follows.delays.t2z⟩

theorem x2_atInstant (follows : FollowsInput x block n m channel) (instant : n = (m + 1) * block) :
    channel.x2 = (decimated block (runningSum (runningSum x))).value (m + 1) := by
  rw [follows.x2, instant]
  rfl

theorem followsInput_comb (follows : FollowsInput x block n m channel)
    (instant : n = (m + 1) * block) : FollowsInput x block n (m + 1) channel.comb where
  x1 := follows.x1
  x2 := follows.x2
  delays := holdsDelays_comb follows.delays (x2_atInstant follows instant)

/-- Behind the rate reduction two combs of delay two undo the two integrators up
to moving sums over two blocks. -/
theorem y2_of_followsInput (follows : FollowsInput x block n m channel)
    (instant : n = (m + 1) * block) : channel.comb.y2 = combOutput x block (m + 1) := by
  rw [y2_comb follows.delays (x2_atInstant follows instant), comb_decimated, comb_decimated,
    value_decimated, combOutput, ← comb_iterate_runningSum_iterate]
  rfl

/-- The first `count` samples of a stream. -/
def firstSamples {β : Type*} (stream : ℕ → β) (count : ℕ) : List β :=
  (List.range count).map stream

theorem firstSamples_succ {β : Type*} (stream : ℕ → β) (count : ℕ) :
    firstSamples stream (count + 1) = firstSamples stream count ++ [stream count] := by
  simp [firstSamples, List.range_succ]

/-- The decimator after `count` samples of a stream. -/
structure FollowsStream (downsampling : UInt32) (stream : ℕ → α × α) (count : ℕ)
    (decimator : Decimator α) : Prop where
  counts : CountsBlocks downsampling count decimator
  i : FollowsInput (fromRest fun k => (stream k).1) (downsampling.toNat + 1) count
    decimator.outputs.length decimator.i
  q : FollowsInput (fromRest fun k => (stream k).2) (downsampling.toNat + 1) count
    decimator.outputs.length decimator.q
  outputs : decimator.outputs = (List.range decimator.outputs.length).map fun m =>
    (combOutput (fromRest fun k => (stream k).1) (downsampling.toNat + 1) (m + 1),
      combOutput (fromRest fun k => (stream k).2) (downsampling.toNat + 1) (m + 1))

theorem followsStream_decimateSample {downsampling : UInt32} {stream : ℕ → α × α} {count : ℕ}
    {decimator : Decimator α} (noWrap : downsampling.toNat + 1 < 2 ^ 32)
    (follows : FollowsStream downsampling stream count decimator) :
    FollowsStream downsampling stream (count + 1)
      (decimateSample downsampling decimator (stream count)) := by
  have counts := countsBlocks_decimateSample noWrap follows.counts (stream count)
  have inputI := followsInput_integrate follows.i
  have inputQ := followsInput_integrate follows.q
  by_cases next : decimator.decimationIndex + 1 ≤ downsampling
  · rw [decimateSample_of_next next] at counts ⊢
    exact ⟨counts, inputI, inputQ, follows.outputs⟩
  · rw [decimateSample_of_full next] at counts ⊢
    have instant : count + 1 = (decimator.outputs.length + 1) * (downsampling.toNat + 1) := by
      have total := counts.total
      simpa [Decimator.comb, Decimator.integrate] using total
    have outputI := y2_of_followsInput inputI instant
    have outputQ := y2_of_followsInput inputQ instant
    refine ⟨counts, ?_, ?_, ?_⟩
    · simpa [Decimator.comb, Decimator.integrate] using followsInput_comb inputI instant
    · simpa [Decimator.comb, Decimator.integrate] using followsInput_comb inputQ instant
    · change decimator.outputs ++ [_] = (List.range (decimator.outputs ++ [_]).length).map _
      rw [List.length_append, List.length_singleton, List.range_succ, List.map_append,
        ← follows.outputs, List.map_singleton, ← outputI, ← outputQ]
      rfl

theorem followsStream_run {downsampling : UInt32} (noWrap : downsampling.toNat + 1 < 2 ^ 32)
    (stream : ℕ → α × α) (count : ℕ) :
    FollowsStream downsampling stream count
      (EventRuns.run (decimateSample downsampling) .initial (firstSamples stream count)) := by
  induction count with
  | zero =>
      exact ⟨countsBlocks_run noWrap [], followsInput_initial _ _, followsInput_initial _ _, rfl⟩
  | succ count ih =>
      rw [firstSamples_succ, EventRuns.run_append]
      exact followsStream_decimateSample noWrap ih

end Outputs

/-! ## Wrapping -/

/-- Reduction modulo 2^32, to the representatives of an `int32_t`. -/
def wrap : ℤ →+ Int32 where
  toFun := Int32.ofInt
  map_zero' := rfl
  map_add' := Int32.ofInt_add

theorem combOutput_wrap (samples : ℕ → Int8) (block m : ℕ) :
    combOutput (fromRest fun k => (samples k).toInt32) block m =
      wrap (combOutput (fromRest fun k => (samples k).toInt) block m) := by
  have reduced : (fromRest fun k => (samples k).toInt32) =
      (fromRest fun k => (samples k).toInt).map wrap := by
    rw [fromRest_map]
    rfl
  rw [combOutput, reduced, ← movingSum_iterate_map]
  rfl

theorem abs_combOutput_le (samples : ℕ → Int8) (block m : ℕ) :
    |combOutput (fromRest fun k => (samples k).toInt) block m| ≤ (2 * block) ^ 2 • (128 : ℤ) := by
  apply abs_movingSum_iterate_le
  intro n
  cases n with
  | zero => exact abs_zero.trans_le (by decide)
  | succ n =>
      have least := (samples n).le_toInt
      have most := (samples n).toInt_lt
      rw [value_fromRest_succ, abs_le]
      omega

/-- The gain of the filter keeps the outputs of both builds in range. -/
theorem abs_combOutput_lt (build : Build) (samples : ℕ → Int8) (m : ℕ) :
    |combOutput (fromRest fun k => (samples k).toInt) (build.downsampling.toNat + 1) m| <
      2 ^ 31 := by
  refine (abs_combOutput_le samples _ m).trans_lt ?_
  cases build <;> decide

/-- `Iy2` and `Qy2` at the decimation instants among the first `count` samples,
with integrators in which `promote` embeds the samples. -/
def combOutputs {α : Type*} [Add α] [Sub α] [Zero α] (build : Build) (promote : Int8 → α)
    (stream : ℕ → Int8 × Int8) (count : ℕ) : List (α × α) :=
  (EventRuns.run (decimateSample build.downsampling) .initial
    (firstSamples (fun k => Prod.map promote promote (stream k)) count)).outputs

theorem combOutputs_eq {α : Type*} [AddCommGroup α] (build : Build) (promote : Int8 → α)
    (stream : ℕ → Int8 × Int8) (count : ℕ) :
    combOutputs build promote stream count =
      (List.range (combOutputs build promote stream count).length).map fun m =>
        (combOutput (fromRest fun k => promote (stream k).1) (build.downsampling.toNat + 1)
            (m + 1),
          combOutput (fromRest fun k => promote (stream k).2) (build.downsampling.toNat + 1)
            (m + 1)) :=
  (followsStream_run (toNat_downsampling_lt build) _ count).outputs

theorem length_combOutputs {α : Type*} [AddCommGroup α] (build : Build) (promote : Int8 → α)
    (stream : ℕ → Int8 × Int8) (count : ℕ) :
    (combOutputs build promote stream count).length =
      count / (build.downsampling.toNat + 1) := by
  rw [combOutputs, length_outputs_run (toNat_downsampling_lt build)]
  simp [firstSamples]

/-- Integrator overflow never corrupts the signal: the comb outputs of the
wrapping arithmetic are those of unbounded integers, and fit. -/
theorem combOutputs_exact (build : Build) (stream : ℕ → Int8 × Int8) (count : ℕ) :
    (combOutputs build Int8.toInt32 stream count).map
        (fun output => (output.1.toInt, output.2.toInt)) =
      combOutputs build Int8.toInt stream count ∧
    ∀ output ∈ combOutputs build Int8.toInt stream count,
      |output.1| < 2 ^ 31 ∧ |output.2| < 2 ^ 31 := by
  have carried (samples : ℕ → Int8) (m : ℕ) :
      (combOutput (fromRest fun k => (samples k).toInt32) (build.downsampling.toNat + 1)
        m).toInt =
        combOutput (fromRest fun k => (samples k).toInt) (build.downsampling.toNat + 1) m := by
    rw [combOutput_wrap]
    obtain ⟨least, most⟩ := abs_lt.mp (abs_combOutput_lt build samples m)
    exact Int32.toInt_ofInt_of_le least.le most
  constructor
  · rw [combOutputs_eq, combOutputs_eq build Int8.toInt, List.map_map, length_combOutputs,
      length_combOutputs]
    apply List.map_congr_left
    intro m _
    exact Prod.ext (carried _ _) (carried _ _)
  · intro output outputMem
    rw [combOutputs_eq] at outputMem
    obtain ⟨m, -, rfl⟩ := List.mem_map.mp outputMem
    exact ⟨abs_combOutput_lt build _ _, abs_combOutput_lt build _ _⟩

end RtlsdrFt8d
