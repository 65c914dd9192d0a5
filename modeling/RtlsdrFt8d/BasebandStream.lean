import RtlsdrFt8d.CicDecimator

/-!
# The baseband stream

The whole of `rtlsdr_callback` up to the copy into the slot buffer: the mixer,
which starts afresh in every buffer, the decimator, and behind it the
compensation filter with its delay lines.  USB transfers cut the byte stream
into buffers, which leaves no trace in what comes out.
-/

namespace RtlsdrFt8d

/-! ## The compensation filter -/

/-- `FIR_TAPS`. -/
def firTaps : Nat := 56

/-- The literals are of type `double`. -/
def zCoef : Vector Float32 (firTaps + 1) :=
  (#v[-0.0025719973, 0.0010118403, 0.0009110571, -0.0034940765,
      0.0069713409, -0.0114242790, 0.0167023466, -0.0223683056,
      0.0276808966, -0.0316243672, 0.0329894230, -0.0305042011,
      0.0230074504, -0.0096499429, -0.0098950502, 0.0352349632,
      -0.0650990428, 0.0972406918, -0.1284211497, 0.1544893973,
      -0.1705667465, 0.1713383321, -0.1514501610, 0.1060148823,
      -0.0312560926, -0.0745846391, 0.2096088743, -0.3638689868,
      0.5000000000,
      -0.3638689868, 0.2096088743, -0.0745846391, -0.0312560926,
      0.1060148823, -0.1514501610, 0.1713383321, -0.1705667465,
      0.1544893973, -0.1284211497, 0.0972406918, -0.0650990428,
      0.0352349632, -0.0098950502, -0.0096499429, 0.0230074504,
      -0.0305042011, 0.0329894230, -0.0316243672, 0.0276808966,
      -0.0223683056, 0.0167023466, -0.0114242790, 0.0069713409,
      -0.0034940765, 0.0009110571, 0.0010118403, -0.0025719973] : Vector Float 57).map
    Float.toFloat32

/-- `firI` or `firQ`. -/
abbrev DelayLine := Vector Float32 firTaps

/-- The loop over the taps: the line moves up by one place, and the last place
is overwritten behind the loop. -/
def DelayLine.shift (fir : DelayLine) (y2 : Int32) : DelayLine :=
  (Vector.ofFn fun j : Fin firTaps =>
    if next : j.val + 1 < firTaps then fir.get ⟨j.val + 1, next⟩ else y2.toFloat32)

/-- `Isum` or `Qsum`: the products with the old line in the order of the loop,
then the one with the new value. -/
def DelayLine.output (fir : DelayLine) (y2 : Int32) : Float32 :=
  (List.finRange firTaps).foldl (fun sum j => sum + fir.get j * zCoef.get j.castSucc) 0 +
    (fir.shift y2).get (Fin.last 55) * zCoef.get (Fin.last firTaps)

/-! ## The callback -/

/-- The static variables of the callback, and the filter outputs so far. -/
structure FilterState where
  decimator : Decimator Int32
  firI : DelayLine
  firQ : DelayLine
  firOutputs : List (Float32 × Float32)

def FilterState.initial : FilterState where
  decimator := .initial
  firI := Vector.replicate firTaps 0
  firQ := Vector.replicate firTaps 0
  firOutputs := []

/-- The body of the decimation loop: a sample that the decimator lets through
goes on to the compensation filter. -/
def filterSample (build : Build) (state : FilterState) (sigIn : Int32 × Int32) : FilterState :=
  let decimator := decimateSample build.downsampling state.decimator sigIn
  if state.decimator.decimationIndex + 1 ≤ build.downsampling then
    { state with decimator := decimator }
  else
    { decimator := decimator
      firI := state.firI.shift decimator.i.y2
      firQ := state.firQ.shift decimator.q.y2
      firOutputs := state.firOutputs ++
        [(state.firI.output decimator.i.y2, state.firQ.output decimator.q.y2)] }

/-- The complex samples of a buffer after the mixer, as the integrators take
them. -/
def SampleBuffer.sigIn (samples : SampleBuffer) : List (Int32 × Int32) :=
  (complexSamples samples.mixed).map (Prod.map Int8.toInt32 Int8.toInt32)

/-- `rtlsdr_callback`. -/
def filterBuffer (build : Build) (state : FilterState) (samples : SampleBuffer) : FilterState :=
  EventRuns.run (filterSample build) state samples.sigIn

/-- The integrators and combs work as if the filter were not there. -/
theorem decimator_filterBuffer (build : Build) (state : FilterState) (samples : SampleBuffer) :
    (filterBuffer build state samples).decimator =
      rtlsdrCallback build Int8.toInt32 state.decimator samples := by
  unfold filterBuffer rtlsdrCallback SampleBuffer.sigIn
  generalize (complexSamples samples.mixed).map (Prod.map Int8.toInt32 Int8.toInt32) = stream
  induction stream generalizing state with
  | nil => rfl
  | cons sigIn stream ih =>
      rw [EventRuns.run_cons, EventRuns.run_cons, ih]
      congr 1
      unfold filterSample
      dsimp only
      split <;> rfl

/-! ## Cuts -/

/-- A buffer of whole groups ends with the phase that the next one starts
with. -/
theorem economicMixer_append (bytes more : List Int8) (whole : 8 ∣ bytes.length) :
    economicMixer (bytes ++ more) = economicMixer bytes ++ economicMixer more := by
  fun_induction economicMixer bytes with
  | case1 s0 s1 s2 s3 s4 s5 s6 s7 rest _ _ _ _ _ _ _ _ _ _ ih =>
      have restWhole : 8 ∣ rest.length := by
        simp only [List.length_cons] at whole
        omega
      simp only [List.cons_append, economicMixer, ih restWhole]
      rfl
  | case2 bytes short =>
      match bytes with
      | [] => rfl
      | s0 :: s1 :: s2 :: s3 :: s4 :: s5 :: s6 :: s7 :: rest =>
          exact absurd rfl (short s0 s1 s2 s3 s4 s5 s6 s7 rest)
      | [_] | [_, _] | [_, _, _] | [_, _, _, _] | [_, _, _, _, _] | [_, _, _, _, _, _]
      | [_, _, _, _, _, _, _] =>
          simp only [List.length_cons, List.length_nil] at whole
          omega

theorem complexSamples_append (sigIn more : List Int8) (even : 2 ∣ sigIn.length) :
    complexSamples (sigIn ++ more) = complexSamples sigIn ++ complexSamples more := by
  fun_induction complexSamples sigIn with
  | case1 sampleI sampleQ rest ih =>
      have restEven : 2 ∣ rest.length := by
        simp only [List.length_cons] at even
        omega
      rw [List.cons_append, List.cons_append, complexSamples, ih restEven, List.cons_append]
  | case2 sigIn short =>
      match sigIn with
      | [] => rfl
      | [_] => simp at even
      | sampleI :: sampleQ :: rest => exact absurd rfl (short sampleI sampleQ rest)

/-- The bytes that a sequence of buffers holds. -/
def bytesIn (buffers : List SampleBuffer) : List UInt8 :=
  buffers.flatMap SampleBuffer.bytes

theorem flatMap_mixed (buffers : List SampleBuffer) :
    buffers.flatMap SampleBuffer.mixed = economicMixer ((bytesIn buffers).map UInt8.toInt8) := by
  induction buffers with
  | nil => rfl
  | cons samples buffers ih =>
      have whole : 8 ∣ (samples.bytes.map UInt8.toInt8).length := by
        rw [List.length_map]
        exact samples.whole
      have joined : bytesIn (samples :: buffers) = samples.bytes ++ bytesIn buffers :=
        List.flatMap_cons
      rw [List.flatMap_cons, ih, joined, List.map_append, economicMixer_append _ _ whole,
        SampleBuffer.mixed]

theorem flatMap_sigIn (buffers : List SampleBuffer) :
    buffers.flatMap SampleBuffer.sigIn =
      (complexSamples (buffers.flatMap SampleBuffer.mixed)).map
        (Prod.map Int8.toInt32 Int8.toInt32) := by
  induction buffers with
  | nil => rfl
  | cons samples buffers ih =>
      have even : 2 ∣ samples.mixed.length := by
        rw [SampleBuffer.mixed, length_economicMixer, List.length_map]
        exact (by decide : 2 ∣ 8).trans samples.whole
      rw [List.flatMap_cons, List.flatMap_cons, ih, complexSamples_append _ _ even,
        List.map_append, SampleBuffer.sigIn]

/-- However a byte stream is cut into buffers, the callbacks leave the same
mixed bytes, the same outputs of the compensation filter and the same state. -/
theorem filterBuffers_eq_of_bytesIn_eq (build : Build) (state : FilterState)
    (buffers others : List SampleBuffer) (sameBytes : bytesIn buffers = bytesIn others) :
    buffers.flatMap SampleBuffer.mixed = others.flatMap SampleBuffer.mixed ∧
      EventRuns.run (filterBuffer build) state buffers =
        EventRuns.run (filterBuffer build) state others := by
  have sameMixed : buffers.flatMap SampleBuffer.mixed = others.flatMap SampleBuffer.mixed := by
    rw [flatMap_mixed, flatMap_mixed, sameBytes]
  refine ⟨sameMixed, ?_⟩
  calc EventRuns.run (filterBuffer build) state buffers
      = EventRuns.run (filterSample build) state (buffers.flatMap SampleBuffer.sigIn) :=
        (EventRuns.run_flatMap _ _ _ _).symm
    _ = EventRuns.run (filterSample build) state (others.flatMap SampleBuffer.sigIn) := by
        rw [flatMap_sigIn, sameMixed, ← flatMap_sigIn]
    _ = EventRuns.run (filterBuffer build) state others := EventRuns.run_flatMap _ _ _ _

/-- Sixteen bytes in one transfer. -/
def wholeTransfer : SampleBuffer where
  bytes := [0, 255, 3, 7, 128, 129, 130, 131, 1, 2, 3, 4, 5, 6, 7, 8]
  whole := by decide

/-- The same bytes in two. -/
def halfTransfers : List SampleBuffer :=
  [⟨[0, 255, 3, 7, 128, 129, 130, 131], by decide⟩, ⟨[1, 2, 3, 4, 5, 6, 7, 8], by decide⟩]

theorem filterBuffers_halfTransfers :
    bytesIn [wholeTransfer] = bytesIn halfTransfers ∧
      EventRuns.run (filterBuffer .wide) .initial [wholeTransfer] =
        EventRuns.run (filterBuffer .wide) .initial halfTransfers :=
  ⟨by decide, (filterBuffers_eq_of_bytesIn_eq .wide .initial [wholeTransfer] halfTransfers
    (by decide)).2⟩

end RtlsdrFt8d
