import RtlsdrFt8d.CicFilters
import RtlsdrFt8d.EconomicMixer
import RtlsdrFt8d.EventRuns
import RtlsdrFt8d.StationTypes

/-!
# The decimator of the receiver

The second loop of `rtlsdr_callback`: two integrators at the rate of the
receiver, a counter that lets one sample in a block through, and two combs at
the lower rate, for I and Q alike.  Their state is static, so it runs on from
buffer to buffer.  The compensation filter, which works in floating point, and
the copy into the slot buffer follow once for every sample let through.
-/

namespace RtlsdrFt8d

/-! ## Rates -/

def samplingRate : UInt32 := 2400000

def Build.signalSampleRate : Build → UInt32
  | .wide => 6400
  | .narrowband => 3200

/-- `DOWNSAMPLING`. -/
def Build.downsampling (build : Build) : UInt32 :=
  samplingRate / build.signalSampleRate

/-! ## One channel -/

/-- The static variables of one channel: `Ix1` to `It2z`, or `Qx1` to
`Qt2z`. -/
structure CicChannel (α : Type*) where
  x1 : α
  x2 : α
  y1 : α
  t1y : α
  t1z : α
  y2 : α
  t2y : α
  t2z : α
  deriving DecidableEq

/-- The static variables of the callback, and the values `(Iy2, Qy2)` it has
computed so far, one for each baseband sample. -/
structure Decimator (α : Type*) where
  i : CicChannel α
  q : CicChannel α
  decimationIndex : UInt32
  outputs : List (α × α)

section Stages

variable {α : Type*} [Add α] [Sub α]

namespace CicChannel

def integrate (sigIn : α) (channel : CicChannel α) : CicChannel α :=
  { channel with
    x1 := channel.x1 + sigIn
    x2 := channel.x2 + (channel.x1 + sigIn) }

/-- The first and the second comb.  Each keeps its input of the last two
instants. -/
def comb (channel : CicChannel α) : CicChannel α :=
  { channel with
    y1 := channel.x2 - channel.t1z
    t1z := channel.t1y
    t1y := channel.x2
    y2 := channel.x2 - channel.t1z - channel.t2z
    t2z := channel.t2y
    t2y := channel.x2 - channel.t1z }

def initial [Zero α] : CicChannel α :=
  ⟨0, 0, 0, 0, 0, 0, 0, 0⟩

end CicChannel

namespace Decimator

def initial [Zero α] : Decimator α :=
  ⟨.initial, .initial, 0, []⟩

def integrate (sigIn : α × α) (decimator : Decimator α) : Decimator α :=
  { decimator with
    i := decimator.i.integrate sigIn.1
    q := decimator.q.integrate sigIn.2 }

def comb (decimator : Decimator α) : Decimator α :=
  { decimator with
    i := decimator.i.comb
    q := decimator.q.comb
    outputs := decimator.outputs ++ [(decimator.i.comb.y2, decimator.q.comb.y2)] }

end Decimator

/-- The body of the decimation loop for one complex sample. -/
def decimateSample (downsampling : UInt32) (decimator : Decimator α) (sigIn : α × α) :
    Decimator α :=
  let decimator := decimator.integrate sigIn
  if decimator.decimationIndex + 1 ≤ downsampling then
    { decimator with decimationIndex := decimator.decimationIndex + 1 }
  else { decimator.comb with decimationIndex := 0 }

/-- The loop over `samples_count / 2` complex samples. -/
def complexSamples : List Int8 → List (Int8 × Int8)
  | sampleI :: sampleQ :: rest => (sampleI, sampleQ) :: complexSamples rest
  | _ => []

/-- `rtlsdr_callback`, for integrators in which `promote` embeds the samples. -/
def rtlsdrCallback (build : Build) (promote : Int8 → α) (decimator : Decimator α)
    (samples : SampleBuffer) : Decimator α :=
  EventRuns.run (decimateSample build.downsampling) decimator
    ((complexSamples samples.mixed).map (Prod.map promote promote))

end Stages

/-- The decimator after a sequence of callbacks, in the 32 bits of the code. -/
def receive (build : Build) (buffers : List SampleBuffer) : Decimator Int32 :=
  EventRuns.run (rtlsdrCallback build Int8.toInt32) .initial buffers

/-- The complex samples that a sequence of buffers holds. -/
def samplesIn (buffers : List SampleBuffer) : Nat :=
  (buffers.map fun samples => samples.bytes.length / 2).sum

theorem length_complexSamples (sigIn : List Int8) :
    (complexSamples sigIn).length = sigIn.length / 2 := by
  fun_induction complexSamples sigIn with
  | case1 sampleI sampleQ rest ih =>
      rw [List.length_cons, ih, List.length_cons, List.length_cons]
      omega
  | case2 sigIn short =>
      match sigIn with
      | [] => rfl
      | [_] => simp
      | sampleI :: sampleQ :: rest => exact absurd rfl (short sampleI sampleQ rest)

/-- The callbacks act on one stream of samples, however it is cut into
buffers. -/
theorem receive_eq_run (build : Build) (buffers : List SampleBuffer) :
    ∃ stream : List (Int32 × Int32), stream.length = samplesIn buffers ∧
      receive build buffers =
        EventRuns.run (decimateSample build.downsampling) .initial stream := by
  induction buffers using List.reverseRecOn with
  | nil => exact ⟨[], rfl, rfl⟩
  | append_singleton buffers samples ih =>
      obtain ⟨stream, length, received⟩ := ih
      refine ⟨stream ++ (complexSamples samples.mixed).map
        (Prod.map Int8.toInt32 Int8.toInt32), ?_, ?_⟩
      · rw [List.length_append, length, List.length_map, length_complexSamples,
          SampleBuffer.mixed, length_economicMixer, List.length_map]
        simp [samplesIn]
      · rw [EventRuns.run_append, ← received]
        simp [receive, rtlsdrCallback]

end RtlsdrFt8d
