import RtlsdrFt8d.ReceiverThreads

/-!
# Double buffering

The decoder works on the buffer that main has left, and nothing but the parity
of `bufferIndex` keeps the receiver out of it.  The buffers stay apart as long
as main does not flip them during a decode and no callback is still about to
store a sample in the buffer that the decoder takes up.
-/

namespace RtlsdrFt8d

namespace Receiver

/-- The buffer that the decoder works on, from its selection to its last use in
`saveSample`. -/
def DecoderPc.workingOn : DecoderPc → Option (Fin 2)
  | .checkLength prevBuffer | .clean prevBuffer | .normalise prevBuffer
  | .allocate prevBuffer | .transform prevBuffer _ | .decode prevBuffer
  | .saveSample prevBuffer => some prevBuffer
  | _ => none

/-- The event stores a sample in the buffer that the decoder works on, or resets
its index. -/
def Intrudes (build : Build) (state : State) : Event → Prop
  | .main _ =>
      (state.main = .slot .resetNew ∨ state.main = .slot .resetBoundary) ∧
        state.decoding.pc.workingOn = some state.buffers.bufferIndex
  | .rx thread _ =>
      ∃ idx ∈ (state.radio.pcs[thread]?).bind RxPc.storesTo,
        state.buffers.iqIndex idx < windowLength build ∧
          state.decoding.pc.workingOn = some idx
  | _ => False

/-- When a step cannot lead to an intrusion: main flips the buffers while the
decoder works on none, and the decoder takes up a buffer that no callback is
about to store a sample in. -/
def HandsOverCleanly (state : State) : Event → Prop
  | .main _ => state.main = .slot .flip → state.decoding.pc.workingOn = none
  | .decoder _ =>
      state.decoding.pc = .select →
        ∀ pc ∈ state.radio.pcs, pc.storesTo ≠ some state.buffers.prevBuffer
  | _ => True

instance instDecidableHandsOverCleanly (state : State) :
    ∀ event, Decidable (HandsOverCleanly state event)
  | .main _ => inferInstanceAs (Decidable (_ → _))
  | .decoder _ => inferInstanceAs (Decidable (_ → _))
  | .spuriousWakeUp | .rx _ _ | .programQuit | .signalCaught | .handlerCancel => isTrue trivial

/-- The decoder begins to work on a buffer only when it selects one. -/
theorem workingOn_stepDecoder {build : Build} {state : State} (answer : Bool) {idx : Fin 2}
    (working : (state.stepDecoder build answer).decoding.pc.workingOn = some idx) :
    state.decoding.pc.workingOn = some idx ∨
      state.decoding.pc = .select ∧ idx = state.buffers.prevBuffer := by
  rw [State.stepDecoder] at working
  cases here : state.decoding.pc with
  | select =>
      rw [here] at working
      exact Or.inr ⟨rfl, (Option.some.inj working).symm⟩
  | loopTest | exitTest | checkLength prevBuffer | allocate prevBuffer =>
      simp only [here] at working
      split at working <;> simp_all [State.moveDecoder, DecoderPc.workingOn]
  | transform prevBuffer left =>
      cases left <;> simp_all [State.moveDecoder, DecoderPc.workingOn]
  | _ => simp_all [State.moveDecoder, DecoderPc.workingOn]

/-! ## The invariant -/

/-- Neither main nor a callback is about to enter the buffer that the decoder
works on. -/
structure Isolated (state : State) : Prop where
  notCurrent : state.decoding.pc.workingOn ≠ some state.buffers.bufferIndex
  noStore : ∀ pc ∈ state.radio.pcs, ∀ idx, pc.storesTo = some idx →
    state.decoding.pc.workingOn ≠ some idx

theorem isolated_start : Isolated start where
  notCurrent := by simp [start, DecoderPc.workingOn]
  noStore := by simp [start, Radio.pcs]

namespace Isolated

variable {maxloop : Nat} {build : Build} {state : State}

theorem not_intrudes (isolated : Isolated state) (event : Event) :
    ¬ Intrudes build state event := by
  cases event with
  | main answer =>
      rintro ⟨-, working⟩
      exact isolated.notCurrent working
  | rx thread answer =>
      rintro ⟨idx, stores, -, working⟩
      obtain ⟨pc, found, storesTo⟩ := Option.bind_eq_some_iff.mp stores
      exact isolated.noStore pc (List.mem_of_getElem? found) idx storesTo working
  | _ => exact id

theorem stepMain (isolated : Isolated state) (answer : Bool)
    (clean : state.main = .slot .flip → state.decoding.pc.workingOn = none) :
    Isolated (state.stepMain maxloop answer) := by
  have mainStep := state.mainStep_stepMain maxloop answer
  -- Main never makes the decoder work.
  have working : ∀ idx, (state.stepMain maxloop answer).decoding.pc.workingOn = some idx →
      state.decoding.pc.workingOn = some idx := by
    intro idx
    rcases mainStep.decoderPc with same | woken | created
    · rw [same]
      exact id
    · simp [woken, DecoderPc.workingOn]
    · simp [created, DecoderPc.workingOn]
  constructor
  · by_cases here : state.main = .slot .flip
    · intro current
      have worked := working _ current
      simp [clean here] at worked
    · rw [mainStep.bufferIndex here]
      exact mt (working _) isolated.notCurrent
  · intro pc isPc idx storesTo
    rw [state.stepMain_radio maxloop answer] at isPc
    apply mt (working idx)
    rcases state.radio.pcs_deviceStep answer state.main with same | created
    · rw [same] at isPc
      exact isolated.noStore pc isPc idx storesTo
    · rw [created, List.mem_append, List.mem_singleton] at isPc
      rcases isPc with isOld | rfl
      · exact isolated.noStore pc isOld idx storesTo
      · simp [RxPc.storesTo] at storesTo

theorem stepDecoder (isolated : Isolated state) (answer : Bool)
    (clean : state.decoding.pc = .select →
      ∀ pc ∈ state.radio.pcs, pc.storesTo ≠ some state.buffers.prevBuffer) :
    Isolated (state.stepDecoder build answer) := by
  have working : ∀ idx, (state.stepDecoder build answer).decoding.pc.workingOn = some idx →
      state.decoding.pc.workingOn = some idx ∨
        state.decoding.pc = .select ∧ idx = state.buffers.prevBuffer :=
    fun idx => workingOn_stepDecoder answer
  obtain ⟨decoding, frame⟩ := state.stepDecoder_frame build answer
  rw [frame] at working ⊢
  constructor
  · intro current
    rcases working _ current with wasWorking | ⟨-, same⟩
    · exact isolated.notCurrent wasWorking
    · exact state.buffers.prevBuffer_ne same.symm
  · intro pc isPc idx storesTo nowWorking
    rcases working idx nowWorking with wasWorking | ⟨selects, rfl⟩
    · exact isolated.noStore pc isPc idx storesTo wasWorking
    · exact clean selects pc isPc storesTo

theorem stepRx (isolated : Isolated state) (thread : Nat) (answer : Bool) :
    Isolated (state.stepRx build thread answer) := by
  have rxStep := state.rxStep_stepRx build thread answer
  generalize state.stepRx build thread answer = next at rxStep ⊢
  cases rxStep with
  | stays => exact isolated
  | moves iqIndex watchdog pc storesHere =>
      refine ⟨isolated.notCurrent, ?_⟩
      intro other isPc idx storesTo
      simp only [Radio.pcs_setPc] at isPc
      rcases List.mem_or_eq_of_mem_set isPc with isOld | rfl
      · exact isolated.noStore other isOld idx storesTo
      · rw [storesHere idx storesTo]
        exact isolated.notCurrent

theorem step (isolated : Isolated state) {event : Event}
    (clean : HandsOverCleanly state event) : Isolated (step maxloop build state event) := by
  cases event with
  | main answer => exact isolated.stepMain answer clean
  | decoder answer => exact isolated.stepDecoder answer clean
  | spuriousWakeUp => exact ⟨by simp [Receiver.step, State.moveDecoder, DecoderPc.workingOn],
      by simp [Receiver.step, State.moveDecoder, DecoderPc.workingOn]⟩
  | rx thread answer => exact isolated.stepRx thread answer
  | programQuit => exact ⟨isolated.notCurrent, isolated.noStore⟩
  | signalCaught => exact ⟨isolated.notCurrent, isolated.noStore⟩
  | handlerCancel => exact ⟨isolated.notCurrent, isolated.noStore⟩

end Isolated

/-! ## Runs -/

theorem not_intrudes_of_handsOverCleanly (maxloop : Nat) (build : Build) {events : List Event}
    (enabled : EventRuns.Admissible Enabled (step maxloop build) start events)
    (clean : EventRuns.Admissible HandsOverCleanly (step maxloop build) start events) :
    EventRuns.Admissible (fun state event => ¬ Intrudes build state event)
      (step maxloop build) start events :=
  EventRuns.admissible_of_invariant isolated_start
    (fun _ _ isolated both => isolated.step both.2)
    (fun _ event isolated _ => isolated.not_intrudes event)
    (EventRuns.admissible_and enabled clean)

/-- Two samples are stored, one in each buffer, and the first window is taken up
in between. -/
def alternatingRun : List Event :=
  [startUpEvents, List.replicate 4 (.rx 0 true), List.replicate 3 (.decoder true),
    List.replicate 7 (.main true), List.replicate 4 (.decoder true),
    List.replicate 2 (.rx 0 true), List.replicate 1 (.decoder true),
    [.main true, .main false, .main true, .main true, .main true]].flatten

theorem not_intrudes_alternatingRun :
    EventRuns.Admissible (fun state event => ¬ Intrudes .wide state event)
      (step 0 .wide) start alternatingRun :=
  not_intrudes_of_handsOverCleanly 0 .wide (by decide +kernel) (by decide +kernel)

/-! ## A decode longer than a slot -/

/-- A callback delivers output samples. -/
def sampleEvents (thread count : Nat) : List Event :=
  (List.replicate count [.rx thread true, .rx thread true]).flatten

section Samples

variable {maxloop : Nat} {build : Build} {state : State} {thread device : Nat}

/-- The state after more samples in the current buffer. -/
def State.withSamples (state : State) (count : Nat) : State :=
  { state with
    buffers :=
      { state.buffers with
        iqIndex := Function.update state.buffers.iqIndex state.buffers.bufferIndex
          (state.buffers.iqIndex state.buffers.bufferIndex + count) } }

theorem withSamples_add (state : State) (first second : Nat) :
    (state.withSamples first).withSamples second = state.withSamples (first + second) := by
  simp [State.withSamples, Nat.add_assoc]

theorem stepRx_of_filtering
    (filtering : state.radio.threads[thread]?.map RxThread.pc = some (.reading device .filtering)) :
    state.stepRx build thread true =
      state.setRxPc thread (.reading device (.storing state.buffers.bufferIndex)) := by
  simp [State.stepRx, filtering]

/-- The callback stores a sample and is back where it was. -/
theorem run_sample
    (filtering : state.radio.threads[thread]?.map RxThread.pc = some (.reading device .filtering))
    (room : state.buffers.iqIndex state.buffers.bufferIndex < windowLength build) :
    EventRuns.run (step maxloop build) state [.rx thread true, .rx thread true] =
      state.withSamples 1 := by
  let storing := state.setRxPc thread (.reading device (.storing state.buffers.bufferIndex))
  have stores : storing.stepRx build thread true =
      (storing.storeSample build state.buffers.bufferIndex).setRxPc thread
        (.reading device .filtering) := by
    rw [State.stepRx]
    simp only [storing, State.setRxPc, Radio.setPc_pc filtering]
  calc
    EventRuns.run (step maxloop build) state [.rx thread true, .rx thread true] =
        (state.stepRx build thread true).stepRx build thread true := rfl
    _ = (storing.storeSample build state.buffers.bufferIndex).setRxPc thread
          (.reading device .filtering) := by rw [stepRx_of_filtering filtering, stores]
    _ = state.withSamples 1 := by
      simp [storing, State.storeSample, State.setRxPc, State.withSamples, room,
        Radio.setPc_setPc, Radio.setPc_self filtering]

theorem enabled_rx {pc : RxPc} (here : state.radio.threads[thread]?.map RxThread.pc = some pc)
    (running : pc ≠ .finished) (answer : Bool) : Enabled state (.rx thread answer) := by
  obtain ⟨moved, found, rfl⟩ := Option.map_eq_some_iff.mp here
  simpa [Enabled, found] using running

theorem admissible_sample
    (filtering : state.radio.threads[thread]?.map RxThread.pc =
      some (.reading device .filtering)) :
    EventRuns.Admissible Enabled (step maxloop build) state [.rx thread true, .rx thread true] := by
  refine ⟨enabled_rx filtering (by simp) true, ?_, trivial⟩
  rw [show step maxloop build state (.rx thread true) = _ from stepRx_of_filtering filtering]
  exact enabled_rx (Radio.setPc_pc filtering _) (by simp) true

theorem run_sampleEvents
    (filtering : state.radio.threads[thread]?.map RxThread.pc = some (.reading device .filtering))
    {count : Nat}
    (room : state.buffers.iqIndex state.buffers.bufferIndex + count ≤ windowLength build) :
    EventRuns.Admissible Enabled (step maxloop build) state (sampleEvents thread count) ∧
      EventRuns.run (step maxloop build) state (sampleEvents thread count) =
        state.withSamples count := by
  induction count generalizing state with
  | zero => simp [sampleEvents, State.withSamples, EventRuns.Admissible]
  | succ count ih =>
      have split : sampleEvents thread (count + 1) =
          [.rx thread true, .rx thread true] ++ sampleEvents thread count := rfl
      have first : EventRuns.run (step maxloop build) state [.rx thread true, .rx thread true] =
          state.withSamples 1 := run_sample filtering (by omega)
      have roomLeft : (state.withSamples 1).buffers.iqIndex state.buffers.bufferIndex + count ≤
          windowLength build := by
        simp only [State.withSamples, Function.update_self]
        omega
      have stillFiltering : (state.withSamples 1).radio.threads[thread]?.map RxThread.pc =
          some (.reading device .filtering) := filtering
      obtain ⟨enabled, rest⟩ := ih stillFiltering roomLeft
      rw [split, EventRuns.admissible_append_iff, EventRuns.run_append, first, rest,
        withSamples_add, Nat.add_comm 1]
      exact ⟨⟨admissible_sample filtering, enabled⟩, rfl⟩

end Samples

/-- The second receiver thread reads, the first one having failed, and the
decoder waits. -/
def receivingRun : List Event :=
  [startUpEvents, [.rx 0 false, .rx 0 false, .rx 1 true, .rx 1 true],
    List.replicate 3 (.decoder true)].flatten

/-- A window of 12 s ends, the decoder takes it up, and main flips the buffers
for the next window before the decoder has done a transform. -/
def longDecode : List Event :=
  [List.replicate 7 (.main true), List.replicate 8 (.decoder true),
    [.main true, .main false, .main true, .main true, .main true]].flatten

/-- Main resets the index of the buffer that the decoder still works on. -/
theorem not_isolated_longDecode :
    ¬ ∀ (maxloop : Nat) (build : Build) (events : List Event),
      EventRuns.Admissible Enabled (step maxloop build) start events →
        EventRuns.Admissible (fun state event => ¬ Intrudes build state event)
          (step maxloop build) start events := by
  intro always
  let receiving := EventRuns.run (step 0 .wide) start receivingRun
  have filtering : receiving.radio.threads[1]?.map RxThread.pc =
      some (.reading 0 .filtering) := by
    decide +kernel
  have filled : EventRuns.Admissible Enabled (step 0 .wide) receiving
        (sampleEvents 1 (shortestWindow .wide)) ∧
      EventRuns.run (step 0 .wide) receiving (sampleEvents 1 (shortestWindow .wide)) =
        receiving.withSamples (shortestWindow .wide) :=
    run_sampleEvents filtering (by decide +kernel)
  have enabled : EventRuns.Admissible Enabled (step 0 .wide) start
      (receivingRun ++ (sampleEvents 1 (shortestWindow .wide) ++ (longDecode ++ [.main true]))) := by
    rw [EventRuns.admissible_append_iff, EventRuns.admissible_append_iff, filled.2]
    exact ⟨by decide +kernel, filled.1, by decide +kernel⟩
  have apart := always 0 .wide _ enabled
  rw [EventRuns.admissible_append_iff, EventRuns.admissible_append_iff, filled.2,
    EventRuns.admissible_append_singleton_iff] at apart
  exact apart.2.2.2 ⟨Or.inl (by decide +kernel), by decide +kernel⟩

end Receiver

end RtlsdrFt8d
