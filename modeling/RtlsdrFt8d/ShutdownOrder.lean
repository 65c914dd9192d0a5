import RtlsdrFt8d.ReceiverThreads

/-!
# The order of the shutdown

Main frees the FFTW buffers before it joins the decoder and closes the device
before it joins the receiver thread.  Nothing is used after it was freed if the
threads happen to have finished with it by then.
-/

namespace RtlsdrFt8d

namespace Receiver

/-! ## Uses -/

/-- The decoder is past its test of `exit_flag` and has transforms to do, unless
the window is too short for them. -/
def DecoderPc.FftAhead : DecoderPc → Prop
  | .select | .checkLength _ | .clean _ | .normalise _ | .allocate _
  | .transform _ (_ + 1) => True
  | _ => False

instance instDecidableFftAhead (pc : DecoderPc) : Decidable pc.FftAhead := by
  unfold DecoderPc.FftAhead
  split <;> infer_instance

/-- The event is a transform: it fills `fft_in`, executes `fft_plan` and reads
`fft_out`. -/
def UsesFft (state : State) : Event → Prop
  | .decoder _ => ∃ prevBuffer left, state.decoding.pc = .transform prevBuffer (left + 1)
  | _ => False

/-- The event is a call of librtlsdr on `rtl_device`. -/
def CallsDevice (state : State) : Event → Prop
  | .main _ =>
      match state.main with
      | .starting _ (.configure _) | .starting _ .closeDevice | .restarting .cancel
      | .restarting .close | .stopping .cancel | .stopping .close => True
      | _ => False
  | .rx thread _ =>
      state.radio.pcs[thread]? = some .created ∨ state.radio.pcs[thread]? = some .returned
  | .handlerCancel => True
  | _ => False

def MainPc.ShuttingDown : MainPc → Prop
  | .stopping _ | .finished => True
  | _ => False

/-- The event uses what the shutdown has freed. -/
def UsesFreed (state : State) (event : Event) : Prop :=
  state.fftwFreed = true ∧ UsesFft state event ∨
    state.main.ShuttingDown ∧ state.radio.DeviceClosed ∧ CallsDevice state event

/-- When a step cannot lead to such a use: the FFTW buffers are freed under a
decoder without a transform ahead, the device is closed when every receiver
thread has finished and no run of the signal handler is about to cancel, and no
signal is caught once it is closed. -/
def FreesUnused (state : State) : Event → Prop
  | .main _ =>
      (state.main = .stopping .freeFftw → ¬ state.decoding.pc.FftAhead) ∧
        (state.main = .stopping .close →
          state.radio.handlers = 0 ∧ ∀ pc ∈ state.radio.pcs, pc = .finished)
  | .signalCaught => state.main.ShuttingDown → ¬ state.radio.DeviceClosed
  | _ => True

instance instDecidableShuttingDown (pc : MainPc) : Decidable pc.ShuttingDown := by
  unfold MainPc.ShuttingDown
  split <;> infer_instance

instance instDecidableFreesUnused (state : State) :
    ∀ event, Decidable (FreesUnused state event)
  | .main _ => inferInstanceAs (Decidable (_ ∧ _))
  | .signalCaught => inferInstanceAs (Decidable (_ → _))
  | .decoder _ | .spuriousWakeUp | .rx _ _ | .programQuit | .handlerCancel => isTrue trivial

variable {maxloop : Nat} {build : Build} {state : State} {event : Event}

/-! ## The FFTW buffers -/

structure FftwInvariant (state : State) : Prop where
  flagRaised : state.main.FlagRaised → state.exitFlag = true
  freed : state.fftwFreed = true → state.exitFlag = true ∧ ¬ state.decoding.pc.FftAhead

theorem fftwInvariant_start : FftwInvariant start := by
  constructor <;> simp [start]

/-- A decoder that sees the exit flag begins no transforms. -/
theorem not_fftAhead_stepDecoder (answer : Bool) (flag : state.exitFlag = true)
    (done : ¬ state.decoding.pc.FftAhead) :
    ¬ (state.stepDecoder build answer).decoding.pc.FftAhead := by
  rw [State.stepDecoder]
  cases here : state.decoding.pc with
  | loopTest | exitTest => simp [flag, State.moveDecoder, DecoderPc.FftAhead]
  | transform prevBuffer left =>
      cases left <;> simp_all [State.moveDecoder, DecoderPc.FftAhead]
  | _ => simp_all [State.moveDecoder, DecoderPc.FftAhead]

/-- Main raises the flag on its way to the rest of the shutdown. -/
theorem flagRaised_stepMain (answer : Bool)
    (raised : (state.stepMain maxloop answer).main.FlagRaised) :
    state.main.FlagRaised ∨ (state.stepMain maxloop answer).exitFlag = true := by
  rw [State.stepMain] at raised ⊢
  cases here : state.main with
  | starting caller pc =>
      rw [here] at raised
      cases pc with
      | configure setting => cases answer <;> cases setting <;> exact absurd raised id
      | _ => cases answer <;> cases caller <;> exact absurd raised id
  | loopTest =>
      rw [here] at raised
      dsimp only at raised
      split at raised <;> exact absurd raised id
  | slot pc =>
      rw [here] at raised
      cases pc with
      | await => cases answer <;> exact absurd raised id
      | watchdog =>
          dsimp only [State.stepSlot] at raised
          split_ifs at raised <;> exact absurd raised id
      | _ => exact absurd raised id
  | restarting pc =>
      rw [here] at raised
      cases pc <;> exact absurd raised id
  | stopping pc =>
      cases pc with
      | raiseFlag => exact Or.inr rfl
      | _ => exact Or.inl trivial
  | createRx | createDecoder | finished =>
      rw [here] at raised
      exact absurd raised (by simp [here])

theorem FftwInvariant.stepMain (invariant : FftwInvariant state) (answer : Bool)
    (unused : state.main = .stopping .freeFftw → ¬ state.decoding.pc.FftAhead) :
    FftwInvariant (state.stepMain maxloop answer) where
  flagRaised := by
    intro raised
    rcases flagRaised_stepMain answer raised with wasRaised | nowRaised
    · exact (state.mainStep_stepMain maxloop answer).exitFlag (invariant.flagRaised wasRaised)
    · exact nowRaised
  freed := by
    intro freed
    have mainStep := state.mainStep_stepMain maxloop answer
    have before : state.exitFlag = true ∧ ¬ state.decoding.pc.FftAhead := by
      by_cases frees : state.main = .stopping .freeFftw
      · exact ⟨invariant.flagRaised (by simp [frees]), unused frees⟩
      · rw [mainStep.fftwFreed frees] at freed
        exact invariant.freed freed
    refine ⟨mainStep.exitFlag before.1, ?_⟩
    rcases mainStep.decoderPc with same | woken | created
    · rw [same]
      exact before.2
    · simp [woken, DecoderPc.FftAhead]
    · simp [created, DecoderPc.FftAhead]

theorem FftwInvariant.step (invariant : FftwInvariant state)
    (unused : FreesUnused state event) : FftwInvariant (step maxloop build state event) := by
  cases event with
  | main answer => exact invariant.stepMain answer unused.1
  | decoder answer =>
      obtain ⟨decoding, frame⟩ := state.stepDecoder_frame build answer
      have notAhead : state.exitFlag = true → ¬ state.decoding.pc.FftAhead →
          ¬ decoding.pc.FftAhead := by
        have kept := @not_fftAhead_stepDecoder build state answer
        rwa [frame] at kept
      rw [Receiver.step, frame]
      refine ⟨invariant.flagRaised, fun freed => ?_⟩
      obtain ⟨flag, done⟩ := invariant.freed freed
      exact ⟨flag, notAhead flag done⟩
  | spuriousWakeUp =>
      refine ⟨invariant.flagRaised, fun freed => ⟨(invariant.freed freed).1, ?_⟩⟩
      simp [Receiver.step, State.moveDecoder, DecoderPc.FftAhead]
  | rx thread answer =>
      have rxStep := state.rxStep_stepRx build thread answer
      rw [Receiver.step]
      generalize state.stepRx build thread answer = next at rxStep ⊢
      cases rxStep with
      | stays => exact invariant
      | moves => exact ⟨invariant.flagRaised, invariant.freed⟩
  | programQuit | signalCaught =>
      exact ⟨fun _ => rfl, fun freed => ⟨rfl, (invariant.freed freed).2⟩⟩
  | handlerCancel => exact ⟨invariant.flagRaised, invariant.freed⟩

theorem FftwInvariant.not_usesFft (invariant : FftwInvariant state)
    (freed : state.fftwFreed = true) : ¬ UsesFft state event := by
  have done := (invariant.freed freed).2
  cases event with
  | decoder answer =>
      rintro ⟨prevBuffer, left, here⟩
      exact done (by simp [here, DecoderPc.FftAhead])
  | _ => exact id

/-! ## The device -/

/-- Between the close of the device and the next open. -/
def MainPc.AfterClose : MainPc → Prop
  | .starting _ .clearDevice | .restarting .clear | .stopping .freeFftw
  | .stopping .joinDecoder | .stopping .joinRx | .finished => True
  | _ => False

def MainPc.Clearing : MainPc → Prop
  | .starting _ .clearDevice | .restarting .clear => True
  | _ => False

def MainPc.Closing : MainPc → Prop
  | .starting _ .closeDevice | .restarting .close | .stopping .close => True
  | _ => False

/-- Every handle is that of an open that has happened. -/
structure Radio.Numbered (radio : Radio) : Prop where
  closedOpened : ∀ device ∈ radio.closed, device < radio.opened
  deviceOpened : ∀ device ∈ radio.rtlDevice, device < radio.opened

theorem Radio.Numbered.deviceStep {radio : Radio} (numbered : radio.Numbered) (answer : Bool)
    (main : MainPc) : (radio.deviceStep answer main).Numbered := by
  have opens : radio.openDevice.Numbered :=
    ⟨fun device isClosed => (numbered.closedOpened device isClosed).trans (Nat.lt_succ_self _),
      by simp [Radio.openDevice]⟩
  have closes : radio.closeDevice.Numbered := by
    refine ⟨fun device isClosed => ?_, numbered.deviceOpened⟩
    rcases List.mem_append.mp isClosed with wasClosed | isDevice
    · exact numbered.closedOpened device wasClosed
    · exact numbered.deviceOpened device (Option.mem_toList.mp isDevice)
  have clears : radio.clearDevice.Numbered := ⟨numbered.closedOpened, by simp [Radio.clearDevice]⟩
  have creates : radio.createThread.Numbered := ⟨numbered.closedOpened, numbered.deviceOpened⟩
  have joins : radio.joinThread.Numbered := by
    rw [Radio.joinThread]
    split <;> exact ⟨numbered.closedOpened, numbered.deviceOpened⟩
  rw [Radio.deviceStep.eq_def]
  split
  · cases answer
    · exact numbered
    · exact opens
  all_goals assumption

/-- Only a close makes `rtl_device` the handle of a closed device. -/
theorem deviceClosed_deviceStep {radio : Radio} (numbered : radio.Numbered) {answer : Bool}
    {main : MainPc} (notClosing : ¬ main.Closing)
    (closed : (radio.deviceStep answer main).DeviceClosed) :
    radio.DeviceClosed ∧ ¬ main.Clearing := by
  have cleared : ¬ radio.clearDevice.DeviceClosed := by
    simp [Radio.DeviceClosed, Radio.clearDevice]
  have fresh : ¬ radio.openDevice.DeviceClosed := by
    rintro ⟨device, isDevice, isClosed⟩
    have bound := numbered.closedOpened device isClosed
    simp only [Radio.openDevice, Option.mem_def, Option.some.injEq] at isDevice
    omega
  have joined : radio.joinThread.DeviceClosed → radio.DeviceClosed := by
    rw [Radio.joinThread]
    split <;> exact id
  cases main with
  | starting caller pc =>
      cases pc with
      | openDevice =>
          cases answer with
          | true => exact absurd closed fresh
          | false => exact ⟨closed, id⟩
      | closeDevice => exact absurd trivial notClosing
      | clearDevice => exact absurd closed cleared
      | _ => exact ⟨closed, id⟩
  | restarting pc =>
      cases pc with
      | join => exact ⟨joined closed, id⟩
      | close => exact absurd trivial notClosing
      | clear => exact absurd closed cleared
      | cancel => exact ⟨closed, id⟩
  | stopping pc =>
      cases pc with
      | joinRx => exact ⟨joined closed, id⟩
      | close => exact absurd trivial notClosing
      | _ => exact ⟨closed, id⟩
  | _ => exact ⟨closed, id⟩

structure DeviceInvariant (state : State) : Prop where
  numbered : state.radio.Numbered
  afterClose : state.radio.DeviceClosed → state.main.AfterClose
  unused : state.main.ShuttingDown → state.radio.DeviceClosed →
    state.radio.handlers = 0 ∧ ∀ pc ∈ state.radio.pcs, pc = .finished

theorem deviceInvariant_start : DeviceInvariant start where
  numbered := ⟨by simp [start], by simp [start]⟩
  afterClose := by simp [start, Radio.DeviceClosed]
  unused := by simp [start, Radio.DeviceClosed]

theorem handlers_deviceStep (radio : Radio) (answer : Bool) (main : MainPc) :
    (radio.deviceStep answer main).handlers = radio.handlers := by
  rw [Radio.deviceStep.eq_def]
  split
  · cases answer <;> rfl
  any_goals rfl
  all_goals
    rw [Radio.joinThread]
    split <;> rfl

/-- After the last close main ends without another thread. -/
theorem stepMain_of_afterClose (answer : Bool) (after : state.main.AfterClose)
    (notClearing : ¬ state.main.Clearing) :
    (state.stepMain maxloop answer).main.AfterClose ∧
      state.main.ShuttingDown ∧
      (state.radio.deviceStep answer state.main).pcs = state.radio.pcs := by
  rw [State.stepMain]
  cases here : state.main with
  | starting caller pc => cases pc <;> simp_all [MainPc.AfterClose, MainPc.Clearing]
  | restarting pc => cases pc <;> simp_all [MainPc.AfterClose, MainPc.Clearing]
  | stopping pc =>
      cases pc with
      | joinDecoder =>
          dsimp only [State.stepStop]
          split <;> exact ⟨trivial, trivial, rfl⟩
      | joinRx => exact ⟨trivial, trivial, state.radio.pcs_joinThread⟩
      | _ => simp_all [MainPc.AfterClose, MainPc.ShuttingDown, State.stepStop, Radio.deviceStep]
  | finished => exact ⟨by simp [here, MainPc.AfterClose], trivial, rfl⟩
  | _ => simp_all [MainPc.AfterClose]

theorem not_enabled_rx (allFinished : ∀ pc ∈ state.radio.pcs, pc = .finished) (thread : Nat)
    (answer : Bool) : ¬ Enabled state (.rx thread answer) := by
  intro enabled
  cases found : state.radio.threads[thread]? with
  | none => simp [Enabled, found] at enabled
  | some running =>
      have isPc : running.pc ∈ state.radio.pcs :=
        List.mem_map_of_mem (List.mem_of_getElem? found)
      simp [Enabled, found, allFinished running.pc isPc] at enabled

namespace DeviceInvariant

theorem stepMain (invariant : DeviceInvariant state) (answer : Bool)
    (unused : state.main = .stopping .close →
      state.radio.handlers = 0 ∧ ∀ pc ∈ state.radio.pcs, pc = .finished) :
    DeviceInvariant (state.stepMain maxloop answer) := by
  have numbered : (state.stepMain maxloop answer).radio.Numbered := by
    rw [state.stepMain_radio maxloop answer]
    exact invariant.numbered.deviceStep answer state.main
  by_cases closing : state.main.Closing
  · cases here : state.main with
    | starting caller pc =>
        cases pc with
        | closeDevice =>
            refine ⟨numbered, ?_, ?_⟩ <;>
              simp [State.stepMain, State.stepStart, here, MainPc.AfterClose, MainPc.ShuttingDown]
        | _ => simp [here, MainPc.Closing] at closing
    | restarting pc =>
        cases pc with
        | close =>
            refine ⟨numbered, ?_, ?_⟩ <;>
              simp [State.stepMain, State.stepRestart, here, MainPc.AfterClose,
                MainPc.ShuttingDown]
        | _ => simp [here, MainPc.Closing] at closing
    | stopping pc =>
        cases pc with
        | close =>
            refine ⟨numbered, ?_, fun _ _ => ?_⟩
            · simp [State.stepMain, State.stepStop, here, MainPc.AfterClose]
            · rw [state.stepMain_radio maxloop answer, here]
              exact unused here
        | _ => simp [here, MainPc.Closing] at closing
    | _ => simp [here, MainPc.Closing] at closing
  · -- Unless main closes the device, a closed one was closed before.
    have wasClosed : (state.stepMain maxloop answer).radio.DeviceClosed →
        state.radio.DeviceClosed ∧ ¬ state.main.Clearing := by
      rw [state.stepMain_radio maxloop answer]
      exact deviceClosed_deviceStep invariant.numbered closing
    refine ⟨numbered, fun closed => ?_, fun _ closed => ?_⟩
    · obtain ⟨before, notClearing⟩ := wasClosed closed
      exact (stepMain_of_afterClose answer (invariant.afterClose before) notClearing).1
    · obtain ⟨before, notClearing⟩ := wasClosed closed
      obtain ⟨-, stops, samePcs⟩ :=
        @stepMain_of_afterClose maxloop state answer (invariant.afterClose before) notClearing
      rw [state.stepMain_radio maxloop answer, handlers_deviceStep, samePcs]
      exact invariant.unused stops before

theorem step (invariant : DeviceInvariant state) (enabled : Enabled state event)
    (unused : FreesUnused state event) : DeviceInvariant (step maxloop build state event) := by
  cases event with
  | main answer => exact invariant.stepMain answer unused.2
  | decoder answer =>
      obtain ⟨decoding, frame⟩ := state.stepDecoder_frame build answer
      rw [Receiver.step, frame]
      exact ⟨invariant.numbered, invariant.afterClose, invariant.unused⟩
  | spuriousWakeUp => exact ⟨invariant.numbered, invariant.afterClose, invariant.unused⟩
  | rx thread answer =>
      have rxStep := state.rxStep_stepRx build thread answer
      rw [Receiver.step]
      generalize state.stepRx build thread answer = next at rxStep ⊢
      cases rxStep with
      | stays => exact invariant
      | moves iqIndex watchdog pc =>
          refine ⟨⟨invariant.numbered.closedOpened, invariant.numbered.deviceOpened⟩,
            invariant.afterClose, fun stops closed => ?_⟩
          exact absurd enabled (not_enabled_rx (invariant.unused stops closed).2 thread answer)
  | programQuit => exact ⟨invariant.numbered, invariant.afterClose, invariant.unused⟩
  | signalCaught =>
      refine ⟨⟨invariant.numbered.closedOpened, invariant.numbered.deviceOpened⟩,
        invariant.afterClose, fun stops closed => ?_⟩
      exact absurd closed (unused stops)
  | handlerCancel =>
      refine ⟨⟨invariant.numbered.closedOpened, invariant.numbered.deviceOpened⟩,
        invariant.afterClose, fun stops closed => ?_⟩
      obtain ⟨none, allFinished⟩ := invariant.unused stops closed
      exact ⟨by simp [Receiver.step, none], allFinished⟩

theorem not_callsDevice (invariant : DeviceInvariant state) (enabled : Enabled state event)
    (stops : state.main.ShuttingDown) (closed : state.radio.DeviceClosed) :
    ¬ CallsDevice state event := by
  obtain ⟨noHandler, allFinished⟩ := invariant.unused stops closed
  have afterClose := invariant.afterClose closed
  cases event with
  | main answer =>
      cases here : state.main with
      | stopping pc => cases pc <;> simp_all [CallsDevice, MainPc.AfterClose]
      | finished => simp [CallsDevice, here]
      | _ => simp [here, MainPc.ShuttingDown] at stops
  | rx thread answer => exact absurd enabled (not_enabled_rx allFinished thread answer)
  | handlerCancel => exact absurd noHandler (Nat.pos_iff_ne_zero.mp enabled)
  | _ => exact id

end DeviceInvariant

/-! ## Runs -/

structure ShutdownInvariant (state : State) : Prop where
  fftw : FftwInvariant state
  device : DeviceInvariant state

theorem shutdownInvariant_start : ShutdownInvariant start :=
  ⟨fftwInvariant_start, deviceInvariant_start⟩

namespace ShutdownInvariant

theorem step (invariant : ShutdownInvariant state) (enabled : Enabled state event)
    (unused : FreesUnused state event) : ShutdownInvariant (step maxloop build state event) :=
  ⟨invariant.fftw.step unused, invariant.device.step enabled unused⟩

theorem not_usesFreed (invariant : ShutdownInvariant state) (enabled : Enabled state event) :
    ¬ UsesFreed state event := by
  rintro (⟨freed, uses⟩ | ⟨stops, closed, calls⟩)
  · exact invariant.fftw.not_usesFft freed uses
  · exact invariant.device.not_callsDevice enabled stops closed calls

end ShutdownInvariant

theorem not_usesFreed_of_freesUnused (maxloop : Nat) (build : Build) {events : List Event}
    (enabled : EventRuns.Admissible Enabled (step maxloop build) start events)
    (unused : EventRuns.Admissible FreesUnused (step maxloop build) start events) :
    EventRuns.Admissible (fun state event => ¬ UsesFreed state event)
      (step maxloop build) start events :=
  EventRuns.admissible_of_invariant shutdownInvariant_start
    (fun _ _ invariant both => invariant.step both.1 both.2)
    (fun _ _ invariant both => invariant.not_usesFreed both.1)
    (EventRuns.admissible_and enabled unused)

/-- The receiver threads end and the decoder waits before main shuts down. -/
def orderlyRun : List Event :=
  [startUpEvents, [.rx 0 true, .rx 1 true, .rx 1 true, .rx 0 false, .rx 0 true],
    List.replicate 3 (.decoder true), [.programQuit], List.replicate 8 (.main true),
    List.replicate 3 (.decoder true), List.replicate 2 (.main true)].flatten

theorem not_usesFreed_orderlyRun :
    EventRuns.Admissible (fun state event => ¬ UsesFreed state event)
      (step 0 .wide) start orderlyRun :=
  not_usesFreed_of_freesUnused 0 .wide (by decide +kernel) (by decide +kernel)

/-- The operator quits while the device delivers samples; its thread ends the
read after the close. -/
def hastyRun : List Event :=
  [startUpEvents, [.rx 0 false, .rx 0 true, .rx 1 true, .programQuit],
    List.replicate 6 (.main true), [.rx 1 false, .main true]].flatten

theorem not_usesUnfreed_hastyRun :
    ¬ ∀ (maxloop : Nat) (build : Build) (events : List Event),
      EventRuns.Admissible Enabled (step maxloop build) start events →
        EventRuns.Admissible (fun state event => ¬ UsesFreed state event)
          (step maxloop build) start events := by
  intro always
  have enabled : EventRuns.Admissible Enabled (step 0 .wide) start
      (hastyRun ++ [.rx 1 true]) := by
    decide +kernel
  have apart := always 0 .wide _ enabled
  rw [EventRuns.admissible_append_singleton_iff] at apart
  exact apart.2 (Or.inr ⟨by decide +kernel, by decide +kernel, Or.inr (by decide +kernel)⟩)

end Receiver

end RtlsdrFt8d
