import RtlsdrFt8d.ReceiverThreads

/-!
# The receiver threads of a device

`startRtlDevice` creates the thread of the device it has opened, and main
creates another one for the same device.  The handle of the first is lost, so
nothing joins it before its device is closed.
-/

namespace RtlsdrFt8d

namespace Receiver

variable {maxloop : Nat} {build : Build} {state : State} {event : Event}

/-! ## The property -/

namespace Radio

/-- A thread of the open `rtl_device` that has not finished. -/
def RunsOpen (radio : Radio) (place : Nat) : Prop :=
  ∃ thread, radio.threads[place]? = some thread ∧ thread.pc ≠ .finished ∧
    thread.device = radio.rtlDevice ∧ radio.rtlDevice ≠ none ∧ ¬ radio.DeviceClosed

/-- One receiver thread for the open device, with its handle in `rxThread`, and
none of a closed device that was not joined once. -/
structure OneReceiver (radio : Radio) : Prop where
  atMostOne : ∀ first second, radio.RunsOpen first → radio.RunsOpen second → first = second
  isHandle : ∀ place, radio.RunsOpen place → radio.rxThread = some place
  joinedOnce : ∀ thread ∈ radio.threads, ∀ device ∈ thread.device, device ∈ radio.closed →
    thread.joins = 1

end Radio

/-- When a step keeps the property: main creates its own thread after the first
one has finished, and no device with threads is closed. -/
def KeepsOneReceiver (state : State) : Event → Prop
  | .main _ =>
      (state.main = .createRx → ∀ pc ∈ state.radio.pcs, pc = .finished) ∧
        state.main ≠ .restarting .close ∧ state.main ≠ .stopping .close
  | _ => True

instance instDecidableKeepsOneReceiver (state : State) :
    ∀ event, Decidable (KeepsOneReceiver state event)
  | .main _ => inferInstanceAs (Decidable (_ ∧ _))
  | .decoder _ => isTrue trivial
  | .spuriousWakeUp | .rx _ _ | .programQuit | .signalCaught | .handlerCancel => isTrue trivial

/-! ## The invariant -/

namespace Radio

/-- The thread of `startRtlDevice` alone. -/
structure FirstThread (radio : Radio) (device : Nat) (pc : RxPc) : Prop where
  rtlDevice : radio.rtlDevice = some device
  closed : radio.closed = []
  threads : radio.threads = [⟨pc, some device, 0⟩]
  rxThread : radio.rxThread = some 0

/-- The thread of main, the first one having finished. -/
structure SecondThread (radio : Radio) (device : Nat) (pc : RxPc) (joins : Nat) : Prop where
  rtlDevice : radio.rtlDevice = some device
  closed : radio.closed = []
  threads : radio.threads = [⟨.finished, some device, 0⟩, ⟨pc, some device, joins⟩]
  rxThread : radio.rxThread = some 1

end Radio

/-- The stages of a run in which no device with threads was closed. -/
inductive Stage where
  | noDevice
  | opened
  | noThread
  | first
  | second
  | afterwards

def MainPc.stage : MainPc → Stage
  | .starting .startUp .getDeviceCount | .starting .startUp .openDevice => .noDevice
  | .starting .startUp (.configure _) | .starting .startUp .closeDevice
  | .starting .startUp .createThread => .opened
  | .starting .startUp .clearDevice | .finished => .noThread
  | .createRx => .first
  | .createDecoder | .loopTest | .slot _ | .restarting .cancel | .restarting .join
  | .restarting .close | .stopping .raiseFlag | .stopping .lock | .stopping .signal
  | .stopping .unlock | .stopping .cancel | .stopping .close => .second
  | _ => .afterwards

/-- The threads at each stage. -/
def Radio.AtStage (radio : Radio) : Stage → Prop
  | .noDevice => radio.threads = [] ∧ radio.closed = []
  | .opened =>
      radio.threads = [] ∧ radio.closed = [] ∧ ∃ device, radio.rtlDevice = some device
  | .noThread => radio.threads = []
  | .first => ∃ device pc, radio.FirstThread device pc
  | .second => ∃ device pc joins, radio.SecondThread device pc joins
  | .afterwards => False

namespace Radio

theorem oneReceiver_of_no_threads {radio : Radio} (none : radio.threads = []) :
    radio.OneReceiver where
  atMostOne := by simp [RunsOpen, none]
  isHandle := by simp [RunsOpen, none]
  joinedOnce := by simp [none]

theorem FirstThread.eq_zero {radio : Radio} {device : Nat} {pc : RxPc}
    (first : radio.FirstThread device pc) {place : Nat} (runs : radio.RunsOpen place) :
    place = 0 := by
  obtain ⟨thread, found, -⟩ := runs
  rw [first.threads] at found
  have bound := (List.getElem?_eq_some_iff.mp found).1
  simpa using bound

theorem FirstThread.oneReceiver {radio : Radio} {device : Nat} {pc : RxPc}
    (first : radio.FirstThread device pc) : radio.OneReceiver where
  atMostOne place other runs alsoRuns := by
    rw [first.eq_zero runs, first.eq_zero alsoRuns]
  isHandle place runs := by
    rw [first.eq_zero runs, first.rxThread]
  joinedOnce := by simp [first.closed]

theorem SecondThread.eq_one {radio : Radio} {device : Nat} {pc : RxPc} {joins : Nat}
    (second : radio.SecondThread device pc joins) {place : Nat} (runs : radio.RunsOpen place) :
    place = 1 := by
  obtain ⟨thread, found, unfinished, -⟩ := runs
  rw [second.threads] at found
  match place with
  | 0 =>
      obtain rfl := Option.some.inj found
      exact absurd rfl unfinished
  | 1 => rfl
  | place + 2 => simp at found

theorem SecondThread.oneReceiver {radio : Radio} {device : Nat} {pc : RxPc} {joins : Nat}
    (second : radio.SecondThread device pc joins) : radio.OneReceiver where
  atMostOne place other runs alsoRuns := by
    rw [second.eq_one runs, second.eq_one alsoRuns]
  isHandle place runs := by
    rw [second.eq_one runs, second.rxThread]
  joinedOnce := by simp [second.closed]

/-- The first thread is never joined. -/
theorem SecondThread.not_oneReceiver_closeDevice {radio : Radio} {device : Nat} {pc : RxPc}
    {joins : Nat} (second : radio.SecondThread device pc joins) :
    ¬ radio.closeDevice.OneReceiver := by
  intro one
  have joined := one.joinedOnce ⟨.finished, some device, 0⟩
    (by simp [closeDevice, second.threads]) device rfl
    (by simp [closeDevice, second.closed, second.rtlDevice])
  simp at joined

theorem FirstThread.not_oneReceiver_createThread {radio : Radio} {device : Nat} {pc : RxPc}
    (first : radio.FirstThread device pc) (unfinished : pc ≠ .finished) :
    ¬ radio.createThread.OneReceiver := by
  intro one
  have isOpen : ¬ radio.createThread.DeviceClosed := by
    simp [DeviceClosed, createThread, first.closed]
  have old : radio.createThread.RunsOpen 0 :=
    ⟨⟨pc, some device, 0⟩, by simp [createThread, first.threads], unfinished,
      by simp [createThread, first.rtlDevice], by simp [createThread, first.rtlDevice], isOpen⟩
  have new : radio.createThread.RunsOpen 1 :=
    ⟨⟨.created, some device, 0⟩, by simp [createThread, first.threads, first.rtlDevice],
      by simp, by simp [createThread, first.rtlDevice], by simp [createThread, first.rtlDevice],
      isOpen⟩
  exact absurd (one.atMostOne 0 1 old new) (by decide)

theorem FirstThread.createThread {radio : Radio} {device : Nat}
    (first : radio.FirstThread device .finished) :
    radio.createThread.SecondThread device .created 0 where
  rtlDevice := first.rtlDevice
  closed := first.closed
  threads := by simp [Radio.createThread, first.threads, first.rtlDevice]
  rxThread := by simp [Radio.createThread, first.threads]

theorem SecondThread.joinThread {radio : Radio} {device : Nat} {pc : RxPc} {joins : Nat}
    (second : radio.SecondThread device pc joins) :
    radio.joinThread.SecondThread device pc (joins + 1) := by
  have joined : radio.joinThread =
      { radio with
        threads := radio.threads.modify 1 fun joined =>
          { joined with joins := joined.joins + 1 } } := by
    rw [Radio.joinThread, second.rxThread]
  rw [joined]
  exact ⟨second.rtlDevice, second.closed, by simp [second.threads], second.rxThread⟩

theorem FirstThread.setPc {radio : Radio} {device : Nat} {pc : RxPc}
    (first : radio.FirstThread device pc) (thread : Nat) (next : RxPc) :
    ∃ pc, (radio.setPc thread next).FirstThread device pc := by
  cases thread with
  | zero => exact ⟨next, first.rtlDevice, first.closed, by simp [Radio.setPc, first.threads],
      first.rxThread⟩
  | succ thread => exact ⟨pc, first.rtlDevice, first.closed, by simp [Radio.setPc, first.threads],
      first.rxThread⟩

theorem SecondThread.setPc {radio : Radio} {device : Nat} {pc : RxPc} {joins : Nat}
    (second : radio.SecondThread device pc joins) {thread : Nat} (notFirst : thread ≠ 0)
    (next : RxPc) : ∃ pc, (radio.setPc thread next).SecondThread device pc joins := by
  match thread with
  | 0 => exact absurd rfl notFirst
  | 1 => exact ⟨next, second.rtlDevice, second.closed, by simp [Radio.setPc, second.threads],
      second.rxThread⟩
  | thread + 2 => exact ⟨pc, second.rtlDevice, second.closed,
      by simp [Radio.setPc, second.threads], second.rxThread⟩

theorem AtStage.oneReceiver {radio : Radio} {stage : Stage} (atStage : radio.AtStage stage) :
    radio.OneReceiver := by
  cases stage with
  | noDevice => exact oneReceiver_of_no_threads atStage.1
  | opened => exact oneReceiver_of_no_threads atStage.1
  | noThread => exact oneReceiver_of_no_threads atStage
  | first =>
      obtain ⟨device, pc, first⟩ := atStage
      exact first.oneReceiver
  | second =>
      obtain ⟨device, pc, joins, second⟩ := atStage
      exact second.oneReceiver
  | afterwards => exact atStage.elim

theorem AtStage.setPc {radio : Radio} {stage : Stage} (atStage : radio.AtStage stage)
    {thread : Nat} (unfinished : radio.pcs[thread]? ≠ some .finished) (pc : RxPc) :
    (radio.setPc thread pc).AtStage stage := by
  cases stage with
  | noDevice => exact ⟨by simp [Radio.setPc, atStage.1], atStage.2⟩
  | opened => exact ⟨by simp [Radio.setPc, atStage.1], atStage.2⟩
  | noThread =>
      have none : radio.threads = [] := atStage
      simp [AtStage, Radio.setPc, none]
  | first =>
      obtain ⟨device, old, first⟩ := atStage
      exact ⟨device, first.setPc thread pc⟩
  | second =>
      obtain ⟨device, old, joins, second⟩ := atStage
      have notFirst : thread ≠ 0 := by
        rintro rfl
        simp [Radio.pcs, second.threads] at unfinished
      obtain ⟨new, moved⟩ := second.setPc notFirst pc
      exact ⟨device, new, joins, moved⟩
  | afterwards => exact atStage

theorem AtStage.withHandlers {radio : Radio} {stage : Stage} (atStage : radio.AtStage stage)
    (handlers : Nat) : ({ radio with handlers := handlers } : Radio).AtStage stage := by
  cases stage with
  | first =>
      obtain ⟨device, pc, first⟩ := atStage
      exact ⟨device, pc, first.rtlDevice, first.closed, first.threads, first.rxThread⟩
  | second =>
      obtain ⟨device, pc, joins, second⟩ := atStage
      exact ⟨device, pc, joins, second.rtlDevice, second.closed, second.threads,
        second.rxThread⟩
  | _ => exact atStage

end Radio

/-- The threads are those of the stage that main is at. -/
def LifecycleInvariant (state : State) : Prop :=
  state.radio.AtStage state.main.stage

theorem lifecycleInvariant_start : LifecycleInvariant start :=
  ⟨rfl, rfl⟩

theorem unfinished_of_enabled {thread : Nat} {answer : Bool}
    (enabled : Enabled state (.rx thread answer)) :
    state.radio.pcs[thread]? ≠ some .finished := by
  intro isFinished
  rw [Radio.pcs, List.getElem?_map] at isFinished
  obtain ⟨ended, found, hasFinished⟩ := Option.map_eq_some_iff.mp isFinished
  simp [Enabled, found, hasFinished] at enabled

namespace LifecycleInvariant

theorem stepStart (invariant : LifecycleInvariant state) {caller : StartCaller} {pc : StartPc}
    (here : state.main = .starting caller pc) (answer : Bool) :
    LifecycleInvariant (state.stepStart caller answer pc) := by
  rw [LifecycleInvariant, here] at invariant
  rw [LifecycleInvariant, state.stepStart_radio caller answer]
  cases caller with
  | watchdog => exact invariant.elim
  | startUp =>
      cases pc with
      | getDeviceCount =>
          cases answer with
          | true => exact invariant
          | false => exact invariant.1
      | openDevice =>
          cases answer with
          | true => exact ⟨invariant.1, invariant.2, _, rfl⟩
          | false => exact invariant.1
      | configure setting =>
          cases answer with
          | true => cases setting <;> exact invariant
          | false => exact invariant
      | closeDevice => exact invariant.1
      | clearDevice => exact invariant
      | createThread =>
          obtain ⟨none, closed, device, rtlDevice⟩ := invariant
          refine ⟨device, .created, rtlDevice, closed, ?_, ?_⟩
          · simp [Radio.deviceStep, Radio.createThread, none, rtlDevice]
          · simp [Radio.deviceStep, Radio.createThread, none]

theorem stepSlot (invariant : LifecycleInvariant state) {pc : SlotPc}
    (here : state.main = .slot pc) (answer : Bool) :
    LifecycleInvariant (state.stepSlot answer pc) := by
  rw [LifecycleInvariant, here] at invariant
  rw [LifecycleInvariant, state.stepSlot_radio answer]
  cases pc with
  | await => cases answer <;> exact invariant
  | watchdog =>
      obtain ⟨device, pc, joins, second⟩ := invariant
      have isOpen : state.radio.rtlDevice.isSome = true := by rw [second.rtlDevice]; rfl
      rw [State.stepSlot, if_pos isOpen]
      split_ifs <;> exact ⟨device, pc, joins, second⟩
  | _ => exact invariant

theorem stepRestart (invariant : LifecycleInvariant state) {pc : RestartPc}
    (here : state.main = .restarting pc) (notClose : pc ≠ .close) :
    LifecycleInvariant (state.stepRestart pc) := by
  rw [LifecycleInvariant, here] at invariant
  cases pc with
  | cancel => exact invariant
  | join =>
      obtain ⟨device, pc, joins, second⟩ := invariant
      exact ⟨device, pc, joins + 1, second.joinThread⟩
  | close => exact absurd rfl notClose
  | clear => exact invariant.elim

theorem stepStop (invariant : LifecycleInvariant state) {pc : StopPc}
    (here : state.main = .stopping pc) (notClose : pc ≠ .close) :
    LifecycleInvariant (state.stepStop pc) := by
  rw [LifecycleInvariant, here] at invariant
  cases pc with
  | unlock =>
      obtain ⟨device, pc, joins, second⟩ := invariant
      have isOpen : state.radio.rtlDevice.isSome = true := by rw [second.rtlDevice]; rfl
      rw [State.stepStop, if_pos isOpen]
      exact ⟨device, pc, joins, second⟩
  | close => exact absurd rfl notClose
  | freeFftw | joinDecoder | joinRx => exact invariant.elim
  | _ => exact invariant

theorem stepMain (invariant : LifecycleInvariant state) (answer : Bool)
    (keeps : KeepsOneReceiver state (.main answer)) :
    LifecycleInvariant (state.stepMain maxloop answer) := by
  rw [State.stepMain]
  split
  next caller pc here => exact invariant.stepStart here answer
  next here =>
    rw [LifecycleInvariant, here] at invariant
    obtain ⟨device, pc, first⟩ := invariant
    obtain rfl : pc = .finished := keeps.1 here pc (by simp [Radio.pcs, first.threads])
    exact ⟨device, .created, 0, first.createThread⟩
  next here =>
    rw [LifecycleInvariant, here] at invariant
    exact invariant
  next here =>
    rw [LifecycleInvariant, here] at invariant
    split <;> exact invariant
  next pc here => exact invariant.stepSlot here answer
  next pc here =>
    apply invariant.stepRestart here
    rintro rfl
    exact keeps.2.1 here
  next pc here =>
    apply invariant.stepStop here
    rintro rfl
    exact keeps.2.2 here
  next => exact invariant

theorem step (invariant : LifecycleInvariant state) (enabled : Enabled state event)
    (keeps : KeepsOneReceiver state event) :
    LifecycleInvariant (step maxloop build state event) := by
  cases event with
  | main answer => exact invariant.stepMain answer keeps
  | decoder answer =>
      obtain ⟨decoding, frame⟩ := state.stepDecoder_frame build answer
      rw [Receiver.step, frame]
      exact invariant
  | rx thread answer =>
      have rxStep := state.rxStep_stepRx build thread answer
      rw [Receiver.step]
      generalize state.stepRx build thread answer = next at rxStep ⊢
      cases rxStep with
      | stays => exact invariant
      | moves iqIndex watchdog pc =>
          exact Radio.AtStage.setPc invariant (unfinished_of_enabled enabled) pc
  | spuriousWakeUp | programQuit => exact invariant
  | signalCaught | handlerCancel => exact Radio.AtStage.withHandlers invariant _

theorem oneReceiver (invariant : LifecycleInvariant state) : state.radio.OneReceiver :=
  Radio.AtStage.oneReceiver invariant

theorem not_oneReceiver (invariant : LifecycleInvariant state)
    (careless : ¬ KeepsOneReceiver state event) :
    ¬ (Receiver.step maxloop build state event).radio.OneReceiver := by
  cases event with
  | main answer =>
      have radio : (Receiver.step maxloop build state (.main answer)).radio =
          state.radio.deviceStep answer state.main := state.stepMain_radio maxloop answer
      rw [LifecycleInvariant] at invariant
      rw [radio]
      cases here : state.main with
      | createRx =>
          rw [here] at invariant
          obtain ⟨device, pc, first⟩ := invariant
          apply first.not_oneReceiver_createThread
          simpa [KeepsOneReceiver, here, Radio.pcs, first.threads] using careless
      | restarting pc =>
          rw [here] at invariant
          cases pc with
          | close =>
              obtain ⟨device, pc, joins, second⟩ := invariant
              exact second.not_oneReceiver_closeDevice
          | _ => simp [KeepsOneReceiver, here] at careless
      | stopping pc =>
          rw [here] at invariant
          cases pc with
          | close =>
              obtain ⟨device, pc, joins, second⟩ := invariant
              exact second.not_oneReceiver_closeDevice
          | _ => simp [KeepsOneReceiver, here] at careless
      | _ => simp [KeepsOneReceiver, here] at careless
  | _ => exact absurd trivial careless

end LifecycleInvariant

/-! ## Runs -/

theorem oneReceiver_iff_keepsOneReceiver (maxloop : Nat) (build : Build) {events : List Event}
    (enabled : EventRuns.Admissible Enabled (step maxloop build) start events) :
    (∀ earlier, earlier <+: events →
        (EventRuns.run (step maxloop build) start earlier).radio.OneReceiver) ↔
      EventRuns.Admissible KeepsOneReceiver (step maxloop build) start events :=
  EventRuns.forall_isPrefix_iff_admissible lifecycleInvariant_start
    (fun _ _ invariant isEnabled keeps => invariant.step isEnabled keeps)
    (fun _ invariant => invariant.oneReceiver)
    (fun _ _ invariant _ careless => invariant.not_oneReceiver careless) enabled

/-- A run that started a device and has ended broke the property. -/
theorem exists_not_oneReceiver {events : List Event}
    (enabled : EventRuns.Admissible Enabled (step maxloop build) start events)
    (ended : (EventRuns.run (step maxloop build) start events).main = .finished)
    (started : (EventRuns.run (step maxloop build) start events).radio.threads ≠ []) :
    ∃ earlier, earlier <+: events ∧
      ¬ (EventRuns.run (step maxloop build) start earlier).radio.OneReceiver := by
  by_contra never
  push Not at never
  have keeps := (EventRuns.forall_isPrefix_iff_admissible lifecycleInvariant_start
    (fun _ _ invariant isEnabled keeps => invariant.step isEnabled keeps)
    (fun _ invariant => invariant.oneReceiver)
    (fun _ _ invariant _ careless => invariant.not_oneReceiver careless) enabled).mp never
  have invariant := EventRuns.admissible_invariant lifecycleInvariant_start
    (fun _ _ invariant both => invariant.step both.1 both.2)
    (EventRuns.admissible_and enabled keeps) List.prefix_rfl
  rw [LifecycleInvariant, ended] at invariant
  exact started invariant

/-- The read of the first thread fails before main creates the second one. -/
def failedReadRun : List Event :=
  [List.replicate 9 (.main true), [.rx 0 false, .rx 0 false], List.replicate 3 (.main true),
    [.rx 1 true, .decoder true]].flatten

theorem oneReceiver_iff_failedReadRun :
    (∀ earlier, earlier <+: failedReadRun →
        (EventRuns.run (step 0 .wide) start earlier).radio.OneReceiver) ↔
      EventRuns.Admissible KeepsOneReceiver (step 0 .wide) start failedReadRun :=
  oneReceiver_iff_keepsOneReceiver 0 .wide (by decide +kernel)

/-- The device starts, and two threads read from it. -/
theorem not_oneReceiver_startUpEvents :
    ¬ ∀ (maxloop : Nat) (build : Build) (events : List Event),
      EventRuns.Admissible Enabled (step maxloop build) start events →
        ∀ earlier, earlier <+: events →
          (EventRuns.run (step maxloop build) start earlier).radio.OneReceiver := by
  intro always
  have enabled : EventRuns.Admissible Enabled (step 0 .wide) start startUpEvents := by
    decide +kernel
  have one := always 0 .wide startUpEvents enabled startUpEvents List.prefix_rfl
  have firstRuns : (EventRuns.run (step 0 .wide) start startUpEvents).radio.RunsOpen 0 :=
    ⟨⟨.created, some 0, 0⟩, by decide +kernel, by simp, by decide +kernel, by decide +kernel,
      by decide +kernel⟩
  have secondRuns : (EventRuns.run (step 0 .wide) start startUpEvents).radio.RunsOpen 1 :=
    ⟨⟨.created, some 0, 0⟩, by decide +kernel, by simp, by decide +kernel, by decide +kernel,
      by decide +kernel⟩
  exact absurd (one.atMostOne 0 1 firstRuns secondRuns) (by decide)

end Receiver

end RtlsdrFt8d
