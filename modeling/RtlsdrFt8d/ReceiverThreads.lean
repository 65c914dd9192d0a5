import Mathlib.Logic.Function.Basic
import RtlsdrFt8d.CicDecimator
import RtlsdrFt8d.EventRuns

/-!
# The threads of the receiver

Main starts the device and the threads, flips the two sample buffers once per
slot, restarts a stalled device and shuts everything down.  The decoder thread
waits for the end of a window, the threads in `rtlsdr_rx` deliver samples.  An
event is one operation on shared memory, on a lock or of a library, so every
order of events is an interleaving of the threads.
-/

namespace RtlsdrFt8d

namespace Receiver

/-! ## Program points -/

/-- The calls of `startRtlDevice` that configure an open device. -/
inductive Setting where
  | gain
  | directSampling
  | sampleRate
  | freqCorrection
  | centerFreq
  | resetBuffer
  deriving DecidableEq

def Setting.next : Setting → Option Setting
  | .gain => some .directSampling
  | .directSampling => some .sampleRate
  | .sampleRate => some .freqCorrection
  | .freqCorrection => some .centerFreq
  | .centerFreq => some .resetBuffer
  | .resetBuffer => none

/-- Who called `startRtlDevice`. -/
inductive StartCaller where
  | startUp
  | watchdog
  deriving DecidableEq

/-- Where `startRtlDevice` stands. -/
inductive StartPc where
  | getDeviceCount
  | openDevice
  | configure (setting : Setting)
  | closeDevice
  | clearDevice
  | createThread
  deriving DecidableEq

/-- Where `restartRtlDevice` stands before it calls `startRtlDevice`. -/
inductive RestartPc where
  | cancel
  | join
  | close
  | clear
  deriving DecidableEq

/-- Where the body of the main loop stands. -/
inductive SlotPc where
  | await
  | flip
  | resetNew
  | lock
  | signal
  | unlock
  | resetBoundary
  | watchdog
  deriving DecidableEq

/-- Where the shutdown stands. -/
inductive StopPc where
  | raiseFlag
  | lock
  | signal
  | unlock
  | cancel
  | close
  | freeFftw
  | joinDecoder
  | joinRx
  deriving DecidableEq

inductive MainPc where
  | starting (caller : StartCaller) (pc : StartPc)
  | createRx
  | createDecoder
  | loopTest
  | slot (pc : SlotPc)
  | restarting (pc : RestartPc)
  | stopping (pc : StopPc)
  | finished
  deriving DecidableEq

/-- Where `decoder` stands, with `prevBuffer` from its selection to the last
use. -/
inductive DecoderPc where
  | notCreated
  | loopTest
  | lock
  | wait
  | waiting
  | woken
  | unlock
  | exitTest
  | select
  | checkLength (prevBuffer : Fin 2)
  | clean (prevBuffer : Fin 2)
  | normalise (prevBuffer : Fin 2)
  | allocate (prevBuffer : Fin 2)
  | transform (prevBuffer : Fin 2) (left : Nat)
  | decode (prevBuffer : Fin 2)
  | saveSample (prevBuffer : Fin 2)
  | postSpots
  | returned
  deriving DecidableEq

/-- Where `rtlsdr_read_async` stands: between two callbacks, in a callback
between two output samples, or with `idx` read and the sample not yet stored. -/
inductive ReadPc where
  | idle
  | filtering
  | storing (idx : Fin 2)
  deriving DecidableEq

/-- Where `rtlsdr_rx` stands. -/
inductive RxPc where
  | created
  | reading (device : Nat) (pc : ReadPc)
  | returned
  | finished
  deriving DecidableEq

/-- The shutdown has set `exit_flag`. -/
@[simp]
def MainPc.FlagRaised : MainPc → Prop
  | .stopping .raiseFlag => False
  | .stopping _ => True
  | _ => False

/-- The buffer that the thread is about to store a sample in. -/
def RxPc.storesTo : RxPc → Option (Fin 2)
  | .reading _ (.storing idx) => some idx
  | _ => none

/-! ## State -/

/-- A thread in `rtlsdr_rx`, the device it was created for and how often it was
joined. -/
structure RxThread where
  pc : RxPc
  device : Option Nat
  joins : Nat
  deriving DecidableEq

/-- The handles of librtlsdr are numbered in the order of the opens. -/
structure Radio where
  rtlDevice : Option Nat
  opened : Nat
  closed : List Nat
  threads : List RxThread
  rxThread : Option Nat
  /-- Runs of the signal handler that have seen a device and not yet cancelled. -/
  handlers : Nat

/-- The stall watchdog. -/
structure Watchdog where
  callbackCounter : Nat
  lastSeenCbCount : Nat
  restartFailures : Nat

inductive Party where
  | main
  | decoder
  deriving DecidableEq

/-- What main and the decoder share, and the history of the windows: how many
have ended, which one each buffer holds, how many were signalled, and which ones
the decoder has taken up. -/
structure Decoding where
  pc : DecoderPc
  readyMutex : Option Party
  nloop : Nat
  ended : Nat
  windowIn : Fin 2 → Option Nat
  signalled : Nat
  takenUp : List Nat

structure SampleBuffers where
  bufferIndex : Fin 2
  iqIndex : Fin 2 → Nat

/-- The buffer that the decoder selects. -/
def SampleBuffers.prevBuffer (buffers : SampleBuffers) : Fin 2 :=
  buffers.bufferIndex + 1

theorem SampleBuffers.prevBuffer_congr {buffers other : SampleBuffers}
    (same : buffers.bufferIndex = other.bufferIndex) : buffers.prevBuffer = other.prevBuffer := by
  rw [prevBuffer, prevBuffer, same]

theorem SampleBuffers.prevBuffer_ne (buffers : SampleBuffers) :
    buffers.prevBuffer ≠ buffers.bufferIndex := by
  rw [prevBuffer]
  omega

structure State where
  main : MainPc
  exitFlag : Bool
  fftwFreed : Bool
  decoding : Decoding
  buffers : SampleBuffers
  watchdog : Watchdog
  radio : Radio

def start : State where
  main := .starting .startUp .getDeviceCount
  exitFlag := false
  fftwFreed := false
  decoding :=
    { pc := .notCreated, readyMutex := none, nloop := 0
      ended := 0, windowIn := fun _ => none, signalled := 0, takenUp := [] }
  buffers := { bufferIndex := 0, iqIndex := fun _ => 0 }
  watchdog := { callbackCounter := 0, lastSeenCbCount := 0, restartFailures := 0 }
  radio :=
    { rtlDevice := none, opened := 0, closed := [], threads := [], rxThread := none
      handlers := 0 }

/-! ## Devices and threads -/

/-- What a list records of a modified element. -/
theorem map_modify {α β : Type*} (record : α → β) {change : α → α} {after : β → β}
    (recorded : ∀ element, record (change element) = after (record element))
    (elements : List α) (place : Nat) :
    (elements.modify place change).map record = (elements.map record).modify place after := by
  induction elements generalizing place with
  | nil => simp
  | cons first rest ih =>
      cases place with
      | zero => simp [recorded]
      | succ place => simp [ih]

namespace Radio

/-- `rtlsdr_open`. -/
def openDevice (radio : Radio) : Radio :=
  { radio with rtlDevice := some radio.opened, opened := radio.opened + 1 }

/-- `rtlsdr_close`. -/
def closeDevice (radio : Radio) : Radio :=
  { radio with closed := radio.closed ++ radio.rtlDevice.toList }

/-- `rtl_device = NULL`. -/
def clearDevice (radio : Radio) : Radio :=
  { radio with rtlDevice := none }

/-- `pthread_create(&rxThread, NULL, rtlsdr_rx, NULL)`. -/
def createThread (radio : Radio) : Radio :=
  { radio with
    threads := radio.threads ++ [⟨.created, radio.rtlDevice, 0⟩]
    rxThread := some radio.threads.length }

/-- `pthread_join(rxThread, NULL)`. -/
def joinThread (radio : Radio) : Radio :=
  match radio.rxThread with
  | none => radio
  | some thread =>
      { radio with
        threads := radio.threads.modify thread fun joined =>
          { joined with joins := joined.joins + 1 } }

def setPc (radio : Radio) (thread : Nat) (pc : RxPc) : Radio :=
  { radio with threads := radio.threads.modify thread fun moved => { moved with pc := pc } }

/-- Where the receiver threads stand. -/
def pcs (radio : Radio) : List RxPc :=
  radio.threads.map RxThread.pc

@[simp]
theorem pcs_openDevice (radio : Radio) : radio.openDevice.pcs = radio.pcs :=
  rfl

@[simp]
theorem pcs_closeDevice (radio : Radio) : radio.closeDevice.pcs = radio.pcs :=
  rfl

@[simp]
theorem pcs_clearDevice (radio : Radio) : radio.clearDevice.pcs = radio.pcs :=
  rfl

@[simp]
theorem pcs_createThread (radio : Radio) :
    radio.createThread.pcs = radio.pcs ++ [.created] := by
  simp [pcs, createThread]

@[simp]
theorem pcs_joinThread (radio : Radio) : radio.joinThread.pcs = radio.pcs := by
  rw [joinThread]
  split
  · rfl
  next thread _ =>
    have onlyJoins : (radio.threads.modify thread fun joined =>
        { joined with joins := joined.joins + 1 }).map RxThread.pc =
          radio.pcs.modify thread id :=
      map_modify RxThread.pc (fun _ => rfl) _ _
    exact onlyJoins.trans (List.modify_id _ _)

theorem setPc_setPc (radio : Radio) (thread : Nat) (pc next : RxPc) :
    (radio.setPc thread pc).setPc thread next = radio.setPc thread next := by
  simp [setPc, List.modify_modify_eq, Function.comp_def]

theorem setPc_pc {radio : Radio} {thread : Nat} {old : RxPc}
    (here : radio.threads[thread]?.map RxThread.pc = some old) (pc : RxPc) :
    (radio.setPc thread pc).threads[thread]?.map RxThread.pc = some pc := by
  obtain ⟨moved, found, -⟩ := Option.map_eq_some_iff.mp here
  simp [setPc, found]

theorem setPc_self {radio : Radio} {thread : Nat} {pc : RxPc}
    (here : radio.threads[thread]?.map RxThread.pc = some pc) :
    radio.setPc thread pc = radio := by
  have same : radio.threads.modify thread (fun moved => { moved with pc := pc }) =
      radio.threads := by
    apply List.ext_getElem?
    intro place
    by_cases isThread : thread = place
    · subst isThread
      cases found : radio.threads[thread]? with
      | none => simp [found]
      | some moved =>
          rw [found] at here
          simp [found, ← Option.some.inj here]
    · rw [List.getElem?_modify_ne _ _ isThread]
  rw [setPc, same]

theorem pcs_setPc (radio : Radio) (thread : Nat) (pc : RxPc) :
    (radio.setPc thread pc).pcs = radio.pcs.set thread pc :=
  calc
    _ = radio.pcs.modify thread fun _ => pc := map_modify RxThread.pc (fun _ => rfl) _ _
    _ = radio.pcs.set thread pc := (List.set_eq_modify pc thread radio.pcs).symm

/-- What a step of main does to the device and its threads. -/
def deviceStep (radio : Radio) (answer : Bool) : MainPc → Radio
  | .starting _ .openDevice => if answer then radio.openDevice else radio
  | .starting _ .closeDevice | .restarting .close | .stopping .close => radio.closeDevice
  | .starting _ .clearDevice | .restarting .clear => radio.clearDevice
  | .starting _ .createThread | .createRx => radio.createThread
  | .restarting .join | .stopping .joinRx => radio.joinThread
  | _ => radio

/-- The threads that main finds keep their places. -/
theorem pcs_deviceStep (radio : Radio) (answer : Bool) (main : MainPc) :
    (radio.deviceStep answer main).pcs = radio.pcs ∨
      (radio.deviceStep answer main).pcs = radio.pcs ++ [.created] := by
  rw [deviceStep.eq_def]
  split
  · cases answer <;> simp
  all_goals simp

def IsReading (device : Nat) (thread : RxThread) : Bool :=
  match thread.pc with
  | .reading other _ => other == device
  | _ => false

/-- What `rtlsdr_read_async` leads to.  A second one on a running device and one
without a device return at once, like one that the device refuses. -/
def beginRead (radio : Radio) (accepted : Bool) : RxPc :=
  match radio.rtlDevice with
  | none => .returned
  | some device =>
      if radio.threads.any (IsReading device) || !accepted then .returned
      else .reading device .idle

/-- The join of `rxThread` returns. -/
def RxThreadFinished (radio : Radio) : Prop :=
  (radio.rxThread.bind (radio.threads[·]?)).any (·.pc == .finished) = true

instance instDecidableRxThreadFinished (radio : Radio) : Decidable radio.RxThreadFinished :=
  inferInstanceAs (Decidable (_ = _))

/-- `rtl_device` is the handle of a closed device. -/
def DeviceClosed (radio : Radio) : Prop :=
  ∃ device ∈ radio.rtlDevice, device ∈ radio.closed

instance instDecidableDeviceClosed (radio : Radio) : Decidable radio.DeviceClosed :=
  inferInstanceAs (Decidable (∃ device ∈ radio.rtlDevice, device ∈ radio.closed))

end Radio

/-! ## Windows -/

namespace Decoding

/-- Main flips the buffers: a window ends in the buffer it leaves. -/
def endWindow (decoding : Decoding) (bufferIndex : Fin 2) : Decoding :=
  { decoding with
    ended := decoding.ended + 1
    windowIn := Function.update decoding.windowIn bufferIndex (some decoding.ended) }

/-- `pthread_cond_signal(&decThread.ready_cond)`. -/
def condSignal (decoding : Decoding) : Decoding :=
  { decoding with pc := if decoding.pc = .waiting then .woken else decoding.pc }

/-- Without a waiting thread a signal has no effect. -/
theorem condSignal_of_ne {decoding : Decoding} (notWaiting : decoding.pc ≠ .waiting) :
    decoding.condSignal = decoding := by
  simp [condSignal, notWaiting]

/-- The decoder takes up the window in `prevBuffer`. -/
def takeUp (decoding : Decoding) (prevBuffer : Fin 2) : Decoding :=
  { decoding with
    pc := .checkLength prevBuffer
    takenUp := decoding.takenUp ++ (decoding.windowIn prevBuffer).toList }

end Decoding

/-- The samples that fill a buffer. -/
def windowLength (build : Build) : Nat :=
  15 * build.signalSampleRate.toNat

/-- The samples that a window needs to be decoded. -/
def shortestWindow (build : Build) : Nat :=
  (15 - 3) * build.signalSampleRate.toNat

/-- The transforms of a slot: `NUM_BLOCKS * K_TIME_OSR`. -/
def slotTransforms : Nat :=
  92 * 2

/-! ## Main -/

namespace State

/-- `startRtlDevice` returns false. -/
def startFailed (state : State) : StartCaller → State
  | .startUp => { state with main := .finished }
  | .watchdog =>
      let restartFailures := state.watchdog.restartFailures + 1
      { state with
        watchdog := { state.watchdog with restartFailures := restartFailures }
        exitFlag := state.exitFlag || decide (3 ≤ restartFailures)
        main := .loopTest }

/-- `startRtlDevice` returns true. -/
def startSucceeded (state : State) : StartCaller → State
  | .startUp => { state with main := .createRx }
  | .watchdog =>
      { state with
        watchdog :=
          { state.watchdog with
            lastSeenCbCount := state.watchdog.callbackCounter
            restartFailures := 0 }
        main := .loopTest }

/-- One step of `startRtlDevice`.  The answer is that of librtlsdr. -/
def stepStart (state : State) (caller : StartCaller) (answer : Bool) : StartPc → State
  | .getDeviceCount =>
      if answer then { state with main := .starting caller .openDevice }
      else state.startFailed caller
  | .openDevice =>
      if answer then
        { state with
          radio := state.radio.openDevice
          main := .starting caller (.configure .gain) }
      else state.startFailed caller
  | .configure setting =>
      if answer then
        match setting.next with
        | some next => { state with main := .starting caller (.configure next) }
        | none => { state with main := .starting caller .createThread }
      else { state with main := .starting caller .closeDevice }
  | .closeDevice =>
      { state with
        radio := state.radio.closeDevice
        main := .starting caller .clearDevice }
  | .clearDevice =>
      startFailed { state with radio := state.radio.clearDevice } caller
  | .createThread =>
      startSucceeded { state with radio := state.radio.createThread } caller

def stepRestart (state : State) : RestartPc → State
  | .cancel => { state with main := .restarting .join }
  | .join => { state with radio := state.radio.joinThread, main := .restarting .close }
  | .close => { state with radio := state.radio.closeDevice, main := .restarting .clear }
  | .clear =>
      { state with
        radio := state.radio.clearDevice
        main := .starting .watchdog .getDeviceCount }

/-- `rx_state.iqIndex[rx_state.bufferIndex] = 0`. -/
def resetIndex (state : State) : State :=
  { state with
    buffers :=
      { state.buffers with
        iqIndex := Function.update state.buffers.iqIndex state.buffers.bufferIndex 0 } }

def lockReady (state : State) (party : Party) : State :=
  { state with decoding := { state.decoding with readyMutex := some party } }

def unlockReady (state : State) : State :=
  { state with decoding := { state.decoding with readyMutex := none } }

def condSignal (state : State) : State :=
  { state with decoding := state.decoding.condSignal }

/-- `rx_state.bufferIndex = (rx_state.bufferIndex + 1) % 2`. -/
def flip (state : State) : State :=
  { state with
    decoding := state.decoding.endWindow state.buffers.bufferIndex
    buffers := { state.buffers with bufferIndex := state.buffers.bufferIndex + 1 } }

/-- The buffer that main leaves is the one to decode. -/
theorem prevBuffer_flip (state : State) :
    state.flip.buffers.prevBuffer = state.buffers.bufferIndex := by
  simp only [flip, SampleBuffers.prevBuffer]
  omega

/-- One step of the body of the main loop.  The answer is that of the clock: the
slot is in time for a transmission, or the device has stalled long enough. -/
def stepSlot (state : State) (answer : Bool) : SlotPc → State
  | .await =>
      if answer then { state with main := .slot .flip }
      else { state with main := .slot .resetBoundary }
  | .flip => { state.flip with main := .slot .resetNew }
  | .resetNew => { state.resetIndex with main := .slot .lock }
  | .lock => { state.lockReady .main with main := .slot .signal }
  | .signal =>
      { state with
        decoding :=
          { state.decoding.condSignal with signalled := state.decoding.signalled + 1 }
        main := .slot .unlock }
  | .unlock => { state.unlockReady with main := .slot .resetBoundary }
  | .resetBoundary => { state.resetIndex with main := .slot .watchdog }
  | .watchdog =>
      if state.watchdog.callbackCounter ≠ state.watchdog.lastSeenCbCount then
        { state with
          watchdog :=
            { state.watchdog with
              lastSeenCbCount := state.watchdog.callbackCounter
              restartFailures := 0 }
          main := .loopTest }
      else if answer then
        if state.radio.rtlDevice.isSome then { state with main := .restarting .cancel }
        else { state with main := .starting .watchdog .getDeviceCount }
      else { state with main := .loopTest }

def stepStop (state : State) : StopPc → State
  | .raiseFlag => { state with exitFlag := true, main := .stopping .lock }
  | .lock => { state.lockReady .main with main := .stopping .signal }
  | .signal => { state.condSignal with main := .stopping .unlock }
  | .unlock =>
      if state.radio.rtlDevice.isSome then { state.unlockReady with main := .stopping .cancel }
      else { state.unlockReady with main := .stopping .freeFftw }
  | .cancel => { state with main := .stopping .close }
  | .close => { state with radio := state.radio.closeDevice, main := .stopping .freeFftw }
  | .freeFftw => { state with fftwFreed := true, main := .stopping .joinDecoder }
  | .joinDecoder =>
      if state.radio.rtlDevice.isSome then { state with main := .stopping .joinRx }
      else { state with main := .finished }
  | .joinRx => { state with radio := state.radio.joinThread, main := .finished }

/-- The condition of the main loop. -/
def loopContinues (maxloop : Nat) (state : State) : Bool :=
  !state.exitFlag && !(decide (maxloop ≠ 0) && decide (maxloop ≤ state.decoding.nloop))

def stepMain (maxloop : Nat) (state : State) (answer : Bool) : State :=
  match state.main with
  | .starting caller pc => state.stepStart caller answer pc
  | .createRx => { state with radio := state.radio.createThread, main := .createDecoder }
  | .createDecoder =>
      { state with decoding := { state.decoding with pc := .loopTest }, main := .loopTest }
  | .loopTest =>
      if state.loopContinues maxloop then { state with main := .slot .await }
      else { state with main := .stopping .raiseFlag }
  | .slot pc => state.stepSlot answer pc
  | .restarting pc => state.stepRestart pc
  | .stopping pc => state.stepStop pc
  | .finished => state

section Frames

variable (maxloop : Nat) (state : State) (caller : StartCaller) (answer : Bool)

@[simp]
theorem startFailed_radio : (state.startFailed caller).radio = state.radio := by
  cases caller <;> rfl

@[simp]
theorem startSucceeded_radio : (state.startSucceeded caller).radio = state.radio := by
  cases caller <;> rfl

theorem stepStart_radio (pc : StartPc) :
    (state.stepStart caller answer pc).radio =
      state.radio.deviceStep answer (.starting caller pc) := by
  cases pc with
  | getDeviceCount => cases answer <;> simp [stepStart, Radio.deviceStep]
  | openDevice => cases answer <;> simp [stepStart, Radio.deviceStep]
  | configure setting => cases answer <;> cases setting <;> rfl
  | closeDevice => rfl
  | clearDevice => simp [stepStart, Radio.deviceStep]
  | createThread => simp [stepStart, Radio.deviceStep]

theorem stepSlot_radio (pc : SlotPc) : (state.stepSlot answer pc).radio = state.radio := by
  cases pc with
  | await => cases answer <;> rfl
  | watchdog =>
      rw [stepSlot]
      split_ifs <;> rfl
  | _ => rfl

theorem stepStop_radio (pc : StopPc) :
    (state.stepStop pc).radio = state.radio.deviceStep answer (.stopping pc) := by
  cases pc with
  | unlock | joinDecoder =>
      rw [stepStop]
      split <;> rfl
  | _ => rfl

theorem stepMain_radio :
    (state.stepMain maxloop answer).radio = state.radio.deviceStep answer state.main := by
  rw [stepMain]
  cases here : state.main with
  | starting caller pc => exact state.stepStart_radio caller answer pc
  | loopTest => dsimp only; split <;> rfl
  | slot pc => exact state.stepSlot_radio answer pc
  | restarting pc => cases pc <;> rfl
  | stopping pc => exact state.stepStop_radio answer pc
  | _ => rfl

/-- What a step of main can do besides the work on the device: move on, reset
an index, flip the buffers, take or release the lock, signal, create the decoder
and free the FFTW buffers. -/
inductive MainStep (state : State) : State → Prop where
  | moves (main : MainPc) (exitFlag : Bool) (watchdog : Watchdog) (radio : Radio)
      (flag : state.exitFlag = true → exitFlag = true) :
      MainStep state
        { state with main := main, exitFlag := exitFlag, watchdog := watchdog, radio := radio }
  | resets (main : MainPc) : MainStep state { state.resetIndex with main := main }
  | flips (here : state.main = .slot .flip) (main : MainPc) :
      MainStep state { state.flip with main := main }
  | locks (mutex : Option Party) (main : MainPc) :
      MainStep state
        { state with decoding := { state.decoding with readyMutex := mutex }, main := main }
  | signals (signalled : Nat) (main : MainPc) :
      MainStep state
        { state with
          decoding := { state.decoding.condSignal with signalled := signalled }
          main := main }
  | createsDecoder (main : MainPc) :
      MainStep state
        { state with decoding := { state.decoding with pc := .loopTest }, main := main }
  | freesFftw (here : state.main = .stopping .freeFftw) (main : MainPc) :
      MainStep state { state with fftwFreed := true, main := main }

theorem mainStep_startFailed (radio : Radio) :
    MainStep state ({ state with radio := radio }.startFailed caller) := by
  cases caller with
  | startUp => exact .moves _ _ _ _ id
  | watchdog => exact .moves _ _ _ _ fun raised => by simp [raised]

theorem mainStep_startSucceeded (radio : Radio) :
    MainStep state ({ state with radio := radio }.startSucceeded caller) := by
  cases caller <;> exact .moves _ _ _ _ id

theorem mainStep_stepStart (pc : StartPc) : MainStep state (state.stepStart caller answer pc) := by
  cases pc with
  | getDeviceCount =>
      cases answer with
      | true => exact .moves _ _ _ _ id
      | false => exact state.mainStep_startFailed caller state.radio
  | openDevice =>
      cases answer with
      | true => exact .moves _ _ _ _ id
      | false => exact state.mainStep_startFailed caller state.radio
  | configure setting => cases answer <;> cases setting <;> exact .moves _ _ _ _ id
  | closeDevice => exact .moves _ _ _ _ id
  | clearDevice => exact state.mainStep_startFailed caller state.radio.clearDevice
  | createThread => exact state.mainStep_startSucceeded caller state.radio.createThread

theorem mainStep_stepSlot {pc : SlotPc} (here : state.main = .slot pc) :
    MainStep state (state.stepSlot answer pc) := by
  cases pc with
  | await => cases answer <;> exact .moves _ _ _ _ id
  | flip => exact .flips here _
  | resetNew => exact .resets _
  | lock => exact .locks _ _
  | signal => exact .signals _ _
  | unlock => exact .locks _ _
  | resetBoundary => exact .resets _
  | watchdog =>
      rw [stepSlot]
      split_ifs <;> exact .moves _ _ _ _ id

theorem mainStep_stepStop {pc : StopPc} (here : state.main = .stopping pc) :
    MainStep state (state.stepStop pc) := by
  cases pc with
  | raiseFlag => exact .moves _ _ _ _ fun _ => rfl
  | lock => exact .locks _ _
  | signal => exact .signals _ _
  | unlock =>
      rw [stepStop]
      split <;> exact .locks _ _
  | cancel => exact .moves _ _ _ _ id
  | close => exact .moves _ _ _ _ id
  | freeFftw => exact .freesFftw here _
  | joinDecoder =>
      rw [stepStop]
      split <;> exact .moves _ _ _ _ id
  | joinRx => exact .moves _ _ _ _ id

theorem mainStep_stepMain : MainStep state (state.stepMain maxloop answer) := by
  rw [stepMain]
  split
  next caller pc _ => exact state.mainStep_stepStart caller answer pc
  next => exact .moves _ _ _ _ id
  next => exact .createsDecoder _
  next => split <;> exact .moves _ _ _ _ id
  next pc here => exact state.mainStep_stepSlot answer here
  next pc _ => cases pc <;> exact .moves _ _ _ _ id
  next pc here => exact state.mainStep_stepStop here
  next => exact .moves _ _ _ _ id

end Frames

namespace MainStep

variable {state next : State}

/-- Main changes the current buffer only when it flips the buffers. -/
theorem bufferIndex (mainStep : MainStep state next) (notFlip : state.main ≠ .slot .flip) :
    next.buffers.bufferIndex = state.buffers.bufferIndex := by
  cases mainStep with
  | flips here => exact absurd here notFlip
  | _ => rfl

/-- `exit_flag` is never reset. -/
theorem exitFlag (mainStep : MainStep state next) (raised : state.exitFlag = true) :
    next.exitFlag = true := by
  cases mainStep with
  | moves _ _ _ _ flag => exact flag raised
  | _ => exact raised

theorem fftwFreed (mainStep : MainStep state next)
    (notFree : state.main ≠ .stopping .freeFftw) : next.fftwFreed = state.fftwFreed := by
  cases mainStep with
  | freesFftw here => exact absurd here notFree
  | _ => rfl

/-- Main wakes a waiting decoder or creates one, and moves it in no other way. -/
theorem decoderPc (mainStep : MainStep state next) :
    next.decoding.pc = state.decoding.pc ∨ next.decoding.pc = .woken ∨
      next.decoding.pc = .loopTest := by
  cases mainStep with
  | signals signalled main =>
      by_cases blocked : state.decoding.pc = .waiting
      · exact Or.inr (Or.inl (by simp [Decoding.condSignal, blocked]))
      · exact Or.inl (by rw [Decoding.condSignal_of_ne blocked])
  | createsDecoder => exact Or.inr (Or.inr rfl)
  | _ => exact Or.inl rfl

end MainStep

/-! ## Decoder -/

def moveDecoder (state : State) (pc : DecoderPc) : State :=
  { state with decoding := { state.decoding with pc := pc } }

/-- One step of `decoder`.  The answer is that of `malloc` in `ft8_subsystem`. -/
def stepDecoder (build : Build) (state : State) (answer : Bool) : State :=
  match state.decoding.pc with
  | .notCreated => state
  | .loopTest => if state.exitFlag then state.moveDecoder .returned else state.moveDecoder .lock
  | .lock => (state.lockReady .decoder).moveDecoder .wait
  | .wait => state.unlockReady.moveDecoder .waiting
  | .waiting => state
  | .woken => (state.lockReady .decoder).moveDecoder .unlock
  | .unlock => state.unlockReady.moveDecoder .exitTest
  | .exitTest => if state.exitFlag then state.moveDecoder .returned else state.moveDecoder .select
  | .select => { state with decoding := state.decoding.takeUp state.buffers.prevBuffer }
  | .checkLength prevBuffer =>
      if state.buffers.iqIndex prevBuffer < shortestWindow build then state.moveDecoder .loopTest
      else
        { state with
          decoding :=
            { state.decoding with nloop := state.decoding.nloop + 1, pc := .clean prevBuffer } }
  | .clean prevBuffer => state.moveDecoder (.normalise prevBuffer)
  | .normalise prevBuffer => state.moveDecoder (.allocate prevBuffer)
  | .allocate prevBuffer =>
      if answer then state.moveDecoder (.transform prevBuffer slotTransforms)
      else state.moveDecoder (.saveSample prevBuffer)
  | .transform prevBuffer 0 => state.moveDecoder (.decode prevBuffer)
  | .transform prevBuffer (left + 1) => state.moveDecoder (.transform prevBuffer left)
  | .decode prevBuffer => state.moveDecoder (.saveSample prevBuffer)
  | .saveSample _ => state.moveDecoder .postSpots
  | .postSpots => state.moveDecoder .loopTest
  | .returned => state

/-- The decoder changes nothing but its own part of the state. -/
theorem stepDecoder_frame (build : Build) (state : State) (answer : Bool) :
    ∃ decoding, state.stepDecoder build answer = { state with decoding := decoding } := by
  rw [stepDecoder]
  split <;> first | exact ⟨_, rfl⟩ | (split <;> exact ⟨_, rfl⟩)

/-! ## Receiver threads -/

def setRxPc (state : State) (thread : Nat) (pc : RxPc) : State :=
  { state with radio := state.radio.setPc thread pc }

/-- The callback stores one sample at the index of `idx`. -/
def storeSample (build : Build) (state : State) (idx : Fin 2) : State :=
  if state.buffers.iqIndex idx < windowLength build then
    { state with
      buffers :=
        { state.buffers with
          iqIndex := Function.update state.buffers.iqIndex idx (state.buffers.iqIndex idx + 1) } }
  else state

/-- One step of a thread in `rtlsdr_rx`.  The answer is that of the device: it
delivers another buffer, or the callback finds another output sample in it. -/
def stepRx (build : Build) (state : State) (thread : Nat) (answer : Bool) : State :=
  match state.radio.threads[thread]?.map RxThread.pc with
  | none => state
  | some .created => state.setRxPc thread (state.radio.beginRead answer)
  | some (.reading device .idle) =>
      if answer then state.setRxPc thread (.reading device .filtering)
      else state.setRxPc thread .returned
  | some (.reading device .filtering) =>
      if answer then
        state.setRxPc thread (.reading device (.storing state.buffers.bufferIndex))
      else
        { state.setRxPc thread (.reading device .idle) with
          watchdog :=
            { state.watchdog with callbackCounter := state.watchdog.callbackCounter + 1 } }
  | some (.reading device (.storing idx)) =>
      (state.storeSample build idx).setRxPc thread (.reading device .filtering)
  | some .returned => state.setRxPc thread .finished
  | some .finished => state

theorem storeSample_frame (build : Build) (state : State) (idx : Fin 2) :
    ∃ iqIndex, state.storeSample build idx =
      { state with buffers := { state.buffers with iqIndex := iqIndex } } := by
  rw [storeSample]
  split <;> exact ⟨_, rfl⟩

/-- What a receiver thread can do: store a sample, count a buffer, and move.
The buffer of the next sample is the current one. -/
inductive RxStep (state : State) (thread : Nat) : State → Prop where
  | stays : RxStep state thread state
  | moves (iqIndex : Fin 2 → Nat) (watchdog : Watchdog) (pc : RxPc)
      (storesHere : ∀ idx, pc.storesTo = some idx → idx = state.buffers.bufferIndex) :
      RxStep state thread
        { state with
          buffers := { state.buffers with iqIndex := iqIndex }
          watchdog := watchdog
          radio := state.radio.setPc thread pc }

theorem rxStep_stepRx (build : Build) (state : State) (thread : Nat) (answer : Bool) :
    RxStep state thread (state.stepRx build thread answer) := by
  have moves : ∀ pc : RxPc, pc.storesTo = none →
      RxStep state thread (state.setRxPc thread pc) :=
    fun pc storesNot => .moves _ _ pc (by simp [storesNot])
  rw [stepRx]
  split
  next => exact .stays
  next =>
    have storesNot : (state.radio.beginRead answer).storesTo = none := by
      rw [Radio.beginRead]
      split
      · rfl
      · split <;> rfl
    exact moves _ storesNot
  next device _ =>
    split
    · exact moves (.reading device .filtering) rfl
    · exact moves .returned rfl
  next device _ =>
    split
    · exact .moves _ _ _ fun idx stores => (Option.some.inj stores).symm
    · exact .moves _ _ (.reading device .idle) fun idx stores => nomatch stores
  next device idx _ =>
    obtain ⟨iqIndex, stored⟩ := state.storeSample_frame build idx
    rw [stored]
    exact .moves iqIndex _ (.reading device .filtering) fun idx stores => nomatch stores
  next => exact moves .finished rfl
  next => exact .stays

end State

/-! ## Runs -/

/-- The events of the threads, the keyboard and the signal handler. -/
inductive Event where
  | main (answer : Bool)
  | decoder (answer : Bool)
  | spuriousWakeUp
  | rx (thread : Nat) (answer : Bool)
  | programQuit
  | signalCaught
  | handlerCancel
  deriving DecidableEq

def step (maxloop : Nat) (build : Build) (state : State) : Event → State
  | .main answer => state.stepMain maxloop answer
  | .decoder answer => state.stepDecoder build answer
  | .spuriousWakeUp => state.moveDecoder .woken
  | .rx thread answer => state.stepRx build thread answer
  | .programQuit => { state with exitFlag := true }
  | .signalCaught =>
      { state with
        exitFlag := true
        radio :=
          { state.radio with
            handlers := state.radio.handlers + state.radio.rtlDevice.toList.length } }
  | .handlerCancel =>
      { state with radio := { state.radio with handlers := state.radio.handlers - 1 } }

/-- Main can take its next step. -/
def MainReady (state : State) : Prop :=
  match state.main with
  | .slot .lock | .stopping .lock => state.decoding.readyMutex = none
  | .restarting .join | .stopping .joinRx => state.radio.RxThreadFinished
  | .stopping .joinDecoder => state.decoding.pc = .returned
  | .finished => False
  | _ => True

/-- The decoder can take its next step. -/
def DecoderReady (decoding : Decoding) : Prop :=
  match decoding.pc with
  | .notCreated | .waiting | .returned => False
  | .lock | .woken => decoding.readyMutex = none
  | _ => True

/-- When an event can happen. -/
def Enabled (state : State) : Event → Prop
  | .main _ => MainReady state
  | .decoder _ => DecoderReady state.decoding
  | .spuriousWakeUp => state.decoding.pc = .waiting
  | .rx thread _ => (state.radio.threads[thread]?).any (·.pc != .finished) = true
  | .programQuit | .signalCaught => True
  | .handlerCancel => 0 < state.radio.handlers

instance instDecidableMainReady (state : State) : Decidable (MainReady state) := by
  unfold MainReady
  split <;> infer_instance

instance instDecidableDecoderReady (decoding : Decoding) : Decidable (DecoderReady decoding) := by
  unfold DecoderReady
  split <;> infer_instance

instance instDecidableEnabled (state : State) (event : Event) :
    Decidable (Enabled state event) := by
  cases event <;> unfold Enabled <;> infer_instance

/-- The device starts and main creates its threads. -/
def startUpEvents : List Event :=
  List.replicate 11 (.main true)

end Receiver

end RtlsdrFt8d
