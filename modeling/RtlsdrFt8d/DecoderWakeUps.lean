import RtlsdrFt8d.ReceiverThreads

/-!
# Wake-ups of the decoder

The wait of the decoder has no predicate: a signal that finds the decoder
elsewhere is lost.  A run loses no wake-up if every signal comes while the
decoder waits or is on its way to the window in question.
-/

namespace RtlsdrFt8d

namespace Receiver

/-! ## Phases -/

/-- Main holds `ready_mutex`. -/
@[simp]
def MainPc.HoldsReady : MainPc → Prop
  | .slot .signal | .slot .unlock | .stopping .signal | .stopping .unlock => True
  | _ => False

/-- A window has ended and is not signalled yet. -/
@[simp]
def MainPc.Unsignalled : MainPc → Prop
  | .slot .resetNew | .slot .lock | .slot .signal => True
  | _ => False

@[simp]
def MainPc.BeforeDecoder : MainPc → Prop
  | .starting .startUp _ | .createRx | .createDecoder => True
  | _ => False

/-- Main has signalled for the last time. -/
@[simp]
def MainPc.PastExitSignal : MainPc → Prop
  | .stopping .unlock | .stopping .cancel | .stopping .close | .stopping .freeFftw
  | .stopping .joinDecoder | .stopping .joinRx | .finished => True
  | _ => False

/-- The decoder holds `ready_mutex`. -/
@[simp]
def DecoderPc.HoldsReady : DecoderPc → Prop
  | .wait | .unlock => True
  | _ => False

/-- The decoder has been woken and has not yet selected a window. -/
@[simp]
def DecoderPc.OnItsWay : DecoderPc → Prop
  | .woken | .unlock | .exitTest | .select => True
  | _ => False

/-- The decoder has tested `exit_flag` and blocks in the wait next, or is blocked. -/
@[simp]
def DecoderPc.Waits : DecoderPc → Prop
  | .lock | .wait | .waiting => True
  | _ => False

/-- The window in the buffer that the decoder would select has been taken up. -/
def LastTakenUp (state : State) : Prop :=
  ∀ window ∈ state.decoding.windowIn state.buffers.prevBuffer,
    window ∈ state.decoding.takenUp

instance instDecidablePastExitSignal (pc : MainPc) : Decidable pc.PastExitSignal := by
  unfold MainPc.PastExitSignal
  split <;> infer_instance

instance instDecidableOnItsWay (pc : DecoderPc) : Decidable pc.OnItsWay := by
  unfold DecoderPc.OnItsWay
  split <;> infer_instance

instance instDecidableLastTakenUp (state : State) : Decidable (LastTakenUp state) :=
  inferInstanceAs (Decidable (∀ window ∈ state.decoding.windowIn _, _))

/-! ## The property -/

/-- A blocked decoder has taken up every signalled window, and there is a signal
to come. -/
def WakeUpsKept (state : State) : Prop :=
  state.decoding.pc = .waiting →
    (∀ window < state.decoding.signalled, window ∈ state.decoding.takenUp) ∧
      ¬ state.main.PastExitSignal

/-- When a step of main cannot lose a wake-up: the buffers are not flipped under
a decoder on its way to the last window, a window is signalled to a decoder that
waits or is on its way, unless it has that window already or has returned, and
the exit is not signalled to a decoder about to wait. -/
def SignalsInTime (state : State) : Event → Prop
  | .main _ =>
      (state.main = .slot .flip → state.decoding.pc.OnItsWay → LastTakenUp state) ∧
        (state.main = .slot .signal →
          state.decoding.pc = .waiting ∨ state.decoding.pc.OnItsWay ∨
            LastTakenUp state ∨ state.decoding.pc = .returned) ∧
        (state.main = .stopping .signal → state.decoding.pc ≠ .lock)
  | _ => True

instance instDecidableSignalsInTime (state : State) :
    ∀ event, Decidable (SignalsInTime state event)
  | .main _ => inferInstanceAs (Decidable (_ ∧ _))
  | .decoder _ => isTrue trivial
  | .spuriousWakeUp | .rx _ _ | .programQuit | .signalCaught | .handlerCancel => isTrue trivial

/-! ## The invariant -/

structure WakeUpInvariant (state : State) : Prop where
  mainHolds : state.main.HoldsReady ↔ state.decoding.readyMutex = some .main
  decoderHolds : state.decoding.pc.HoldsReady ↔ state.decoding.readyMutex = some .decoder
  signalledAll : ¬ state.main.Unsignalled → state.decoding.ended = state.decoding.signalled
  signalledRest : state.main.Unsignalled → state.decoding.ended = state.decoding.signalled + 1
  lastWindow : ∀ window,
    state.decoding.windowIn state.buffers.prevBuffer = some window ↔
      window + 1 = state.decoding.ended
  takenUp : ∀ window < state.decoding.signalled, window ∈ state.decoding.takenUp ∨
    window + 1 = state.decoding.ended ∧ state.decoding.pc.OnItsWay ∨
      state.decoding.pc = .returned
  notCreated : state.main.BeforeDecoder → state.decoding.pc = .notCreated
  flagRaised : state.main.FlagRaised → state.exitFlag = true
  lastSignal : state.main.PastExitSignal → ¬ state.decoding.pc.Waits
  leaves : state.main.PastExitSignal → state.exitFlag = true ∨ state.decoding.pc = .notCreated

theorem wakeUpInvariant_start : WakeUpInvariant start := by
  constructor <;> simp [start]

namespace WakeUpInvariant

variable {maxloop : Nat} {build : Build} {state next : State}

/-- Steps that touch neither the decoder nor the windows keep the invariant. -/
theorem of_sameDecoding (invariant : WakeUpInvariant state)
    (decoding : next.decoding = state.decoding)
    (bufferIndex : next.buffers.bufferIndex = state.buffers.bufferIndex)
    (flag : state.exitFlag = true → next.exitFlag = true)
    (holds : next.main.HoldsReady ↔ state.main.HoldsReady)
    (unsignalled : next.main.Unsignalled ↔ state.main.Unsignalled)
    (before : next.main.BeforeDecoder → state.main.BeforeDecoder)
    (raised : next.main.FlagRaised → state.main.FlagRaised ∨ next.exitFlag = true)
    (past : next.main.PastExitSignal → state.main.PastExitSignal ∨ state.main.BeforeDecoder) :
    WakeUpInvariant next where
  mainHolds := by rw [holds, decoding, invariant.mainHolds]
  decoderHolds := by rw [decoding, invariant.decoderHolds]
  signalledAll := by rw [unsignalled, decoding]; exact invariant.signalledAll
  signalledRest := by rw [unsignalled, decoding]; exact invariant.signalledRest
  lastWindow := by
    rw [decoding, SampleBuffers.prevBuffer_congr bufferIndex]
    exact invariant.lastWindow
  takenUp := by rw [decoding]; exact invariant.takenUp
  notCreated := by rw [decoding]; exact fun isBefore => invariant.notCreated (before isBefore)
  flagRaised := by
    intro isRaised
    rcases raised isRaised with wasRaised | nowRaised
    · exact flag (invariant.flagRaised wasRaised)
    · exact nowRaised
  lastSignal := by
    intro isPast
    rw [decoding]
    rcases past isPast with wasPast | wasBefore
    · exact invariant.lastSignal wasPast
    · simp [invariant.notCreated wasBefore, DecoderPc.Waits]
  leaves := by
    intro isPast
    rw [decoding]
    rcases past isPast with wasPast | wasBefore
    · exact (invariant.leaves wasPast).imp_left flag
    · exact Or.inr (invariant.notCreated wasBefore)

theorem startFailed (invariant : WakeUpInvariant state) {caller : StartCaller} {pc : StartPc}
    (here : state.main = .starting caller pc) (radio : Radio) :
    WakeUpInvariant ({ state with radio := radio }.startFailed caller) := by
  cases caller <;>
    apply invariant.of_sameDecoding <;> simp +contextual [State.startFailed, here]

theorem startSucceeded (invariant : WakeUpInvariant state) {caller : StartCaller}
    {pc : StartPc} (here : state.main = .starting caller pc) (radio : Radio) :
    WakeUpInvariant ({ state with radio := radio }.startSucceeded caller) := by
  cases caller <;>
    apply invariant.of_sameDecoding <;> simp [State.startSucceeded, here]

theorem stepStart (invariant : WakeUpInvariant state) {caller : StartCaller} {pc : StartPc}
    (here : state.main = .starting caller pc) (answer : Bool) :
    WakeUpInvariant (state.stepStart caller answer pc) := by
  have moves : ∀ (radio : Radio) (pc : StartPc),
      WakeUpInvariant { state with radio := radio, main := .starting caller pc } := by
    intro radio pc
    cases caller <;> apply invariant.of_sameDecoding <;> simp [here]
  cases pc with
  | getDeviceCount =>
      rw [State.stepStart]
      split
      · exact moves state.radio .openDevice
      · exact invariant.startFailed here state.radio
  | openDevice =>
      rw [State.stepStart]
      split
      · exact moves state.radio.openDevice (.configure .gain)
      · exact invariant.startFailed here state.radio
  | configure setting =>
      rw [State.stepStart]
      split
      · cases setting.next with
        | some following => exact moves state.radio (.configure following)
        | none => exact moves state.radio .createThread
      · exact moves state.radio .closeDevice
  | closeDevice => exact moves state.radio.closeDevice .clearDevice
  | clearDevice => exact invariant.startFailed here state.radio.clearDevice
  | createThread => exact invariant.startSucceeded here state.radio.createThread

theorem stepRestart (invariant : WakeUpInvariant state) {pc : RestartPc}
    (here : state.main = .restarting pc) : WakeUpInvariant (state.stepRestart pc) := by
  cases pc <;> apply invariant.of_sameDecoding <;> simp [State.stepRestart, here]

theorem stepRx (invariant : WakeUpInvariant state) (thread : Nat) (answer : Bool) :
    WakeUpInvariant (state.stepRx build thread answer) := by
  have rxStep := state.rxStep_stepRx build thread answer
  generalize state.stepRx build thread answer = next at rxStep ⊢
  cases rxStep with
  | stays => exact invariant
  | moves iqIndex watchdog pc _ => apply invariant.of_sameDecoding <;> simp +contextual

/-- While main signals, the decoder does not hold the lock. -/
theorem not_holdsReady (invariant : WakeUpInvariant state) (holds : state.main.HoldsReady) :
    ¬ state.decoding.pc.HoldsReady := by
  rw [invariant.decoderHolds, invariant.mainHolds.mp holds]
  simp

theorem not_holdsReady_of_none (invariant : WakeUpInvariant state)
    (free : state.decoding.readyMutex = none) : ¬ state.decoding.pc.HoldsReady := by
  rw [invariant.decoderHolds, free]
  simp

theorem flip (invariant : WakeUpInvariant state) (here : state.main = .slot .flip)
    (inTime : state.decoding.pc.OnItsWay → LastTakenUp state) :
    WakeUpInvariant { state.flip with main := .slot .resetNew } where
  mainHolds := by simpa [here, State.flip, Decoding.endWindow] using invariant.mainHolds
  decoderHolds := invariant.decoderHolds
  signalledAll := by simp
  signalledRest := by
    have all := invariant.signalledAll (by simp [here])
    simp [State.flip, Decoding.endWindow, all]
  lastWindow := by
    intro window
    rw [state.prevBuffer_flip]
    simp [State.flip, Decoding.endWindow, eq_comm]
  takenUp := by
    intro window isSignalled
    rcases invariant.takenUp window isSignalled with isTaken | ⟨isLast, onItsWay⟩ | hasReturned
    · exact Or.inl isTaken
    · exact Or.inl (inTime onItsWay window ((invariant.lastWindow window).mpr isLast))
    · exact Or.inr (Or.inr hasReturned)
  notCreated := by simp
  flagRaised := by simp
  lastSignal := by simp
  leaves := by simp

/-- Main takes or releases the lock. -/
theorem setLock (invariant : WakeUpInvariant state) {pc : MainPc} {mutex : Option Party}
    (free : ¬ state.decoding.pc.HoldsReady) (mutexIs : mutex ≠ some .decoder)
    (holds : pc.HoldsReady ↔ mutex = some .main)
    (unsignalled : pc.Unsignalled ↔ state.main.Unsignalled)
    (before : ¬ pc.BeforeDecoder)
    (raised : pc.FlagRaised → state.main.FlagRaised)
    (past : pc.PastExitSignal → state.main.PastExitSignal) :
    WakeUpInvariant
      { state with
        decoding := { state.decoding with readyMutex := mutex }
        main := pc } where
  mainHolds := holds
  decoderHolds := iff_of_false free mutexIs
  signalledAll := fun settled => invariant.signalledAll (mt unsignalled.mpr settled)
  signalledRest := fun owed => invariant.signalledRest (unsignalled.mp owed)
  lastWindow := invariant.lastWindow
  takenUp := invariant.takenUp
  notCreated := fun isBefore => absurd isBefore before
  flagRaised := fun isRaised => invariant.flagRaised (raised isRaised)
  lastSignal := fun isPast => invariant.lastSignal (past isPast)
  leaves := fun isPast => invariant.leaves (past isPast)

/-- A signal wakes a decoder that waits and leaves any other alone. -/
theorem condSignal_holdsReady_iff (decoding : Decoding) :
    decoding.condSignal.pc.HoldsReady ↔ decoding.pc.HoldsReady := by
  by_cases blocked : decoding.pc = .waiting
  · simp [Decoding.condSignal, blocked]
  · rw [Decoding.condSignal_of_ne blocked]

theorem signalWindow (invariant : WakeUpInvariant state) (here : state.main = .slot .signal)
    (inTime : state.decoding.pc = .waiting ∨ state.decoding.pc.OnItsWay ∨
      LastTakenUp state ∨ state.decoding.pc = .returned) :
    WakeUpInvariant
      { state with
        decoding :=
          { state.decoding.condSignal with signalled := state.decoding.signalled + 1 }
        main := .slot .unlock } where
  mainHolds := by simpa [here, Decoding.condSignal] using invariant.mainHolds
  decoderHolds := (condSignal_holdsReady_iff state.decoding).trans invariant.decoderHolds
  signalledAll := fun _ => invariant.signalledRest (by simp [here])
  signalledRest := by simp
  lastWindow := invariant.lastWindow
  takenUp := by
    have rest := invariant.signalledRest (by simp [here])
    intro window isSignalled
    rcases Nat.lt_succ_iff_lt_or_eq.mp isSignalled with isEarlier | isLast
    · rcases invariant.takenUp window isEarlier with isTaken | ⟨isLast, -⟩ | hasReturned
      · exact Or.inl isTaken
      · omega
      · right; right
        simp [Decoding.condSignal, hasReturned]
    · have lastEnded : window + 1 = state.decoding.ended := by rw [rest, isLast]
      by_cases blocked : state.decoding.pc = .waiting
      · exact Or.inr (Or.inl ⟨lastEnded, by simp [Decoding.condSignal, blocked]⟩)
      · rw [Decoding.condSignal_of_ne blocked]
        rcases inTime.resolve_left blocked with onItsWay | lastTakenUp | hasReturned
        · exact Or.inr (Or.inl ⟨lastEnded, onItsWay⟩)
        · exact Or.inl (lastTakenUp window ((invariant.lastWindow window).mpr lastEnded))
        · exact Or.inr (Or.inr hasReturned)
  notCreated := by simp
  flagRaised := by simp
  lastSignal := by simp
  leaves := by simp

theorem signalExit (invariant : WakeUpInvariant state) (here : state.main = .stopping .signal)
    (inTime : state.decoding.pc ≠ .lock) :
    WakeUpInvariant { state.condSignal with main := .stopping .unlock } where
  mainHolds := by simpa [here, State.condSignal, Decoding.condSignal] using invariant.mainHolds
  decoderHolds := (condSignal_holdsReady_iff state.decoding).trans invariant.decoderHolds
  signalledAll := fun _ => invariant.signalledAll (by simp [here])
  signalledRest := by simp
  lastWindow := invariant.lastWindow
  takenUp := by
    intro window isSignalled
    rcases invariant.takenUp window isSignalled with isTaken | ⟨isLast, onItsWay⟩ | hasReturned
    · exact Or.inl isTaken
    · have notBlocked : state.decoding.pc ≠ .waiting := by
        intro blocked
        simp [blocked] at onItsWay
      rw [State.condSignal, Decoding.condSignal_of_ne notBlocked]
      exact Or.inr (Or.inl ⟨isLast, onItsWay⟩)
    · right; right
      simp [State.condSignal, Decoding.condSignal, hasReturned]
  notCreated := by simp
  flagRaised := fun _ => invariant.flagRaised (by simp [here])
  lastSignal := by
    intro _
    have lockFree := invariant.not_holdsReady (by simp [here])
    by_cases blocked : state.decoding.pc = .waiting
    · simp [State.condSignal, Decoding.condSignal, blocked]
    · rw [State.condSignal, Decoding.condSignal_of_ne blocked]
      cases pcIs : state.decoding.pc <;> simp_all
  leaves := fun _ => Or.inl (invariant.flagRaised (by simp [here]))

theorem stepSlot (invariant : WakeUpInvariant state) {pc : SlotPc}
    (here : state.main = .slot pc) (ready : MainReady state)
    (inTime : SignalsInTime state (.main true)) (answer : Bool) :
    WakeUpInvariant (state.stepSlot answer pc) := by
  cases pc with
  | await =>
      rw [State.stepSlot]
      split <;> apply invariant.of_sameDecoding <;> simp [here]
  | flip => exact invariant.flip here (inTime.1 here)
  | resetNew =>
      apply invariant.of_sameDecoding <;> simp [State.stepSlot, State.resetIndex, here]
  | lock =>
      have free : state.decoding.readyMutex = none := by simpa [MainReady, here] using ready
      apply invariant.setLock (invariant.not_holdsReady_of_none free) <;> simp [here]
  | signal => exact invariant.signalWindow here (inTime.2.1 here)
  | unlock =>
      have decoderOut := invariant.not_holdsReady (by simp [here])
      apply invariant.setLock decoderOut <;> simp [here]
  | resetBoundary =>
      apply invariant.of_sameDecoding <;> simp [State.stepSlot, State.resetIndex, here]
  | watchdog =>
      rw [State.stepSlot]
      split
      · apply invariant.of_sameDecoding <;> simp [here]
      · split
        · split <;> apply invariant.of_sameDecoding <;> simp [here]
        · apply invariant.of_sameDecoding <;> simp [here]

theorem stepStop (invariant : WakeUpInvariant state) {pc : StopPc}
    (here : state.main = .stopping pc) (ready : MainReady state)
    (inTime : SignalsInTime state (.main true)) : WakeUpInvariant (state.stepStop pc) := by
  cases pc with
  | raiseFlag => apply invariant.of_sameDecoding <;> simp [State.stepStop, here]
  | lock =>
      have free : state.decoding.readyMutex = none := by simpa [MainReady, here] using ready
      apply invariant.setLock (invariant.not_holdsReady_of_none free) <;> simp [here]
  | signal => exact invariant.signalExit here (inTime.2.2 here)
  | unlock =>
      have decoderOut := invariant.not_holdsReady (by simp [here])
      rw [State.stepStop]
      split <;> apply invariant.setLock decoderOut <;> simp [here]
  | cancel => apply invariant.of_sameDecoding <;> simp [State.stepStop, here]
  | close => apply invariant.of_sameDecoding <;> simp [State.stepStop, here]
  | freeFftw => apply invariant.of_sameDecoding <;> simp [State.stepStop, here]
  | joinDecoder =>
      rw [State.stepStop]
      split <;> apply invariant.of_sameDecoding <;> simp [here]
  | joinRx => apply invariant.of_sameDecoding <;> simp [State.stepStop, here]

theorem createDecoder (invariant : WakeUpInvariant state) (here : state.main = .createDecoder) :
    WakeUpInvariant
      { state with decoding := { state.decoding with pc := .loopTest }, main := .loopTest } where
  mainHolds := by simpa [here] using invariant.mainHolds
  decoderHolds := by
    have holds := invariant.decoderHolds
    simpa [invariant.notCreated (by simp [here])] using holds
  signalledAll := fun _ => invariant.signalledAll (by simp [here])
  signalledRest := by simp
  lastWindow := invariant.lastWindow
  takenUp := by
    intro window isSignalled
    have isTaken := invariant.takenUp window isSignalled
    simp only [invariant.notCreated (by simp [here])] at isTaken
    simpa using isTaken
  notCreated := by simp
  flagRaised := by simp
  lastSignal := by simp
  leaves := by simp

theorem stepMain (invariant : WakeUpInvariant state) (ready : MainReady state)
    (answer : Bool) (inTime : SignalsInTime state (.main answer)) :
    WakeUpInvariant (state.stepMain maxloop answer) := by
  rw [State.stepMain]
  split
  next caller pc here => exact invariant.stepStart here answer
  next here => apply invariant.of_sameDecoding <;> simp [here]
  next here => exact invariant.createDecoder here
  next here => split <;> apply invariant.of_sameDecoding <;> simp [here]
  next pc here => exact invariant.stepSlot here ready inTime answer
  next pc here => exact invariant.stepRestart here
  next pc here => exact invariant.stepStop here ready inTime
  next => exact invariant

/-- A step of the decoder keeps the invariant if the decoder takes up the window
it was on its way to and, once main has signalled for the last time, does not
wait again. -/
theorem of_decoderStep (invariant : WakeUpInvariant state)
    (main : next.main = state.main) (exitFlag : next.exitFlag = state.exitFlag)
    (bufferIndex : next.buffers.bufferIndex = state.buffers.bufferIndex)
    (ended : next.decoding.ended = state.decoding.ended)
    (windowIn : next.decoding.windowIn = state.decoding.windowIn)
    (signalled : next.decoding.signalled = state.decoding.signalled)
    (takenUp : state.decoding.takenUp ⊆ next.decoding.takenUp)
    (mainMutex : next.decoding.readyMutex = some .main ↔ state.decoding.readyMutex = some .main)
    (decoderMutex : next.decoding.pc.HoldsReady ↔ next.decoding.readyMutex = some .decoder)
    (created : state.decoding.pc ≠ .notCreated)
    (notReturned : state.decoding.pc ≠ .returned)
    (onItsWay : state.decoding.pc.OnItsWay →
      next.decoding.pc.OnItsWay ∨ next.decoding.pc = .returned ∨ LastTakenUp next)
    (waits : next.decoding.pc.Waits → state.decoding.pc.Waits ∨ state.exitFlag = false) :
    WakeUpInvariant next where
  mainHolds := by rw [main, mainMutex, invariant.mainHolds]
  decoderHolds := decoderMutex
  signalledAll := by rw [main, ended, signalled]; exact invariant.signalledAll
  signalledRest := by rw [main, ended, signalled]; exact invariant.signalledRest
  lastWindow := by
    rw [windowIn, SampleBuffers.prevBuffer_congr bufferIndex, ended]
    exact invariant.lastWindow
  takenUp := by
    rw [signalled, ended]
    intro window isSignalled
    rcases invariant.takenUp window isSignalled with isTaken | ⟨isLast, wasOnItsWay⟩ | hasReturned
    · exact Or.inl (takenUp isTaken)
    · rcases onItsWay wasOnItsWay with isOnItsWay | hasReturned | lastTakenUp
      · exact Or.inr (Or.inl ⟨isLast, isOnItsWay⟩)
      · exact Or.inr (Or.inr hasReturned)
      · left
        apply lastTakenUp
        rw [windowIn, SampleBuffers.prevBuffer_congr bufferIndex]
        exact (invariant.lastWindow window).mpr isLast
    · exact absurd hasReturned notReturned
  notCreated := by
    rw [main]
    exact fun isBefore => absurd (invariant.notCreated isBefore) created
  flagRaised := by rw [main, exitFlag]; exact invariant.flagRaised
  lastSignal := by
    rw [main]
    intro isPast nowWaits
    rcases waits nowWaits with waited | flagDown
    · exact invariant.lastSignal isPast waited
    · rcases invariant.leaves isPast with flagUp | neverCreated
      · simp [flagUp] at flagDown
      · exact created neverCreated
  leaves := by
    rw [main, exitFlag]
    exact fun isPast => (invariant.leaves isPast).imp_right fun never => absurd never created

/-- The decoder moves on without touching the lock. -/
theorem moveDecoder (invariant : WakeUpInvariant state) {pc : DecoderPc}
    (wasOut : ¬ state.decoding.pc.HoldsReady) (isOut : ¬ pc.HoldsReady)
    (created : state.decoding.pc ≠ .notCreated) (notReturned : state.decoding.pc ≠ .returned)
    (onItsWay : state.decoding.pc.OnItsWay → pc.OnItsWay ∨ pc = .returned)
    (waits : pc.Waits → state.decoding.pc.Waits ∨ state.exitFlag = false) :
    WakeUpInvariant (state.moveDecoder pc) :=
  invariant.of_decoderStep rfl rfl rfl rfl rfl rfl (List.Subset.refl _) Iff.rfl
    (iff_of_false isOut (mt invariant.decoderHolds.mpr wasOut)) created notReturned
    (fun wasOnItsWay => (onItsWay wasOnItsWay).imp_right Or.inl) waits

theorem takeUp (invariant : WakeUpInvariant state) (here : state.decoding.pc = .select) :
    WakeUpInvariant
      { state with decoding := state.decoding.takeUp state.buffers.prevBuffer } := by
  have mutexIs := invariant.decoderHolds
  apply invariant.of_decoderStep <;> try simp [Decoding.takeUp, here]
  · simpa [here] using mutexIs
  · intro window isLast
    have holdsLast : state.decoding.windowIn state.buffers.prevBuffer = some window :=
      isLast
    simp [holdsLast]

theorem stepDecoder (invariant : WakeUpInvariant state) (ready : DecoderReady state.decoding)
    (answer : Bool) : WakeUpInvariant (state.stepDecoder build answer) := by
  rw [State.stepDecoder]
  split
  next here => exact invariant
  next here =>
    split
    · apply invariant.moveDecoder <;> simp [here]
    · apply invariant.moveDecoder <;> simp_all
  next here =>
    have free : state.decoding.readyMutex = none := by simpa [DecoderReady, here] using ready
    apply invariant.of_decoderStep <;> simp [State.lockReady, State.moveDecoder, here, free]
  next here =>
    have mutexIs := invariant.decoderHolds.mp (by simp [here])
    apply invariant.of_decoderStep <;>
      simp [State.unlockReady, State.moveDecoder, here, mutexIs]
  next here => exact invariant
  next here =>
    have free : state.decoding.readyMutex = none := by simpa [DecoderReady, here] using ready
    apply invariant.of_decoderStep <;> simp [State.lockReady, State.moveDecoder, here, free]
  next here =>
    have mutexIs := invariant.decoderHolds.mp (by simp [here])
    apply invariant.of_decoderStep <;>
      simp [State.unlockReady, State.moveDecoder, here, mutexIs]
  next here => split <;> apply invariant.moveDecoder <;> simp [here]
  next here => exact invariant.takeUp here
  next prevBuffer here =>
    split
    · apply invariant.moveDecoder <;> simp [here]
    · have mutexIs := invariant.decoderHolds
      apply invariant.of_decoderStep <;> simp_all
  next here => apply invariant.moveDecoder <;> simp [here]
  next here => apply invariant.moveDecoder <;> simp [here]
  next here => split <;> apply invariant.moveDecoder <;> simp [here]
  next here => apply invariant.moveDecoder <;> simp [here]
  next here => apply invariant.moveDecoder <;> simp [here]
  next here => apply invariant.moveDecoder <;> simp [here]
  next here => apply invariant.moveDecoder <;> simp [here]
  next here => apply invariant.moveDecoder <;> simp [here]
  next here => exact invariant

theorem step (invariant : WakeUpInvariant state) {event : Event}
    (enabled : Enabled state event) (inTime : SignalsInTime state event) :
    WakeUpInvariant (step maxloop build state event) := by
  cases event with
  | main answer => exact invariant.stepMain enabled answer inTime
  | decoder answer => exact invariant.stepDecoder enabled answer
  | spuriousWakeUp =>
      have blocked : state.decoding.pc = .waiting := enabled
      apply invariant.moveDecoder <;> simp [blocked]
  | rx thread answer => exact invariant.stepRx thread answer
  | programQuit => apply invariant.of_sameDecoding <;> simp +contextual [Receiver.step]
  | signalCaught => apply invariant.of_sameDecoding <;> simp +contextual [Receiver.step]
  | handlerCancel => apply invariant.of_sameDecoding <;> simp +contextual [Receiver.step]

theorem wakeUpsKept (invariant : WakeUpInvariant state) : WakeUpsKept state := by
  intro blocked
  constructor
  · intro window isSignalled
    simpa [blocked] using invariant.takenUp window isSignalled
  · intro isPast
    exact invariant.lastSignal isPast (by simp [blocked])

end WakeUpInvariant

/-! ## Runs -/

theorem wakeUpsKept_of_signalsInTime (maxloop : Nat) (build : Build) {events : List Event}
    (enabled : EventRuns.Admissible Enabled (step maxloop build) start events)
    (inTime : EventRuns.Admissible SignalsInTime (step maxloop build) start events) :
    ∀ earlier, earlier <+: events →
      WakeUpsKept (EventRuns.run (step maxloop build) start earlier) := by
  intro earlier isPrefix
  apply WakeUpInvariant.wakeUpsKept
  exact EventRuns.admissible_invariant wakeUpInvariant_start
    (fun _ _ invariant both => invariant.step both.1 both.2)
    (EventRuns.admissible_and enabled inTime) isPrefix

/-- One window that is taken up in time, and the shutdown. -/
def punctualRun : List Event :=
  [startUpEvents, List.replicate 3 (.decoder true), List.replicate 7 (.main true),
    List.replicate 8 (.decoder true), [.main true, .main false, .programQuit],
    List.replicate 8 (.main true), List.replicate 3 (.decoder true),
    [.rx 0 false, .rx 0 false, .rx 1 false, .rx 1 false],
    List.replicate 2 (.main true)].flatten

theorem wakeUpsKept_punctualRun :
    WakeUpsKept (EventRuns.run (step 0 .wide) start punctualRun) :=
  wakeUpsKept_of_signalsInTime 0 .wide (by decide +kernel) (by decide +kernel) punctualRun
    List.prefix_rfl

/-- The decoder tests `exit_flag`, the operator quits, and main signals before
the decoder waits. -/
def hangingRun : List Event :=
  [startUpEvents,
    [.main true, .decoder true, .programQuit, .main false, .main true, .main false],
    List.replicate 8 (.main true), List.replicate 2 (.decoder true)].flatten

theorem not_wakeUpsKept_hangingRun :
    ¬ ∀ (maxloop : Nat) (build : Build) (events : List Event),
      EventRuns.Admissible Enabled (step maxloop build) start events →
        ∀ earlier, earlier <+: events →
          WakeUpsKept (EventRuns.run (step maxloop build) start earlier) := by
  intro always
  have enabled : EventRuns.Admissible Enabled (step 0 .wide) start hangingRun := by
    decide +kernel
  have kept := always 0 .wide hangingRun enabled hangingRun List.prefix_rfl
  have blocked : (EventRuns.run (step 0 .wide) start hangingRun).decoding.pc = .waiting := by
    decide +kernel
  have joining : (EventRuns.run (step 0 .wide) start hangingRun).main =
      .stopping .joinDecoder := by
    decide +kernel
  exact (kept blocked).2 (by simp [joining])

end Receiver

end RtlsdrFt8d
