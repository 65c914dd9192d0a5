import Mathlib.Data.List.DropRight
import RtlsdrFt8d.QsoMachine

/-!
# The thread of the QSO handler

`QSOHandler` runs beside the decoder thread and is stopped by
`close_qso_handler`.  An action is one operation on a queue or on the exit flag,
together with the local code up to the next one, so every order of actions is
an interleaving of the threads.
-/

namespace RtlsdrFt8d

/-! ## State -/

/-- Where `QSOHandler` stands. -/
inductive QsoThreadPc where
  | loopTest
  | waitSize
  | waitExit
  | popTicks
  | popMessages
  | update
  | finished
  deriving DecidableEq

structure ThreadState where
  /-- `thisSlot` while the decoder thread is in `decode`. -/
  thisSlot : Option Ft8Slot
  qsohQueue : List PlainMessage
  tickQueue : List Ft8Slot
  qsoExit : Bool
  pc : QsoThreadPc
  /-- The slot in `tickMsg`, which every iteration declares anew without a
  value. -/
  tickMsg : Option Ft8Slot
  handler : QsoHandler

def threadStart (adiOpens : Bool) : ThreadState where
  thisSlot := none
  qsohQueue := []
  tickQueue := []
  qsoExit := false
  pc := .loopTest
  tickMsg := none
  handler := initQsoState adiOpens

/-! ## Actions -/

/-- The actions of the decoder thread, of the main and the keyboard thread, and
of `QSOHandler` itself. -/
inductive ThreadAction where
  | beginSlot (thisSlot : Ft8Slot)
  | pushMessage (qsoMsg : PlainMessage)
  | pushTick (currentSlot : Ft8Slot)
  | closeQsoHandler
  | command (command : Command)
  | adiFile (opens : Bool)
  | enterLoop
  | leaveLoop
  | tickFound
  | tickMissing
  | exitSeen
  | sleep
  | popTick (currentSlot : Ft8Slot)
  | ticksDrained
  | popMessage (qsoMsg : PlainMessage)
  | messagesDrained
  | update (theSlot : Ft8Slot)
  deriving DecidableEq

/-- When an action can happen.  An update without a tick passes whatever
`tickMsg` holds. -/
def ThreadEnabled (state : ThreadState) : ThreadAction → Prop
  | .beginSlot _ => state.thisSlot = none
  | .pushMessage qsoMsg => state.thisSlot = some qsoMsg.ft8slot
  | .pushTick currentSlot => state.thisSlot = some currentSlot
  | .closeQsoHandler => True
  | .command _ => True
  | .adiFile _ => True
  | .enterLoop => state.pc = .loopTest ∧ state.qsoExit = false
  | .leaveLoop => state.pc = .loopTest ∧ state.qsoExit = true
  | .tickFound => state.pc = .waitSize ∧ state.tickQueue ≠ []
  | .tickMissing => state.pc = .waitSize ∧ state.tickQueue = []
  | .exitSeen => state.pc = .waitExit ∧ state.qsoExit = true
  | .sleep => state.pc = .waitExit ∧ state.qsoExit = false
  | .popTick currentSlot => state.pc = .popTicks ∧ state.tickQueue.head? = some currentSlot
  | .ticksDrained => state.pc = .popTicks ∧ state.tickQueue = []
  | .popMessage qsoMsg => state.pc = .popMessages ∧ state.qsohQueue.head? = some qsoMsg
  | .messagesDrained => state.pc = .popMessages ∧ state.qsohQueue = []
  | .update theSlot => state.pc = .update ∧ (state.tickMsg = none ∨ state.tickMsg = some theSlot)

instance (state : ThreadState) (action : ThreadAction) :
    Decidable (ThreadEnabled state action) := by
  cases action <;> unfold ThreadEnabled <;> infer_instance

def threadStep (options : Options) (state : ThreadState) : ThreadAction → ThreadState
  | .beginSlot thisSlot => { state with thisSlot := some thisSlot }
  | .pushMessage qsoMsg => { state with qsohQueue := state.qsohQueue ++ [qsoMsg] }
  | .pushTick currentSlot =>
      { state with tickQueue := state.tickQueue ++ [currentSlot], thisSlot := none }
  | .closeQsoHandler => { state with qsoExit := true }
  | .command command =>
      { state with handler := qsoStep options state.handler (.command command) }
  | .adiFile opens => { state with handler := qsoStep options state.handler (.adiFile opens) }
  | .enterLoop => { state with pc := .waitSize, tickMsg := none }
  | .leaveLoop => { state with pc := .finished }
  | .tickFound => { state with pc := .popTicks }
  | .tickMissing => { state with pc := .waitExit }
  | .exitSeen => { state with pc := .popTicks }
  | .sleep => { state with pc := .waitSize }
  | .popTick currentSlot =>
      { state with
        tickQueue := state.tickQueue.tail
        tickMsg := some currentSlot
        handler := qsoStep options state.handler .tick }
  | .ticksDrained => { state with pc := .popMessages }
  | .popMessage qsoMsg =>
      { state with
        qsohQueue := state.qsohQueue.tail
        handler := qsoStep options state.handler (.message qsoMsg) }
  | .messagesDrained => { state with pc := .update }
  | .update theSlot =>
      { state with
        pc := .loopTest
        handler := qsoStep options state.handler (.update theSlot) }

def threadRun (options : Options) (adiOpens : Bool) (trace : List ThreadAction) : ThreadState :=
  EventRuns.run (threadStep options) (threadStart adiOpens) trace

/-- The trace is an interleaving of the threads from the start of the program. -/
def Interleaving (options : Options) (adiOpens : Bool) (trace : List ThreadAction) : Prop :=
  EventRuns.Admissible ThreadEnabled (threadStep options) (threadStart adiOpens) trace

instance (options : Options) (adiOpens : Bool) (trace : List ThreadAction) :
    Decidable (Interleaving options adiOpens trace) :=
  EventRuns.decidableAdmissible _ _ _ _

theorem threadRun_append_singleton (options : Options) (adiOpens : Bool)
    (earlier : List ThreadAction) (action : ThreadAction) :
    threadRun options adiOpens (earlier ++ [action]) =
      threadStep options (threadRun options adiOpens earlier) action := by
  simp [threadRun]

/-! ## What a trace holds -/

def pushedMessages (trace : List ThreadAction) : List PlainMessage :=
  trace.filterMap fun
    | .pushMessage qsoMsg => some qsoMsg
    | _ => none

/-- The messages that `QSOHandler` hands to `addCQ` or `addQso`, or discards. -/
def poppedMessages (trace : List ThreadAction) : List PlainMessage :=
  trace.filterMap fun
    | .popMessage qsoMsg => some qsoMsg
    | _ => none

def pushedTicks (trace : List ThreadAction) : List Ft8Slot :=
  trace.filterMap fun
    | .pushTick currentSlot => some currentSlot
    | _ => none

def poppedTicks (trace : List ThreadAction) : List Ft8Slot :=
  trace.filterMap fun
    | .popTick currentSlot => some currentSlot
    | _ => none

/-- The events of the handler's variables. -/
def handlerEvents (trace : List ThreadAction) : List QsoEvent :=
  trace.filterMap fun
    | .command command => some (.command command)
    | .adiFile opens => some (.adiFile opens)
    | .popTick _ => some .tick
    | .popMessage qsoMsg => some (.message qsoMsg)
    | .update theSlot => some (.update theSlot)
    | _ => none

/-- The actions since `QSOHandler` last entered its loop body. -/
def currentIteration (trace : List ThreadAction) : List ThreadAction :=
  trace.rtakeWhile fun action => action ≠ .enterLoop

section Append

variable (trace more : List ThreadAction)

@[simp]
theorem pushedMessages_append :
    pushedMessages (trace ++ more) = pushedMessages trace ++ pushedMessages more :=
  List.filterMap_append

@[simp]
theorem poppedMessages_append :
    poppedMessages (trace ++ more) = poppedMessages trace ++ poppedMessages more :=
  List.filterMap_append

@[simp]
theorem pushedTicks_append :
    pushedTicks (trace ++ more) = pushedTicks trace ++ pushedTicks more :=
  List.filterMap_append

@[simp]
theorem poppedTicks_append :
    poppedTicks (trace ++ more) = poppedTicks trace ++ poppedTicks more :=
  List.filterMap_append

@[simp]
theorem handlerEvents_append :
    handlerEvents (trace ++ more) = handlerEvents trace ++ handlerEvents more :=
  List.filterMap_append

end Append

end RtlsdrFt8d
