import RtlsdrFt8d.EventRuns
import RtlsdrFt8d.QsoState

/-!
# The QSO state machine

The functions of `qsoHandler.cpp` that read or change the handler's variables,
and the reaction of the handler to one event.  Messages shown to the operator
only (`qso_queue`, `displayTxString`) are left out.
-/

namespace RtlsdrFt8d

variable (options : Options)

/-! ## Bookkeeping -/

def resetQsoState (handler : QsoHandler) : QsoHandler :=
  { handler with
    qsoState := .idle
    qsoOldState := .idle
    currentQSO := blankQso
    ft8time := handler.ft8tick }

/-- `logToAdi(&currentQSO)`: the record is lost when the file does not open. -/
def logToAdi (handler : QsoHandler) : QsoHandler :=
  { handler with
    adiCalls := handler.adiCalls ++ [handler.currentQSO]
    adiFile :=
      if handler.adiOpens then handler.adiFile ++ [handler.currentQSO]
      else handler.adiFile }

def addPeer (newPeer : List Char) (handler : QsoHandler) : QsoHandler :=
  { handler with peers := (handler.peers.addPeer newPeer).2 }

def queueTx (txString : List Char) (handler : QsoHandler) : QsoHandler :=
  { handler with txQueue := handler.txQueue ++ [txString] }

/-- The request `"FT8Tx %d %s %s %s"`. -/
def requestText (freq : Int32) (dest src extra : List Char) : List Char :=
  "FT8Tx ".toList ++ CNumerals.formatInt 0 freq.toInt ++
    ' ' :: dest ++ ' ' :: src ++ ' ' :: extra

/-! ## Transmissions -/

/-- The signal report of `handleTx`, with an explicit sign. -/
def reportText (snr : Int32) : List Char :=
  if 0 ≤ snr then '+' :: CNumerals.formatInt 2 snr.toInt else CNumerals.formatInt 3 snr.toInt

/-- The third word that `handleTx` transmits in a state; in the remaining
states it transmits nothing. -/
def replyExtra (handler : QsoHandler) : Option (List Char) :=
  match handler.qsoState with
  | .replyLoc => some options.rloc.chars
  | .replySig => some (reportText handler.currentQSO.snr)
  | .replyRR73 => some "RR73".toList
  | .reply73 => some "73".toList
  | .idle | .cqIng => none

/-- The request of `handleTx` to the peer of the current QSO. -/
def replyText (handler : QsoHandler) (extra : List Char) : List Char :=
  requestText handler.currentQSO.freq handler.currentQSO.src.chars options.rcall.chars extra

/-- `handleTx`: whether a QSO is still in progress, and the handler after it.
The last reply of a QSO, and a state that never occurs, return to idle. -/
def handleTx (txSlot : Ft8Slot) (handler : QsoHandler) : Bool × QsoHandler :=
  if handler.qsoState = .idle then (false, handler)
  else
    let handler :=
      if handler.currentQSO.ft8slot = txSlot then
        match replyExtra options handler with
        | some extra =>
            queueTx (replyText options handler extra)
              { handler with
                qsoState := if handler.qsoState = .reply73 then .idle else handler.qsoState }
        | none => { handler with qsoState := .idle }
      else handler
    (handler.qsoState ≠ .idle, handler)

/-- The request of `queryCQ`: the band base, which lets the transmitter choose
the slot. -/
def cqText : List Char :=
  requestText options.dialfreq.toInt32 "CQ".toList options.rcall.chars options.rloc.chars

def queryCQ (theSlot : Ft8Slot) (handler : QsoHandler) : QsoHandler :=
  if ¬ handler.autoCq then handler
  else if theSlot ≠ handler.activeSlot then handler
  else if handler.queryRepeat ≤ handler.ft8tick then
    { queueTx (cqText options) handler with
      queryRepeat := handler.ft8tick + queryCqDelay }
  else handler

/-- The part of `updateQsoMachine` up to the choice of a CQ: a QSO that has
outlived its timer is closed, otherwise its reply is sent. -/
def updateQso (theSlot : Ft8Slot) (handler : QsoHandler) : QsoHandler :=
  if handler.ft8time ≤ handler.ft8tick then
    let handler :=
      if handler.qsoState ≠ .replyLoc ∧ handler.qsoState ≠ .replySig ∧
          handler.qsoState ≠ .idle then
        logToAdi handler
      else handler
    { resetQsoState handler with txBusy := false }
  else if theSlot = handler.activeSlot then
    let (busy, handler) := handleTx options theSlot handler
    { handler with txBusy := busy }
  else { handler with txBusy := false }

def updateQsoMachine (theSlot : Ft8Slot) (handler : QsoHandler) : QsoHandler :=
  let handler := updateQso options theSlot handler
  if ¬ handler.txBusy then
    if theSlot = handler.activeSlot then queryCQ options theSlot handler
    else handler
  else handler

/-! ## Received messages -/

/-- `addQso` in the idle state: a call that a new QSO may start with. -/
def startQso (newQso : PlainMessage) (handler : QsoHandler) : QsoHandler :=
  let handler :=
    { handler with
      ft8time := handler.ft8tick + maxQsoLifetime
      currentQSO := newQso }
  match parseMsg newQso.message.chars with
  | .locMsg => { handler with qsoState := .replySig }
  | .sigMsg => { handler with qsoState := .replySig }
  | .rr73Msg => handler
  | .s73Msg => handler
  | .cqMsg => handler

/-- `addQso` during a QSO: the next message of its peer. -/
def continueQso (newQso : PlainMessage) (handler : QsoHandler) : QsoHandler :=
  let handler :=
    { handler with
      currentQSO := { handler.currentQSO with message := newQso.message } }
  match parseMsg newQso.message.chars with
  | .locMsg => { handler with qsoState := .replySig, qsoOldState := .replySig }
  | .sigMsg =>
      { handler with
        qsoState := if handler.qsoState = .replySig then .replyRR73 else .replySig }
  | .rr73Msg =>
      addPeer newQso.src.chars (logToAdi { handler with qsoState := .reply73 })
  | .s73Msg => resetQsoState handler
  | .cqMsg => resetQsoState handler

def addQso (newQso : PlainMessage) (handler : QsoHandler) : QsoHandler :=
  if ¬ handler.autoQSO then handler
  else if newQso.ft8slot ≠ handler.activeSlot then handler
  else if handler.qsoState = .idle then
    if handler.peers.checkPeer newQso.src.chars then handler
    else startQso newQso handler
  else if newQso.src.chars ≠ handler.currentQSO.src.chars then handler
  else continueQso newQso handler

def addCQ (newQso : PlainMessage) (handler : QsoHandler) : QsoHandler :=
  if ¬ handler.autoCqReply then handler
  else if handler.qsoState ≠ .idle then handler
  else if newQso.ft8slot ≠ handler.activeSlot then handler
  else if handler.peers.checkPeer newQso.src.chars then handler
  else
    { handler with
      ft8time := handler.ft8tick + maxQsoLifetime
      currentQSO :=
        { newQso with dest := .empty 13, message := .snprintf 40 "CQ".toList }
      qsoState := .replyLoc }

/-- What `QSOHandler` does with one message of `qsoh_queue`. -/
def dispatch (qsoMsg : PlainMessage) (handler : QsoHandler) : QsoHandler :=
  if qsoMsg.dest.chars = "CQ".toList then addCQ qsoMsg handler
  else if qsoMsg.dest.chars = options.rcall.chars then addQso qsoMsg handler
  else handler

/-! ## Events -/

/-- The operator commands that reach the handler. -/
inductive Command where
  | autoCQ (on : Bool)
  | autoReply (on : Bool)
  | autoQSO (on : Bool)
  | slot (value : Ft8Slot)
  deriving DecidableEq

/-- One action on the handler's variables: a tick popped, a message popped, a
call of `updateQsoMachine`, an operator command, or a change of the file
system that decides whether the ADIF file opens. -/
inductive QsoEvent where
  | tick
  | message (qsoMsg : PlainMessage)
  | update (theSlot : Ft8Slot)
  | command (command : Command)
  | adiFile (opens : Bool)
  deriving DecidableEq

/-- The setters behind the operator commands. -/
def applyCommand (handler : QsoHandler) : Command → QsoHandler
  | .autoCQ on => { handler with autoCq := on }
  | .autoReply on => { handler with autoCqReply := on }
  | .autoQSO on => { handler with autoQSO := on }
  | .slot value => { handler with activeSlot := value }

def qsoStep (handler : QsoHandler) : QsoEvent → QsoHandler
  | .tick => { handler with ft8tick := handler.ft8tick + 1 }
  | .message qsoMsg => dispatch options qsoMsg handler
  | .update theSlot => updateQsoMachine options theSlot handler
  | .command command => applyCommand handler command
  | .adiFile opens => { handler with adiOpens := opens }

def qsoRun (adiOpens : Bool) (events : List QsoEvent) : QsoHandler :=
  EventRuns.run (qsoStep options) (initQsoState adiOpens) events

theorem qsoRun_append_singleton (adiOpens : Bool) (earlier : List QsoEvent)
    (event : QsoEvent) :
    qsoRun options adiOpens (earlier ++ [event]) =
      qsoStep options (qsoRun options adiOpens earlier) event := by
  simp [qsoRun]

def qsoSteps (adiOpens : Bool) (events : List QsoEvent) :
    List (EventRuns.Step QsoHandler QsoEvent) :=
  EventRuns.steps (qsoStep options) (initQsoState adiOpens) events

def QsoHandler.qsoInProgress (handler : QsoHandler) : Bool :=
  handler.qsoState ≠ .idle

@[simp]
theorem qsoInProgress_iff (handler : QsoHandler) :
    handler.qsoInProgress = true ↔ handler.qsoState ≠ .idle := by
  simp [QsoHandler.qsoInProgress]

@[simp]
theorem qsoInProgress_eq_false_iff (handler : QsoHandler) :
    handler.qsoInProgress = false ↔ handler.qsoState = .idle := by
  simp [QsoHandler.qsoInProgress]

/-- The steps of the QSO in progress, or of the one that just ended. -/
def qsoEpisode (adiOpens : Bool) (events : List QsoEvent) :
    List (EventRuns.Step QsoHandler QsoEvent) :=
  EventRuns.episode QsoHandler.qsoInProgress (qsoSteps options adiOpens events)

end RtlsdrFt8d
