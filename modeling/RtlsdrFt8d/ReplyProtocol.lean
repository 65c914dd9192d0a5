import Mathlib.Logic.Relation
import RtlsdrFt8d.TransmitterDaemon

/-!
# The reply protocol of a request

`TXHandler` and the daemon around the connection of one request: the daemon
appends replies to the connection, the handler takes three of them and closes
it.  Neither side looks at what kind of reply it deals with, and the daemon
never sends the three that the handler expects.
-/

namespace RtlsdrFt8d

/-! ## The two parties -/

inductive TxStatus where
  | idle
  | waiting
  | ongoing
  | ended
  deriving DecidableEq

/-- Where `TXHandler` stands: before one of its three reads, or done with the
connection. -/
inductive HandlerPc where
  | firstRead
  | secondRead
  | thirdRead
  | closed
  deriving DecidableEq

def txHandlerReads : Nat := 3

/-- One request under way: both parties, the connection between them, and what
each of them has sent or taken so far. -/
structure ReplyState where
  daemon : DaemonPc
  /-- Whether `new_socket` still is the connection. -/
  newSocket : Bool
  connection : List FT8Msg
  sent : List FT8Msg
  handler : HandlerPc
  consumed : List FT8Msg
  txStatusFlag : TxStatus
  transmitting : Bool
  qsoFreq : UInt32

def requestSent (qsoFreq : UInt32) : ReplyState where
  daemon := .accepted
  newSocket := true
  connection := []
  sent := []
  handler := .firstRead
  consumed := []
  txStatusFlag := .idle
  transmitting := false
  qsoFreq := qsoFreq

/-- `sscanf(text, "FREQ %ld", &f)`. -/
def scanFreq (text : List Char) : Option Int :=
  if "FREQ".toList.isPrefixOf text then
    let number := text.drop 4
    let (value, rest) := CNumerals.strtol 64 number
    if rest = number then none else some value
  else none

def parseTxFreqReply (reply : FT8Msg) (qsoFreq : UInt32) : UInt32 :=
  match scanFreq reply.ft8Message.chars with
  | some f => if 0 < f then UInt32.ofInt f else qsoFreq
  | none => qsoFreq

/-- The daemon passes a reply to `send`.  A connection that the handler has
closed raises `SIGPIPE`, whose handler clears `new_socket`. -/
def sendReply (reply : FT8Msg) (state : ReplyState) : ReplyState :=
  if ¬ state.newSocket then state
  else if state.handler = .closed then
    { state with sent := state.sent ++ [reply], newSocket := false }
  else
    { state with
      sent := state.sent ++ [reply]
      connection := state.connection ++ [reply] }

def afterRead (state : ReplyState) : ReplyState :=
  match state.handler with
  | .firstRead => { state with handler := .secondRead, txStatusFlag := .waiting }
  | .secondRead =>
      { state with handler := .thirdRead, txStatusFlag := .ongoing, transmitting := true }
  | .thirdRead => { state with handler := .closed, txStatusFlag := .ended, transmitting := false }
  | .closed => state

/-- One step of either party. -/
inductive ReplyStep (transmitter : Transmitter) (words : List (List Char)) :
    ReplyState → ReplyState → Prop where
  | daemon {state : ReplyState} {next : DaemonPc} {reply : Option FT8Msg}
      (moves : daemonStep transmitter words state.daemon = some (next, reply)) :
      ReplyStep transmitter words state
        (reply.elim { state with daemon := next }
          fun reply => sendReply reply { state with daemon := next })
  | read {state : ReplyState} {reply : FT8Msg} {later : List FT8Msg}
      (isOpen : state.handler ≠ .closed) (available : state.connection = reply :: later) :
      ReplyStep transmitter words state
        (afterRead { state with
          connection := later
          consumed := state.consumed ++ [reply]
          qsoFreq := parseTxFreqReply reply state.qsoFreq })
  | endOfFile {state : ReplyState} (isOpen : state.handler ≠ .closed)
      (empty : state.connection = []) (exited : state.daemon = .exited) :
      ReplyStep transmitter words state (afterRead state)

def Reachable (transmitter : Transmitter) (words : List (List Char)) (qsoFreq : UInt32)
    (state : ReplyState) : Prop :=
  Relation.ReflTransGen (ReplyStep transmitter words) (requestSent qsoFreq) state

/-! ## What the two parties should agree on -/

section Agreement

variable (transmitter : Transmitter) (words : List (List Char)) (qsoFreq : UInt32)

def CountsAgree : Prop :=
  (∃ state, Reachable transmitter words qsoFreq state ∧ state.sent.length = txHandlerReads) ∧
    ∀ state, Reachable transmitter words qsoFreq state → state.sent.length ≤ txHandlerReads

/-- Whatever the handler waits for can still happen. -/
def NeverLeftWaiting : Prop :=
  ∀ state, Reachable transmitter words qsoFreq state → state.handler ≠ .closed →
    ∃ later, Relation.ReflTransGen (ReplyStep transmitter words) state later ∧
      later.handler ≠ state.handler

/-- `transmitting` is set only between the two replies about the transmission. -/
def FlagSound : Prop :=
  ∀ state, Reachable transmitter words qsoFreq state → state.transmitting = true →
    (∃ reply ∈ state.consumed, replyKind reply = .transmitting) ∧
      ∀ reply ∈ state.consumed, replyKind reply ≠ .endOfTransmission

def SameKindsAsFake : Prop :=
  ∃ state, Reachable transmitter words qsoFreq state ∧
    (∀ later, Reachable transmitter words qsoFreq later →
      later.sent.length ≤ state.sent.length) ∧
    state.sent.map replyKind = (fakeReplies words (transmitter.audio 0)).map replyKind

/-- The reply protocol of one request. -/
structure RepliesAgree : Prop where
  countsAgree : CountsAgree transmitter words qsoFreq
  neverLeftWaiting : NeverLeftWaiting transmitter words qsoFreq
  flagSound : FlagSound transmitter words qsoFreq
  sameKindsAsFake : SameKindsAsFake transmitter words qsoFreq

end Agreement

variable {transmitter : Transmitter} {words : List (List Char)} {qsoFreq : UInt32}

/-! ## The daemon on its own -/

/-- The state in which the daemon has got somewhere before the handler reads any
reply. -/
def aloneState (qsoFreq : UInt32) (daemon : DaemonPc) (sent : List FT8Msg) : ReplyState :=
  { requestSent qsoFreq with daemon := daemon, connection := sent, sent := sent }

/-- The daemon can get to a place, having sent the given replies, on its own. -/
def ReachesAlone (transmitter : Transmitter) (words : List (List Char)) (qsoFreq : UInt32)
    (daemon : DaemonPc) (sent : List FT8Msg) : Prop :=
  Reachable transmitter words qsoFreq (aloneState qsoFreq daemon sent)

theorem reachesAlone_step {daemon next : DaemonPc} {sent : List FT8Msg}
    {reply : Option FT8Msg} (alone : ReachesAlone transmitter words qsoFreq daemon sent)
    (moves : daemonStep transmitter words daemon = some (next, reply)) :
    ReachesAlone transmitter words qsoFreq next (sent ++ reply.toList) := by
  apply Relation.ReflTransGen.tail alone
  have taken : ReplyStep transmitter words (aloneState qsoFreq daemon sent) _ :=
    .daemon moves
  cases reply with
  | none => simpa [aloneState] using taken
  | some reply => simpa [aloneState, sendReply, requestSent] using taken

theorem reachesAlone_acknowledged :
    ReachesAlone transmitter words qsoFreq .acknowledged [ackReply none] := by
  have accepted : ReachesAlone transmitter words qsoFreq .accepted [] := .refl
  exact reachesAlone_step accepted rfl

theorem reachesAlone_startFT8 :
    ReachesAlone transmitter words qsoFreq (startFT8 transmitter words) [ackReply none] := by
  have moves : daemonStep transmitter words .acknowledged =
      some (startFT8 transmitter words, none) :=
    rfl
  simpa using reachesAlone_step reachesAlone_acknowledged moves

/-! ## The number of replies -/

theorem startFT8_cases (transmitter : Transmitter) (words : List (List Char)) :
    startFT8 transmitter words = .exited ∨ startFT8 transmitter words = .testTone ∨
      startFT8 transmitter words = .returned ∨
      ∃ line frequency, line.centerFreqSet = [frequency] ∧
        startFT8 transmitter words = .loopStart line 0 0 0 := by
  unfold startFT8
  cases accepted : parseCommandline words.tail with
  | none => exact Or.inl rfl
  | some line =>
      by_cases opens : transmitter.hardwareOpens = true
      · cases mode : line.mode with
        | tone => simp [opens, mode]
        | ft8 =>
            by_cases encodes : transmitter.encodes line.message = true
            · obtain ⟨frequency, single⟩ := centerFreqSet_of_ft8 accepted mode
              exact Or.inr (Or.inr (Or.inr ⟨line, frequency, single, by
                simp [opens, mode, encodes]⟩))
            · simp [opens, mode, encodes]
      · simp [opens]

/-- With one frequency every pass is about it, and only `-r` brings another
pass. -/
theorem nextPass_of_single {line : CommandLine} {frequency : CNumerals.Double}
    (single : line.centerFreqSet = [frequency]) (txCount pass : Nat) :
    nextPass line 0 txCount pass =
      if ¬ line.repeats then .returned
      else if 0 < line.terminate ∧ line.terminate ≤ txCount then .returned
      else .loopStart line 0 txCount (pass + 1) := by
  simp [nextPass, single]

/-- The first pass stays off the air and is the last one. -/
def StopsSilently (transmitter : Transmitter) (line : CommandLine) : Prop :=
  transmits transmitter line 0 0 = false ∧
    (aborts transmitter line 0 0 = true ∨ nextPass line 0 0 0 = .returned)

/-- The places that a request reaches when its first pass is its last and stays
off the air. -/
def InFirstPass (transmitter : Transmitter) (words : List (List Char)) (daemon : DaemonPc) :
    Prop :=
  daemon = .accepted ∨ daemon = .acknowledged ∨ daemon = startFT8 transmitter words ∨
    daemon = .returned ∨ daemon = .exited ∨
    ∃ line, startFT8 transmitter words = .loopStart line 0 0 0 ∧
      (daemon = .freqReported line 0 0 0 ∨
        (daemon = .loopEnd line 0 0 0 ∧ nextPass line 0 0 0 = .returned))

/-- A bound on the replies sent by then. -/
def sentBound : DaemonPc → Nat
  | .accepted => 0
  | .acknowledged => 1
  | .loopStart .. => 1
  | _ => 2

theorem inFirstPass_daemonStep
    (silent : ∀ line, startFT8 transmitter words = .loopStart line 0 0 0 →
      StopsSilently transmitter line)
    {daemon next : DaemonPc} {reply : Option FT8Msg}
    (inFirstPass : InFirstPass transmitter words daemon)
    (moves : daemonStep transmitter words daemon = some (next, reply)) :
    InFirstPass transmitter words next ∧
      sentBound daemon + reply.toList.length ≤ sentBound next := by
  rcases inFirstPass with
    rfl | rfl | rfl | rfl | rfl | ⟨line, starts, rfl | ⟨rfl, last⟩⟩
  · obtain ⟨rfl, rfl⟩ := by simpa [daemonStep] using moves
    exact ⟨Or.inr (Or.inl rfl), by simp [sentBound]⟩
  · obtain ⟨rfl, rfl⟩ := by simpa [daemonStep] using moves
    refine ⟨Or.inr (Or.inr (Or.inl rfl)), ?_⟩
    rcases startFT8_cases transmitter words with
      exits | sounds | returns | ⟨line, frequency, -, starts⟩
    · simp [exits, sentBound]
    · simp [sounds, sentBound]
    · simp [returns, sentBound]
    · simp [starts, sentBound]
  · rcases startFT8_cases transmitter words with
      exits | sounds | returns | ⟨line, frequency, -, starts⟩
    · simp [exits, daemonStep] at moves
    · simp [sounds, daemonStep] at moves
    · simp [returns, daemonStep] at moves
    · rw [starts] at moves ⊢
      obtain ⟨rfl, rfl⟩ := by simpa [daemonStep] using moves
      exact ⟨Or.inr (Or.inr (Or.inr (Or.inr (Or.inr ⟨line, starts, Or.inl rfl⟩)))),
        by simp [sentBound]⟩
  · simp [daemonStep] at moves
  · simp [daemonStep] at moves
  · obtain ⟨offAir, aborted | last⟩ := silent line starts
    · obtain ⟨rfl, rfl⟩ := by simpa [daemonStep, aborted] using moves
      exact ⟨Or.inr (Or.inr (Or.inr (Or.inr (Or.inl rfl)))), by simp [sentBound]⟩
    · cases aborted : aborts transmitter line 0 0 with
      | true =>
          obtain ⟨rfl, rfl⟩ := by simpa [daemonStep, aborted] using moves
          exact ⟨Or.inr (Or.inr (Or.inr (Or.inr (Or.inl rfl)))), by simp [sentBound]⟩
      | false =>
          obtain ⟨rfl, rfl⟩ := by simpa [daemonStep, aborted, offAir] using moves
          exact ⟨Or.inr (Or.inr (Or.inr (Or.inr (Or.inr ⟨line, starts, Or.inr ⟨rfl, last⟩⟩)))),
            by simp [sentBound]⟩
  · obtain ⟨rfl, rfl⟩ := by simpa [daemonStep, last] using moves
    exact ⟨Or.inr (Or.inr (Or.inr (Or.inl rfl))), by simp [sentBound]⟩

@[simp]
theorem daemon_afterRead (state : ReplyState) : (afterRead state).daemon = state.daemon := by
  unfold afterRead
  split <;> rfl

@[simp]
theorem sent_afterRead (state : ReplyState) : (afterRead state).sent = state.sent := by
  unfold afterRead
  split <;> rfl

@[simp]
theorem daemon_sendReply (reply : FT8Msg) (state : ReplyState) :
    (sendReply reply state).daemon = state.daemon := by
  unfold sendReply
  split_ifs <;> rfl

@[simp]
theorem newSocket_afterRead (state : ReplyState) :
    (afterRead state).newSocket = state.newSocket := by
  unfold afterRead
  split <;> rfl

theorem sent_sendReply (reply : FT8Msg) {state : ReplyState} (connected : state.newSocket = true) :
    (sendReply reply state).sent = state.sent ++ [reply] := by
  rw [sendReply, if_neg (by simp [connected])]
  split_ifs <;> rfl

theorem sendReply_of_disconnected (reply : FT8Msg) {state : ReplyState}
    (disconnected : state.newSocket = false) : sendReply reply state = state := by
  rw [sendReply, if_pos (by simp [disconnected])]

/-- What one step does to the daemon and its replies: the reads of the handler
do not concern them, and a daemon that has lost its socket sends nothing. -/
theorem replyStep_cases {before after : ReplyState}
    (taken : ReplyStep transmitter words before after) :
    (after.daemon = before.daemon ∧ after.sent = before.sent ∧
        after.newSocket = before.newSocket) ∨
      ∃ reply, daemonStep transmitter words before.daemon = some (after.daemon, reply) ∧
        ((after.newSocket = false ∧ after.sent = before.sent) ∨
          (before.newSocket = true ∧ after.sent = before.sent ++ reply.toList)) := by
  cases taken with
  | read isOpen available => exact Or.inl ⟨by simp, by simp, by simp⟩
  | endOfFile isOpen empty exited => exact Or.inl ⟨by simp, by simp, by simp⟩
  | @daemon next reply moves =>
      refine Or.inr ⟨reply, ?_⟩
      by_cases connected : before.newSocket = true
      · cases reply with
        | none => exact ⟨moves, Or.inr ⟨connected, by simp⟩⟩
        | some reply =>
            exact ⟨by simpa using moves, Or.inr ⟨connected, sent_sendReply reply connected⟩⟩
      · have disconnected : before.newSocket = false := by simpa using connected
        cases reply with
        | none => exact ⟨moves, Or.inl ⟨disconnected, rfl⟩⟩
        | some reply =>
            refine ⟨by simpa using moves, Or.inl ?_⟩
            have silent : sendReply reply { before with daemon := next } =
                { before with daemon := next } :=
              sendReply_of_disconnected reply disconnected
            rw [Option.elim_some, silent]
            exact ⟨disconnected, rfl⟩

/-- A request whose first pass is its last and stays off the air gets two
replies at most. -/
theorem length_sent_le_two
    (silent : ∀ line, startFT8 transmitter words = .loopStart line 0 0 0 →
      StopsSilently transmitter line)
    {state : ReplyState} (reachable : Reachable transmitter words qsoFreq state) :
    state.sent.length ≤ 2 := by
  have bounded : InFirstPass transmitter words state.daemon ∧
      state.sent.length ≤ sentBound state.daemon := by
    induction reachable with
    | refl => exact ⟨Or.inl rfl, by simp [requestSent]⟩
    | tail _ taken ih =>
        obtain ⟨inFirstPass, bound⟩ := ih
        rcases replyStep_cases taken with ⟨daemon, sent, -⟩ | ⟨reply, moves, sends⟩
        · rw [daemon, sent]
          exact ⟨inFirstPass, bound⟩
        · obtain ⟨stays, grows⟩ := inFirstPass_daemonStep silent inFirstPass moves
          rcases sends with ⟨-, sent⟩ | ⟨-, sent⟩
          · exact ⟨stays, by rw [sent]; omega⟩
          · exact ⟨stays, by rw [sent, List.length_append]; omega⟩
  have atMostTwo : sentBound state.daemon ≤ 2 := by
    unfold sentBound
    split <;> omega
  omega

theorem not_aborts_of_transmits {line : CommandLine} {band pass : Nat}
    (onAir : transmits transmitter line band pass = true) :
    aborts transmitter line band pass = false := by
  unfold transmits at onAir
  unfold aborts
  cases reached : actualFreq transmitter line band pass with
  | none => simp [reached] at onAir
  | some center => rfl

/-- From the report of a frequency the daemon goes on to its fourth reply if the
pass goes on the air. -/
theorem reachesAlone_of_transmits {line : CommandLine} {band txCount pass : Nat}
    {sent : List FT8Msg} (onAir : transmits transmitter line band pass = true)
    (alone : ReachesAlone transmitter words qsoFreq (.freqReported line band txCount pass)
      sent) :
    ReachesAlone transmitter words qsoFreq (.loopEnd line band (txCount + 1) pass)
      (sent ++ [transmittingReply, endReply "End of transmission...\n".toList]) := by
  have goesOnAir : daemonStep transmitter words (.freqReported line band txCount pass) =
      some (.onAir line band txCount pass, some transmittingReply) := by
    simp [daemonStep, onAir, not_aborts_of_transmits onAir]
  have transmitting := reachesAlone_step alone goesOnAir
  simpa using reachesAlone_step transmitting rfl

theorem reachesAlone_of_skips {line : CommandLine} {band txCount pass : Nat}
    {sent : List FT8Msg} (runs : aborts transmitter line band pass = false)
    (offAir : transmits transmitter line band pass = false)
    (alone : ReachesAlone transmitter words qsoFreq (.freqReported line band txCount pass)
      sent) :
    ReachesAlone transmitter words qsoFreq (nextPass line band txCount pass) sent := by
  have skips : daemonStep transmitter words (.freqReported line band txCount pass) =
      some (.loopEnd line band txCount pass, none) := by
    simp [daemonStep, runs, offAir]
  have atEnd := reachesAlone_step alone skips
  simpa using reachesAlone_step atEnd rfl

theorem reachesAlone_freqReported {line : CommandLine} {band txCount pass : Nat}
    {sent : List FT8Msg}
    (alone : ReachesAlone transmitter words qsoFreq (.loopStart line band txCount pass)
      sent) :
    ReachesAlone transmitter words qsoFreq (.freqReported line band txCount pass)
      (sent ++ [freqReply (llround (desiredFreq transmitter line band pass))]) :=
  reachesAlone_step alone rfl

/-- A request that repeats without going on the air reports a frequency again
and again. -/
theorem reachesAlone_of_repeats {line : CommandLine} {frequency : CNumerals.Double}
    (single : line.centerFreqSet = [frequency]) (repeats : line.repeats = true) {pass : Nat}
    {sent : List FT8Msg} (runs : aborts transmitter line 0 pass = false)
    (offAir : transmits transmitter line 0 pass = false)
    (alone : ReachesAlone transmitter words qsoFreq (.freqReported line 0 0 pass) sent) :
    ReachesAlone transmitter words qsoFreq (.freqReported line 0 0 (pass + 1))
      (sent ++ [freqReply (llround (desiredFreq transmitter line 0 (pass + 1)))]) := by
  have again : nextPass line 0 0 pass = .loopStart line 0 0 (pass + 1) := by
    rw [nextPass_of_single single, if_neg (by simp [repeats]), if_neg (by omega)]
  have skipped := reachesAlone_of_skips runs offAir alone
  rw [again] at skipped
  exact reachesAlone_freqReported skipped

/-- A repeated transmission skips its first pass, and the assertion fails in the
second: the daemon exits after its third reply. -/
def SkipsThenAborts (transmitter : Transmitter) (words : List (List Char)) : Prop :=
  ∃ line, startFT8 transmitter words = .loopStart line 0 0 0 ∧ line.repeats = true ∧
    transmits transmitter line 0 0 = false ∧ aborts transmitter line 0 1 = true

/-- Only a failed assertion in a repeated transmission stops the daemon after three
replies, as many as the handler reads. -/
theorem skipsThenAborts_of_countsAgree
    (agree : CountsAgree transmitter words qsoFreq) : SkipsThenAborts transmitter words := by
  obtain ⟨⟨state, reachable, three⟩, atMostThree⟩ := agree
  have noFour {daemon : DaemonPc} {sent : List FT8Msg}
      (alone : ReachesAlone transmitter words qsoFreq daemon sent) : sent.length ≤ 3 :=
    atMostThree _ alone
  have notSilent (silent : ∀ line, startFT8 transmitter words = .loopStart line 0 0 0 →
      StopsSilently transmitter line) : False := by
    have atMostTwo := length_sent_le_two silent reachable
    simp [three, txHandlerReads] at atMostTwo
  have started : ReachesAlone transmitter words qsoFreq (startFT8 transmitter words)
      [ackReply none] :=
    reachesAlone_startFT8
  rcases startFT8_cases transmitter words with
    exits | sounds | returns | ⟨line, frequency, single, starts⟩
  · exact (notSilent (by simp [exits])).elim
  · exact (notSilent (by simp [sounds])).elim
  · exact (notSilent (by simp [returns])).elim
  · rw [starts] at started
    have firstReport := reachesAlone_freqReported started
    have only (stops : StopsSilently transmitter line) : False := by
      apply notSilent
      intro other otherStarts
      obtain ⟨rfl, -⟩ := by simpa [starts] using otherStarts
      exact stops
    cases onAir : transmits transmitter line 0 0 with
    | true => simpa using noFour (reachesAlone_of_transmits onAir firstReport)
    | false =>
        cases aborted : aborts transmitter line 0 0 with
        | true => exact (only ⟨onAir, Or.inl aborted⟩).elim
        | false =>
            cases repeats : line.repeats with
            | false =>
                have last : nextPass line 0 0 0 = .returned := by
                  rw [nextPass_of_single single, if_pos (by simp [repeats])]
                exact (only ⟨onAir, Or.inr last⟩).elim
            | true =>
                have secondReport :=
                  reachesAlone_of_repeats single repeats aborted onAir firstReport
                cases onAirAgain : transmits transmitter line 0 1 with
                | true =>
                    simpa using noFour (reachesAlone_of_transmits onAirAgain secondReport)
                | false =>
                    cases abortedThen : aborts transmitter line 0 1 with
                    | true => exact ⟨line, starts, repeats, onAir, abortedThen⟩
                    | false =>
                        simpa using noFour (reachesAlone_of_repeats single repeats abortedThen
                          onAirAgain secondReport)

/-- The replies that a daemon with its socket has sent at least. -/
def sentAtLeast : DaemonPc → Nat
  | .accepted => 0
  | .acknowledged | .loopStart .. | .testTone | .returned | .exited => 1
  | .freqReported .. | .loopEnd .. => 2
  | .onAir .. => 3

theorem sentAtLeast_daemonStep {daemon next : DaemonPc} {reply : Option FT8Msg}
    (moves : daemonStep transmitter words daemon = some (next, reply)) :
    sentAtLeast next ≤ sentAtLeast daemon + reply.toList.length := by
  cases daemon with
  | accepted =>
      obtain ⟨rfl, rfl⟩ := by simpa [daemonStep] using moves
      simp [sentAtLeast]
  | acknowledged =>
      obtain ⟨rfl, rfl⟩ := by simpa [daemonStep] using moves
      rcases startFT8_cases transmitter words with
        exits | sounds | returns | ⟨line, frequency, -, starts⟩
      · simp [exits, sentAtLeast]
      · simp [sounds, sentAtLeast]
      · simp [returns, sentAtLeast]
      · simp [starts, sentAtLeast]
  | loopStart line band txCount pass =>
      obtain ⟨rfl, rfl⟩ := by simpa [daemonStep] using moves
      simp [sentAtLeast]
  | freqReported line band txCount pass =>
      rw [daemonStep] at moves
      split_ifs at moves <;> obtain ⟨rfl, rfl⟩ := by simpa using moves
      · simp [sentAtLeast]
      · simp [sentAtLeast]
      · simp [sentAtLeast]
  | onAir line band txCount pass =>
      obtain ⟨rfl, rfl⟩ := by simpa [daemonStep] using moves
      simp [sentAtLeast]
  | loopEnd line band txCount pass =>
      obtain ⟨rfl, rfl⟩ := by simpa [daemonStep] using moves
      unfold nextPass
      dsimp only
      split_ifs <;> simp [sentAtLeast]
  | testTone => simp [daemonStep] at moves
  | returned => simp [daemonStep] at moves
  | exited => simp [daemonStep] at moves

theorem onAir_of_endReply {daemon next : DaemonPc} {reply : FT8Msg}
    (moves : daemonStep transmitter words daemon = some (next, some reply))
    (isEnd : replyKind reply = .endOfTransmission) : sentAtLeast daemon = 3 := by
  cases daemon with
  | onAir line band txCount pass => rfl
  | accepted =>
      obtain ⟨-, rfl⟩ := by simpa [daemonStep] using moves
      simp at isEnd
  | loopStart line band txCount pass =>
      obtain ⟨-, rfl⟩ := by simpa [daemonStep] using moves
      simp at isEnd
  | freqReported line band txCount pass =>
      rw [daemonStep] at moves
      split_ifs at moves
      · simp at moves
      · obtain ⟨-, rfl⟩ := by simpa using moves
        exact absurd isEnd (by decide)
      · simp at moves
  | acknowledged => simp [daemonStep] at moves
  | loopEnd line band txCount pass => simp [daemonStep] at moves
  | testTone => simp [daemonStep] at moves
  | returned => simp [daemonStep] at moves
  | exited => simp [daemonStep] at moves

/-- The third reply never is the end of a transmission, for its start comes
before. -/
theorem replyKinds_ne_of_reachable {state : ReplyState}
    (reachable : Reachable transmitter words qsoFreq state) :
    state.sent.map replyKind ≠ [.ack, .freq, .endOfTransmission] := by
  have counted : (state.newSocket = true → sentAtLeast state.daemon ≤ state.sent.length) ∧
      state.sent.map replyKind ≠ [.ack, .freq, .endOfTransmission] := by
    induction reachable with
    | refl => exact ⟨fun _ => by simp [requestSent, sentAtLeast], by simp [requestSent]⟩
    | tail _ taken ih =>
        obtain ⟨atLeast, kinds⟩ := ih
        rcases replyStep_cases taken with ⟨daemon, sent, socket⟩ | ⟨reply, moves, sends⟩
        · rw [daemon, sent, socket]
          exact ⟨atLeast, kinds⟩
        · rcases sends with ⟨lost, sent⟩ | ⟨connected, sent⟩
          · rw [lost, sent]
            exact ⟨by simp, kinds⟩
          · have grows := sentAtLeast_daemonStep moves
            have before := atLeast connected
            rw [sent]
            refine ⟨fun _ => by rw [List.length_append]; omega, ?_⟩
            cases reply with
            | none => simpa using kinds
            | some reply =>
                intro same
                rw [Option.toList_some, List.map_append] at same
                have two : [ReplyKind.ack, .freq, .endOfTransmission] =
                    [.ack, .freq] ++ [.endOfTransmission] :=
                  rfl
                rw [two] at same
                obtain ⟨early, last⟩ := List.append_inj' same rfl
                have three := onAir_of_endReply moves (by simpa using last)
                have count := congrArg List.length early
                rw [List.length_map] at count
                simp only [List.length_cons, List.length_nil] at count
                omega
  exact counted.2

/-- The daemon never sends the replies of the fake transmitter. -/
theorem not_sameKindsAsFake (transmitter : Transmitter) (words : List (List Char))
    (qsoFreq : UInt32) : ¬ SameKindsAsFake transmitter words qsoFreq := by
  rintro ⟨state, reachable, -, kinds⟩
  rw [replyKinds_fakeReplies] at kinds
  exact replyKinds_ne_of_reachable reachable kinds

/-! ## Waiting and the flag -/

/-- The state in which the handler has read one reply that the daemon sent on its
own. -/
def afterFirstRead (qsoFreq : UInt32) (daemon : DaemonPc) (first : FT8Msg)
    (later : List FT8Msg) : ReplyState :=
  afterRead { aloneState qsoFreq daemon (first :: later) with
    connection := later
    consumed := [first]
    qsoFreq := parseTxFreqReply first qsoFreq }

theorem reachable_afterFirstRead {daemon : DaemonPc} {first : FT8Msg} {later : List FT8Msg}
    (alone : ReachesAlone transmitter words qsoFreq daemon (first :: later)) :
    Reachable transmitter words qsoFreq (afterFirstRead qsoFreq daemon first later) := by
  have taken : ReplyStep transmitter words (aloneState qsoFreq daemon (first :: later))
      (afterFirstRead qsoFreq daemon first later) :=
    .read (by simp [aloneState, requestSent]) rfl
  exact Relation.ReflTransGen.tail alone taken

/-- A second reply sets the flag, whatever it says. -/
theorem not_flagSound_of_second {daemon : DaemonPc} {first second : FT8Msg}
    {later : List FT8Msg}
    (alone : ReachesAlone transmitter words qsoFreq daemon (first :: second :: later))
    (firstKind : replyKind first ≠ .transmitting)
    (secondKind : replyKind second ≠ .transmitting) :
    ¬ FlagSound transmitter words qsoFreq := by
  intro sound
  have taken : ReplyStep transmitter words
      (afterFirstRead qsoFreq daemon first (second :: later)) _ :=
    .read (by simp [afterFirstRead, afterRead, aloneState, requestSent]) rfl
  obtain ⟨⟨reply, consumed, kind⟩, -⟩ :=
    sound _ (Relation.ReflTransGen.tail (reachable_afterFirstRead alone) taken) rfl
  have isRead : reply = first ∨ reply = second := by
    simpa [afterFirstRead, afterRead, aloneState, requestSent] using consumed
  rcases isRead with rfl | rfl
  · exact firstKind kind
  · exact secondKind kind

/-- When the daemon exits after its acknowledgement, the end of the connection
sets the flag. -/
theorem not_flagSound_of_exited {first : FT8Msg}
    (alone : ReachesAlone transmitter words qsoFreq .exited [first])
    (firstKind : replyKind first ≠ .transmitting) :
    ¬ FlagSound transmitter words qsoFreq := by
  intro sound
  have taken : ReplyStep transmitter words (afterFirstRead qsoFreq .exited first []) _ :=
    .endOfFile (by simp [afterFirstRead, afterRead, aloneState, requestSent]) rfl rfl
  obtain ⟨⟨reply, consumed, kind⟩, -⟩ :=
    sound _ (Relation.ReflTransGen.tail (reachable_afterFirstRead alone) taken) rfl
  have isRead : reply = first := by
    simpa [afterFirstRead, afterRead, aloneState, requestSent] using consumed
  exact firstKind (isRead ▸ kind)

/-- A state without replies in the connection and without moves of a daemon that
is still there is final. -/
theorem eq_of_stuck {state later : ReplyState} (empty : state.connection = [])
    (stopped : daemonStep transmitter words state.daemon = none)
    (alive : state.daemon ≠ .exited)
    (reach : Relation.ReflTransGen (ReplyStep transmitter words) state later) :
    later = state := by
  induction reach with
  | refl => rfl
  | tail _ taken ih =>
      subst ih
      cases taken with
      | daemon moves => simp [stopped] at moves
      | read isOpen available => simp [empty] at available
      | endOfFile isOpen empty exited => exact absurd exited alive

/-- When the daemon stops after its acknowledgement without exiting, the handler
waits forever. -/
theorem not_neverLeftWaiting_of_stopped {daemon : DaemonPc} {first : FT8Msg}
    (alone : ReachesAlone transmitter words qsoFreq daemon [first])
    (stopped : daemonStep transmitter words daemon = none) (alive : daemon ≠ .exited) :
    ¬ NeverLeftWaiting transmitter words qsoFreq := by
  intro neverLeft
  obtain ⟨later, reach, moved⟩ := neverLeft _ (reachable_afterFirstRead alone)
    (by simp [afterFirstRead, afterRead, aloneState, requestSent])
  exact moved (congrArg ReplyState.handler (eq_of_stuck rfl stopped alive reach))

/-- For every request the handler either waits in vain or sets its flag too
early. -/
theorem not_neverLeftWaiting_and_flagSound (transmitter : Transmitter)
    (words : List (List Char)) (qsoFreq : UInt32) :
    ¬ (NeverLeftWaiting transmitter words qsoFreq ∧ FlagSound transmitter words qsoFreq) := by
  rintro ⟨neverLeft, sound⟩
  have started : ReachesAlone transmitter words qsoFreq (startFT8 transmitter words)
      [ackReply none] :=
    reachesAlone_startFT8
  rcases startFT8_cases transmitter words with
    exits | sounds | returns | ⟨line, frequency, -, starts⟩
  · rw [exits] at started
    exact not_flagSound_of_exited started (by simp) sound
  · rw [sounds] at started
    exact not_neverLeftWaiting_of_stopped started rfl (by simp) neverLeft
  · rw [returns] at started
    exact not_neverLeftWaiting_of_stopped started rfl (by simp) neverLeft
  · rw [starts] at started
    exact not_flagSound_of_second (reachesAlone_freqReported started) (by simp) (by simp) sound

/-- There is no request on whose replies the two sides agree: their kinds are never
right, their number only where a failed assertion cuts a repeated transmission
short, and the handler waits in vain or sets its flag too early. -/
theorem repliesNeverAgree (transmitter : Transmitter) (words : List (List Char))
    (qsoFreq : UInt32) :
    ¬ RepliesAgree transmitter words qsoFreq ∧
      (¬ SkipsThenAborts transmitter words → ¬ CountsAgree transmitter words qsoFreq) ∧
      ¬ SameKindsAsFake transmitter words qsoFreq ∧
      ¬ (NeverLeftWaiting transmitter words qsoFreq ∧
        FlagSound transmitter words qsoFreq) :=
  ⟨fun agree => not_sameKindsAsFake transmitter words qsoFreq agree.sameKindsAsFake,
    mt skipsThenAborts_of_countsAgree,
    not_sameKindsAsFake transmitter words qsoFreq,
    not_neverLeftWaiting_and_flagSound transmitter words qsoFreq⟩

/-- While the sample station calls CQ, the flag is set by the report of the
frequency. -/
theorem not_repliesAgree_cqText :
    ¬ RepliesAgree sampleTransmitter (wordexp (cqText sampleStation)) 0 := by
  intro agree
  obtain ⟨line, starts⟩ : ∃ line,
      startFT8 sampleTransmitter (wordexp (cqText sampleStation)) =
        .loopStart line 0 0 0 := by
    have words : (wordexp (cqText sampleStation)).tail =
        [Nat.toDigits 10 14074000, "CQ".toList, "SA0PRF".toList, "JO99".toList] := by
      decide
    have parsed := parseCommandline_of_plain 14074000 "CQ".toList "SA0PRF".toList
      "JO99".toList (by decide) (by decide)
    rw [startFT8, words, parsed]
    exact ⟨_, rfl⟩
  have started : ReachesAlone sampleTransmitter (wordexp (cqText sampleStation)) 0
      (startFT8 sampleTransmitter (wordexp (cqText sampleStation))) [ackReply none] :=
    reachesAlone_startFT8
  rw [starts] at started
  exact not_flagSound_of_second (reachesAlone_freqReported started) (by simp) (by simp)
    agree.flagSound

end RtlsdrFt8d