import Mathlib.Data.Rat.Floor
import RtlsdrFt8d.TransmitRequests

/-!
# The transmitter's side of a request

How the `ft8` daemon works off one `SEND_F8_REQ`: it acknowledges, parses the
request, and either gives up, sounds a test tone, or loops over transmissions,
reporting to the socket on the way.  A failed assertion ends it.  The fake
transmitter answers the same request with a fixed sequence of replies.
-/

namespace RtlsdrFt8d

open CNumerals (Double formatInt)

/-! ## Replies -/

inductive SignalType where
  | sendF8Req
  | changeRtxState
  | testSend
  | sendAck
  | rejected
  | sendWspr
  deriving DecidableEq

/-- `FT8Msg`; `RTXstate` is `none` where the sender leaves it unset. -/
structure FT8Msg where
  type : SignalType
  ft8Message : CString maxMsgSize
  rtxState : Option Bool
  deriving DecidableEq

inductive ReplyKind where
  | ack
  | freq
  | transmitting
  | endOfTransmission
  | other
  deriving DecidableEq

/-- The kind of a reply: a `FREQ` report is a change of state with a text of its
own. -/
def replyKind (reply : FT8Msg) : ReplyKind :=
  match reply.type with
  | .sendAck => .ack
  | .changeRtxState =>
      if "FREQ ".toList.isPrefixOf reply.ft8Message.chars then .freq
      else if reply.rtxState = some true then .transmitting
      else .endOfTransmission
  | _ => .other

/-- The acknowledgement of both transmitters. -/
def ackReply (rtxState : Option Bool) : FT8Msg where
  type := .sendAck
  ft8Message := .snprintf maxMsgSize "SEND_F8_REQ".toList
  rtxState := rtxState

def freqReply (frequency : Int) : FT8Msg where
  type := .changeRtxState
  ft8Message := .snprintf maxMsgSize ("FREQ ".toList ++ formatInt 0 frequency)
  rtxState := some true

def transmittingReply : FT8Msg where
  type := .changeRtxState
  ft8Message := .snprintf maxMsgSize "Transmitting...\n".toList
  rtxState := some true

/-- The end of a transmission; the two transmitters word it differently. -/
def endReply (text : List Char) : FT8Msg where
  type := .changeRtxState
  ft8Message := .snprintf maxMsgSize text
  rtxState := some false

@[simp]
theorem replyKind_ackReply (rtxState : Option Bool) :
    replyKind (ackReply rtxState) = .ack :=
  rfl

@[simp]
theorem replyKind_freqReply (frequency : Int) : replyKind (freqReply frequency) = .freq := by
  have isFreq : "FREQ ".toList.isPrefixOf (freqReply frequency).ft8Message.chars = true := by
    rw [List.isPrefixOf_iff_prefix]
    refine List.prefix_take_iff.mpr ⟨List.prefix_append _ _, by decide⟩
  simp [replyKind, freqReply] at isFreq ⊢
  exact isFreq

/-! ## Frequencies -/

/-- `llround` of a finite value; the standard leaves the others open. -/
def llround : Double → Int
  | .finite value =>
      if 0 ≤ value then ⌊value + 1 / 2⌋ else -⌊-value + 1 / 2⌋
  | _ => 0

/-- `isBandBase` and `fakeIsBandBase`, whose tables are equal. -/
def isBandBase (freq : Int) : Bool :=
  [1840000, 3573000, 5357000, 7074000, 10136000, 14074000, 18100000, 21074000, 24915000,
    28074000, 50313000, 70100000, 144174000].contains freq

/-- A value of `rand() / (RAND_MAX + 1.0)`. -/
structure RandomDraw where
  value : Rat
  nonneg : 0 ≤ value
  lt_one : value < 1

/-- What a request meets in the daemon beyond its own words: the hardware, the
encoder, and the random numbers of each pass. -/
structure Transmitter where
  /-- Whether the peripherals can be mapped and the mailbox opened. -/
  hardwareOpens : Bool
  /-- Whether `ftx_message_encode` returns `FTX_MESSAGE_RC_OK`. -/
  encodes : List Char → Bool
  /-- The audio frequency chosen in a pass. -/
  audio : Nat → Int
  /-- The random offset of a pass. -/
  offset : Nat → Rat
  /-- The `center_freq_actual` of `setupDMATab`, none where its assertion fails. -/
  setupDMATab : Double → Option Double

/-- `center_freq_desired` in a pass of the transmit loop. -/
def desiredFreq (transmitter : Transmitter) (line : CommandLine) (band pass : Nat) : Double :=
  let desired := line.centerFreqSet.getD band (.finite 0)
  let desired :=
    if isBandBase (llround desired) then desired.add (.finite (transmitter.audio pass))
    else desired
  if desired.isTrue ∧ line.randomOffset then desired.add (.finite (transmitter.offset pass))
  else desired

/-- `center_freq_actual` in a pass, none where the program aborts. -/
def actualFreq (transmitter : Transmitter) (line : CommandLine) (band pass : Nat) :
    Option Double :=
  let desired := desiredFreq transmitter line band pass
  if desired.isTrue then transmitter.setupDMATab desired else some desired

def aborts (transmitter : Transmitter) (line : CommandLine) (band pass : Nat) : Bool :=
  (actualFreq transmitter line band pass).isNone

def transmits (transmitter : Transmitter) (line : CommandLine) (band pass : Nat) : Bool :=
  (actualFreq transmitter line band pass).any Double.isTrue

/-! ## The daemon -/

/-- Where the daemon stands with a request.  The variables of the transmit loop
are the band, the number of transmissions and the number of passes. -/
inductive DaemonPc where
  | accepted
  | acknowledged
  | loopStart (line : CommandLine) (band txCount pass : Nat)
  | freqReported (line : CommandLine) (band txCount pass : Nat)
  | onAir (line : CommandLine) (band txCount pass : Nat)
  | loopEnd (line : CommandLine) (band txCount pass : Nat)
  | testTone
  | returned
  | exited

/-- `mainFT8` up to the transmit loop. -/
def startFT8 (transmitter : Transmitter) (words : List (List Char)) : DaemonPc :=
  match parseCommandline words.tail with
  | none => .exited
  | some line =>
      if ¬ transmitter.hardwareOpens then .exited
      else
        match line.mode with
        | .tone => .testTone
        | .ft8 =>
            if transmitter.encodes line.message then .loopStart line 0 0 0 else .returned

/-- The end of the loop body: the next band, or out of the loop. -/
def nextPass (line : CommandLine) (band txCount pass : Nat) : DaemonPc :=
  let band := (band + 1) % line.centerFreqSet.length
  if band = 0 ∧ ¬ line.repeats then .returned
  else if 0 < line.terminate ∧ line.terminate ≤ txCount then .returned
  else .loopStart line band txCount (pass + 1)

/-- One step of the daemon: where it goes, and the reply it sends on the way. -/
def daemonStep (transmitter : Transmitter) (words : List (List Char)) :
    DaemonPc → Option (DaemonPc × Option FT8Msg)
  | .accepted => some (.acknowledged, some (ackReply none))
  | .acknowledged => some (startFT8 transmitter words, none)
  | .loopStart line band txCount pass =>
      some (.freqReported line band txCount pass,
        some (freqReply (llround (desiredFreq transmitter line band pass))))
  | .freqReported line band txCount pass =>
      if aborts transmitter line band pass then some (.exited, none)
      else if transmits transmitter line band pass then
        some (.onAir line band txCount pass, some transmittingReply)
      else some (.loopEnd line band txCount pass, none)
  | .onAir line band txCount pass =>
      some (.loopEnd line band (txCount + 1) pass,
        some (endReply "End of transmission...\n".toList))
  | .loopEnd line band txCount pass => some (nextPass line band txCount pass, none)
  | .testTone => none
  | .returned => none
  | .exited => none

/-- The replies of `fakeHandler`. -/
def fakeReplies (words : List (List Char)) (audio : Int) : List FT8Msg :=
  let parsed := fakeFrequency words
  let absFreq := if isBandBase parsed then parsed + audio else parsed
  [ackReply (some false), freqReply absFreq, endReply "End of transmission".toList]

theorem replyKinds_fakeReplies (words : List (List Char)) (audio : Int) :
    (fakeReplies words audio).map replyKind = [.ack, .freq, .endOfTransmission] := by
  have ends : replyKind (endReply "End of transmission".toList) = .endOfTransmission := by
    decide
  simp only [fakeReplies, List.map_cons, List.map_nil, replyKind_ackReply,
    replyKind_freqReply, ends]

/-- A transmitter whose hardware and encoder accept everything. -/
def sampleTransmitter : Transmitter where
  hardwareOpens := true
  encodes := fun _ => true
  audio := fun _ => 1000
  offset := fun _ => 0
  setupDMATab := some

end RtlsdrFt8d
