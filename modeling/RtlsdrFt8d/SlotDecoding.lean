import RtlsdrFt8d.EventRuns
import RtlsdrFt8d.MessageUnpacking
import RtlsdrFt8d.StationTypes
import RtlsdrFt8d.TokenSplitting

/-!
# Decoding of a slot

The loop of `decode` over the candidates of one slot: duplicates are dropped,
each remaining message is unpacked to text, and the text is split again to find
CQ calls for the spot list and calls for the QSO handler.  The queues that feed
the display only are left out.
-/

namespace RtlsdrFt8d

open TokenSplitting

/-- `K_MAX_MESSAGES`. -/
def maxMessages : Nat := 50

/-- `struct decoder_results`, without the field that nothing sets. -/
structure DecoderResult where
  cmd : CString 13
  call : CString 13
  loc : CString 7
  freq : Int32
  snr : Int32
  tempus : Int
  deriving DecidableEq

/-- What `decode` reads from the clock. -/
structure SlotClock where
  thisSlot : Ft8Slot
  currentTime : Int
  deriving DecidableEq

/-- A candidate that `ftx_decode_candidate` turned into a message, with its
audio frequency and estimated SNR.  A CQ reaches the handler with an
uninitialised message text: `leftover` is what the stack held there. -/
structure Candidate where
  message : FtxMessage
  freqHz : Int32
  snr : Int32
  leftover : CString 40
  deriving DecidableEq

/-- The variables of `decode` that its loop changes, with the callsign table and
the messages pushed to `qsoh_queue`. -/
structure SlotDecoding where
  callsigns : CallsignTable
  decodedHashtable : Vector (Option FtxMessage) maxMessages
  /-- The entries of `decodes` below `num_decoded`. -/
  decodes : List DecoderResult
  qsohQueue : List PlainMessage
  deriving DecidableEq

def SlotDecoding.initial (callsigns : CallsignTable) : SlotDecoding where
  callsigns := callsigns
  decodedHashtable := Vector.replicate maxMessages none
  decodes := []
  qsohQueue := []

/-! ## Duplicates -/

def nextIndex (idxHash : Fin maxMessages) : Fin maxMessages :=
  ⟨(idxHash.val + 1) % maxMessages, Nat.mod_lt _ (by decide)⟩

/-- The probe loop of `decode`: the empty entry that it finds.  It finds none
after a duplicate, or when every entry is in use. -/
def probeLoop (decodedHashtable : Vector (Option FtxMessage) maxMessages)
    (message : FtxMessage) : Nat → Fin maxMessages → Option (Fin maxMessages)
  | 0, _ => none
  | remaining + 1, idxHash =>
      match decodedHashtable.get idxHash with
      | none => some idxHash
      | some decoded =>
          if decoded.hash = message.hash ∧ decoded.payload = message.payload then none
          else probeLoop decodedHashtable message remaining (nextIndex idxHash)

def findEmptySlot (decodedHashtable : Vector (Option FtxMessage) maxMessages)
    (message : FtxMessage) : Option (Fin maxMessages) :=
  probeLoop decodedHashtable message maxMessages
    ⟨message.hash.toNat % maxMessages, Nat.mod_lt _ (by decide)⟩

/-! ## Texts -/

/-- The callsign inside the angle brackets of a resolved hash. -/
def bareCall (token : List Char) : List Char :=
  if 2 ≤ token.length ∧ token.head? = some '<' ∧ token.getLast? = some '>' then
    (token.drop 1).dropLast
  else token

/-- `stripBrackets`, where `none` is the null pointer. -/
def stripBrackets (token : Option (List Char)) (outsz : Nat) : List Char :=
  (bareCall (token.getD [])).take (outsz - 1)

def isBlankOrNewline (symbol : Char) : Bool :=
  symbol = ' ' || symbol = '\n'

variable (options : Options) (clock : SlotClock)

/-- The entry of `decodes` for a CQ call. -/
def cqResult (candidate : Candidate) (cmd : List Char) (call loc : Option (List Char)) :
    DecoderResult where
  cmd := .snprintf 13 cmd
  call := .snprintf 13 (stripBrackets call 13)
  loc := .snprintf 7 (loc.getD [])
  freq := candidate.freqHz
  snr := candidate.snr
  tempus := clock.currentTime

/-- The message to the handler for a CQ call. -/
def cqMessage (candidate : Candidate) (result : DecoderResult) : PlainMessage where
  src := result.call
  dest := .snprintf 13 "CQ".toList
  message := candidate.leftover
  freq := candidate.freqHz + options.dialfreq.toInt32
  snr := candidate.snr
  tempus := clock.currentTime
  ft8slot := clock.thisSlot

/-- The message to the handler for a call to us. -/
def callMessage (candidate : Candidate) (dst : List Char) (src msg : Option (List Char)) :
    PlainMessage where
  src := .snprintf 13 (stripBrackets src 13)
  dest := .snprintf 13 (stripBrackets (some dst) 13)
  message := .snprintf 40 (msg.getD [])
  freq := candidate.freqHz + options.dialfreq.toInt32
  snr := candidate.snr
  tempus := clock.currentTime
  ft8slot := clock.thisSlot

/-- Add a CQ call to the spot list and to the handler's queue. -/
def SlotDecoding.pushCq (candidate : Candidate) (cmd : List Char)
    (call loc : Option (List Char)) (decoding : SlotDecoding) : SlotDecoding :=
  let result := cqResult clock candidate cmd call loc
  { decoding with
    decodes := decoding.decodes ++ [result]
    qsohQueue := decoding.qsohQueue ++ [cqMessage options clock candidate result] }

/-- The CQ branch of `decode`, from the text after the first token. -/
def decodeCq (candidate : Candidate) (text : List Char) (decoding : SlotDecoding) :
    SlotDecoding :=
  match strtok isBlank text with
  | (none, _) => decoding
  | (some strPtr, text) =>
      -- A second token of two characters counts as part of the CQ.
      if strPtr.length = 2 then
        let (call, text) := strtok isBlank text
        decoding.pushCq options clock candidate ("CQ ".toList ++ strPtr) call
          (strtok isBlank text).1
      else
        decoding.pushCq options clock candidate "CQ   ".toList (some strPtr)
          (strtok isBlank text).1

/-- What `decode` does with the text of a message. -/
def decodeText (candidate : Candidate) (text : List Char) (decoding : SlotDecoding) :
    SlotDecoding :=
  match strtok isBlank text with
  | (none, _) => decoding
  | (some strPtr, text) =>
      if "CQ".toList.isPrefixOf strPtr then
        decodeCq options clock candidate text decoding
      else if options.rcall.chars.isPrefixOf strPtr then
        let (src, text) := strtok isBlank text
        let msg := (strtok isBlankOrNewline text).1
        { decoding with
          qsohQueue :=
            decoding.qsohQueue ++ [callMessage options clock candidate strPtr src msg] }
      else decoding

/-! ## The loop -/

/-- One pass of the loop of `decode`. -/
def decodeCandidate (decoding : SlotDecoding) (candidate : Candidate) : SlotDecoding :=
  match findEmptySlot decoding.decodedHashtable candidate.message with
  | none => decoding
  | some idxHash =>
      let decoded := candidate.message.decode decoding.callsigns
      let decoding :=
        { decoding with
          callsigns := decoded.2
          decodedHashtable :=
            decoding.decodedHashtable.set idxHash (some candidate.message) idxHash.isLt }
      match decoded.1 with
      | .error _ => decoding
      | .ok text => decodeText options clock candidate text decoding

def decodeSlot (callsigns : CallsignTable) (candidates : List Candidate) : SlotDecoding :=
  EventRuns.run (decodeCandidate options clock) (.initial callsigns) candidates

/-- A slot that the decoder worked through: its clock and its candidates. -/
abbrev ReceivedSlot := SlotClock × List Candidate

/-- The callsign table after the slots since program start. -/
def callsignsAfter (slots : List ReceivedSlot) : CallsignTable :=
  EventRuns.run
    (fun callsigns slot => (decodeSlot options slot.1 callsigns slot.2).callsigns)
    hashtableInit slots

/-- The variables of `decode` in a slot, after some of its candidates. -/
def decodingAfter (slots : List ReceivedSlot) (earlier : List Candidate) : SlotDecoding :=
  decodeSlot options clock (callsignsAfter options slots) earlier

def sampleClock : SlotClock where
  thisSlot := .even
  currentTime := 1700000000

end RtlsdrFt8d
