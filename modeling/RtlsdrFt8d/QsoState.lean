import RtlsdrFt8d.CNumerals
import RtlsdrFt8d.StationTypes

/-!
# State of the QSO handler

The static variables of `qsoHandler.cpp`, the table of worked peers, and the
classification of received message texts.
-/

namespace RtlsdrFt8d

/-! ## The table of peers -/

def maxQsoPeers : Nat := 512

/-- `MAXQSOLIFETIME`, in quarters of a minute. -/
def maxQsoLifetime : UInt32 := 8

/-- `QUERYCQDELAY`, in quarters of a minute. -/
def queryCqDelay : UInt32 := 3

/-- The loop of `hashCallId`: up to six characters enter the hash in base 36. -/
def hashCallIdLoop : Nat → List Char → UInt32 → UInt32 × List Char
  | 0, callId, hash => (hash, callId)
  | _ + 1, [], hash => (hash, [])
  | i + 1, symbol :: callId, hash =>
      let hash := hash * 36
      let hash := hash + (UInt32.ofNat symbol.toNat - UInt32.ofNat '0'.toNat)
      let hash :=
        if 'A' ≤ symbol then
          hash + (UInt32.ofNat '0'.toNat + 10 - UInt32.ofNat 'A'.toNat)
        else hash
      hashCallIdLoop i callId hash

/-- `hashCallId`: longer callsigns mix two more characters into the hash. -/
def hashCallId (callId : List Char) : UInt32 :=
  match hashCallIdLoop 6 callId 0 with
  | (hash, []) => hash
  | (hash, symbol :: rest) =>
      let hash := hash ||| 0x80000000
      let hash := hash ^^^ (UInt32.ofNat symbol.toNat &&& 0x7F)
      let next := rest.head?.elim 0 fun other => UInt32.ofNat other.toNat
      hash ^^^ ((next &&& 0x7F) <<< 7)

/-- `peers` and `peersIdx`: the next entry always lies inside the table. -/
structure PeerTable where
  peers : Vector UInt32 maxQsoPeers
  peersIdx : Nat
  peersIdx_lt : peersIdx < maxQsoPeers

namespace PeerTable

def initial : PeerTable where
  peers := Vector.replicate maxQsoPeers 0
  peersIdx := 0
  peersIdx_lt := by decide

/-- `checkPeer`: search the entries below `peersIdx`. -/
def checkPeer (table : PeerTable) (thePeer : List Char) : Bool :=
  let theHash := hashCallId thePeer
  (table.peers.toList.take table.peersIdx).any (fun entry => entry == theHash)

/-- `addPeer`: enter a new peer, starting over when the table is full. -/
def addPeer (table : PeerTable) (newPeer : List Char) : Bool × PeerTable :=
  if table.checkPeer newPeer then (false, table)
  else
    (true,
      { peers := table.peers.set table.peersIdx (hashCallId newPeer) table.peersIdx_lt
        peersIdx := if maxQsoPeers ≤ table.peersIdx + 1 then 0 else table.peersIdx + 1
        peersIdx_lt := by
          have small := table.peersIdx_lt
          split <;> omega })

end PeerTable

/-! ## Received messages -/

inductive QsoState where
  | idle
  | replyLoc
  | replySig
  | replyRR73
  | reply73
  | cqIng
  deriving DecidableEq

inductive PeerMsg where
  | cqMsg
  | locMsg
  | sigMsg
  | rr73Msg
  | s73Msg
  deriving DecidableEq

/-- `parseMsg`: the class of the third token of a message. -/
def parseMsg (msg : List Char) : PeerMsg :=
  if msg.head?.any Char.isDigit then
    if CNumerals.atoi msg = 73 then .s73Msg else .sigMsg
  else if msg.head? = some '+' ∨ msg.head? = some '-' then .sigMsg
  else if msg = "RR73".toList then .rr73Msg
  else if msg.length = 4 then
    if msg[0]? = some 'R' ∧ (msg[1]? = some '+' ∨ msg[1]? = some '-') then .sigMsg
    else .locMsg
  else .locMsg

/-! ## The handler -/

/-- The variables of the handler, with the transmit queue, the calls of
`logToAdi` and the records that reached the ADIF file. -/
structure QsoHandler where
  qsoState : QsoState
  qsoOldState : QsoState
  currentQSO : PlainMessage
  ft8time : UInt32
  ft8tick : UInt32
  txBusy : Bool
  peers : PeerTable
  autoCq : Bool
  autoCqReply : Bool
  autoQSO : Bool
  activeSlot : Ft8Slot
  /-- The static local variable of `queryCQ`. -/
  queryRepeat : UInt32
  txQueue : List (List Char)
  /-- Whether `fopen(adiFileName, "a")` succeeds. -/
  adiOpens : Bool
  adiCalls : List PlainMessage
  adiFile : List PlainMessage

/-- `currentQSO` after `initQsoState` or `resetQsoState`. -/
def blankQso : PlainMessage where
  src := .empty 13
  dest := .empty 13
  message := .empty 40
  freq := 0
  snr := 0
  tempus := 0
  ft8slot := .odd

/-- The variables after the static initialisers and `initQsoState`. -/
def initQsoState (adiOpens : Bool) : QsoHandler where
  qsoState := .idle
  qsoOldState := .idle
  currentQSO := blankQso
  ft8time := 0
  ft8tick := 0
  txBusy := false
  peers := .initial
  autoCq := false
  autoCqReply := false
  autoQSO := false
  activeSlot := .even
  queryRepeat := 0
  txQueue := []
  adiOpens := adiOpens
  adiCalls := []
  adiFile := []

end RtlsdrFt8d
