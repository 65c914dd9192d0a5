import RtlsdrFt8d.Ipfix

/-!
# Datagrams of the PSK reporter

`pskreporter.cpp`: the sizes of the two data sets, and the writes with which
`send` fills its buffer.  Strings are lists of bytes, a pointer into the packet
is an offset.
-/

namespace RtlsdrFt8d

open NetworkBytes (htonl htons write zeros)

/-! ## Format headers -/

def rxFormatHeader : List UInt8 :=
  [0x00, 0x03, 0x00, 0x24, 0x99, 0x92, 0x00, 0x03, 0x00, 0x00,
    0x80, 0x02, 0xFF, 0xFF, 0x00, 0x00, 0x76, 0x8F,
    0x80, 0x04, 0xFF, 0xFF, 0x00, 0x00, 0x76, 0x8F,
    0x80, 0x08, 0xFF, 0xFF, 0x00, 0x00, 0x76, 0x8F,
    0x00, 0x00]

def txFormatHeader : List UInt8 :=
  [0x00, 0x02, 0x00, 0x34, 0x99, 0x93, 0x00, 0x06,
    0x80, 0x01, 0xFF, 0xFF, 0x00, 0x00, 0x76, 0x8F,
    0x80, 0x05, 0x00, 0x04, 0x00, 0x00, 0x76, 0x8F,
    0x80, 0x06, 0x00, 0x01, 0x00, 0x00, 0x76, 0x8F,
    0x80, 0x0A, 0xFF, 0xFF, 0x00, 0x00, 0x76, 0x8F,
    0x80, 0x0B, 0x00, 0x01, 0x00, 0x00, 0x76, 0x8F,
    0x00, 0x96, 0x00, 0x04]

/-! ## Records -/

/-- The bytes of an ASCII text. -/
def asciiBytes (text : List Char) : List UInt8 :=
  text.map fun symbol => UInt8.ofNat symbol.toNat

/-- "Pad to aligned boundary", the end of both size functions. -/
def alignSize (size : Nat) : Nat :=
  if 0 < size % 4 then size + (4 - size % 4) else size

/-- A `char` is its byte. -/
structure SenderRecord where
  callsign : List UInt8
  frequency : UInt32
  snr : UInt8
  mode : List UInt8
  infoSource : UInt8
  flowTimeSeconds : UInt32
  deriving DecidableEq

namespace SenderRecord

def recordSize (record : SenderRecord) : Nat :=
  (1 + record.callsign.length) + 4 + 1 + (1 + record.mode.length) + 1 + 4

def encode (record : SenderRecord) (packet : List UInt8) (buf : Nat) :
    Option (List UInt8) := do
  let fieldPtr := buf
  let packet ← write packet fieldPtr [UInt8.ofNat record.callsign.length]
  let packet ← write packet (fieldPtr + 1) record.callsign
  let fieldPtr := fieldPtr + (1 + record.callsign.length)
  let packet ← write packet fieldPtr (htonl record.frequency)
  let fieldPtr := fieldPtr + 4
  let packet ← write packet fieldPtr [record.snr]
  let fieldPtr := fieldPtr + 1
  let packet ← write packet fieldPtr [UInt8.ofNat record.mode.length]
  let packet ← write packet (fieldPtr + 1) record.mode
  let fieldPtr := fieldPtr + (1 + record.mode.length)
  let packet ← write packet fieldPtr [record.infoSource]
  let fieldPtr := fieldPtr + 1
  write packet fieldPtr (htonl record.flowTimeSeconds)

end SenderRecord

structure PskReporter where
  currentSequenceNumber : UInt32
  randomIdentifier : UInt32
  receiverCallsign : List UInt8
  receiverGridSquare : List UInt8
  decodingSoftware : List UInt8
  recordList : List SenderRecord

namespace PskReporter

variable (reporter : PskReporter)

def addReceiveRecord (callsign : List UInt8) (frequency : UInt32) (snr : UInt8)
    (now : UInt32) : PskReporter :=
  { reporter with
    recordList := reporter.recordList ++
      [⟨callsign, frequency, snr, asciiBytes "FT8".toList, 1, now⟩] }

def getRxDataSize : Nat :=
  alignSize (4 + (1 + reporter.receiverCallsign.length) +
    (1 + reporter.receiverGridSquare.length) + (1 + reporter.decodingSoftware.length))

def getTxDataSize : Nat :=
  if reporter.recordList.length = 0 then 0
  else alignSize (reporter.recordList.foldl (fun size item => size + item.recordSize) 4)

def encodeReceiverRecord (packet : List UInt8) (buf : Nat) : Option (List UInt8) := do
  let packet ← write packet buf [0x99]
  let packet ← write packet (buf + 1) [0x92]
  let fieldLoc := buf + 2
  let packet ← write packet fieldLoc (htons reporter.getRxDataSize)
  let fieldLoc := fieldLoc + 2
  let packet ← write packet fieldLoc [UInt8.ofNat reporter.receiverCallsign.length]
  let packet ← write packet (fieldLoc + 1) reporter.receiverCallsign
  let fieldLoc := fieldLoc + (1 + reporter.receiverCallsign.length)
  let packet ← write packet fieldLoc [UInt8.ofNat reporter.receiverGridSquare.length]
  let packet ← write packet (fieldLoc + 1) reporter.receiverGridSquare
  let fieldLoc := fieldLoc + (1 + reporter.receiverGridSquare.length)
  let packet ← write packet fieldLoc [UInt8.ofNat reporter.decodingSoftware.length]
  write packet (fieldLoc + 1) reporter.decodingSoftware

/-- The loop over the records in `encodeSenderRecords_`. -/
def encodeRecords : List SenderRecord → List UInt8 → Nat → Option (List UInt8)
  | [], packet, _ => some packet
  | record :: records, packet, fieldLoc => do
      let packet ← record.encode packet fieldLoc
      encodeRecords records packet (fieldLoc + record.recordSize)

def encodeSenderRecords (packet : List UInt8) (buf : Nat) : Option (List UInt8) :=
  if reporter.recordList.length = 0 then some packet
  else do
    let packet ← write packet buf [0x99]
    let packet ← write packet (buf + 1) [0x93]
    let fieldLoc := buf + 2
    let packet ← write packet fieldLoc (htons reporter.getTxDataSize)
    let fieldLoc := fieldLoc + 2
    encodeRecords reporter.recordList packet fieldLoc

/-! ## Datagrams -/

def dgSize : Nat :=
  let dgSize := 16 + rxFormatHeader.length + txFormatHeader.length +
    reporter.getRxDataSize + reporter.getTxDataSize
  if reporter.getTxDataSize = 0 then dgSize - txFormatHeader.length else dgSize

/-- The packet of `send`, or none if a write leaves the allocation. -/
def packet (now : UInt32) : Option (List UInt8) := do
  let packet := zeros reporter.dgSize
  let packet ← write packet 0 [0x00]
  let packet ← write packet 1 [0x0A]
  let fieldLoc := 2
  let packet ← write packet fieldLoc (htons reporter.dgSize)
  let fieldLoc := fieldLoc + 2
  let packet ← write packet fieldLoc (htonl now)
  let fieldLoc := fieldLoc + 4
  let packet ← write packet fieldLoc (htonl reporter.currentSequenceNumber)
  let fieldLoc := fieldLoc + 4
  let packet ← write packet fieldLoc (htonl reporter.randomIdentifier)
  let fieldLoc := fieldLoc + 4
  let packet ← write packet fieldLoc rxFormatHeader
  let fieldLoc := fieldLoc + rxFormatHeader.length
  if 0 < reporter.getTxDataSize then
    let packet ← write packet fieldLoc txFormatHeader
    let fieldLoc := fieldLoc + txFormatHeader.length
    let packet ← reporter.encodeReceiverRecord packet fieldLoc
    reporter.encodeSenderRecords packet (fieldLoc + reporter.getRxDataSize)
  else
    let packet ← reporter.encodeReceiverRecord packet fieldLoc
    reporter.encodeSenderRecords packet (fieldLoc + reporter.getRxDataSize)

/-- What the network functions return in a call of `send`; `getaddrinfo` returns 0
for success, the other two a negative number for failure. -/
structure NetworkResults where
  getaddrinfo : Int32
  socket : Int32
  sendto : Int
  deriving DecidableEq

/-- What `send` returns. -/
def NetworkResults.sendResult (network : NetworkResults) : Bool :=
  if network.getaddrinfo ≠ 0 then false
  else if network.socket < 0 then false
  else if network.sendto < 0 then false
  else true

/-- `send`: the reporter afterwards, and the packet passed to `sendto`. -/
def send (now : UInt32) : PskReporter × Option (List UInt8) :=
  ({ reporter with
      currentSequenceNumber := reporter.currentSequenceNumber + 1
      recordList := [] },
    reporter.packet now)

end PskReporter

end RtlsdrFt8d
