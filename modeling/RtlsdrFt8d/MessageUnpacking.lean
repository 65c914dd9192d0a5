import RtlsdrFt8d.CallsignTable

/-!
# Unpacking of received messages

The decoding half of `message.c`: the 77 bits of a payload become one to three
text fields, joined with single blanks.  Calls pass through the table of hashed
callsigns, which every function here takes and returns.  The functions of the
source start with `ftx_message_`, which is left out of their names below.
-/

namespace RtlsdrFt8d

/-- `ftx_message_t`: 77 bits of payload, and the hash that finds duplicates. -/
structure FtxMessage where
  payload : Vector UInt8 10
  hash : UInt16
  deriving DecidableEq

/-- `ftx_message_type_t`, as far as `ftx_message_get_type` returns it. -/
inductive MessageType where
  | freeText
  | dxpedition
  | euVhf
  | arrlFd
  | telemetry
  | standard
  | arrlRtty
  | nonstdCall
  | wwrof
  | unknown
  deriving DecidableEq

/-- The error codes of `ftx_message_rc_t` that decoding returns. -/
inductive MessageError where
  | callsign1
  | callsign2
  | type
  deriving DecidableEq

/-- What the decoder writes to `call_to`, `call_de` and `extra`. -/
structure CallFields where
  callTo : List Char
  callDe : List Char
  extra : List Char
  deriving DecidableEq

namespace FtxMessage

variable (message : FtxMessage)

def payloadByte (i : Fin 10) : Nat :=
  (message.payload.get i).toNat

def getI3 : Nat :=
  (message.payloadByte 9 >>> 3) &&& 7

def getN3 : Nat :=
  ((message.payloadByte 8 <<< 2) &&& 4) ||| ((message.payloadByte 9 >>> 6) &&& 3)

def getType : MessageType :=
  match message.getI3 with
  | 0 =>
      match message.getN3 with
      | 0 => .freeText
      | 1 => .dxpedition
      | 2 => .euVhf
      | 3 | 4 => .arrlFd
      | 5 => .telemetry
      | _ => .unknown
  | 1 | 2 => .standard
  | 3 => .arrlRtty
  | 4 => .nonstdCall
  | 5 => .wwrof
  | _ => .unknown

end FtxMessage

/-! ## Callsigns -/

def ntokens : Nat := 2063592

def max22 : Nat := 4194304

/-- The digits of a number in the base of a character table, last digit last. -/
def unpackChars (base : Nat) (table : CharTable) : Nat → Nat → List Char
  | 0, _ => []
  | count + 1, n => unpackChars base table count (n / base) ++ [charn (n % base) table]

/-- The part of `unpack28` below `NTOKENS`: a word in place of a callsign. -/
def unpackToken (n28 : Nat) : Option (List Char) :=
  if n28 ≤ 2 then
    some (if n28 = 0 then "DE".toList else if n28 = 1 then "QRZ".toList else "CQ".toList)
  else if n28 ≤ 1002 then
    some ("CQ ".toList ++ intToDd (n28 - 3) 3 false)
  else if n28 ≤ 532443 then
    some ("CQ ".toList ++ trimFront (unpackChars 27 .lettersSpace 4 (n28 - 1003)))
  else none

def basecallChars (n : Nat) : Vector Char 6 :=
  let callsign5 := charn (n % 27) .lettersSpace
  let n := n / 27
  let callsign4 := charn (n % 27) .lettersSpace
  let n := n / 27
  let callsign3 := charn (n % 27) .lettersSpace
  let n := n / 27
  let callsign2 := charn (n % 10) .numeric
  let n := n / 10
  let callsign1 := charn (n % 36) .alphanum
  let n := n / 36
  let callsign0 := charn (n % 37) .alphanumSpace
  #v[callsign0, callsign1, callsign2, callsign3, callsign4, callsign5]

def isLetter (symbol : Char) : Bool :=
  ('A' ≤ symbol && symbol ≤ 'Z') || ('a' ≤ symbol && symbol ≤ 'z')

/-- A standard callsign as text, with the work-arounds for two prefixes. -/
def unpackBasecall (n : Nat) : List Char :=
  let callsign := basecallChars n
  if "3D0".toList.isPrefixOf callsign.toList && !isBlank callsign[3] then
    "3DA0".toList ++ trim (callsign.toList.drop 3)
  else if callsign[0] = 'Q' && isLetter callsign[1] then
    "3X".toList ++ trim (callsign.toList.drop 1)
  else trim callsign.toList

/-- The suffix that the flag next to a callsign stands for. -/
def callsignSuffix (ip i3 : Nat) : Option (List Char) :=
  if ip = 0 then some []
  else if i3 = 1 then some "/R".toList
  else if i3 = 2 then some "/P".toList
  else none

def unpack28 (n28 ip i3 : Nat) (table : CallsignTable) :
    Option (List Char) × CallsignTable :=
  if n28 < ntokens then (unpackToken n28, table)
  else if n28 - ntokens < max22 then
    (some (lookupCallsign .bits22 (UInt32.ofNat (n28 - ntokens)) table), table)
  else
    let result := unpackBasecall (n28 - ntokens - max22)
    if result.length < 3 then (none, table)
    else
      match callsignSuffix ip i3 with
      | none => (none, table)
      | some suffix => (some (result ++ suffix), saveCallsign (result ++ suffix) table)

/-- `unpack58`: shorter callsigns are not entered in the table. -/
def unpack58 (n58 : Nat) (table : CallsignTable) : List Char × CallsignTable :=
  let callsign := trim (unpackChars 38 .alphanumSpaceSlash 11 n58)
  (callsign, if 3 ≤ callsign.length then saveCallsign callsign table else table)

/-! ## Locators and reports -/

def maxGrid4 : Nat := 32400

def gridChars (n : Nat) : List Char :=
  let dst3 := Char.ofNat ('0'.toNat + n % 10)
  let n := n / 10
  let dst2 := Char.ofNat ('0'.toNat + n % 10)
  let n := n / 10
  let dst1 := Char.ofNat ('A'.toNat + n % 18)
  let n := n / 18
  let dst0 := Char.ofNat ('A'.toNat + n % 18)
  [dst0, dst1, dst2, dst3]

/-- `unpackgrid`, which never fails. -/
def unpackgrid (igrid4 ir : Nat) : List Char :=
  if igrid4 ≤ maxGrid4 then
    (if 0 < ir then "R ".toList else []) ++ gridChars igrid4
  else
    let irpt := igrid4 - maxGrid4
    if irpt = 1 then []
    else if irpt = 2 then "RRR".toList
    else if irpt = 3 then "RR73".toList
    else if irpt = 4 then "73".toList
    else (if 0 < ir then ['R'] else []) ++ intToDd (irpt - 35) 2 true

/-! ## Messages -/

namespace FtxMessage

variable (message : FtxMessage)

def n29a : Nat :=
  message.payloadByte 0 <<< 21 ||| message.payloadByte 1 <<< 13 |||
    message.payloadByte 2 <<< 5 ||| message.payloadByte 3 >>> 3

def n29b : Nat :=
  (message.payloadByte 3 &&& 0x07) <<< 26 ||| message.payloadByte 4 <<< 18 |||
    message.payloadByte 5 <<< 10 ||| message.payloadByte 6 <<< 2 |||
    message.payloadByte 7 >>> 6

/-- The bit in front of the locator of a standard message. -/
def ir : Nat :=
  (message.payloadByte 7 &&& 0x20) >>> 5

def igrid4 : Nat :=
  (message.payloadByte 7 &&& 0x1F) <<< 10 ||| message.payloadByte 8 <<< 2 |||
    message.payloadByte 9 >>> 6

def decodeStd (table : CallsignTable) : Except MessageError CallFields × CallsignTable :=
  let i3 := message.getI3
  match unpack28 (message.n29a >>> 1) (message.n29a &&& 1) i3 table with
  | (none, table) => (.error .callsign1, table)
  | (some callTo, table) =>
      match unpack28 (message.n29b >>> 1) (message.n29b &&& 1) i3 table with
      | (none, table) => (.error .callsign2, table)
      | (some callDe, table) =>
          (.ok
            { callTo := callTo
              callDe := callDe
              extra := unpackgrid message.igrid4 message.ir },
            table)

def n12 : Nat :=
  message.payloadByte 0 <<< 4 ||| message.payloadByte 1 >>> 4

def n58 : Nat :=
  (message.payloadByte 1 &&& 0x0F) <<< 54 ||| message.payloadByte 2 <<< 46 |||
    message.payloadByte 3 <<< 38 ||| message.payloadByte 4 <<< 30 |||
    message.payloadByte 5 <<< 22 ||| message.payloadByte 6 <<< 14 |||
    message.payloadByte 7 <<< 6 ||| message.payloadByte 8 >>> 2

/-- Whether the callsign in full is the addressee of a non-standard message. -/
def iflip : Nat :=
  (message.payloadByte 8 >>> 1) &&& 1

def nrpt : Nat :=
  (message.payloadByte 8 &&& 1) <<< 1 ||| message.payloadByte 9 >>> 7

def icq : Nat :=
  (message.payloadByte 9 >>> 6) &&& 1

def decodeNonstd (table : CallsignTable) : CallFields × CallsignTable :=
  let (callDecoded, table) := unpack58 message.n58 table
  let call3 := lookupCallsign .bits12 (UInt32.ofNat message.n12) table
  let call1 := if message.iflip ≠ 0 then callDecoded else call3
  let call2 := if message.iflip ≠ 0 then call3 else callDecoded
  ({ callTo := if message.icq = 0 then call1 else "CQ".toList
     callDe := call2
     extra :=
       if message.icq = 0 then
         if message.nrpt = 1 then "RRR".toList
         else if message.nrpt = 2 then "RR73".toList
         else if message.nrpt = 3 then "73".toList
         else []
       else [] },
    table)

/-- The loop of `ftx_message_decode_telemetry`: shift the bytes right by one bit. -/
def telemetryLoop : List UInt8 → UInt8 → List UInt8
  | [], _ => []
  | byte :: payload, carry =>
      (carry <<< 7 ||| byte >>> 1) :: telemetryLoop payload (byte &&& 1)

def decodeTelemetry : List UInt8 :=
  telemetryLoop (message.payload.toList.take 9) 0

/-- Divide the long integer in `b71` by 42: the quotient and the remainder. -/
def divideBy42 : List UInt8 → Nat → List UInt8 × Nat
  | [], rem => ([], rem)
  | byte :: b71, rem =>
      let rem := rem <<< 8 ||| byte.toNat
      let (quotient, last) := divideBy42 b71 (rem % 42)
      (UInt8.ofNat (rem / 42) :: quotient, last)

/-- The characters that repeated division gives, last character last. -/
def freeTextChars : Nat → List UInt8 → List Char
  | 0, _ => []
  | count + 1, b71 =>
      let (quotient, rem) := divideBy42 b71 0
      freeTextChars count quotient ++ [charn rem .full]

def decodeFree : List Char :=
  trim (freeTextChars 13 message.decodeTelemetry)

def hexDigit (nibble : Nat) : Char :=
  if 9 < nibble then Char.ofNat (nibble - 10 + 'A'.toNat) else Char.ofNat (nibble + '0'.toNat)

def decodeTelemetryHex : List Char :=
  message.decodeTelemetry.flatMap fun byte =>
    [hexDigit (byte.toNat >>> 4), hexDigit (byte.toNat &&& 0x0F)]

end FtxMessage

def CallFields.text (fields : CallFields) : List Char :=
  fields.callTo ++ ' ' :: (fields.callDe ++ ' ' :: fields.extra)

namespace FtxMessage

variable (message : FtxMessage)

/-- The fields of a standard or non-standard message; other types have none. -/
def decodeFields (table : CallsignTable) :
    Except MessageError CallFields × CallsignTable :=
  match message.getType with
  | .standard => message.decodeStd table
  | .nonstdCall =>
      let decoded := message.decodeNonstd table
      (.ok decoded.1, decoded.2)
  | _ => (.error .type, table)

def decode (table : CallsignTable) : Except MessageError (List Char) × CallsignTable :=
  match message.getType with
  | .freeText => (.ok message.decodeFree, table)
  | .telemetry => (.ok message.decodeTelemetryHex, table)
  | _ =>
      match message.decodeFields table with
      | (.error code, table) => (.error code, table)
      | (.ok fields, table) => (.ok fields.text, table)

end FtxMessage

end RtlsdrFt8d
