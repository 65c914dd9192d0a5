import RtlsdrFt8d.FreeText

/-!
# Packing of messages

The encoding half of `message.c`: a text is taken apart into at most three words,
which are tried as a standard message, as a non-standard one, and then the whole
text as free text.  The table of hashed callsigns may be missing, in the encoder
and in the decoder.
-/

namespace RtlsdrFt8d

/-! ## Words and numbers -/

/-- `copy_token`: up to `length` characters of the next word, and where the word
after it starts. -/
def copyToken (length : Nat) (string : List Char) : List Char × List Char :=
  ((string.takeWhile fun symbol => !isBlank symbol).take length,
    trimFront (string.dropWhile fun symbol => !isBlank symbol))

def startsWith (string start : List Char) : Bool :=
  start.isPrefixOf string

def endsWith (string suffix : List Char) : Bool :=
  suffix.isSuffixOf string

/-- `dd_to_int`: a sign and the digits after it, up to a length. -/
def ddToInt (str : List Char) (length : Nat) : Int :=
  let negative := str.head? = some '-'
  let i := if negative ∨ str.head? = some '+' then 1 else 0
  let digits := ((str.take length).drop i).takeWhile Char.isDigit
  let result : Int := Nat.ofDigitChars 10 digits 0
  if negative then -result else result

/-! ## Callsigns -/

/-- `save_callsign` with an interface that may be missing: the hash, unless a
character is wrong. -/
def saveCallsignIf (callsign : List Char) (hashIf : Option CallsignTable) :
    Option UInt32 × Option CallsignTable :=
  (callsignHash callsign, hashIf.map (saveCallsign callsign))

/-- What `pack_basecall` copies to the start of `c6`, which holds blanks. -/
def basecallC6 (callsign : List Char) (length : Nat) : List Char :=
  if startsWith callsign "3DA0".toList ∧ 4 < length ∧ length ≤ 7 then
    "3D0".toList ++ (callsign.take length).drop 4
  else if startsWith callsign "3X".toList ∧ isLetter (callsign.getD 2 '\x00') ∧ length ≤ 7 then
    'Q' :: (callsign.take length).drop 2
  else if (callsign.getD 2 '\x00').isDigit ∧ length ≤ 6 then callsign.take length
  else if (callsign.getD 1 '\x00').isDigit ∧ length ≤ 5 then ' ' :: callsign.take length
  else []

/-- `pack_basecall`: `none` stands for -1. -/
def packBasecall (callsign : List Char) (length : Nat) : Option Nat :=
  if 2 < length then
    let c6 := fun i => (basecallC6 callsign length).getD i ' '
    (nchar (c6 0) .alphanumSpace).bind fun i0 =>
      (nchar (c6 1) .alphanum).bind fun i1 =>
        (nchar (c6 2) .numeric).bind fun i2 =>
          (nchar (c6 3) .lettersSpace).bind fun i3 =>
            (nchar (c6 4) .lettersSpace).bind fun i4 =>
              (nchar (c6 5) .lettersSpace).map fun i5 =>
                ((((i0 * 36 + i1) * 10 + i2) * 27 + i3) * 27 + i4) * 27 + i5
  else none

/-- The 28 bits of a call field and the flag next to it. -/
structure PackedCall where
  n28 : Nat
  ip : Nat
  deriving DecidableEq

/-- A suffix `/P` or `/R`. -/
def hasSuffix (callsign : List Char) : Bool :=
  endsWith callsign "/P".toList || endsWith callsign "/R".toList

def lengthBase (callsign : List Char) : Nat :=
  if hasSuffix callsign then callsign.length - 2 else callsign.length

/-- The part of `pack28` behind the special tokens: a standard callsign, or else
the hash of one that is not. -/
def packCallsign (callsign : List Char) (hashIf : Option CallsignTable) :
    Option PackedCall × Option CallsignTable :=
  match packBasecall callsign (lengthBase callsign) with
  | some n28 =>
      let (hash, hashIf) := saveCallsignIf callsign hashIf
      (hash.map fun _ =>
          { n28 := ntokens + max22 + n28, ip := if hasSuffix callsign then 1 else 0 },
        hashIf)
  | none =>
      if 3 ≤ callsign.length ∧ callsign.length ≤ 11 then
        let (hash, hashIf) := saveCallsignIf callsign hashIf
        (hash.map fun n22 => { n28 := ntokens + n22.toNat, ip := 0 }, hashIf)
      else (none, hashIf)

/-- `pack28`: `none` stands for -1. -/
def pack28 (callsign : List Char) (hashIf : Option CallsignTable) :
    Option PackedCall × Option CallsignTable :=
  if callsign = "DE".toList then (some { n28 := 0, ip := 0 }, hashIf)
  else if callsign = "QRZ".toList then (some { n28 := 1, ip := 0 }, hashIf)
  else if callsign = "CQ".toList then (some { n28 := 2, ip := 0 }, hashIf)
  else if startsWith callsign "CQ_".toList ∧ callsign.length < 8 then (none, hashIf)
  else packCallsign callsign hashIf

/-- `pack58`: a bracket in front is skipped, and one behind ends the callsign. -/
def pack58 (callsign : List Char) (hashIf : Option CallsignTable) :
    Option Nat × Option CallsignTable :=
  let src := if callsign.head? = some '<' then callsign.drop 1 else callsign
  let c11 := (src.takeWhile fun symbol => symbol ≠ '<').take 11
  match c11.mapM fun symbol => nchar symbol .alphanumSpaceSlash with
  | none => (none, hashIf)
  | some digits =>
      let (hash, hashIf) := saveCallsignIf c11 hashIf
      (hash.map fun _ => PositionalNumerals.value 38 digits, hashIf)

/-! ## Locators and reports -/

/-- A value as `uint16_t`. -/
def toUInt16 (value : Int) : Nat :=
  (value % 65536).toNat

/-- `packgrid`: bit 15 is the flag in front of the locator. -/
def packgrid (grid4 : List Char) : Nat :=
  if grid4 = [] then maxGrid4 + 1
  else if grid4 = "RRR".toList then maxGrid4 + 2
  else if grid4 = "RR73".toList then maxGrid4 + 3
  else if grid4 = "73".toList then maxGrid4 + 4
  else
    let symbol := fun i => grid4.getD i '\x00'
    let inRange := fun i => 'A' ≤ symbol i ∧ symbol i ≤ 'R'
    if inRange 0 ∧ inRange 1 ∧ (symbol 2).isDigit ∧ (symbol 3).isDigit then
      (((symbol 0).toNat - 'A'.toNat) * 18 + ((symbol 1).toNat - 'A'.toNat)) * 100 +
        ((symbol 2).toNat - '0'.toNat) * 10 + ((symbol 3).toNat - '0'.toNat)
    else if symbol 0 = 'R' then
      toUInt16 (maxGrid4 + toUInt16 (35 + ddToInt (grid4.drop 1) 3)) ||| 0x8000
    else toUInt16 (maxGrid4 + toUInt16 (35 + ddToInt grid4 3))

/-! ## Messages -/

/-- The error codes of `ftx_message_rc_t` that encoding returns. -/
inductive EncodeError where
  | callsign1
  | callsign2
  | suffix
  | grid
  deriving DecidableEq

/-- The payload of a standard message: fields of 29, 29, 16 and 3 bits. -/
def stdPayload (n29a n29b igrid4 i3 : Nat) : Vector UInt8 10 :=
  #v[UInt8.ofNat (n29a >>> 21), UInt8.ofNat (n29a >>> 13), UInt8.ofNat (n29a >>> 5),
    UInt8.ofNat (n29a <<< 3) ||| UInt8.ofNat (n29b >>> 26), UInt8.ofNat (n29b >>> 18),
    UInt8.ofNat (n29b >>> 10), UInt8.ofNat (n29b >>> 2),
    UInt8.ofNat (n29b <<< 6) ||| UInt8.ofNat (igrid4 >>> 10), UInt8.ofNat (igrid4 >>> 2),
    UInt8.ofNat (igrid4 <<< 6) ||| UInt8.ofNat (i3 <<< 3)]

/-- The payload of a non-standard message: fields of 12, 58, 1, 2, 1 and 3 bits. -/
def nonstdPayload (n12 n58 iflip nrpt icq i3 : Nat) : Vector UInt8 10 :=
  #v[UInt8.ofNat (n12 >>> 4), UInt8.ofNat (n12 <<< 4) ||| UInt8.ofNat (n58 >>> 54),
    UInt8.ofNat (n58 >>> 46), UInt8.ofNat (n58 >>> 38), UInt8.ofNat (n58 >>> 30),
    UInt8.ofNat (n58 >>> 22), UInt8.ofNat (n58 >>> 14), UInt8.ofNat (n58 >>> 6),
    UInt8.ofNat (n58 <<< 2) ||| UInt8.ofNat (iflip <<< 1) ||| UInt8.ofNat (nrpt >>> 1),
    UInt8.ofNat (nrpt <<< 7) ||| UInt8.ofNat (icq <<< 6) ||| UInt8.ofNat (i3 <<< 3)]

namespace FtxMessage

variable (message : FtxMessage)

/-- `ftx_message_encode_std`: both calls are packed before the first is looked
at. -/
def encodeStd (hashIf : Option CallsignTable) (callTo callDe extra : List Char) :
    Except EncodeError FtxMessage × Option CallsignTable :=
  let (packedA, hashIf) := pack28 callTo hashIf
  let (packedB, hashIf) := pack28 callDe hashIf
  match packedA, packedB with
  | none, _ => (.error .callsign1, hashIf)
  | _, none => (.error .callsign2, hashIf)
  | some callA, some callB =>
      let portable := endsWith callTo "/P".toList || endsWith callDe "/P".toList
      if portable && (endsWith callTo "/R".toList || endsWith callDe "/R".toList) then
        (.error .suffix, hashIf)
      else
        let suffixed := endsWith callTo "/R".toList || endsWith callTo "/P".toList
        let n29a := callA.n28 <<< 1 ||| callA.ip ||| (if suffixed then 1 else 0)
        let n29b := callB.n28 <<< 1 ||| callB.ip
        (.ok { message with
            payload := stdPayload n29a n29b (packgrid extra) (if portable then 2 else 1) },
          hashIf)

/-- `ftx_message_encode_nonstd`. -/
def encodeNonstd (hashIf : Option CallsignTable) (callTo callDe extra : List Char) :
    Except EncodeError FtxMessage × Option CallsignTable :=
  let icq := if callTo = "CQ".toList then 1 else 0
  if icq = 0 ∧ callTo.length < 3 then (.error .callsign1, hashIf)
  else if callDe.length < 3 then (.error .callsign2, hashIf)
  else
    -- The closing bracket is looked for at the length of the other call.
    let iflip :=
      if icq = 0 ∧ callDe.head? = some '<' ∧ callDe[callTo.length - 1]? = some '>' then 1 else 0
    let call12 := if iflip = 0 then callTo else callDe
    let call58 := if icq = 0 ∧ iflip ≠ 0 then callTo else callDe
    let (hash12, hashIf) :=
      if icq = 0 then saveCallsignIf call12 hashIf else (some 0, hashIf)
    match hash12 with
    | none => (.error .callsign1, hashIf)
    | some n22 =>
        match pack58 call58 hashIf with
        | (none, hashIf) => (.error .callsign2, hashIf)
        | (some n58, hashIf) =>
            let nrpt :=
              if icq ≠ 0 then 0
              else if extra = "RRR".toList then 1
              else if extra = "RR73".toList then 2
              else if extra = "73".toList then 3
              else 0
            (.ok { message with
                payload := nonstdPayload (n22.toNat >>> 10) n58 iflip nrpt icq 4 },
              hashIf)

/-- `ftx_message_encode`. -/
def encode (hashIf : Option CallsignTable) (messageText : List Char) :
    Except EncodeError FtxMessage × Option CallsignTable :=
  let (callTo, parsePosition) := copyToken 12 messageText
  let (callDe, parsePosition) := copyToken 12 parsePosition
  let (extra, _) := copyToken 20 parsePosition
  if 11 < callTo.length then (.error .callsign1, hashIf)
  else if 11 < callDe.length then (.error .callsign2, hashIf)
  else if 19 < extra.length then (.error .grid, hashIf)
  else
    match message.encodeStd hashIf callTo callDe extra with
    | (.ok encoded, hashIf) => (.ok encoded, hashIf)
    | (.error _, hashIf) =>
        match message.encodeNonstd hashIf callTo callDe extra with
        | (.ok encoded, hashIf) => (.ok encoded, hashIf)
        | (.error _, hashIf) => (.ok (message.encodeFree messageText), hashIf)

end FtxMessage

/-! ## Decoding without a table -/

/-- Where the interface is missing, a function of the decoder finds what it finds
in an empty table, and leaves nothing behind. -/
def withInterface {α : Type} (decoder : CallsignTable → α × CallsignTable)
    (hashIf : Option CallsignTable) : α × Option CallsignTable :=
  match hashIf with
  | none => ((decoder hashtableInit).1, none)
  | some table => ((decoder table).1, some (decoder table).2)

namespace FtxMessage

variable (message : FtxMessage)

/-- `ftx_message_decode_std` with an interface that may be missing. -/
def decodeStdIf (hashIf : Option CallsignTable) :
    Except MessageError CallFields × Option CallsignTable :=
  let i3 := message.getI3
  match withInterface (unpack28 (message.n29a >>> 1) (message.n29a &&& 1) i3) hashIf with
  | (none, hashIf) => (.error .callsign1, hashIf)
  | (some callTo, hashIf) =>
      match withInterface (unpack28 (message.n29b >>> 1) (message.n29b &&& 1) i3) hashIf with
      | (none, hashIf) => (.error .callsign2, hashIf)
      | (some callDe, hashIf) =>
          (.ok
            { callTo := callTo
              callDe := callDe
              extra := unpackgrid message.igrid4 message.ir },
            hashIf)

/-- The fields of a non-standard message from its two calls. -/
def nonstdFields (callDecoded call3 : List Char) : CallFields where
  callTo :=
    if message.icq = 0 then (if message.iflip ≠ 0 then callDecoded else call3)
    else "CQ".toList
  callDe := if message.iflip ≠ 0 then call3 else callDecoded
  extra :=
    if message.icq = 0 then
      if message.nrpt = 1 then "RRR".toList
      else if message.nrpt = 2 then "RR73".toList
      else if message.nrpt = 3 then "73".toList
      else []
    else []

/-- `ftx_message_decode_nonstd` with an interface that may be missing. -/
def decodeNonstdIf (hashIf : Option CallsignTable) : CallFields × Option CallsignTable :=
  let (callDecoded, hashIf) := withInterface (unpack58 message.n58) hashIf
  let (call3, hashIf) := withInterface
    (fun table => (lookupCallsign .bits12 (UInt32.ofNat message.n12) table, table)) hashIf
  (message.nonstdFields callDecoded call3, hashIf)

/-- `ftx_message_decode` with an interface that may be missing. -/
def decodeIf (hashIf : Option CallsignTable) :
    Except MessageError (List Char) × Option CallsignTable :=
  match message.getType with
  | .freeText => (.ok message.decodeFree, hashIf)
  | .telemetry => (.ok message.decodeTelemetryHex, hashIf)
  | .standard =>
      let (fields, hashIf) := message.decodeStdIf hashIf
      (fields.map CallFields.text, hashIf)
  | .nonstdCall =>
      let (fields, hashIf) := message.decodeNonstdIf hashIf
      (.ok fields.text, hashIf)
  | _ => (.error .type, hashIf)

theorem decodeStdIf_some (table : CallsignTable) :
    message.decodeStdIf (some table) =
      ((message.decodeStd table).1, some (message.decodeStd table).2) := by
  rw [decodeStdIf, decodeStd]
  simp only [withInterface]
  rcases unpack28 (message.n29a >>> 1) (message.n29a &&& 1) message.getI3 table with
    ⟨_ | callTo, table⟩
  · rfl
  · dsimp only
    rcases unpack28 (message.n29b >>> 1) (message.n29b &&& 1) message.getI3 table with
      ⟨_ | callDe, table⟩ <;> rfl

theorem decodeNonstdIf_some (table : CallsignTable) :
    message.decodeNonstdIf (some table) =
      ((message.decodeNonstd table).1, some (message.decodeNonstd table).2) := by
  rw [decodeNonstdIf, decodeNonstd]
  simp only [withInterface]
  generalize unpack58 message.n58 table = unpacked
  obtain ⟨callDecoded, table⟩ := unpacked
  rfl

/-- With an interface the decoder is the one that reads received messages. -/
theorem decodeIf_some (table : CallsignTable) :
    message.decodeIf (some table) =
      ((message.decode table).1, some (message.decode table).2) := by
  rw [decodeIf, decode, decodeFields]
  cases message.getType
  case standard =>
    dsimp only
    rw [decodeStdIf_some]
    rcases message.decodeStd table with ⟨_ | fields, table⟩ <;> rfl
  case nonstdCall =>
    dsimp only
    rw [decodeNonstdIf_some]
  all_goals rfl

end FtxMessage

/-! ## Fields of the payload -/

theorem shiftLeft_or {high low : Nat} (width : Nat) (small : low < 2 ^ width) :
    high <<< width ||| low = high * 2 ^ width + low := by
  rw [← Nat.shiftLeft_add_eq_or_of_lt small, Nat.shiftLeft_eq]

theorem toNat_ofNat_shiftRight (n width : Nat) :
    (UInt8.ofNat (n >>> width)).toNat = n / 2 ^ width % 256 := by
  rw [← Nat.shiftRight_eq_div_pow]
  exact UInt8.toNat_ofNat'

theorem toNat_joined {high low : Nat} (width : Nat) (small : low < 2 ^ width) :
    (UInt8.ofNat (high <<< width) ||| UInt8.ofNat low).toNat = (high * 2 ^ width + low) % 256 := by
  rw [UInt8.toNat_or, UInt8.toNat_ofNat', UInt8.toNat_ofNat', ← Nat.or_mod_two_pow,
    shiftLeft_or width small]

section Std

variable {message : FtxMessage} {n29a n29b igrid4 i3 : Nat}

/-- What the bytes of a standard payload hold of its fields. -/
structure StdBytes (message : FtxMessage) (n29a n29b igrid4 i3 : Nat) : Prop where
  byte0 : message.payloadByte 0 = n29a / 2 ^ 21 % 256
  byte1 : message.payloadByte 1 = n29a / 2 ^ 13 % 256
  byte2 : message.payloadByte 2 = n29a / 2 ^ 5 % 256
  byte3 : message.payloadByte 3 = (n29a * 2 ^ 3 + n29b / 2 ^ 26) % 256
  byte4 : message.payloadByte 4 = n29b / 2 ^ 18 % 256
  byte5 : message.payloadByte 5 = n29b / 2 ^ 10 % 256
  byte6 : message.payloadByte 6 = n29b / 2 ^ 2 % 256
  byte7 : message.payloadByte 7 = (n29b * 2 ^ 6 + igrid4 / 2 ^ 10) % 256
  byte8 : message.payloadByte 8 = igrid4 / 2 ^ 2 % 256
  byte9 : message.payloadByte 9 = (igrid4 * 2 ^ 6 + i3 * 2 ^ 3) % 256

theorem stdBytes_of_payload (payload : message.payload = stdPayload n29a n29b igrid4 i3)
    (smallB : n29b < 2 ^ 29) (smallGrid : igrid4 < 2 ^ 16) (smallI3 : i3 < 2 ^ 3) :
    StdBytes message n29a n29b igrid4 i3 := by
  constructor <;> rw [FtxMessage.payloadByte, payload]
  · exact toNat_ofNat_shiftRight n29a 21
  · exact toNat_ofNat_shiftRight n29a 13
  · exact toNat_ofNat_shiftRight n29a 5
  · rw [← Nat.shiftRight_eq_div_pow]
    exact toNat_joined 3 (by rw [Nat.shiftRight_eq_div_pow]; omega)
  · exact toNat_ofNat_shiftRight n29b 18
  · exact toNat_ofNat_shiftRight n29b 10
  · exact toNat_ofNat_shiftRight n29b 2
  · rw [← Nat.shiftRight_eq_div_pow]
    exact toNat_joined 6 (by rw [Nat.shiftRight_eq_div_pow]; omega)
  · exact toNat_ofNat_shiftRight igrid4 2
  · rw [← Nat.shiftLeft_eq i3]
    exact toNat_joined 6 (by rw [Nat.shiftLeft_eq]; omega)

variable (bytes : StdBytes message n29a n29b igrid4 i3)
include bytes

theorem StdBytes.n29a_eq (smallA : n29a < 2 ^ 29) (smallB : n29b < 2 ^ 29) :
    message.n29a = n29a := by
  rw [FtxMessage.n29a, bytes.byte0, bytes.byte1, bytes.byte2, bytes.byte3, Nat.or_assoc,
    Nat.or_assoc, Nat.shiftRight_eq_div_pow, shiftLeft_or 5 (by omega),
    shiftLeft_or 13 (by omega), shiftLeft_or 21 (by omega)]
  omega

theorem StdBytes.n29b_eq (smallB : n29b < 2 ^ 29) (smallGrid : igrid4 < 2 ^ 16) :
    message.n29b = n29b := by
  have low : (n29a * 2 ^ 3 + n29b / 2 ^ 26) % 256 &&& 0x07 =
      (n29a * 2 ^ 3 + n29b / 2 ^ 26) % 256 % 2 ^ 3 :=
    Nat.and_two_pow_sub_one_eq_mod _ 3
  rw [FtxMessage.n29b, bytes.byte3, bytes.byte4, bytes.byte5, bytes.byte6, bytes.byte7, low,
    Nat.or_assoc, Nat.or_assoc, Nat.or_assoc, Nat.shiftRight_eq_div_pow,
    shiftLeft_or 2 (by omega), shiftLeft_or 10 (by omega), shiftLeft_or 18 (by omega),
    shiftLeft_or 26 (by omega)]
  omega

theorem StdBytes.ir_eq (smallGrid : igrid4 < 2 ^ 16) : message.ir = igrid4 / 2 ^ 15 := by
  have bit : ∀ byte < 256, (byte &&& 0x20) >>> 5 = byte / 2 ^ 5 % 2 := by
    decide +kernel
  rw [FtxMessage.ir, bytes.byte7, bit _ (Nat.mod_lt _ (by decide))]
  omega

theorem StdBytes.igrid4_eq (smallI3 : i3 < 2 ^ 3) :
    message.igrid4 = igrid4 % 2 ^ 15 := by
  have low : (n29b * 2 ^ 6 + igrid4 / 2 ^ 10) % 256 &&& 0x1F =
      (n29b * 2 ^ 6 + igrid4 / 2 ^ 10) % 256 % 2 ^ 5 :=
    Nat.and_two_pow_sub_one_eq_mod _ 5
  rw [FtxMessage.igrid4, bytes.byte7, bytes.byte8, bytes.byte9, low, Nat.or_assoc,
    Nat.shiftRight_eq_div_pow, shiftLeft_or 2 (by omega), shiftLeft_or 10 (by omega)]
  omega

theorem StdBytes.getI3_eq (smallI3 : i3 < 2 ^ 3) : message.getI3 = i3 := by
  have low (byte : Nat) : byte &&& 7 = byte % 2 ^ 3 := Nat.and_two_pow_sub_one_eq_mod byte 3
  rw [FtxMessage.getI3, bytes.byte9, low, Nat.shiftRight_eq_div_pow]
  omega

end Std

end RtlsdrFt8d
