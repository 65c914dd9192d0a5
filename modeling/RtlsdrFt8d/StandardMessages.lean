import RtlsdrFt8d.StandardCalls

/-!
# Standard messages

A standard message names two stations and has a locator, a report or an
acknowledgement.  Whoever receives its payload reads the text that was sent.
-/

namespace RtlsdrFt8d

/-! ## Fields of a message -/

/-- Whom a message is for. -/
inductive Addressee where
  | all (token : List Char) (isToken : token ∈ callTokens)
  | station (call : StandardCall)

namespace Addressee

def text : Addressee → List Char
  | all token _ => token
  | station call => call.text

def suffix : Addressee → CallSuffix
  | all _ _ => .none
  | station call => call.suffix

theorem endsWith_text (addressee : Addressee) :
    endsWith addressee.text "/P".toList = decide (addressee.suffix = .portable) ∧
      endsWith addressee.text "/R".toList = decide (addressee.suffix = .rover) := by
  cases addressee with
  | all token isToken =>
      exact (show ∀ token ∈ callTokens, endsWith token "/P".toList = false ∧
        endsWith token "/R".toList = false by decide) token isToken
  | station call => exact call.endsWith_text

theorem suffixBit_text (addressee : Addressee) :
    suffixBit addressee.text = addressee.suffix.flag := by
  obtain ⟨portable, rover⟩ := addressee.endsWith_text
  rw [suffixBit, portable, rover]
  cases addressee.suffix <;> rfl

theorem blank_not_mem (addressee : Addressee) : ' ' ∉ addressee.text := by
  cases addressee with
  | all token isToken => exact (show ∀ token ∈ callTokens, ' ' ∉ token by decide) token isToken
  | station call => exact fun isBlank => absurd (call.isCallId.symbols ' ' isBlank) (by decide)

theorem length_text (addressee : Addressee) :
    2 ≤ addressee.text.length ∧ addressee.text.length ≤ 11 := by
  cases addressee with
  | all token isToken =>
      exact (show ∀ token ∈ callTokens, 2 ≤ token.length ∧ token.length ≤ 11 by decide)
        token isToken
  | station call => exact ⟨(Nat.le_succ 2).trans call.isCallId.le_length, call.isCallId.length_le⟩

/-- The field that an addressee is packed to, and what it is read as in messages of
the right type. -/
theorem exists_field (addressee : Addressee) :
    ∃ n28 < 2 ^ 28,
      (∀ hashIf, (pack28 addressee.text hashIf).1 = some ⟨n28, addressee.suffix.flag⟩) ∧
        ∀ i3 table, callsignSuffix addressee.suffix.flag i3 = some addressee.suffix.text →
          (unpack28 n28 addressee.suffix.flag i3 table).1 = some addressee.text := by
  cases addressee with
  | all token isToken =>
      obtain ⟨n28, ⟨small, packed⟩, unpacks⟩ := exists_packsAs_of_mem_callTokens isToken
      refine ⟨n28, small, packed, fun i3 table _ => ?_⟩
      obtain ⟨field, isField, rfl⟩ := unpacks 0 i3 table
      exact isField
  | station call =>
      obtain ⟨n, small, unpacked, packed⟩ := call.pack28_text
      refine ⟨ntokens + max22 + n, ?_, packed, fun i3 table means =>
        call.unpack28_text unpacked means table⟩
      rw [ntokens, max22]
      omega

end Addressee

/-- What a standard message says. -/
inductive StandardExtra where
  | nothing
  | locator (square : Fin 32400)
  | rogers
  | rogersBye
  | bye
  | report (value : Int) (atLeast : -30 ≤ value) (atMost : value ≤ 99)
  | rogersReport (value : Int) (atLeast : -30 ≤ value) (atMost : value ≤ 99)

namespace StandardExtra

def text : StandardExtra → List Char
  | nothing => []
  | locator square => gridChars square
  | rogers => "RRR".toList
  | rogersBye => "RR73".toList
  | bye => "73".toList
  | report value _ _ => intToDd value 2 true
  | rogersReport value _ _ => 'R' :: intToDd value 2 true

/-- The characters of a locator tell its number. -/
theorem packgrid_gridChars (square : Fin 32400) (notBye : gridChars square ≠ "RR73".toList) :
    packgrid (gridChars square) = square := by
  have letters : ∀ n < 18, 'A' ≤ Char.ofNat ('A'.toNat + n) ∧ Char.ofNat ('A'.toNat + n) ≤ 'R' ∧
      (Char.ofNat ('A'.toNat + n)).toNat - 'A'.toNat = n := by
    decide
  have digits : ∀ n < 10, (Char.ofNat ('0'.toNat + n)).isDigit = true ∧
      (Char.ofNat ('0'.toNat + n)).toNat - '0'.toNat = n := by
    decide
  have inside := square.isLt
  obtain ⟨least0, most0, value0⟩ := letters (square / 10 / 10 / 18 % 18) (by omega)
  obtain ⟨least1, most1, value1⟩ := letters (square / 10 / 10 % 18) (by omega)
  obtain ⟨isDigit2, value2⟩ := digits (square / 10 % 10) (by omega)
  obtain ⟨isDigit3, value3⟩ := digits (square % 10) (by omega)
  have four {other : List Char} (short : other.length ≠ 4) : gridChars square ≠ other := by
    rintro rfl
    exact short rfl
  unfold packgrid
  rw [if_neg (four (by decide)), if_neg (four (by decide)), if_neg notBye,
    if_neg (four (by decide))]
  dsimp only
  rw [if_pos ⟨⟨least0, most0⟩, ⟨least1, most1⟩, isDigit2, isDigit3⟩]
  change (((Char.ofNat ('A'.toNat + square / 10 / 10 / 18 % 18)).toNat - 'A'.toNat) * 18 +
    ((Char.ofNat ('A'.toNat + square / 10 / 10 % 18)).toNat - 'A'.toNat)) * 100 +
      ((Char.ofNat ('0'.toNat + square / 10 % 10)).toNat - '0'.toNat) * 10 +
        ((Char.ofNat ('0'.toNat + square % 10)).toNat - '0'.toNat) = square
  rw [value0, value1, value2, value3]
  omega

/-- One locator is sent as an acknowledgement and read the same. -/
theorem packgrid_locator (square : Fin 32400) :
    unpackedGrid (packgrid (gridChars square)) = gridChars square ∧
      packgrid (gridChars square) < 2 ^ 16 := by
  have inside := square.isLt
  by_cases isBye : gridChars square = "RR73".toList
  · rw [isBye]
    decide
  · rw [packgrid_gridChars square isBye]
    exact ⟨unpackedGrid_of_locator (by rw [maxGrid4]; omega), by omega⟩

theorem packgrid_report {value : Int} (atLeast : -30 ≤ value) (atMost : value ≤ 99) :
    packgrid (intToDd value 2 true) = (32435 + value).toNat ∧
      packgrid ('R' :: intToDd value 2 true) = 2 ^ 15 + (32435 + value).toNat := by
  have known : ∀ n < 130, packgrid (intToDd ((n : Nat) - 30 : Int) 2 true) = 32405 + n ∧
      packgrid ('R' :: intToDd ((n : Nat) - 30 : Int) 2 true) = 2 ^ 15 + 32405 + n := by
    decide +kernel
  have found := known (value + 30).toNat (by omega)
  rw [show ((value + 30).toNat : Int) - 30 = value by omega] at found
  omega

theorem unpackedGrid_of_flaggedReport {igrid4 : Nat} (aboveWords : maxGrid4 + 4 < igrid4)
    (below : igrid4 < 2 ^ 15) :
    unpackedGrid (2 ^ 15 + igrid4) = 'R' :: intToDd (igrid4 - 32435) 2 true := by
  have notLocator : ¬ igrid4 ≤ maxGrid4 := by omega
  have value : ((igrid4 - maxGrid4 : Nat) : Int) - 35 = igrid4 - 32435 := by
    rw [maxGrid4] at notLocator ⊢
    omega
  rw [unpackedGrid, unpackgrid, Nat.add_mod_left, Nat.mod_eq_of_lt below,
    Nat.add_div_left _ (by decide), Nat.div_eq_of_lt below, if_neg notLocator]
  dsimp only
  rw [if_neg (by omega), if_neg (by omega), if_neg (by omega), if_neg (by omega), value]
  rfl

/-- What a message says is read as it was written. -/
theorem unpackedGrid_packgrid (extra : StandardExtra) :
    unpackedGrid (packgrid extra.text) = extra.text ∧ packgrid extra.text < 2 ^ 16 := by
  cases extra with
  | nothing => decide
  | locator square => exact packgrid_locator square
  | rogers => decide
  | rogersBye => decide
  | bye => decide
  | report value atLeast atMost =>
      rw [text, (packgrid_report atLeast atMost).1]
      refine ⟨?_, by omega⟩
      rw [unpackedGrid_of_report (by rw [maxGrid4]; omega) (by omega)]
      congr 1
      omega
  | rogersReport value atLeast atMost =>
      rw [text, (packgrid_report atLeast atMost).2]
      refine ⟨?_, by omega⟩
      rw [unpackedGrid_of_flaggedReport (by rw [maxGrid4]; omega) (by omega)]
      congr 2
      omega

end StandardExtra

/-! ## Messages -/

/-- A message between stations whose suffixes go together. -/
structure StandardMessage where
  callTo : Addressee
  callDe : StandardCall
  extra : StandardExtra
  agree : ¬(callTo.suffix = .portable ∧ callDe.suffix = .rover) ∧
    ¬(callTo.suffix = .rover ∧ callDe.suffix = .portable)

namespace StandardMessage

variable (message : StandardMessage)

/-- The text ends in a blank if nothing follows the sender. -/
def text : List Char :=
  message.callTo.text ++ ' ' :: (message.callDe.text ++ ' ' :: message.extra.text)

/-- The type of message that the suffixes need. -/
def i3 : Nat :=
  if message.callTo.suffix = .portable ∨ message.callDe.suffix = .portable then 2 else 1

theorem isStd : message.i3 = 1 ∨ message.i3 = 2 := by
  rw [i3]
  split
  · exact Or.inr rfl
  · exact Or.inl rfl

theorem suffix_means :
    callsignSuffix message.callTo.suffix.flag message.i3 = some message.callTo.suffix.text ∧
      callsignSuffix message.callDe.suffix.flag message.i3 = some message.callDe.suffix.text := by
  have agree := message.agree
  rw [i3]
  generalize message.callTo.suffix = callTo at agree ⊢
  generalize message.callDe.suffix = callDe at agree ⊢
  revert agree
  cases callTo <;> cases callDe <;> decide

theorem not_suffixConflict : ¬SuffixConflict message.callTo.text message.callDe.text := by
  have agree := message.agree
  obtain ⟨toPortable, toRover⟩ := message.callTo.endsWith_text
  obtain ⟨dePortable, deRover⟩ := message.callDe.endsWith_text
  rw [SuffixConflict, toPortable, toRover, dePortable, deRover]
  generalize message.callTo.suffix = callTo at agree ⊢
  generalize message.callDe.suffix = callDe at agree ⊢
  revert agree
  cases callTo <;> cases callDe <;> decide

end StandardMessage

theorem StandardExtra.blank_not_mem (extra : StandardExtra) : ' ' ∉ extra.text := by
  cases extra with
  | nothing => decide
  | locator square => exact (gridChars_mixed square).1
  | rogers => decide
  | rogersBye => decide
  | bye => decide
  | report value atLeast atMost => exact (ddToInt_intToDd atLeast (by omega)).1
  | rogersReport value atLeast atMost =>
      have noBlank := (ddToInt_intToDd atLeast (show value < 333 by omega)).1
      exact fun isBlank => (List.mem_cons.mp isBlank).elim (by decide) noBlank

theorem StandardExtra.length_text_le (extra : StandardExtra) : extra.text.length ≤ 19 := by
  have report (value : Int) : (intToDd value 2 true).length = 3 := by
    rw [intToDd, List.length_append, length_ddDigits, if_pos rfl]
    split <;> rfl
  cases extra with
  | nothing => decide
  | locator square => exact (show (gridChars square).length ≤ 19 from Nat.le_of_ble_eq_true rfl)
  | rogers => decide
  | rogersBye => decide
  | bye => decide
  | report value _ _ => exact (report value).trans_le (by decide)
  | rogersReport value _ _ =>
      rw [text, List.length_cons, report]
      decide

theorem copyToken_word {word rest : List Char} (noBlank : ' ' ∉ word)
    (starts : ∀ symbol ∈ rest.head?, symbol ≠ ' ') (length : Nat) :
    copyToken length (word ++ ' ' :: rest) = (word.take length, rest) := by
  obtain ⟨taken, dropped⟩ := @takeWhile_append_of_noBlank _ noBlank (' ' :: rest)
    (by rintro _ ⟨rfl⟩; rfl)
  rw [copyToken, taken, dropped]
  exact Prod.ext rfl ((trimFront_replicate 1 rest).trans (trimFront_of_head starts))

theorem head?_ne_of_not_mem {word : List Char} (noBlank : ' ' ∉ word) :
    ∀ symbol ∈ word.head?, symbol ≠ ' ' := by
  rintro symbol isFirst rfl
  exact noBlank (List.mem_of_mem_head? isFirst)

namespace StandardMessage

variable (message : StandardMessage)

theorem textWords :
    TextWords message.text message.callTo.text message.callDe.text message.extra.text := by
  have toNoBlank := message.callTo.blank_not_mem
  have deNoBlank := (Addressee.station message.callDe).blank_not_mem
  have extraNoBlank := message.extra.blank_not_mem
  have deLength := message.callDe.isCallId
  have split : message.text.splitOn ' ' =
      [message.callTo.text, message.callDe.text, message.extra.text] := by
    have joinedWords : message.text =
        joined [message.callTo.text, message.callDe.text, message.extra.text] := by
      rw [joined_cons_cons, joined_cons_cons, joined, List.intercalate_singleton, text]
    rw [joinedWords, joined, List.splitOn_intercalate]
    · simpa using ⟨toNoBlank, deNoBlank, extraNoBlank⟩
    · simp
  have rest : message.callDe.text ++ ' ' :: message.extra.text =
      joined [message.callDe.text, message.extra.text] := by
    rw [joined_cons_cons, joined, List.intercalate_singleton]
  have starts : ∀ symbol ∈ (message.callDe.text ++ ' ' :: message.extra.text).head?,
      symbol ≠ ' ' := by
    have nonempty : message.callDe.text ≠ [] := List.ne_nil_of_length_pos (by
      have long := deLength.le_length
      omega)
    rw [List.head?_append_of_ne_nil _ nonempty]
    exact head?_ne_of_not_mem deNoBlank
  have last : copyToken 20 message.extra.text = (message.extra.text, []) := by
    obtain ⟨taken, dropped⟩ := @takeWhile_append_of_noBlank _ extraNoBlank [] (by simp)
    rw [List.append_nil] at taken dropped
    rw [copyToken, taken, dropped,
      List.take_of_length_le (message.extra.length_text_le.trans (by decide))]
    rfl
  have second := copyToken_word deNoBlank (head?_ne_of_not_mem extraNoBlank) 12
  rw [List.take_of_length_le (show (Addressee.station message.callDe).text.length ≤ 12 from
    deLength.length_le.trans (by decide))] at second
  constructor
  · rw [split, text, copyToken_word toNoBlank starts, rest]
    rfl
  · rw [split]
    change copyToken 12 (joined [message.callDe.text, message.extra.text]) = _
    rw [← rest]
    exact second.trans (by rw [List.drop_succ_cons, List.drop_succ_cons, List.drop_zero, joined,
      List.intercalate_singleton]; rfl)
  · rw [split]
    change (copyToken 20 (joined [message.extra.text])).1 = _
    rw [joined, List.intercalate_singleton, last]
  · exact deLength.length_le
  · exact message.extra.length_text_le

/-- A field behind its flag. -/
theorem field_bits {n28 flag : Nat} (small : n28 < 2 ^ 28) (isFlag : flag < 2) :
    n28 <<< 1 ||| flag < 2 ^ 29 ∧ (n28 <<< 1 ||| flag) >>> 1 = n28 ∧
      (n28 <<< 1 ||| flag) &&& 1 = flag := by
  have joined : n28 <<< 1 ||| flag = n28 * 2 + flag := by
    rw [← Nat.shiftLeft_add_eq_or_of_lt (show flag < 2 ^ 1 from isFlag), Nat.shiftLeft_eq,
      Nat.pow_one]
  rw [joined]
  refine ⟨by omega, ?_, ?_⟩
  · rw [Nat.shiftRight_one]
    omega
  · rw [Nat.and_one_is_mod]
    omega

theorem flag_lt (suffix : CallSuffix) : suffix.flag < 2 := by
  cases suffix <;> decide

/-- The two call fields of a message, as numbers that whoever reads it turns into
the texts again. -/
structure CallFieldsOf (a b : Nat) : Prop where
  smallTo : a < 2 ^ 28
  smallDe : b < 2 ^ 28
  unpacksTo : ∀ table,
    (unpack28 a message.callTo.suffix.flag message.i3 table).1 = some message.callTo.text
  unpacksDe : ∀ table,
    (unpack28 b message.callDe.suffix.flag message.i3 table).1 = some message.callDe.text

def payload (a b : Nat) : Vector UInt8 10 :=
  stdPayload (a <<< 1 ||| message.callTo.suffix.flag) (b <<< 1 ||| message.callDe.suffix.flag)
    (packgrid message.extra.text) message.i3

/-- What the encoder makes of a standard message. -/
theorem exists_encoded (start : FtxMessage) (hashIf : Option CallsignTable) :
    ∃ a b, message.CallFieldsOf a b ∧
      (start.encode hashIf message.text).1 = .ok { start with payload := message.payload a b } := by
  obtain ⟨a, smallA, packedA, unpackedA⟩ := message.callTo.exists_field
  obtain ⟨b, smallB, packedB, unpackedB⟩ := (Addressee.station message.callDe).exists_field
  obtain ⟨meansTo, meansDe⟩ := message.suffix_means
  have packedDe : ∀ hashIf, (pack28 message.callDe.text hashIf).1 =
      some ⟨b, message.callDe.suffix.flag⟩ := packedB
  have type : (if (endsWith message.callTo.text "/P".toList ||
      endsWith message.callDe.text "/P".toList) = true then 2 else 1) = message.i3 := by
    rw [message.callTo.endsWith_text.1, message.callDe.endsWith_text.1, i3]
    simp only [Bool.or_eq_true, decide_eq_true_eq]
  have std : (start.encodeStd hashIf message.callTo.text message.callDe.text message.extra.text).1 =
      .ok { start with payload := message.payload a b } := by
    rw [encodeStd_eq, packedA, packedDe]
    dsimp only
    rw [if_neg message.not_suffixConflict, message.callTo.suffixBit_text, Nat.or_assoc, Nat.or_self,
      type, payload]
  exact ⟨a, b, ⟨smallA, smallB, fun table => unpackedA _ table meansTo,
    fun table => unpackedB _ table meansDe⟩,
    encode_of_encodeStd message.textWords hashIf message.callTo.length_text.2 std⟩

variable {message}

/-- Whatever callsigns its table holds, the decoder reads the fields that were sent. -/
theorem CallFieldsOf.decodeStd {a b : Nat} (fields : message.CallFieldsOf a b)
    {encoded : FtxMessage} (isPayload : encoded.payload = message.payload a b)
    (table : CallsignTable) :
    encoded.getType = .standard ∧ (encoded.decodeStd table).1 =
      .ok ⟨message.callTo.text, message.callDe.text, message.extra.text⟩ := by
  obtain ⟨smallTo, fieldTo, flagTo⟩ := field_bits fields.smallTo (flag_lt message.callTo.suffix)
  obtain ⟨smallDe, fieldDe, flagDe⟩ := field_bits fields.smallDe (flag_lt message.callDe.suffix)
  obtain ⟨sameExtra, smallGrid⟩ := message.extra.unpackedGrid_packgrid
  have smallI3 : message.i3 < 2 ^ 3 := by
    rcases message.isStd with isType | isType <;> rw [isType] <;> decide
  have bytes := stdBytes_of_payload isPayload smallDe smallGrid smallI3
  constructor
  · rw [FtxMessage.getType, bytes.getI3_eq smallI3]
    rcases message.isStd with isType | isType <;> rw [isType] <;> rfl
  · rw [FtxMessage.decodeStd, bytes.n29a_eq smallTo smallDe, bytes.n29b_eq smallDe smallGrid,
      bytes.getI3_eq smallI3, bytes.igrid4_eq smallI3, bytes.ir_eq smallGrid, fieldTo, flagTo,
      fieldDe, flagDe]
    have first := fields.unpacksTo table
    generalize unpack28 a message.callTo.suffix.flag message.i3 table = unpacked at first ⊢
    obtain ⟨unpackedA, table⟩ := unpacked
    obtain rfl : unpackedA = _ := first
    have second := fields.unpacksDe table
    dsimp only
    generalize unpack28 b message.callDe.suffix.flag message.i3 table = unpacked at second ⊢
    obtain ⟨unpackedB, table⟩ := unpacked
    obtain rfl : unpackedB = _ := second
    dsimp only
    rw [← unpackedGrid, sameExtra]

theorem CallFieldsOf.decode {a b : Nat} (fields : message.CallFieldsOf a b)
    {encoded : FtxMessage} (isPayload : encoded.payload = message.payload a b)
    (table : CallsignTable) : (encoded.decode table).1 = .ok message.text := by
  obtain ⟨isType, decoded⟩ := fields.decodeStd isPayload table
  rw [FtxMessage.decode, isType]
  dsimp only
  rw [FtxMessage.decodeFields, isType]
  dsimp only
  generalize encoded.decodeStd table = result at decoded ⊢
  obtain ⟨result, table⟩ := result
  obtain rfl : result = _ := decoded
  rfl

end StandardMessage

/-- A standard message is read as it was sent, whatever callsigns the sender and
the receiver have heard before. -/
theorem decode_encode_standard (message : StandardMessage) (start : FtxMessage)
    (hashIf : Option CallsignTable) :
    ∃ encoded, (start.encode hashIf message.text).1 = .ok encoded ∧
      encoded.getType = .standard ∧ ∀ table, (encoded.decode table).1 = .ok message.text := by
  obtain ⟨a, b, fields, encoded⟩ := message.exists_encoded start hashIf
  exact ⟨_, encoded, (fields.decodeStd rfl hashtableInit).1, fields.decode rfl⟩

end RtlsdrFt8d
