import RtlsdrFt8d.ByteArithmetic
import RtlsdrFt8d.CallFieldShapes
import RtlsdrFt8d.PositionalNumerals

/-!
# Free text

`ftx_message_encode_free` packs thirteen characters as digits of a number in base
42 and shifts it to the front of the payload; the decoder shifts it back and
divides.  What comes out is the text that went in, as far as its characters are
in the table and thirteen are enough.
-/

namespace RtlsdrFt8d

open ByteArithmetic NetworkBytes PositionalNumerals

/-! ## The encoder -/

/-- `to_upper`. -/
def toUpper (symbol : Char) : Char :=
  if 'a' ≤ symbol ∧ symbol ≤ 'z' then
    Char.ofNat (symbol.toNat - 'a'.toNat + 'A'.toNat)
  else symbol

/-- `c14`: the last thirteen characters, after blanks where there are fewer. -/
def freeTextField (text : List Char) : List Char :=
  List.replicate (13 - text.length) ' ' ++ (text.drop (text.length - 13)).map toUpper

/-- Multiply the long integer in `b71` by 42 and add a digit, from the last byte
on: the product and the carry. -/
def multiplyBy42 : List UInt8 → Nat → List UInt8 × Nat
  | [], carry => ([], carry)
  | byte :: b71, carry =>
      let (b71, carry) := multiplyBy42 b71 carry
      let v := byte.toNat * 42 + carry
      (UInt8.ofNat (v &&& 0xFF) :: b71, v >>> 8)

/-- The digit of a character; those outside the table count as blanks. -/
def freeTextDigit (symbol : Char) : Nat :=
  (nchar symbol .full).getD 0

def freeTextB71 (c14 : List Char) : List UInt8 :=
  c14.foldl (fun b71 symbol => (multiplyBy42 b71 (freeTextDigit symbol)).1) (List.replicate 9 0)

/-- Shift the bytes left by one bit, from the last one on: the bytes and the bit
that leaves the first one. -/
def shiftLeftLoop : List UInt8 → UInt8 → List UInt8 × UInt8
  | [], carry => ([], carry)
  | byte :: b71, carry =>
      let (payload, carry) := shiftLeftLoop b71 carry
      ((byte <<< 1 ||| carry) :: payload, (byte >>> 7) &&& 1)

def freeTextPayload (text : List Char) : List UInt8 :=
  let (payload, carry) := shiftLeftLoop (freeTextB71 (freeTextField text)) 0
  payload ++ [carry <<< 7]

/-! ## Lengths -/

theorem length_freeTextField (text : List Char) : (freeTextField text).length = 13 := by
  simp only [freeTextField, List.length_append, List.length_replicate, List.length_map,
    List.length_drop]
  omega

/-- The source's product is the one of the library. -/
theorem multiplyBy42_eq (b71 : List UInt8) (carry : Nat) :
    multiplyBy42 b71 carry = mulAdd 42 b71 carry := by
  induction b71 with
  | nil => rfl
  | cons byte b71 ih =>
      have lowByte (v : Nat) : UInt8.ofNat (v &&& 0xFF) = UInt8.ofNat v := by
        apply UInt8.toNat_inj.mp
        rw [UInt8.toNat_ofNat', UInt8.toNat_ofNat', show 0xFF = 2 ^ 8 - 1 by rfl,
          Nat.and_two_pow_sub_one_eq_mod, Nat.mod_mod]
      rw [multiplyBy42, mulAdd, ih]
      simp only [lowByte, Nat.shiftRight_eq_div_pow]

theorem length_freeTextB71 (c14 : List Char) : (freeTextB71 c14).length = 9 := by
  induction c14 using List.reverseRecOn with
  | nil => rfl
  | append_singleton c14 symbol ih =>
      rw [freeTextB71, List.foldl_append, ← freeTextB71, List.foldl_cons, List.foldl_nil,
        multiplyBy42_eq, length_mulAdd, ih]

theorem length_shiftLeftLoop (b71 : List UInt8) (carry : UInt8) :
    (shiftLeftLoop b71 carry).1.length = b71.length := by
  induction b71 with
  | nil => rfl
  | cons byte b71 ih => rw [shiftLeftLoop, List.length_cons, ih, List.length_cons]

theorem length_freeTextPayload (text : List Char) : (freeTextPayload text).length = 10 := by
  rw [freeTextPayload, List.length_append, length_shiftLeftLoop, length_freeTextB71]
  rfl

/-- `ftx_message_encode_free`, which never fails. -/
def FtxMessage.encodeFree (message : FtxMessage) (text : List Char) : FtxMessage :=
  { message with payload := ⟨(freeTextPayload text).toArray, length_freeTextPayload text⟩ }

/-! ## Digits of texts -/

theorem freeTextDigit_of_not_mem {symbol : Char} (outside : symbol ∉ CharTable.full.chars) :
    freeTextDigit symbol = 0 := by
  have unknown : nchar symbol .full = none := List.idxOf?_eq_none_iff.mpr outside
  rw [freeTextDigit, unknown, Option.getD_none]

theorem freeTextDigit_lt (symbol : Char) : freeTextDigit symbol < 42 := by
  have known : ∀ symbol ∈ CharTable.full.chars, freeTextDigit symbol < 42 := by
    decide +kernel
  by_cases inTable : symbol ∈ CharTable.full.chars
  · exact known symbol inTable
  · rw [freeTextDigit_of_not_mem inTable]
    decide

/-- What a character becomes: itself, or a blank. -/
theorem charn_freeTextDigit (symbol : Char) :
    charn (freeTextDigit symbol) .full =
      if symbol ∈ CharTable.full.chars then symbol else ' ' := by
  have known : ∀ symbol ∈ CharTable.full.chars, charn (freeTextDigit symbol) .full = symbol := by
    decide +kernel
  split_ifs with inTable
  · exact known symbol inTable
  · rw [freeTextDigit_of_not_mem inTable]
    rfl

theorem value_freeTextDigits_lt (c14 : List Char) :
    value 42 (c14.map freeTextDigit) < 42 ^ c14.length := by
  have below := @natValue_lt 42 (c14.map freeTextDigit)
    (List.forall_mem_map.mpr fun symbol _ => freeTextDigit_lt symbol)
  rwa [List.length_map] at below

/-- Thirteen digits fit in the nine bytes. -/
theorem ofBigEndian_freeTextB71 {c14 : List Char} (short : c14.length ≤ 13) :
    ofBigEndian (freeTextB71 c14) = value 42 (c14.map freeTextDigit) := by
  induction c14 using List.reverseRecOn with
  | nil => rfl
  | append_singleton c14 symbol ih =>
      have bound := value_freeTextDigits_lt (c14 ++ [symbol])
      have power : 42 ^ (c14 ++ [symbol]).length ≤ 42 ^ 13 := Nat.pow_le_pow_right (by decide) short
      rw [List.length_append, List.length_singleton] at short
      have before := ih (by omega)
      rw [List.map_append, List.map_singleton, value_append_singleton] at bound ⊢
      rw [freeTextB71, List.foldl_append, ← freeTextB71, List.foldl_cons, List.foldl_nil,
        multiplyBy42_eq, mulAdd_of_lt, before, Nat.mul_comm]
      rw [before, length_freeTextB71]
      omega

/-! ## The shift -/

/-- A byte and the bit shifted into it can be told apart again. -/
theorem shifted_byte (byte : UInt8) {carry : UInt8} (isBit : carry ≤ 1) :
    ((byte >>> 7 &&& 1) <<< 7 ||| (byte <<< 1 ||| carry) >>> 1) = byte ∧
      (byte <<< 1 ||| carry) &&& 1 = carry ∧ byte >>> 7 &&& 1 ≤ 1 := by
  have bytes : ∀ n < 256, ∀ bit < 2,
      ((UInt8.ofNat n >>> 7 &&& 1) <<< 7 ||| (UInt8.ofNat n <<< 1 ||| UInt8.ofNat bit) >>> 1) =
          UInt8.ofNat n ∧
        (UInt8.ofNat n <<< 1 ||| UInt8.ofNat bit) &&& 1 = UInt8.ofNat bit ∧
        UInt8.ofNat n >>> 7 &&& 1 ≤ 1 := by
    decide +kernel
  have bit : carry.toNat < 2 := Nat.lt_succ_of_le (UInt8.le_iff_toNat_le.mp isBit)
  have found := bytes byte.toNat byte.toNat_lt carry.toNat bit
  rwa [UInt8.ofNat_toNat, UInt8.ofNat_toNat] at found

/-- Shifting right undoes the shift to the left. -/
theorem telemetryLoop_shiftLeftLoop (b71 : List UInt8) {carry : UInt8} (isBit : carry ≤ 1) :
    (shiftLeftLoop b71 carry).2 ≤ 1 ∧
      FtxMessage.telemetryLoop (shiftLeftLoop b71 carry).1 (shiftLeftLoop b71 carry).2 = b71 := by
  induction b71 with
  | nil => exact ⟨isBit, rfl⟩
  | cons byte b71 ih =>
      obtain ⟨same, low, high⟩ := shifted_byte byte ih.1
      rw [shiftLeftLoop, FtxMessage.telemetryLoop]
      refine ⟨high, ?_⟩
      rw [same, low, ih.2]

/-- No bit leaves the first byte of a number of 71 bits. -/
theorem shiftLeftLoop_carry {b71 : List UInt8} (nine : b71.length = 9)
    (small : ofBigEndian b71 < 2 ^ 71) (carry : UInt8) : (shiftLeftLoop b71 carry).2 = 0 := by
  obtain ⟨byte, rest, rfl⟩ := List.exists_cons_of_length_eq_add_one nine
  have eight : rest.length = 8 := Nat.succ.inj nine
  rw [ofBigEndian_cons, eight] at small
  have byteSmall : byte.toNat < 128 := by omega
  have bytes : ∀ n < 128, UInt8.ofNat n >>> 7 &&& 1 = 0 := by
    decide +kernel
  have found := bytes byte.toNat byteSmall
  rwa [UInt8.ofNat_toNat] at found

/-- The last bit of the last byte is the one shifted in. -/
theorem shiftLeftLoop_append_singleton (b71 : List UInt8) (byte carry : UInt8) :
    shiftLeftLoop (b71 ++ [byte]) carry =
      ((shiftLeftLoop b71 (byte >>> 7 &&& 1)).1 ++ [byte <<< 1 ||| carry],
        (shiftLeftLoop b71 (byte >>> 7 &&& 1)).2) := by
  induction b71 with
  | nil => rfl
  | cons first b71 ih =>
      rw [List.cons_append, shiftLeftLoop, shiftLeftLoop, ih]
      rfl

/-! ## Division in the decoder -/

theorem divideBy42_eq (b71 : List UInt8) (rem : Nat) :
    FtxMessage.divideBy42 b71 rem = divMod 42 b71 rem := by
  induction b71 generalizing rem with
  | nil => rfl
  | cons byte b71 ih =>
      have joined : rem <<< 8 ||| byte.toNat = rem * 256 + byte.toNat := by
        rw [← Nat.shiftLeft_add_eq_or_of_lt byte.toNat_lt, Nat.shiftLeft_eq]
      rw [FtxMessage.divideBy42, divMod, joined, ih]

/-- Repeated division gives the digits of the number. -/
theorem freeTextChars_eq (count : Nat) (b71 : List UInt8) :
    FtxMessage.freeTextChars count b71 = unpackChars 42 .full count (ofBigEndian b71) := by
  induction count generalizing b71 with
  | zero => rfl
  | succ count ih =>
      obtain ⟨quotient, rem⟩ := @divMod_eq 42 (by decide) b71
      rw [FtxMessage.freeTextChars, unpackChars, divideBy42_eq, ← rem, ← quotient, ← ih]

/-- The characters of the digits that make up a number. -/
theorem unpackChars_value {base : Nat} (table : CharTable) {digits : List Nat}
    (inRange : ∀ digit ∈ digits, digit < base) :
    unpackChars base table digits.length (value base digits) =
      digits.map fun digit => charn digit table := by
  induction digits using List.reverseRecOn with
  | nil => rfl
  | append_singleton digits last ih =>
      rw [List.forall_mem_append, List.forall_mem_singleton] at inRange
      rw [List.length_append, List.length_singleton, unpackChars, value_append_singleton,
        Nat.mul_comm, Nat.mul_add_mod, Nat.mod_eq_of_lt inRange.2,
        Nat.mul_add_div (Nat.zero_lt_of_lt inRange.2), Nat.div_eq_of_lt inRange.2, Nat.add_zero,
        ih inRange.1, List.map_append, List.map_singleton]

/-! ## Free text -/

/-- What free text keeps of a character. -/
def freeTextSymbol (symbol : Char) : Char :=
  if toUpper symbol ∈ CharTable.full.chars then toUpper symbol else ' '

/-- What free text keeps of a text: the last thirteen characters. -/
def freeTextShown (text : List Char) : List Char :=
  (text.drop (text.length - 13)).map freeTextSymbol

/-- The thirteen characters that a text is packed as. -/
def freeTextNormalForm (text : List Char) : List Char :=
  List.replicate (13 - text.length) ' ' ++ freeTextShown text

/-- The bits of a payload, first bit first. -/
def FtxMessage.payloadBit (message : FtxMessage) (i : Fin 80) : Nat :=
  (message.payloadByte ⟨i / 8, by omega⟩ >>> (7 - i.val % 8)) &&& 1

/-- A payload of free text: the type is told by zeros after the 71 bits. -/
structure IsFreeTextPayload (message : FtxMessage) : Prop where
  type : message.getType = .freeText
  i3 : message.getI3 = 0
  n3 : message.getN3 = 0
  rest : ∀ i, 70 < i.val → message.payloadBit i = 0

theorem map_charn_freeTextField (text : List Char) :
    (freeTextField text).map (fun symbol => charn (freeTextDigit symbol) .full) =
      freeTextNormalForm text := by
  rw [freeTextField, freeTextNormalForm, freeTextShown, List.map_append, List.map_replicate,
    List.map_map]
  congr 1
  exact List.map_congr_left fun symbol _ => charn_freeTextDigit (toUpper symbol)

theorem ofBigEndian_freeTextB71_lt (text : List Char) :
    ofBigEndian (freeTextB71 (freeTextField text)) < 2 ^ 71 := by
  have length := length_freeTextField text
  have bound := value_freeTextDigits_lt (freeTextField text)
  rw [length] at bound
  rw [ofBigEndian_freeTextB71 length.le]
  omega

variable (message other : FtxMessage) (text otherText : List Char)

theorem payload_encodeFree :
    (message.encodeFree text).payload.toList =
      (shiftLeftLoop (freeTextB71 (freeTextField text)) 0).1 ++ [0] := by
  have noCarry := shiftLeftLoop_carry (length_freeTextB71 (freeTextField text))
    (ofBigEndian_freeTextB71_lt text) 0
  change freeTextPayload text = _
  rw [freeTextPayload]
  generalize shiftLeftLoop (freeTextB71 (freeTextField text)) 0 = shifted at noCarry ⊢
  obtain ⟨payload, carry⟩ := shifted
  obtain rfl : carry = 0 := noCarry
  rfl

theorem decodeTelemetry_encodeFree :
    (message.encodeFree text).decodeTelemetry = freeTextB71 (freeTextField text) := by
  have shifted := telemetryLoop_shiftLeftLoop (freeTextB71 (freeTextField text))
    (show (0 : UInt8) ≤ 1 by decide)
  have noCarry := shiftLeftLoop_carry (length_freeTextB71 (freeTextField text))
    (ofBigEndian_freeTextB71_lt text) 0
  have nine := length_shiftLeftLoop (freeTextB71 (freeTextField text)) 0
  rw [length_freeTextB71] at nine
  rw [FtxMessage.decodeTelemetry, payload_encodeFree, List.take_left' nine]
  rw [noCarry] at shifted
  exact shifted.2

theorem freeTextChars_encodeFree :
    FtxMessage.freeTextChars 13 (message.encodeFree text).decodeTelemetry =
      freeTextNormalForm text := by
  have length := length_freeTextField text
  have digits := unpackChars_value .full (List.forall_mem_map.mpr
    fun symbol (_ : symbol ∈ freeTextField text) => freeTextDigit_lt symbol)
  rw [List.length_map, length, List.map_map] at digits
  rw [freeTextChars_eq, decodeTelemetry_encodeFree, ofBigEndian_freeTextB71 length.le, digits]
  exact map_charn_freeTextField text

theorem payloadByte_eq {message : FtxMessage} {i : Fin 10} {front back : List UInt8}
    {byte : UInt8} (bytes : message.payload.toList = front ++ byte :: back)
    (length : front.length = i) : message.payloadByte i = byte.toNat := by
  have found : message.payload.toList[i.val]? = some byte := by
    rw [bytes, ← length, List.getElem?_append_right (Nat.le_refl _), Nat.sub_self,
      List.getElem?_cons_zero]
  rw [Vector.getElem?_toList, Vector.getElem?_eq_getElem i.isLt] at found
  exact congrArg UInt8.toNat (Option.some.inj found)

/-- The last bit of the nine bytes and all of the tenth are zero. -/
theorem payloadByte_encodeFree :
    (message.encodeFree text).payloadByte 8 % 2 = 0 ∧
      (message.encodeFree text).payloadByte 9 = 0 := by
  have payload := payload_encodeFree message text
  have nine := length_freeTextB71 (freeTextField text)
  obtain ⟨front, last, eq⟩ : ∃ front last, freeTextB71 (freeTextField text) = front ++ [last] := by
    rcases List.eq_nil_or_concat (freeTextB71 (freeTextField text)) with empty | found
    · rw [empty] at nine
      cases nine
    · simpa using found
  rw [eq, List.length_append, List.length_singleton] at nine
  have eight := length_shiftLeftLoop front (last >>> 7 &&& 1)
  rw [eq, shiftLeftLoop_append_singleton] at payload
  constructor
  · rw [List.append_assoc] at payload
    rw [payloadByte_eq payload (by rw [eight]; exact Nat.succ.inj nine), UInt8.or_zero,
      UInt8.toNat_shiftLeft, Nat.shiftLeft_eq]
    change last.toNat * 2 ^ 1 % 2 ^ 8 % 2 = 0
    omega
  · rw [payloadByte_eq payload (by simp [eight]; omega)]
    rfl

theorem isFreeTextPayload_encodeFree : IsFreeTextPayload (message.encodeFree text) := by
  obtain ⟨even, zero⟩ := payloadByte_encodeFree message text
  have i3 : (message.encodeFree text).getI3 = 0 := by
    rw [FtxMessage.getI3, zero]
    rfl
  have n3 : (message.encodeFree text).getN3 = 0 := by
    have bits : ∀ byte < 256, byte % 2 = 0 → (byte <<< 2) &&& 4 = 0 := by
      decide +kernel
    rw [FtxMessage.getN3, zero, bits ((message.encodeFree text).payloadByte 8)
      (UInt8.toNat_lt _) even]
    rfl
  refine ⟨?_, i3, n3, fun i afterText => ?_⟩
  · rw [FtxMessage.getType, i3, n3]
    rfl
  · rw [FtxMessage.payloadBit]
    rcases Nat.lt_or_ge i.val 72 with before | after
    · obtain rfl : i = 71 := Fin.ext (by omega)
      rw [Nat.and_one_is_mod]
      exact even
    · have tenth : (⟨i.val / 8, by omega⟩ : Fin 10) = 9 :=
        Fin.ext (show i.val / 8 = 9 by omega)
      rw [tenth, zero, Nat.zero_shiftRight, Nat.zero_and]

theorem freeTextDigit_charn : ∀ digit < 42, freeTextDigit (charn digit .full) = digit := by
  decide +kernel

/-- The packed number depends on the normal form only. -/
theorem freeTextB71_eq_of_normalForm :
    freeTextB71 (freeTextField text) = freeTextB71 (freeTextNormalForm text) := by
  have sameDigit (b71 : List UInt8) (symbol : Char) :
      (multiplyBy42 b71 (freeTextDigit (charn (freeTextDigit symbol) .full))).1 =
        (multiplyBy42 b71 (freeTextDigit symbol)).1 := by
    rw [freeTextDigit_charn _ (freeTextDigit_lt symbol)]
  rw [← map_charn_freeTextField, freeTextB71, freeTextB71, List.foldl_map]
  simp only [sameDigit]

theorem encodeFree_payload_eq_iff :
    (message.encodeFree text).payload = (other.encodeFree otherText).payload ↔
      freeTextNormalForm text = freeTextNormalForm otherText := by
  constructor
  · intro same
    rw [← freeTextChars_encodeFree message text, ← freeTextChars_encodeFree other otherText,
      FtxMessage.decodeTelemetry, FtxMessage.decodeTelemetry, same]
  · intro same
    apply Vector.toList_inj.mp
    rw [payload_encodeFree, payload_encodeFree, freeTextB71_eq_of_normalForm,
      freeTextB71_eq_of_normalForm, same]

theorem trim_freeTextNormalForm : trim (freeTextNormalForm text) = trim (freeTextShown text) := by
  have blanks (count : Nat) :
      trimFront (List.replicate count ' ' ++ freeTextShown text) =
        trimFront (freeTextShown text) := by
    rw [trimFront, List.dropWhile_append_of_pos]
    · rfl
    · intro symbol isBlank
      rw [List.eq_of_mem_replicate isBlank]
      rfl
  rw [trim, trim, freeTextNormalForm, blanks]

/-- Free text survives, is told from other messages by its type, and is packed
the same only where the normal forms are the same. -/
theorem freeText_roundTrip :
    (message.encodeFree text).decodeFree = trim (freeTextShown text) ∧
      IsFreeTextPayload (message.encodeFree text) ∧
      ∀ other otherText,
        (message.encodeFree text).payload = (FtxMessage.encodeFree other otherText).payload ↔
          freeTextNormalForm text = freeTextNormalForm otherText := by
  refine ⟨?_, isFreeTextPayload_encodeFree message text, fun other otherText =>
    encodeFree_payload_eq_iff message other text otherText⟩
  rw [FtxMessage.decodeFree, freeTextChars_encodeFree, trim_freeTextNormalForm]

end RtlsdrFt8d
