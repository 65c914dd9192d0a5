import RtlsdrFt8d.BinaryPolynomials
import RtlsdrFt8d.PackedBits

/-!
# Checksums of messages

The CRC of crc.c.  The register of the source has 16 bits of which the upper two
collect what is shifted out; its lower 14 hold the remainder of a polynomial
division, a byte at a time.
-/

namespace RtlsdrFt8d

open BinaryPolynomials PackedBits Polynomial

/-! ## The functions -/

/-- The variables of the loop of `ftx_compute_crc`. -/
structure CrcState where
  remainder : UInt16
  idxByte : Nat

section Functions

variable {size : Nat} (message : Vector UInt8 size)

/-- Bring the next byte into the remainder, at a byte boundary. -/
def CrcState.load (idxBit : Nat) (state : CrcState) : CrcState :=
  if idxBit % 8 = 0 then
    { remainder := state.remainder ^^^ ((message[state.idxByte]?.getD 0).toUInt16 <<< 6)
      idxByte := state.idxByte + 1 }
  else state

/-- Divide the current data bit. -/
def CrcState.divide (state : CrcState) : CrcState :=
  if state.remainder &&& 0x2000 ≠ 0 then
    { state with remainder := (state.remainder <<< 1) ^^^ 0x2757 }
  else { state with remainder := state.remainder <<< 1 }

/-- The state after some bits. -/
def crcLoop : Nat → CrcState
  | 0 => { remainder := 0, idxByte := 0 }
  | idxBit + 1 => ((crcLoop idxBit).load message idxBit).divide

/-- `ftx_compute_crc`. -/
def computeCrc (numBits : Nat) : UInt16 :=
  (crcLoop message numBits).remainder &&& 0x3FFF

end Functions

/-- `ftx_extract_crc`. -/
def extractCrc (a91 : Vector UInt8 12) : UInt16 :=
  (((a91.get 9) &&& 0x07).toUInt16 <<< 11) ||| ((a91.get 10).toUInt16 <<< 3) |||
    ((a91.get 11).toUInt16 >>> 5)

/-- The message of which the checksum is taken: the 77 bits in front, and zeros. -/
def clearCrc (a91 : Vector UInt8 12) : Vector UInt8 12 :=
  (a91.set 9 (a91.get 9 &&& 0xF8)).set 10 0

/-- `ftx_add_crc`. -/
def addCrc (payload : Vector UInt8 10) : Vector UInt8 12 :=
  let a91 := clearCrc (payload ++ (#v[0, 0] : Vector UInt8 2))
  let checksum := computeCrc a91 (96 - 14)
  ((a91.set 9 (a91.get 9 ||| (checksum >>> 11).toUInt8)).set 10 (checksum >>> 3).toUInt8).set 11
    (checksum <<< 5).toUInt8

/-! ## The remainder -/

/-- The lower bits of the register. -/
def CrcState.register (state : CrcState) : BitVec 14 :=
  state.remainder.toBitVec.setWidth 14

/-- `FT8_CRC_POLYNOMIAL`. -/
def crcPolynomial : BitVec 14 :=
  0x2757

theorem and_topBit_ne_zero (remainder : UInt16) :
    remainder &&& 0x2000 ≠ 0 ↔ (remainder.toBitVec.setWidth 14).msb = true := by
  have topBit : (0x2000 : UInt16).toBitVec = BitVec.twoPow 16 13 := rfl
  have nonzero : BitVec.twoPow 16 13 ≠ 0#16 := by decide
  rw [BitVec.msb_setWidth, ← UInt16.toBitVec_inj.ne, UInt16.toBitVec_and, topBit,
    BitVec.and_twoPow]
  cases remainder.toBitVec.getLsbD 13 <;> simp [nonzero]

theorem register_divide (state : CrcState) :
    state.divide.register = shift crcPolynomial state.register := by
  have shifted : (state.remainder <<< 1).toBitVec.setWidth 14 = state.register <<< 1 := by
    rw [UInt16.toBitVec_shiftLeft, CrcState.register]
    ext i inside
    simp
  rw [CrcState.divide, shift]
  by_cases top : state.remainder &&& 0x2000 ≠ 0
  · have isSet : state.register.msb = true := (and_topBit_ne_zero _).mp top
    rw [if_pos top, if_pos isSet, CrcState.register, UInt16.toBitVec_xor, BitVec.setWidth_xor,
      shifted]
    rfl
  · have clear : ¬state.register.msb = true := fun isSet => top ((and_topBit_ne_zero _).mpr isSet)
    rw [if_neg top, if_neg clear, CrcState.register, shifted]

@[simp]
theorem idxByte_divide (state : CrcState) : state.divide.idxByte = state.idxByte := by
  rw [CrcState.divide]
  split <;> rfl

section Residues

variable {size : Nat} (message : Vector UInt8 size)

theorem residue_byte (byte : UInt8) :
    residue crcPolynomial ((byte.toUInt16 <<< 6).toBitVec.setWidth 14) =
      AdjoinRoot.root (modulus crcPolynomial) ^ 6 *
        AdjoinRoot.mk (modulus crcPolynomial) (polyOf byte.toNat) := by
  have value : ((byte.toUInt16 <<< 6).toBitVec.setWidth 14).toNat = byte.toNat <<< 6 := by
    have small := byte.toNat_lt
    have six : (6 : UInt16).toNat % 16 = 6 := rfl
    rw [BitVec.toNat_setWidth, UInt16.toNat_toBitVec, UInt16.toNat_shiftLeft,
      UInt8.toNat_toUInt16, six, Nat.shiftLeft_eq]
    omega
  rw [residue, value, polyOf_shiftLeft, map_mul, map_pow, AdjoinRoot.mk_X]

/-- The register holds the bytes that were brought in, multiplied by the power
of `X` for the bits that were divided. -/
theorem residue_crcLoop {numBits : Nat} (inside : numBits ≤ 8 * size) :
    (crcLoop message numBits).idxByte = (numBits + 7) / 8 ∧
      residue crcPolynomial (crcLoop message numBits).register =
        AdjoinRoot.root (modulus crcPolynomial) ^ (14 + numBits - 8 * ((numBits + 7) / 8)) *
          AdjoinRoot.mk (modulus crcPolynomial)
            (polyOf (bytesNumber (message.toList.take ((numBits + 7) / 8)))) := by
  induction numBits with
  | zero => exact ⟨rfl, by simp [crcLoop, CrcState.register, residue, bytesNumber]⟩
  | succ idxBit ih =>
      obtain ⟨idxByte, register⟩ := ih (by omega)
      rw [crcLoop]
      by_cases boundary : idxBit % 8 = 0
      · obtain ⟨j, rfl⟩ := Nat.dvd_of_mod_eq_zero boundary
        rw [show (8 * j + 7) / 8 = j by omega] at idxByte register
        rw [show (8 * j + 1 + 7) / 8 = j + 1 by omega]
        have byteInside : j < message.toList.length := by
          rw [Vector.length_toList]
          omega
        have loaded : (crcLoop message (8 * j)).load message (8 * j) =
            { remainder := (crcLoop message (8 * j)).remainder ^^^
                ((message.toList[j]).toUInt16 <<< 6)
              idxByte := j + 1 } := by
          rw [CrcState.load, if_pos boundary, idxByte]
          simp [show j < size by omega]
        have taken : bytesNumber (message.toList.take (j + 1)) =
            bytesNumber (message.toList.take j) * 2 ^ 8 + message.toList[j].toNat := by
          rw [List.take_succ_eq_append_getElem byteInside, bytesNumber_append]
        refine ⟨by rw [loaded, idxByte_divide], ?_⟩
        rw [register_divide, residue_shift, loaded, CrcState.register, UInt16.toBitVec_xor,
          BitVec.setWidth_xor, residue_xor, residue_byte, ← CrcState.register, register, taken,
          polyOf_mul_two_pow_add _ (UInt8.toNat_lt _), map_add, map_mul, map_pow, AdjoinRoot.mk_X,
          show 14 + 8 * j - 8 * j = 14 by omega,
          show 14 + (8 * j + 1) - 8 * (j + 1) = 7 by omega]
        ring
      · have unloaded : (crcLoop message idxBit).load message idxBit = crcLoop message idxBit := by
          rw [CrcState.load, if_neg boundary]
        rw [unloaded, show (idxBit + 1 + 7) / 8 = (idxBit + 7) / 8 by omega]
        refine ⟨by rw [idxByte_divide, idxByte], ?_⟩
        rw [register_divide, residue_shift, register,
          show 14 + (idxBit + 1) - 8 * ((idxBit + 7) / 8) =
            14 + idxBit - 8 * ((idxBit + 7) / 8) + 1 by omega]
        ring

theorem toNat_computeCrc (numBits : Nat) :
    (computeCrc message numBits).toNat = (crcLoop message numBits).register.toNat := by
  have mask : (0x3FFF : UInt16).toNat = 2 ^ 14 - 1 := rfl
  rw [computeCrc, UInt16.toNat_and, mask, Nat.and_two_pow_sub_one_eq_mod, CrcState.register,
    BitVec.toNat_setWidth, UInt16.toNat_toBitVec]

/-- The checksum is the remainder of a division by the CRC polynomial. -/
theorem polyOf_computeCrc {numBits : Nat} (inside : numBits ≤ 8 * size) :
    polyOf (computeCrc message numBits).toNat =
      (X ^ (14 + numBits - 8 * ((numBits + 7) / 8)) *
        polyOf (bytesNumber (message.toList.take ((numBits + 7) / 8)))) %ₘ
          modulus crcPolynomial := by
  rw [toNat_computeCrc]
  apply polyOf_eq_modByMonic
  rw [(residue_crcLoop message inside).2, map_mul, map_pow, AdjoinRoot.mk_X]

end Residues

/-! ## Checked messages -/

/-- What the decoder compares after the channel code. -/
def crcPasses (a91 : Vector UInt8 12) : Bool :=
  extractCrc a91 == computeCrc (clearCrc a91) (96 - 14)

/-- The power that a bit of a checked message stands for.  The checksum is taken
of 82 bits, of which the last five are not sent. -/
def exponent (position : Nat) : Nat :=
  if position < 77 then 95 - position else 90 - position

/-- The polynomial of the 91 bits of a checked message. -/
noncomputable def messagePoly (a91 : Vector UInt8 12) : (ZMod 2)[X] :=
  ∑ position ∈ Finset.range 91, C (ofBit (bit a91 position)) * X ^ exponent position

theorem bit_clearCrc (a91 : Vector UInt8 12) {position : Nat} (inside : position < 88) :
    bit (clearCrc a91) position = (decide (position < 77) && bit a91 position) := by
  have masks : ∀ k < 8, byteBit 0xF8 k = decide (k < 5) := by
    decide
  rw [clearCrc, bit_replace _ _ (by decide), bit_replace _ _ (by decide)]
  by_cases last : position / 8 = 10
  · simp [last, show ¬position < 77 by omega]
  · by_cases ninth : position / 8 = 9
    · have byte : byteBit (a91.get 9) (position % 8) = bit a91 position := by
        rw [bit, ninth]
        rfl
      rw [if_neg last, if_pos ninth, byteBit_and, masks _ (Nat.mod_lt _ (by decide)), byte,
        Bool.and_comm]
      congr 1
      exact decide_eq_decide.mpr (by omega)
    · simp [last, ninth, show position < 77 by omega]

/-- The payload's part of the polynomial, as far as the division sees it. -/
theorem polyOf_clearCrc (a91 : Vector UInt8 12) :
    X ^ 8 * polyOf (bytesNumber ((clearCrc a91).toList.take 11)) =
      ∑ position ∈ Finset.range 77, C (ofBit (bit a91 position)) * X ^ (95 - position) := by
  have length : ((clearCrc a91).toList.take 11).length = 11 := by simp
  have small := bytesNumber_lt ((clearCrc a91).toList.take 11)
  have bits {position : Nat} (inside : position < 88) :
      (bytesNumber ((clearCrc a91).toList.take 11)).testBit (88 - 1 - position) =
        (decide (position < 77) && bit a91 position) := by
    have number := testBit_bytesNumber
      (show position < 8 * ((clearCrc a91).toList.take 11).length by omega)
    rw [length] at number
    rw [number, ← bit_clearCrc a91 inside, bit_eq_listBit, listBit, listBit]
    congr 1
    simp [show position / 8 < 11 by omega, show position / 8 < 12 by omega]
  rw [length] at small
  rw [polyOf_eq_sum small, ← Finset.sum_range_reflect, Finset.mul_sum,
    show 8 * 11 = 77 + 11 by rfl, Finset.sum_range_add]
  have cleared : ∑ k ∈ Finset.range 11, X ^ 8 *
      (C (ofBit ((bytesNumber ((clearCrc a91).toList.take 11)).testBit
        (77 + 11 - 1 - (77 + k)))) * X ^ (77 + 11 - 1 - (77 + k))) = (0 : (ZMod 2)[X]) := by
    apply Finset.sum_eq_zero
    intro k inside
    have small := Finset.mem_range.mp inside
    rw [bits (by omega)]
    simp [ofBit]
  rw [cleared, add_zero]
  apply Finset.sum_congr rfl
  intro position inside
  have small := Finset.mem_range.mp inside
  rw [bits (by omega), decide_eq_true small, Bool.true_and, mul_left_comm, ← pow_add]
  congr 2
  omega

theorem bit_nine_ten_eleven (a91 : Vector UInt8 12) {k : Nat} (inside : k < 14) :
    bit a91 (77 + k) =
      if k < 3 then (a91.get 9).toNat.testBit (2 - k)
      else if k < 11 then (a91.get 10).toNat.testBit (10 - k)
      else (a91.get 11).toNat.testBit (18 - k) := by
  rw [bit]
  split
  · rw [show (77 + k) / 8 = 9 by omega, show (77 + k) % 8 = 5 + k by omega, byteBit,
      show 7 - (5 + k) = 2 - k by omega]
    rfl
  · split
    · rw [show (77 + k) / 8 = 10 by omega, show (77 + k) % 8 = k - 3 by omega, byteBit,
        show 7 - (k - 3) = 10 - k by omega]
      rfl
    · rw [show (77 + k) / 8 = 11 by omega, show (77 + k) % 8 = k - 11 by omega, byteBit,
        show 7 - (k - 11) = 18 - k by omega]
      rfl

theorem toNat_extractCrc (a91 : Vector UInt8 12) :
    (extractCrc a91).toNat =
      ((a91.get 9).toNat % 2 ^ 3 * 2 ^ 8 + (a91.get 10).toNat) * 2 ^ 3 +
        (a91.get 11).toNat / 2 ^ 5 := by
  have ten := (a91.get 10).toNat_lt
  have eleven := (a91.get 11).toNat_lt
  have mask : (0x07 : UInt8).toNat = 2 ^ 3 - 1 := rfl
  have shifts : (11 : UInt16).toNat % 16 = 11 ∧ (3 : UInt16).toNat % 16 = 3 ∧
      (5 : UInt16).toNat % 16 = 5 := by decide
  rw [extractCrc, UInt16.toNat_or, UInt16.toNat_or, UInt16.toNat_shiftLeft, UInt16.toNat_shiftLeft,
    UInt16.toNat_shiftRight, UInt8.toNat_toUInt16, UInt8.toNat_toUInt16, UInt8.toNat_toUInt16,
    UInt8.toNat_and, mask, Nat.and_two_pow_sub_one_eq_mod, shifts.1, shifts.2.1, shifts.2.2,
    Nat.mod_eq_of_lt (show ((a91.get 9).toNat % 2 ^ 3) <<< 11 < 2 ^ 16 by
      rw [Nat.shiftLeft_eq]; omega),
    Nat.mod_eq_of_lt (show (a91.get 10).toNat <<< 3 < 2 ^ 16 by rw [Nat.shiftLeft_eq]; omega),
    Nat.shiftRight_eq_div_pow, Nat.or_assoc,
    ← Nat.shiftLeft_add_eq_or_of_lt (show (a91.get 11).toNat / 2 ^ 5 < 2 ^ 3 by omega),
    ← Nat.shiftLeft_add_eq_or_of_lt (show (a91.get 10).toNat <<< 3 + (a91.get 11).toNat / 2 ^ 5 <
      2 ^ 11 by rw [Nat.shiftLeft_eq]; omega), Nat.shiftLeft_eq, Nat.shiftLeft_eq]
  omega

theorem testBit_extractCrc (a91 : Vector UInt8 12) {k : Nat} (inside : k < 14) :
    (extractCrc a91).toNat.testBit (14 - 1 - k) = bit a91 (77 + k) := by
  have ten := (a91.get 10).toNat_lt
  have eleven := (a91.get 11).toNat_lt
  rw [bit_nine_ten_eleven a91 inside, toNat_extractCrc, Nat.mul_comm _ (2 ^ 3),
    Nat.testBit_two_pow_mul_add _ (show (a91.get 11).toNat / 2 ^ 5 < 2 ^ 3 by omega),
    Nat.mul_comm _ (2 ^ 8), Nat.testBit_two_pow_mul_add _ ten, Nat.testBit_div_two_pow,
    Nat.testBit_mod_two_pow]
  rcases Nat.lt_or_ge k 3 with isNine | notNine
  · rw [if_pos isNine, if_neg (by omega), if_neg (by omega),
      show 14 - 1 - k - 3 - 8 = 2 - k by omega, decide_eq_true (by omega), Bool.true_and]
  · rw [if_neg (Nat.not_lt.mpr notNine)]
    rcases Nat.lt_or_ge k 11 with isTen | notTen
    · rw [if_pos isTen, if_neg (by omega), if_pos (by omega),
        show 14 - 1 - k - 3 = 10 - k by omega]
    · rw [if_neg (Nat.not_lt.mpr notTen), if_pos (by omega),
        show 14 - 1 - k + 5 = 18 - k by omega]

theorem extractCrc_lt (a91 : Vector UInt8 12) : (extractCrc a91).toNat < 2 ^ 14 := by
  have ten := (a91.get 10).toNat_lt
  have eleven := (a91.get 11).toNat_lt
  rw [toNat_extractCrc]
  omega

theorem polyOf_extractCrc (a91 : Vector UInt8 12) :
    polyOf (extractCrc a91).toNat =
      ∑ k ∈ Finset.range 14, C (ofBit (bit a91 (77 + k))) * X ^ exponent (77 + k) := by
  rw [polyOf_eq_sum (extractCrc_lt a91), ← Finset.sum_range_reflect]
  apply Finset.sum_congr rfl
  intro k inside
  have bound := Finset.mem_range.mp inside
  rw [testBit_extractCrc a91 bound, exponent, if_neg (by omega)]
  congr 2
  omega

theorem messagePoly_eq (a91 : Vector UInt8 12) :
    messagePoly a91 =
      X ^ 8 * polyOf (bytesNumber ((clearCrc a91).toList.take 11)) +
        polyOf (extractCrc a91).toNat := by
  have payload : ∑ position ∈ Finset.range 77,
      C (ofBit (bit a91 position)) * X ^ exponent position =
        X ^ 8 * polyOf (bytesNumber ((clearCrc a91).toList.take 11)) := by
    rw [polyOf_clearCrc]
    apply Finset.sum_congr rfl
    intro position inside
    rw [exponent, if_pos (Finset.mem_range.mp inside)]
  rw [messagePoly, show 91 = 77 + 14 by rfl, Finset.sum_range_add, payload, polyOf_extractCrc]

/-- The checksum that the decoder calculates. -/
theorem polyOf_calculated (a91 : Vector UInt8 12) :
    polyOf (computeCrc (clearCrc a91) (96 - 14)).toNat =
      (X ^ 8 * polyOf (bytesNumber ((clearCrc a91).toList.take 11))) %ₘ
        modulus crcPolynomial := by
  have calculated := polyOf_computeCrc (clearCrc a91) (show 96 - 14 ≤ 8 * 12 by decide)
  rwa [show 14 + (96 - 14) - 8 * ((96 - 14 + 7) / 8) = 8 by rfl,
    show (96 - 14 + 7) / 8 = 11 by rfl] at calculated

/-- A checked message passes exactly if the polynomial divides it. -/
theorem crcPasses_iff (a91 : Vector UInt8 12) :
    crcPasses a91 = true ↔ modulus crcPolynomial ∣ messagePoly a91 := by
  have extracted : polyOf (extractCrc a91).toNat %ₘ modulus crcPolynomial =
      polyOf (extractCrc a91).toNat := by
    rw [modByMonic_eq_self_iff (modulus_monic _), degree_modulus]
    exact degree_polyOf_lt (extractCrc_lt a91)
  rw [messagePoly_eq, ← CharTwo.sub_eq_add, ← modByMonic_eq_zero_iff_dvd (modulus_monic _),
    sub_modByMonic, extracted, ← polyOf_calculated, sub_eq_zero, crcPasses, beq_iff_eq]
  constructor
  · intro same
    rw [same]
  · intro same
    exact (UInt16.toNat_inj.mp (polyOf_injective same)).symm

/-! ## What is sent -/

theorem computeCrc_lt {size : Nat} (message : Vector UInt8 size) (numBits : Nat) :
    (computeCrc message numBits).toNat < 2 ^ 14 := by
  rw [toNat_computeCrc]
  exact (crcLoop message numBits).register.isLt

/-- The checksum that is sent with a payload. -/
def payloadCrc (payload : Vector UInt8 10) : UInt16 :=
  computeCrc (clearCrc (payload ++ (#v[0, 0] : Vector UInt8 2))) (96 - 14)

theorem testBit_payloadCrc (payload : Vector UInt8 10) {i : Nat} (outside : 14 ≤ i) :
    (payloadCrc payload).toNat.testBit i = false :=
  Nat.testBit_lt_two_pow (lt_of_lt_of_le (computeCrc_lt _ _)
    (Nat.pow_le_pow_right (by decide) outside))

theorem byteBit_shiftRight (checksum : UInt16) (count : Nat) {k : Nat} (shift : UInt16)
    (isShift : shift.toNat % 16 = count) (small : k < 8) :
    byteBit (checksum >>> shift).toUInt8 k = checksum.toNat.testBit (count + 7 - k) := by
  rw [byteBit, UInt16.toNat_toUInt8, UInt16.toNat_shiftRight, isShift, Nat.testBit_mod_two_pow,
    Nat.testBit_shiftRight, decide_eq_true (by omega), Bool.true_and]
  congr 1
  omega

theorem bit_append_zeros (payload : Vector UInt8 10) (position : Nat) :
    bit (payload ++ (#v[0, 0] : Vector UInt8 2)) position = bit payload position := by
  rw [bit, bit, Vector.getElem?_append]
  split
  · rfl
  · rename_i outside
    rw [payload.getElem?_eq_none (by omega)]
    rcases Nat.lt_or_ge (position / 8 - 10) 2 with zero | behind
    · interval_cases position / 8 - 10 <;> simp
    · rw [Vector.getElem?_eq_none behind]

theorem bit_addCrc_payload (payload : Vector UInt8 10) {position : Nat} (inside : position < 77) :
    bit (addCrc payload) position = bit payload position := by
  have cleared := bit_clearCrc (payload ++ (#v[0, 0] : Vector UInt8 2))
    (show position < 88 by omega)
  rw [decide_eq_true inside, Bool.true_and, bit_append_zeros] at cleared
  rw [addCrc, bit_replace _ _ (by decide), if_neg (by omega), bit_replace _ _ (by decide),
    if_neg (by omega), bit_replace _ _ (by decide), ← payloadCrc]
  split
  · rename_i ninth
    rw [byteBit_or, byteBit_shiftRight (payloadCrc payload) 11 11 rfl (Nat.mod_lt _ (by decide)),
      testBit_payloadCrc payload (by omega), Bool.or_false, ← cleared, bit, ninth]
    rfl
  · exact cleared

theorem bit_addCrc_checksum (payload : Vector UInt8 10) {k : Nat} (inside : k < 14) :
    bit (addCrc payload) (77 + k) = (payloadCrc payload).toNat.testBit (14 - 1 - k) := by
  rw [addCrc, bit_replace _ _ (by decide), bit_replace _ _ (by decide),
    bit_replace _ _ (by decide), ← payloadCrc]
  rcases Nat.lt_or_ge k 3 with ninth | notNinth
  · have cleared := bit_clearCrc (payload ++ (#v[0, 0] : Vector UInt8 2))
      (show 77 + k < 88 by omega)
    rw [decide_eq_false (by omega), Bool.false_and, bit, show (77 + k) / 8 = 9 by omega] at cleared
    rw [if_neg (by omega), if_neg (by omega), if_pos (by omega), byteBit_or,
      byteBit_shiftRight (payloadCrc payload) 11 11 rfl (Nat.mod_lt _ (by decide))]
    have zero : byteBit ((clearCrc (payload ++ (#v[0, 0] : Vector UInt8 2))).get 9)
        ((77 + k) % 8) = false := cleared
    rw [zero, Bool.false_or]
    congr 1
    omega
  · rcases Nat.lt_or_ge k 11 with tenth | notTenth
    · rw [if_neg (by omega), if_pos (by omega),
        byteBit_shiftRight (payloadCrc payload) 3 3 rfl (Nat.mod_lt _ (by decide))]
      congr 1
      omega
    · have five : (5 : UInt16).toNat % 16 = 5 := rfl
      rw [if_pos (by omega), byteBit, UInt16.toNat_toUInt8, UInt16.toNat_shiftLeft, five,
        Nat.testBit_mod_two_pow, Nat.testBit_mod_two_pow, Nat.testBit_shiftLeft,
        decide_eq_true (by omega), decide_eq_true (by omega), decide_eq_true (by omega),
        Bool.true_and, Bool.true_and, Bool.true_and]
      congr 1
      omega

theorem bit_addCrc_padding (payload : Vector UInt8 10) {position : Nat} (behind : 91 ≤ position) :
    bit (addCrc payload) position = false := by
  by_cases inside : position < 96
  · have five : (5 : UInt16).toNat % 16 = 5 := rfl
    rw [addCrc, bit_replace _ _ (by decide), if_pos (by omega), byteBit, UInt16.toNat_toUInt8,
      UInt16.toNat_shiftLeft, five, Nat.testBit_mod_two_pow, Nat.testBit_mod_two_pow,
      Nat.testBit_shiftLeft, decide_eq_false (p := 7 - position % 8 ≥ 5) (by omega),
      Bool.false_and, Bool.and_false, Bool.and_false]
  · exact bit_eq_false (by omega)

theorem extractCrc_addCrc (payload : Vector UInt8 10) :
    extractCrc (addCrc payload) = payloadCrc payload := by
  apply UInt16.toNat_inj.mp
  apply Nat.eq_of_testBit_eq
  intro i
  by_cases inside : i < 14
  · have sent := testBit_extractCrc (addCrc payload) (show 13 - i < 14 by omega)
    rw [bit_addCrc_checksum payload (by omega)] at sent
    rwa [show 14 - 1 - (13 - i) = i by omega] at sent
  · rw [testBit_payloadCrc payload (by omega), Nat.testBit_lt_two_pow
      (lt_of_lt_of_le (extractCrc_lt _) (Nat.pow_le_pow_right (by decide) (by omega)))]

/-- The checksum depends on the 77 bits of the payload only. -/
theorem computeCrc_clearCrc_congr {first second : Vector UInt8 12}
    (same : ∀ position < 77, bit first position = bit second position) :
    computeCrc (clearCrc first) (96 - 14) = computeCrc (clearCrc second) (96 - 14) := by
  have payloads : X ^ 8 * polyOf (bytesNumber ((clearCrc first).toList.take 11)) =
      X ^ 8 * polyOf (bytesNumber ((clearCrc second).toList.take 11)) := by
    rw [polyOf_clearCrc, polyOf_clearCrc]
    exact Finset.sum_congr rfl fun position inside => by
      rw [same position (Finset.mem_range.mp inside)]
  have remainders := polyOf_calculated first
  rw [payloads, ← polyOf_calculated] at remainders
  exact UInt16.toNat_inj.mp (polyOf_injective remainders)

/-- What `ftx_add_crc` makes passes. -/
theorem crcPasses_addCrc (payload : Vector UInt8 10) : crcPasses (addCrc payload) = true := by
  rw [crcPasses, extractCrc_addCrc, beq_iff_eq, payloadCrc]
  apply computeCrc_clearCrc_congr
  intro position inside
  rw [bit_addCrc_payload payload inside, bit_append_zeros]

/-! ## Errors -/

/-- The bits of a received message that differ from those sent. -/
def flipped (sent received : Vector UInt8 12) : Finset Nat :=
  (Finset.range 91).filter fun position => bit sent position ≠ bit received position

theorem exponent_injOn : Set.InjOn exponent {position | position < 91} := by
  intro first firstInside second secondInside same
  simp only [Set.mem_ofPred_eq] at firstInside secondInside
  unfold exponent at same
  split at same <;> split at same <;> omega

theorem exponent_le (position : Nat) : exponent position ≤ 95 := by
  unfold exponent
  split <;> omega

theorem mem_flipped {sent received : Vector UInt8 12} {position : Nat} :
    position ∈ flipped sent received ↔
      position < 91 ∧ bit sent position ≠ bit received position := by
  rw [flipped, Finset.mem_filter, Finset.mem_range]

theorem injOn_exponent_flipped (sent received : Vector UInt8 12) :
    Set.InjOn exponent (flipped sent received) := fun _ isFirst _ isSecond same =>
  exponent_injOn (mem_flipped.mp isFirst).1 (mem_flipped.mp isSecond).1 same

theorem messagePoly_add (sent received : Vector UInt8 12) :
    messagePoly sent + messagePoly received =
      powers ((flipped sent received).image exponent) := by
  rw [powers, Finset.sum_image (injOn_exponent_flipped sent received), flipped,
    Finset.sum_filter, messagePoly, messagePoly, ← Finset.sum_add_distrib]
  apply Finset.sum_congr rfl
  intro position _
  rw [← add_mul, ← map_add, ← ofBit_xor]
  cases bit sent position <;> cases bit received position <;> simp [ofBit]

/-- Errors are overlooked exactly if the polynomial divides the powers of the
flipped bits. -/
theorem crcPasses_iff_dvd_powers (payload : Vector UInt8 10) (received : Vector UInt8 12) :
    crcPasses received = true ↔
      modulus crcPolynomial ∣ powers ((flipped (addCrc payload) received).image exponent) := by
  have divides := (crcPasses_iff _).mp (crcPasses_addCrc payload)
  rw [crcPasses_iff, ← messagePoly_add, dvd_add_right divides]

theorem eval_crcPolynomial : (modulus crcPolynomial).eval 1 = 0 := by
  have small : crcPolynomial.toNat < 2 ^ 14 := crcPolynomial.isLt
  rw [modulus, polyOf_eq_sum small, eval_add, eval_finsetSum]
  simp only [eval_pow, eval_X, one_pow, eval_mul, eval_C, mul_one]
  decide

theorem order_crcPolynomial (count : Nat) (positive : 0 < count) (small : count ≤ 95) :
    (shift crcPolynomial)^[count] 1 ≠ 1 := by
  have orders : ∀ count < 96, 0 < count → (shift crcPolynomial)^[count] 1 ≠ 1 := by
    decide +kernel
  exact orders count (by omega) positive

/-- The errors that a checksum of this width is chosen for: oddly many, two, or
a burst.  The burst is shorter across the end of the payload, where five bits
are left out. -/
inductive Detectable (errors : Finset Nat) : Prop
  | odd (count : Odd errors.card)
  | two (count : errors.card = 2)
  | burstInPayload (start : Nat) (inside : ∀ position ∈ errors,
      start ≤ position ∧ position < start + 14 ∧ position < 77)
  | burst (start : Nat) (inside : ∀ position ∈ errors, start ≤ position ∧ position < start + 9)

/-- Two powers of the variable are told apart. -/
theorem not_dvd_powers_of_two {errors : Finset Nat} (bounded : ∀ power ∈ errors, power ≤ 95)
    (count : errors.card = 2) : ¬ modulus crcPolynomial ∣ powers errors := by
  have constant : crcPolynomial.toNat.testBit 0 = true := by
    decide
  obtain ⟨first, second, different, rfl⟩ := Finset.card_eq_two.mp count
  simp only [Finset.mem_insert, Finset.mem_singleton, forall_eq_or_imp, forall_eq] at bounded
  rcases Nat.lt_or_gt_of_ne different with less | greater
  · exact not_dvd_powers_of_pair constant (by decide) order_crcPolynomial less (by omega)
  · rw [Finset.pair_comm]
    exact not_dvd_powers_of_pair constant (by decide) order_crcPolynomial greater (by omega)

/-- Powers within the width of the polynomial are told apart. -/
theorem not_dvd_powers_of_window {errors : Finset Nat} (nonempty : errors.Nonempty) {start : Nat}
    (inside : ∀ position ∈ errors, start ≤ exponent position ∧ exponent position < start + 14) :
    ¬ modulus crcPolynomial ∣ powers (errors.image exponent) := by
  refine not_dvd_powers_of_burst (by decide) (by decide) (nonempty.image exponent)
    (show ∀ power ∈ _, start ≤ power ∧ power < start + 14 from ?_)
  intro power isPower
  obtain ⟨position, isFlipped, rfl⟩ := Finset.mem_image.mp isPower
  exact inside position isFlipped

/-- The checksum detects the errors that it is chosen for. -/
theorem crcPasses_eq_false (payload : Vector UInt8 10) (received : Vector UInt8 12)
    (differs : (flipped (addCrc payload) received).Nonempty)
    (detectable : Detectable (flipped (addCrc payload) received)) :
    crcPasses received = false := by
  by_contra passes
  have divides := (crcPasses_iff_dvd_powers payload received).mp (eq_true_of_ne_false passes)
  have card : ((flipped (addCrc payload) received).image exponent).card =
      (flipped (addCrc payload) received).card :=
    Finset.card_image_of_injOn (injOn_exponent_flipped _ _)
  cases detectable with
  | odd count =>
      rw [← card] at count
      exact not_dvd_powers_of_odd eval_crcPolynomial count divides
  | two count =>
      rw [← card] at count
      refine not_dvd_powers_of_two (fun power isPower => ?_) count divides
      obtain ⟨position, _, rfl⟩ := Finset.mem_image.mp isPower
      exact exponent_le position
  | burstInPayload start inside =>
      refine not_dvd_powers_of_window differs
        (show ∀ position ∈ _, 82 - start ≤ exponent position ∧ _ from ?_) divides
      intro position isFlipped
      have bounds := inside position isFlipped
      rw [exponent, if_pos bounds.2.2]
      omega
  | burst start inside =>
      refine not_dvd_powers_of_window differs
        (show ∀ position ∈ _, 82 - start ≤ exponent position ∧ _ from ?_) divides
      intro position isFlipped
      have bounds := inside position isFlipped
      have sent := (mem_flipped.mp isFlipped).1
      unfold exponent
      split <;> omega

/-- Three wrong bits in a call of `K1ABC`. -/
theorem crcPasses_eq_false_threeBits :
    crcPasses #v[128, 0, 0, 32, 77, 239, 26, 138, 25, 141, 100, 192] = false :=
  crcPasses_eq_false #v[0, 0, 0, 32, 77, 239, 26, 138, 25, 136] _
    ⟨0, by decide +kernel⟩ (.odd (by decide +kernel))

end RtlsdrFt8d
