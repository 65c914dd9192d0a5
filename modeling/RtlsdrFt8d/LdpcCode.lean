import RtlsdrFt8d.LdpcTables

/-!
# The channel code

`encode174` appends checksum bits to a message, and `ldpc_check` counts the
parity checks that a word fails.  The two work from different tables, and from
bits in different forms.
-/

namespace RtlsdrFt8d

open BinaryLinearCodes PackedBits

/-! ## The functions -/

/-- `parity8`. -/
def parity8 (x : UInt8) : UInt8 :=
  let x := x ^^^ (x >>> 4)
  let x := x ^^^ (x >>> 2)
  let x := x ^^^ (x >>> 1)
  x % 2

/-- `nsum` for one row of the generator. -/
def generatorSum (message : List UInt8) (row : List UInt8) : UInt8 :=
  (message.zip row).foldl (fun nsum bytes => nsum ^^^ parity8 (bytes.1 &&& bytes.2)) 0

/-- `encode174`.  The loop over the rows sets the bits of the checksum that are
odd sums, from the one after bit 90 on. -/
def encode174 (message : Vector UInt8 12) : Vector UInt8 22 :=
  setBits (ldpcGenerator.map fun row => generatorSum message.toList row % 2 != 0)
    { mask := (0x80 : UInt8) >>> (91 % 8), byte := 12 - 1 }
    (Vector.ofFn fun j => message[j.val]?.getD 0)

/-- `ldpc_check`: the number of parity errors. -/
def ldpcCheck (codeword : Vector Bool 174) : Nat :=
  (List.finRange 83).countP fun m =>
    (checkRow m).foldl (fun x n => x ^^ codeword.get n) false

/-- `pack_bits`. -/
def packBits (bitArray : Vector Bool 174) (numBits : Nat) : Vector UInt8 ((numBits + 7) / 8) :=
  setBits (bitArray.toList.take numBits) { mask := 0x80, byte := 0 } (Vector.replicate _ 0)

/-! ## Bits -/

/-- The bits of an array as a word. -/
def wordOf (bitArray : Vector Bool 174) (position : Nat) : Bool :=
  bitArray[position]?.getD false

theorem wordOf_val (bitArray : Vector Bool 174) (n : Fin 174) :
    wordOf bitArray n.val = bitArray.get n := by
  rw [wordOf, Vector.getElem?_eq_getElem n.isLt]
  rfl

theorem bit_packBits (bitArray : Vector Bool 174) (numBits position : Nat) :
    bit (packBits bitArray numBits) position =
      (decide (position < numBits) && wordOf bitArray position) := by
  have start : ({ mask := 0x80, byte := 0 } : Cursor) = cursorAt 0 := rfl
  have clear : bit (Vector.replicate ((numBits + 7) / 8) 0) position = false := by
    rw [bit, Vector.getElem?_replicate]
    split <;> exact byteBit_zero _
  rw [packBits, start, bit_setBits _ _ (by simp; omega), clear]
  by_cases inside : position < numBits
  · simp [inside, wordOf]
  · simp [inside]

/-! ## Generator -/

theorem parity8_eq (x : UInt8) :
    parity8 x = if parity ((List.range 8).map (byteBit x)) then 1 else 0 := by
  have bytes : ((List.range 256).all fun n =>
      parity8 (UInt8.ofNat n) =
        if parity ((List.range 8).map (byteBit (UInt8.ofNat n))) then 1 else 0) = true := by
    decide +kernel
  simpa using List.all_eq_true.mp bytes x.toNat (List.mem_range.mpr x.toNat_lt)

/-- A sum over a row of the generator is the product of the row, as a mask, with
the bits of the message. -/
theorem dot_byteMask (byte : UInt8) (word : Nat → Bool) :
    dot (byteMask byte) word =
      parity ((List.range 8).map fun k => byteBit byte k && word k) := by
  rw [byteMask, dot_positionsMask]
  generalize List.range 8 = positions
  induction positions with
  | nil => rfl
  | cons k positions ih =>
      rw [List.filter_cons, List.map_cons, parity_cons, ← ih]
      cases isSet : byteBit byte k <;> simp

theorem byteMask_lt (byte : UInt8) : byteMask byte < 2 ^ 8 := by
  have bytes : ((List.range 256).all fun n => byteMask (UInt8.ofNat n) < 2 ^ 8) = true := by
    decide +kernel
  simpa using List.all_eq_true.mp bytes byte.toNat (List.mem_range.mpr byte.toNat_lt)

theorem dot_bytesMask_cons (byte : UInt8) (bytes : List UInt8) (word : Nat → Bool) :
    dot (bytesMask (byte :: bytes)) word =
      (dot (byteMask byte) word ^^ dot (bytesMask bytes) fun position => word (position + 8)) := by
  have small := byteMask_lt byte
  rw [dot_split 8, bytesMask, Nat.add_mul_mod_self_left, Nat.mod_eq_of_lt small,
    Nat.add_mul_div_left _ _ (by decide), Nat.div_eq_of_lt small, Nat.zero_add]

theorem foldl_parity8 (message row : List UInt8) (sameLength : message.length = row.length)
    (start : Bool) :
    (message.zip row).foldl (fun nsum bytes => nsum ^^^ parity8 (bytes.1 &&& bytes.2))
        (if start then 1 else 0) =
      if start ^^ dot (bytesMask row) (listBit message) then 1 else 0 := by
  induction row generalizing message start with
  | nil => simp [bytesMask]
  | cons mask row ih =>
      obtain ⟨byte, message, rfl⟩ := List.exists_cons_of_length_eq_add_one sameLength
      have sum : parity8 (byte &&& mask) =
          if dot (byteMask mask) (listBit (byte :: message)) then 1 else 0 := by
        rw [parity8_eq, dot_byteMask]
        congr 3
        apply List.map_congr_left
        intro k inByte
        have small := List.mem_range.mp inByte
        rw [byteBit_and, listBit, Nat.div_eq_of_lt small, Nat.mod_eq_of_lt small, Bool.and_comm]
        rfl
      have step (first second : Bool) :
          ((if first then 1 else 0) ^^^ if second then 1 else 0 : UInt8) =
            if first ^^ second then 1 else 0 := by
        cases first <;> cases second <;> rfl
      have shifted : (fun position => listBit (byte :: message) (position + 8)) =
          listBit message := by
        funext position
        rw [listBit, listBit, Nat.add_mod_right, Nat.add_div_right _ (by decide)]
        rfl
      rw [List.zip_cons_cons, List.foldl_cons, sum, step, ih _ (by simpa using sameLength),
        dot_bytesMask_cons, shifted, Bool.xor_assoc]

theorem length_of_mem_ldpcGenerator {row : List UInt8} (isRow : row ∈ ldpcGenerator) :
    row.length = 12 := by
  have rows : (ldpcGenerator.all fun row => row.length = 12) = true := by
    decide +kernel
  simpa using List.all_eq_true.mp rows row isRow

theorem odd_generatorSum (message : Vector UInt8 12) {row : List UInt8}
    (isRow : row ∈ ldpcGenerator) :
    (generatorSum message.toList row % 2 != 0) = dot (bytesMask row) (bit message) := by
  have sum := foldl_parity8 message.toList row
    (by rw [Vector.length_toList, length_of_mem_ldpcGenerator isRow]) false
  rw [Bool.false_xor, ← funext (bit_eq_listBit message)] at sum
  rw [generatorSum]
  rw [if_neg Bool.false_ne_true] at sum
  rw [sum]
  cases dot (bytesMask row) (bit message) <;> rfl

/-- The bits of a codeword: the message as it is, and the sums from bit 91 on. -/
theorem bit_encode174 (message : Vector UInt8 12) (position : Nat) :
    bit (encode174 message) position =
      (bit message position ||
        (decide (91 ≤ position) &&
          (generatorMasks.map fun mask => dot mask (bit message)).getD (position - 91) false)) := by
  have start :
      ({ mask := (0x80 : UInt8) >>> (91 % 8), byte := 12 - 1 } : Cursor) = cursorAt 91 := by
    decide
  have copied (position : Nat) :
      bit (Vector.ofFn fun j : Fin 22 => message[j.val]?.getD 0) position =
        bit message position := by
    rw [bit, bit]
    congr 1
    by_cases inside : position / 8 < 22
    · simp [inside]
    · rw [Vector.getElem?_eq_none (by omega), Vector.getElem?_eq_none (by omega)]
  have sums : (ldpcGenerator.map fun row => generatorSum message.toList row % 2 != 0) =
      generatorMasks.map fun mask => dot mask (bit message) := by
    rw [generatorMasks, List.map_map]
    exact List.map_congr_left fun row isRow => odd_generatorSum message isRow
  have length : ldpcGenerator.length = 83 := rfl
  rw [encode174, start, bit_setBits _ _ (by rw [List.length_map, length]; decide), copied, sums]

/-! ## Checks -/

theorem foldl_checkRow (codeword : Vector Bool 174) (m : Fin 83) :
    (checkRow m).foldl (fun x n => x ^^ codeword.get n) false =
      dot (rowMask (checkRow m)) (wordOf codeword) := by
  rw [foldl_xor, rowMask, dot_positionsMask, List.map_map, Bool.false_xor]
  congr 1
  exact List.map_congr_left fun n _ => (wordOf_val codeword n).symm

theorem ldpcCheck_eq_zero_iff (codeword : Vector Bool 174) :
    ldpcCheck codeword = 0 ↔ Satisfies checkMasks (wordOf codeword) := by
  simp [ldpcCheck, Satisfies, checkMasks, foldl_checkRow]

theorem generatorMask_lt {mask : Nat} (isRow : mask ∈ generatorMasks) : mask < 2 ^ 91 := by
  have rows : (generatorMasks.all fun mask => mask < 2 ^ 91) = true := by
    decide +kernel
  simpa using List.all_eq_true.mp rows mask isRow

/-- The parity checks hold exactly for the codewords. -/
theorem ldpcCheck_eq_zero_iff_encode174 (plain : Vector Bool 174) :
    ldpcCheck plain = 0 ↔ packBits plain 174 = encode174 (packBits plain 91) := by
  have length : generatorMasks.length = 83 := rfl
  have sum {mask : Nat} (isRow : mask ∈ generatorMasks) :
      dot mask (bit (packBits plain 91)) = dot mask (wordOf plain) :=
    dot_congr (generatorMask_lt isRow) fun position small => by
      rw [bit_packBits, decide_eq_true small, Bool.true_and]
  rw [ldpcCheck_eq_zero_iff, ldpcCertificate.satisfies_iff]
  constructor
  · intro encodes
    apply bytes_ext
    intro position inside
    rw [bit_packBits, bit_encode174, bit_packBits]
    by_cases isMessage : position < 91
    · simp [isMessage, show position < 174 by omega, show ¬91 ≤ position by omega]
    · obtain ⟨i, rfl⟩ := Nat.exists_eq_add_of_le (Nat.le_of_not_lt isMessage)
      by_cases isSum : i < 83
      · have encoded := encodes i (by rwa [length])
        rw [← sum (List.getElem_mem _)] at encoded
        simp [isSum, length, encoded, show 91 + i < 174 by omega]
      · simp [isSum, length, show ¬91 + i < 174 by omega]
  · intro same i isSum
    rw [length] at isSum
    have bits := congrArg (fun bytes => bit bytes (91 + i)) same
    simp only [bit_encode174, bit_packBits] at bits
    rw [← sum (List.getElem_mem _)]
    simpa [isSum, length, show 91 + i < 174 by omega] using bits

end RtlsdrFt8d
