import Mathlib.Algebra.Order.Ring.Nat
import Mathlib.Data.List.Induction
import Mathlib.Data.Nat.Bitwise

/-!
# Bits packed into bytes

Bit strings are stored eight to a byte, the first bit in the highest place.  A
cursor of a byte index and a mask with a single one walks over them.
-/

namespace PackedBits

/-! ## Bits of bytes -/

/-- Bit `k` of a byte, counted from the highest. -/
def byteBit (byte : UInt8) (k : Nat) : Bool :=
  byte.toNat.testBit (7 - k)

theorem byteBit_or (first second : UInt8) (k : Nat) :
    byteBit (first ||| second) k = (byteBit first k || byteBit second k) := by
  rw [byteBit, UInt8.toNat_or, Nat.testBit_or, byteBit, byteBit]

theorem byteBit_and (first second : UInt8) (k : Nat) :
    byteBit (first &&& second) k = (byteBit first k && byteBit second k) := by
  rw [byteBit, UInt8.toNat_and, Nat.testBit_and, byteBit, byteBit]

@[simp]
theorem byteBit_zero (k : Nat) : byteBit 0 k = false :=
  Nat.zero_testBit _

/-- A byte is determined by its eight bits. -/
theorem byte_ext {first second : UInt8} (bits : ∀ k < 8, byteBit first k = byteBit second k) :
    first = second := by
  apply UInt8.toNat_inj.mp
  apply Nat.eq_of_testBit_eq
  intro i
  by_cases inside : i < 8
  · have same := bits (7 - i) (by omega)
    rwa [byteBit, byteBit, show 7 - (7 - i) = i by omega] at same
  · have large : 2 ^ 8 ≤ 2 ^ i := Nat.pow_le_pow_right (by decide) (by omega)
    rw [Nat.testBit_lt_two_pow (lt_of_lt_of_le first.toNat_lt large),
      Nat.testBit_lt_two_pow (lt_of_lt_of_le second.toNat_lt large)]

/-- The mask for bit `k`. -/
def maskOf (k : Nat) : UInt8 :=
  0x80 >>> UInt8.ofNat k

theorem byteBit_maskOf {k j : Nat} (small : k < 8) (small' : j < 8) :
    byteBit (maskOf k) j = decide (j = k) := by
  have masks : ∀ k < 8, ∀ j < 8, byteBit (maskOf k) j = decide (j = k) := by
    decide +kernel
  exact masks k small j small'

theorem and_maskOf_ne_zero (byte : UInt8) {k : Nat} (small : k < 8) :
    byte &&& maskOf k ≠ 0 ↔ byteBit byte k = true := by
  constructor
  · intro nonzero
    by_contra clear
    apply nonzero
    apply byte_ext
    intro j small'
    rw [byteBit_and, byteBit_maskOf small small']
    by_cases same : j = k
    · subst same
      simp [clear]
    · simp [same]
  · intro isSet isZero
    have bit := congrArg (fun byte => byteBit byte k) isZero
    simp only [byteBit_and, byteBit_maskOf small small, isSet] at bit
    exact absurd bit (by simp)

/-! ## Cursors -/

/-- A byte index and a mask that selects one bit there. -/
@[ext]
structure Cursor where
  mask : UInt8
  byte : Nat
  deriving DecidableEq

/-- Halve the mask, and go to the next byte when it has run out. -/
def Cursor.next (cursor : Cursor) : Cursor :=
  if cursor.mask >>> 1 = 0 then ⟨0x80, cursor.byte + 1⟩ else ⟨cursor.mask >>> 1, cursor.byte⟩

/-- The cursor at a bit position. -/
def cursorAt (position : Nat) : Cursor :=
  ⟨maskOf (position % 8), position / 8⟩

theorem next_cursorAt (position : Nat) : (cursorAt position).next = cursorAt (position + 1) := by
  have masks : ∀ k < 8,
      maskOf k >>> 1 = if k = 7 then 0 else maskOf ((k + 1) % 8) := by
    decide +kernel
  have nonzero : ∀ k < 8, maskOf k ≠ 0 := by
    decide +kernel
  have inByte := Nat.mod_lt position (show 0 < 8 by decide)
  rw [Cursor.next, cursorAt]
  dsimp only
  rw [masks _ inByte]
  by_cases last : position % 8 = 7
  · rw [if_pos last, if_pos rfl, cursorAt, show (position + 1) % 8 = 0 by omega,
      show (position + 1) / 8 = position / 8 + 1 by omega]
    rfl
  · rw [if_neg last, if_neg (nonzero _ (Nat.mod_lt _ (by decide))), cursorAt,
      show (position % 8 + 1) % 8 = (position + 1) % 8 by omega,
      show (position + 1) / 8 = position / 8 by omega]

/-! ## Arrays of bytes -/

variable {size : Nat}

/-- The bit at a position of an array of bytes, and `false` behind its end. -/
def bit (bytes : Vector UInt8 size) (position : Nat) : Bool :=
  byteBit (bytes[position / 8]?.getD 0) (position % 8)

theorem bit_replace (bytes : Vector UInt8 size) {index : Nat} (byte : UInt8)
    (inside : index < size) (position : Nat) :
    bit (bytes.set index byte inside) position =
      if position / 8 = index then byteBit byte (position % 8) else bit bytes position := by
  rw [bit, bit, Vector.getElem?_set]
  by_cases here : index = position / 8
  · rw [if_pos here, if_pos here.symm, Option.getD_some]
  · rw [if_neg here, if_neg fun same => here same.symm]

theorem bit_eq_false {bytes : Vector UInt8 size} {position : Nat}
    (outside : 8 * size ≤ position) : bit bytes position = false := by
  rw [bit, Vector.getElem?_eq_none (by omega)]
  exact byteBit_zero _

/-- Arrays with the same bits are the same. -/
theorem bytes_ext {first second : Vector UInt8 size}
    (bits : ∀ position < 8 * size, bit first position = bit second position) :
    first = second := by
  apply Vector.ext
  intro i inside
  apply byte_ext
  intro k small
  have same := bits (8 * i + k) (by omega)
  rwa [bit, bit, show (8 * i + k) / 8 = i by omega, show (8 * i + k) % 8 = k by omega,
    Vector.getElem?_eq_getElem inside, Vector.getElem?_eq_getElem inside] at same

/-- The bits of a list of bytes. -/
def listBit (bytes : List UInt8) (position : Nat) : Bool :=
  byteBit (bytes.getD (position / 8) 0) (position % 8)

theorem bit_eq_listBit {size : Nat} (bytes : Vector UInt8 size) (position : Nat) :
    bit bytes position = listBit bytes.toList position := by
  rw [bit, listBit]
  simp

/-- Bytes as one number, the first byte in the highest place. -/
def bytesNumber (bytes : List UInt8) : Nat :=
  bytes.foldl (fun number byte => number * 2 ^ 8 + byte.toNat) 0

theorem bytesNumber_append (bytes : List UInt8) (byte : UInt8) :
    bytesNumber (bytes ++ [byte]) = bytesNumber bytes * 2 ^ 8 + byte.toNat := by
  rw [bytesNumber, List.foldl_append]
  rfl

theorem bytesNumber_lt (bytes : List UInt8) : bytesNumber bytes < 2 ^ (8 * bytes.length) := by
  induction bytes using List.reverseRecOn with
  | nil => decide
  | append_singleton bytes byte ih =>
      have small := byte.toNat_lt
      rw [bytesNumber_append, List.length_append, List.length_singleton, Nat.mul_add, pow_add]
      omega

/-- The bits of the number are those of the bytes. -/
theorem testBit_bytesNumber {bytes : List UInt8} {position : Nat}
    (inside : position < 8 * bytes.length) :
    (bytesNumber bytes).testBit (8 * bytes.length - 1 - position) = listBit bytes position := by
  induction bytes using List.reverseRecOn with
  | nil => simp at inside
  | append_singleton bytes byte ih =>
      rw [List.length_append, List.length_singleton] at inside ⊢
      rw [bytesNumber_append, Nat.mul_comm, Nat.testBit_two_pow_mul_add _ byte.toNat_lt, listBit]
      by_cases isLast : 8 * bytes.length ≤ position
      · rw [if_pos (by omega), show position / 8 = bytes.length by omega, byteBit]
        simp [show 8 * (bytes.length + 1) - 1 - position = 7 - position % 8 by omega]
      · rw [if_neg (by omega), List.getD_append _ _ _ _ (by omega), ← listBit, ← ih (by omega)]
        congr 1
        omega

/-- Whether the bit under a cursor is set. -/
def test (bytes : Vector UInt8 size) (cursor : Cursor) : Bool :=
  bytes[cursor.byte]?.getD 0 &&& cursor.mask != 0

theorem test_cursorAt (bytes : Vector UInt8 size) (position : Nat) :
    test bytes (cursorAt position) = bit bytes position := by
  rw [Bool.eq_iff_iff, test, bne_iff_ne]
  exact and_maskOf_ne_zero _ (Nat.mod_lt _ (by decide))

/-- Set the bit under a cursor. -/
def set (bytes : Vector UInt8 size) (cursor : Cursor) : Vector UInt8 size :=
  bytes.setIfInBounds cursor.byte (bytes[cursor.byte]?.getD 0 ||| cursor.mask)

theorem bit_set (bytes : Vector UInt8 size) {position : Nat} (inside : position < 8 * size)
    (other : Nat) :
    bit (set bytes (cursorAt position)) other =
      (bit bytes other || decide (other = position)) := by
  have inByte := Nat.mod_lt position (show 0 < 8 by decide)
  have inByte' := Nat.mod_lt other (show 0 < 8 by decide)
  rw [bit, set, cursorAt, Vector.getElem?_setIfInBounds]
  dsimp only
  by_cases sameByte : position / 8 = other / 8
  · rw [if_pos sameByte, if_pos (by omega), Option.getD_some, byteBit_or,
      byteBit_maskOf inByte inByte', bit, sameByte]
    congr 1
    exact decide_eq_decide.mpr ⟨fun same => by omega, fun same => by rw [same]⟩
  · have different : other ≠ position := by
      rintro rfl
      exact sameByte rfl
    rw [if_neg sameByte, bit]
    simp [different]

/-- Set the bits for which a list, laid down from a position on, has a one. -/
def setBits : List Bool → Cursor → Vector UInt8 size → Vector UInt8 size
  | [], _, bytes => bytes
  | isSet :: bits, cursor, bytes =>
      setBits bits cursor.next (if isSet then set bytes cursor else bytes)

theorem bit_setBits (bits : List Bool) {position : Nat} (bytes : Vector UInt8 size)
    (inside : position + bits.length ≤ 8 * size) (other : Nat) :
    bit (setBits bits (cursorAt position) bytes) other =
      (bit bytes other || (decide (position ≤ other) && bits.getD (other - position) false)) := by
  induction bits generalizing position bytes with
  | nil => simp [setBits]
  | cons isSet bits ih =>
      rw [List.length_cons] at inside
      have first : bit (if isSet then set bytes (cursorAt position) else bytes) other =
          (bit bytes other || (isSet && decide (other = position))) := by
        cases isSet with
        | true => simpa using bit_set bytes (by omega) other
        | false => simp
      rw [setBits, next_cursorAt, ih _ (by omega), first, Bool.or_assoc]
      congr 1
      rcases Nat.lt_trichotomy other position with before | rfl | behind
      · simp [show ¬position ≤ other by omega, show ¬position + 1 ≤ other by omega,
          show other ≠ position by omega]
      · simp
      · obtain ⟨offset, rfl⟩ := Nat.exists_eq_add_of_lt behind
        simp [show position + 1 ≤ position + offset + 1 by omega,
          show position + offset + 1 ≠ position by omega,
          show position ≤ position + offset + 1 by omega,
          show position + offset + 1 - (position + 1) = offset by omega,
          show position + offset + 1 - position = offset + 1 by omega]

end PackedBits
