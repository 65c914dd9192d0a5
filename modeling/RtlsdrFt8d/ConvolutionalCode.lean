import Mathlib.Data.Nat.Bitwise

/-!
# Convolutional codes of rate one half

Each bit is shifted into a register, and the parities of the register under two
polynomials are sent.  If the first polynomial taps the newest bit, every bit
follows from the earlier ones and the first parity sent for it.
-/

namespace ConvolutionalCode

/-! ## Parity -/

/-- Whether the number of ones in a word is odd. -/
def parity (word : Nat) : Bool :=
  word.binaryRec false fun bit _ rest => bit ^^ rest

@[simp]
theorem parity_zero : parity 0 = false :=
  Nat.binaryRec_zero _ _

@[simp]
theorem parity_bit (bit : Bool) (word : Nat) : parity (Nat.bit bit word) = (bit ^^ parity word) :=
  Nat.binaryRec_eq bit word (Or.inl rfl)

/-- Clearing the lowest one changes the parity. -/
theorem parity_land_pred {word : Nat} (nonzero : word ≠ 0) :
    parity (word &&& (word - 1)) = !parity word := by
  induction word using Nat.binaryRec with
  | zero => exact absurd rfl nonzero
  | bit bit word ih =>
      cases bit with
      | true =>
          have pred : Nat.bit true word - 1 = Nat.bit false word := by simp [Nat.bit]
          rw [pred, Nat.land_bit, Nat.and_self, parity_bit, parity_bit]
          simp
      | false =>
          have positive : word ≠ 0 := by
            rintro rfl
            exact nonzero rfl
          have pred : Nat.bit false word - 1 = Nat.bit true (word - 1) := by
            simp only [Nat.bit, cond_false, cond_true]
            omega
          rw [pred, Nat.land_bit, parity_bit, parity_bit, ih positive]
          simp

/-! ## Codes -/

/-- Two polynomials of which the first taps the newest bit. -/
structure Code (width : Nat) where
  first : BitVec width
  second : BitVec width
  taps_newest : first.getLsbD 0 = true

namespace Code

variable {width : Nat} (code : Code width)

/-- The parities sent for the newest bit of a register. -/
def sent (register : BitVec width) : List Bool :=
  [parity (register &&& code.first).toNat, parity (register &&& code.second).toNat]

def encode : BitVec width → List Bool → List Bool
  | _, [] => []
  | register, bit :: bits =>
      code.sent (register.shiftConcat bit) ++ encode (register.shiftConcat bit) bits

/-- The bit for which a register sent `even` first. -/
def recovered (register : BitVec width) (even : Bool) : Bool :=
  even ^^ parity (register.shiftConcat false &&& code.first).toNat

def decode : BitVec width → List Bool → List Bool
  | register, even :: _ :: rest =>
      code.recovered register even ::
        decode (register.shiftConcat (code.recovered register even)) rest
  | _, _ => []

/-- The newest bit enters the first parity as it is. -/
theorem parity_shiftConcat (register : BitVec width) (bit : Bool) :
    parity (register.shiftConcat bit &&& code.first).toNat =
      (bit ^^ parity (register.shiftConcat false &&& code.first).toNat) := by
  have split (newest : Bool) :
      (register.shiftConcat newest &&& code.first).toNat =
        Nat.bit newest ((register.shiftConcat false &&& code.first).toNat / 2) := by
    apply Nat.eq_of_testBit_eq
    intro i
    cases i with
    | zero =>
        have positive : 0 < width := BitVec.lt_of_getLsbD code.taps_newest
        rw [Nat.testBit_bit_zero, ← BitVec.getLsbD, BitVec.getLsbD_and, code.taps_newest,
          BitVec.getLsbD_shiftConcat]
        simp [positive]
    | succ i =>
        rw [Nat.testBit_bit_succ, Nat.testBit_div_two, ← BitVec.getLsbD, ← BitVec.getLsbD,
          BitVec.getLsbD_and, BitVec.getLsbD_and, BitVec.getLsbD_shiftConcat,
          BitVec.getLsbD_shiftConcat]
        simp
  rw [split bit, split false, parity_bit, parity_bit]
  simp

theorem recovered_sent (register : BitVec width) (bit : Bool) :
    code.recovered register (parity (register.shiftConcat bit &&& code.first).toNat) = bit := by
  rw [recovered, parity_shiftConcat]
  simp

/-- What was encoded is decoded from the same register. -/
theorem decode_encode (register : BitVec width) (bits : List Bool) :
    code.decode register (code.encode register bits) = bits := by
  induction bits generalizing register with
  | nil => rfl
  | cons bit bits ih =>
      simp only [encode, sent, List.cons_append, List.nil_append, decode, recovered_sent]
      rw [ih]

theorem length_encode (register : BitVec width) (bits : List Bool) :
    (code.encode register bits).length = 2 * bits.length := by
  induction bits generalizing register with
  | nil => rfl
  | cons bit bits ih =>
      simp only [encode, sent, List.length_append, ih, List.length_cons, List.length_nil]
      omega

/-- The code is causal: what is sent for the first bits depends on them alone. -/
theorem take_encode (register : BitVec width) (bits : List Bool) (count : Nat) :
    (code.encode register bits).take (2 * count) = code.encode register (bits.take count) := by
  induction count generalizing register bits with
  | zero => rfl
  | succ count ih =>
      cases bits with
      | nil => rfl
      | cons bit bits =>
          simp only [encode, sent, List.take_succ_cons, Nat.mul_succ, List.cons_append,
            List.nil_append]
          rw [ih]

end Code

end ConvolutionalCode
