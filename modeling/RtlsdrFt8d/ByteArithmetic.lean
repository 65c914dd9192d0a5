import RtlsdrFt8d.NetworkBytes

/-!
# Arithmetic on numbers of several bytes

Multiplication and division of a number in network byte order by a small one,
byte by byte: multiplication carries from the last byte to the first, division
takes its remainder from the first byte to the last.
-/

namespace ByteArithmetic

open NetworkBytes

/-- The product with a factor and a number added to it, and the carry out of the
first byte. -/
def mulAdd (factor : Nat) : List UInt8 → Nat → List UInt8 × Nat
  | [], carry => ([], carry)
  | byte :: bytes, carry =>
      let later := mulAdd factor bytes carry
      let product := byte.toNat * factor + later.2
      (UInt8.ofNat product :: later.1, product / 256)

/-- The quotient by a divisor and the remainder, with a remainder in front of the
first byte. -/
def divMod (divisor : Nat) : List UInt8 → Nat → List UInt8 × Nat
  | [], rem => ([], rem)
  | byte :: bytes, rem =>
      let dividend := rem * 256 + byte.toNat
      let later := divMod divisor bytes (dividend % divisor)
      (UInt8.ofNat (dividend / divisor) :: later.1, later.2)

variable {factor divisor : Nat}

/-! ## Multiplication -/

@[simp]
theorem length_mulAdd (bytes : List UInt8) (carry : Nat) :
    (mulAdd factor bytes carry).1.length = bytes.length := by
  induction bytes with
  | nil => rfl
  | cons byte bytes ih => rw [mulAdd, List.length_cons, ih, List.length_cons]

theorem mulAdd_value (bytes : List UInt8) (carry : Nat) :
    ofBigEndian (mulAdd factor bytes carry).1 +
        256 ^ bytes.length * (mulAdd factor bytes carry).2 =
      factor * ofBigEndian bytes + carry := by
  induction bytes with
  | nil => simp [mulAdd, ofBigEndian]
  | cons byte bytes ih =>
      have digit (product : Nat) : (UInt8.ofNat product).toNat = product % 256 :=
        UInt8.toNat_ofNat'
      rw [mulAdd, ofBigEndian_cons, ofBigEndian_cons, length_mulAdd, digit, List.length_cons,
        pow_succ]
      dsimp only
      generalize (mulAdd factor bytes carry).2 = later at ih ⊢
      have split := Nat.div_add_mod (byte.toNat * factor + later) 256
      calc _ = 256 ^ bytes.length * (256 * ((byte.toNat * factor + later) / 256) +
              (byte.toNat * factor + later) % 256) +
              ofBigEndian (mulAdd factor bytes carry).1 := by ring
        _ = factor * (byte.toNat * 256 ^ bytes.length) +
              (ofBigEndian (mulAdd factor bytes carry).1 + 256 ^ bytes.length * later) := by
            rw [split]
            ring
        _ = factor * (byte.toNat * 256 ^ bytes.length + ofBigEndian bytes) + carry := by
            rw [ih]
            ring

/-- A product that fits leaves no carry. -/
theorem mulAdd_of_lt {bytes : List UInt8} {carry : Nat}
    (fits : factor * ofBigEndian bytes + carry < 256 ^ bytes.length) :
    ofBigEndian (mulAdd factor bytes carry).1 = factor * ofBigEndian bytes + carry := by
  have product := @mulAdd_value factor bytes carry
  rcases Nat.eq_zero_or_pos (mulAdd factor bytes carry).2 with zero | positive
  · rw [zero, Nat.mul_zero, Nat.add_zero] at product
    exact product
  · have tooLarge := Nat.le_mul_of_pos_right (256 ^ bytes.length) positive
    omega

/-! ## Division -/

theorem length_divMod (bytes : List UInt8) (rem : Nat) :
    (divMod divisor bytes rem).1.length = bytes.length := by
  induction bytes generalizing rem with
  | nil => rfl
  | cons byte bytes ih => rw [divMod, List.length_cons, ih, List.length_cons]

theorem divMod_value (positive : 0 < divisor) (bytes : List UInt8) {rem : Nat}
    (small : rem < divisor) :
    divisor * ofBigEndian (divMod divisor bytes rem).1 + (divMod divisor bytes rem).2 =
        rem * 256 ^ bytes.length + ofBigEndian bytes ∧
      (divMod divisor bytes rem).2 < divisor := by
  induction bytes generalizing rem with
  | nil => simpa [divMod, ofBigEndian] using small
  | cons byte bytes ih =>
      obtain ⟨later, laterSmall⟩ := ih (Nat.mod_lt (rem * 256 + byte.toNat) positive)
      have byteLt := byte.toNat_lt
      have quotientLt : (rem * 256 + byte.toNat) / divisor < 256 := by
        rw [Nat.div_lt_iff_lt_mul positive]
        omega
      have digit : (UInt8.ofNat ((rem * 256 + byte.toNat) / divisor)).toNat =
          (rem * 256 + byte.toNat) / divisor := by
        rw [UInt8.toNat_ofNat', Nat.mod_eq_of_lt quotientLt]
      rw [divMod, ofBigEndian_cons, ofBigEndian_cons, length_divMod, digit, List.length_cons,
        pow_succ]
      dsimp only
      refine ⟨?_, laterSmall⟩
      have split := Nat.div_add_mod (rem * 256 + byte.toNat) divisor
      calc _ = divisor * ((rem * 256 + byte.toNat) / divisor) * 256 ^ bytes.length +
              (divisor * ofBigEndian
                (divMod divisor bytes ((rem * 256 + byte.toNat) % divisor)).1 +
                (divMod divisor bytes ((rem * 256 + byte.toNat) % divisor)).2) := by ring
        _ = (divisor * ((rem * 256 + byte.toNat) / divisor) +
              (rem * 256 + byte.toNat) % divisor) * 256 ^ bytes.length +
              ofBigEndian bytes := by
            rw [later]
            ring
        _ = rem * (256 ^ bytes.length * 256) +
              (byte.toNat * 256 ^ bytes.length + ofBigEndian bytes) := by
            rw [split]
            ring

/-- Division by a number, from remainder zero on. -/
theorem divMod_eq (positive : 0 < divisor) (bytes : List UInt8) :
    ofBigEndian (divMod divisor bytes 0).1 = ofBigEndian bytes / divisor ∧
      (divMod divisor bytes 0).2 = ofBigEndian bytes % divisor := by
  obtain ⟨product, small⟩ := divMod_value positive bytes positive
  rw [Nat.zero_mul, Nat.zero_add] at product
  constructor
  · rw [← product, Nat.mul_add_div positive, Nat.div_eq_of_lt small, Nat.add_zero]
  · rw [← product, Nat.mul_add_mod, Nat.mod_eq_of_lt small]

end ByteArithmetic
