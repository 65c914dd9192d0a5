import Mathlib.Algebra.Field.ZMod
import Mathlib.Data.Nat.Bitwise
import Mathlib.RingTheory.AdjoinRoot

/-!
# Polynomials over two elements

A number stands for the polynomial whose coefficients are its bits.  Addition is
exclusive or, and a shift register with feedback multiplies by `X` modulo a
polynomial.
-/

namespace BinaryPolynomials

open Polynomial

/-- A bit as an element of the field. -/
def ofBit (bit : Bool) : ZMod 2 :=
  if bit then 1 else 0

theorem ofBit_xor (first second : Bool) : ofBit (first ^^ second) = ofBit first + ofBit second := by
  cases first <;> cases second <;> rfl

theorem add_self (p : (ZMod 2)[X]) : p + p = 0 := by
  ext i
  rw [coeff_add, CharTwo.add_self_eq_zero, coeff_zero]

/-! ## Numbers as polynomials -/

/-- The polynomial whose coefficients are the bits of a number. -/
noncomputable def polyOf (n : Nat) : (ZMod 2)[X] :=
  n.binaryRec 0 fun bit _ rest => C (ofBit bit) + X * rest

@[simp]
theorem polyOf_zero : polyOf 0 = 0 :=
  Nat.binaryRec_zero _ _

theorem polyOf_bit (bit : Bool) (n : Nat) :
    polyOf (Nat.bit bit n) = C (ofBit bit) + X * polyOf n := by
  rw [polyOf, Nat.binaryRec_eq bit n (Or.inl (by simp [ofBit]))]
  rfl

@[simp]
theorem coeff_polyOf (n i : Nat) : (polyOf n).coeff i = ofBit (n.testBit i) := by
  induction n using Nat.binaryRec generalizing i with
  | zero => simp [ofBit]
  | bit bit n ih =>
      rw [polyOf_bit, coeff_add]
      cases i with
      | zero => simp
      | succ i => simp [coeff_C_succ, ih, Nat.testBit_bit_succ]

theorem polyOf_xor (first second : Nat) :
    polyOf (first ^^^ second) = polyOf first + polyOf second := by
  ext i
  rw [coeff_add, coeff_polyOf, coeff_polyOf, coeff_polyOf, Nat.testBit_xor, ofBit_xor]

theorem polyOf_shiftLeft (n count : Nat) : polyOf (n <<< count) = X ^ count * polyOf n := by
  ext i
  rw [coeff_polyOf, Nat.testBit_shiftLeft, coeff_X_pow_mul', coeff_polyOf]
  by_cases inside : count ≤ i <;> simp [inside, ofBit]

@[simp]
theorem polyOf_one : polyOf 1 = 1 := by
  have one : 1 = Nat.bit true 0 := rfl
  rw [one, polyOf_bit]
  simp [ofBit]

theorem degree_polyOf_lt {n width : Nat} (small : n < 2 ^ width) : (polyOf n).degree < width := by
  rw [degree_lt_iff_coeff_zero]
  intro i outside
  rw [coeff_polyOf, Nat.testBit_lt_two_pow
    (lt_of_lt_of_le small (Nat.pow_le_pow_right (by decide) outside))]
  rfl

theorem polyOf_injective {first second : Nat} (same : polyOf first = polyOf second) :
    first = second := by
  apply Nat.eq_of_testBit_eq
  intro i
  have coefficients := congrArg (fun p => p.coeff i) same
  simp only [coeff_polyOf] at coefficients
  revert coefficients
  cases first.testBit i <;> cases second.testBit i <;> simp [ofBit]

/-- A number as the sum of the powers at its ones. -/
theorem polyOf_eq_sum {n width : Nat} (small : n < 2 ^ width) :
    polyOf n = ∑ i ∈ Finset.range width, C (ofBit (n.testBit i)) * X ^ i := by
  ext i
  simp only [finsetSum_coeff, coeff_C_mul_X_pow, coeff_polyOf, Finset.sum_ite_eq, Finset.mem_range]
  by_cases inside : i < width
  · rw [if_pos inside]
  · rw [if_neg inside, Nat.testBit_lt_two_pow
      (lt_of_lt_of_le small (Nat.pow_le_pow_right (by decide) (Nat.le_of_not_lt inside)))]
    rfl

theorem polyOf_mul_two_pow_add {low width : Nat} (high : Nat) (small : low < 2 ^ width) :
    polyOf (high * 2 ^ width + low) = X ^ width * polyOf high + polyOf low := by
  ext i
  rw [coeff_add, coeff_polyOf, coeff_polyOf, coeff_X_pow_mul', coeff_polyOf, Nat.mul_comm,
    Nat.testBit_two_pow_mul_add high small]
  by_cases inside : i < width
  · simp [inside, Nat.not_le.mpr inside]
  · have clear := Nat.testBit_lt_two_pow
      (lt_of_lt_of_le small (Nat.pow_le_pow_right (by decide) (Nat.le_of_not_lt inside)))
    simp [inside, Nat.le_of_not_lt inside, clear, ofBit]

/-! ## Shift registers -/

section Registers

variable {width : Nat} (low : BitVec width)

/-- The polynomial of which the register keeps all but the highest power. -/
noncomputable def modulus : (ZMod 2)[X] :=
  X ^ width + polyOf low.toNat

theorem modulus_monic : (modulus low).Monic :=
  monic_X_pow_add (degree_polyOf_lt low.isLt)

/-- One shift with feedback. -/
def shift (register : BitVec width) : BitVec width :=
  if register.msb then (register <<< 1) ^^^ low else register <<< 1

/-- The residue class of a register. -/
noncomputable def residue (register : BitVec width) : AdjoinRoot (modulus low) :=
  AdjoinRoot.mk (modulus low) (polyOf register.toNat)

theorem mk_add_self (p : (ZMod 2)[X]) :
    AdjoinRoot.mk (modulus low) p + AdjoinRoot.mk (modulus low) p = 0 := by
  rw [← map_add, add_self, map_zero]

theorem residue_xor (first second : BitVec width) :
    residue low (first ^^^ second) = residue low first + residue low second := by
  rw [residue, BitVec.toNat_xor, polyOf_xor, map_add]
  rfl

theorem residue_low : residue low low = AdjoinRoot.root (modulus low) ^ width := by
  have zero : AdjoinRoot.mk (modulus low) (X ^ width + polyOf low.toNat) = 0 :=
    AdjoinRoot.mk_self
  have twice := mk_add_self low (polyOf low.toNat)
  rw [map_add, map_pow, AdjoinRoot.mk_X] at zero
  rw [← zero, add_left_inj] at twice
  exact twice

theorem polyOf_shiftLeft_one (register : BitVec width) :
    X * polyOf register.toNat =
      polyOf (register <<< 1).toNat + if register.msb then X ^ width else 0 := by
  have double : X * polyOf register.toNat = polyOf (register.toNat * 2) := by
    rw [← pow_one X, ← polyOf_shiftLeft, Nat.shiftLeft_eq, pow_one]
  have bound := register.isLt
  rw [double, BitVec.toNat_shiftLeft, Nat.shiftLeft_eq, pow_one, BitVec.msb_eq_decide]
  by_cases top : 2 ^ (width - 1) ≤ register.toNat
  · have positive : 0 < width := by
      by_contra empty
      obtain rfl : width = 0 := by omega
      simp at top bound
      omega
    have power : 2 ^ width = 2 ^ (width - 1) * 2 := by
      rw [← pow_succ, Nat.sub_add_cancel positive]
    have wrapped : register.toNat * 2 = 1 * 2 ^ width + register.toNat * 2 % 2 ^ width := by
      rw [Nat.mod_eq_sub_mod (by omega), Nat.mod_eq_of_lt (by omega)]
      omega
    have carried := polyOf_mul_two_pow_add 1
      (Nat.mod_lt (register.toNat * 2) (Nat.two_pow_pos width))
    rw [← wrapped] at carried
    rw [carried, polyOf_one, mul_one, add_comm]
    simp [top]
  · rw [Nat.mod_eq_of_lt]
    · simp [top]
    · cases width with
      | zero => omega
      | succ width =>
          rw [Nat.add_sub_cancel] at top
          rw [pow_succ]
          omega

/-- A shift with feedback multiplies by `X`. -/
theorem residue_shift (register : BitVec width) :
    residue low (shift low register) = AdjoinRoot.root (modulus low) * residue low register := by
  have product := congrArg (AdjoinRoot.mk (modulus low)) (polyOf_shiftLeft_one register)
  rw [map_mul, AdjoinRoot.mk_X, map_add] at product
  rw [shift, residue, residue, product]
  split
  · rw [BitVec.toNat_xor, polyOf_xor, map_add, map_pow, AdjoinRoot.mk_X, ← residue_low]
    rfl
  · rw [map_zero, add_zero]

theorem degree_modulus : (modulus low).degree = width := by
  have small : (polyOf low.toNat).degree < (X ^ width : (ZMod 2)[X]).degree := by
    rw [degree_X_pow]
    exact degree_polyOf_lt low.isLt
  rw [modulus, degree_add_eq_left_of_degree_lt small, degree_X_pow]

/-- The register with a given residue class is the remainder. -/
theorem polyOf_eq_modByMonic {register : BitVec width} {p : (ZMod 2)[X]}
    (same : residue low register = AdjoinRoot.mk (modulus low) p) :
    polyOf register.toNat = p %ₘ modulus low := by
  have small : (polyOf register.toNat).degree < (modulus low).degree := by
    rw [degree_modulus]
    exact degree_polyOf_lt register.isLt
  rw [← (modByMonic_eq_self_iff (modulus_monic low)).mpr small]
  exact modByMonic_eq_of_dvd_sub (modulus_monic low) (AdjoinRoot.mk_eq_mk.mp same)

theorem residue_injective {first second : BitVec width}
    (same : residue low first = residue low second) : first = second := by
  apply BitVec.eq_of_toNat_eq
  apply polyOf_injective
  have remainder := polyOf_eq_modByMonic low same
  rwa [← polyOf_eq_modByMonic low rfl] at remainder

theorem residue_iterate_shift (register : BitVec width) (count : Nat) :
    residue low ((shift low)^[count] register) =
      AdjoinRoot.root (modulus low) ^ count * residue low register := by
  induction count with
  | zero => simp
  | succ count ih =>
      rw [Function.iterate_succ_apply', residue_shift, ih, pow_succ', mul_assoc]

end Registers

/-! ## Error patterns -/

section Errors

variable {width : Nat} {low : BitVec width} {errors : Finset Nat}

/-- The polynomial of the powers in a set. -/
noncomputable def powers (errors : Finset Nat) : (ZMod 2)[X] :=
  ∑ power ∈ errors, X ^ power

theorem coeff_powers (errors : Finset Nat) (i : Nat) :
    (powers errors).coeff i = ofBit (decide (i ∈ errors)) := by
  rw [powers, finsetSum_coeff]
  simp [coeff_X_pow, ofBit]

/-- A polynomial with a root at one divides no sum of oddly many powers. -/
theorem not_dvd_powers_of_odd (root : (modulus low).eval 1 = 0) (odd : Odd errors.card) :
    ¬modulus low ∣ powers errors := by
  intro divides
  have zero : (powers errors).eval 1 = 0 := eval_eq_zero_of_dvd_of_eval_eq_zero divides root
  have count : (powers errors).eval 1 = errors.card := by
    rw [powers, eval_finsetSum]
    simp
  rw [count, ZMod.natCast_eq_zero_iff_even] at zero
  exact Nat.not_even_iff_odd.mpr odd zero

/-- A polynomial with a constant term does not share a factor with a power. -/
theorem dvd_of_dvd_pow_mul (constant : low.toNat.testBit 0 = true) (positive : 0 < width)
    {count : Nat} {p : (ZMod 2)[X]} (divides : modulus low ∣ X ^ count * p) :
    modulus low ∣ p := by
  have notDivides : ¬X ∣ modulus low := by
    rw [X_dvd_iff, modulus, coeff_add, coeff_X_pow, if_neg positive.ne, coeff_polyOf, constant]
    decide
  have coprime : IsCoprime X (modulus low) :=
    (Irreducible.coprime_iff_not_dvd irreducible_X).mpr notDivides
  exact (coprime.pow_left.symm).dvd_of_dvd_mul_left divides

/-- Errors within a window as wide as the register are no multiple. -/
theorem not_dvd_powers_of_burst (constant : low.toNat.testBit 0 = true) (positive : 0 < width)
    (nonempty : errors.Nonempty) {start : Nat}
    (burst : ∀ power ∈ errors, start ≤ power ∧ power < start + width) :
    ¬modulus low ∣ powers errors := by
  intro divides
  have moved {i : Nat} (behind : start ≤ i) :
      i - start ∈ errors.image (fun power => power - start) ↔ i ∈ errors := by
    rw [Finset.mem_image]
    constructor
    · rintro ⟨power, isError, same⟩
      have behind' := (burst power isError).1
      rwa [show i = power by omega]
    · intro isError
      exact ⟨i, isError, rfl⟩
  have shifted : powers errors = X ^ start * powers (errors.image fun power => power - start) := by
    ext i
    rw [coeff_X_pow_mul', coeff_powers]
    by_cases behind : start ≤ i
    · rw [if_pos behind, coeff_powers, decide_eq_decide.mpr (moved behind)]
    · rw [if_neg behind, decide_eq_false fun isError => behind (burst i isError).1]
      rfl
  rw [shifted] at divides
  have small :
      (powers (errors.image fun power => power - start)).degree < (modulus low).degree := by
    rw [degree_modulus, degree_lt_iff_coeff_zero]
    intro i outside
    rw [coeff_powers, decide_eq_false]
    · rfl
    · intro isImage
      obtain ⟨power, isError, rfl⟩ := Finset.mem_image.mp isImage
      have bounds := burst power isError
      omega
  have zero := eq_zero_of_dvd_of_degree_lt (dvd_of_dvd_pow_mul constant positive divides) small
  obtain ⟨power, isError⟩ := nonempty
  have one := coeff_powers (errors.image fun power => power - start) (power - start)
  rw [zero, decide_eq_true (Finset.mem_image_of_mem _ isError), coeff_zero] at one
  exact absurd one (by decide)

/-- Two errors are no multiple while the register has not come back to one. -/
theorem not_dvd_powers_of_pair (constant : low.toNat.testBit 0 = true) (positive : 0 < width)
    {bound : Nat} (order : ∀ count, 0 < count → count ≤ bound → (shift low)^[count] 1 ≠ 1)
    {first second : Nat} (less : first < second) (close : second - first ≤ bound) :
    ¬modulus low ∣ powers {first, second} := by
  intro divides
  have factored : powers {first, second} = X ^ first * (1 + X ^ (second - first)) := by
    rw [powers, Finset.sum_pair less.ne, mul_add, mul_one, ← pow_add,
      Nat.add_sub_cancel' less.le]
  rw [factored] at divides
  have zero := AdjoinRoot.mk_eq_zero.mpr (dvd_of_dvd_pow_mul constant positive divides)
  have one : residue low 1 = 1 := by
    rw [residue, show (1 : BitVec width).toNat = 1 from BitVec.toNat_one positive, polyOf_one,
      map_one]
  apply order (second - first) (by omega) close
  apply residue_injective low
  rw [residue_iterate_shift, one, mul_one]
  rw [map_add, map_one, map_pow, AdjoinRoot.mk_X] at zero
  have twice := mk_add_self low 1
  rw [map_one, ← zero, add_right_inj] at twice
  exact twice.symm

end Errors

end BinaryPolynomials
