import Mathlib.Algebra.Order.Ring.Nat
import Mathlib.Data.Nat.Bitwise

/-!
# Binary linear codes

A word is a function from positions to bits, and a mask is a number whose ones
select positions.  Masks add by exclusive or, so a certificate about many masks
is a computation with numbers.  A code with generator and check masks is
systematic if two such computations succeed.
-/

namespace BinaryLinearCodes

/-! ## Products of masks and words -/

/-- The sum modulo two of the bits that a mask selects. -/
def dot (mask : Nat) : (Nat → Bool) → Bool :=
  mask.binaryRec (fun _ => false) fun bit _ rest word =>
    (bit && word 0) ^^ rest fun position => word (position + 1)

@[simp]
theorem dot_zero (word : Nat → Bool) : dot 0 word = false := by
  rw [dot, Nat.binaryRec_zero]

theorem dot_bit (bit : Bool) (mask : Nat) (word : Nat → Bool) :
    dot (Nat.bit bit mask) word =
      ((bit && word 0) ^^ dot mask fun position => word (position + 1)) := by
  rw [dot, Nat.binaryRec_eq bit mask (Or.inl (by simp))]
  rfl

theorem dot_xor (first second : Nat) (word : Nat → Bool) :
    dot (first ^^^ second) word = (dot first word ^^ dot second word) := by
  induction first using Nat.binaryRec generalizing second word with
  | zero => simp
  | bit bit first ih =>
      cases second using Nat.bitCasesOn with
      | bit other second =>
          rw [Nat.xor_bit, dot_bit, dot_bit, dot_bit, ih]
          cases bit <;> cases other <;> cases word 0 <;> simp

theorem dot_word_xor (mask : Nat) (first second : Nat → Bool) :
    dot mask (fun position => first position ^^ second position) =
      (dot mask first ^^ dot mask second) := by
  induction mask using Nat.binaryRec generalizing first second with
  | zero => simp
  | bit bit mask ih =>
      rw [dot_bit, dot_bit, dot_bit, ih fun position => first (position + 1)]
      cases bit <;> cases first 0 <;> cases second 0 <;> simp

theorem dot_two_pow (position : Nat) (word : Nat → Bool) :
    dot (2 ^ position) word = word position := by
  induction position generalizing word with
  | zero =>
      have one : (2 : Nat) ^ 0 = Nat.bit true 0 := rfl
      rw [one, dot_bit]
      simp
  | succ position ih =>
      have double : 2 ^ (position + 1) = Nat.bit false (2 ^ position) := by
        rw [Nat.bit_false_apply, pow_succ, Nat.mul_comm]
      rw [double, dot_bit, ih]
      simp

/-- The high part of a mask is a mask for the word from there on. -/
theorem dot_split (width mask : Nat) (word : Nat → Bool) :
    dot mask word =
      (dot (mask % 2 ^ width) word ^^
        dot (mask / 2 ^ width) fun position => word (position + width)) := by
  induction width generalizing mask word with
  | zero => simp [Nat.mod_one]
  | succ width ih =>
      cases mask using Nat.bitCasesOn with
      | bit bit mask =>
          have high : Nat.bit bit mask / 2 ^ (width + 1) = mask / 2 ^ width := by
            rw [pow_succ', ← Nat.div_div_eq_div_mul, Nat.bit_div_two]
          have low : Nat.bit bit mask % 2 ^ (width + 1) = Nat.bit bit (mask % 2 ^ width) := by
            rw [pow_succ', Nat.mod_mul, Nat.bit_div_two, Nat.bit_mod_two, Nat.bit_val]
            cases bit <;> simp
            omega
          rw [high, low, dot_bit, dot_bit, ih mask, Bool.xor_assoc]
          simp only [Nat.add_assoc]

/-- Words that agree below a bound have the same product with a mask below it. -/
theorem dot_congr {width mask : Nat} {first second : Nat → Bool} (small : mask < 2 ^ width)
    (agree : ∀ position < width, first position = second position) :
    dot mask first = dot mask second := by
  induction width generalizing mask first second with
  | zero =>
      obtain rfl : mask = 0 := by omega
      simp
  | succ width ih =>
      cases mask using Nat.bitCasesOn with
      | bit bit mask =>
          have smaller : mask < 2 ^ width := by
            rw [Nat.bit_val, pow_succ] at small
            omega
          rw [dot_bit, dot_bit, agree 0 (Nat.succ_pos width),
            ih smaller fun position bound => agree (position + 1) (Nat.succ_lt_succ bound)]

/-- The mask that selects the positions of a list. -/
def positionsMask (positions : List Nat) : Nat :=
  positions.foldr (fun position mask => 2 ^ position ^^^ mask) 0

/-- The sum modulo two of bits. -/
def parity (bits : List Bool) : Bool :=
  bits.foldr Bool.xor false

@[simp]
theorem parity_nil : parity [] = false :=
  rfl

@[simp]
theorem parity_cons (bit : Bool) (bits : List Bool) : parity (bit :: bits) = (bit ^^ parity bits) :=
  rfl

theorem foldl_xor {Position : Type*} (word : Position → Bool) (positions : List Position)
    (start : Bool) :
    positions.foldl (fun sum position => sum ^^ word position) start =
      (start ^^ parity (positions.map word)) := by
  induction positions generalizing start with
  | nil => simp
  | cons position positions ih => simp [ih]

theorem dot_positionsMask (positions : List Nat) (word : Nat → Bool) :
    dot (positionsMask positions) word = parity (positions.map word) := by
  induction positions with
  | nil => exact dot_zero word
  | cons position positions ih =>
      change dot (2 ^ position ^^^ positionsMask positions) word = _
      rw [dot_xor, dot_two_pow, ih, List.map_cons, parity_cons]

/-! ## Combinations of masks -/

/-- The sum of the masks that a selection picks from a list. -/
def combination : List Nat → Nat → Nat
  | [], _ => 0
  | mask :: masks, selection =>
      (if selection.testBit 0 then mask else 0) ^^^ combination masks (selection / 2)

theorem dot_combination_eq_false {masks : List Nat} {word : Nat → Bool}
    (satisfied : ∀ mask ∈ masks, dot mask word = false) (selection : Nat) :
    dot (combination masks selection) word = false := by
  induction masks generalizing selection with
  | nil => exact dot_zero word
  | cons mask masks ih =>
      rw [combination, dot_xor, ih fun other isOther => satisfied other (.tail _ isOther)]
      split
      · rw [satisfied mask (.head _)]
        rfl
      · rw [dot_zero]
        rfl

/-- If each bit of a word is the product of a mask with another word, then so is
each sum of them. -/
theorem dot_combination {masks : List Nat} {word sums : Nat → Bool} {selection : Nat}
    (small : selection < 2 ^ masks.length)
    (generated : ∀ (i : Nat) (inside : i < masks.length), sums i = dot masks[i] word) :
    dot (combination masks selection) word = dot selection sums := by
  induction masks generalizing selection sums with
  | nil =>
      obtain rfl : selection = 0 := by simpa using small
      rw [combination, dot_zero, dot_zero]
  | cons mask masks ih =>
      cases selection using Nat.bitCasesOn with
      | bit bit selection =>
          have smaller : selection < 2 ^ masks.length := by
            rw [List.length_cons, Nat.bit_val, pow_succ] at small
            omega
          rw [combination, dot_xor, dot_bit, Nat.testBit_bit_zero, Nat.bit_div_two,
            ih smaller fun i inside => generated (i + 1) (Nat.succ_lt_succ inside),
            generated 0 (Nat.succ_pos _)]
          cases bit <;> simp

/-! ## Systematic codes -/

/-- A word passes every check of a list. -/
def Satisfies (checks : List Nat) (word : Nat → Bool) : Prop :=
  ∀ check ∈ checks, dot check word = false

theorem Satisfies.xor {checks : List Nat} {first second : Nat → Bool}
    (passes : Satisfies checks first) (passes' : Satisfies checks second) :
    Satisfies checks fun position => first position ^^ second position := by
  intro check isCheck
  rw [dot_word_xor, passes check isCheck, passes' check isCheck]
  rfl

/-- A word whose bits from `messageLength` on are the sums that the generator
takes of the bits before. -/
def Encodes (generator : List Nat) (messageLength : Nat) (word : Nat → Bool) : Prop :=
  ∀ (i : Nat) (inside : i < generator.length), word (messageLength + i) = dot generator[i] word

/-- What shows that checks and a generator describe one code.  Writing the sums
into a check makes it vanish, and each sum is a combination of checks. -/
structure Certificate (checks generator : List Nat) (messageLength : Nat) where
  selections : List Nat
  bounded : ∀ check ∈ checks, check / 2 ^ messageLength < 2 ^ generator.length
  vanishes : ∀ check ∈ checks,
    check % 2 ^ messageLength ^^^ combination generator (check / 2 ^ messageLength) = 0
  determines : ∀ (i : Nat) (inside : i < generator.length),
    combination checks (selections.getD i 0) = 2 ^ (messageLength + i) ^^^ generator[i]

variable {checks generator : List Nat} {messageLength : Nat}

theorem Certificate.satisfies (certificate : Certificate checks generator messageLength)
    {word : Nat → Bool} (encodes : Encodes generator messageLength word) :
    Satisfies checks word := by
  intro check isCheck
  have generated : ∀ (i : Nat) (inside : i < generator.length),
      word (i + messageLength) = dot generator[i] word := by
    intro i inside
    rw [Nat.add_comm]
    exact encodes i inside
  have sums := dot_combination (certificate.bounded check isCheck) generated
  rw [dot_split messageLength check word, ← sums, ← dot_xor, certificate.vanishes check isCheck,
    dot_zero]

theorem Certificate.encodes (certificate : Certificate checks generator messageLength)
    {word : Nat → Bool} (satisfies : Satisfies checks word) :
    Encodes generator messageLength word := by
  intro i inside
  have vanishes := dot_combination_eq_false satisfies (certificate.selections.getD i 0)
  rw [certificate.determines i inside, dot_xor, dot_two_pow] at vanishes
  simpa using vanishes

/-- The words that pass the checks are those that the generator makes. -/
theorem Certificate.satisfies_iff (certificate : Certificate checks generator messageLength)
    (word : Nat → Bool) : Satisfies checks word ↔ Encodes generator messageLength word :=
  ⟨certificate.encodes, certificate.satisfies⟩

end BinaryLinearCodes
