import Mathlib.Algebra.Order.Ring.Nat
import Mathlib.Data.Rat.Defs
import Mathlib.Data.List.TakeWhile
import Mathlib.Tactic.Ring

/-!
# Numerals of the C library

The `%d` conversions of `printf` and the readers `strtol`, `atoi` and `strtod`,
on lists of characters.  Floating-point values are kept exact: a finite value
is the rational number that the numeral denotes.
-/

namespace CNumerals

/-- `printf("%0<width>d", value)`: the sign counts as one of the columns, and
`%d` is the case of width zero. -/
def formatInt (width : Nat) (value : Int) : List Char :=
  let sign := if value < 0 then ['-'] else []
  let body := Nat.toDigits 10 value.natAbs
  sign ++ List.replicate (width - sign.length - body.length) '0' ++ body

/-- `isspace` in the C locale. -/
def isSpace (symbol : Char) : Bool :=
  symbol.toNat == 32 || (9 ≤ symbol.toNat && symbol.toNat ≤ 13)

/-- Read an optional sign; `true` stands for minus. -/
def readSign : List Char → Bool × List Char
  | '-' :: rest => (true, rest)
  | '+' :: rest => (false, rest)
  | text => (false, text)

/-- `strtol(text, &end, 10)` for a `long` of `width` bits: the value and what
`end` points to.  Without a digit nothing is consumed. -/
def strtol (width : Nat) (text : List Char) : Int × List Char :=
  let (negative, body) := readSign (text.dropWhile isSpace)
  match body.takeWhile Char.isDigit with
  | [] => (0, text)
  | digits =>
      let magnitude : Int := Nat.ofDigitChars 10 digits 0
      let value := if negative then -magnitude else magnitude
      (max (-2 ^ (width - 1)) (min (2 ^ (width - 1) - 1) value),
        body.dropWhile Char.isDigit)

/-- `atoi`: the leading decimal numeral, or zero without one. -/
def atoi (text : List Char) : Int :=
  let (negative, body) := readSign (text.dropWhile isSpace)
  let magnitude : Int := Nat.ofDigitChars 10 (body.takeWhile Char.isDigit) 0
  if negative then -magnitude else magnitude

/-- A floating-point value in exact arithmetic. -/
inductive Double where
  | finite (value : Rat)
  | infinite (negative : Bool)
  | nan
  deriving DecidableEq

namespace Double

def add : Double → Double → Double
  | .finite first, .finite second => .finite (first + second)
  | .finite _, .infinite negative => .infinite negative
  | .infinite negative, .finite _ => .infinite negative
  | .infinite first, .infinite second =>
      if first = second then .infinite first else .nan
  | .nan, _ => .nan
  | _, .nan => .nan

/-- The C truth value: everything but zero is true. -/
def isTrue : Double → Bool
  | .finite value => value ≠ 0
  | _ => true

def leZero : Double → Bool
  | .finite value => value ≤ 0
  | .infinite negative => negative
  | .nan => false

end Double

/-- Remove a prefix given in lower case, comparing without regard to case. -/
def dropPrefixIgnoringCase (lead text : List Char) : Option (List Char) :=
  if (text.take lead.length).map Char.toLower = lead then
    some (text.drop lead.length)
  else none

def digitValue (symbol : Char) : Option Nat :=
  let lower := symbol.toLower
  if symbol.isDigit then some (symbol.toNat - 48)
  else if 97 ≤ lower.toNat && lower.toNat ≤ 102 then some (lower.toNat - 87)
  else none

def isDigitIn (base : Nat) (symbol : Char) : Bool :=
  match digitValue symbol with
  | some value => value < base
  | none => false

def digitsValue (base : Nat) (digits : List Char) : Nat :=
  digits.foldl (fun total digit => base * total + (digitValue digit).getD 0) 0

/-- Digits with an optional point: the value without the point, the number of
digits after it, and the rest.  At least one digit is needed. -/
def readMantissa (base : Nat) (text : List Char) :
    Option (Nat × Nat × List Char) :=
  let whole := text.takeWhile (isDigitIn base)
  let afterWhole := text.dropWhile (isDigitIn base)
  let (fraction, rest) :=
    match afterWhole with
    | '.' :: tail => (tail.takeWhile (isDigitIn base), tail.dropWhile (isDigitIn base))
    | _ => ([], afterWhole)
  if whole.isEmpty && fraction.isEmpty then none
  else some (digitsValue base (whole ++ fraction), fraction.length, rest)

def readExponent (marker : Char) (text : List Char) : Int × List Char :=
  match text with
  | [] => (0, [])
  | head :: tail =>
      if head.toLower = marker then
        let (negative, body) := readSign tail
        match body.takeWhile Char.isDigit with
        | [] => (0, text)
        | digits =>
            let magnitude : Int := Nat.ofDigitChars 10 digits 0
            (if negative then -magnitude else magnitude, body.dropWhile Char.isDigit)
      else (0, text)

def scale (base : Nat) (exponent : Int) (value : Rat) : Rat :=
  if 0 ≤ exponent then value * (base ^ exponent.toNat : Nat)
  else value / (base ^ (-exponent).toNat : Nat)

/-- A finite numeral in one base: mantissa and exponent. -/
def readFinite (base : Nat) (marker : Char) (exponentBase : Nat)
    (text : List Char) : Option (Rat × List Char) :=
  (readMantissa base text).map fun (mantissa, places, rest) =>
    let (exponent, final) := readExponent marker rest
    (scale exponentBase exponent (scale base (-places) mantissa), final)

/-- The part of `strtod` after the sign: the magnitude and what follows it. -/
def readMagnitude (text : List Char) : Option (Double × List Char) :=
  match dropPrefixIgnoringCase "infinity".toList text,
      dropPrefixIgnoringCase "inf".toList text,
      dropPrefixIgnoringCase "nan".toList text with
  | some rest, _, _ => some (.infinite false, rest)
  | none, some rest, _ => some (.infinite false, rest)
  | none, none, some rest => some (.nan, rest)
  | none, none, none =>
      let hexadecimal :=
        (dropPrefixIgnoringCase "0x".toList text).bind (readFinite 16 'p' 2)
      (hexadecimal.orElse fun _ => readFinite 10 'e' 10 text).map
        fun (value, rest) => (.finite value, rest)

/-- `strtod(text, &end)`: the value and what `end` points to.  Without a
numeral nothing is consumed. -/
def strtod (text : List Char) : Double × List Char :=
  let (negative, body) := readSign (text.dropWhile isSpace)
  match readMagnitude body with
  | none => (.finite 0, text)
  | some (.finite value, rest) => (.finite (if negative then -value else value), rest)
  | some (.infinite _, rest) => (.infinite negative, rest)
  | some (.nan, rest) => (.nan, rest)

/-! ## Decimal digits -/

theorem isDigit_of_mem_toDigits {number : Nat} {symbol : Char}
    (symbolMem : symbol ∈ Nat.toDigits 10 number) : symbol.isDigit = true :=
  Nat.isDigit_of_mem_toDigits (by omega) (by omega) symbolMem

theorem digit_bounds {symbol : Char} (isDigit : symbol.isDigit = true) :
    48 ≤ symbol.toNat ∧ symbol.toNat ≤ 57 := by
  simpa using Char.isDigit_iff_toNat.mp isDigit

theorem isSpace_eq_false_of_isDigit {symbol : Char}
    (isDigit : symbol.isDigit = true) : isSpace symbol = false := by
  have bounds := digit_bounds isDigit
  simp only [isSpace, Bool.or_eq_false_iff, beq_eq_false_iff_ne, Bool.and_eq_false_iff,
    decide_eq_false_iff_not]
  omega

theorem toLower_of_isDigit {symbol : Char} (isDigit : symbol.isDigit = true) :
    symbol.toLower = symbol := by
  have bounds := digit_bounds isDigit
  have notUpper : ¬ (symbol ≥ 'A' ∧ symbol ≤ 'Z') := by
    rintro ⟨atLeast, -⟩
    have atLeastNat : 65 ≤ symbol.toNat := atLeast
    omega
  exact dif_neg notUpper

theorem digitValue_of_isDigit {symbol : Char} (isDigit : symbol.isDigit = true) :
    digitValue symbol = some (symbol.toNat - 48) := by
  simp [digitValue, isDigit]

theorem isDigitIn_ten_of_isDigit {symbol : Char} (isDigit : symbol.isDigit = true) :
    isDigitIn 10 symbol = true := by
  have bounds := digit_bounds isDigit
  simp only [isDigitIn, digitValue_of_isDigit isDigit, decide_eq_true_eq]
  omega

theorem digitsValue_ten_eq_ofDigitChars {digits : List Char}
    (allDigits : ∀ symbol ∈ digits, symbol.isDigit = true) (start : Nat) :
    digits.foldl (fun total digit => 10 * total + (digitValue digit).getD 0) start =
      Nat.ofDigitChars 10 digits start := by
  induction digits generalizing start with
  | nil => simp
  | cons digit digits ih =>
      rw [List.foldl_cons, Nat.ofDigitChars_cons, ih fun symbol symbolMem =>
        allDigits symbol (by simp [symbolMem]),
        digitValue_of_isDigit (allDigits digit (by simp))]
      rfl

theorem digitsValue_toDigits (number : Nat) :
    digitsValue 10 (Nat.toDigits 10 number) = number := by
  rw [digitsValue, digitsValue_ten_eq_ofDigitChars fun _ => isDigit_of_mem_toDigits,
    Nat.ofDigitChars_ten_toDigits]

/-! ## Writing -/

theorem formatInt_zero_of_nonneg {value : Int} (nonneg : 0 ≤ value) :
    formatInt 0 value = Nat.toDigits 10 value.natAbs := by
  simp [formatInt, Int.not_lt.mpr nonneg]

theorem formatInt_of_neg (width : Nat) {value : Int} (negative : value < 0) :
    ∃ digit rest, formatInt width value = '-' :: digit :: rest ∧ digit.isDigit = true := by
  let body := List.replicate (width - 1 - (Nat.toDigits 10 value.natAbs).length) '0' ++
    Nat.toDigits 10 value.natAbs
  have shape : formatInt width value = '-' :: body := by
    simp [formatInt, negative, body]
  have nonempty : body ≠ [] := by
    simp [body]
  obtain ⟨digit, rest, split⟩ := List.exists_cons_of_ne_nil nonempty
  refine ⟨digit, rest, by rw [shape, split], ?_⟩
  have digitMem : digit ∈ body := by simp [split]
  rcases List.mem_append.mp digitMem with inPadding | inDigits
  · rw [(List.mem_replicate.mp inPadding).2]
    rfl
  · exact isDigit_of_mem_toDigits inDigits

theorem length_formatInt_le (width bound : Nat) {value : Int} (nonneg : 0 ≤ value)
    (positive : 0 < bound) (widthBound : width ≤ bound) (small : value.natAbs < 10 ^ bound) :
    (formatInt width value).length ≤ bound := by
  have digits : (Nat.toDigits 10 value.natAbs).length ≤ bound :=
    (Nat.length_toDigits_le_iff (by omega) positive).mpr small
  simp only [formatInt, Int.not_lt.mpr nonneg, if_false, List.nil_append, List.length_append,
    List.length_replicate, List.length_nil]
  omega

theorem formatInt_ne_nil (width : Nat) (value : Int) : formatInt width value ≠ [] := by
  simp [formatInt]

theorem isDigit_or_minus_of_mem_formatInt {width : Nat} {value : Int} {symbol : Char}
    (symbolMem : symbol ∈ formatInt width value) :
    symbol.isDigit = true ∨ symbol = '-' := by
  simp only [formatInt, List.mem_append, List.mem_replicate] at symbolMem
  rcases symbolMem with (inSign | ⟨-, rfl⟩) | inBody
  · right
    split at inSign
    · simpa using inSign
    · simp at inSign
  · left; rfl
  · exact Or.inl (isDigit_of_mem_toDigits inBody)

theorem isDigit_of_mem_formatInt_of_nonneg {width : Nat} {value : Int}
    (nonneg : 0 ≤ value) {symbol : Char} (symbolMem : symbol ∈ formatInt width value) :
    symbol.isDigit = true := by
  simp only [formatInt, Int.not_lt.mpr nonneg, if_false, List.nil_append, List.mem_append,
    List.mem_replicate] at symbolMem
  rcases symbolMem with ⟨-, rfl⟩ | inBody
  · rfl
  · exact isDigit_of_mem_toDigits inBody

/-! ## Reading back -/

theorem takeWhile_isDigit_toDigits (number : Nat) :
    (Nat.toDigits 10 number).takeWhile Char.isDigit = Nat.toDigits 10 number :=
  List.takeWhile_eq_self_iff.mpr fun _ => isDigit_of_mem_toDigits

theorem dropWhile_isDigit_toDigits (number : Nat) :
    (Nat.toDigits 10 number).dropWhile Char.isDigit = [] :=
  List.dropWhile_eq_nil_iff.mpr fun _ => isDigit_of_mem_toDigits

theorem readSign_toDigits_append (number : Nat) (rest : List Char) :
    readSign ((Nat.toDigits 10 number ++ rest).dropWhile isSpace) =
      (false, Nat.toDigits 10 number ++ rest) := by
  obtain ⟨head, tail, shape⟩ :=
    List.exists_cons_of_ne_nil (Nat.toDigits_ne_nil (b := 10) (n := number))
  have headMem : head ∈ Nat.toDigits 10 number := by simp [shape]
  have headDigit : head.isDigit = true := isDigit_of_mem_toDigits headMem
  rw [shape, List.cons_append,
    List.dropWhile_cons_of_neg (by simp [isSpace_eq_false_of_isDigit headDigit])]
  have notMinus : head ≠ '-' := by rintro rfl; simp at headDigit
  have notPlus : head ≠ '+' := by rintro rfl; simp at headDigit
  simp [readSign, notMinus, notPlus]

theorem readSign_toDigits (number : Nat) :
    readSign ((Nat.toDigits 10 number).dropWhile isSpace) =
      (false, Nat.toDigits 10 number) := by
  simpa using readSign_toDigits_append number []

theorem strtol_toDigits {width number : Nat} (fits : number < 2 ^ (width - 1)) :
    strtol width (Nat.toDigits 10 number) = ((number : Int), []) := by
  have fitsInt : (number : Int) < 2 ^ (width - 1) := by exact_mod_cast fits
  simp only [strtol, readSign_toDigits, takeWhile_isDigit_toDigits,
    dropWhile_isDigit_toDigits]
  split
  · next empty => exact absurd empty Nat.toDigits_ne_nil
  · simp only [Nat.ofDigitChars_ten_toDigits, Bool.false_eq_true, if_false]
    congr 1
    omega

/-- The characters of a decimal numeral without a sign. -/
def IsDecimal (text : List Char) : Prop :=
  ∀ symbol ∈ text, symbol.isDigit = true ∨ symbol = '.'

theorem isDecimal_toDigits (number : Nat) : IsDecimal (Nat.toDigits 10 number) :=
  fun _ symbolMem => Or.inl (isDigit_of_mem_toDigits symbolMem)

theorem dropPrefixIgnoringCase_of_isDecimal {lead text : List Char} (decimal : IsDecimal text)
    (position : Nat) (inLead : position < lead.length)
    (notDigit : lead[position].isDigit = false) (notPoint : lead[position] ≠ '.') :
    dropPrefixIgnoringCase lead text = none := by
  rw [dropPrefixIgnoringCase, if_neg]
  intro equal
  have atPosition : ((text.take lead.length).map Char.toLower)[position]? =
      some lead[position] := by
    rw [equal, List.getElem?_eq_getElem inLead]
  obtain ⟨symbol, symbolAt, lowered⟩ :=
    List.getElem?_map .. ▸ atPosition |> Option.map_eq_some_iff.mp
  rcases decimal symbol (List.mem_of_mem_take (List.mem_of_getElem? symbolAt)) with isDigit | rfl
  · rw [toLower_of_isDigit isDigit] at lowered
    rw [← lowered, isDigit] at notDigit
    contradiction
  · exact notPoint lowered.symm

theorem readFinite_toDigits (number : Nat) :
    readFinite 10 'e' 10 (Nat.toDigits 10 number) = some ((number : Rat), []) := by
  have wholeDigits : ∀ symbol ∈ Nat.toDigits 10 number, isDigitIn 10 symbol = true :=
    fun _ symbolMem => isDigitIn_ten_of_isDigit (isDigit_of_mem_toDigits symbolMem)
  simp [readFinite, readMantissa, List.takeWhile_eq_self_iff.mpr wholeDigits,
    List.dropWhile_eq_nil_iff.mpr wholeDigits, digitsValue_toDigits, readExponent, scale]

theorem readMagnitude_of_isDecimal {text : List Char} (decimal : IsDecimal text) {value : Rat}
    (finite : readFinite 10 'e' 10 text = some (value, [])) :
    readMagnitude text = some (.finite value, []) := by
  have noInfinity : dropPrefixIgnoringCase "infinity".toList text = none :=
    dropPrefixIgnoringCase_of_isDecimal decimal 0 (by decide) (by decide) (by decide)
  have noInf : dropPrefixIgnoringCase "inf".toList text = none :=
    dropPrefixIgnoringCase_of_isDecimal decimal 0 (by decide) (by decide) (by decide)
  have noNan : dropPrefixIgnoringCase "nan".toList text = none :=
    dropPrefixIgnoringCase_of_isDecimal decimal 0 (by decide) (by decide) (by decide)
  have noHex : dropPrefixIgnoringCase "0x".toList text = none :=
    dropPrefixIgnoringCase_of_isDecimal decimal 1 (by decide) (by decide) (by decide)
  rw [readMagnitude, noInfinity, noInf, noNan, noHex, finite]
  rfl

/-- `strtod` reads a printed natural number back, and consumes all of it. -/
theorem strtod_toDigits (number : Nat) :
    strtod (Nat.toDigits 10 number) = (.finite number, []) := by
  have magnitude := readMagnitude_of_isDecimal (isDecimal_toDigits number)
    (readFinite_toDigits number)
  simp [strtod, readSign_toDigits, magnitude]

/-! ## Decimal fractions -/

theorem foldl_digitValue (base : Nat) (digits : List Char) (start : Nat) :
    digits.foldl (fun total digit => base * total + (digitValue digit).getD 0) start =
      base ^ digits.length * start + digitsValue base digits := by
  induction digits generalizing start with
  | nil => simp [digitsValue]
  | cons digit digits ih =>
      rw [digitsValue, List.foldl_cons, List.foldl_cons, ih, ih (base * 0 + _), List.length_cons]
      ring

theorem digitsValue_append (base : Nat) (front back : List Char) :
    digitsValue base (front ++ back) =
      base ^ back.length * digitsValue base front + digitsValue base back := by
  rw [digitsValue, List.foldl_append, foldl_digitValue]
  rfl

theorem digitsValue_replicate_zero (count : Nat) :
    digitsValue 10 (List.replicate count '0') = 0 := by
  induction count with
  | zero => rfl
  | succ count ih =>
      rw [List.replicate_succ', digitsValue_append, ih]
      rfl

theorem digitsValue_formatInt (width number : Nat) :
    digitsValue 10 (formatInt width number) = number := by
  have notNegative : ¬ (number : Int) < 0 := by omega
  rw [formatInt, if_neg notNegative, List.nil_append, digitsValue_append,
    digitsValue_replicate_zero, Int.natAbs_natCast, digitsValue_toDigits, Nat.mul_zero,
    Nat.zero_add]

theorem length_formatInt_of_lt {width number : Nat} (positive : 0 < width)
    (small : number < 10 ^ width) : (formatInt width number).length = width := by
  have notNegative : ¬ (number : Int) < 0 := by omega
  have digits : (Nat.toDigits 10 number).length ≤ width :=
    (Nat.length_toDigits_le_iff (by omega) positive).mpr small
  simp only [formatInt, if_neg notNegative, Int.natAbs_natCast, List.nil_append,
    List.length_append, List.length_replicate, List.length_nil]
  omega

theorem readMantissa_fraction {whole fraction : List Char} (nonempty : whole ≠ [])
    (wholeDigits : ∀ symbol ∈ whole, symbol.isDigit = true)
    (fractionDigits : ∀ symbol ∈ fraction, symbol.isDigit = true) :
    readMantissa 10 (whole ++ '.' :: fraction) =
      some (digitsValue 10 (whole ++ fraction), fraction.length, []) := by
  have inWhole : ∀ symbol ∈ whole, isDigitIn 10 symbol = true :=
    fun symbol symbolMem => isDigitIn_ten_of_isDigit (wholeDigits symbol symbolMem)
  have inFraction : ∀ symbol ∈ fraction, isDigitIn 10 symbol = true :=
    fun symbol symbolMem => isDigitIn_ten_of_isDigit (fractionDigits symbol symbolMem)
  have point : isDigitIn 10 '.' = false := by decide
  simp [readMantissa, List.takeWhile_append_of_pos inWhole, List.dropWhile_append_of_pos inWhole,
    point, List.takeWhile_eq_self_iff.mpr inFraction, List.dropWhile_eq_nil_iff.mpr inFraction,
    nonempty]

/-- `printf("%d.%0<places>d", whole, fraction)` is read back as a number. -/
theorem strtod_fraction {places whole fraction : Nat} (positive : 0 < places)
    (small : fraction < 10 ^ places) :
    strtod (formatInt 0 whole ++ '.' :: formatInt places fraction) =
      (.finite (((whole * 10 ^ places + fraction : Nat) : Rat) / (10 ^ places : Nat)), []) := by
  have wholeText : formatInt 0 whole = Nat.toDigits 10 whole :=
    formatInt_zero_of_nonneg (Int.natCast_nonneg whole)
  have fractionDigits : ∀ symbol ∈ formatInt places fraction, symbol.isDigit = true :=
    fun _ => isDigit_of_mem_formatInt_of_nonneg (Int.natCast_nonneg fraction)
  have wholeDigits : ∀ symbol ∈ Nat.toDigits 10 whole, symbol.isDigit = true :=
    fun _ => isDigit_of_mem_toDigits
  have mantissa := readMantissa_fraction Nat.toDigits_ne_nil wholeDigits fractionDigits
  rw [digitsValue_append, digitsValue_toDigits, digitsValue_formatInt,
    length_formatInt_of_lt positive small] at mantissa
  have decimal : IsDecimal (Nat.toDigits 10 whole ++ '.' :: formatInt places fraction) := by
    intro symbol symbolMem
    rcases List.mem_append.mp symbolMem with inWhole | later
    · exact isDecimal_toDigits whole symbol inWhole
    · rcases List.mem_cons.mp later with rfl | inFraction
      · exact Or.inr rfl
      · exact Or.inl (fractionDigits symbol inFraction)
  have finite : readFinite 10 'e' 10 (Nat.toDigits 10 whole ++ '.' :: formatInt places fraction) =
      some (((whole * 10 ^ places + fraction : Nat) : Rat) / (10 ^ places : Nat), []) := by
    rw [readFinite, mantissa]
    simp [readExponent, scale, positive.ne', Nat.mul_comm]
  have magnitude := readMagnitude_of_isDecimal decimal finite
  simp only [wholeText, strtod, readSign_toDigits_append, magnitude, Bool.false_eq_true, if_false]

example : strtod "-12.5e1x".toList = (.finite (-125), "x".toList) := by decide +kernel
example : strtod "0x1Ap1".toList = (.finite 52, []) := by decide +kernel
example : formatInt 3 (-5) = "-05".toList := by decide

end CNumerals
