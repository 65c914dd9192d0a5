import Mathlib.Data.List.MinMax
import RtlsdrFt8d.WsprSymbols

/-!
# WSPR messages in bits

A callsign without a stroke, a locator and a power become 28 and 22 bits, from
which a receiver reads the callsign and the locator back, and the power rounded
to the nearest one that is allowed.
-/

namespace RtlsdrFt8d

namespace Wspr

/-! ## Messages -/

def IsAlphanumeric (symbol : Char) : Prop :=
  symbol.isDigit = true ∨ symbol.isUpper = true

/-- One or two prefix characters, a digit and at most three letters. -/
structure Callsign where
  first : Option Char
  second : Char
  digit : Char
  letters : List Char
  first_alphanumeric : ∀ symbol ∈ first, IsAlphanumeric symbol
  second_alphanumeric : IsAlphanumeric second
  digit_isDigit : digit.isDigit = true
  letters_isUpper : ∀ symbol ∈ letters, symbol.isUpper = true
  length_letters : letters.length ≤ 3

def Callsign.text (call : Callsign) : List Char :=
  call.first.toList ++ call.second :: call.digit :: call.letters

/-- A locator from AA00 to RR99. -/
structure Locator where
  longitude : Char
  latitude : Char
  longitudeDigit : Char
  latitudeDigit : Char
  longitude_field : 'A' ≤ longitude ∧ longitude ≤ 'R'
  latitude_field : 'A' ≤ latitude ∧ latitude ≤ 'R'
  longitudeDigit_isDigit : longitudeDigit.isDigit = true
  latitudeDigit_isDigit : latitudeDigit.isDigit = true

def Locator.text (locator : Locator) : List Char :=
  [locator.longitude, locator.latitude, locator.longitudeDigit, locator.latitudeDigit]

/-- A message of type 1, with its power as text. -/
structure Message where
  call : Callsign
  locator : Locator
  dbm : List Char

def allowedPowers : List Int :=
  [60, 57, 53, 50, 47, 43, 40, 37, 33, 30, 27, 23, 20, 17, 13, 10, 7, 3, 0]

/-- The allowed power nearest to `p`, the greater one of two. -/
def nearestPower (p : Int) : Int :=
  (allowedPowers.argmin fun power => (p - power).natAbs).getD 0

/-- What a receiver learns from a message. -/
structure Content where
  call : List Char
  locator : List Char
  power : Int
  deriving DecidableEq

def Message.content (message : Message) : Content where
  call := message.call.text
  locator := message.locator.text
  power := nearestPower (CNumerals.atoi message.dbm)

/-! ## Unpacking -/

/-- The character of a value; the value behind the letters is a blank. -/
def symbolOf (value : Nat) : Char :=
  if value < 10 then Char.ofNat (value + 48)
  else if value < 36 then Char.ofNat (value + 55)
  else ' '

def unpackCall (n1 : Nat) : List Char :=
  ([n1 / (27 * 27 * 27 * 10 * 36), n1 / (27 * 27 * 27 * 10) % 36, n1 / (27 * 27 * 27) % 10,
    n1 / (27 * 27) % 27 + 10, n1 / 27 % 27 + 10, n1 % 27 + 10].map symbolOf).filter (· ≠ ' ')

def unpackLocator (ng : Nat) : List Char :=
  [(179 - ng / 180) / 10 + 10, ng % 180 / 10 + 10, (179 - ng / 180) % 10, ng % 180 % 10].map
    symbolOf

/-! ## Power -/

theorem argmin_allowedPowers (p : Int) :
    (allowedPowers.argmin fun power => (p - power).natAbs) = some (nearestPower p) := by
  unfold nearestPower
  cases nearest : allowedPowers.argmin fun power => (p - power).natAbs with
  | none => simp [List.argmin_eq_none, allowedPowers] at nearest
  | some power => rfl

theorem nearestPower_mem (p : Int) : nearestPower p ∈ allowedPowers :=
  List.argmin_mem (argmin_allowedPowers p)

theorem natAbs_sub_nearestPower_le (p : Int) {power : Int} (allowed : power ∈ allowedPowers) :
    (p - nearestPower p).natAbs ≤ (p - power).natAbs :=
  @List.le_of_mem_argmin _ _ _ (fun power => (p - power).natAbs) _ _ _ allowed
    (argmin_allowedPowers p)

theorem allowedPowers_bounds {power : Int} (allowed : power ∈ allowedPowers) :
    0 ≤ power ∧ power ≤ 60 := by
  revert power
  decide

/-- The correction of `wspr` rounds to the nearest allowed power. -/
theorem correctedPower_eq (p : Int) : correctedPower p = nearestPower p := by
  have bounds := allowedPowers_bounds (nearestPower_mem p)
  unfold correctedPower
  split
  · have closer := natAbs_sub_nearestPower_le p (show (60 : Int) ∈ allowedPowers by decide)
    omega
  split
  · have closer := natAbs_sub_nearestPower_le p (show (0 : Int) ∈ allowedPowers by decide)
    omega
  · have table : ∀ power : Fin 61, (power.val : Int) + corr.getD ((power.val : Int) % 10).toNat 0 =
        nearestPower power.val := by decide
    have entry := table ⟨p.toNat, by omega⟩
    rwa [Int.toNat_of_nonneg (by omega)] at entry

/-! ## Characters -/

theorem upper_bounds {symbol : Char} (isUpper : symbol.isUpper = true) :
    65 ≤ symbol.toNat ∧ symbol.toNat ≤ 90 := by
  have bounds := of_decide_eq_true isUpper
  exact ⟨UInt32.le_iff_toNat_le.mp bounds.1, UInt32.le_iff_toNat_le.mp bounds.2⟩

theorem toUpper_of_isAlphanumeric {symbol : Char} (alphanumeric : IsAlphanumeric symbol) :
    symbol.toUpper = symbol := by
  have notLower : ¬ 97 ≤ symbol.toNat := by
    rcases alphanumeric with isDigit | isUpper
    · have := CNumerals.digit_bounds isDigit
      omega
    · have := upper_bounds isUpper
      omega
  refine dif_neg fun lower => notLower ?_
  exact UInt32.le_iff_toNat_le.mp lower.1

theorem exists_digitValue {symbol : Char} (isDigit : symbol.isDigit = true) :
    ∃ value < 10, fromZero symbol = (value : Nat) ∧ symbolOf value = symbol := by
  have bounds := CNumerals.digit_bounds isDigit
  refine ⟨symbol.toNat - 48, by omega, ?_, ?_⟩
  · rw [fromZero, show ('0'.toNat : Int) = 48 from rfl]
    omega
  · rw [symbolOf, if_pos (by omega), Nat.sub_add_cancel bounds.1, Char.ofNat_toNat]

theorem exists_letterValue {symbol : Char} (least : 65 ≤ symbol.toNat)
    (greatest : symbol.toNat ≤ 90) :
    ∃ value, value + 65 = symbol.toNat ∧ fromA symbol = (value : Nat) ∧
      symbolOf (value + 10) = symbol := by
  refine ⟨symbol.toNat - 65, by omega, ?_, ?_⟩
  · rw [fromA, show ('A'.toNat : Int) = 65 from rfl]
    omega
  · rw [symbolOf, if_neg (by omega), if_pos (by omega),
      show symbol.toNat - 65 + 10 + 55 = symbol.toNat by omega, Char.ofNat_toNat]

theorem exists_alphanumericValue {symbol : Char} (alphanumeric : IsAlphanumeric symbol) :
    ∃ value < 36, alphanumericValue symbol = (value : Nat) ∧ symbolOf value = symbol := by
  rcases alphanumeric with isDigit | isUpper
  · obtain ⟨value, below, equals, shown⟩ := exists_digitValue isDigit
    have bounds := CNumerals.digit_bounds isDigit
    have inRange : '0' ≤ symbol ∧ symbol ≤ '9' := by
      simpa [Char.le_def, UInt32.le_iff_toNat_le] using bounds
    exact ⟨value, by omega, by rw [alphanumericValue, if_pos inRange, equals], shown⟩
  · obtain ⟨least, greatest⟩ := upper_bounds isUpper
    obtain ⟨value, position, equals, shown⟩ := exists_letterValue least greatest
    have outOfRange : ¬ ('0' ≤ symbol ∧ symbol ≤ '9') := by
      rintro ⟨-, digit⟩
      have : symbol.toNat ≤ 57 := UInt32.le_iff_toNat_le.mp digit
      omega
    refine ⟨value + 10, by omega, ?_, shown⟩
    rw [alphanumericValue, if_neg outOfRange, equals]
    rfl

/-! ## Buffers -/

/-- NUL, the blank and the stroke come before the digits. -/
theorem IsAlphanumeric.ne {symbol other : Char} (alphanumeric : IsAlphanumeric symbol)
    (isOther : other.toNat < 48) : symbol ≠ other := by
  rintro rfl
  rcases alphanumeric with isDigit | isUpper
  · have := CNumerals.digit_bounds isDigit
    omega
  · have := upper_bounds isUpper
    omega

theorem IsAlphanumeric.ne_blank {symbol : Char} (alphanumeric : IsAlphanumeric symbol) :
    symbol ≠ ' ' :=
  alphanumeric.ne (by decide)

theorem toUpper_append {text : List Char} (alphanumeric : ∀ symbol ∈ text, IsAlphanumeric symbol)
    (memory : List Char) : toUpper (text ++ memory) = text ++ toUpper memory := by
  induction text with
  | nil => rfl
  | cons symbol text ih =>
      have isAlphanumeric := alphanumeric symbol List.mem_cons_self
      rw [List.cons_append, toUpper, if_neg (isAlphanumeric.ne (by decide)),
        toUpper_of_isAlphanumeric isAlphanumeric,
        ih fun symbol isIn => alphanumeric symbol (List.mem_cons_of_mem _ isIn), List.cons_append]

theorem cString_append {text : List Char} (alphanumeric : ∀ symbol ∈ text, IsAlphanumeric symbol)
    (rest : List Char) : cString (text ++ '\x00' :: rest) = text := by
  rw [cString, List.takeWhile_append_of_pos]
  · simp
  · intro symbol isIn
    simpa using (alphanumeric symbol isIn).ne (by decide)

theorem cell_append_of_lt {text : List Char} (memory : List Char) {i : Nat}
    (inside : i < text.length) : cell (text ++ memory) i = cell text i :=
  List.getD_append text memory '\x00' i inside

theorem cell_append_right (text memory : List Char) (i : Nat) :
    cell (text ++ memory) (text.length + i) = cell memory i := by
  rw [cell, List.getD_append_right _ _ _ _ (Nat.le_add_right _ _), Nat.add_sub_cancel_left]
  rfl

/-- A short text in the buffer of `wspr`, which begins with it and a NUL. -/
theorem exists_toUpper_strncpy {text : List Char} {size : Nat} (short : text.length < size)
    (alphanumeric : ∀ symbol ∈ text, IsAlphanumeric symbol) (memory : List Char) :
    ∃ rest, toUpper (strncpy size text ++ memory) = text ++ '\x00' :: rest := by
  obtain ⟨blanks, isCount⟩ := Nat.exists_eq_add_of_lt short
  have padding : size - text.length = blanks + 1 := by omega
  refine ⟨List.replicate blanks '\x00' ++ memory, ?_⟩
  rw [strncpy, List.take_of_length_le short.le, padding, List.replicate_succ, List.append_assoc,
    toUpper_append alphanumeric, List.cons_append, toUpper, if_pos rfl]

theorem packStroke_of_alphanumeric (stack : StackContents) {text : List Char}
    (alphanumeric : ∀ symbol ∈ text, IsAlphanumeric symbol) (rest : List Char) :
    packStroke stack (text ++ '\x00' :: rest) = (stack.ng, 0, text ++ '\x00' :: rest) := by
  have noStroke : text.idxOf? '/' = none :=
    List.idxOf?_eq_none_iff.mpr fun isIn => (alphanumeric '/' isIn).ne (by decide) rfl
  rw [packStroke, cString_append alphanumeric, noStroke]

/-! ## Callsigns -/

theorem Callsign.alphanumeric (call : Callsign) :
    ∀ symbol ∈ call.text, IsAlphanumeric symbol := by
  intro symbol isIn
  simp only [text, List.mem_append, Option.mem_toList, List.mem_cons] at isIn
  rcases isIn with first | rfl | rfl | letter
  · exact call.first_alphanumeric symbol first
  · exact call.second_alphanumeric
  · exact Or.inl call.digit_isDigit
  · exact Or.inr (call.letters_isUpper symbol letter)

theorem Callsign.length_text_le (call : Callsign) : call.text.length ≤ 6 := by
  have letters := call.length_letters
  cases first : call.first with
  | none => simp [text, first]; omega
  | some symbol => simp [text, first]; omega

/-- The value of a letter behind the digit, 26 if it is missing. -/
def letterValue (letters : List Char) (k : Nat) : Int :=
  if letters.length ≤ k then 26 else fromA (cell letters k)

/-- Any prefix that ends in the digit to which `wspr` points. -/
theorem packCall_append {lead letters : List Char} {digit : Char}
    (alphanumeric : ∀ symbol ∈ lead ++ digit :: letters, IsAlphanumeric symbol)
    (rest : List Char)
    (isDigit : prefixDigit (lead ++ digit :: letters ++ '\x00' :: rest) = lead.length) :
    packCall (lead ++ digit :: letters ++ '\x00' :: rest) =
      27 * (27 * (27 * (10 * (36 * (if lead.length < 2 then 36
          else alphanumericValue (cell lead (lead.length - 2))) +
        (if lead.length < 1 then 36 else alphanumericValue (cell lead (lead.length - 1)))) +
        fromZero digit) + letterValue letters 0) + letterValue letters 1) +
        letterValue letters 2 := by
  have n : strlen (lead ++ digit :: letters ++ '\x00' :: rest) - lead.length - 1 =
      letters.length := by
    rw [strlen, cString_append alphanumeric, List.length_append, List.length_cons]
    omega
  have before {back : Nat} (positive : 0 < back) : (if lead.length < back then (36 : Int)
      else alphanumericValue (cell (lead ++ digit :: letters ++ '\x00' :: rest)
        (lead.length - back))) =
      if lead.length < back then 36 else alphanumericValue (cell lead (lead.length - back)) := by
    by_cases short : lead.length < back
    · rw [if_pos short, if_pos short]
    · rw [if_neg short, if_neg short, List.append_assoc, cell_append_of_lt _ (by omega)]
  have atDigit : cell (lead ++ digit :: letters ++ '\x00' :: rest) lead.length = digit := by
    rw [List.append_assoc]
    exact cell_append_right lead _ 0
  have letter (k : Nat) : (if (letters.length : Int) < (k + 1 : Nat) then (26 : Int)
      else fromA (cell (lead ++ digit :: letters ++ '\x00' :: rest) (lead.length + (k + 1)))) =
      letterValue letters k := by
    rw [letterValue]
    by_cases missing : letters.length ≤ k
    · rw [if_pos (by omega), if_pos missing]
    · have position : cell (lead ++ digit :: letters ++ '\x00' :: rest) (lead.length + (k + 1)) =
          cell letters k := by
        rw [List.append_assoc, cell_append_right, ← cell_append_of_lt ('\x00' :: rest)
          (Nat.lt_of_not_le missing)]
        rfl
      rw [if_neg (by omega), if_neg missing, position]
  unfold packCall
  simp only [isDigit, n, atDigit]
  rw [before Nat.zero_lt_two, before Nat.zero_lt_one, ← letter 0, ← letter 1, ← letter 2]
  rfl

/-- The radices of `n1` separate its six values. -/
theorem unpackCall_eq {v0 v1 v2 v3 v4 v5 : Nat} (below1 : v1 < 36) (below2 : v2 < 10)
    (below3 : v3 < 27) (below4 : v4 < 27) (below5 : v5 < 27) :
    unpackCall (27 * (27 * (27 * (10 * (36 * v0 + v1) + v2) + v3) + v4) + v5) =
      ([v0, v1, v2, v3 + 10, v4 + 10, v5 + 10].map symbolOf).filter (· ≠ ' ') := by
  have value0 : (27 * (27 * (27 * (10 * (36 * v0 + v1) + v2) + v3) + v4) + v5) /
      (27 * 27 * 27 * 10 * 36) = v0 := by omega
  have value1 : (27 * (27 * (27 * (10 * (36 * v0 + v1) + v2) + v3) + v4) + v5) /
      (27 * 27 * 27 * 10) % 36 = v1 := by omega
  have value2 : (27 * (27 * (27 * (10 * (36 * v0 + v1) + v2) + v3) + v4) + v5) /
      (27 * 27 * 27) % 10 = v2 := by omega
  have value3 : (27 * (27 * (27 * (10 * (36 * v0 + v1) + v2) + v3) + v4) + v5) /
      (27 * 27) % 27 = v3 := by omega
  have value4 : (27 * (27 * (27 * (10 * (36 * v0 + v1) + v2) + v3) + v4) + v5) / 27 % 27 = v4 := by
    omega
  have value5 : (27 * (27 * (27 * (10 * (36 * v0 + v1) + v2) + v3) + v4) + v5) % 27 = v5 := by
    omega
  rw [unpackCall, value0, value1, value2, value3, value4, value5]

theorem exists_letterValue_getD {letters : List Char}
    (isUpper : ∀ symbol ∈ letters, symbol.isUpper = true) (k : Nat) :
    ∃ value < 27, letterValue letters k = (value : Nat) ∧
      symbolOf (value + 10) = letters.getD k ' ' := by
  rw [letterValue]
  by_cases missing : letters.length ≤ k
  · refine ⟨26, by omega, if_pos missing, ?_⟩
    rw [List.getD_eq_default _ _ missing]
    rfl
  · have inside : k < letters.length := Nat.lt_of_not_le missing
    obtain ⟨least, greatest⟩ := upper_bounds (isUpper _ (List.getElem_mem inside))
    obtain ⟨value, position, equals, shown⟩ := exists_letterValue least greatest
    refine ⟨value, by omega, ?_, ?_⟩
    · rw [if_neg missing, cell, List.getD_eq_getElem _ _ inside, equals]
    · rw [shown, List.getD_eq_getElem _ _ inside]

theorem filter_getD {letters : List Char} (isUpper : ∀ symbol ∈ letters, symbol.isUpper = true)
    (length : letters.length ≤ 3) :
    [letters.getD 0 ' ', letters.getD 1 ' ', letters.getD 2 ' '].filter (· ≠ ' ') = letters := by
  have shown {symbol : Char} (isIn : symbol ∈ letters) : symbol ≠ ' ' :=
    IsAlphanumeric.ne_blank (Or.inr (isUpper symbol isIn))
  match letters, length with
  | [], _ => rfl
  | [first], _ => simp [shown]
  | [first, second], _ => simp [shown]
  | [first, second, third], _ => simp [shown]

theorem prefixDigit_second {second digit : Char} {letters : List Char}
    (isDigit : digit.isDigit = true) (isUpper : ∀ symbol ∈ letters, symbol.isUpper = true)
    (rest : List Char) :
    prefixDigit ([second] ++ digit :: letters ++ '\x00' :: rest) = 1 := by
  have notDigit : (cell ([second] ++ digit :: letters ++ '\x00' :: rest) 2).isDigit = false := by
    cases letters with
    | nil => rfl
    | cons letter letters =>
        have bounds := upper_bounds (isUpper letter List.mem_cons_self)
        refine Bool.eq_false_iff.mpr fun digit => ?_
        have := CNumerals.digit_bounds (show letter.isDigit = true from digit)
        omega
  rw [prefixDigit, notDigit, if_neg Bool.false_ne_true]
  exact if_pos isDigit

theorem prefixDigit_third {first second digit : Char} (letters rest : List Char)
    (isDigit : digit.isDigit = true) :
    prefixDigit ([first, second] ++ digit :: letters ++ '\x00' :: rest) = 2 :=
  if_pos isDigit

/-- A missing first character counts as a blank. -/
theorem exists_packCall_lead (call : Callsign) :
    ∃ lead < 37, symbolOf lead = call.first.getD ' ' ∧
      ∀ rest, packCall (call.text ++ '\x00' :: rest) =
        27 * (27 * (27 * (10 * (36 * (lead : Nat) + alphanumericValue call.second) +
          fromZero call.digit) + letterValue call.letters 0) + letterValue call.letters 1) +
          letterValue call.letters 2 := by
  have alphanumeric := call.alphanumeric
  cases isFirst : call.first with
  | none =>
      have text : call.text = [call.second] ++ call.digit :: call.letters := by
        rw [Callsign.text, isFirst]
        rfl
      rw [text] at alphanumeric ⊢
      refine ⟨36, by omega, rfl, fun rest => ?_⟩
      rw [packCall_append alphanumeric rest
        (prefixDigit_second call.digit_isDigit call.letters_isUpper rest)]
      rfl
  | some first =>
      have text : call.text = [first, call.second] ++ call.digit :: call.letters := by
        rw [Callsign.text, isFirst]
        rfl
      obtain ⟨lead, below, equals, shown⟩ :=
        exists_alphanumericValue (call.first_alphanumeric first isFirst)
      rw [text] at alphanumeric ⊢
      refine ⟨lead, by omega, shown, fun rest => ?_⟩
      rw [packCall_append alphanumeric rest (prefixDigit_third _ rest call.digit_isDigit),
        ← equals]
      rfl

theorem Callsign.filter_first (call : Callsign) :
    [call.first.getD ' '].filter (· ≠ ' ') = call.first.toList := by
  cases isFirst : call.first with
  | none => rfl
  | some first =>
      have kept := (call.first_alphanumeric first isFirst).ne_blank
      exact List.filter_cons_of_pos (by simpa using kept)

/-- Packing and unpacking a callsign. -/
theorem exists_packCall (call : Callsign) :
    ∃ n1 < 2 ^ 28, (∀ rest, packCall (call.text ++ '\x00' :: rest) = (n1 : Nat)) ∧
      unpackCall n1 = call.text := by
  obtain ⟨v0, below0, shown0, packs⟩ := exists_packCall_lead call
  obtain ⟨v1, below1, second, shown1⟩ := exists_alphanumericValue call.second_alphanumeric
  obtain ⟨v2, below2, digit, shown2⟩ := exists_digitValue call.digit_isDigit
  obtain ⟨v3, below3, letter0, shown3⟩ := exists_letterValue_getD call.letters_isUpper 0
  obtain ⟨v4, below4, letter1, shown4⟩ := exists_letterValue_getD call.letters_isUpper 1
  obtain ⟨v5, below5, letter2, shown5⟩ := exists_letterValue_getD call.letters_isUpper 2
  refine ⟨27 * (27 * (27 * (10 * (36 * v0 + v1) + v2) + v3) + v4) + v5, by omega,
    fun rest => ?_, ?_⟩
  · rw [packs rest, second, digit, letter0, letter1, letter2]
    omega
  · have secondKept := call.second_alphanumeric.ne_blank
    have digitKept := IsAlphanumeric.ne_blank (Or.inl call.digit_isDigit)
    rw [unpackCall_eq below1 below2 below3 below4 below5, List.map_cons, List.map_cons,
      List.map_cons, List.map_cons, List.map_cons, List.map_cons, List.map_nil, shown0, shown1,
      shown2, shown3, shown4, shown5, ← List.singleton_append, List.filter_append,
      call.filter_first, List.filter_cons_of_pos (by simpa using secondKept),
      List.filter_cons_of_pos (by simpa using digitKept),
      filter_getD call.letters_isUpper call.length_letters]
    rfl

/-! ## Locators -/

theorem isUpper_of_field {symbol : Char} (field : 'A' ≤ symbol ∧ symbol ≤ 'R') :
    symbol.isUpper = true := by
  have last : 'R'.val ≤ 'Z'.val := by decide
  exact decide_eq_true ⟨field.1, UInt32.le_trans field.2 last⟩

theorem Locator.alphanumeric (locator : Locator) :
    ∀ symbol ∈ locator.text, IsAlphanumeric symbol := by
  intro symbol isIn
  simp only [text, List.mem_cons, List.not_mem_nil, or_false] at isIn
  rcases isIn with rfl | rfl | rfl | rfl
  · exact Or.inr (isUpper_of_field locator.longitude_field)
  · exact Or.inr (isUpper_of_field locator.latitude_field)
  · exact Or.inl locator.longitudeDigit_isDigit
  · exact Or.inl locator.latitudeDigit_isDigit

theorem exists_fieldValue {symbol : Char} (field : 'A' ≤ symbol ∧ symbol ≤ 'R') :
    ∃ value < 18, fromA symbol = (value : Nat) ∧ symbolOf (value + 10) = symbol := by
  have least : 65 ≤ symbol.toNat := UInt32.le_iff_toNat_le.mp field.1
  have greatest : symbol.toNat ≤ 82 := UInt32.le_iff_toNat_le.mp field.2
  obtain ⟨value, position, equals, shown⟩ := exists_letterValue least (by omega)
  exact ⟨value, by omega, equals, shown⟩

/-- Packing and unpacking a locator. -/
theorem exists_packLocator (locator : Locator) :
    ∃ ng < 32400, (∀ memory,
        packLocator (toUpper (strncpy 4 locator.text ++ memory)) = (ng : Nat)) ∧
      unpackLocator ng = locator.text := by
  obtain ⟨a, belowA, longitude, shownA⟩ := exists_fieldValue locator.longitude_field
  obtain ⟨b, belowB, latitude, shownB⟩ := exists_fieldValue locator.latitude_field
  obtain ⟨c, belowC, longitudeDigit, shownC⟩ := exists_digitValue locator.longitudeDigit_isDigit
  obtain ⟨d, belowD, latitudeDigit, shownD⟩ := exists_digitValue locator.latitudeDigit_isDigit
  refine ⟨180 * (179 - (10 * a + c)) + 10 * b + d, by omega, fun memory => ?_, ?_⟩
  · have buffer : strncpy 4 locator.text = locator.text := rfl
    rw [buffer, toUpper_append locator.alphanumeric]
    have packs : packLocator (locator.text ++ toUpper memory) =
        180 * (179 - 10 * fromA locator.longitude - fromZero locator.longitudeDigit) +
          10 * fromA locator.latitude + fromZero locator.latitudeDigit :=
      rfl
    rw [packs, longitude, latitude, longitudeDigit, latitudeDigit]
    omega
  · have valueA : (179 - (180 * (179 - (10 * a + c)) + 10 * b + d) / 180) / 10 = a := by omega
    have valueB : (180 * (179 - (10 * a + c)) + 10 * b + d) % 180 / 10 = b := by omega
    have valueC : (179 - (180 * (179 - (10 * a + c)) + 10 * b + d) / 180) % 10 = c := by omega
    have valueD : (180 * (179 - (10 * a + c)) + 10 * b + d) % 180 % 10 = d := by omega
    rw [unpackLocator, valueA, valueB, valueC, valueD, List.map_cons, List.map_cons,
      List.map_cons, List.map_cons, shownA, shownB, shownC, shownD]
    rfl

/-! ## Messages in bits -/

theorem toNat_shiftLeft_or {ng power : Nat} (ngBelow : ng < 32400) (powerBelow : power < 128) :
    ((BitVec.ofNat 64 ng <<< 7) ||| BitVec.ofNat 64 power).toNat = ng * 128 + power := by
  have joined := Nat.shiftLeft_add_eq_or_of_lt (i := 7) powerBelow ng
  rw [BitVec.toNat_or, BitVec.toNat_shiftLeft, BitVec.toNat_ofNat, BitVec.toNat_ofNat,
    Nat.mod_eq_of_lt (show ng < 2 ^ 64 by omega), Nat.mod_eq_of_lt (show power < 2 ^ 64 by omega),
    Nat.mod_eq_of_lt (by rw [Nat.shiftLeft_eq]; omega), ← joined, Nat.shiftLeft_eq]

/-- What `wspr` packs, whatever it finds on its stack. -/
theorem exists_packMessage (message : Message) :
    ∃ n1 n2 : BitVec 64, n1.toNat < 2 ^ 28 ∧ n2.toNat < 2 ^ 22 ∧
      (∀ stack, packMessage message.call.text message.locator.text message.dbm stack = (n1, n2)) ∧
      unpackCall n1.toNat = message.call.text ∧
      unpackLocator (n2.toNat / 128) = message.locator.text ∧
      ((n2.toNat % 128 : Nat) : Int) - 64 = nearestPower (CNumerals.atoi message.dbm) := by
  obtain ⟨n1, callBelow, call, callShown⟩ := exists_packCall message.call
  obtain ⟨ng, locatorBelow, locator, locatorShown⟩ := exists_packLocator message.locator
  have bounds := allowedPowers_bounds (nearestPower_mem (CNumerals.atoi message.dbm))
  obtain ⟨power, isPower⟩ := Int.eq_ofNat_of_zero_le bounds.1
  have n1Value : (BitVec.ofNat 64 n1).toNat = n1 := by
    rw [BitVec.toNat_ofNat, Nat.mod_eq_of_lt (by omega)]
  have n2Value := @toNat_shiftLeft_or ng (power + 64) locatorBelow (by omega)
  refine ⟨BitVec.ofNat 64 n1, (BitVec.ofNat 64 ng <<< 7) ||| BitVec.ofNat 64 (power + 64),
    ?_, ?_, fun stack => ?_, ?_, ?_, ?_⟩
  · omega
  · omega
  · have length := message.call.length_text_le
    obtain ⟨rest, buffer⟩ := @exists_toUpper_strncpy message.call.text 16 (by omega)
      message.call.alphanumeric stack.behindBuf
    have noStroke : packStroke stack (message.call.text ++ '\x00' :: rest) =
        (stack.ng, 0, message.call.text ++ '\x00' :: rest) :=
      packStroke_of_alphanumeric stack message.call.alphanumeric rest
    have power64 : (power : Int) + 64 + 0 = (power + 64 : Nat) := by omega
    rw [packMessage, buffer, noStroke]
    simp only [call rest, locator stack.behindL, correctedPower_eq, isPower, if_pos,
      power64, BitVec.ofInt_natCast]
  · rw [n1Value, callShown]
  · rw [n2Value, show (ng * 128 + (power + 64)) / 128 = ng by omega, locatorShown]
  · omega

end Wspr

end RtlsdrFt8d
