import Mathlib.Data.Int.ModEq
import RtlsdrFt8d.CallFieldShapes
import RtlsdrFt8d.PeerRing
import RtlsdrFt8d.PositionalNumerals

/-!
# Hashes of peers

`hashCallId` reads up to six characters as a number in base 36, in which a slash
counts -1, and marks longer callsigns in the top bit.  The numbers of six
characters reach into the marked half of the hashes, zeros in front do not
count, and a slash borrows from the digit before it.
-/

namespace RtlsdrFt8d

open PositionalNumerals

/-! ## Callsigns -/

/-- Three to six letters and digits, without a zero in front. -/
structure IsStandardCallId (callId : List Char) : Prop where
  symbols : ∀ symbol ∈ callId, symbol ∈ CharTable.alphanum.chars
  noZero : callId.head? ≠ some '0'
  le_length : 3 ≤ callId.length
  length_le : callId.length ≤ 6

/-- No other callsign has this hash, so no other peers make `checkPeer` find this
one. -/
structure NeverConfused (callId : List Char) : Prop where
  hash_ne : ∀ other, IsCallId other → other ≠ callId → hashCallId other ≠ hashCallId callId
  notFound : ∀ calls, (∀ peer ∈ calls, IsCallId peer ∧ peer ≠ callId) →
    (peersAfter calls).checkPeer callId = false

/-! ## Digits -/

/-- What a character adds to the hash. -/
def callDigit (symbol : Char) : Int :=
  if 'A' ≤ symbol then (symbol.toNat : Int) - 'A'.toNat + 10 else (symbol.toNat : Int) - '0'.toNat

def callNumber (callId : List Char) : Int :=
  value 36 (callId.map callDigit)

theorem callDigit_bounds : ∀ symbol ∈ callSymbols,
    -1 ≤ callDigit symbol ∧ callDigit symbol < 36 := by
  decide

theorem callDigit_nonneg : ∀ symbol ∈ CharTable.alphanum.chars, 0 ≤ callDigit symbol := by
  decide

theorem callDigit_injective : ∀ symbol ∈ callSymbols, ∀ other ∈ callSymbols,
    callDigit symbol = callDigit other → symbol = other := by
  decide +kernel

theorem callDigit_lt_iff : ∀ symbol ∈ CharTable.alphanum.chars,
    ∀ other ∈ CharTable.alphanum.chars, callDigit symbol < callDigit other ↔ symbol < other := by
  decide +kernel

/-- The two additions of the loop, in the 32 bits of the hash. -/
def callAddend (symbol : Char) : UInt32 :=
  UInt32.ofNat symbol.toNat - UInt32.ofNat '0'.toNat +
    if 'A' ≤ symbol then UInt32.ofNat '0'.toNat + 10 - UInt32.ofNat 'A'.toNat else 0

theorem callAddend_modEq : ∀ symbol ∈ callSymbols,
    ((callAddend symbol).toNat : Int) ≡ callDigit symbol [ZMOD 2 ^ 32] := by
  decide +kernel

theorem hashCallIdLoop_cons (count : Nat) (symbol : Char) (callId : List Char) (hash : UInt32) :
    hashCallIdLoop (count + 1) (symbol :: callId) hash =
      hashCallIdLoop count callId (hash * 36 + callAddend symbol) := by
  rw [hashCallIdLoop, callAddend]
  split_ifs
  · rw [UInt32.add_assoc]
  · rw [UInt32.add_zero]

/-- The loop computes the number of the characters it takes, modulo the size of
the hash. -/
theorem hashCallIdLoop_modEq {count : Nat} {callId : List Char}
    (symbols : ∀ symbol ∈ callId, symbol ∈ callSymbols) (hash : UInt32) (taken : List Char)
    (isNumber : (hash.toNat : Int) ≡ callNumber taken [ZMOD 2 ^ 32]) :
    ((hashCallIdLoop count callId hash).1.toNat : Int) ≡
        callNumber (taken ++ callId.take count) [ZMOD 2 ^ 32] ∧
      (hashCallIdLoop count callId hash).2 = callId.drop count := by
  induction count generalizing callId hash taken with
  | zero => simpa [hashCallIdLoop] using isNumber
  | succ count ih =>
      cases callId with
      | nil => simpa [hashCallIdLoop] using isNumber
      | cons symbol callId =>
          rw [List.forall_mem_cons] at symbols
          have next : ((hash * 36 + callAddend symbol).toNat : Int) ≡
              callNumber (taken ++ [symbol]) [ZMOD 2 ^ 32] := by
            rw [callNumber, List.map_append, List.map_singleton, value_append_singleton,
              UInt32.toNat_add, UInt32.toNat_mul]
            push_cast
            refine (Int.mod_modEq _ _).trans (.add ((Int.mod_modEq _ _).trans ?_)
              (callAddend_modEq symbol symbols.1))
            exact isNumber.mul_right 36
          have step := ih symbols.2 _ _ next
          rw [List.append_assoc, List.singleton_append] at step
          rw [List.take_succ_cons, List.drop_succ_cons, hashCallIdLoop_cons]
          exact step

/-! ## Hashes of both lengths -/

theorem hashCallId_modEq {callId : List Char} (symbols : ∀ symbol ∈ callId, symbol ∈ callSymbols)
    (short : callId.length ≤ 6) :
    ((hashCallId callId).toNat : Int) ≡ callNumber callId [ZMOD 2 ^ 32] := by
  obtain ⟨number, rest⟩ := @hashCallIdLoop_modEq 6 _ symbols 0 [] (by rfl)
  rw [List.nil_append, List.take_of_length_le short] at number
  rw [List.drop_eq_nil_of_le short] at rest
  rw [hashCallId]
  generalize hashCallIdLoop 6 callId 0 = result at number rest
  obtain ⟨hash, remaining⟩ := result
  obtain rfl : remaining = [] := rest
  exact number

theorem hashCallId_eq_of_callNumber_eq {callId other : List Char}
    (symbols : ∀ symbol ∈ callId, symbol ∈ callSymbols) (short : callId.length ≤ 6)
    (otherSymbols : ∀ symbol ∈ other, symbol ∈ callSymbols) (otherShort : other.length ≤ 6)
    (same : callNumber other = callNumber callId) : hashCallId other = hashCallId callId := by
  have modEq := (hashCallId_modEq otherSymbols otherShort).trans
    (same ▸ (hashCallId_modEq symbols short).symm)
  have lt := (hashCallId callId).toNat_lt
  have otherLt := (hashCallId other).toNat_lt
  apply UInt32.toNat_inj.mp
  rw [Int.ModEq, Int.emod_eq_of_lt (by omega) (by omega),
    Int.emod_eq_of_lt (by omega) (by omega)] at modEq
  exact_mod_cast modEq

/-- Seven bits of two more characters leave the mark alone. -/
theorem le_toNat_marked (hash symbol next : UInt32) :
    2 ^ 31 ≤ ((hash ||| (0x80000000 : UInt32)) ^^^ (symbol &&& (0x7F : UInt32)) ^^^
      ((next &&& (0x7F : UInt32)) <<< (7 : UInt32))).toNat := by
  have low (bits : UInt32) {i : Nat} (above : 7 ≤ i) :
      (bits &&& (0x7F : UInt32)).toNat.testBit i = false := by
    apply Nat.testBit_lt_two_pow
    rw [UInt32.toNat_and]
    exact Nat.and_le_right.trans_lt
      ((show 127 < 2 ^ 7 by decide).trans_le (Nat.pow_le_pow_right (by decide) above))
  have marked : (0x80000000 : UInt32).toNat.testBit 31 = true := by decide +kernel
  apply Nat.ge_two_pow_of_testBit
  rw [UInt32.toNat_xor, UInt32.toNat_xor, UInt32.toNat_or, UInt32.toNat_shiftLeft,
    Nat.testBit_xor, Nat.testBit_xor, Nat.testBit_or, marked, low symbol (by decide),
    Nat.testBit_mod_two_pow, Nat.testBit_shiftLeft]
  have shifted := @low next (31 - (7 : UInt32).toNat % 32) (by decide)
  rw [shifted]
  simp

/-- Longer callsigns are marked in the top bit. -/
theorem le_hashCallId {callId : List Char} (symbols : ∀ symbol ∈ callId, symbol ∈ callSymbols)
    (long : 6 < callId.length) : 2 ^ 31 ≤ (hashCallId callId).toNat := by
  have rest := (@hashCallIdLoop_modEq 6 _ symbols 0 [] (by rfl)).2
  rw [hashCallId]
  generalize hashCallIdLoop 6 callId 0 = result at rest
  obtain ⟨hash, remaining⟩ := result
  cases remaining with
  | nil =>
      have length := congrArg List.length rest
      simp at length
      omega
  | cons symbol remaining => exact le_toNat_marked hash _ _

theorem xor_or_xor_of_lt {bits : Nat} (small : bits < 2 ^ 31) :
    ((bits ^^^ 48) ||| 2 ^ 31) ^^^ 48 = 2 ^ 31 + bits := by
  have marked := Nat.two_pow_add_eq_or_of_lt small 1
  rw [Nat.mul_one] at marked
  rw [marked]
  apply Nat.eq_of_testBit_eq
  intro i
  rw [Nat.testBit_xor, Nat.testBit_or, Nat.testBit_or, Nat.testBit_xor]
  by_cases top : i = 31
  · subst top
    rw [show Nat.testBit 48 31 = false by decide, Nat.testBit_two_pow_self]
    simp
  · rw [Nat.testBit_two_pow_of_ne (Ne.symm top)]
    simp

/-- A seventh character `0` leaves all but the mark to the first six. -/
theorem toNat_hashCallId_append_zero {callId : List Char} {bits : Nat}
    (symbols : ∀ symbol ∈ callId, symbol ∈ callSymbols) (six : callId.length = 6)
    (isNumber : callNumber callId = (bits ^^^ 48 : Nat)) (small : bits < 2 ^ 31) :
    (hashCallId (callId ++ ['0'])).toNat = 2 ^ 31 + bits := by
  have allSymbols : ∀ symbol ∈ callId ++ ['0'], symbol ∈ callSymbols := by
    rw [List.forall_mem_append]
    exact ⟨symbols, by decide⟩
  obtain ⟨number, rest⟩ := @hashCallIdLoop_modEq 6 _ allSymbols 0 [] (by rfl)
  rw [List.nil_append, List.take_left' six, isNumber] at number
  rw [List.drop_left' six] at rest
  have xorSmall : bits ^^^ 48 < 2 ^ 31 := Nat.xor_lt_two_pow small (by decide)
  rw [hashCallId]
  generalize hashCallIdLoop 6 (callId ++ ['0']) 0 = result at number rest
  obtain ⟨hash, remaining⟩ := result
  obtain rfl : remaining = ['0'] := rest
  have hashEq : hash.toNat = bits ^^^ 48 := by
    have hashLt := hash.toNat_lt
    dsimp only at number
    rw [Int.ModEq, Int.emod_eq_of_lt (by omega) (by omega),
      Int.emod_eq_of_lt (by omega) (by omega)] at number
    exact_mod_cast number
  have noNext : (0 &&& (0x7F : UInt32)) <<< (7 : UInt32) = 0 := by decide
  simp only [List.head?_nil, Option.elim_none, noNext, UInt32.xor_zero]
  rw [UInt32.toNat_xor, UInt32.toNat_or, hashEq, ← xor_or_xor_of_lt small]
  rfl

/-! ## Callsigns with the same hash -/

theorem alphanum_subset : ∀ symbol ∈ CharTable.alphanum.chars, symbol ∈ callSymbols :=
  fun _ isSymbol => List.mem_cons_of_mem _ isSymbol

variable {callId : List Char}

theorem IsStandardCallId.callSymbols (standard : IsStandardCallId callId) :
    ∀ symbol ∈ callId, symbol ∈ callSymbols :=
  fun symbol isSymbol => alphanum_subset symbol (standard.symbols symbol isSymbol)

/-- Zeros in front do not count. -/
theorem exists_confused_of_short (standard : IsStandardCallId callId)
    (short : callId.length < 6) :
    ∃ other, IsCallId other ∧ other ≠ callId ∧ hashCallId other = hashCallId callId := by
  have symbols : ∀ symbol ∈ '0' :: callId, symbol ∈ callSymbols := by
    rw [List.forall_mem_cons]
    exact ⟨by decide, standard.callSymbols⟩
  have le_length := standard.le_length
  refine ⟨'0' :: callId, ⟨symbols, ?_, ?_⟩, ?_, ?_⟩
  · rw [List.length_cons]
    omega
  · rw [List.length_cons]
    omega
  · exact List.cons_ne_self '0' callId
  · apply hashCallId_eq_of_callNumber_eq standard.callSymbols short.le symbols short
    have zero : callDigit '0' = 0 := by decide
    rw [callNumber, List.map_cons, value_cons, zero, zero_mul, zero_add]
    rfl

/-- The character after another one in the order of the digits. -/
theorem exists_callDigit_succ : ∀ symbol ∈ CharTable.alphanum.chars, symbol ≠ 'Z' →
    ∃ next ∈ CharTable.alphanum.chars, callDigit next = callDigit symbol + 1 := by
  decide +kernel

/-- A slash borrows what makes the next digit a `Z`. -/
theorem exists_confused_of_z {before after : List Char} {symbol : Char}
    (standard : IsStandardCallId (before ++ symbol :: 'Z' :: after)) (notZ : symbol ≠ 'Z') :
    ∃ other, IsCallId other ∧ other ≠ before ++ symbol :: 'Z' :: after ∧
      hashCallId other = hashCallId (before ++ symbol :: 'Z' :: after) := by
  have parts := standard.symbols
  simp only [List.forall_mem_append, List.forall_mem_cons] at parts
  obtain ⟨next, isSymbol, isNext⟩ := exists_callDigit_succ symbol parts.2.1 notZ
  have symbols : ∀ other ∈ before ++ next :: '/' :: after, other ∈ callSymbols := by
    simp only [List.forall_mem_append, List.forall_mem_cons]
    exact ⟨fun other isOther => alphanum_subset other (parts.1 other isOther),
      alphanum_subset next isSymbol, by decide,
      fun other isOther => alphanum_subset other (parts.2.2.2 other isOther)⟩
  have sameLength : (before ++ next :: '/' :: after).length =
      (before ++ symbol :: 'Z' :: after).length := by
    simp
  have le_length := standard.le_length
  have length_le := standard.length_le
  refine ⟨before ++ next :: '/' :: after, ⟨symbols, by omega, by omega⟩, ?_, ?_⟩
  · simp
  · apply hashCallId_eq_of_callNumber_eq standard.callSymbols length_le symbols
      (by omega)
    have borrowed : value 36 ((before ++ [next, '/']).map callDigit) =
        value 36 ((before ++ [symbol, 'Z']).map callDigit) := by
      have slash : callDigit '/' = -1 := by decide
      have z : callDigit 'Z' = 35 := by decide
      rw [List.append_cons, List.append_cons before symbol]
      simp only [List.map_append, List.map_singleton, value_append_singleton, isNext, slash, z]
      ring
    have whole := value_append_of_value_eq borrowed (after.map callDigit)
    simpa [callNumber] using whole

theorem callDigit_charn : ∀ n < 36, callDigit (charn n .alphanum) = n := by
  decide +kernel

theorem callNumber_unpackChars {count n : Nat} (fits : n < 36 ^ count) :
    callNumber (unpackChars 36 .alphanum count n) = n := by
  induction count generalizing n with
  | zero =>
      obtain rfl : n = 0 := by simpa using fits
      rfl
  | succ count ih =>
      have before : n / 36 < 36 ^ count := by
        rw [Nat.div_lt_iff_lt_mul (by decide), ← pow_succ]
        exact fits
      have prefixNumber := ih before
      rw [callNumber] at prefixNumber
      rw [unpackChars, callNumber, List.map_append, List.map_singleton, value_append_singleton,
        prefixNumber, callDigit_charn _ (Nat.mod_lt _ (by decide))]
      omega

theorem callNumber_lt {count : Nat} (symbols : ∀ symbol ∈ callId, symbol ∈ callSymbols)
    (atMost : callId.length ≤ count) : callNumber callId < 36 ^ count := by
  have lt : callNumber callId < 36 ^ callId.length := by
    have below := @value_lt 36 (callId.map callDigit) (by decide)
      (List.forall_mem_map.mpr fun symbol isSymbol =>
        (callDigit_bounds symbol (symbols symbol isSymbol)).2)
    rwa [List.length_map] at below
  exact lt.trans_le (pow_le_pow_right₀ (by decide) atMost)

theorem mem_alphanum_of_mem_unpackChars {count n : Nat} :
    ∀ symbol ∈ unpackChars 36 .alphanum count n, symbol ∈ CharTable.alphanum.chars := by
  induction count generalizing n with
  | zero => simp [unpackChars]
  | succ count ih =>
      rw [unpackChars, List.forall_mem_append, List.forall_mem_singleton]
      exact ⟨ih, charn_mem (Nat.mod_lt n (by decide))⟩

/-- From bit 31 on a number of six characters is the hash of a longer
callsign. -/
theorem exists_confused_of_le (standard : IsStandardCallId callId)
    (large : 2 ^ 31 ≤ callNumber callId) :
    ∃ other, IsCallId other ∧ other ≠ callId ∧ hashCallId other = hashCallId callId := by
  have lt := callNumber_lt standard.callSymbols standard.length_le
  obtain ⟨bits, number⟩ : ∃ bits : Nat, callNumber callId = 2 ^ 31 + bits :=
    ⟨(callNumber callId - 2 ^ 31).toNat, by omega⟩
  have xorSmall : bits ^^^ 48 < 2 ^ 25 := Nat.xor_lt_two_pow (by omega) (by decide)
  have isNumber : callNumber (unpackChars 36 .alphanum 6 (bits ^^^ 48)) = (bits ^^^ 48 : Nat) :=
    callNumber_unpackChars (by omega)
  have six : (unpackChars 36 .alphanum 6 (bits ^^^ 48)).length = 6 := length_unpackChars _ _ _ _
  have symbols : ∀ symbol ∈ unpackChars 36 .alphanum 6 (bits ^^^ 48), symbol ∈ callSymbols :=
    fun symbol isSymbol => alphanum_subset symbol (mem_alphanum_of_mem_unpackChars symbol isSymbol)
  have length_le := standard.length_le
  refine ⟨unpackChars 36 .alphanum 6 (bits ^^^ 48) ++ ['0'], ⟨?_, ?_, ?_⟩, ?_, ?_⟩
  · rw [List.forall_mem_append]
    exact ⟨symbols, by decide⟩
  · simp [six]
  · simp [six]
  · intro same
    rw [← same] at length_le
    simp [six] at length_le
  · have ofOther := toNat_hashCallId_append_zero symbols six isNumber (by omega)
    have ofCallId := hashCallId_modEq standard.callSymbols length_le
    have hashLt := (hashCallId callId).toNat_lt
    rw [Int.ModEq, Int.emod_eq_of_lt (by omega) (by omega),
      Int.emod_eq_of_lt (by omega) (by omega)] at ofCallId
    apply UInt32.toNat_inj.mp
    omega

/-! ## Callsigns that no other one has the hash of -/

theorem callNumber_nonneg (symbols : ∀ symbol ∈ callId, symbol ∈ CharTable.alphanum.chars) :
    0 ≤ callNumber callId :=
  value_nonneg (by decide)
    (List.forall_mem_map.mpr fun symbol isSymbol =>
      callDigit_nonneg symbol (symbols symbol isSymbol))

theorem neg_le_callNumber (symbols : ∀ symbol ∈ callId, symbol ∈ callSymbols)
    (short : callId.length ≤ 6) : -(2 ^ 26) ≤ callNumber callId := by
  have atLeast := @le_value_of_le 36 (callId.map callDigit) 1 (by decide)
    (List.forall_mem_map.mpr fun symbol isSymbol =>
      (callDigit_bounds symbol (symbols symbol isSymbol)).1)
  have power : (36 : Int) ^ callId.length ≤ 36 ^ 6 := pow_le_pow_right₀ (by decide) short
  rw [List.length_map] at atLeast
  rw [callNumber]
  omega

theorem callNumber_pos (symbols : ∀ symbol ∈ callId, symbol ∈ CharTable.alphanum.chars)
    (noZero : callId.head? ≠ some '0') (nonempty : callId ≠ []) : 0 < callNumber callId := by
  cases callId with
  | nil => exact absurd rfl nonempty
  | cons symbol callId =>
      rw [List.forall_mem_cons] at symbols
      have positive : ∀ symbol ∈ CharTable.alphanum.chars, symbol ≠ '0' → 0 < callDigit symbol := by
        decide
      have first := positive symbol symbols.1 (by simpa using noZero)
      have rest := callNumber_nonneg symbols.2
      rw [callNumber] at rest
      rw [callNumber, List.map_cons, value_cons]
      positivity

/-- Without a `Z` after the first character no slash can borrow, so the number
tells the characters. -/
theorem eq_of_callNumber_eq (symbols : ∀ symbol ∈ callId, symbol ∈ CharTable.alphanum.chars)
    (noZero : callId.head? ≠ some '0') (noZ : 'Z' ∉ callId.tail) {other : List Char}
    (otherSymbols : ∀ symbol ∈ other, symbol ∈ callSymbols)
    (otherShort : other.length ≤ callId.length) (same : callNumber other = callNumber callId) :
    other = callId := by
  induction callId using List.reverseRecOn generalizing other with
  | nil => exact List.eq_nil_of_length_eq_zero (Nat.le_zero.mp otherShort)
  | append_singleton callId last ih =>
      have positive := callNumber_pos symbols noZero (by simp)
      rw [List.forall_mem_append, List.forall_mem_singleton] at symbols
      rcases List.eq_nil_or_concat other with rfl | ⟨other, otherLast, rfl⟩
      · exact absurd positive (same ▸ lt_irrefl 0)
      rw [List.concat_eq_append] at *
      rw [List.forall_mem_append, List.forall_mem_singleton] at otherSymbols
      have shorter : other.length ≤ callId.length := by simpa using otherShort
      have bounds := callDigit_bounds otherLast otherSymbols.2
      cases callId with
      | nil =>
          obtain rfl : other = [] := List.eq_nil_of_length_eq_zero (Nat.le_zero.mp shorter)
          have digits : callDigit otherLast = callDigit last := by
            simpa [callNumber, value] using same
          rw [callDigit_injective _ otherSymbols.2 _ (alphanum_subset _ symbols.2) digits]
      | cons first callId =>
          rw [List.cons_append, List.tail_cons, List.mem_append, List.mem_singleton, not_or] at noZ
          have below : ∀ symbol ∈ CharTable.alphanum.chars, 'Z' ≠ symbol →
              0 ≤ callDigit symbol ∧ callDigit symbol < 35 := by
            decide
          have lastBounds := below last symbols.2 noZ.2
          have close : |callDigit otherLast - callDigit last| < 36 := by
            rw [abs_lt]
            omega
          simp only [callNumber, List.map_append, List.map_singleton] at same
          obtain ⟨sameLast, sameValue⟩ := eq_of_value_append_eq close same
          rw [callDigit_injective _ otherSymbols.2 _ (alphanum_subset _ symbols.2) sameLast,
            ih symbols.1 noZero noZ.1 otherSymbols.1 shorter sameValue]

theorem eq_of_hashCallId_eq (standard : IsStandardCallId callId) (six : callId.length = 6)
    (noZ : 'Z' ∉ callId.tail) (small : callNumber callId < 2 ^ 31) {other : List Char}
    (isCallId : IsCallId other) (same : hashCallId other = hashCallId callId) :
    other = callId := by
  have ofCallId := hashCallId_modEq standard.callSymbols standard.length_le
  have nonneg := callNumber_nonneg standard.symbols
  have hashLt := (hashCallId callId).toNat_lt
  have hashEq : ((hashCallId callId).toNat : Int) = callNumber callId := by
    rwa [Int.ModEq, Int.emod_eq_of_lt (by omega) (by omega),
      Int.emod_eq_of_lt (by omega) (by omega)] at ofCallId
  have short : other.length ≤ 6 := by
    by_contra long
    have marked := le_hashCallId isCallId.symbols (Nat.not_le.mp long)
    rw [same] at marked
    omega
  have ofOther := hashCallId_modEq isCallId.symbols short
  have atLeast := neg_le_callNumber isCallId.symbols short
  have below := callNumber_lt isCallId.symbols short
  rw [same, hashEq] at ofOther
  refine eq_of_callNumber_eq standard.symbols standard.noZero noZ isCallId.symbols (by omega) ?_
  have multiple := ofOther.dvd
  omega

/-! ## The order of callsigns -/

theorem callNumber_lt_iff {other : List Char}
    (symbols : ∀ symbol ∈ callId, symbol ∈ CharTable.alphanum.chars)
    (otherSymbols : ∀ symbol ∈ other, symbol ∈ CharTable.alphanum.chars)
    (sameLength : callId.length = other.length) :
    callNumber callId < callNumber other ↔ List.Lex (· < ·) callId other := by
  have inRange {text : List Char} (symbols : ∀ symbol ∈ text, symbol ∈ CharTable.alphanum.chars) :
      ∀ digit ∈ text.map callDigit, 0 ≤ digit ∧ digit < 36 :=
    List.forall_mem_map.mpr fun symbol isSymbol =>
      ⟨callDigit_nonneg symbol (symbols symbol isSymbol),
        (callDigit_bounds symbol (alphanum_subset symbol (symbols symbol isSymbol))).2⟩
  induction callId generalizing other with
  | nil =>
      obtain rfl : other = [] := List.eq_nil_of_length_eq_zero sameLength.symm
      simp
  | cons symbol callId ih =>
      cases other with
      | nil => cases sameLength
      | cons otherSymbol other =>
          rw [List.forall_mem_cons] at symbols otherSymbols
          have rest := ih symbols.2 otherSymbols.2 (Nat.succ.inj sameLength)
          have sameDigit : callDigit symbol = callDigit otherSymbol ↔ symbol = otherSymbol :=
            ⟨callDigit_injective _ (alphanum_subset _ symbols.1) _
              (alphanum_subset _ otherSymbols.1), congrArg callDigit⟩
          rw [callNumber, callNumber, List.map_cons, List.map_cons,
            value_cons_lt_value_cons_iff (by simpa using sameLength) (inRange symbols.2)
              (inRange otherSymbols.2) (by decide),
            callDigit_lt_iff _ symbols.1 _ otherSymbols.1, sameDigit, List.cons_lex_cons_iff]
          exact or_congr_right (and_congr_right fun _ => rest)

/-! ## The table -/

/-- What the table holds is the hash of a peer that was added. -/
theorem exists_mem_of_mem_peers {calls : List (List Char)} {hash : UInt32}
    (found : hash ∈ (peersAfter calls).peers.toList.take (peersAfter calls).peersIdx) :
    ∃ peer ∈ calls, hashCallId peer = hash := by
  induction calls using List.reverseRecOn with
  | nil => simp [peersAfter, PeerTable.initial] at found
  | append_singleton calls newPeer ih =>
      have ofBefore (before : hash ∈
          (peersAfter calls).peers.toList.take (peersAfter calls).peersIdx) :
          ∃ peer ∈ calls ++ [newPeer], hashCallId peer = hash := by
        obtain ⟨peer, isPeer, isHash⟩ := ih before
        exact ⟨peer, List.mem_append_left _ isPeer, isHash⟩
      rw [peersAfter_append_singleton, PeerTable.addPeer] at found
      split at found
      · exact ofBefore found
      · dsimp only at found
        split at found
        · simp at found
        · have inTable : (peersAfter calls).peersIdx < (peersAfter calls).peers.toList.length := by
            simpa using (peersAfter calls).peersIdx_lt
          rw [Vector.toList_set, List.take_add_one, List.take_set_of_le (Nat.le_refl _),
            List.getElem?_set_self inTable, Option.toList_some, List.mem_append,
            List.mem_singleton] at found
          rcases found with before | rfl
          · exact ofBefore before
          · exact ⟨newPeer, by simp, rfl⟩

theorem neverConfused_of_hash_ne (hashNe : ∀ other, IsCallId other → other ≠ callId →
    hashCallId other ≠ hashCallId callId) : NeverConfused callId := by
  refine ⟨hashNe, fun calls others => ?_⟩
  by_contra known
  rw [Bool.not_eq_false, PeerTable.checkPeer_eq_true_iff] at known
  obtain ⟨peer, isPeer, isHash⟩ := exists_mem_of_mem_peers known
  obtain ⟨isCallId, ne⟩ := others peer isPeer
  exact hashNe peer isCallId ne isHash

/-! ## Which callsigns are never confused -/

/-- A first `Z` after the first character follows another character, or else the
callsign starts with two. -/
theorem exists_append_z_of_mem_tail (isMem : 'Z' ∈ callId.tail) :
    (∃ before symbol after, callId = before ++ symbol :: 'Z' :: after ∧ symbol ≠ 'Z') ∨
      ∃ after, callId = 'Z' :: 'Z' :: after := by
  cases callId with
  | nil => cases isMem
  | cons first callId =>
      rw [List.tail_cons] at isMem
      obtain ⟨before, after, rfl, notBefore⟩ := List.eq_append_cons_of_mem isMem
      rcases List.eq_nil_or_concat before with rfl | ⟨before, symbol, rfl⟩
      · by_cases isZ : first = 'Z'
        · exact Or.inr ⟨after, by rw [isZ, List.nil_append]⟩
        · exact Or.inl ⟨[], first, after, rfl, isZ⟩
      · refine Or.inl ⟨first :: before, symbol, after, by simp, ?_⟩
        rintro rfl
        exact notBefore (by simp)

theorem zik0zj_symbols : ∀ symbol ∈ "ZIK0ZJ".toList, symbol ∈ CharTable.alphanum.chars := by
  decide

/-- The last number below bit 31. -/
theorem callNumber_zik0zj : callNumber "ZIK0ZJ".toList = 2 ^ 31 - 1 := by
  decide +kernel

/-- A standard callsign is told from all others by its hash exactly when it has
six characters, no `Z` after the first one, and a number below bit 31. -/
theorem neverConfused_iff (standard : IsStandardCallId callId) :
    NeverConfused callId ↔
      callId.length = 6 ∧ 'Z' ∉ callId.tail ∧
        ¬ List.Lex (· < ·) "ZIK0ZJ".toList callId := by
  have orderIff (six : callId.length = 6) :
      callNumber callId < 2 ^ 31 ↔ ¬ List.Lex (· < ·) "ZIK0ZJ".toList callId := by
    rw [← callNumber_lt_iff zik0zj_symbols standard.symbols six.symm, callNumber_zik0zj,
      Int.not_lt, Int.le_sub_one_iff]
  constructor
  · intro never
    have noOther : ¬ ∃ other, IsCallId other ∧ other ≠ callId ∧
        hashCallId other = hashCallId callId :=
      fun ⟨other, isCallId, ne, same⟩ => never.hash_ne other isCallId ne same
    have six : callId.length = 6 := by
      by_contra notSix
      have length_le := standard.length_le
      exact noOther (exists_confused_of_short standard (by omega))
    have small : callNumber callId < 2 ^ 31 := by
      by_contra large
      exact noOther (exists_confused_of_le standard (Int.not_lt.mp large))
    refine ⟨six, fun isMem => ?_, (orderIff six).mp small⟩
    rcases exists_append_z_of_mem_tail isMem with
      ⟨before, symbol, after, rfl, notZ⟩ | ⟨after, rfl⟩
    · exact noOther (exists_confused_of_z standard notZ)
    · have ordered := (orderIff six).mp small
      apply ordered
      rw [show "ZIK0ZJ".toList = 'Z' :: 'I' :: "K0ZJ".toList from rfl, List.cons_lex_cons_iff,
        List.cons_lex_cons_iff]
      exact Or.inr ⟨rfl, Or.inl (by decide)⟩
  · rintro ⟨six, noZ, ordered⟩
    exact neverConfused_of_hash_ne fun other isCallId ne same =>
      ne (eq_of_hashCallId_eq standard six noZ ((orderIff six).mpr ordered) isCallId same)

theorem neverConfused_sa0prf : NeverConfused "SA0PRF".toList :=
  (neverConfused_iff ⟨by decide, by decide, by decide, by decide⟩).mpr
    ⟨by decide, by decide, by decide⟩

/-- The number of `ZL1BYV` reaches bit 31, where longer callsigns are marked. -/
theorem not_neverConfused_zl1byv :
    IsStandardCallId "ZL1BYV".toList ∧ ¬ NeverConfused "ZL1BYV".toList := by
  refine ⟨⟨by decide, by decide, by decide, by decide⟩, fun never => ?_⟩
  have same : hashCallId "ZL1ABC/1".toList = hashCallId "ZL1BYV".toList := by
    decide +kernel
  exact never.hash_ne "ZL1ABC/1".toList ⟨by decide, by decide, by decide⟩ (by decide) same

end RtlsdrFt8d
