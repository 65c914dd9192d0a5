import RtlsdrFt8d.BitStrings
import RtlsdrFt8d.CNumerals
import RtlsdrFt8d.ConvolutionalCode

/-!
# WSPR symbols

`wspr` packs a callsign, a locator and a power into 50 bits, encodes them with a
convolutional code of constraint length 32, and writes the 162 code bits in
bit-reversed order over a synchronization vector.
-/

namespace RtlsdrFt8d

namespace Wspr

open BitStrings ConvolutionalCode

/-- What `wspr` does not initialise: the bytes behind its two text buffers, `ng`,
and `j0` in each round of the interleaver. -/
structure StackContents where
  behindBuf : List Char
  behindL : List Char
  ng : Int
  j0 : Nat → BitVec 8

/-! ## Text buffers -/

/-- A buffer of `size` bytes after `strncpy`. -/
def strncpy (size : Nat) (text : List Char) : List Char :=
  text.take size ++ List.replicate (size - text.length) '\x00'

/-- `to_upper`, which stops at a NUL of the memory from its argument on. -/
def toUpper : List Char → List Char
  | [] => []
  | symbol :: memory => if symbol = '\x00' then symbol :: memory
      else symbol.toUpper :: toUpper memory

def cString (memory : List Char) : List Char :=
  memory.takeWhile (· ≠ '\x00')

def strlen (memory : List Char) : Int :=
  (cString memory).length

/-- `c[i]`. -/
def cell (memory : List Char) (i : Nat) : Char :=
  memory.getD i '\x00'

def fromZero (symbol : Char) : Int :=
  symbol.toNat - '0'.toNat

def fromA (symbol : Char) : Int :=
  symbol.toNat - 'A'.toNat

/-- `c[i] >= '0' && c[i] <= '9' ? c[i] - '0' : c[i] - 'A' + 10`. -/
def alphanumericValue (symbol : Char) : Int :=
  if '0' ≤ symbol ∧ symbol ≤ '9' then fromZero symbol else fromA symbol + 10

/-! ## Packing

An `unsigned long` is the remainder of the integer that stands for it here. -/

/-- `ng`, `nadd` and `c` behind the branch for a callsign with a stroke. -/
def packStroke (stack : StackContents) (c : List Char) : Int × Int × List Char :=
  match (cString c).idxOf? '/' with
  | none => (stack.ng, 0, c)
  | some i =>
      let n := strlen c - i - 1
      let c := c.set i '\x00'
      let ng :=
        if n = 1 then
          60000 - 32768 +
            (if '0' ≤ cell c (i + 1) ∧ cell c (i + 1) ≤ '9' then fromZero (cell c (i + 1))
            else if cell c (i + 1) = ' ' then 38 else fromA (cell c (i + 1)) + 10)
        else stack.ng
      let ng :=
        if n = 2 then 60000 + 26 + 10 * fromZero (cell c (i + 1)) + fromZero (cell c (i + 2))
        else ng
      if n > 2 then
        let ng := if i < 3 then 36 else alphanumericValue (cell c (i - 3))
        let ng := 37 * ng + (if i < 2 then 36 else alphanumericValue (cell c (i - 2)))
        let ng := 37 * ng + (if i < 1 then 36 else alphanumericValue (cell c (i - 1)))
        -- Unsigned, a negative `ng` is not less than 32768 either.
        if 0 ≤ ng ∧ ng < 32768 then (ng, 1, c.drop (i + 1))
        else (ng - 32768, 2, c.drop (i + 1))
      else (ng, 2, c)

/-- The index of the last prefix digit. -/
def prefixDigit (c : List Char) : Nat :=
  if (cell c 2).isDigit then 2 else if (cell c 1).isDigit then 1 else 0

/-- `n1`. -/
def packCall (c : List Char) : Int :=
  let i := prefixDigit c
  let n := strlen c - i - 1
  let n1 := if i < 2 then 36 else alphanumericValue (cell c (i - 2))
  let n1 := 36 * n1 + (if i < 1 then 36 else alphanumericValue (cell c (i - 1)))
  let n1 := 10 * n1 + fromZero (cell c i)
  let n1 := 27 * n1 + (if n < 1 then 26 else fromA (cell c (i + 1)))
  let n1 := 27 * n1 + (if n < 2 then 26 else fromA (cell c (i + 2)))
  27 * n1 + (if n < 3 then 26 else fromA (cell c (i + 3)))

/-- `ng` of a locator in `l`. -/
def packLocator (l : List Char) : Int :=
  180 * (179 - 10 * fromA (cell l 0) - fromZero (cell l 2)) + 10 * fromA (cell l 1) +
    fromZero (cell l 3)

/-- `corr`. -/
def corr : List Int :=
  [0, -1, 1, 0, -1, 2, 1, 0, -1, 1]

/-- `p`. -/
def correctedPower (p : Int) : Int :=
  if p > 60 then 60 else if p < 0 then 0 else p + corr.getD (p % 10).toNat 0

/-- `n1` and `n2`. -/
def packMessage (call l_pre dbm : List Char) (stack : StackContents) : BitVec 64 × BitVec 64 :=
  let c := toUpper (strncpy 16 call ++ stack.behindBuf)
  let (ng, nadd, c) := packStroke stack c
  let ng := if nadd = 0 then packLocator (toUpper (strncpy 4 l_pre ++ stack.behindL)) else ng
  let p := correctedPower (CNumerals.atoi dbm)
  (BitVec.ofInt 64 (packCall c),
    (BitVec.ofInt 64 ng <<< 7) ||| BitVec.ofInt 64 (p + 64 + nadd))

def packed (n1 n2 : BitVec 64) : List (BitVec 8) :=
  [(n1 >>> 20).setWidth 8, (n1 >>> 12).setWidth 8, (n1 >>> 4).setWidth 8,
    ((n1 &&& 0x0f) <<< 4 ||| (n2 >>> 18 &&& 0x0f)).setWidth 8, (n2 >>> 10).setWidth 8,
    (n2 >>> 2).setWidth 8, ((n2 &&& 0x03) <<< 6).setWidth 8, 0, 0, 0, 0]

/-! ## Convolution -/

/-- `poly`: the upper half of the `unsigned long` that `nstate` becomes is masked. -/
def poly : List (BitVec 32) :=
  [0xf2d05351, 0xe4613c47]

/-- The Layland-Lushbaugh polynomials as a code. -/
def code : Code 32 where
  first := 0xf2d05351
  second := 0xe4613c47
  taps_newest := rfl

theorem land_pred_lt {n : Nat} (nonzero : n ≠ 0) : n &&& (n - 1) < n :=
  Nat.lt_of_le_of_lt Nat.and_le_right (Nat.sub_one_lt nonzero)

/-- `even` after `while (n) { even = 1 - even; n = n & (n - 1); }`. -/
def parityLoop (n even : Nat) : Nat :=
  if n = 0 then even else parityLoop (n &&& (n - 1)) (1 - even)
termination_by n
decreasing_by exact land_pred_lt ‹_›

theorem parityLoop_eq (n even : Nat) (single : even ≤ 1) :
    parityLoop n even = if parity n then 1 - even else even := by
  induction n, even using parityLoop.induct with
  | case1 even => simp [parityLoop]
  | case2 n even nonzero ih =>
      rw [parityLoop, if_neg nonzero, ih (by omega), parity_land_pred nonzero]
      cases parity n with
      | true => rfl
      | false =>
          simp
          omega

theorem parityLoop_zero (n : Nat) : parityLoop n 0 = (parity n).toNat := by
  rw [parityLoop_eq n 0 (Nat.zero_le 1)]
  cases parity n <;> rfl

/-- `nstate` and what is in `symbol` after a bit of `packed[j]`. -/
def convolveBit (byte : BitVec 8) (state : BitVec 32 × List Nat) (i : Nat) :
    BitVec 32 × List Nat :=
  let nstate := (state.1 <<< 1) ||| ((byte >>> i) &&& 1).setWidth 32
  (nstate, state.2 ++ poly.map fun polynomial => parityLoop (nstate &&& polynomial).toNat 0)

def convolveByte (state : BitVec 32 × List Nat) (byte : BitVec 8) : BitVec 32 × List Nat :=
  [7, 6, 5, 4, 3, 2, 1, 0].foldl (convolveBit byte) state

/-- `symbol`. -/
def convolve (bytes : List (BitVec 8)) : List Nat :=
  (bytes.foldl convolveByte (0, [])).2

theorem convolveBit_eq (byte : BitVec 8) (state : BitVec 32 × List Nat) (i : Nat) :
    convolveBit byte state i =
      (state.1.shiftConcat (byte.getLsbD i),
        state.2 ++ (code.sent (state.1.shiftConcat (byte.getLsbD i))).map Bool.toNat) := by
  have shifted : (state.1 <<< 1) ||| ((byte >>> i) &&& 1).setWidth 32 =
      state.1.shiftConcat (byte.getLsbD i) := by
    apply BitVec.eq_of_getLsbD_eq
    intro bit inside
    cases bit with
    | zero =>
        suffices byte.getLsbD i = true → i < 32 by simpa
        exact fun set => Nat.lt_trans (BitVec.lt_of_getLsbD set) (by decide)
    | succ bit => simp [inside]
  simp only [convolveBit, shifted, poly, code, Code.sent, List.map_cons, List.map_nil,
    parityLoop_zero]

/-- The bits of `packed` in the order in which they are encoded. -/
def packedBits (bytes : List (BitVec 8)) : List Bool :=
  bytes.flatMap fun byte => [7, 6, 5, 4, 3, 2, 1, 0].map byte.getLsbD

theorem foldl_convolve (bits : List Bool) (register : BitVec 32) (symbol : List Nat) :
    (bits.foldl (fun (state : BitVec 32 × List Nat) bit =>
        (state.1.shiftConcat bit,
          state.2 ++ (code.sent (state.1.shiftConcat bit)).map Bool.toNat))
      (register, symbol)).2 =
      symbol ++ (code.encode register bits).map Bool.toNat := by
  induction bits generalizing register symbol with
  | nil => simp [Code.encode]
  | cons bit bits ih =>
      rw [List.foldl_cons, ih, Code.encode, List.map_append, List.append_assoc]

theorem convolve_eq (bytes : List (BitVec 8)) :
    convolve bytes = (code.encode 0 (packedBits bytes)).map Bool.toNat := by
  have perBit := foldl_convolve (packedBits bytes) 0 []
  rw [packedBits, List.foldl_flatMap] at perBit
  simp only [List.foldl_map, List.nil_append] at perBit
  rw [packedBits, ← perBit, convolve]
  congr 2
  funext state byte
  rw [convolveByte]
  congr 1
  funext state i
  exact convolveBit_eq byte state i

/-- The bytes hold 28 bits of `n1` and 22 of `n2`. -/
theorem take_packedBits (n1 n2 : BitVec 64) :
    (packedBits (packed n1 n2)).take 50 =
      bitString 28 n1.toNat ++ bitString 22 n2.toNat := by
  simp [packedBits, packed, bitString, BitVec.testBit_toNat, -Nat.testBit_zero]

/-! ## Interleaving -/

def npr3 : Vector Nat 162 := #v[
  1, 1, 0, 0, 0, 0, 0, 0, 1, 0, 0, 0, 1, 1, 1, 0, 0, 0, 1, 0, 0, 1, 0, 1, 1, 1, 1, 0, 0, 0, 0, 0,
  0, 0, 1, 0, 0, 1, 0, 1, 0, 0, 0, 0, 0, 0, 1, 0, 1, 1, 0, 0, 1, 1, 0, 1, 0, 0, 0, 1, 1, 0, 1, 0,
  0, 0, 0, 1, 1, 0, 1, 0, 1, 0, 1, 0, 1, 0, 0, 1, 0, 0, 1, 0, 1, 1, 0, 0, 0, 1, 1, 0, 1, 0, 1, 0,
  0, 0, 1, 0, 0, 0, 0, 0, 1, 0, 0, 1, 0, 0, 1, 1, 1, 0, 1, 1, 0, 0, 1, 1, 0, 1, 0, 0, 0, 1, 1, 1,
  0, 0, 0, 0, 0, 1, 0, 1, 0, 0, 1, 1, 0, 0, 0, 0, 0, 0, 0, 1, 1, 0, 1, 0, 1, 1, 0, 0, 0, 1, 1, 0,
  0, 0]

/-- `j0` after the bits of `k` were shifted into it. -/
def bitReverse (k : Nat) (j0 : BitVec 8) : BitVec 8 :=
  CountedLoops.loop 8 (fun j j0 => BitVec.ofNat 8 (((k >>> j) &&& 1) ||| (j0.toNat <<< 1))) j0

theorem bitReverse_eq (k : Nat) (j0 : BitVec 8) :
    bitReverse k j0 = (BitVec.ofNat 8 k).reverse := by
  rw [← shiftedIn_width k j0, bitReverse, shiftedIn]
  congr 1
  funext j j0
  apply BitVec.eq_of_getLsbD_eq
  intro bit inside
  rw [BitVec.getLsbD_ofNat, Nat.testBit_or, Nat.testBit_and, Nat.testBit_shiftLeft,
    BitVec.getLsbD_shiftConcat]
  cases bit with
  | zero => simp
  | succ bit => simp [inside, BitVec.getLsbD, Nat.testBit_one_eq_true_iff_self_eq_zero]

/-- `j0` after the search of a round, if the search ends within 256 steps. -/
def findPosition (i : Nat) (j0 : BitVec 8) : Option (BitVec 8) :=
  search bitReverse (fun j0 => j0.toNat < 162) i 256 0 (-1) j0

theorem findPosition_eq {i : Nat} (j0 : BitVec 8) {position : Nat}
    (isPosition : (positions 8 162)[i]? = some position) :
    ∃ found, findPosition i j0 = some found ∧ found.toNat = position :=
  search_positions bitReverse_eq isPosition j0

/-- One round: `symbols[j0] = npr3[j0] | symbol[i] << 1`. -/
def interleaveRound (stack : StackContents) (symbol : List Nat) (i : Nat)
    (symbols : Option (Vector Nat 162)) : Option (Vector Nat 162) := do
  let symbols ← symbols
  let j0 ← findPosition i (stack.j0 i)
  return symbols.setIfInBounds j0.toNat (npr3[j0.toNat]?.getD 0 ||| (symbol.getD i 0 <<< 1))

def interleave (stack : StackContents) (symbol : List Nat) (symbols : Vector Nat 162) :
    Option (Vector Nat 162) :=
  CountedLoops.loop 162 (interleaveRound stack symbol) (some symbols)

theorem mem_codePositions (position : Nat) : position ∈ positions 8 162 ↔ position < 162 :=
  mem_positions (by decide) position

theorem length_codePositions : (positions 8 162).length = 162 :=
  length_positions (by decide)

/-- The first `count` symbols stand at their positions. -/
def Holds (symbol : List Nat) (count : Nat) (symbols : Vector Nat 162) : Prop :=
  ∀ i < count, ∀ position, (positions 8 162)[i]? = some position →
    symbols[position]? = some (npr3[position]?.getD 0 ||| (symbol.getD i 0 <<< 1))

/-- A round puts the next symbol where none of the earlier ones stands. -/
theorem Holds.round {symbol : List Nat} {i : Nat} {symbols : Vector Nat 162}
    (holds : Holds symbol i symbols) (below : i < 162) (stack : StackContents) :
    ∃ written, interleaveRound stack symbol i (some symbols) = some written ∧
      Holds symbol (i + 1) written := by
  have inside : i < (positions 8 162).length := by rwa [length_codePositions]
  have here := List.getElem?_eq_getElem inside
  obtain ⟨j0, found, atPosition⟩ := findPosition_eq (stack.j0 i) here
  rw [← atPosition] at here
  refine ⟨symbols.setIfInBounds j0.toNat (npr3[j0.toNat]?.getD 0 ||| (symbol.getD i 0 <<< 1)),
    by simp [interleaveRound, found], fun other otherBelow position isPosition => ?_⟩
  rw [Vector.getElem?_setIfInBounds]
  by_cases last : other = i
  · subst last
    have same : j0.toNat = position := Option.some.inj (here.symm.trans isPosition)
    have positionBelow : position < 162 :=
      (mem_codePositions position).mp (List.mem_of_getElem? isPosition)
    rw [if_pos same, same, if_pos positionBelow]
  · have different : j0.toNat ≠ position := by
      rintro rfl
      exact last (index_eq_of_positions isPosition here)
    rw [if_neg different]
    exact holds other (by omega) position isPosition

theorem interleave_holds (stack : StackContents) (symbol : List Nat) (symbols : Vector Nat 162) :
    ∃ written, interleave stack symbol symbols = some written ∧ Holds symbol 162 written := by
  apply CountedLoops.loop_invariant fun count symbols =>
    ∃ written, symbols = some written ∧ Holds symbol count written
  · exact ⟨symbols, rfl, nofun⟩
  · rintro i below _ ⟨written, rfl, holds⟩
    exact holds.round below stack

/-- What `wspr` leaves in `symbols`. -/
def wspr (call l_pre dbm : List Char) (stack : StackContents) (symbols : Vector Nat 162) :
    Option (Vector Nat 162) :=
  let (n1, n2) := packMessage call l_pre dbm stack
  interleave stack (convolve (packed n1 n2)) symbols

end Wspr

end RtlsdrFt8d
