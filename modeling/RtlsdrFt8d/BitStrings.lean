import Mathlib.Data.List.Perm.Basic
import Mathlib.Data.List.Nodup
import Mathlib.Data.List.Range
import Mathlib.Data.Nat.Bitwise
import RtlsdrFt8d.CountedLoops
import RtlsdrFt8d.PositionalNumerals

/-!
# Bit strings and bit reversal

Numbers are written with the most significant bit first.  A register that takes
in the bits of a counter from the lowest one ends with the counter reversed, and
the reversed counters below a bound, in the order of the count, are a
permutation of the numbers below that bound.
-/

namespace BitStrings

/-! ## Numbers as bit strings -/

/-- The lowest `length` bits of a number. -/
def bitString : (length number : Nat) → List Bool
  | 0, _ => []
  | length + 1, number => number.testBit length :: bitString length number

def value (bits : List Bool) : Nat :=
  PositionalNumerals.value 2 (bits.map Bool.toNat)

@[simp]
theorem length_bitString (length number : Nat) : (bitString length number).length = length := by
  induction length with
  | zero => rfl
  | succ length ih => rw [bitString, List.length_cons, ih]

theorem value_bitString (length number : Nat) :
    value (bitString length number) = number % 2 ^ length := by
  induction length with
  | zero => rw [Nat.pow_zero, Nat.mod_one]; rfl
  | succ length ih =>
      rw [value] at ih
      rw [value, bitString, List.map_cons, PositionalNumerals.value_cons, ih, List.length_map,
        length_bitString, Nat.mod_pow_succ, Nat.toNat_testBit]
      ring

/-- A number that fits is read back from its bits. -/
theorem value_bitString_of_lt {length number : Nat} (fits : number < 2 ^ length) :
    value (bitString length number) = number := by
  rw [value_bitString, Nat.mod_eq_of_lt fits]

/-! ## Reversal by a register -/

section Reversal

variable {width : Nat}

/-- The register after `count` bits of a number, the lowest first. -/
def shiftedIn (count number : Nat) (register : BitVec width) : BitVec width :=
  CountedLoops.loop count (fun i register => register.shiftConcat (number.testBit i)) register

theorem getLsbD_shiftedIn (count number : Nat) (register : BitVec width) (i : Nat) :
    (shiftedIn count number register).getLsbD i =
      (decide (i < width) &&
        if i < count then number.testBit (count - 1 - i) else register.getLsbD (i - count)) := by
  induction count generalizing i with
  | zero =>
      rw [shiftedIn, CountedLoops.loop_zero]
      by_cases inside : i < width
      · simp [inside]
      · simp [inside, BitVec.getLsbD_of_ge _ _ (Nat.le_of_not_lt inside)]
  | succ count ih =>
      have step : shiftedIn (count + 1) number register =
          (shiftedIn count number register).shiftConcat (number.testBit count) :=
        CountedLoops.loop_succ
      rw [step, BitVec.getLsbD_shiftConcat]
      cases i with
      | zero => simp
      | succ i =>
          rw [if_neg (Nat.succ_ne_zero i), Nat.add_sub_cancel, ih]
          by_cases inside : i + 1 < width
          · have before : i < width := Nat.lt_of_succ_lt inside
            simp only [inside, before, decide_true, Bool.true_and, Nat.add_lt_add_iff_right,
              Nat.add_sub_add_right, Nat.add_sub_cancel]
            congr 2
            omega
          · simp [inside]

/-- A register of its width has nothing left of what it held before. -/
theorem shiftedIn_width (number : Nat) (register : BitVec width) :
    shiftedIn width number register = (BitVec.ofNat width number).reverse := by
  apply BitVec.eq_of_getLsbD_eq
  intro i inside
  have mirrored : width - 1 - i < width := by omega
  rw [getLsbD_shiftedIn, BitVec.getLsbD_reverse, BitVec.getMsbD_eq_getLsbD, BitVec.getLsbD_ofNat]
  simp [inside, mirrored]

end Reversal

/-! ## Positions in reversed order -/

/-- The reversed counters below a bound, in the order of the count. -/
def positions (width size : Nat) : List Nat :=
  (((List.range (2 ^ width)).map fun k => (BitVec.ofNat width k).reverse).filter
    fun reversed => reversed.toNat < size).map BitVec.toNat

theorem nodup_positions (width size : Nat) : (positions width size).Nodup := by
  refine List.Nodup.map (fun _ _ => BitVec.eq_of_toNat_eq) (List.Nodup.filter _ ?_)
  refine (List.nodup_map_iff_inj_on List.nodup_range).mpr fun k kBelow l lBelow same => ?_
  have counters := congrArg BitVec.reverse same
  rw [BitVec.reverse_reverse_eq, BitVec.reverse_reverse_eq] at counters
  have values := congrArg BitVec.toNat counters
  rwa [BitVec.toNat_ofNat, BitVec.toNat_ofNat, Nat.mod_eq_of_lt (List.mem_range.mp kBelow),
    Nat.mod_eq_of_lt (List.mem_range.mp lBelow)] at values

theorem mem_positions {width size : Nat} (fits : size ≤ 2 ^ width) (position : Nat) :
    position ∈ positions width size ↔ position < size := by
  simp only [positions, List.mem_map, List.mem_filter, List.mem_range, decide_eq_true_eq]
  constructor
  · rintro ⟨reversed, ⟨-, below⟩, rfl⟩
    exact below
  · intro below
    have value : (BitVec.ofNat width position).toNat = position := by
      rw [BitVec.toNat_ofNat, Nat.mod_eq_of_lt (Nat.lt_of_lt_of_le below fits)]
    refine ⟨BitVec.ofNat width position, ⟨⟨(BitVec.ofNat width position).reverse.toNat,
      BitVec.isLt _, ?_⟩, by rwa [value]⟩, value⟩
    rw [BitVec.ofNat_toNat, BitVec.setWidth_eq, BitVec.reverse_reverse_eq]

theorem perm_positions {width size : Nat} (fits : size ≤ 2 ^ width) :
    (positions width size).Perm (List.range size) :=
  (List.perm_ext_iff_of_nodup (nodup_positions width size) List.nodup_range).mpr fun position => by
    rw [mem_positions fits, List.mem_range]

theorem length_positions {width size : Nat} (fits : size ≤ 2 ^ width) :
    (positions width size).length = size := by
  rw [(perm_positions fits).length_eq, List.length_range]

/-- No position comes twice. -/
theorem index_eq_of_positions {width size i j position : Nat}
    (first : (positions width size)[i]? = some position)
    (second : (positions width size)[j]? = some position) : i = j :=
  (List.getElem?_inj (List.getElem?_eq_some_iff.mp first).choose
    (nodup_positions width size)).mp (first.trans second.symm)

/-! ## Search for a hit -/

section Search

variable {State : Type*} (next : Nat → State → State) (hit : State → Bool) (wanted : Int)

/-- `for (k = …; hits != wanted; k++)` with a body that moves the state on and
counts it if it is a hit, for `fuel` rounds at most. -/
def search : (fuel k : Nat) → (hits : Int) → State → Option State
  | 0, _, hits, state => if hits = wanted then some state else none
  | fuel + 1, k, hits, state =>
      if hits = wanted then some state
      else
        search fuel (k + 1) (if hit (next k state) then hits + 1 else hits) (next k state)

variable {next hit wanted}

theorem search_found (fuel k : Nat) (state : State) :
    search next hit wanted fuel k wanted state = some state := by
  cases fuel with
  | zero => exact if_pos rfl
  | succ fuel => exact if_pos rfl

/-- A search whose states do not depend on the states before finds the hit of
that number, counted from the hits it starts with. -/
theorem search_eq {states : Nat → State} (follows : ∀ k state, next k state = states k)
    (fuel k : Nat) {hits : Int} (missing : hits < wanted) (state : State) :
    search next hit wanted fuel k hits state =
      (((List.range' k fuel).map states).filter hit)[(wanted - hits - 1).toNat]? := by
  induction fuel generalizing k hits state with
  | zero =>
      rw [search, if_neg (Int.ne_of_lt missing)]
      rfl
  | succ fuel ih =>
      rw [search, if_neg (Int.ne_of_lt missing), follows, List.range'_succ, List.map_cons]
      by_cases isHit : hit (states k)
      · rw [if_pos isHit, List.filter_cons_of_pos isHit]
        by_cases last : hits + 1 = wanted
        · subst last
          rw [search_found]
          simp
        · have index : (wanted - hits - 1).toNat = (wanted - (hits + 1) - 1).toNat + 1 := by omega
          rw [ih (k + 1) (by omega), index, List.getElem?_cons_succ]
      · rw [if_neg isHit, List.filter_cons_of_neg isHit, ih (k + 1) missing]

end Search

/-- The search for a reversed counter below a bound goes through the positions. -/
theorem search_positions {width size i position : Nat}
    {next : Nat → BitVec width → BitVec width}
    (reverses : ∀ k register, next k register = (BitVec.ofNat width k).reverse)
    (isPosition : (positions width size)[i]? = some position) (register : BitVec width) :
    ∃ reversed, search next (fun register => register.toNat < size) i (2 ^ width) 0 (-1) register =
        some reversed ∧ reversed.toNat = position := by
  have index : ((i : Int) - -1 - 1).toNat = i := by omega
  rw [search_eq reverses (2 ^ width) 0 (by omega) register, index]
  rw [positions, List.range_eq_range', List.getElem?_map, Option.map_eq_some_iff] at isPosition
  exact isPosition

end BitStrings
