import RtlsdrFt8d.WsprMessages

/-!
# Decoding WSPR symbols

A receiver takes the code bits out of the symbols in bit-reversed order, inverts
the convolutional code and unpacks the bits.  The symbols of a callsign without
a stroke carry exactly what is read back from them.
-/

namespace RtlsdrFt8d

namespace Wspr

open BitStrings ConvolutionalCode

/-! ## Receiver -/

def deinterleave (symbols : Vector Nat 162) : List Bool :=
  (positions 8 162).map fun position => (symbols[position]?.getD 0).testBit 1

def receivedBits (symbols : Vector Nat 162) : List Bool :=
  (code.decode 0 (deinterleave symbols)).take 50

def receive (symbols : Vector Nat 162) : Content :=
  let bits := receivedBits symbols
  let n1 := value (bits.take 28)
  let n2 := value (bits.drop 28)
  { call := unpackCall n1
    locator := unpackLocator (n2 / 128)
    power := (n2 % 128 : Nat) - 64 }

/-! ## Symbols -/

theorem npr3_le_one : ∀ position : Fin 162, npr3[position] ≤ 1 := by
  decide +kernel

/-- Both bits of a symbol. -/
theorem symbol_bits {sync : Nat} (single : sync ≤ 1) (bit : Bool) :
    sync ||| (bit.toNat <<< 1) ≤ 3 ∧ (sync ||| (bit.toNat <<< 1)) % 2 = sync ∧
      (sync ||| (bit.toNat <<< 1)).testBit 1 = bit := by
  have cases := Nat.le_one_iff_eq_zero_or_eq_one.mp single
  rcases cases with rfl | rfl <;> cases bit <;> decide

section Holds

variable {sent : List Bool} {symbols others : Vector Nat 162}

theorem getD_map_toNat (sent : List Bool) (i : Nat) :
    (sent.map Bool.toNat).getD i 0 = (sent.getD i false).toNat :=
  List.getD_map sent false Bool.toNat

/-- What stands at a position, for the bit that is sent there. -/
theorem Holds.getElem (holds : Holds (sent.map Bool.toNat) 162 symbols) (position : Fin 162) :
    ∃ i < 162, (positions 8 162)[i]? = some position.val ∧
      symbols[position] = npr3[position] ||| ((sent.getD i false).toNat <<< 1) := by
  obtain ⟨i, inside, isPosition⟩ :=
    List.mem_iff_getElem.mp ((mem_codePositions position).mpr position.isLt)
  have below : i < 162 := by rwa [length_codePositions] at inside
  have found := List.getElem?_eq_getElem inside
  rw [isPosition] at found
  refine ⟨i, below, found, ?_⟩
  have entry := holds i below position found
  rw [Vector.getElem?_eq_getElem position.isLt, Vector.getElem?_eq_getElem position.isLt,
    Option.getD_some, getD_map_toNat] at entry
  exact Option.some.inj entry

theorem Holds.unique (holds : Holds (sent.map Bool.toNat) 162 symbols)
    (otherHolds : Holds (sent.map Bool.toNat) 162 others) : symbols = others := by
  apply Vector.ext
  intro position below
  obtain ⟨i, -, isPosition, entry⟩ := holds.getElem ⟨position, below⟩
  obtain ⟨j, -, otherPosition, other⟩ := otherHolds.getElem ⟨position, below⟩
  rw [index_eq_of_positions isPosition otherPosition] at entry
  exact entry.trans other.symm

theorem Holds.deinterleave_eq (holds : Holds (sent.map Bool.toNat) 162 symbols)
    (length : 162 ≤ sent.length) : deinterleave symbols = sent.take 162 := by
  apply List.ext_getElem
  · rw [deinterleave, List.length_map, length_codePositions, List.length_take_of_le length]
  intro i inside insideSent
  have below : i < 162 := by rwa [deinterleave, List.length_map, length_codePositions] at inside
  have insidePositions : i < (positions 8 162).length := by rwa [length_codePositions]
  have positionBelow := (mem_codePositions _).mp (List.getElem_mem insidePositions)
  obtain ⟨j, -, isPosition, entry⟩ := holds.getElem ⟨_, positionBelow⟩
  have same := index_eq_of_positions isPosition (List.getElem?_eq_getElem insidePositions)
  subst same
  have bits := symbol_bits (npr3_le_one ⟨_, positionBelow⟩) (sent.getD j false)
  rw [← entry] at bits
  simp only [deinterleave, List.getElem_map]
  rw [Vector.getElem?_eq_getElem positionBelow, Option.getD_some, List.getElem_take,
    ← List.getD_eq_getElem sent false]
  exact bits.2.2

end Holds

/-- A receiver inverts the code, whose first 162 bits are those of 81 bits. -/
theorem receivedBits_eq {bits : List Bool} {symbols : Vector Nat 162} (length : 81 ≤ bits.length)
    (holds : Holds ((code.encode 0 bits).map Bool.toNat) 162 symbols) :
    receivedBits symbols = bits.take 50 := by
  have long : 162 ≤ (code.encode 0 bits).length := by
    rw [Code.length_encode]
    omega
  rw [receivedBits, holds.deinterleave_eq long, code.take_encode 0 bits 81, Code.decode_encode,
    List.take_take]
  rfl

theorem receive_eq {n1 n2 : BitVec 64} {symbols : Vector Nat 162} (below1 : n1.toNat < 2 ^ 28)
    (below2 : n2.toNat < 2 ^ 22)
    (holds : Holds (convolve (packed n1 n2)) 162 symbols) :
    receive symbols =
      { call := unpackCall n1.toNat
        locator := unpackLocator (n2.toNat / 128)
        power := (n2.toNat % 128 : Nat) - 64 } := by
  rw [convolve_eq] at holds
  have bits := receivedBits_eq (by simp [packedBits, packed]) holds
  rw [take_packedBits] at bits
  rw [receive, bits, List.take_left' (length_bitString 28 _),
    List.drop_left' (length_bitString 28 _), value_bitString_of_lt below1,
    value_bitString_of_lt below2]

/-- What the symbols of a message are good for, whatever the stack and the array
of `wspr` held before. -/
structure Carries (message : Message) (symbols : Vector Nat 162) : Prop where
  computed : ∀ stack before, wspr message.call.text message.locator.text message.dbm stack before =
    some symbols
  inRange : ∀ position : Fin 162, symbols[position] ≤ 3
  synchronized : ∀ position : Fin 162, symbols[position] % 2 = npr3[position]
  received : receive symbols = message.content

theorem exists_carries (message : Message) : ∃ symbols, Carries message symbols := by
  obtain ⟨n1, n2, below1, below2, packs, call, locator, power⟩ := exists_packMessage message
  have result (stack : StackContents) (before : Vector Nat 162) :
      wspr message.call.text message.locator.text message.dbm stack before =
        interleave stack (convolve (packed n1 n2)) before := by
    rw [wspr, packs stack]
  obtain ⟨symbols, -, holds⟩ := interleave_holds ⟨[], [], 0, fun _ => 0⟩ (convolve (packed n1 n2))
    (Vector.replicate 162 0)
  have encoded := holds
  rw [convolve_eq] at encoded
  refine ⟨symbols, fun stack before => ?_, fun position => ?_, fun position => ?_, ?_⟩
  · obtain ⟨written, computed, alsoHolds⟩ :=
      interleave_holds stack (convolve (packed n1 n2)) before
    rw [convolve_eq] at alsoHolds
    rw [result, computed, alsoHolds.unique encoded]
  · obtain ⟨i, -, -, entry⟩ := encoded.getElem position
    rw [entry]
    exact (symbol_bits (npr3_le_one position) _).1
  · obtain ⟨i, -, -, entry⟩ := encoded.getElem position
    rw [entry]
    exact (symbol_bits (npr3_le_one position) _).2.1
  · rw [receive_eq below1 below2 holds, call, locator, power]
    rfl

/-- `wspr` sees no more of a message than a receiver learns. -/
theorem wspr_congr {message other : Message} (same : message.content = other.content)
    (stack : StackContents) (before : Vector Nat 162) :
    wspr message.call.text message.locator.text message.dbm stack before =
      wspr other.call.text other.locator.text other.dbm stack before := by
  have sameCall : message.call.text = other.call.text := congrArg Content.call same
  have sameLocator : message.locator.text = other.locator.text := congrArg Content.locator same
  have samePower : nearestPower (CNumerals.atoi message.dbm) =
      nearestPower (CNumerals.atoi other.dbm) :=
    congrArg Content.power same
  simp only [wspr, packMessage, sameCall, sameLocator, correctedPower_eq, samePower]

/-- The symbols of a callsign without a stroke carry its message, and messages
with different contents have different symbols. -/
theorem symbols_determine_content :
    ∃ symbolsOf : Message → Vector Nat 162, (∀ message, Carries message (symbolsOf message)) ∧
      ∀ message other, symbolsOf message = symbolsOf other ↔ message.content = other.content := by
  choose symbolsOf carries using exists_carries
  refine ⟨symbolsOf, carries, fun message other => ⟨fun same => ?_, fun same => ?_⟩⟩
  · rw [← (carries message).received, same, (carries other).received]
  · have computed := (carries message).computed ⟨[], [], 0, fun _ => 0⟩ (symbolsOf message)
    rw [wspr_congr same, (carries other).computed] at computed
    exact (Option.some.inj computed).symm

end Wspr

end RtlsdrFt8d
