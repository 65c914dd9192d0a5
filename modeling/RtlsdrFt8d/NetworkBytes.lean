import Mathlib.Algebra.Order.Ring.Nat
import Mathlib.Data.List.Basic
import Mathlib.Tactic.Ring

/-!
# Numbers and buffers of bytes

Numbers in network byte order, and buffers that are filled by writes at
offsets.  A write outside the buffer has no result.
-/

namespace NetworkBytes

/-! ## Network byte order -/

/-- The low `count` bytes of a number, the most significant one first. -/
def bigEndian : Nat → Nat → List UInt8
  | 0, _ => []
  | count + 1, value => UInt8.ofNat (value / 256 ^ count) :: bigEndian count value

def ofBigEndian (bytes : List UInt8) : Nat :=
  bytes.foldl (fun value byte => 256 * value + byte.toNat) 0

@[simp]
theorem length_bigEndian (count value : Nat) : (bigEndian count value).length = count := by
  induction count with
  | zero => rfl
  | succ count ih => rw [bigEndian, List.length_cons, ih]

theorem foldl_bigEndian (count value start : Nat) :
    (bigEndian count value).foldl (fun value byte => 256 * value + byte.toNat) start =
      256 ^ count * start + value % 256 ^ count := by
  induction count generalizing start with
  | zero => simp [bigEndian, Nat.mod_one]
  | succ count ih =>
      have digit : (UInt8.ofNat (value / 256 ^ count)).toNat = value / 256 ^ count % 256 :=
        UInt8.toNat_ofNat'
      rw [bigEndian, List.foldl_cons, ih, digit, Nat.mod_pow_succ]
      ring

theorem ofBigEndian_bigEndian (count value : Nat) :
    ofBigEndian (bigEndian count value) = value % 256 ^ count := by
  rw [ofBigEndian, foldl_bigEndian, Nat.mul_zero, Nat.zero_add]

theorem foldl_byte (bytes : List UInt8) (start : Nat) :
    bytes.foldl (fun value byte => 256 * value + byte.toNat) start =
      start * 256 ^ bytes.length + ofBigEndian bytes := by
  induction bytes generalizing start with
  | nil => simp [ofBigEndian]
  | cons byte bytes ih =>
      rw [ofBigEndian, List.foldl_cons, List.foldl_cons, ih, ih, List.length_cons, pow_succ]
      ring

theorem ofBigEndian_cons (byte : UInt8) (bytes : List UInt8) :
    ofBigEndian (byte :: bytes) = byte.toNat * 256 ^ bytes.length + ofBigEndian bytes := by
  rw [ofBigEndian, List.foldl_cons, Nat.mul_zero, Nat.zero_add, foldl_byte]

/-- The bytes that a 16-bit store of `htons` leaves in memory. -/
def htons (value : Nat) : List UInt8 :=
  bigEndian 2 value

/-- The bytes that a 32-bit store of `htonl` leaves in memory. -/
def htonl (value : UInt32) : List UInt8 :=
  bigEndian 4 value.toNat

/-! ## Buffers -/

/-- A buffer after `memset`. -/
def zeros (size : Nat) : List UInt8 :=
  List.replicate size 0

@[simp]
theorem length_zeros (size : Nat) : (zeros size).length = size :=
  List.length_replicate

/-- Write `bytes` into a buffer at an offset. -/
def write (buffer : List UInt8) (offset : Nat) (bytes : List UInt8) : Option (List UInt8) :=
  if offset + bytes.length ≤ buffer.length then
    some (buffer.take offset ++ bytes ++ buffer.drop (offset + bytes.length))
  else none

variable {buffer first second : List UInt8} {offset next : Nat}

theorem exists_split {count : Nat} (fits : offset + count ≤ buffer.length) :
    ∃ front old back, buffer = front ++ (old ++ back) ∧ front.length = offset ∧
      old.length = count := by
  refine ⟨buffer.take offset, (buffer.drop offset).take count,
    (buffer.drop offset).drop count, ?_, ?_, ?_⟩
  · rw [List.take_append_drop, List.take_append_drop]
  · rw [List.length_take]
    omega
  · rw [List.length_take, List.length_drop]
    omega

theorem write_middle {old bytes : List UInt8} (sameLength : old.length = bytes.length)
    (front back : List UInt8) :
    write (front ++ (old ++ back)) front.length bytes = some (front ++ (bytes ++ back)) := by
  have fits : front.length + bytes.length ≤ (front ++ (old ++ back)).length := by
    simp only [List.length_append]
    omega
  rw [write, if_pos fits, List.take_left, ← List.drop_drop, List.drop_left, ← sameLength,
    List.drop_left, List.append_assoc]

theorem length_of_write {bytes written : List UInt8}
    (writes : write buffer offset bytes = some written) : written.length = buffer.length := by
  unfold write at writes
  split at writes
  · obtain rfl := Option.some.inj writes
    simp only [List.length_append, List.length_take, List.length_drop]
    omega
  · contradiction

theorem inside_of_write {bytes written : List UInt8}
    (writes : write buffer offset bytes = some written) :
    offset + bytes.length ≤ buffer.length := by
  by_contra outside
  rw [write, if_neg outside] at writes
  contradiction

/-- Adjacent writes are one write. -/
theorem write_write (adjacent : next = offset + first.length) :
    (write buffer offset first >>= fun written => write written next second) =
      write buffer offset (first ++ second) := by
  subst adjacent
  by_cases fits : offset + (first ++ second).length ≤ buffer.length
  · obtain ⟨front, old, back, rfl, rfl, oldLength⟩ := exists_split fits
    rw [write_middle oldLength, ← List.take_append_drop first.length old, List.append_assoc]
    rw [List.length_append] at oldLength
    rw [write_middle (by rw [List.length_take]; omega)]
    have rest : (old.drop first.length).length = second.length := by
      rw [List.length_drop]
      omega
    have secondWrite := write_middle rest (front ++ first) back
    rw [List.length_append] at secondWrite
    simpa only [List.append_assoc, Option.bind_eq_bind, Option.bind_some] using secondWrite
  · have noWrite : write buffer offset (first ++ second) = none := if_neg fits
    rw [noWrite]
    cases firstWrite : write buffer offset first with
    | none => rfl
    | some written =>
        have sameLength := length_of_write firstWrite
        rw [List.length_append] at fits
        exact if_neg (by omega)

theorem write_write_bind {Result : Type} (adjacent : next = offset + first.length)
    (continuation : List UInt8 → Option Result) :
    (write buffer offset first >>= fun written =>
        write written next second >>= continuation) =
      (write buffer offset (first ++ second) >>= continuation) := by
  rw [← write_write adjacent, bind_assoc]

/-- A write after the filled part of a buffer, past a gap that stays zero. -/
theorem write_zeros {front bytes : List UInt8} {gap room : Nat}
    (fits : gap + bytes.length ≤ room) (atOffset : offset = front.length + gap) :
    write (front ++ zeros room) offset bytes =
      some (front ++ zeros gap ++ bytes ++ zeros (room - gap - bytes.length)) := by
  have split : zeros room =
      zeros gap ++ (zeros bytes.length ++ zeros (room - gap - bytes.length)) := by
    simp only [zeros, List.replicate_append_replicate]
    congr 1
    omega
  have atFront : offset = (front ++ zeros gap).length := by
    rw [List.length_append, length_zeros, atOffset]
  rw [split, atFront, ← List.append_assoc, write_middle (length_zeros _)]
  simp only [List.append_assoc]

theorem write_zeros_start {bytes : List UInt8} {room : Nat} (fits : bytes.length ≤ room) :
    write (zeros room) 0 bytes = some (bytes ++ zeros (room - bytes.length)) := by
  have noGap : 0 + bytes.length ≤ room := by rwa [Nat.zero_add]
  have atStart : write ([] ++ zeros room) 0 bytes = _ := write_zeros noGap rfl
  simpa [zeros] using atStart

end NetworkBytes
