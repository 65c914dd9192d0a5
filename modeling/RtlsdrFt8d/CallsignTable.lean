import RtlsdrFt8d.CStrings
import RtlsdrFt8d.Ft8Text
import Mathlib.Data.List.ReduceOption
import Mathlib.Data.Vector.Basic

/-!
# The table of hashed callsigns

The open-addressing table of `rtlsdr_ft8d.cpp`, and the two functions of
`message.c` through which the codec writes and reads it.
-/

namespace RtlsdrFt8d

def callsignHashTableSize : Nat := 256

/-- A used `struct callsign_hash_entry`: an empty callsign is never stored. -/
structure CallsignEntry where
  n22 : UInt32
  callsign : CString 12
  callsign_ne_nil : callsign.chars ≠ []
  deriving DecidableEq

abbrev CallsignTable :=
  Vector (Option CallsignEntry) callsignHashTableSize

/-- `ftx_callsign_hash_type_t`. -/
inductive CallsignHashType where
  | bits22
  | bits12
  | bits10
  deriving DecidableEq

def CallsignHashType.reduce : CallsignHashType → UInt32 → UInt32
  | .bits22, n22 => n22 &&& 0x3FFFFF
  | .bits12, n22 => (n22 >>> 10) &&& 0xFFF
  | .bits10, n22 => (n22 >>> 12) &&& 0x3FF

/-! ## Operations of the table -/

def hashtableInit : CallsignTable :=
  Vector.replicate callsignHashTableSize none

/-- The `i`-th entry that probing for a hash visits. -/
def callsignProbe (hash : UInt32) (i : Nat) : Fin callsignHashTableSize :=
  ⟨(hash.toNat % callsignHashTableSize + i) % callsignHashTableSize,
    Nat.mod_lt _ (by decide)⟩

/-- Whether `hashtable_add` may write an entry: it is unused, or holds this hash. -/
def takesHash (hash : UInt32) : Option CallsignEntry → Bool
  | none => true
  | some entry => entry.n22 == hash

/-- `hashtable_add`: a full table ignores a new hash. -/
def hashtableAdd (callsign : List Char) (hash : UInt32) (table : CallsignTable) :
    CallsignTable :=
  if nonempty : callsign ≠ [] then
    match (List.range callsignHashTableSize).find?
        (fun i => takesHash hash (table.get (callsignProbe hash i))) with
    | some i =>
        let idx := callsignProbe hash i
        table.set idx
          (some
            { n22 := hash
              callsign := .snprintf 12 callsign
              callsign_ne_nil := by simpa using nonempty })
          idx.isLt
    | none => table
  else table

def hashtableLookup (hashType : CallsignHashType) (hash : UInt32) (table : CallsignTable) :
    Option (List Char) :=
  (table.toList.reduceOption.find? (fun entry => hashType.reduce entry.n22 == hash)).map
    (fun entry => entry.callsign.chars)

/-! ## The interface of the codec -/

/-- The loops of `save_callsign`: eleven symbols, with blanks after the end. -/
def saveCallsignLoop : Nat → List Char → UInt64 → Option UInt64
  | 0, _, n58 => some n58
  | i + 1, [], n58 => saveCallsignLoop i [] (38 * n58)
  | i + 1, symbol :: callsign, n58 =>
      match nchar symbol .alphanumSpaceSlash with
      | none => none
      | some j => saveCallsignLoop i callsign (38 * n58 + UInt64.ofNat j)

/-- The 22-bit hash that `save_callsign` computes. -/
def callsignHash (callsign : List Char) : Option UInt32 :=
  (saveCallsignLoop 11 callsign 0).map fun n58 : UInt64 =>
    ((47055833459 * n58) >>> (64 - 22) &&& 0x3FFFFF).toUInt32

def saveCallsign (callsign : List Char) (table : CallsignTable) : CallsignTable :=
  match callsignHash callsign with
  | none => table
  | some n22 => hashtableAdd callsign n22 table

def addBrackets (original : List Char) : List Char :=
  '<' :: original ++ ['>']

/-- What `lookup_callsign` writes for a hash that nobody registered. -/
def unresolvedCallsign : List Char := "<...>".toList

def lookupCallsign (hashType : CallsignHashType) (hash : UInt32) (table : CallsignTable) :
    List Char :=
  match hashtableLookup hashType hash table with
  | none => unresolvedCallsign
  | some callsign => addBrackets callsign

/-! ## What the table holds -/

/-- Every stored callsign is over the characters that `save_callsign` admits. -/
def CallsignTable.HoldsCallsigns (table : CallsignTable) : Prop :=
  ∀ entry, some entry ∈ table.toList →
    ∀ symbol ∈ entry.callsign.chars, symbol ∈ CharTable.alphanumSpaceSlash.chars

theorem holdsCallsigns_hashtableInit : hashtableInit.HoldsCallsigns := by
  intro entry entryMem
  simp [hashtableInit] at entryMem

/-- A text with a hash has its first eleven characters in the character table. -/
theorem mem_chars_of_saveCallsignLoop {count : Nat} {callsign : List Char} {n58 result : UInt64}
    (hashed : saveCallsignLoop count callsign n58 = some result) :
    ∀ symbol ∈ callsign.take count, symbol ∈ CharTable.alphanumSpaceSlash.chars := by
  induction count generalizing callsign n58 with
  | zero => simp
  | succ count ih =>
      cases callsign with
      | nil => simp
      | cons head callsign =>
          simp only [saveCallsignLoop] at hashed
          cases index : nchar head .alphanumSpaceSlash with
          | none => simp [index] at hashed
          | some j =>
              rw [index] at hashed
              have headMem : head ∈ CharTable.alphanumSpaceSlash.chars :=
                List.isSome_idxOf?.mp (by rw [← nchar, index]; rfl)
              simpa only [List.take_succ_cons, List.forall_mem_cons] using
                ⟨headMem, ih hashed⟩

theorem mem_hashtableAdd {callsign : List Char} {hash : UInt32} {table : CallsignTable}
    {entry : CallsignEntry} (entryMem : some entry ∈ (hashtableAdd callsign hash table).toList) :
    some entry ∈ table.toList ∨
      (entry.n22 = hash ∧ entry.callsign = .snprintf 12 callsign) := by
  unfold hashtableAdd at entryMem
  split at entryMem
  case isFalse => exact Or.inl entryMem
  case isTrue nonempty =>
    split at entryMem
    case h_2 => exact Or.inl entryMem
    case h_1 =>
      rw [Vector.toList_set] at entryMem
      rcases List.mem_or_eq_of_mem_set entryMem with before | new
      · exact Or.inl before
      · cases new
        exact Or.inr ⟨rfl, rfl⟩

theorem CallsignTable.HoldsCallsigns.saveCallsign {table : CallsignTable}
    (holds : table.HoldsCallsigns) (callsign : List Char) :
    (saveCallsign callsign table).HoldsCallsigns := by
  unfold RtlsdrFt8d.saveCallsign
  cases hashed : callsignHash callsign with
  | none => exact holds
  | some n22 =>
      intro entry entryMem
      rcases mem_hashtableAdd entryMem with before | ⟨_, stored⟩
      · exact holds entry before
      · obtain ⟨n58, looped, _⟩ := Option.map_eq_some_iff.mp hashed
        rw [stored]
        exact mem_chars_of_saveCallsignLoop looped

theorem exists_entry_of_hashtableLookup {hashType : CallsignHashType} {hash : UInt32}
    {table : CallsignTable} {callsign : List Char}
    (resolved : hashtableLookup hashType hash table = some callsign) :
    ∃ entry, some entry ∈ table.toList ∧ entry.callsign.chars = callsign := by
  obtain ⟨entry, found, sameChars⟩ := Option.map_eq_some_iff.mp resolved
  exact ⟨entry, List.reduceOption_mem_iff.mp (List.mem_of_find?_eq_some found), sameChars⟩

end RtlsdrFt8d
