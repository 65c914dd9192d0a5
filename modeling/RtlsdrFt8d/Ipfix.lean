import Mathlib.Algebra.BigOperators.Group.List.Basic
import RtlsdrFt8d.NetworkBytes

/-!
# IPFIX messages

A reader of IPFIX messages that knows nothing but the templates in the message
itself: it splits the message into sets, learns the templates of the template
sets, and reads the records of the data sets by them.  Set contents end with
zero padding of fewer than four bytes.
-/

namespace Ipfix

open NetworkBytes

/-! ## Structure of a message -/

/-- An information element, with enterprise zero for the standard ones, and its
length; the length 65535 stands for values of variable length. -/
structure FieldSpecifier where
  enterprise : Nat
  element : Nat
  length : Nat
  deriving DecidableEq

structure Template where
  templateId : Nat
  fields : List FieldSpecifier
  deriving DecidableEq

/-- A set as the message delimits it: its length field counts the four bytes of
the set header as well. -/
structure RawSet where
  setId : Nat
  length : Nat
  content : List UInt8
  deriving DecidableEq

structure Message where
  length : Nat
  exportTime : Nat
  sequenceNumber : Nat
  observationDomain : Nat
  sets : List RawSet
  deriving DecidableEq

abbrev Record := List (FieldSpecifier × List UInt8)

structure DataSet where
  templateId : Nat
  records : List Record
  deriving DecidableEq

/-! ## Reading -/

def variableLength : Nat := 65535

def readBytes (count : Nat) (bytes : List UInt8) : Option (List UInt8 × List UInt8) :=
  if count ≤ bytes.length then some (bytes.take count, bytes.drop count) else none

def readNumber (count : Nat) (bytes : List UInt8) : Option (Nat × List UInt8) :=
  (readBytes count bytes).map fun (front, rest) => (ofBigEndian front, rest)

section Repetition

variable {Item : Type} (readItem : List UInt8 → Option (Item × List UInt8))

def readMany : Nat → List UInt8 → Option (List Item × List UInt8)
  | 0, bytes => some ([], bytes)
  | count + 1, bytes => do
      let (item, bytes) ← readItem bytes
      let (items, bytes) ← readMany count bytes
      some (item :: items, bytes)

/-- Read items until at most `padding` bytes are left, which must be zero. -/
def readRun (padding : Nat) : Nat → List UInt8 → Option (List Item)
  | 0, _ => none
  | fuel + 1, bytes =>
      if bytes.length ≤ padding then
        if bytes.all (fun byte => byte == 0) then some [] else none
      else do
        let (item, bytes) ← readItem bytes
        let items ← readRun padding fuel bytes
        some (item :: items)

/-- Every item takes at least one byte, so the fuel suffices. -/
def readAll (padding : Nat) (bytes : List UInt8) : Option (List Item) :=
  readRun readItem padding (bytes.length + 1) bytes

end Repetition

/-- The highest bit of the element says that an enterprise number follows. -/
def readFieldSpecifier (bytes : List UInt8) : Option (FieldSpecifier × List UInt8) := do
  let (element, bytes) ← readNumber 2 bytes
  let (length, bytes) ← readNumber 2 bytes
  if element < 0x8000 then some (⟨0, element, length⟩, bytes)
  else
    let (enterprise, bytes) ← readNumber 4 bytes
    some (⟨enterprise, element - 0x8000, length⟩, bytes)

/-- A template record; in an options template the number of scope fields
follows the number of fields. -/
def readTemplate (isOptions : Bool) (bytes : List UInt8) :
    Option (Template × List UInt8) := do
  let (templateId, bytes) ← readNumber 2 bytes
  let (fieldCount, bytes) ← readNumber 2 bytes
  let (_, bytes) ← if isOptions then readNumber 2 bytes else some (0, bytes)
  let (fields, bytes) ← readMany readFieldSpecifier fieldCount bytes
  some (⟨templateId, fields⟩, bytes)

/-- A value of variable length has its length in front: one byte, or three when
the first is 255. -/
def readValue (length : Nat) (bytes : List UInt8) : Option (List UInt8 × List UInt8) :=
  if length = variableLength then do
    let (short, bytes) ← readNumber 1 bytes
    if short < 255 then readBytes short bytes
    else
      let (long, bytes) ← readNumber 2 bytes
      readBytes long bytes
  else readBytes length bytes

def readRecord : List FieldSpecifier → List UInt8 → Option (Record × List UInt8)
  | [], bytes => some ([], bytes)
  | field :: fields, bytes => do
      let (value, bytes) ← readValue field.length bytes
      let (values, bytes) ← readRecord fields bytes
      some ((field, value) :: values, bytes)

def readSet (bytes : List UInt8) : Option (RawSet × List UInt8) := do
  let (setId, bytes) ← readNumber 2 bytes
  let (length, bytes) ← readNumber 2 bytes
  if length < 4 then none
  else
    let (content, bytes) ← readBytes (length - 4) bytes
    some (⟨setId, length, content⟩, bytes)

/-- The header must carry the version ten and the length of the message, and the
sets must fill the message. -/
def readMessage (bytes : List UInt8) : Option Message := do
  let (version, rest) ← readNumber 2 bytes
  let (length, rest) ← readNumber 2 rest
  let (exportTime, rest) ← readNumber 4 rest
  let (sequenceNumber, rest) ← readNumber 4 rest
  let (observationDomain, rest) ← readNumber 4 rest
  let sets ← readAll readSet 0 rest
  if version = 10 ∧ length = bytes.length then
    some ⟨length, exportTime, sequenceNumber, observationDomain, sets⟩
  else none

def setPadding : Nat := 3

/-- Read the sets in order: template sets extend the known templates, data sets
are read by the template of their identifier. -/
def readSets : List Template → List RawSet → Option (List DataSet)
  | _, [] => some []
  | templates, set :: sets =>
      if set.setId = 2 ∨ set.setId = 3 then do
        let more ← readAll (readTemplate (set.setId = 3)) setPadding set.content
        readSets (more ++ templates) sets
      else do
        let template ← templates.find? fun template => template.templateId = set.setId
        let records ← readAll (readRecord template.fields) setPadding set.content
        let later ← readSets templates sets
        some (⟨set.setId, records⟩ :: later)

/-! ## Writing -/

def encodeValue (length : Nat) (value : List UInt8) : List UInt8 :=
  if length = variableLength then UInt8.ofNat value.length :: value else value

def ValueFits (length : Nat) (value : List UInt8) : Prop :=
  if length = variableLength then value.length < 255 else value.length = length

instance (length : Nat) (value : List UInt8) : Decidable (ValueFits length value) :=
  inferInstanceAs (Decidable
    (if length = variableLength then value.length < 255 else value.length = length))

def encodeRecord (record : Record) : List UInt8 :=
  record.flatMap fun field => encodeValue field.1.length field.2

def encodeSet (setId : Nat) (content : List UInt8) : List UInt8 :=
  bigEndian 2 setId ++ (bigEndian 2 (content.length + 4) ++ content)

def encodeHeader (length exportTime sequenceNumber observationDomain : Nat) : List UInt8 :=
  bigEndian 2 10 ++ (bigEndian 2 length ++
    (bigEndian 4 exportTime ++ (bigEndian 4 sequenceNumber ++ bigEndian 4 observationDomain)))

def rawSet (set : Nat × List UInt8) : RawSet :=
  ⟨set.1, set.2.length + 4, set.2⟩

/-! ## Reading back what was written -/

theorem readBytes_append {front : List UInt8} {count : Nat} (sameLength : front.length = count)
    (rest : List UInt8) : readBytes count (front ++ rest) = some (front, rest) := by
  subst sameLength
  rw [readBytes, if_pos (by simp), List.take_left, List.drop_left]

theorem readNumber_bigEndian {count value : Nat} (fits : value < 256 ^ count)
    (rest : List UInt8) :
    readNumber count (bigEndian count value ++ rest) = some (value, rest) := by
  rw [readNumber, readBytes_append (length_bigEndian count value), Option.map_some]
  change some (ofBigEndian (bigEndian count value), rest) = _
  rw [ofBigEndian_bigEndian, Nat.mod_eq_of_lt fits]

theorem readValue_encodeValue {length : Nat} {value : List UInt8}
    (fits : ValueFits length value) (rest : List UInt8) :
    readValue length (encodeValue length value ++ rest) = some (value, rest) := by
  unfold ValueFits at fits
  unfold readValue encodeValue
  split
  · next isVariable =>
      rw [if_pos isVariable] at fits
      have lengthByte : UInt8.ofNat value.length :: value ++ rest =
          bigEndian 1 value.length ++ (value ++ rest) := by
        simp [bigEndian]
      rw [lengthByte, readNumber_bigEndian (by omega)]
      simp only [Option.bind_eq_bind, Option.bind_some, if_pos fits]
      exact readBytes_append rfl rest
  · next fixed =>
      rw [if_neg fixed] at fits
      exact readBytes_append fits rest

theorem readRecord_encodeRecord {record : Record}
    (fits : ∀ field ∈ record, ValueFits field.1.length field.2) (rest : List UInt8) :
    readRecord (record.map Prod.fst) (encodeRecord record ++ rest) = some (record, rest) := by
  induction record with
  | nil => rfl
  | cons field record ih =>
      have later := ih fun other otherMem => fits other (List.mem_cons_of_mem _ otherMem)
      rw [encodeRecord, List.flatMap_cons, List.append_assoc, List.map_cons, readRecord,
        readValue_encodeValue (fits field List.mem_cons_self)]
      change (readRecord (record.map Prod.fst) (encodeRecord record ++ rest) >>= _) = _
      rw [later]
      rfl

theorem readSet_encodeSet {setId : Nat} {content : List UInt8} (validId : setId < 65536)
    (fits : content.length + 4 < 65536) (rest : List UInt8) :
    readSet (encodeSet setId content ++ rest) =
      some (⟨setId, content.length + 4, content⟩, rest) := by
  unfold readSet encodeSet
  rw [List.append_assoc, List.append_assoc, readNumber_bigEndian (by omega)]
  simp only [Option.bind_eq_bind, Option.bind_some]
  rw [readNumber_bigEndian (by omega)]
  simp only [Option.bind_some, if_neg (show ¬ content.length + 4 < 4 by omega),
    Nat.add_sub_cancel]
  rw [readBytes_append rfl]
  rfl

section RoundTrip

variable {Item Value : Type} {readItem : List UInt8 → Option (Value × List UInt8)}
  {encode : Item → List UInt8} {value : Item → Value} {items : List Item} {padding pad : Nat}

theorem readRun_flatMap (fewZeros : pad ≤ padding)
    (reads : ∀ item ∈ items, ∀ rest,
      readItem (encode item ++ rest) = some (value item, rest))
    (long : ∀ item ∈ items, padding < (encode item).length + pad) {fuel : Nat}
    (enough : items.length < fuel) :
    readRun readItem padding fuel (items.flatMap encode ++ zeros pad) =
      some (items.map value) := by
  induction items generalizing fuel with
  | nil =>
      obtain ⟨fuel, rfl⟩ := Nat.exists_eq_add_one_of_ne_zero (Nat.ne_zero_of_lt enough)
      simp [readRun, fewZeros, zeros]
  | cons item items ih =>
      obtain ⟨fuel, rfl⟩ := Nat.exists_eq_add_one_of_ne_zero (Nat.ne_zero_of_lt enough)
      have later := ih (fun other otherMem => reads other (List.mem_cons_of_mem _ otherMem))
        (fun other otherMem => long other (List.mem_cons_of_mem _ otherMem))
        (Nat.lt_of_succ_lt_succ enough)
      have notPadding : ¬ (encode item ++ (items.flatMap encode ++ zeros pad)).length ≤
          padding := by
        have itemLong := long item List.mem_cons_self
        simp only [List.length_append, length_zeros]
        omega
      rw [List.flatMap_cons, List.append_assoc, readRun, if_neg notPadding,
        reads item List.mem_cons_self]
      simp only [Option.bind_eq_bind, Option.bind_some]
      rw [later]
      rfl

/-- Reading all items of a padded run gives them back. -/
theorem readAll_flatMap (fewZeros : pad ≤ padding)
    (reads : ∀ item ∈ items, ∀ rest,
      readItem (encode item ++ rest) = some (value item, rest))
    (long : ∀ item ∈ items, padding < (encode item).length + pad) :
    readAll readItem padding (items.flatMap encode ++ zeros pad) = some (items.map value) := by
  apply readRun_flatMap fewZeros reads long
  have nonempty : ∀ item ∈ items, 1 ≤ (encode item).length := by
    intro item itemMem
    have itemLong := long item itemMem
    omega
  have count : items.length ≤ (items.flatMap encode).length := by
    rw [List.length_flatMap]
    simpa using List.length_le_sum_of_one_le (items.map fun item => (encode item).length)
      (by simpa using nonempty)
  rw [List.length_append]
  omega

end RoundTrip

theorem length_encodeHeader (length exportTime sequenceNumber observationDomain : Nat) :
    (encodeHeader length exportTime sequenceNumber observationDomain).length = 16 := by
  simp only [encodeHeader, List.length_append, length_bigEndian]

theorem length_encodeSet (setId : Nat) (content : List UInt8) :
    (encodeSet setId content).length = content.length + 4 := by
  simp only [encodeSet, List.length_append, length_bigEndian]
  omega

theorem readAll_readSet {sets : List (Nat × List UInt8)}
    (validIds : ∀ set ∈ sets, set.1 < 65536)
    (fits : (sets.flatMap fun set => encodeSet set.1 set.2).length < 65536) :
    readAll readSet 0 (sets.flatMap fun set => encodeSet set.1 set.2) =
      some (sets.map rawSet) := by
  have reads : ∀ set ∈ sets, ∀ rest,
      readSet (encodeSet set.1 set.2 ++ rest) = some (rawSet set, rest) := by
    intro set setMem rest
    apply readSet_encodeSet (validIds set setMem)
    obtain ⟨front, back, rfl⟩ := List.append_of_mem setMem
    simp only [List.flatMap_append, List.flatMap_cons, List.length_append, length_encodeSet]
      at fits
    omega
  have long : ∀ set ∈ sets, 0 < (encodeSet set.1 set.2).length + 0 := by
    intro set setMem
    rw [length_encodeSet]
    omega
  simpa [zeros] using readAll_flatMap le_rfl reads long

/-- Reading a message gives back its header and its sets. -/
theorem readMessage_encode {length exportTime sequenceNumber observationDomain : Nat}
    {sets : List (Nat × List UInt8)} (timeFits : exportTime < 2 ^ 32)
    (numberFits : sequenceNumber < 2 ^ 32) (domainFits : observationDomain < 2 ^ 32)
    (validIds : ∀ set ∈ sets, set.1 < 65536) (lengthFits : length < 65536)
    (total : length = 16 + (sets.flatMap fun set => encodeSet set.1 set.2).length) :
    readMessage (encodeHeader length exportTime sequenceNumber observationDomain ++
        sets.flatMap fun set => encodeSet set.1 set.2) =
      some ⟨length, exportTime, sequenceNumber, observationDomain, sets.map rawSet⟩ := by
  have readsSets := readAll_readSet validIds (by omega)
  have whole : length = (encodeHeader length exportTime sequenceNumber observationDomain ++
      sets.flatMap fun set => encodeSet set.1 set.2).length := by
    rw [List.length_append, length_encodeHeader]
    exact total
  unfold readMessage
  rw [← whole]
  unfold encodeHeader
  simp only [List.append_assoc]
  rw [readNumber_bigEndian (by omega)]
  simp only [Option.bind_eq_bind, Option.bind_some]
  rw [readNumber_bigEndian (by omega)]
  simp only [Option.bind_some]
  rw [readNumber_bigEndian (by omega)]
  simp only [Option.bind_some]
  rw [readNumber_bigEndian (by omega)]
  simp only [Option.bind_some]
  rw [readNumber_bigEndian (by omega)]
  simp only [Option.bind_some]
  rw [readsSets]
  simp

section Sets

variable {templates more : List Template} (set : RawSet) {sets : List RawSet}

theorem readSets_of_template (isTemplate : set.setId = 2 ∨ set.setId = 3)
    (read : readAll (readTemplate (set.setId = 3)) setPadding set.content = some more) :
    readSets templates (set :: sets) = readSets (more ++ templates) sets := by
  rw [readSets, if_pos isTemplate, read]
  rfl

theorem readSets_of_data {template : Template} {records : List Record}
    (notTemplate : ¬ (set.setId = 2 ∨ set.setId = 3))
    (known : templates.find? (fun template => template.templateId = set.setId) = some template)
    (read : readAll (readRecord template.fields) setPadding set.content = some records) :
    readSets templates (set :: sets) =
      (readSets templates sets).map fun later => ⟨set.setId, records⟩ :: later := by
  rw [readSets, if_neg notTemplate, known]
  simp only [Option.bind_eq_bind, Option.bind_some]
  rw [read]
  cases readSets templates sets <;> rfl

end Sets

end Ipfix
