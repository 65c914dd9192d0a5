import RtlsdrFt8d.CNumerals
import RtlsdrFt8d.EventRuns

/-!
# ADIF records

A reader of one record of an ADIF file, as a machine that takes one character
at a time.  A tag announces the length of its value; after the value only white
space may stand before the next tag.
-/

namespace Adif

abbrev Fields := List (List Char × List Char)

/-- What the reader is in the middle of: white space between fields, a tag, a
value of which `missing` characters are to come, or the rest after the end of
the record. -/
inductive Reader where
  | gap (fields : Fields)
  | tag (fields : Fields) (text : List Char)
  | value (fields : Fields) (name : List Char) (missing : Nat) (text : List Char)
  | ended (fields : Fields)
  | malformed
  deriving DecidableEq

/-- Start to read the value that a tag announces. -/
def openValue (fields : Fields) (name : List Char) : Nat → Reader
  | 0 => .gap (fields ++ [(name, [])])
  | missing + 1 => .value fields name (missing + 1) []

/-- The text between the angle brackets: `EOR`, or a name, a colon and the
length. -/
def closeTag (fields : Fields) (text : List Char) : Reader :=
  match text.span (fun symbol => symbol ≠ ':') with
  | (name, []) => if name.map Char.toUpper = "EOR".toList then .ended fields else .malformed
  | (name, _ :: digits) =>
      if digits ≠ [] ∧ digits.all Char.isDigit then
        openValue fields name (Nat.ofDigitChars 10 digits 0)
      else .malformed

def step : Reader → Char → Reader
  | .gap fields, symbol =>
      if symbol = '<' then .tag fields []
      else if CNumerals.isSpace symbol then .gap fields
      else .malformed
  | .tag fields text, symbol =>
      if symbol = '>' then closeTag fields text else .tag fields (text ++ [symbol])
  | .value fields name missing text, symbol =>
      if missing ≤ 1 then .gap (fields ++ [(name, text ++ [symbol])])
      else .value fields name (missing - 1) (text ++ [symbol])
  | .ended fields, symbol => if CNumerals.isSpace symbol then .ended fields else .malformed
  | .malformed, _ => .malformed

def read (reader : Reader) (text : List Char) : Reader :=
  EventRuns.run step reader text

/-- The fields of a record, in order. -/
def readRecord (text : List Char) : Option Fields :=
  match read (.gap []) text with
  | .ended fields => some fields
  | _ => none

def fieldValue (fields : Fields) (name : List Char) : Option (List Char) :=
  fields.lookup name

/-! ## Writing -/

/-- `<NAME:length>`. -/
def tagText (name : List Char) (length : Nat) : List Char :=
  '<' :: name ++ ':' :: Nat.toDigits 10 length ++ ['>']

def fieldText (field : List Char × List Char) : List Char :=
  tagText field.1 field.2.length ++ field.2

/-- The name of a field holds neither of the symbols that end it. -/
def IsTagName (name : List Char) : Prop :=
  ∀ symbol ∈ name, symbol ≠ ':' ∧ symbol ≠ '>'

instance (name : List Char) : Decidable (IsTagName name) :=
  List.decidableBAll _ name

/-! ## Reading tags -/

variable {fields : Fields} {name text rest : List Char}

@[simp]
theorem read_append (reader : Reader) (text rest : List Char) :
    read reader (text ++ rest) = read (read reader text) rest :=
  EventRuns.run_append

theorem read_cons (reader : Reader) (symbol : Char) (rest : List Char) :
    read reader (symbol :: rest) = read (step reader symbol) rest :=
  rfl

@[simp]
theorem read_malformed (text : List Char) : read .malformed text = .malformed := by
  induction text with
  | nil => rfl
  | cons symbol text ih => exact ih

theorem read_tag (noEnd : ∀ symbol ∈ text, symbol ≠ '>') (earlier : List Char) :
    read (.tag fields earlier) text = .tag fields (earlier ++ text) := by
  induction text generalizing earlier with
  | nil => simp [read]
  | cons symbol text ih =>
      rw [read_cons, step, if_neg (noEnd symbol List.mem_cons_self),
        ih fun other otherMem => noEnd other (List.mem_cons_of_mem _ otherMem)]
      simp

theorem closeTag_of_length (noColon : ∀ symbol ∈ name, symbol ≠ ':') (length : Nat) :
    closeTag fields (name ++ ':' :: Nat.toDigits 10 length) = openValue fields name length := by
  have split : (name ++ ':' :: Nat.toDigits 10 length).span (fun symbol => symbol ≠ ':') =
      (name, ':' :: Nat.toDigits 10 length) := by
    rw [List.span_eq_takeWhile_dropWhile, List.takeWhile_append_of_pos (by simpa using noColon),
      List.dropWhile_append_of_pos (by simpa using noColon)]
    simp
  have digits : (Nat.toDigits 10 length).all Char.isDigit = true := by
    rw [List.all_eq_true]
    exact fun _ => CNumerals.isDigit_of_mem_toDigits
  rw [closeTag, split]
  simp [digits, Nat.ofDigitChars_ten_toDigits]

/-- A tag opens the value that it announces. -/
theorem read_tagText (nameText : IsTagName name) (length : Nat) :
    read (.gap fields) (tagText name length) = openValue fields name length := by
  have noEnd : ∀ symbol ∈ name ++ ':' :: Nat.toDigits 10 length, symbol ≠ '>' := by
    intro symbol symbolMem
    rcases List.mem_append.mp symbolMem with inName | inLength
    · exact (nameText symbol inName).2
    · rcases List.mem_cons.mp inLength with rfl | isDigit
      · decide
      · rintro rfl
        exact absurd (CNumerals.isDigit_of_mem_toDigits isDigit) (by decide)
  have shape : tagText name length =
      '<' :: ((name ++ ':' :: Nat.toDigits 10 length) ++ ['>']) := by
    simp [tagText]
  rw [shape, read_cons, step, if_pos rfl, read_append, read_tag noEnd, List.nil_append,
    read_cons, step, if_pos rfl]
  exact closeTag_of_length (fun symbol symbolMem => (nameText symbol symbolMem).1) length

/-! ## Reading values -/

theorem read_value (text earlier : List Char) {missing : Nat} (enough : missing = text.length)
    (nonempty : text ≠ []) :
    read (.value fields name missing earlier) text =
      .gap (fields ++ [(name, earlier ++ text)]) := by
  induction text generalizing earlier missing with
  | nil => contradiction
  | cons symbol text ih =>
      rw [read_cons, step]
      cases text with
      | nil =>
          rw [if_pos (by simp [enough])]
          rfl
      | cons next text =>
          rw [if_neg (by simp [enough]), ih (earlier ++ [symbol]) (by simp [enough]) (by simp)]
          simp

/-- A value takes as many characters as announced, whatever they are. -/
theorem read_openValue {length : Nat} (enough : length ≤ text.length) :
    read (openValue fields name length) text =
      read (.gap (fields ++ [(name, text.take length)])) (text.drop length) := by
  cases length with
  | zero => rfl
  | succ length =>
      have taken : (text.take (length + 1)).length = length + 1 := List.length_take_of_le enough
      have split : read (openValue fields name (length + 1)) text =
          read (.value fields name (length + 1) [])
            (text.take (length + 1) ++ text.drop (length + 1)) := by
        rw [List.take_append_drop]
        rfl
      rw [split, read_append, read_value _ _ taken.symm (by
        rintro empty
        simp [empty] at taken)]
      rfl

theorem read_fieldText (nameText : IsTagName name)
    (value rest : List Char) :
    read (.gap fields) (fieldText (name, value) ++ rest) =
      read (.gap (fields ++ [(name, value)])) rest := by
  rw [fieldText, List.append_assoc, read_append, read_tagText nameText,
    read_openValue (by simp), List.take_left, List.drop_left]

/-- A symbol that neither fills a gap nor ends it. -/
def breaksGap (symbol : Char) : Bool :=
  symbol ≠ '<' && !CNumerals.isSpace symbol

/-- A gap holds white space only. -/
theorem read_gap_of_breaksGap (nonempty : text ≠ []) (breaks : text.all breaksGap = true)
    (rest : List Char) : read (.gap fields) (text ++ rest) = .malformed := by
  obtain ⟨symbol, later, rfl⟩ := List.exists_cons_of_ne_nil nonempty
  have broken := List.all_eq_true.mp breaks symbol List.mem_cons_self
  obtain ⟨notTag, notSpace⟩ : symbol ≠ '<' ∧ CNumerals.isSpace symbol = false := by
    simpa [breaksGap] using broken
  rw [List.cons_append, read_cons, step, if_neg notTag, notSpace]
  exact read_malformed (later ++ rest)

/-- A tag that has lost its beginning leaves no gap. -/
theorem read_cutTag {tag : List Char} (inside : (tag.drop 1).all breaksGap = true) {taken : Nat}
    (positive : 1 ≤ taken) (notAll : taken < tag.length) (rest : List Char) :
    read (.gap fields) ((tag ++ rest).drop taken) = .malformed := by
  have part : tag.drop taken = (tag.drop 1).drop (taken - 1) := by
    rw [List.drop_drop]
    congr 1
    omega
  rw [List.drop_append_of_le_length notAll.le]
  apply read_gap_of_breaksGap
  · apply List.ne_nil_of_length_pos
    rw [List.length_drop]
    omega
  · rw [part, List.all_eq_true]
    intro symbol symbolMem
    exact List.all_eq_true.mp inside symbol (List.mem_of_mem_drop symbolMem)

/-! ## Fields are kept -/

def Reader.collected : Reader → Fields
  | .gap fields => fields
  | .tag fields _ => fields
  | .value fields _ _ _ => fields
  | .ended fields => fields
  | .malformed => []

theorem collected_openValue (fields : Fields) (name : List Char) (length : Nat) :
    fields <+: (openValue fields name length).collected := by
  cases length with
  | zero => exact List.prefix_append _ _
  | succ length => exact List.prefix_rfl

theorem collected_closeTag (fields : Fields) (text : List Char) :
    closeTag fields text = .malformed ∨ fields <+: (closeTag fields text).collected := by
  unfold closeTag
  split
  · split
    · exact Or.inr List.prefix_rfl
    · exact Or.inl rfl
  · split
    · exact Or.inr (collected_openValue _ _ _)
    · exact Or.inl rfl

/-- A character adds to the fields, unless the text is malformed. -/
theorem collected_step (reader : Reader) (symbol : Char) :
    step reader symbol = .malformed ∨ reader.collected <+: (step reader symbol).collected := by
  cases reader with
  | gap fields =>
      simp only [step]
      split
      · exact Or.inr List.prefix_rfl
      · split
        · exact Or.inr List.prefix_rfl
        · exact Or.inl rfl
  | tag fields text =>
      simp only [step]
      split
      · exact collected_closeTag fields text
      · exact Or.inr List.prefix_rfl
  | value fields name missing text =>
      simp only [step]
      split
      · exact Or.inr (List.prefix_append _ _)
      · exact Or.inr List.prefix_rfl
  | ended fields =>
      simp only [step]
      split
      · exact Or.inr List.prefix_rfl
      · exact Or.inl rfl
  | malformed => exact Or.inl rfl

theorem collected_read (reader : Reader) (text : List Char) :
    read reader text = .malformed ∨ reader.collected <+: (read reader text).collected := by
  induction text generalizing reader with
  | nil => exact Or.inr List.prefix_rfl
  | cons symbol text ih =>
      rw [read_cons]
      rcases collected_step reader symbol with broken | kept
      · left
        rw [broken]
        exact read_malformed text
      · rcases ih (step reader symbol) with broken | later
        · exact Or.inl broken
        · exact Or.inr (kept.trans later)

variable (name) in
/-- The first value of a name is the one that counts. -/
theorem fieldValue_of_read {earlier final : Fields} {value : List Char}
    (known : fieldValue earlier name = some value)
    (reads : read (.gap earlier) text = .ended final) : fieldValue final name = some value := by
  rcases collected_read (.gap earlier) text with broken | kept
  · rw [broken] at reads
    contradiction
  · rw [reads] at kept
    obtain ⟨later, rfl⟩ := kept
    unfold fieldValue at known ⊢
    rw [Reader.collected, List.lookup_append, known]
    rfl

theorem readRecord_eq_some_iff {final : Fields} :
    readRecord text = some final ↔ read (.gap []) text = .ended final := by
  unfold readRecord
  split
  · next reads => rw [reads, Option.some.injEq, Reader.ended.injEq]
  · next notEnded =>
      constructor
      · intro none
        contradiction
      · intro reads
        exact absurd reads (notEnded final)

end Adif
