import Mathlib.Algebra.Order.Ring.Nat
import Mathlib.Data.List.DropRight

/-!
# Characters and texts of the codec

The functions of `text.c` that the message unpacking calls: the character
tables, trimming, and signed two-digit numbers.
-/

namespace RtlsdrFt8d

/-! ## Character tables -/

/-- A statement about the characters of a text is decided for these, not for all
characters. -/
instance decidableForallMem (text : List Char) (p : Char → Prop) [DecidablePred p] :
    Decidable (∀ symbol ∈ text, p symbol) :=
  List.decidableBAll p text

instance decidableExistsMem (text : List Char) (p : Char → Prop) [DecidablePred p] :
    Decidable (∃ symbol ∈ text, p symbol) :=
  List.decidableBEx p text

/-- `ft8_char_table_e`. -/
inductive CharTable where
  | full
  | alphanumSpaceSlash
  | alphanumSpace
  | lettersSpace
  | alphanum
  | numeric
  deriving DecidableEq

namespace CharTable

def hasSpace (table : CharTable) : Bool :=
  table ≠ .alphanum && table ≠ .numeric

def hasDigits (table : CharTable) : Bool :=
  table ≠ .lettersSpace

def hasLetters (table : CharTable) : Bool :=
  table ≠ .numeric

def marks : CharTable → List Char
  | full => ['+', '-', '.', '/', '?']
  | alphanumSpaceSlash => ['/']
  | _ => []

def chars (table : CharTable) : List Char :=
  (if table.hasSpace then [' '] else []) ++
    (if table.hasDigits then "0123456789".toList else []) ++
    (if table.hasLetters then "ABCDEFGHIJKLMNOPQRSTUVWXYZ".toList else []) ++
    table.marks

end CharTable

/-- `charn`: the character at an index of a table. -/
def charn (c : Nat) (table : CharTable) : Char :=
  table.chars[c]?.getD '_'

def nchar (c : Char) (table : CharTable) : Option Nat :=
  table.chars.idxOf? c

theorem charn_mem {c : Nat} {table : CharTable} (inRange : c < table.chars.length) :
    charn c table ∈ table.chars := by
  rw [charn, List.getElem?_eq_getElem inRange, Option.getD_some]
  exact List.getElem_mem inRange

/-- Whatever the index, a symbol outside all tables never comes out. -/
theorem charn_ne {symbol : Char} (outside : ∀ table : CharTable, symbol ∉ table.chars)
    (notUnknown : symbol ≠ '_') (c : Nat) (table : CharTable) : charn c table ≠ symbol := by
  by_cases inRange : c < table.chars.length
  · have inTable := charn_mem inRange
    exact fun same => outside table (same ▸ inTable)
  · rw [charn, List.getElem?_eq_none (Nat.not_lt.mp inRange), Option.getD_none]
    exact notUnknown.symm

/-! ## Trimming -/

/-- `is_space`. -/
def isBlank (symbol : Char) : Bool :=
  symbol = ' '

def trimFront (text : List Char) : List Char :=
  text.dropWhile isBlank

def trimBack (text : List Char) : List Char :=
  text.rdropWhile isBlank

/-- `trim`, and what `trim_copy` copies. -/
def trim (text : List Char) : List Char :=
  trimBack (trimFront text)

theorem trimBack_isPrefix (text : List Char) : trimBack text <+: text :=
  List.rdropWhile_prefix isBlank text

theorem trimFront_isSuffix (text : List Char) : trimFront text <:+ text :=
  List.dropWhile_suffix isBlank

theorem mem_of_mem_trim {text : List Char} {symbol : Char} (symbolMem : symbol ∈ trim text) :
    symbol ∈ text :=
  (trimFront_isSuffix text).subset ((trimBack_isPrefix _).subset symbolMem)

theorem length_trim_le (text : List Char) : (trim text).length ≤ text.length :=
  (trimBack_isPrefix _).length_le.trans (trimFront_isSuffix text).length_le

theorem mem_trim_of_not_isBlank {text : List Char} {symbol : Char} (symbolMem : symbol ∈ text)
    (notBlank : isBlank symbol = false) : symbol ∈ trim text := by
  have inFront : symbol ∈ trimFront text := by
    rw [← List.takeWhile_append_dropWhile (p := isBlank) (l := text)] at symbolMem
    rcases List.mem_append.mp symbolMem with inBlanks | inFront
    · simp [List.mem_takeWhile_imp inBlanks] at notBlank
    · exact inFront
  have inReverse : symbol ∈ (trimFront text).reverse := List.mem_reverse.mpr inFront
  rw [← List.takeWhile_append_dropWhile (p := isBlank) (l := (trimFront text).reverse)]
    at inReverse
  rcases List.mem_append.mp inReverse with inBlanks | inBack
  · simp [List.mem_takeWhile_imp inBlanks] at notBlank
  · exact List.mem_reverse.mpr inBack

theorem mem_of_mem_trimFront {text : List Char} {symbol : Char}
    (symbolMem : symbol ∈ trimFront text) : symbol ∈ text :=
  (trimFront_isSuffix text).subset symbolMem

/-! ## Numbers -/

/-- The digits that `int_to_dd` writes; a value too large for the width runs over
the digits into the characters after them. -/
def ddDigits : Nat → Nat → List Char
  | 0, _ => []
  | width + 1, value =>
      Char.ofNat ('0'.toNat + value / 10 ^ width) :: ddDigits width (value % 10 ^ width)

def intToDd (value : Int) (width : Nat) (fullSign : Bool) : List Char :=
  (if value < 0 then ['-'] else if fullSign then ['+'] else []) ++
    ddDigits width value.natAbs

theorem length_ddDigits (width value : Nat) : (ddDigits width value).length = width := by
  induction width generalizing value with
  | zero => rfl
  | succ width ih => simp [ddDigits, ih]

theorem isDigit_of_mem_ddDigits {width value : Nat} (fits : value < 10 ^ width) {symbol : Char}
    (symbolMem : symbol ∈ ddDigits width value) : symbol.isDigit = true := by
  induction width generalizing value with
  | zero => simp [ddDigits] at symbolMem
  | succ width ih =>
      have leading : value / 10 ^ width < 10 :=
        Nat.div_lt_of_lt_mul (by rwa [Nat.pow_succ] at fits)
      have allDigits : ∀ digit < 10, (Char.ofNat ('0'.toNat + digit)).isDigit = true := by
        decide
      rcases List.mem_cons.mp symbolMem with rfl | later
      · exact allDigits _ leading
      · exact ih (Nat.mod_lt _ (Nat.pow_pos (by decide))) later

/-! ## Plain texts -/

/-- A text without an opening bracket and without a newline. -/
def IsPlainText (text : List Char) : Prop :=
  '<' ∉ text ∧ '\n' ∉ text

instance (text : List Char) : Decidable (IsPlainText text) :=
  inferInstanceAs (Decidable (_ ∧ _))

theorem IsPlainText.append {left right : List Char} (leftPlain : IsPlainText left)
    (rightPlain : IsPlainText right) : IsPlainText (left ++ right) := by
  constructor
  · simp [leftPlain.1, rightPlain.1]
  · simp [leftPlain.2, rightPlain.2]

theorem IsPlainText.of_subset {text part : List Char} (plain : IsPlainText text)
    (subset : ∀ symbol ∈ part, symbol ∈ text) : IsPlainText part :=
  ⟨fun bracket => plain.1 (subset _ bracket), fun newline => plain.2 (subset _ newline)⟩

theorem isPlainText_of_charn {text : List Char}
    (fromTables : ∀ symbol ∈ text, ∃ c table, charn c table = symbol) :
    IsPlainText text := by
  constructor
  · intro bracket
    obtain ⟨c, table, same⟩ := fromTables _ bracket
    refine charn_ne (fun table => ?_) (by decide) c table same
    cases table <;> decide
  · intro newline
    obtain ⟨c, table, same⟩ := fromTables _ newline
    refine charn_ne (fun table => ?_) (by decide) c table same
    cases table <;> decide

theorem isPlainText_of_isDigit {text : List Char}
    (digits : ∀ symbol ∈ text, symbol.isDigit = true) : IsPlainText text := by
  constructor
  · intro bracket
    simpa using digits _ bracket
  · intro newline
    simpa using digits _ newline

end RtlsdrFt8d
