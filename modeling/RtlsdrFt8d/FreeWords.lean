import RtlsdrFt8d.MessagePacking
import RtlsdrFt8d.TokenSplitting

/-!
# Words of free text

What the packing functions make of words that are no callsigns: a number of three
digits is packed like a standard callsign, any other word of letters, digits and
slashes as the hash of a non-standard one, and a third word as a report.
-/

namespace RtlsdrFt8d

/-- The words that `pack28` knows. -/
def callTokens : List (List Char) :=
  ["DE".toList, "QRZ".toList, "CQ".toList]

/-- A word of free text: no callsign, for which it would need a letter and a
digit. -/
structure IsFreeWord (word : List Char) : Prop where
  nonempty : word ≠ []
  symbols : ∀ symbol ∈ word, symbol ∈ CharTable.full.chars
  noBlank : ' ' ∉ word
  noCallsign : ¬ (word.any isLetter = true ∧ word.any Char.isDigit = true)

def IsThreeDigits (word : List Char) : Prop :=
  word.length = 3 ∧ word.all Char.isDigit = true

/-- `RRR`, `73`, or a report of two digits behind a sign, from -30 to +99. -/
def IsPlainReport (word : List Char) : Prop :=
  word = "RRR".toList ∨ word = "73".toList ∨
    ∃ tens < 10, ∃ units < 10, word = ['+', Nat.digitChar tens, Nat.digitChar units] ∨
      (0 < tens * 10 + units ∧ tens * 10 + units ≤ 30 ∧
        word = ['-', Nat.digitChar tens, Nat.digitChar units])

/-! ## Words -/

theorem blank_not_mem_of_mem_splitOn {text word : List Char} (isWord : word ∈ text.splitOn ' ') :
    ' ' ∉ word := by
  intro isBlank
  rw [List.splitOn_eq_splitOnP] at isWord
  have notBlank := TokenSplitting.mem_splitOnP_not_delim isWord ' ' isBlank
  simp at notBlank

/-- The words of a text joined by single blanks. -/
def joined (words : List (List Char)) : List Char :=
  [' '].intercalate words

theorem joined_splitOn (text : List Char) : joined (text.splitOn ' ') = text :=
  List.intercalate_splitOn ' '

theorem joined_cons_cons (word next : List Char) (words : List (List Char)) :
    joined (word :: next :: words) = word ++ ' ' :: joined (next :: words) := by
  rw [joined, joined, List.intercalate_cons_cons, List.append_assoc, List.singleton_append]

theorem mem_joined {words : List (List Char)} {word : List Char} (isWord : word ∈ words) :
    ∀ symbol ∈ word, symbol ∈ joined words := by
  induction words with
  | nil => cases isWord
  | cons first words ih =>
      cases words with
      | nil =>
          obtain rfl := List.mem_singleton.mp isWord
          intro symbol isSymbol
          rwa [joined, List.intercalate_singleton]
      | cons next words =>
          intro symbol isSymbol
          rw [joined_cons_cons, List.mem_append, List.mem_cons]
          rcases List.mem_cons.mp isWord with rfl | later
          · exact Or.inl isSymbol
          · exact Or.inr (Or.inr (ih later symbol isSymbol))

variable {word : List Char}

theorem not_isBlank_of_mem (noBlank : ' ' ∉ word) {symbol : Char} (isSymbol : symbol ∈ word) :
    isBlank symbol = false := by
  rw [isBlank, decide_eq_false_iff_not]
  rintro rfl
  exact noBlank isSymbol

/-- A word ends at a blank, or at the end of the text. -/
theorem takeWhile_append_of_noBlank (noBlank : ' ' ∉ word) {rest : List Char}
    (ends : ∀ symbol ∈ rest.head?, symbol = ' ') :
    (word ++ rest).takeWhile (fun symbol => !isBlank symbol) = word ∧
      (word ++ rest).dropWhile (fun symbol => !isBlank symbol) = rest := by
  have notBlank : ∀ symbol ∈ word, (!isBlank symbol) = true := by
    intro symbol isSymbol
    rw [not_isBlank_of_mem noBlank isSymbol, Bool.not_false]
  rw [List.takeWhile_append_of_pos notBlank, List.dropWhile_append_of_pos notBlank]
  cases rest with
  | nil => simp
  | cons symbol rest =>
      obtain rfl := ends symbol rfl
      rw [List.takeWhile_cons_of_neg (by decide), List.dropWhile_cons_of_neg (by decide),
        List.append_nil]
      exact ⟨rfl, rfl⟩

/-- `copy_token` takes the first word off. -/
theorem copyToken_joined {words : List (List Char)} (areWords : ∀ word ∈ words, IsFreeWord word)
    (length : Nat) :
    copyToken length (joined words) = ((words.getD 0 []).take length, joined (words.drop 1)) := by
  cases words with
  | nil => rfl
  | cons word words =>
      rw [List.forall_mem_cons] at areWords
      cases words with
      | nil =>
          obtain ⟨taken, dropped⟩ := @takeWhile_append_of_noBlank _ areWords.1.noBlank [] (by simp)
          rw [List.append_nil] at taken dropped
          rw [joined, List.intercalate_singleton, copyToken, taken, dropped]
          rfl
      | cons next words =>
          obtain ⟨taken, dropped⟩ := @takeWhile_append_of_noBlank _ areWords.1.noBlank
            (' ' :: joined (next :: words)) (by simp)
          rw [joined_cons_cons, copyToken, taken, dropped]
          obtain ⟨first, others, rfl⟩ :=
            List.exists_cons_of_ne_nil (areWords.2 next (by simp)).nonempty
          have inJoined := (areWords.2 (first :: others) (by simp)).noBlank
          have notBlank := not_isBlank_of_mem inJoined (List.mem_cons_self (a := first))
          have startsWithWord : ∃ later, joined ((first :: others) :: words) = first :: later := by
            cases words with
            | nil => exact ⟨others, by rw [joined, List.intercalate_singleton]⟩
            | cons last words => exact ⟨_, by rw [joined_cons_cons, List.cons_append]⟩
          obtain ⟨later, starts⟩ := startsWithWord
          rw [starts, trimFront, List.dropWhile_cons_of_pos (by decide),
            List.dropWhile_cons_of_neg (by simp [notBlank]), List.drop_succ_cons, List.drop_zero,
            starts]
          rfl

theorem head?_joined_cons (nonempty : word ≠ []) (words : List (List Char)) :
    (joined (word :: words)).head? = word.head? := by
  cases words with
  | nil => rw [joined, List.intercalate_singleton]
  | cons next words => rw [joined_cons_cons, List.head?_append_of_ne_nil _ nonempty]

/-- The last character of a text is one of its words'. -/
theorem mem_of_mem_getLast?_joined {words : List (List Char)} (areWords : ∀ word ∈ words, word ≠ [])
    {symbol : Char} (isLast : symbol ∈ (joined words).getLast?) :
    ∃ word ∈ words, symbol ∈ word := by
  induction words with
  | nil => cases isLast
  | cons word words ih =>
      cases words with
      | nil =>
          rw [joined, List.intercalate_singleton] at isLast
          exact ⟨word, by simp, List.mem_of_getLast? isLast⟩
      | cons next words =>
          rw [List.forall_mem_cons] at areWords
          have nonempty : joined (next :: words) ≠ [] := by
            intro empty
            have first := head?_joined_cons (areWords.2 next (by simp)) words
            rw [empty] at first
            exact areWords.2 next (by simp) (List.head?_eq_none_iff.mp first.symm)
          rw [joined_cons_cons, List.getLast?_append_of_ne_nil _ (by simp),
            List.getLast?_cons_of_ne_nil nonempty] at isLast
          obtain ⟨found, isWord, isSymbol⟩ := ih areWords.2 isLast
          exact ⟨found, List.mem_cons_of_mem word isWord, isSymbol⟩

/-- A text of words has no blanks around it. -/
theorem trim_joined {words : List (List Char)} (areWords : ∀ word ∈ words, IsFreeWord word) :
    trim (joined words) = joined words := by
  have front : trimFront (joined words) = joined words := by
    cases words with
    | nil => rfl
    | cons word words =>
        rw [List.forall_mem_cons] at areWords
        obtain ⟨first, others, starts⟩ := List.exists_cons_of_ne_nil areWords.1.nonempty
        have isFirst := head?_joined_cons areWords.1.nonempty words
        rw [starts, List.head?_cons, ← starts] at isFirst
        obtain ⟨later, eq⟩ := List.head?_eq_some_iff.mp isFirst
        have notBlank := not_isBlank_of_mem areWords.1.noBlank
          (show first ∈ word by rw [starts]; simp)
        rw [eq, trimFront, List.dropWhile_cons_of_neg (by simp [notBlank])]
  rw [trim, front, trimBack, List.rdropWhile_eq_self_iff]
  intro nonempty
  have isLast := List.getLast_mem_getLast? nonempty
  obtain ⟨word, isWord, isSymbol⟩ :=
    mem_of_mem_getLast?_joined (fun word isWord => (areWords word isWord).nonempty) isLast
  rw [not_isBlank_of_mem (areWords word isWord).noBlank isSymbol]
  exact Bool.false_ne_true

/-! ## Characters of free words -/

theorem IsFreeWord.not_isDigit (free : IsFreeWord word) {letter : Char}
    (isLetterMem : letter ∈ word) (isLetter : isLetter letter = true) :
    ∀ symbol ∈ word, symbol.isDigit = false := by
  intro symbol isSymbol
  by_contra isDigit
  rw [Bool.not_eq_false] at isDigit
  exact free.noCallsign ⟨List.any_eq_true.mpr ⟨letter, isLetterMem, isLetter⟩,
    List.any_eq_true.mpr ⟨symbol, isSymbol, isDigit⟩⟩

theorem IsFreeWord.not_isLetter (free : IsFreeWord word) {digit : Char} (isDigitMem : digit ∈ word)
    (isDigit : digit.isDigit = true) : ∀ symbol ∈ word, isLetter symbol = false := by
  intro symbol isSymbol
  by_contra isLetter
  rw [Bool.not_eq_false] at isLetter
  have notDigit := free.not_isDigit isSymbol isLetter digit isDigitMem
  simp [isDigit] at notDigit

theorem mem_callSymbols_of_mem {symbol : Char}
    (inTable : symbol ∈ CharTable.alphanumSpaceSlash.chars) (notBlank : symbol ≠ ' ') :
    symbol ∈ callSymbols := by
  revert notBlank
  have known : ∀ symbol ∈ CharTable.alphanumSpaceSlash.chars, symbol ≠ ' ' →
      symbol ∈ callSymbols := by
    decide
  exact known symbol inTable

/-- What `save_callsign` accepts. -/
theorem isSome_saveCallsignLoop {callsign : List Char}
    (inTable : ∀ symbol ∈ callsign, symbol ∈ CharTable.alphanumSpaceSlash.chars) (count : Nat)
    (n58 : UInt64) : ∃ result, saveCallsignLoop count callsign n58 = some result := by
  induction count generalizing callsign n58 with
  | zero => exact ⟨n58, by rw [saveCallsignLoop]⟩
  | succ count ih =>
      cases callsign with
      | nil => exact ih (by simp) _
      | cons symbol callsign =>
          rw [List.forall_mem_cons] at inTable
          obtain ⟨j, index⟩ := Option.isSome_iff_exists.mp (List.isSome_idxOf?.mpr inTable.1)
          have isIndex : nchar symbol .alphanumSpaceSlash = some j := index
          rw [saveCallsignLoop, isIndex]
          exact ih inTable.2 _

theorem exists_callsignHash {callsign : List Char}
    (inTable : ∀ symbol ∈ callsign, symbol ∈ CharTable.alphanumSpaceSlash.chars) :
    ∃ n22, callsignHash callsign = some n22 ∧ n22.toNat < max22 := by
  obtain ⟨n58, looped⟩ := isSome_saveCallsignLoop inTable 11 0
  refine ⟨_, by rw [callsignHash, looped, Option.map_some], ?_⟩
  rw [UInt64.toNat_toUInt32, UInt64.toNat_and]
  have small := Nat.and_le_right (n := ((47055833459 * n58) >>> (64 - 22)).toNat) (m := 0x3FFFFF)
  have isMax : max22 = 0x3FFFFF + 1 := rfl
  change (_ &&& 0x3FFFFF) % 2 ^ 32 < max22
  omega

/-! ## Packing a call -/

theorem callSymbols_of_callsignHash {n22 : UInt32} (noBlank : ' ' ∉ word)
    (short : word.length ≤ 11) (hashed : callsignHash word = some n22) :
    ∀ symbol ∈ word, symbol ∈ callSymbols := by
  obtain ⟨n58, looped, -⟩ := Option.map_eq_some_iff.mp hashed
  have inTable := mem_chars_of_saveCallsignLoop looped
  rw [List.take_of_length_le short] at inTable
  intro symbol isSymbol
  refine mem_callSymbols_of_mem (inTable symbol isSymbol) ?_
  rintro rfl
  exact noBlank isSymbol

theorem IsCallId.mem_chars (isCallId : IsCallId word) :
    ∀ symbol ∈ word, symbol ∈ CharTable.alphanumSpaceSlash.chars := by
  have known : ∀ symbol ∈ callSymbols, symbol ∈ CharTable.alphanumSpaceSlash.chars := by
    decide
  exact fun symbol isSymbol => known symbol (isCallId.symbols symbol isSymbol)

theorem IsCallId.exists_callsignHash (isCallId : IsCallId word) :
    ∃ n22, callsignHash word = some n22 ∧ n22.toNat < max22 :=
  RtlsdrFt8d.exists_callsignHash isCallId.mem_chars

theorem callsignHash_of_not_isCallId (noBlank : ' ' ∉ word) (long : 3 ≤ word.length)
    (short : word.length ≤ 11) (notCall : ¬ IsCallId word) : callsignHash word = none := by
  cases hashed : callsignHash word with
  | none => rfl
  | some n22 =>
      exact absurd ⟨callSymbols_of_callsignHash noBlank short hashed, long, short⟩ notCall

theorem lengthBase_le (word : List Char) : lengthBase word ≤ word.length := by
  rw [lengthBase]
  split
  · exact Nat.sub_le _ _
  · exact Nat.le_refl _

/-- What a standard callsign has in the buffer. -/
theorem mem_chars_of_packBasecall {length n28 : Nat}
    (packed : packBasecall word length = some n28) :
    2 < length ∧
      (basecallC6 word length).getD 0 ' ' ∈ CharTable.alphanumSpace.chars ∧
      (basecallC6 word length).getD 1 ' ' ∈ CharTable.alphanum.chars ∧
      (basecallC6 word length).getD 3 ' ' ∈ CharTable.lettersSpace.chars := by
  have inTable {symbol : Char} {table : CharTable} {i : Nat} (index : nchar symbol table = some i) :
      symbol ∈ table.chars :=
    List.isSome_idxOf?.mp (by rw [← nchar, index]; rfl)
  rw [packBasecall] at packed
  split at packed
  · rename_i long
    obtain ⟨i0, first, packed⟩ := Option.bind_eq_some_iff.mp packed
    obtain ⟨i1, second, packed⟩ := Option.bind_eq_some_iff.mp packed
    obtain ⟨i2, third, packed⟩ := Option.bind_eq_some_iff.mp packed
    obtain ⟨i3, fourth, packed⟩ := Option.bind_eq_some_iff.mp packed
    exact ⟨long, inTable first, inTable second, inTable fourth⟩
  · cases packed

/-- What `pack28` packs is a token or could be a callsign. -/
theorem pack28_of_not_isCallId (notToken : word ∉ callTokens) (noBlank : ' ' ∉ word)
    (short : word.length ≤ 11) (notCall : ¬ IsCallId word) (hashIf : Option CallsignTable) :
    (pack28 word hashIf).1 = none := by
  have noHash (long : 3 ≤ word.length) : callsignHash word = none :=
    callsignHash_of_not_isCallId noBlank long short notCall
  simp only [callTokens, List.mem_cons, List.not_mem_nil, or_false, not_or] at notToken
  rw [pack28, if_neg notToken.1, if_neg notToken.2.1, if_neg notToken.2.2]
  split
  · rfl
  · rw [packCallsign]
    split
    case h_1 n28 packed =>
      have long : 3 ≤ word.length := by
        have base := (mem_chars_of_packBasecall packed).1
        have baseLe := lengthBase_le word
        omega
      rw [saveCallsignIf, noHash long]
      rfl
    case h_2 =>
      split_ifs with lengths
      · rw [saveCallsignIf, noHash lengths.1]
        rfl
      · rfl

theorem mem_of_startsWith {start : List Char} (starts : startsWith word start = true)
    {symbol : Char} (isFirst : symbol ∈ start) : symbol ∈ word :=
  (List.isPrefixOf_iff_prefix.mp starts).subset isFirst

theorem mem_of_endsWith {suffix : List Char} (ends : endsWith word suffix = true)
    {symbol : Char} (isLast : symbol ∈ suffix) : symbol ∈ word :=
  (List.isSuffixOf_iff_suffix.mp ends).subset isLast

/-- A word with a suffix has a letter, so it has no digits. -/
theorem IsFreeWord.not_isDigit_of_suffixed (free : IsFreeWord word)
    (suffixed : hasSuffix word = true) :
    ∀ symbol ∈ word, symbol.isDigit = false := by
  rcases Bool.or_eq_true_iff.mp suffixed with portable | rover
  · exact free.not_isDigit (mem_of_endsWith portable (show 'P' ∈ "/P".toList by decide))
      (by decide)
  · exact free.not_isDigit (mem_of_endsWith rover (show 'R' ∈ "/R".toList by decide))
      (by decide)

theorem isDigit_of_mem_alphanum : ∀ symbol ∈ CharTable.alphanum.chars, isLetter symbol = false →
    symbol.isDigit = true := by
  decide

theorem isDigit_of_mem_alphanumSpace : ∀ symbol ∈ CharTable.alphanumSpace.chars,
    symbol ≠ ' ' → isLetter symbol = false → symbol.isDigit = true := by
  decide

theorem isLetter_of_mem_lettersSpace : ∀ symbol ∈ CharTable.lettersSpace.chars,
    symbol ≠ ' ' → isLetter symbol = true := by
  decide

/-- Of the words of free text, numbers of three digits are packed like standard
callsigns. -/
theorem isThreeDigits_of_packBasecall (free : IsFreeWord word) {n28 : Nat}
    (packed : packBasecall word (lengthBase word) = some n28) : IsThreeDigits word := by
  obtain ⟨long, first, second, fourth⟩ := mem_chars_of_packBasecall packed
  have length_le := lengthBase_le word
  obtain ⟨c0, c1, c2, rest, rfl⟩ : ∃ c0 c1 c2 rest, word = c0 :: c1 :: c2 :: rest := by
    match word, (show 3 ≤ word.length by omega) with
    | c0 :: c1 :: c2 :: rest, _ => exact ⟨c0, c1, c2, rest, rfl⟩
  have notBlank {symbol : Char} (isSymbol : symbol ∈ c0 :: c1 :: c2 :: rest) : symbol ≠ ' ' := by
    rintro rfl
    exact free.noBlank isSymbol
  have whole {digit : Char} (isSymbol : digit ∈ c0 :: c1 :: c2 :: rest)
      (isDigit : digit.isDigit = true) :
      lengthBase (c0 :: c1 :: c2 :: rest) = (c0 :: c1 :: c2 :: rest).length := by
    rw [lengthBase, if_neg]
    intro suffixed
    have noDigit := free.not_isDigit_of_suffixed suffixed digit isSymbol
    simp [isDigit] at noDigit
  unfold basecallC6 at first second fourth
  split_ifs at first second fourth with swaziland guinea third secondDigit
  · exfalso
    have digit := mem_of_startsWith swaziland.1 (show '3' ∈ "3DA0".toList by decide)
    have letter := mem_of_startsWith swaziland.1 (show 'D' ∈ "3DA0".toList by decide)
    have noDigit := free.not_isDigit letter (by decide) '3' digit
    simp at noDigit
  · exfalso
    have digit := mem_of_startsWith guinea.1 (show '3' ∈ "3X".toList by decide)
    have letter := mem_of_startsWith guinea.1 (show 'X' ∈ "3X".toList by decide)
    have noDigit := free.not_isDigit letter (by decide) '3' digit
    simp at noDigit
  · have isThird : c2.isDigit = true := third.1
    have notLetter {symbol : Char} (isSymbol : symbol ∈ c0 :: c1 :: c2 :: rest) :=
      free.not_isLetter (show c2 ∈ c0 :: c1 :: c2 :: rest by simp) isThird symbol isSymbol
    rw [whole (show c2 ∈ c0 :: c1 :: c2 :: rest by simp) isThird, List.take_length]
      at first second fourth
    have isFirst := isDigit_of_mem_alphanumSpace c0 first (notBlank (by simp))
      (notLetter (by simp))
    have isSecond := isDigit_of_mem_alphanum c1 second (notLetter (by simp))
    cases rest with
    | nil => exact ⟨rfl, by simp [isFirst, isSecond, isThird]⟩
    | cons c3 rest =>
        have isLetter := isLetter_of_mem_lettersSpace c3 fourth (notBlank (by simp))
        have noLetter := notLetter (show c3 ∈ c0 :: c1 :: c2 :: c3 :: rest by simp)
        simp [isLetter] at noLetter
  · exfalso
    have isSecond : c1.isDigit = true := secondDigit.1
    rw [show lengthBase (c0 :: c1 :: c2 :: rest) = lengthBase (c0 :: c1 :: c2 :: rest) - 3 + 3 by
      omega] at fourth
    have isLetter := isLetter_of_mem_lettersSpace c2 fourth (notBlank (by simp))
    have noLetter := free.not_isLetter (show c1 ∈ c0 :: c1 :: c2 :: rest by simp) isSecond c2
      (by simp)
    simp [isLetter] at noLetter
  · exact absurd second (by decide)

/-! ## Unpacking a call -/

/-- What a call field is unpacked to, whatever the table holds. -/
def UnpacksTo (n28 ip : Nat) (IsField : List Char → Prop) : Prop :=
  ∀ i3 table, ∃ field, (unpack28 n28 ip i3 table).1 = some field ∧ IsField field

/-- A text from the table starts with a bracket. -/
def IsBracketed (text : List Char) : Prop :=
  ∃ inner, text = '<' :: inner

theorem isBracketed_lookupCallsign (hashType : CallsignHashType) (hash : UInt32)
    (table : CallsignTable) : IsBracketed (lookupCallsign hashType hash table) := by
  rw [lookupCallsign]
  split
  · exact ⟨_, rfl⟩
  · exact ⟨_, rfl⟩

/-- The bits of a call field, and what the decoder makes of them. -/
def PacksAs (word : List Char) (n28 : Nat) : Prop :=
  n28 < 2 ^ 28 ∧ ∀ hashIf, (pack28 word hashIf).1 = some { n28 := n28, ip := 0 }

theorem exists_packsAs_of_mem_callTokens (isToken : word ∈ callTokens) :
    ∃ n28, PacksAs word n28 ∧ ∀ ip, UnpacksTo n28 ip (· = word) := by
  simp only [callTokens, List.mem_cons, List.not_mem_nil, or_false] at isToken
  rcases isToken with rfl | rfl | rfl
  · exact ⟨0, ⟨by decide, fun hashIf => rfl⟩, fun ip i3 table => ⟨_, rfl, rfl⟩⟩
  · exact ⟨1, ⟨by decide, fun hashIf => rfl⟩, fun ip i3 table => ⟨_, rfl, rfl⟩⟩
  · exact ⟨2, ⟨by decide, fun hashIf => rfl⟩, fun ip i3 table => ⟨_, rfl, rfl⟩⟩

theorem mem_numeric_of_isDigit {digit : Char} (isDigit : digit.isDigit = true) :
    digit ∈ CharTable.numeric.chars := by
  have codes : ∀ code < 58, 48 ≤ code → Char.ofNat code ∈ CharTable.numeric.chars := by
    decide
  obtain ⟨atLeast, atMost⟩ := Bool.and_eq_true_iff.mp isDigit
  have lower : 48 ≤ digit.toNat := UInt32.le_iff_toNat_le.mp (of_decide_eq_true atLeast)
  have upper : digit.toNat ≤ 57 := UInt32.le_iff_toNat_le.mp (of_decide_eq_true atMost)
  rw [← Char.ofNat_toNat digit]
  exact codes digit.toNat (by omega) lower

theorem isLetter_of_isDigit {digit : Char} (isDigit : digit.isDigit = true) :
    isLetter digit = false := by
  have known : ∀ digit ∈ CharTable.numeric.chars, isLetter digit = false := by decide
  exact known digit (mem_numeric_of_isDigit isDigit)

theorem isBlank_of_isDigit {digit : Char} (isDigit : digit.isDigit = true) :
    isBlank digit = false := by
  have known : ∀ digit ∈ CharTable.numeric.chars, isBlank digit = false := by decide
  exact known digit (mem_numeric_of_isDigit isDigit)

/-- A digit in the three tables of a standard callsign. -/
theorem exists_index_of_isDigit {digit : Char} (isDigit : digit.isDigit = true) :
    ∃ a < 10, nchar digit .alphanumSpace = some (a + 1) ∧ nchar digit .alphanum = some a ∧
      nchar digit .numeric = some a ∧ charn (a + 1) .alphanumSpace = digit ∧
      charn a .alphanum = digit ∧ charn a .numeric = digit := by
  have known : ∀ digit ∈ CharTable.numeric.chars,
      ∃ a < 10, nchar digit .alphanumSpace = some (a + 1) ∧ nchar digit .alphanum = some a ∧
        nchar digit .numeric = some a ∧ charn (a + 1) .alphanumSpace = digit ∧
        charn a .alphanum = digit ∧ charn a .numeric = digit := by
    decide
  exact known digit (mem_numeric_of_isDigit isDigit)

/-- The fields of a number that is packed like a standard callsign. -/
theorem basecallChars_number {a b c : Nat} (first : a < 37) (second : b < 36) (third : c < 10) :
    basecallChars ((((a * 36 + b) * 10 + c) * 27 * 27) * 27) =
      #v[charn a .alphanumSpace, charn b .alphanum, charn c .numeric, ' ', ' ', ' '] := by
  have n5 : (((a * 36 + b) * 10 + c) * 27 * 27) * 27 % 27 = 0 := by omega
  have d5 : (((a * 36 + b) * 10 + c) * 27 * 27) * 27 / 27 = ((a * 36 + b) * 10 + c) * 27 * 27 := by
    omega
  have n4 : ((a * 36 + b) * 10 + c) * 27 * 27 % 27 = 0 := by omega
  have d4 : ((a * 36 + b) * 10 + c) * 27 * 27 / 27 = ((a * 36 + b) * 10 + c) * 27 := by omega
  have n3 : ((a * 36 + b) * 10 + c) * 27 % 27 = 0 := by omega
  have d3 : ((a * 36 + b) * 10 + c) * 27 / 27 = (a * 36 + b) * 10 + c := by omega
  have n2 : ((a * 36 + b) * 10 + c) % 10 = c := by omega
  have d2 : ((a * 36 + b) * 10 + c) / 10 = a * 36 + b := by omega
  have n1 : (a * 36 + b) % 36 = b := by omega
  have d1 : (a * 36 + b) / 36 % 37 = a := by omega
  rw [basecallChars]
  simp only [n5, d5, n4, d4, n3, d3, n2, d2, n1, d1]
  rfl

/-- Three digits go through the fields of a standard callsign. -/
theorem basecall_digits {c0 c1 c2 : Char} (first : c0.isDigit = true) (second : c1.isDigit = true)
    (third : c2.isDigit = true) :
    ∃ n < 2 ^ 27, packBasecall [c0, c1, c2] 3 = some n ∧ unpackBasecall n = [c0, c1, c2] := by
  obtain ⟨a, aLt, aIndex, -, -, aChar, -, -⟩ := exists_index_of_isDigit first
  obtain ⟨b, bLt, -, bIndex, -, -, bChar, -⟩ := exists_index_of_isDigit second
  obtain ⟨c, cLt, -, -, cIndex, -, -, cChar⟩ := exists_index_of_isDigit third
  have buffer : basecallC6 [c0, c1, c2] 3 = [c0, c1, c2] := by
    have notGuinea : isLetter ([c0, c1, c2].getD 2 '\x00') = false := isLetter_of_isDigit third
    rw [basecallC6, if_neg (by omega), notGuinea, if_neg (by simp), if_pos ⟨third, by decide⟩]
    rfl
  have blank : nchar ' ' .lettersSpace = some 0 := by decide
  refine ⟨((((a + 1) * 36 + b) * 10 + c) * 27 * 27) * 27, by omega, ?_, ?_⟩
  · rw [packBasecall, buffer]
    simp [aIndex, bIndex, cIndex, blank]
  · have chars := @basecallChars_number (a + 1) b c (by omega) (by omega) cLt
    rw [aChar, bChar, cChar] at chars
    have notQ : c0 ≠ 'Q' := by
      rintro rfl
      exact absurd first (by decide)
    have trimmed : trim [c0, c1, c2, ' ', ' ', ' '] = [c0, c1, c2] := by
      rw [trim, trimFront, List.dropWhile_cons_of_neg (by simp [isBlank_of_isDigit first]),
        trimBack, List.rdropWhile]
      simp [isBlank_of_isDigit third, show isBlank ' ' = true by decide]
    rw [unpackBasecall, chars]
    simp [notQ, trimmed, show isBlank ' ' = true by decide]

theorem IsThreeDigits.exists_eq (three : IsThreeDigits word) :
    ∃ c0 c1 c2, word = [c0, c1, c2] ∧ c0.isDigit = true ∧ c1.isDigit = true ∧
      c2.isDigit = true := by
  obtain ⟨length, digits⟩ := three
  obtain ⟨c0, c1, c2, rfl⟩ := List.length_eq_three.mp length
  simp only [List.all_cons, List.all_nil, Bool.and_true, Bool.and_eq_true] at digits
  exact ⟨c0, c1, c2, rfl, digits⟩

theorem IsThreeDigits.isCallId (three : IsThreeDigits word) : IsCallId word where
  symbols symbol isSymbol := by
    have known : ∀ digit ∈ CharTable.numeric.chars, digit ∈ callSymbols := by decide
    exact known symbol (mem_numeric_of_isDigit (List.all_eq_true.mp three.2 symbol isSymbol))
  le_length := three.1.ge
  length_le := by
    rw [three.1]
    decide

theorem IsThreeDigits.isDigit_of_mem (three : IsThreeDigits word) {symbol : Char}
    (isSymbol : symbol ∈ word) : symbol.isDigit = true :=
  List.all_eq_true.mp three.2 symbol isSymbol

theorem IsThreeDigits.not_mem_callTokens (three : IsThreeDigits word) : word ∉ callTokens := by
  have known : ∀ token ∈ callTokens, ∃ symbol ∈ token, symbol.isDigit = false := by decide
  intro isToken
  obtain ⟨symbol, isSymbol, notDigit⟩ := known word isToken
  rw [three.isDigit_of_mem isSymbol] at notDigit
  cases notDigit

theorem IsThreeDigits.not_suffixed (three : IsThreeDigits word) :
    hasSuffix word = false := by
  by_contra suffixed
  rw [Bool.not_eq_false, hasSuffix, Bool.or_eq_true] at suffixed
  rcases suffixed with portable | rover
  · have digit := three.isDigit_of_mem (mem_of_endsWith portable (List.mem_cons_self (a := '/')))
    exact absurd digit (by decide)
  · have digit := three.isDigit_of_mem (mem_of_endsWith rover (List.mem_cons_self (a := '/')))
    exact absurd digit (by decide)

theorem pack28_eq (notToken : word ∉ callTokens) (free : IsFreeWord word)
    (hashIf : Option CallsignTable) : pack28 word hashIf = packCallsign word hashIf := by
  have noUnderscore : ¬ (startsWith word "CQ_".toList = true ∧ word.length < 8) := by
    rintro ⟨starts, -⟩
    have inTable := free.symbols '_' (mem_of_startsWith starts (by decide))
    exact absurd inTable (by decide)
  simp only [callTokens, List.mem_cons, List.not_mem_nil, or_false, not_or] at notToken
  rw [pack28, if_neg notToken.1, if_neg notToken.2.1, if_neg notToken.2.2, if_neg noUnderscore]

theorem exists_packsAs_of_isThreeDigits (free : IsFreeWord word) (three : IsThreeDigits word) :
    ∃ n28, PacksAs word n28 ∧ UnpacksTo n28 0 (· = word) := by
  obtain ⟨n22, hashed, -⟩ := three.isCallId.exists_callsignHash
  have packed := pack28_eq three.not_mem_callTokens free
  have notSuffixed := three.not_suffixed
  obtain ⟨c0, c1, c2, rfl, first, second, third⟩ := three.exists_eq
  obtain ⟨n, nLt, basecall, unpacked⟩ := basecall_digits first second third
  refine ⟨ntokens + max22 + n, ⟨?_, fun hashIf => ?_⟩, fun i3 table => ?_⟩
  · simp only [ntokens, max22]
    omega
  · have whole : lengthBase [c0, c1, c2] = 3 := by
      rw [lengthBase, notSuffixed]
      rfl
    rw [packed, packCallsign, whole, basecall]
    simp [saveCallsignIf, hashed, notSuffixed]
  · have notToken : ¬ ntokens + max22 + n < ntokens := by omega
    have notHash : ¬ ntokens + max22 + n - ntokens < max22 := by omega
    have isNumber : ntokens + max22 + n - ntokens - max22 = n := by omega
    rw [unpack28, if_neg notToken, if_neg notHash, isNumber, unpacked]
    exact ⟨[c0, c1, c2], rfl, rfl⟩

/-- All other words that could be callsigns are sent as hashes. -/
theorem exists_packsAs_of_isCallId (free : IsFreeWord word) (notToken : word ∉ callTokens)
    (isCallId : IsCallId word) (notNumber : ¬ IsThreeDigits word) :
    ∃ n28, PacksAs word n28 ∧ ∀ ip, UnpacksTo n28 ip IsBracketed := by
  obtain ⟨n22, hashed, small⟩ := isCallId.exists_callsignHash
  have noBasecall : packBasecall word (lengthBase word) = none := by
    cases packed : packBasecall word (lengthBase word) with
    | none => rfl
    | some n28 => exact absurd (isThreeDigits_of_packBasecall free packed) notNumber
  refine ⟨ntokens + n22.toNat, ⟨?_, fun hashIf => ?_⟩, fun ip i3 table => ?_⟩
  · simp only [ntokens, max22] at small ⊢
    omega
  · rw [pack28_eq notToken free, packCallsign, noBasecall]
    simp [isCallId.le_length, isCallId.length_le, saveCallsignIf, hashed]
  · have notWord : ¬ ntokens + n22.toNat < ntokens := by omega
    have isHash : ntokens + n22.toNat - ntokens < max22 := by omega
    rw [unpack28, if_neg notWord, if_pos isHash]
    exact ⟨_, rfl, isBracketed_lookupCallsign _ _ _⟩

/-! ## Reports -/

theorem ofDigitChars_lt {digits : List Char}
    (areDigits : ∀ digit ∈ digits, digit.isDigit = true) :
    Nat.ofDigitChars 10 digits 0 < 10 ^ digits.length := by
  induction digits using List.reverseRecOn with
  | nil => decide
  | append_singleton digits last ih =>
      rw [List.forall_mem_append, List.forall_mem_singleton] at areDigits
      have small : ∀ digit ∈ CharTable.numeric.chars, digit.toNat - '0'.toNat < 10 := by decide
      have lastSmall := small last (mem_numeric_of_isDigit areDigits.2)
      have before := ih areDigits.1
      rw [Nat.ofDigitChars_append, Nat.ofDigitChars_cons, Nat.ofDigitChars_nil,
        List.length_append, List.length_singleton, Nat.pow_succ]
      omega

theorem ddToInt_bounds (str : List Char) : -99 ≤ ddToInt str 3 ∧ ddToInt str 3 ≤ 999 := by
  have digits (i : Nat) : Nat.ofDigitChars 10 (((str.take 3).drop i).takeWhile Char.isDigit) 0 <
      10 ^ (3 - i) := by
    have below := ofDigitChars_lt (List.all_eq_true.mp
      (List.all_takeWhile (p := Char.isDigit) (l := (str.take 3).drop i)))
    have short : (((str.take 3).drop i).takeWhile Char.isDigit).length ≤ 3 - i := by
      have taken := (List.takeWhile_prefix Char.isDigit (l := (str.take 3).drop i)).length_le
      rw [List.length_drop, List.length_take] at taken
      omega
    exact Nat.lt_of_lt_of_le below (Nat.pow_le_pow_right (by decide) short)
  rw [ddToInt]
  by_cases negative : str.head? = some '-'
  · have two := digits 1
    simp only [negative, true_or, if_true]
    omega
  · have three := digits 0
    have two := digits 1
    simp only [negative, false_or, if_false]
    split_ifs <;> omega

theorem ddToInt_of_not_isDigit {str : List Char} (length : Nat)
    (noDigits : ∀ symbol ∈ str, symbol.isDigit = false) : ddToInt str length = 0 := by
  have none (i : Nat) : ((str.take length).drop i).takeWhile Char.isDigit = [] := by
    rw [List.takeWhile_eq_nil_iff]
    intro nonempty isDigit
    have notDigit := noDigits _ (List.mem_of_mem_take (List.mem_of_mem_drop
      (List.getElem_mem nonempty)))
    rw [List.get_eq_getElem] at isDigit
    rw [isDigit] at notDigit
    cases notDigit
  simp [ddToInt, none]

theorem natCast_toUInt16 (value : Int) : (toUInt16 value : Int) = value % 65536 := by
  rw [toUInt16, Int.toNat_of_nonneg (Int.emod_nonneg value (by decide))]

theorem getD_mem {α : Type} {items : List α} {i : Nat} {item : α}
    (found : items.getD i item ≠ item) : items.getD i item ∈ items := by
  rw [List.getD_eq_getElem?_getD] at found ⊢
  cases isItem : items[i]? with
  | none => simp [isItem] at found
  | some other =>
      rw [Option.getD_some]
      exact List.mem_of_getElem? isItem

/-- A locator has letters and digits. -/
theorem IsFreeWord.not_locator (free : IsFreeWord word) :
    ¬ (('A' ≤ word.getD 0 '\x00' ∧ word.getD 0 '\x00' ≤ 'R') ∧
      ('A' ≤ word.getD 1 '\x00' ∧ word.getD 1 '\x00' ≤ 'R') ∧
      (word.getD 2 '\x00').isDigit ∧ (word.getD 3 '\x00').isDigit) := by
  rintro ⟨⟨atLeast, atMost⟩, -, isDigit, -⟩
  have isSymbol : word.getD 0 '\x00' ∈ word := by
    apply getD_mem
    intro missing
    rw [missing] at atLeast
    exact absurd atLeast (by decide)
  have isDigitSymbol : word.getD 2 '\x00' ∈ word := by
    apply getD_mem
    intro missing
    rw [missing] at isDigit
    exact absurd isDigit (by decide)
  have letters : ∀ symbol ∈ CharTable.full.chars, 'A' ≤ symbol ∧ symbol ≤ 'R' →
      isLetter symbol = true := by
    decide
  have letter := letters _ (free.symbols _ isSymbol) ⟨atLeast, atMost⟩
  have noDigit := free.not_isDigit isSymbol letter _ isDigitSymbol
  rw [isDigit] at noDigit
  cases noDigit

theorem IsFreeWord.ne_of_mixed (free : IsFreeWord word) {other : List Char}
    (mixed : other.any isLetter = true ∧ other.any Char.isDigit = true) : other ≠ word := by
  rintro rfl
  exact free.noCallsign mixed

section Packgrid

variable (free : IsFreeWord word) (notRogers : word ≠ "RRR".toList)
include free notRogers

/-- After an `R` there are no digits, so the report is zero. -/
theorem packgrid_of_head_eq (starts : word.head? = some 'R') : packgrid word = 65203 := by
  obtain ⟨others, rfl⟩ := List.head?_eq_some_iff.mp starts
  have noDigits := free.not_isDigit (List.mem_cons_self (a := 'R')) (by decide)
  have notNumber : 'R' :: others ≠ "73".toList := by
    intro same
    cases same
  have zero := ddToInt_of_not_isDigit 3 fun symbol isSymbol =>
    noDigits symbol (List.mem_cons_of_mem 'R' isSymbol)
  have isR : ('R' :: others).getD 0 '\x00' = 'R' := rfl
  simp only [packgrid]
  rw [if_neg free.nonempty, if_neg notRogers, if_neg (free.ne_of_mixed (by decide)).symm,
    if_neg notNumber, if_neg free.not_locator, if_pos isR, List.drop_one, List.tail_cons, zero]
  decide

theorem packgrid_of_head_ne (notNumber : word ≠ "73".toList) (starts : word.head? ≠ some 'R') :
    (packgrid word : Int) = 32435 + ddToInt word 3 := by
  have notR : ¬ word.getD 0 '\x00' = 'R' := by
    obtain ⟨first, others, rfl⟩ := List.exists_cons_of_ne_nil free.nonempty
    intro isR
    exact starts (congrArg some isR)
  have bounds := ddToInt_bounds word
  simp only [packgrid]
  rw [if_neg free.nonempty, if_neg notRogers, if_neg (free.ne_of_mixed (by decide)).symm,
    if_neg notNumber, if_neg free.not_locator, if_neg notR, natCast_toUInt16, natCast_toUInt16,
    maxGrid4]
  omega

end Packgrid

theorem packgrid_lt (free : IsFreeWord word) : packgrid word < 2 ^ 16 := by
  by_cases rogers : word = "RRR".toList
  · subst rogers
    decide
  by_cases number : word = "73".toList
  · subst number
    decide
  by_cases starts : word.head? = some 'R'
  · rw [packgrid_of_head_eq free rogers starts]
    decide
  · have packed := packgrid_of_head_ne free rogers number starts
    have bounds := ddToInt_bounds word
    omega

/-- A locator is no free word, and has no blanks. -/
theorem gridChars_mixed (n : Nat) :
    ' ' ∉ gridChars n ∧ (gridChars n).any isLetter = true ∧
      (gridChars n).any Char.isDigit = true := by
  have letters : ∀ k < 18, ' ' ≠ Char.ofNat ('A'.toNat + k) ∧
      isLetter (Char.ofNat ('A'.toNat + k)) = true := by
    decide
  have digits : ∀ k < 10, ' ' ≠ Char.ofNat ('0'.toNat + k) ∧
      (Char.ofNat ('0'.toNat + k)).isDigit = true := by
    decide
  have field := letters _ (Nat.mod_lt (n / 10 / 10 / 18) (by decide))
  have square := letters _ (Nat.mod_lt (n / 10 / 10) (by decide))
  have digit := digits _ (Nat.mod_lt (n / 10) (by decide))
  have last := digits _ (Nat.mod_lt n (by decide))
  refine ⟨?_, ?_, ?_⟩
  · simp only [gridChars, List.mem_cons, List.not_mem_nil, or_false, not_or]
    exact ⟨field.1, square.1, digit.1, last.1⟩
  · simp only [gridChars, List.any_cons, field.2, Bool.true_or]
  · simp only [gridChars, List.any_cons, last.2, Bool.true_or, Bool.or_true]

/-- Reports of two digits go through the extra field; larger ones do not come
back as digits. -/
theorem ddToInt_intToDd {value : Int} (atLeast : -30 ≤ value) (below : value < 333) :
    ' ' ∉ intToDd value 2 true ∧
      ddToInt (intToDd value 2 true) 3 = if value ≤ 99 then value else 0 := by
  have known : ∀ n < 363, ' ' ∉ intToDd ((n : Nat) - 30 : Int) 2 true ∧
      ddToInt (intToDd ((n : Nat) - 30 : Int) 2 true) 3 =
        if ((n : Nat) - 30 : Int) ≤ 99 then ((n : Nat) - 30 : Int) else 0 := by
    decide +kernel
  have found := known (value + 30).toNat (by omega)
  have same : ((value + 30).toNat : Int) - 30 = value := by omega
  rwa [same] at found

/-- The sign and the digits of a report. -/
theorem intToDd_two {tens units : Nat} (smallTens : tens < 10) (smallUnits : units < 10) :
    intToDd ((tens * 10 + units : Nat) : Int) 2 true =
        ['+', Nat.digitChar tens, Nat.digitChar units] ∧
      (0 < tens * 10 + units → intToDd (-((tens * 10 + units : Nat) : Int)) 2 true =
        ['-', Nat.digitChar tens, Nat.digitChar units]) := by
  have known : ∀ tens < 10, ∀ units < 10,
      intToDd ((tens * 10 + units : Nat) : Int) 2 true =
          ['+', Nat.digitChar tens, Nat.digitChar units] ∧
        (0 < tens * 10 + units → intToDd (-((tens * 10 + units : Nat) : Int)) 2 true =
          ['-', Nat.digitChar tens, Nat.digitChar units]) := by
    decide +kernel
  exact known tens smallTens units smallUnits

/-- The reports that `int_to_dd` writes. -/
theorem isPlainReport_iff :
    IsPlainReport word ↔ word = "RRR".toList ∨ word = "73".toList ∨
      ∃ value : Int, -30 ≤ value ∧ value ≤ 99 ∧ word = intToDd value 2 true := by
  refine or_congr_right (or_congr_right ⟨?_, ?_⟩)
  · rintro ⟨tens, smallTens, units, smallUnits, rfl | ⟨positive, atMost, rfl⟩⟩
    · exact ⟨_, by omega, by omega, (intToDd_two smallTens smallUnits).1.symm⟩
    · exact ⟨_, by omega, by omega, ((intToDd_two smallTens smallUnits).2 positive).symm⟩
  · rintro ⟨value, atLeast, atMost, rfl⟩
    have smallTens : value.natAbs / 10 < 10 := by omega
    have smallUnits : value.natAbs % 10 < 10 := Nat.mod_lt _ (by decide)
    have whole : value.natAbs / 10 * 10 + value.natAbs % 10 = value.natAbs := by omega
    obtain ⟨positive, negative⟩ := intToDd_two smallTens smallUnits
    rw [whole] at positive negative
    refine ⟨_, smallTens, _, smallUnits, ?_⟩
    rcases Int.natAbs_eq value with same | opposite
    · rw [← same] at positive
      exact Or.inl positive
    · rw [← opposite] at negative
      by_cases zero : value = 0
      · subst zero
        exact Or.inl rfl
      · exact Or.inr ⟨by omega, by omega, negative (by omega)⟩

/-- A report that is neither `RRR` nor `73` is a signed number. -/
theorem IsPlainReport.ddToInt_eq (plain : IsPlainReport word) (notRogers : word ≠ "RRR".toList)
    (notNumber : word ≠ "73".toList) :
    -30 ≤ ddToInt word 3 ∧ ddToInt word 3 ≤ 99 ∧ word = intToDd (ddToInt word 3) 2 true := by
  rcases isPlainReport_iff.mp plain with rogers | number | ⟨value, atLeast, atMost, rfl⟩
  · exact absurd rogers notRogers
  · exact absurd number notNumber
  · rw [(ddToInt_intToDd atLeast (by omega)).2, if_pos atMost]
    exact ⟨atLeast, atMost, rfl⟩

section Unpackgrid

/-- The extra field of the sixteen bits that `packgrid` gives. -/
def unpackedGrid (igrid4 : Nat) : List Char :=
  unpackgrid (igrid4 % 2 ^ 15) (igrid4 / 2 ^ 15)

variable {igrid4 : Nat}

theorem unpackedGrid_of_locator (isLocator : igrid4 ≤ maxGrid4) :
    unpackedGrid igrid4 = gridChars igrid4 := by
  have below : igrid4 < 2 ^ 15 := Nat.lt_of_le_of_lt isLocator (by decide)
  rw [unpackedGrid, unpackgrid, Nat.mod_eq_of_lt below, Nat.div_eq_of_lt below, if_pos isLocator]
  rfl

theorem unpackedGrid_of_report (aboveWords : maxGrid4 + 4 < igrid4) (below : igrid4 < 2 ^ 15) :
    unpackedGrid igrid4 = intToDd (igrid4 - 32435) 2 true := by
  have notLocator : ¬ igrid4 ≤ maxGrid4 := by omega
  have value : ((igrid4 - maxGrid4 : Nat) : Int) - 35 = igrid4 - 32435 := by
    rw [maxGrid4] at notLocator ⊢
    omega
  rw [unpackedGrid, unpackgrid, Nat.mod_eq_of_lt below, Nat.div_eq_of_lt below,
    if_neg notLocator]
  dsimp only
  rw [if_neg (by omega), if_neg (by omega), if_neg (by omega), if_neg (by omega), value]
  rfl

/-- A number that runs into the flag. -/
theorem unpackedGrid_of_flag (atLeast : 2 ^ 15 ≤ igrid4) (isLocator : igrid4 % 2 ^ 15 ≤ maxGrid4) :
    (unpackedGrid igrid4).head? = some 'R' := by
  rw [unpackedGrid, unpackgrid, if_pos isLocator, if_pos (by omega)]
  rfl

end Unpackgrid

/-- What comes back of a third word: no blank, and the word only where it is a
plain report, or else something that starts with an `R` which the word lacks. -/
theorem unpackedGrid_packgrid (free : IsFreeWord word) :
    (' ' ∉ unpackedGrid (packgrid word) ∧
      (unpackedGrid (packgrid word) = word ↔ IsPlainReport word)) ∨
    ((unpackedGrid (packgrid word)).head? = some 'R' ∧ word.head? ≠ some 'R' ∧
      ¬ IsPlainReport word) := by
  by_cases rogers : word = "RRR".toList
  · subst rogers
    exact Or.inl ⟨by decide, fun _ => Or.inl rfl, fun _ => by decide⟩
  by_cases number : word = "73".toList
  · subst number
    exact Or.inl ⟨by decide, fun _ => Or.inr (Or.inl rfl), fun _ => by decide⟩
  have isReport (plain : IsPlainReport word) := plain.ddToInt_eq rogers number
  by_cases starts : word.head? = some 'R'
  · left
    have noDigits := free.not_isDigit (List.mem_of_mem_head? starts) (by decide)
    rw [packgrid_of_head_eq free rogers starts]
    refine ⟨by decide, fun same => absurd same (free.ne_of_mixed (by decide)), fun plain => ?_⟩
    have zero := (isReport plain).2.2
    rw [ddToInt_of_not_isDigit 3 noDigits] at zero
    rw [zero] at starts
    exact absurd starts (by decide)
  have packed := packgrid_of_head_ne free rogers number starts
  have bounds := ddToInt_bounds word
  generalize packgrid word = igrid4 at packed ⊢
  by_cases isLocator : igrid4 ≤ maxGrid4
  · have mixed := gridChars_mixed igrid4
    rw [unpackedGrid_of_locator isLocator]
    rw [maxGrid4] at isLocator
    refine Or.inl ⟨mixed.1, fun same => absurd same (free.ne_of_mixed mixed.2), fun plain => ?_⟩
    have atLeast := (isReport plain).1
    omega
  by_cases isWord : igrid4 ≤ maxGrid4 + 4
  · rw [maxGrid4] at isLocator isWord
    have notReport (plain : IsPlainReport word) : False := by
      have atLeast := (isReport plain).1
      omega
    have four : igrid4 = 32401 ∨ igrid4 = 32402 ∨ igrid4 = 32403 ∨ igrid4 = 32404 := by omega
    rcases four with rfl | rfl | rfl | rfl
    · exact Or.inl ⟨by decide, fun same => absurd same.symm free.nonempty,
        fun plain => absurd plain notReport⟩
    · exact Or.inl ⟨by decide, fun same => absurd same.symm rogers,
        fun plain => absurd plain notReport⟩
    · exact Or.inl ⟨by decide, fun same => absurd same (free.ne_of_mixed (by decide)),
        fun plain => absurd plain notReport⟩
    · exact Or.inl ⟨by decide, fun same => absurd same.symm number,
        fun plain => absurd plain notReport⟩
  rw [maxGrid4] at isWord
  by_cases below : igrid4 < 2 ^ 15
  · have value : (igrid4 : Int) - 32435 = ddToInt word 3 := by omega
    obtain ⟨noBlank, readBack⟩ := ddToInt_intToDd (show -30 ≤ ddToInt word 3 by omega)
      (show ddToInt word 3 < 333 by omega)
    rw [unpackedGrid_of_report (by rw [maxGrid4]; omega) below, value]
    refine Or.inl ⟨noBlank, fun same => ?_, fun plain => (isReport plain).2.2.symm⟩
    rw [same] at readBack
    split_ifs at readBack with atMost
    · exact isPlainReport_iff.mpr
        (Or.inr (Or.inr ⟨ddToInt word 3, by omega, atMost, same.symm⟩))
    · omega
  · refine Or.inr ⟨unpackedGrid_of_flag (by omega) (by rw [maxGrid4]; omega), starts,
      fun plain => ?_⟩
    have atMost := (isReport plain).2.1
    omega

/-- The rest of a text comes back where it is one word, and that a plain report. -/
theorem unpackedGrid_eq_append_iff (free : IsFreeWord word) {rest : List Char}
    (ends : ∀ symbol ∈ rest.head?, symbol = ' ') :
    unpackedGrid (packgrid word) = word ++ rest ↔ rest = [] ∧ IsPlainReport word := by
  rcases unpackedGrid_packgrid free with ⟨noBlank, same⟩ | ⟨starts, notR, notPlain⟩
  · rw [← same]
    constructor
    · intro whole
      cases rest with
      | nil => exact ⟨rfl, by rw [whole, List.append_nil]⟩
      | cons symbol rest =>
          obtain rfl := ends symbol rfl
          rw [whole] at noBlank
          simp at noBlank
    · rintro ⟨rfl, isWord⟩
      rw [isWord, List.append_nil]
  · refine iff_of_false (fun whole => notR ?_) fun both => notPlain both.2
    rw [whole, List.head?_append_of_ne_nil _ free.nonempty] at starts
    exact starts

end RtlsdrFt8d
