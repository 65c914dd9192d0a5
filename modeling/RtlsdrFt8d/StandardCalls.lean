import RtlsdrFt8d.FreeTextFallback

/-!
# Standard callsigns

`pack_basecall` fits callsigns of the usual shape into 28 bits, with a flag for a
suffix next to them.  The shapes are a data type here; from the field of such a
callsign the decoder reads it as it was written.
-/

namespace RtlsdrFt8d

/-! ## Blanks around a text -/

theorem trimFront_replicate (count : Nat) (text : List Char) :
    trimFront (List.replicate count ' ' ++ text) = trimFront text := by
  have blanks : ∀ symbol ∈ List.replicate count ' ', isBlank symbol = true := by
    intro symbol isSymbol
    rw [List.eq_of_mem_replicate isSymbol]
    rfl
  exact List.dropWhile_append_of_pos blanks

theorem trimFront_of_head {text : List Char} (starts : ∀ symbol ∈ text.head?, symbol ≠ ' ') :
    trimFront text = text := by
  cases text with
  | nil => rfl
  | cons symbol text =>
      have notBlank : isBlank symbol = false := decide_eq_false (starts symbol rfl)
      rw [trimFront, List.dropWhile_cons_of_neg (by simp [notBlank])]

theorem trimBack_replicate (text : List Char) (count : Nat) :
    trimBack (text ++ List.replicate count ' ') = trimBack text := by
  induction count with
  | zero => rw [List.replicate_zero, List.append_nil]
  | succ count ih =>
      rw [List.replicate_succ', ← List.append_assoc, trimBack,
        List.rdropWhile_concat_pos _ _ _ (by rfl), ← trimBack, ih]

/-- A word is what remains of a field that it fills only in part. -/
theorem trim_padded {word : List Char} (noBlank : ' ' ∉ word) (before behind : Nat) :
    trim (List.replicate before ' ' ++ (word ++ List.replicate behind ' ')) = word := by
  have notBlank : ∀ symbol ∈ word, isBlank symbol = false :=
    fun symbol => not_isBlank_of_mem noBlank
  rw [trim, trimFront_replicate]
  cases word with
  | nil =>
      rw [List.nil_append, ← List.append_nil (List.replicate behind ' '), trimFront_replicate]
      rfl
  | cons symbol rest =>
      rw [trimFront_of_head (by rintro _ ⟨rfl⟩ rfl; exact noBlank List.mem_cons_self),
        trimBack_replicate, trimBack, List.rdropWhile_eq_self_iff]
      intro nonempty
      rw [notBlank _ (List.getLast_mem nonempty)]
      exact Bool.false_ne_true

/-! ## Callsigns -/

def upperLetters : List Char :=
  "ABCDEFGHIJKLMNOPQRSTUVWXYZ".toList

/-- The letters behind the digit of a callsign. -/
structure IsCallSuffix (letters : List Char) : Prop where
  areLetters : ∀ symbol ∈ letters, symbol ∈ upperLetters
  short : letters.length ≤ 3

/-- A callsign with a digit in the second or third place, in the layouts that
`pack_basecall` knows.  Two prefixes are rewritten; the ones that they are
rewritten to are left out. -/
inductive IsBaseCall : List Char → Prop
  | long {first second digit : Char} {letters : List Char}
      (isFirst : first ∈ CharTable.alphanum.chars) (isSecond : second ∈ CharTable.alphanum.chars)
      (isDigit : digit ∈ CharTable.numeric.chars) (suffix : IsCallSuffix letters)
      (notGuinea : ¬(first = 'Q' ∧ second ∈ upperLetters))
      (notSwazi : [first, second, digit] = "3D0".toList → letters = []) :
      IsBaseCall (first :: second :: digit :: letters)
  | short {first digit : Char} {letters : List Char} (isFirst : first ∈ CharTable.alphanum.chars)
      (isDigit : digit ∈ CharTable.numeric.chars) (suffix : IsCallSuffix letters)
      (nonempty : letters ≠ []) : IsBaseCall (first :: digit :: letters)
  | swazi {letters : List Char} (suffix : IsCallSuffix letters) (nonempty : letters ≠ []) :
      IsBaseCall ("3DA0".toList ++ letters)
  | guinea {second digit : Char} {letters : List Char} (isSecond : second ∈ upperLetters)
      (isDigit : digit ∈ CharTable.numeric.chars) (suffix : IsCallSuffix letters) :
      IsBaseCall ('3' :: 'X' :: second :: digit :: letters)

/-- What the decoder reads at an index that the encoder found. -/
theorem exists_index {table : CharTable} {symbol : Char} (isSymbol : symbol ∈ table.chars) :
    ∃ i < table.chars.length, nchar symbol table = some i ∧ charn i table = symbol := by
  obtain ⟨i, isIndex⟩ := Option.isSome_iff_exists.mp (List.isSome_idxOf?.mpr isSymbol)
  obtain ⟨inside, same, -⟩ := List.idxOf?_eq_some_iff.mp isIndex
  exact ⟨i, inside, isIndex, by
    rw [charn, List.getElem?_eq_getElem inside, Option.getD_some, same]⟩

/-- The digits of a packed callsign. -/
theorem basecallChars_digits {i0 i1 i2 i3 i4 i5 : Nat} (small0 : i0 < 37) (small1 : i1 < 36)
    (small2 : i2 < 10) (small3 : i3 < 27) (small4 : i4 < 27) (small5 : i5 < 27) :
    basecallChars (((((i0 * 36 + i1) * 10 + i2) * 27 + i3) * 27 + i4) * 27 + i5) =
      #v[charn i0 .alphanumSpace, charn i1 .alphanum, charn i2 .numeric, charn i3 .lettersSpace,
        charn i4 .lettersSpace, charn i5 .lettersSpace] := by
  have last {high low base : Nat} (small : low < base) :
      (high * base + low) % base = low ∧ (high * base + low) / base = high := by
    constructor
    · rw [Nat.mul_comm, Nat.mul_add_mod, Nat.mod_eq_of_lt small]
    · rw [Nat.mul_comm, Nat.mul_add_div (Nat.zero_lt_of_lt small), Nat.div_eq_of_lt small,
        Nat.add_zero]
  rw [basecallChars]
  simp only [last small5, last small4, last small3, last small2, last small1,
    Nat.mod_eq_of_lt small0]

/-- Six characters that fit in their places, as a number. -/
theorem exists_basecall {c0 c1 c2 c3 c4 c5 : Char} (isFirst : c0 ∈ CharTable.alphanumSpace.chars)
    (isSecond : c1 ∈ CharTable.alphanum.chars) (isDigit : c2 ∈ CharTable.numeric.chars)
    (fourth : c3 ∈ CharTable.lettersSpace.chars) (fifth : c4 ∈ CharTable.lettersSpace.chars)
    (sixth : c5 ∈ CharTable.lettersSpace.chars) {callsign : List Char} {length : Nat}
    (long : 2 < length)
    (buffer : ∀ i < 6,
      (basecallC6 callsign length).getD i ' ' = [c0, c1, c2, c3, c4, c5].getD i ' ') :
    ∃ n < 262177560, packBasecall callsign length = some n ∧
      basecallChars n = #v[c0, c1, c2, c3, c4, c5] := by
  obtain ⟨i0, small0, index0, char0⟩ := exists_index isFirst
  obtain ⟨i1, small1, index1, char1⟩ := exists_index isSecond
  obtain ⟨i2, small2, index2, char2⟩ := exists_index isDigit
  obtain ⟨i3, small3, index3, char3⟩ := exists_index fourth
  obtain ⟨i4, small4, index4, char4⟩ := exists_index fifth
  obtain ⟨i5, small5, index5, char5⟩ := exists_index sixth
  change i0 < 37 at small0
  change i1 < 36 at small1
  change i2 < 10 at small2
  change i3 < 27 at small3
  change i4 < 27 at small4
  change i5 < 27 at small5
  refine ⟨((((i0 * 36 + i1) * 10 + i2) * 27 + i3) * 27 + i4) * 27 + i5, by omega, ?_, ?_⟩
  · rw [packBasecall, if_pos long]
    dsimp only
    rw [buffer 0 (by decide), buffer 1 (by decide), buffer 2 (by decide), buffer 3 (by decide),
      buffer 4 (by decide), buffer 5 (by decide)]
    simp [index0, index1, index2, index3, index4, index5]
  · rw [basecallChars_digits small0 small1 small2 small3 small4 small5, char0, char1, char2, char3,
      char4, char5]

/-! ### Layouts -/

variable {letters : List Char}

theorem mem_lettersSpace_of_mem :
    ∀ symbol ∈ upperLetters, symbol ∈ CharTable.lettersSpace.chars := by
  decide

theorem isLetter_of_mem_upperLetters : ∀ symbol ∈ upperLetters, isLetter symbol = true := by
  decide

theorem not_isDigit_of_mem_upperLetters : ∀ symbol ∈ upperLetters, symbol.isDigit = false := by
  decide

theorem IsCallSuffix.getD_mem (suffix : IsCallSuffix letters) (i : Nat) :
    letters.getD i ' ' ∈ CharTable.lettersSpace.chars := by
  rw [List.getD_eq_getElem?_getD]
  cases isSymbol : letters[i]? with
  | none => decide
  | some symbol =>
      exact mem_lettersSpace_of_mem symbol
        (suffix.areLetters symbol (List.mem_of_getElem? isSymbol))

theorem IsCallSuffix.noBlank (suffix : IsCallSuffix letters) : ' ' ∉ letters := fun isBlank =>
  absurd (suffix.areLetters ' ' isBlank) (by decide)

/-- Three places hold the letters, with blanks behind them. -/
theorem IsCallSuffix.padded (suffix : IsCallSuffix letters) :
    [letters.getD 0 ' ', letters.getD 1 ' ', letters.getD 2 ' '] =
      letters ++ List.replicate (3 - letters.length) ' ' := by
  have short := suffix.short
  match letters with
  | [] | [_] | [_, _] | [_, _, _] => rfl
  | _ :: _ :: _ :: _ :: _ =>
      simp only [List.length_cons] at short
      omega

theorem getD_buffer (c0 c1 c2 : Char) (letters : List Char) :
    ∀ i < 6, (c0 :: c1 :: c2 :: letters).getD i ' ' =
      [c0, c1, c2, letters.getD 0 ' ', letters.getD 1 ' ', letters.getD 2 ' '].getD i ' ' := by
  intro i inside
  match i with
  | 0 | 1 | 2 | 3 | 4 | 5 => rfl

theorem trim_word (word : List Char) (noBlank : ' ' ∉ word) (suffix : IsCallSuffix letters)
    (before : Nat) :
    trim (List.replicate before ' ' ++
      (word ++ [letters.getD 0 ' ', letters.getD 1 ' ', letters.getD 2 ' '])) =
        word ++ letters := by
  have joinedNoBlank : ' ' ∉ word ++ letters := fun isBlank =>
    (List.mem_append.mp isBlank).elim noBlank suffix.noBlank
  rw [suffix.padded, ← List.append_assoc word, trim_padded joinedNoBlank]

theorem isDigit_of_mem_numeric : ∀ digit ∈ CharTable.numeric.chars,
    digit.isDigit = true ∧ isLetter digit = false ∧ digit ≠ 'A' ∧ digit ≠ 'D' ∧ digit ≠ 'X' := by
  decide

theorem mem_alphanumSpace_of_mem : ∀ symbol ∈ CharTable.alphanum.chars,
    symbol ∈ CharTable.alphanumSpace.chars ∧ symbol ≠ ' ' := by
  decide

theorem mem_alphanum_of_mem : ∀ symbol ∈ upperLetters,
    symbol ∈ CharTable.alphanum.chars ∧ symbol ≠ ' ' := by
  decide

theorem mem_upperLetters_of_isLetter : ∀ symbol ∈ CharTable.alphanum.chars,
    isLetter symbol = true → symbol ∈ upperLetters := by
  decide

theorem mem_alphanum_of_mem_numeric : ∀ digit ∈ CharTable.numeric.chars, digit ≠ ' ' := by
  decide

/-- The text of six characters. -/
theorem unpackBasecall_eq {n : Nat} {c0 c1 c2 c3 c4 c5 : Char}
    (chars : basecallChars n = #v[c0, c1, c2, c3, c4, c5]) :
    unpackBasecall n =
      if [c0, c1, c2] = "3D0".toList ∧ c3 ≠ ' ' then "3DA0".toList ++ trim [c3, c4, c5]
      else if c0 = 'Q' ∧ isLetter c1 = true then "3X".toList ++ trim [c1, c2, c3, c4, c5]
      else trim [c0, c1, c2, c3, c4, c5] := by
  have isSwazi : ("3D0".toList.isPrefixOf [c0, c1, c2, c3, c4, c5] && !isBlank c3) = true ↔
      [c0, c1, c2] = "3D0".toList ∧ c3 ≠ ' ' := by
    rw [Bool.and_eq_true, List.isPrefixOf_iff_prefix, List.prefix_iff_eq_take, eq_comm]
    simp [isBlank]
  have isGuinea : (decide (c0 = 'Q') && isLetter c1) = true ↔ c0 = 'Q' ∧ isLetter c1 = true := by
    rw [Bool.and_eq_true, decide_eq_true_iff]
  rw [unpackBasecall, chars]
  exact if_congr isSwazi rfl (if_congr isGuinea rfl rfl)

section Layouts

variable {first second digit : Char} (suffix : IsCallSuffix letters) (behind : List Char)
include suffix

theorem exists_packed_long (isFirst : first ∈ CharTable.alphanum.chars)
    (isSecond : second ∈ CharTable.alphanum.chars) (isDigit : digit ∈ CharTable.numeric.chars)
    (notGuinea : ¬(first = 'Q' ∧ second ∈ upperLetters))
    (notSwazi : [first, second, digit] = "3D0".toList → letters = []) :
    ∃ n < 262177560, packBasecall (first :: second :: digit :: letters ++ behind)
        (first :: second :: digit :: letters).length = some n ∧
      unpackBasecall n = first :: second :: digit :: letters := by
  obtain ⟨digitIs, notLetter, notA, -, -⟩ := isDigit_of_mem_numeric digit isDigit
  obtain ⟨firstIs, firstNotBlank⟩ := mem_alphanumSpace_of_mem first isFirst
  obtain ⟨-, secondNotBlank⟩ := mem_alphanumSpace_of_mem second isSecond
  have short := suffix.short
  have buffer : basecallC6 (first :: second :: digit :: letters ++ behind)
      (first :: second :: digit :: letters).length = first :: second :: digit :: letters := by
    have noPrefix : startsWith (first :: second :: digit :: letters ++ behind) "3DA0".toList =
        false := by
      simp [startsWith, List.isPrefixOf, notA.symm]
    have third : (first :: second :: digit :: letters ++ behind).getD 2 '\x00' = digit := rfl
    rw [basecallC6, noPrefix, third, if_neg (by simp), if_neg (by simp [notLetter]),
      if_pos ⟨digitIs, by simp only [List.length_cons]; omega⟩, List.take_left]
  obtain ⟨n, small, packed, chars⟩ := exists_basecall firstIs isSecond isDigit (suffix.getD_mem 0)
    (suffix.getD_mem 1) (suffix.getD_mem 2)
    (show 2 < (first :: second :: digit :: letters).length by simp only [List.length_cons]; omega)
    (by rw [buffer]; exact getD_buffer _ _ _ _)
  refine ⟨n, small, packed, ?_⟩
  have notRewritten : ¬((first = 'Q' ∧ isLetter second = true)) := fun both =>
    notGuinea ⟨both.1, mem_upperLetters_of_isLetter second isSecond both.2⟩
  have trimmed := trim_word [first, second, digit]
    (by simp [firstNotBlank.symm, secondNotBlank.symm,
      (mem_alphanum_of_mem_numeric digit isDigit).symm])
    suffix 0
  have notSwazi : ¬([first, second, digit] = "3D0".toList ∧ letters.getD 0 ' ' ≠ ' ') := by
    rintro ⟨same, nonblank⟩
    rw [notSwazi same] at nonblank
    exact nonblank rfl
  rw [unpackBasecall_eq chars, if_neg notSwazi, if_neg notRewritten]
  exact trimmed

theorem exists_packed_short (isFirst : first ∈ CharTable.alphanum.chars)
    (isDigit : digit ∈ CharTable.numeric.chars) (nonempty : letters ≠ []) :
    ∃ n < 262177560, packBasecall (first :: digit :: letters ++ behind)
        (first :: digit :: letters).length = some n ∧
      unpackBasecall n = first :: digit :: letters := by
  obtain ⟨digitIs, -, -, notD, notX⟩ := isDigit_of_mem_numeric digit isDigit
  obtain ⟨-, firstNotBlank⟩ := mem_alphanumSpace_of_mem first isFirst
  have short := suffix.short
  obtain ⟨third, rest, rfl⟩ := List.exists_cons_of_ne_nil nonempty
  have thirdNotDigit := not_isDigit_of_mem_upperLetters third
    (suffix.areLetters third List.mem_cons_self)
  have buffer : basecallC6 (first :: digit :: third :: rest ++ behind)
      (first :: digit :: third :: rest).length = ' ' :: first :: digit :: third :: rest := by
    have noSwazi :
        startsWith (first :: digit :: third :: rest ++ behind) "3DA0".toList = false := by
      simp [startsWith, List.isPrefixOf, notD.symm]
    have noGuinea : startsWith (first :: digit :: third :: rest ++ behind) "3X".toList = false := by
      simp [startsWith, List.isPrefixOf, notX.symm]
    have symbol2 : (first :: digit :: third :: rest ++ behind).getD 2 '\x00' = third := rfl
    have symbol1 : (first :: digit :: third :: rest ++ behind).getD 1 '\x00' = digit := rfl
    rw [basecallC6, noSwazi, noGuinea, symbol2, symbol1, if_neg (by simp), if_neg (by simp),
      if_neg (by simp [thirdNotDigit]),
      if_pos ⟨digitIs, by simp only [List.length_cons] at short ⊢; omega⟩, List.take_left]
  obtain ⟨n, small, packed, chars⟩ := exists_basecall
    (show ' ' ∈ CharTable.alphanumSpace.chars by decide)
    isFirst isDigit (suffix.getD_mem 0) (suffix.getD_mem 1) (suffix.getD_mem 2)
    (show 2 < (first :: digit :: third :: rest).length by simp only [List.length_cons]; omega)
    (by rw [buffer]; exact getD_buffer _ _ _ _)
  refine ⟨n, small, packed, ?_⟩
  have trimmed := trim_word [first, digit]
    (by simp [firstNotBlank.symm, (mem_alphanum_of_mem_numeric digit isDigit).symm]) suffix 1
  rw [unpackBasecall_eq chars, if_neg (by simp), if_neg (by simp)]
  exact trimmed

theorem exists_packed_swazi (nonempty : letters ≠ []) :
    ∃ n < 262177560, packBasecall ("3DA0".toList ++ letters ++ behind)
        ("3DA0".toList ++ letters).length = some n ∧
      unpackBasecall n = "3DA0".toList ++ letters := by
  have short := suffix.short
  obtain ⟨third, rest, rfl⟩ := List.exists_cons_of_ne_nil nonempty
  have notBlank : third ≠ ' ' :=
    (mem_alphanum_of_mem third (suffix.areLetters third List.mem_cons_self)).2
  have length : ("3DA0".toList ++ third :: rest).length = rest.length + 5 := by
    simp
  have buffer : basecallC6 ("3DA0".toList ++ third :: rest ++ behind)
      ("3DA0".toList ++ third :: rest).length = '3' :: 'D' :: '0' :: third :: rest := by
    have isSwazi : startsWith ("3DA0".toList ++ third :: rest ++ behind) "3DA0".toList = true := by
      simp [startsWith, List.isPrefixOf]
    rw [List.length_cons] at short
    rw [basecallC6, if_pos ⟨isSwazi, by omega, by omega⟩, List.take_left]
    rfl
  obtain ⟨n, small, packed, chars⟩ := exists_basecall
    (show '3' ∈ CharTable.alphanumSpace.chars by decide)
    (show 'D' ∈ CharTable.alphanum.chars by decide) (show '0' ∈ CharTable.numeric.chars by decide)
    (suffix.getD_mem 0) (suffix.getD_mem 1) (suffix.getD_mem 2)
    (show 2 < ("3DA0".toList ++ third :: rest).length by omega)
    (by rw [buffer]; exact getD_buffer _ _ _ _)
  refine ⟨n, small, packed, ?_⟩
  have trimmed := trim_word [] (by simp) suffix 0
  rw [unpackBasecall_eq chars, if_pos ⟨rfl, notBlank⟩]
  exact congrArg ("3DA0".toList ++ ·) trimmed

theorem exists_packed_guinea (isSecond : second ∈ upperLetters)
    (isDigit : digit ∈ CharTable.numeric.chars) :
    ∃ n < 262177560, packBasecall ('3' :: 'X' :: second :: digit :: letters ++ behind)
        ('3' :: 'X' :: second :: digit :: letters).length = some n ∧
      unpackBasecall n = '3' :: 'X' :: second :: digit :: letters := by
  have isLetter := isLetter_of_mem_upperLetters second isSecond
  obtain ⟨secondIs, secondNotBlank⟩ := mem_alphanum_of_mem second isSecond
  have short := suffix.short
  have buffer : basecallC6 ('3' :: 'X' :: second :: digit :: letters ++ behind)
      ('3' :: 'X' :: second :: digit :: letters).length = 'Q' :: second :: digit :: letters := by
    have noSwazi : startsWith ('3' :: 'X' :: second :: digit :: letters ++ behind) "3DA0".toList =
        false := by
      simp [startsWith, List.isPrefixOf]
    have isGuinea : startsWith ('3' :: 'X' :: second :: digit :: letters ++ behind) "3X".toList =
        true := by
      simp [startsWith, List.isPrefixOf]
    have third : ('3' :: 'X' :: second :: digit :: letters ++ behind).getD 2 '\x00' = second := rfl
    rw [basecallC6, noSwazi, third, if_neg (by simp),
      if_pos ⟨isGuinea, isLetter, by simp only [List.length_cons]; omega⟩, List.take_left]
    rfl
  obtain ⟨n, small, packed, chars⟩ := exists_basecall
    (show 'Q' ∈ CharTable.alphanumSpace.chars by decide)
    secondIs isDigit (suffix.getD_mem 0) (suffix.getD_mem 1) (suffix.getD_mem 2)
    (show 2 < ('3' :: 'X' :: second :: digit :: letters).length by
      simp only [List.length_cons]; omega)
    (by rw [buffer]; exact getD_buffer _ _ _ _)
  refine ⟨n, small, packed, ?_⟩
  have trimmed := trim_word [second, digit]
    (by simp [secondNotBlank.symm, (mem_alphanum_of_mem_numeric digit isDigit).symm]) suffix 0
  rw [unpackBasecall_eq chars, if_neg (by simp), if_pos ⟨rfl, isLetter⟩]
  exact congrArg ("3X".toList ++ ·) trimmed

end Layouts

/-- A standard callsign comes back from its number, whatever is written behind it. -/
theorem IsBaseCall.exists_packed {call : List Char} (isCall : IsBaseCall call)
    (behind : List Char) :
    ∃ n < 262177560,
      packBasecall (call ++ behind) call.length = some n ∧ unpackBasecall n = call := by
  cases isCall with
  | long isFirst isSecond isDigit suffix notGuinea notSwazi =>
      exact exists_packed_long suffix behind isFirst isSecond isDigit notGuinea notSwazi
  | short isFirst isDigit suffix nonempty =>
      exact exists_packed_short suffix behind isFirst isDigit nonempty
  | swazi suffix nonempty => exact exists_packed_swazi suffix behind nonempty
  | guinea isSecond isDigit suffix => exact exists_packed_guinea suffix behind isSecond isDigit

/-! ## Call fields -/

theorem IsCallSuffix.mem_alphanum (suffix : IsCallSuffix letters) {symbol : Char}
    (isSymbol : symbol ∈ letters) : symbol ∈ CharTable.alphanum.chars :=
  (mem_alphanum_of_mem symbol (suffix.areLetters symbol isSymbol)).1

theorem numeric_subset : ∀ digit ∈ CharTable.numeric.chars, digit ∈ CharTable.alphanum.chars := by
  decide

/-- A standard callsign has letters and digits only. -/
theorem IsBaseCall.mem_alphanum {call : List Char} (isCall : IsBaseCall call) :
    ∀ symbol ∈ call, symbol ∈ CharTable.alphanum.chars := by
  intro symbol isSymbol
  cases isCall with
  | long isFirst isSecond isDigit suffix _ _ =>
      simp only [List.mem_cons] at isSymbol
      rcases isSymbol with rfl | rfl | rfl | isLetter
      · exact isFirst
      · exact isSecond
      · exact numeric_subset symbol isDigit
      · exact suffix.mem_alphanum isLetter
  | short isFirst isDigit suffix _ =>
      simp only [List.mem_cons] at isSymbol
      rcases isSymbol with rfl | rfl | isLetter
      · exact isFirst
      · exact numeric_subset symbol isDigit
      · exact suffix.mem_alphanum isLetter
  | swazi suffix _ =>
      rcases List.mem_append.mp isSymbol with inPrefix | isLetter
      · exact (show ∀ symbol ∈ "3DA0".toList, symbol ∈ CharTable.alphanum.chars by decide) symbol
          inPrefix
      · exact suffix.mem_alphanum isLetter
  | guinea isSecond isDigit suffix =>
      simp only [List.mem_cons] at isSymbol
      rcases isSymbol with rfl | rfl | rfl | rfl | isLetter
      · decide
      · decide
      · exact (mem_alphanum_of_mem symbol isSecond).1
      · exact numeric_subset symbol isDigit
      · exact suffix.mem_alphanum isLetter

theorem IsBaseCall.length_bounds {call : List Char} (isCall : IsBaseCall call) :
    3 ≤ call.length ∧ call.length ≤ 7 := by
  cases isCall with
  | long _ _ _ suffix _ _ =>
      have short := suffix.short
      simp only [List.length_cons]
      omega
  | short _ _ suffix nonempty =>
      have short := suffix.short
      have some := List.length_pos_of_ne_nil nonempty
      simp only [List.length_cons]
      omega
  | swazi suffix nonempty =>
      have short := suffix.short
      simp only [List.length_append, show "3DA0".toList.length = 4 from rfl]
      omega
  | guinea _ _ suffix =>
      have short := suffix.short
      simp only [List.length_cons]
      omega

theorem IsBaseCall.exists_digit {call : List Char} (isCall : IsBaseCall call) :
    ∃ digit ∈ call, digit ∈ CharTable.numeric.chars := by
  cases isCall with
  | @long first second digit _ _ _ isDigit _ _ _ => exact ⟨digit, by simp, isDigit⟩
  | @short first digit _ _ isDigit _ _ => exact ⟨digit, by simp, isDigit⟩
  | swazi _ _ => exact ⟨'3', by simp, by decide⟩
  | @guinea second digit _ _ isDigit _ => exact ⟨digit, by simp, isDigit⟩

/-- What may be added to a callsign. -/
inductive CallSuffix where
  | none
  | portable
  | rover
  deriving DecidableEq

def CallSuffix.text : CallSuffix → List Char
  | none => []
  | portable => "/P".toList
  | rover => "/R".toList

/-- The flag next to a callsign. -/
def CallSuffix.flag : CallSuffix → Nat
  | none => 0
  | portable => 1
  | rover => 1

/-- A standard callsign, perhaps with a suffix. -/
structure StandardCall where
  base : List Char
  suffix : CallSuffix
  isBase : IsBaseCall base

namespace StandardCall

variable (call : StandardCall)

def text : List Char :=
  call.base ++ call.suffix.text

theorem stroke_not_mem : '/' ∉ call.base := fun isStroke =>
  absurd (call.isBase.mem_alphanum '/' isStroke) (by decide)

/-- A suffix shows in the text. -/
theorem endsWith_text :
    endsWith call.text "/P".toList = decide (call.suffix = .portable) ∧
      endsWith call.text "/R".toList = decide (call.suffix = .rover) := by
  have noStroke := call.stroke_not_mem
  have bare {ending : List Char} (isEnding : '/' ∈ ending) : endsWith call.base ending = false := by
    by_contra ends
    exact noStroke (mem_of_endsWith (eq_true_of_ne_false ends) isEnding)
  have same (ending : List Char) : endsWith (call.base ++ ending) ending = true :=
    List.isSuffixOf_iff_suffix.mpr (List.suffix_append _ _)
  have other {first second : Char} (different : first ≠ second) :
      endsWith (call.base ++ ['/', first]) ['/', second] = false := by
    by_contra ends
    have isSuffix := List.isSuffixOf_iff_suffix.mp (eq_true_of_ne_false ends)
    obtain ⟨front, same⟩ := isSuffix
    have last := congrArg List.getLast? same
    simp at last
    exact different last.symm
  unfold text
  cases call.suffix with
  | none =>
      rw [CallSuffix.text, List.append_nil]
      exact ⟨bare (by decide), bare (by decide)⟩
  | portable => exact ⟨same _, other (by decide)⟩
  | rover => exact ⟨other (by decide), same _⟩

theorem lengthBase_text : lengthBase call.text = call.base.length := by
  obtain ⟨portable, rover⟩ := call.endsWith_text
  rw [lengthBase, hasSuffix, portable, rover, text]
  cases call.suffix <;> simp [CallSuffix.text]

theorem hasSuffix_text : (if hasSuffix call.text then 1 else 0) = call.suffix.flag := by
  obtain ⟨portable, rover⟩ := call.endsWith_text
  rw [hasSuffix, portable, rover]
  cases call.suffix <;> rfl

theorem isCallId : IsCallId call.text where
  symbols symbol isSymbol := by
    have known : ∀ symbol ∈ CharTable.alphanum.chars, symbol ∈ callSymbols := by decide
    rcases List.mem_append.mp isSymbol with inBase | inSuffix
    · exact known symbol (call.isBase.mem_alphanum symbol inBase)
    · revert inSuffix
      cases call.suffix with
      | none => exact fun inSuffix => absurd inSuffix List.not_mem_nil
      | portable =>
          exact (show ∀ symbol ∈ "/P".toList, symbol ∈ callSymbols by decide) symbol
      | rover => exact (show ∀ symbol ∈ "/R".toList, symbol ∈ callSymbols by decide) symbol
  le_length := by
    rw [text, List.length_append]
    exact Nat.le_add_right_of_le call.isBase.length_bounds.1
  length_le := by
    have short := call.isBase.length_bounds.2
    have suffixShort : call.suffix.text.length ≤ 2 := by
      cases call.suffix <;> decide
    rw [text, List.length_append]
    omega

theorem not_mem_callTokens : call.text ∉ callTokens := by
  have known : ∀ token ∈ callTokens, ∀ digit ∈ CharTable.numeric.chars, digit ∉ token := by decide
  obtain ⟨digit, isSymbol, isDigit⟩ := call.isBase.exists_digit
  intro isToken
  exact known _ isToken digit isDigit (List.mem_append.mpr (Or.inl isSymbol))

theorem pack28_text :
    ∃ n < 262177560, unpackBasecall n = call.base ∧ ∀ hashIf,
      (pack28 call.text hashIf).1 = some ⟨ntokens + max22 + n, call.suffix.flag⟩ := by
  obtain ⟨n, small, packed, unpacked⟩ := call.isBase.exists_packed call.suffix.text
  obtain ⟨n22, hashed, -⟩ := call.isCallId.exists_callsignHash
  refine ⟨n, small, unpacked, fun hashIf => ?_⟩
  have noUnderscore : ¬ (startsWith call.text "CQ_".toList = true ∧ call.text.length < 8) := by
    rintro ⟨starts, -⟩
    exact absurd (call.isCallId.symbols '_' (mem_of_startsWith starts (by decide))) (by decide)
  have notToken := call.not_mem_callTokens
  simp only [callTokens, List.mem_cons, List.not_mem_nil, or_false, not_or] at notToken
  rw [pack28, if_neg notToken.1, if_neg notToken.2.1, if_neg notToken.2.2, if_neg noUnderscore,
    packCallsign, lengthBase_text]
  rw [← text] at packed
  rw [packed]
  simp only [saveCallsignIf, hashed, Option.map_some, hasSuffix_text]

/-- The flag means the suffix in messages of the right type. -/
theorem unpack28_text {n i3 : Nat} (unpacked : unpackBasecall n = call.base)
    (means : callsignSuffix call.suffix.flag i3 = some call.suffix.text) (table : CallsignTable) :
    (unpack28 (ntokens + max22 + n) call.suffix.flag i3 table).1 = some call.text := by
  have long := call.isBase.length_bounds.1
  have notToken : ¬ntokens + max22 + n < ntokens := by
    rw [Nat.add_assoc]
    exact Nat.not_lt.mpr (Nat.le_add_right _ _)
  have behindTokens : ntokens + max22 + n - ntokens = max22 + n := by
    rw [Nat.add_assoc, Nat.add_sub_cancel_left]
  have notHash : ¬max22 + n < max22 := Nat.not_lt.mpr (Nat.le_add_right _ _)
  unfold unpack28
  rw [if_neg notToken, behindTokens, if_neg notHash, Nat.add_sub_cancel_left, unpacked]
  dsimp only
  rw [if_neg (Nat.not_lt.mpr long), means, text]

end StandardCall

end RtlsdrFt8d
