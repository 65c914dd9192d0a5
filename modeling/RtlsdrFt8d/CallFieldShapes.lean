import RtlsdrFt8d.MessageUnpacking

/-!
# Shapes of the unpacked fields

What the codec can write into a call field and into the extra field: a plain
text or a text in angle brackets, short enough for the buffers behind it.  The
table of callsigns must hold callsigns only, which unpacking preserves.
-/

namespace RtlsdrFt8d

/-- A call field: a plain text, or one resolved from a hash, in brackets. -/
inductive IsCallField : List Char → Prop where
  | plain {text : List Char} (isPlain : IsPlainText text) (short : text.length ≤ 11) :
      IsCallField text
  | bracketed {inner : List Char} (isPlain : IsPlainText inner) (short : inner.length ≤ 11)
      (nonempty : inner ≠ []) : IsCallField (addBrackets inner)

/-- What may follow `CQ` in a standard message: three digits, or one to four letters. -/
def IsCqModifier (modifier : List Char) : Prop :=
  (modifier.length = 3 ∧ modifier.all Char.isDigit = true) ∨
    (1 ≤ modifier.length ∧ modifier.length ≤ 4 ∧ modifier.all Char.isUpper = true)

instance (modifier : List Char) : Decidable (IsCqModifier modifier) :=
  inferInstanceAs (Decidable (_ ∨ _))

/-- The characters of a callsign. -/
def callSymbols : List Char :=
  '/' :: CharTable.alphanum.chars

/-- Three to eleven letters, digits and slashes: a callsign as far as the codec
looks. -/
structure IsCallId (callId : List Char) : Prop where
  symbols : ∀ symbol ∈ callId, symbol ∈ callSymbols
  le_length : 3 ≤ callId.length
  length_le : callId.length ≤ 11

/-! ## Callsigns -/

theorem isPlainText_of_alphanumSpaceSlash {text : List Char}
    (fromTable : ∀ symbol ∈ text, symbol ∈ CharTable.alphanumSpaceSlash.chars) :
    IsPlainText text := by
  constructor
  · exact fun bracket => absurd (fromTable _ bracket) (by decide)
  · exact fun newline => absurd (fromTable _ newline) (by decide)

theorem unresolvedCallsign_eq : unresolvedCallsign = addBrackets "...".toList := by
  decide

theorem isCallField_unresolvedCallsign : IsCallField unresolvedCallsign :=
  unresolvedCallsign_eq ▸ .bracketed (by decide) (by decide) (by decide)

theorem isCallField_lookupCallsign {table : CallsignTable} (holds : table.HoldsCallsigns)
    (hashType : CallsignHashType) (hash : UInt32) :
    IsCallField (lookupCallsign hashType hash table) := by
  unfold lookupCallsign
  split
  case h_1 => exact isCallField_unresolvedCallsign
  case h_2 callsign resolved =>
    obtain ⟨entry, entryMem, rfl⟩ := exists_entry_of_hashtableLookup resolved
    have short := entry.callsign.length_le
    exact .bracketed (isPlainText_of_alphanumSpaceSlash (holds entry entryMem)) (by omega)
      entry.callsign_ne_nil

theorem mem_unpackChars {base : Nat} {table : CharTable} {count n : Nat} {symbol : Char}
    (symbolMem : symbol ∈ unpackChars base table count n) : ∃ c, charn c table = symbol := by
  induction count generalizing n with
  | zero => simp [unpackChars] at symbolMem
  | succ count ih =>
      rcases List.mem_append.mp symbolMem with earlier | last
      · exact ih earlier
      · exact ⟨n % base, (List.mem_singleton.mp last).symm⟩

theorem length_unpackChars (base : Nat) (table : CharTable) (count n : Nat) :
    (unpackChars base table count n).length = count := by
  induction count generalizing n with
  | zero => rfl
  | succ count ih => simp [unpackChars, ih]

theorem isPlainText_unpackChars (base : Nat) (table : CharTable) (count n : Nat) :
    IsPlainText (unpackChars base table count n) :=
  isPlainText_of_charn fun _ symbolMem =>
    let ⟨c, same⟩ := mem_unpackChars symbolMem
    ⟨c, table, same⟩

theorem isPlainText_basecallChars (n : Nat) : IsPlainText (basecallChars n).toList := by
  apply isPlainText_of_charn
  intro symbol symbolMem
  simp only [basecallChars, Vector.toList_mk, List.mem_cons, List.not_mem_nil, or_false]
    at symbolMem
  rcases symbolMem with rfl | rfl | rfl | rfl | rfl | rfl <;> exact ⟨_, _, rfl⟩

theorem isPlainText_unpackBasecall (n : Nat) : IsPlainText (unpackBasecall n) := by
  have plain := isPlainText_basecallChars n
  have trimmedPlain (text : List Char)
      (isPart : ∀ symbol ∈ text, symbol ∈ (basecallChars n).toList) : IsPlainText (trim text) :=
    plain.of_subset fun symbol symbolMem => isPart symbol (mem_of_mem_trim symbolMem)
  rw [unpackBasecall]
  split_ifs
  · exact .append (by decide) (trimmedPlain _ fun _ => List.mem_of_mem_drop)
  · exact .append (by decide) (trimmedPlain _ fun _ => List.mem_of_mem_drop)
  · exact trimmedPlain _ fun _ symbolMem => symbolMem

theorem length_unpackBasecall_le (n : Nat) : (unpackBasecall n).length ≤ 7 := by
  have sixChars : (basecallChars n).toList.length = 6 := by simp
  rw [unpackBasecall]
  split_ifs
  · have trimmed := length_trim_le ((basecallChars n).toList.drop 3)
    simp at trimmed ⊢
    omega
  · have trimmed := length_trim_le ((basecallChars n).toList.drop 1)
    simp at trimmed ⊢
    omega
  · have trimmed := length_trim_le (basecallChars n).toList
    omega

theorem exists_isDigit_unpackBasecall (n : Nat) :
    ∃ symbol ∈ unpackBasecall n, symbol.isDigit = true := by
  have digitMem : charn (n / 27 / 27 / 27 % 10) .numeric ∈ CharTable.numeric.chars :=
    charn_mem (Nat.mod_lt _ (by decide))
  have allDigits : CharTable.numeric.chars.all
      (fun symbol => symbol.isDigit && !isBlank symbol) = true := by
    decide
  obtain ⟨isDigit, notBlank⟩ := Bool.and_eq_true_iff.mp (List.all_eq_true.mp allDigits _ digitMem)
  rw [Bool.not_eq_true'] at notBlank
  rw [unpackBasecall]
  split_ifs
  · exact ⟨'3', by simp, by decide⟩
  · exact ⟨'3', by simp, by decide⟩
  · exact ⟨_, mem_trim_of_not_isBlank (by simp [basecallChars]) notBlank, isDigit⟩

theorem callsignSuffix_shape {ip i3 : Nat} {suffix : List Char}
    (isSuffix : callsignSuffix ip i3 = some suffix) :
    IsPlainText suffix ∧ suffix.length ≤ 2 := by
  unfold callsignSuffix at isSuffix
  split_ifs at isSuffix <;> cases isSuffix <;> decide

/-- What a call field of a standard message can be mistaken for in no case. -/
structure IsStandardCall (text : List Char) : Prop where
  ne_nil : text ≠ []
  ne_rrr : text ≠ "RRR".toList

theorem isStandardCall_of_head_ne {text : List Char} (nonempty : text ≠ [])
    (notR : text.head? ≠ some 'R') : IsStandardCall text :=
  ⟨nonempty, fun same => notR (by simp [same])⟩

theorem isStandardCall_lookupCallsign (hashType : CallsignHashType) (hash : UInt32)
    (table : CallsignTable) : IsStandardCall (lookupCallsign hashType hash table) := by
  unfold lookupCallsign
  split <;> exact isStandardCall_of_head_ne (by simp [unresolvedCallsign, addBrackets])
    (by simp [unresolvedCallsign, addBrackets])

theorem isStandardCall_unpackBasecall (n : Nat) (suffix : List Char) :
    IsStandardCall (unpackBasecall n ++ suffix) := by
  obtain ⟨digit, digitMem, isDigit⟩ := exists_isDigit_unpackBasecall n
  have inText : digit ∈ unpackBasecall n ++ suffix := List.mem_append_left _ digitMem
  refine ⟨List.ne_nil_of_mem inText, fun same => ?_⟩
  have noDigits : "RRR".toList.any Char.isDigit = false := by decide
  exact absurd isDigit (List.any_eq_false.mp noDigits digit (same ▸ inText))

/-- A word in place of a callsign starts like `DE`, `QRZ` or `CQ`. -/
theorem unpackToken_shape {n28 : Nat} {text : List Char} (isToken : unpackToken n28 = some text) :
    IsPlainText text ∧ text.length ≤ 11 ∧ IsStandardCall text := by
  have standard {first : Char} {rest : List Char} (notR : first ≠ 'R') :
      IsStandardCall (first :: rest) :=
    isStandardCall_of_head_ne (by simp) (by simpa using notR)
  rw [unpackToken] at isToken
  split_ifs at isToken with word zero one number letters <;> cases isToken
  · exact ⟨by decide, by decide, standard (by decide)⟩
  · exact ⟨by decide, by decide, standard (by decide)⟩
  · exact ⟨by decide, by decide, standard (by decide)⟩
  · have threeDigits : intToDd (n28 - 3) 3 false = ddDigits 3 (n28 - 3) := by
      have small : ((n28 : Int) - 3).natAbs = n28 - 3 := by omega
      rw [intToDd, if_neg (by omega), small]
      rfl
    rw [threeDigits]
    have digits := isPlainText_of_isDigit fun _ symbolMem =>
      isDigit_of_mem_ddDigits (by omega : n28 - 3 < 10 ^ 3) symbolMem
    exact ⟨.append (by decide) digits, by simp [length_ddDigits],
      standard (by decide)⟩
  · have trimmed := (trimFront_isSuffix (unpackChars 27 .lettersSpace 4 (n28 - 1003))).length_le
    rw [length_unpackChars] at trimmed
    have lettersPlain := (isPlainText_unpackChars 27 .lettersSpace 4 (n28 - 1003)).of_subset
      fun _ => mem_of_mem_trimFront
    refine ⟨.append (by decide) lettersPlain, ?_, standard (by decide)⟩
    simp
    omega

/-- What `unpack28` writes, and that the table still holds callsigns only. -/
theorem unpack28_shape {table after : CallsignTable} (holds : table.HoldsCallsigns)
    {n28 ip i3 : Nat} {unpacked : Option (List Char)}
    (result : unpack28 n28 ip i3 table = (unpacked, after)) :
    after.HoldsCallsigns ∧
      ∀ text, unpacked = some text → IsCallField text ∧ IsStandardCall text := by
  simp only [unpack28] at result
  split_ifs at result with isToken isHash tooShort
  · obtain ⟨token, rfl⟩ := Prod.mk.inj result
    refine ⟨holds, fun text isText => ?_⟩
    obtain ⟨plain, short, standard⟩ := unpackToken_shape (token.trans isText)
    exact ⟨.plain plain short, standard⟩
  · cases result
    refine ⟨holds, fun text isText => ?_⟩
    cases isText
    exact ⟨isCallField_lookupCallsign holds _ _, isStandardCall_lookupCallsign _ _ _⟩
  · cases result
    exact ⟨holds, fun text isText => by cases isText⟩
  · cases hasSuffix : callsignSuffix ip i3 with
    | none =>
        rw [hasSuffix] at result
        cases result
        exact ⟨holds, fun text isText => by cases isText⟩
    | some suffix =>
        rw [hasSuffix] at result
        cases result
        refine ⟨holds.saveCallsign _, fun text isText => ?_⟩
        cases isText
        obtain ⟨suffixPlain, suffixShort⟩ := callsignSuffix_shape hasSuffix
        have short := length_unpackBasecall_le (n28 - ntokens - max22)
        refine ⟨.plain (.append (isPlainText_unpackBasecall _) suffixPlain) ?_,
          isStandardCall_unpackBasecall _ _⟩
        rw [List.length_append]
        omega

theorem unpack58_shape {table : CallsignTable} (holds : table.HoldsCallsigns) (n58 : Nat) :
    (unpack58 n58 table).2.HoldsCallsigns ∧ IsCallField (unpack58 n58 table).1 := by
  simp only [unpack58]
  have plain := isPlainText_unpackChars 38 .alphanumSpaceSlash 11 n58
  have trimmed := length_trim_le (unpackChars 38 .alphanumSpaceSlash 11 n58)
  rw [length_unpackChars] at trimmed
  constructor
  · split_ifs
    · exact holds.saveCallsign _
    · exact holds
  · exact .plain (plain.of_subset fun _ => mem_of_mem_trim) trimmed

/-! ## Locators and reports -/

theorem toNat_ofNat_eq_or (code : Nat) :
    (Char.ofNat code).toNat = code ∨ (Char.ofNat code).toNat = 0 := by
  by_cases valid : code.isValidChar
  · have isValid : Char.ofNat code = Char.ofNatAux code valid := dif_pos valid
    exact Or.inl (congrArg Char.toNat isValid)
  · have isInvalid : Char.ofNat code = '\x00' := dif_neg valid
    exact Or.inr (congrArg Char.toNat isInvalid)

theorem newline_not_mem_ddDigits (width value : Nat) : '\n' ∉ ddDigits width value := by
  induction width generalizing value with
  | zero => simp [ddDigits]
  | succ width ih =>
      have notNewline (digit : Nat) : '\n' ≠ Char.ofNat ('0'.toNat + digit) := by
        intro same
        have code : 10 = (Char.ofNat (48 + digit)).toNat := congrArg Char.toNat same
        rcases toNat_ofNat_eq_or (48 + digit) with valid | invalid <;> omega
      simp only [ddDigits, List.mem_cons, not_or]
      exact ⟨notNewline _, ih _⟩

/-- What `unpackgrid` writes: six characters at most, and what it could share
with a modifier of a CQ is `RRR`. -/
structure IsExtraField (text : List Char) : Prop where
  short : text.length ≤ 6
  head_ne : text.head? ≠ some '<'
  noNewline : '\n' ∉ text
  eq_of_isCqModifier : IsCqModifier text → text = "RRR".toList

instance (text : List Char) : Decidable (IsExtraField text) :=
  decidable_of_iff
    (text.length ≤ 6 ∧ text.head? ≠ some '<' ∧ '\n' ∉ text ∧
      (IsCqModifier text → text = "RRR".toList))
    ⟨fun ⟨short, headNe, noNewline, isRrr⟩ => ⟨short, headNe, noNewline, isRrr⟩,
      fun ⟨short, headNe, noNewline, isRrr⟩ => ⟨short, headNe, noNewline, isRrr⟩⟩

/-- A text with a letter and a digit, or with a sign, is no modifier of a CQ. -/
theorem not_isCqModifier {text : List Char} {first second : Char} (firstMem : first ∈ text)
    (notDigit : first.isDigit = false) (secondMem : second ∈ text)
    (notUpper : second.isUpper = false) : ¬ IsCqModifier text := by
  rintro (⟨_, digits⟩ | ⟨_, _, letters⟩)
  · simp [List.all_eq_true.mp digits first firstMem] at notDigit
  · simp [List.all_eq_true.mp letters second secondMem] at notUpper

theorem gridChars_shape (n : Nat) :
    ∃ field square digit last, gridChars n = [field, square, digit, last] ∧
      IsPlainText (gridChars n) ∧ field.isDigit = false ∧ last.isUpper = false := by
  have letters : ∀ k < 18, ∀ letter, letter = Char.ofNat ('A'.toNat + k) →
      letter.isDigit = false ∧ IsPlainText [letter] := by
    simp only [IsPlainText, forall_eq]
    decide
  have digits : ∀ k < 10, ∀ digit, digit = Char.ofNat ('0'.toNat + k) →
      digit.isUpper = false ∧ IsPlainText [digit] := by
    simp only [IsPlainText, forall_eq]
    decide
  have field := letters _ (Nat.mod_lt (n / 10 / 10 / 18) (by decide)) _ rfl
  have square := letters _ (Nat.mod_lt (n / 10 / 10) (by decide)) _ rfl
  have digit := digits _ (Nat.mod_lt (n / 10) (by decide)) _ rfl
  have last := digits _ (Nat.mod_lt n (by decide)) _ rfl
  exact ⟨_, _, _, _, rfl, field.2.append (square.2.append (digit.2.append last.2)), field.1,
    last.1⟩

theorem isExtraField_grid (n : Nat) {start : List Char}
    (isStart : start = [] ∨ start = "R ".toList) : IsExtraField (start ++ gridChars n) := by
  obtain ⟨field, square, digit, last, shape, plain, notDigit, notUpper⟩ := gridChars_shape n
  have startPlain : IsPlainText start := by
    rcases isStart with rfl | rfl <;> decide
  have wholePlain := startPlain.append plain
  refine ⟨?_, fun bracket => wholePlain.1 (List.mem_of_mem_head? bracket), wholePlain.2,
    fun isModifier => absurd isModifier ?_⟩
  · rcases isStart with rfl | rfl <;> simp [shape]
  · exact not_isCqModifier (by simp [shape]) notDigit (by simp [shape]) notUpper

theorem isExtraField_report (value : Int) {start : List Char}
    (isStart : start = [] ∨ start = ['R']) : IsExtraField (start ++ intToDd value 2 true) := by
  obtain ⟨sign, digits, shape, noNewline, isSign⟩ :
      ∃ sign digits, intToDd value 2 true = sign :: digits ∧ '\n' ∉ digits ∧
        digits.length = 2 ∧ (sign = '-' ∨ sign = '+') := by
    simp only [intToDd, if_true]
    split_ifs
    · exact ⟨_, _, rfl, newline_not_mem_ddDigits _ _, length_ddDigits _ _, Or.inl rfl⟩
    · exact ⟨_, _, rfl, newline_not_mem_ddDigits _ _, length_ddDigits _ _, Or.inr rfl⟩
  have notModifier : ¬ IsCqModifier (start ++ intToDd value 2 true) := by
    have signMem : sign ∈ start ++ intToDd value 2 true := by simp [shape]
    rcases isSign.2 with rfl | rfl <;>
      exact not_isCqModifier signMem (by decide) signMem (by decide)
  refine ⟨?_, ?_, ?_, fun isModifier => absurd isModifier notModifier⟩ <;>
    rcases isStart with rfl | rfl <;> rcases isSign with ⟨twoDigits, rfl | rfl⟩ <;>
    simp [shape, twoDigits, noNewline]

theorem isExtraField_unpackgrid (igrid4 ir : Nat) : IsExtraField (unpackgrid igrid4 ir) := by
  simp only [unpackgrid]
  split_ifs
  · exact isExtraField_grid igrid4 (Or.inr rfl)
  · exact isExtraField_grid igrid4 (Or.inl rfl)
  · decide
  · decide
  · decide
  · decide
  · exact isExtraField_report _ (Or.inr rfl)
  · exact isExtraField_report _ (Or.inl rfl)

/-! ## Messages -/

/-- The fields of a message as the codec can write them. -/
structure CallFields.WellShaped (fields : CallFields) : Prop where
  callTo : IsCallField fields.callTo
  callDe : IsCallField fields.callDe
  extra : IsExtraField fields.extra

theorem decodeStd_shape {table after : CallsignTable} (holds : table.HoldsCallsigns)
    {message : FtxMessage} {decoded : Except MessageError CallFields}
    (result : message.decodeStd table = (decoded, after)) :
    after.HoldsCallsigns ∧
      ∀ fields, decoded = .ok fields →
        fields.WellShaped ∧ IsStandardCall fields.callDe := by
  rw [FtxMessage.decodeStd] at result
  split at result
  case h_1 first toResult =>
    cases result
    exact ⟨(unpack28_shape holds toResult).1, fun fields isOk => by cases isOk⟩
  case h_2 callTo first toResult =>
    obtain ⟨firstHolds, toShape⟩ := unpack28_shape holds toResult
    split at result
    case h_1 second deResult =>
      cases result
      exact ⟨(unpack28_shape firstHolds deResult).1, fun fields isOk => by cases isOk⟩
    case h_2 callDe second deResult =>
      obtain ⟨secondHolds, deShape⟩ := unpack28_shape firstHolds deResult
      cases result
      refine ⟨secondHolds, fun fields isOk => ?_⟩
      cases isOk
      obtain ⟨deField, standard⟩ := deShape callDe rfl
      exact ⟨⟨(toShape callTo rfl).1, deField, isExtraField_unpackgrid _ _⟩, standard⟩

theorem decodeNonstd_shape {table : CallsignTable} (holds : table.HoldsCallsigns)
    (message : FtxMessage) :
    (message.decodeNonstd table).2.HoldsCallsigns ∧
      (message.decodeNonstd table).1.WellShaped := by
  obtain ⟨afterHolds, decodedField⟩ := unpack58_shape holds message.n58
  have otherField := isCallField_lookupCallsign afterHolds .bits12 (UInt32.ofNat message.n12)
  refine ⟨afterHolds, ⟨?_, ?_, ?_⟩⟩
  · simp only [FtxMessage.decodeNonstd]
    split_ifs
    · exact decodedField
    · exact otherField
    · exact .plain (by decide) (by decide)
  · simp only [FtxMessage.decodeNonstd]
    split_ifs
    · exact otherField
    · exact decodedField
  · simp only [FtxMessage.decodeNonstd]
    split_ifs <;> decide

/-- With the CQ flag only the caller of a non-standard message varies. -/
theorem decodeNonstd_of_icq {message : FtxMessage} (flagged : message.icq ≠ 0)
    (table : CallsignTable) :
    (message.decodeNonstd table).1.callTo = "CQ".toList ∧
      (message.decodeNonstd table).1.extra = [] := by
  simp [FtxMessage.decodeNonstd, flagged]

/-- The fields of a decoded message, and that the table still holds callsigns only. -/
theorem decodeFields_shape {table after : CallsignTable} (holds : table.HoldsCallsigns)
    {message : FtxMessage} {decoded : Except MessageError CallFields}
    (result : message.decodeFields table = (decoded, after)) :
    after.HoldsCallsigns ∧ ∀ fields, decoded = .ok fields → fields.WellShaped := by
  unfold FtxMessage.decodeFields at result
  split at result
  · obtain ⟨afterHolds, shape⟩ := decodeStd_shape holds result
    exact ⟨afterHolds, fun fields isOk => (shape fields isOk).1⟩
  · obtain ⟨afterHolds, shape⟩ := decodeNonstd_shape holds message
    obtain ⟨fieldsResult, tableResult⟩ := Prod.mk.inj result
    subst tableResult fieldsResult
    refine ⟨afterHolds, fun fields isOk => ?_⟩
    rwa [← Except.ok.inj isOk]
  · cases result
    exact ⟨holds, fun fields isOk => by cases isOk⟩

theorem CallsignTable.HoldsCallsigns.decode {table : CallsignTable}
    (holds : table.HoldsCallsigns) (message : FtxMessage) :
    (message.decode table).2.HoldsCallsigns := by
  unfold FtxMessage.decode
  split
  · exact holds
  · exact holds
  · split
    case h_1 code after result => exact (decodeFields_shape holds result).1
    case h_2 fields after result => exact (decodeFields_shape holds result).1

theorem decode_of_decodeFields {table : CallsignTable} {message : FtxMessage}
    {fields : CallFields} (unpacked : (message.decodeFields table).1 = .ok fields) :
    (message.decode table).1 = .ok fields.text := by
  obtain ⟨after, result⟩ : ∃ after, message.decodeFields table = (.ok fields, after) :=
    ⟨_, Prod.ext unpacked rfl⟩
  rw [FtxMessage.decode, result]
  split
  · rename_i isFree
    simp [FtxMessage.decodeFields, isFree] at result
  · rename_i isTelemetry
    simp [FtxMessage.decodeFields, isTelemetry] at result
  · rfl

end RtlsdrFt8d
