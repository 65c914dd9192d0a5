import RtlsdrFt8d.CallFieldShapes
import RtlsdrFt8d.SlotDecoding

/-!
# Routing of decoded messages

Where a message goes depends on the words of its text only.  This file states
the routing on the list of words, shows that the tokenizing code of `decode`
follows it, and collects what holds of the decoder after any earlier slots.
-/

namespace RtlsdrFt8d

open TokenSplitting

def words (text : List Char) : List (List Char) :=
  tokens isBlank text

/-- Where `decode` sends a message. -/
inductive Routing where
  | ignored
  | cq (cmd : List Char) (call loc : Option (List Char))
  | call (dst : List Char) (src msg : Option (List Char))
  deriving DecidableEq

def BeginsWithCq (word : List Char) : Prop :=
  "CQ".toList <+: word

instance (word : List Char) : Decidable (BeginsWithCq word) :=
  inferInstanceAs (Decidable (_ <+: _))

/-- The routing by words. -/
def route (rcall : List Char) : List (List Char) → Routing
  | [] => .ignored
  | first :: rest =>
      if BeginsWithCq first then
        match rest with
        | [] => .ignored
        | second :: rest =>
            if second.length = 2 then .cq ("CQ ".toList ++ second) rest[0]? rest[1]?
            else .cq "CQ   ".toList (some second) rest[0]?
      else if rcall <+: first then .call first rest[0]? rest[1]?
      else .ignored

theorem route_eq_call_iff {rcall dst : List Char} {src msg : Option (List Char)}
    {textWords : List (List Char)} :
    route rcall textWords = .call dst src msg ↔
      ∃ rest, textWords = dst :: rest ∧ ¬ BeginsWithCq dst ∧ rcall <+: dst ∧
        src = rest[0]? ∧ msg = rest[1]? := by
  cases textWords with
  | nil => simp [route]
  | cons first rest =>
      by_cases isCq : BeginsWithCq first
      · refine iff_of_false (fun routed => ?_) ?_
        · cases rest <;> simp only [route, if_pos isCq] at routed
          · cases routed
          · split_ifs at routed
        · rintro ⟨_, same, notCq, _⟩
          cases same
          exact notCq isCq
      · simp only [route, if_neg isCq]
        split_ifs with isOurs
        · constructor
          · intro routed
            cases routed
            exact ⟨rest, rfl, isCq, isOurs, rfl, rfl⟩
          · rintro ⟨_, same, _, _, rfl, rfl⟩
            cases same
            rfl
        · refine iff_of_false (fun routed => by cases routed) ?_
          rintro ⟨_, same, _, isPrefix, _⟩
          cases same
          exact isOurs isPrefix

theorem exists_route_eq_cq_iff {rcall : List Char} {textWords : List (List Char)} :
    (∃ cmd call loc, route rcall textWords = .cq cmd call loc) ↔
      ∃ first second rest, textWords = first :: second :: rest ∧ BeginsWithCq first := by
  constructor
  · rintro ⟨cmd, call, loc, routed⟩
    cases textWords with
    | nil => cases routed
    | cons first rest =>
        by_cases isCq : BeginsWithCq first
        · cases rest with
          | nil =>
              rw [route, if_pos isCq] at routed
              cases routed
          | cons second rest => exact ⟨_, _, _, rfl, isCq⟩
        · simp only [route, if_neg isCq] at routed
          split_ifs at routed
  · rintro ⟨first, second, rest, rfl, isCq⟩
    rw [route, if_pos isCq]
    split_ifs <;> exact ⟨_, _, _, rfl⟩

variable (options : Options) (clock : SlotClock)

def SlotDecoding.follow (candidate : Candidate) (decoding : SlotDecoding) :
    Routing → SlotDecoding
  | .ignored => decoding
  | .cq cmd call loc => decoding.pushCq options clock candidate cmd call loc
  | .call dst src msg =>
      { decoding with
        qsohQueue := decoding.qsohQueue ++ [callMessage options clock candidate dst src msg] }

/-! ## Words of joined fields -/

def NoBlank (text : List Char) : Prop :=
  ∀ symbol ∈ text, isBlank symbol = false

instance (text : List Char) : Decidable (NoBlank text) :=
  List.decidableBAll _ text

@[simp]
theorem words_nil : words [] = [] :=
  tokens_nil

theorem words_of_isWord {word : List Char} (isWord : IsWord isBlank word) :
    words word = [word] :=
  tokens_of_isWord isWord

theorem noBlank_of_mem_words {text word : List Char} (wordMem : word ∈ words text) :
    NoBlank word :=
  (isWord_of_mem_tokens wordMem).2

theorem words_append_blank (left right : List Char) :
    words (left ++ ' ' :: right) = words left ++ words right :=
  tokens_append_cons (by decide) left right

theorem words_text (fields : CallFields) :
    words fields.text = words fields.callTo ++ (words fields.callDe ++ words fields.extra) := by
  rw [CallFields.text, words_append_blank, words_append_blank]

/-! ## Bare callsigns -/

theorem bareCall_of_head_ne {text : List Char} (notBracket : text.head? ≠ some '<') :
    bareCall text = text := by
  simp [bareCall, notBracket]

@[simp]
theorem bareCall_addBrackets (inner : List Char) : bareCall (addBrackets inner) = inner := by
  have last : (addBrackets inner).getLast? = some '>' :=
    List.getLast?_concat (l := '<' :: inner)
  rw [bareCall, if_pos ⟨by simp [addBrackets], by simp [addBrackets], last⟩]
  simp [addBrackets]

theorem mem_of_mem_bareCall {token : List Char} {symbol : Char}
    (symbolMem : symbol ∈ bareCall token) : symbol ∈ token := by
  unfold bareCall at symbolMem
  split at symbolMem
  · exact List.mem_of_mem_drop (List.mem_of_mem_dropLast symbolMem)
  · exact symbolMem

theorem IsPlainText.head_ne {text : List Char} (plain : IsPlainText text) :
    text.head? ≠ some '<' :=
  fun bracket => plain.1 (List.mem_of_mem_head? bracket)

theorem IsCallField.plain_or_bracketed {text : List Char} (isField : IsCallField text) :
    IsPlainText text ∨ ∃ inner, text = addBrackets inner ∧ IsPlainText inner := by
  cases isField with
  | plain isPlain _ => exact Or.inl isPlain
  | bracketed isPlain _ _ => exact Or.inr ⟨_, rfl, isPlain⟩

/-- A call field without its brackets: what remains is nonempty with the field,
fits a callsign buffer, and is split by blanks when the field is. -/
theorem IsCallField.bareCall_shape {text : List Char} (isField : IsCallField text) :
    (bareCall text).length ≤ 11 ∧ (bareCall text = [] ↔ text = []) ∧
      (NoBlank (bareCall text) ↔ NoBlank text) := by
  cases isField with
  | plain isPlain short =>
      rw [bareCall_of_head_ne isPlain.head_ne]
      exact ⟨short, Iff.rfl, Iff.rfl⟩
  | bracketed isPlain short nonempty =>
      rw [bareCall_addBrackets]
      refine ⟨short, by simp [nonempty, addBrackets], ?_⟩
      simp [NoBlank, addBrackets, isBlank, or_imp, forall_and]

/-- The buffer of thirteen bytes holds a bare callsign in full. -/
theorem IsCallField.stripBrackets {text : List Char} (isField : IsCallField text) :
    stripBrackets (some text) 13 = bareCall text := by
  have short := isField.bareCall_shape.1
  exact List.take_of_length_le (by simpa using by omega)

theorem take_stripBrackets (token : Option (List Char)) :
    (stripBrackets token 13).take 12 = stripBrackets token 13 := by
  simp [stripBrackets]

theorem noBlank_stripBrackets {rest : List (List Char)}
    (areWords : ∀ word ∈ rest, NoBlank word) (i outsz : Nat) :
    NoBlank (stripBrackets rest[i]? outsz) := by
  intro symbol symbolMem
  have inToken := mem_of_mem_bareCall (List.mem_of_mem_take symbolMem)
  cases token : rest[i]? with
  | none => simp [token] at inToken
  | some word =>
      rw [token] at inToken
      exact areWords word (List.mem_of_getElem? token) symbol inToken

/-! ## Fields taken from words -/

section FieldsFromWords

variable {fields : CallFields}

theorem noBlank_of_mem_rest {rest : List (List Char)}
    (isRest : rest = words fields.callDe ++ words fields.extra) :
    ∀ word ∈ rest, NoBlank word := by
  intro word wordMem
  rw [isRest] at wordMem
  rcases List.mem_append.mp wordMem with inCall | inExtra
  · exact noBlank_of_mem_words inCall
  · exact noBlank_of_mem_words inExtra

theorem words_of_noBlank {text : List Char} (noBlank : NoBlank text) :
    words text = if text = [] then [] else [text] := by
  split_ifs with empty
  · rw [empty, words_nil]
  · exact words_of_isWord ⟨empty, noBlank⟩

theorem noBlank_of_eq_words (callDe : IsCallField fields.callDe)
    (extra : IsExtraField fields.extra) {rest : List (List Char)}
    (areWords : ∀ word ∈ rest, NoBlank word) {i j size : Nat}
    (call : stripBrackets rest[i]? 13 = bareCall fields.callDe) (wide : 6 ≤ size)
    (third : (rest[j]?.getD []).take size = fields.extra.take size) :
    NoBlank fields.callDe ∧ NoBlank fields.extra := by
  constructor
  · exact callDe.bareCall_shape.2.2.mp (call ▸ noBlank_stripBrackets areWords i 13)
  · rw [List.take_of_length_le (extra.short.trans wide)] at third
    intro symbol symbolMem
    rw [← third] at symbolMem
    have inWord := List.mem_of_mem_take symbolMem
    cases token : rest[j]? with
    | none => simp [token] at inWord
    | some word =>
        rw [token] at inWord
        exact areWords word (List.mem_of_getElem? token) symbol inWord

/-- The two words after the first are the two fields, unless blanks split these. -/
theorem eq_words_iff_noBlank (callDe : IsCallField fields.callDe)
    (extra : IsExtraField fields.extra) (nonempty : fields.callDe ≠ []) {size : Nat}
    (wide : 6 ≤ size) {rest : List (List Char)}
    (isRest : rest = words fields.callDe ++ words fields.extra) :
    (stripBrackets rest[0]? 13 = bareCall fields.callDe ∧
        (rest[1]?.getD []).take size = fields.extra.take size) ↔
      IsWord isBlank fields.callDe ∧ NoBlank fields.extra := by
  constructor
  · rintro ⟨call, third⟩
    obtain ⟨callNoBlank, extraNoBlank⟩ :=
      noBlank_of_eq_words callDe extra (noBlank_of_mem_rest isRest) call wide third
    exact ⟨⟨nonempty, callNoBlank⟩, extraNoBlank⟩
  · rintro ⟨callIsWord, extraNoBlank⟩
    rw [isRest, words_of_isWord callIsWord, words_of_noBlank extraNoBlank]
    split_ifs with empty <;> simp [callDe.stripBrackets, empty]

end FieldsFromWords

/-! ## The code follows the routing -/

theorem strtok_isBlank (text : List Char) :
    ∃ rest, strtok isBlank text = ((words text)[0]?, rest) ∧ words rest = (words text).tail ∧
      ∀ symbol ∈ rest, symbol ∈ text :=
  ⟨(strtok isBlank text).2, by simp [Prod.ext_iff, strtok_fst, words, List.head?_eq_getElem?],
    tokens_strtok_snd text, fun _ => mem_of_mem_strtok_snd⟩

theorem decodeCq_eq (candidate : Candidate) (text : List Char) (decoding : SlotDecoding)
    {first : List Char} (isCq : BeginsWithCq first) :
    decodeCq options clock candidate text decoding =
      decoding.follow options clock candidate
        (route options.rcall.chars (first :: words text)) := by
  obtain ⟨afterSecond, secondToken, secondRest, -⟩ := strtok_isBlank text
  obtain ⟨afterThird, thirdToken, thirdRest, -⟩ := strtok_isBlank afterSecond
  obtain ⟨afterFourth, fourthToken, -, -⟩ := strtok_isBlank afterThird
  simp only [decodeCq, route, if_pos isCq, secondToken]
  cases textWords : words text with
  | nil => rfl
  | cons second rest =>
      rw [textWords] at secondRest
      simp only [List.getElem?_cons_zero, thirdToken, fourthToken, secondRest, thirdRest,
        List.tail_cons]
      split_ifs with twoChars
      · simp [SlotDecoding.follow]
      · rfl

/-- On a text without newlines, `decode` follows the routing by words. -/
theorem decodeText_eq (candidate : Candidate) {text : List Char} (noNewline : '\n' ∉ text)
    (decoding : SlotDecoding) :
    decodeText options clock candidate text decoding =
      decoding.follow options clock candidate (route options.rcall.chars (words text)) := by
  obtain ⟨afterFirst, firstToken, firstRest, firstPart⟩ := strtok_isBlank text
  obtain ⟨afterSecond, secondToken, secondRest, secondPart⟩ := strtok_isBlank afterFirst
  have thirdToken : (strtok isBlankOrNewline afterSecond).1 = (words afterSecond)[0]? := by
    rw [strtok_fst, words, ← List.head?_eq_getElem?]
    congr 1
    apply tokens_congr
    intro symbol symbolMem
    have notNewline : symbol ≠ '\n' :=
      fun same => noNewline (same ▸ firstPart _ (secondPart _ symbolMem))
    simp [isBlankOrNewline, isBlank, notNewline]
  cases textWords : words text with
  | nil => simp [decodeText, firstToken, textWords, route, SlotDecoding.follow]
  | cons first rest =>
      rw [textWords, List.tail_cons] at firstRest
      simp only [decodeText, firstToken, textWords, List.getElem?_cons_zero, secondToken,
        thirdToken, secondRest, firstRest]
      split_ifs with isCq isOurs
      · rw [decodeCq_eq options clock candidate afterFirst decoding
          (List.isPrefixOf_iff_prefix.mp isCq), firstRest]
      · have notCq : ¬ BeginsWithCq first := fun isPrefix =>
          isCq (List.isPrefixOf_iff_prefix.mpr isPrefix)
        simp only [route, if_neg notCq, if_pos (List.isPrefixOf_iff_prefix.mp isOurs)]
        simp [SlotDecoding.follow]
      · have notCq : ¬ BeginsWithCq first := fun isPrefix =>
          isCq (List.isPrefixOf_iff_prefix.mpr isPrefix)
        have notOurs : ¬ options.rcall.chars <+: first := fun isPrefix =>
          isOurs (List.isPrefixOf_iff_prefix.mpr isPrefix)
        simp only [route, if_neg notCq, if_neg notOurs]
        rfl

/-! ## Decoded texts have no newline -/

theorem IsCallField.noNewline {text : List Char} (isField : IsCallField text) :
    '\n' ∉ text := by
  cases isField with
  | plain isPlain _ => exact isPlain.2
  | bracketed isPlain _ _ => simpa [addBrackets] using isPlain.2

theorem CallFields.WellShaped.noNewline {fields : CallFields} (shaped : fields.WellShaped) :
    '\n' ∉ fields.text := by
  simp [CallFields.text, shaped.callTo.noNewline, shaped.callDe.noNewline,
    shaped.extra.noNewline]

theorem newline_not_mem_decodeFree (message : FtxMessage) : '\n' ∉ message.decodeFree := by
  have fromTable (count : Nat) (b71 : List UInt8) :
      ∀ symbol ∈ FtxMessage.freeTextChars count b71, ∃ c table, charn c table = symbol := by
    induction count generalizing b71 with
    | zero => simp [FtxMessage.freeTextChars]
    | succ count ih =>
        intro symbol symbolMem
        rcases List.mem_append.mp symbolMem with earlier | last
        · exact ih _ symbol earlier
        · exact ⟨_, _, (List.mem_singleton.mp last).symm⟩
  exact fun newline => (isPlainText_of_charn (fromTable 13 _)).2 (mem_of_mem_trim newline)

theorem newline_not_mem_decodeTelemetryHex (message : FtxMessage) :
    '\n' ∉ message.decodeTelemetryHex := by
  have notNewline (nibble : Nat) : FtxMessage.hexDigit nibble ≠ '\n' := by
    intro same
    have code := congrArg Char.toNat same
    have codes : 'A'.toNat = 65 ∧ '0'.toNat = 48 ∧ '\n'.toNat = 10 := by decide
    unfold FtxMessage.hexDigit at code
    split_ifs at code
    · rcases toNat_ofNat_eq_or (nibble - 10 + 'A'.toNat) with valid | invalid <;> omega
    · rcases toNat_ofNat_eq_or (nibble + '0'.toNat) with valid | invalid <;> omega
  simp [FtxMessage.decodeTelemetryHex, (notNewline _).symm]

theorem noNewline_of_decode {table : CallsignTable} (holds : table.HoldsCallsigns)
    {message : FtxMessage} {text : List Char}
    (decoded : (message.decode table).1 = .ok text) : '\n' ∉ text := by
  unfold FtxMessage.decode at decoded
  split at decoded
  · exact Except.ok.inj decoded ▸ newline_not_mem_decodeFree message
  · exact Except.ok.inj decoded ▸ newline_not_mem_decodeTelemetryHex message
  · split at decoded
    case h_1 => cases decoded
    case h_2 fields after result =>
      exact Except.ok.inj decoded ▸ ((decodeFields_shape holds result).2 fields rfl).noNewline

/-! ## The loop -/

theorem callsigns_decodeText (candidate : Candidate) {text : List Char}
    (noNewline : '\n' ∉ text) (decoding : SlotDecoding) :
    (decodeText options clock candidate text decoding).callsigns = decoding.callsigns := by
  rw [decodeText_eq options clock candidate noNewline]
  cases route options.rcall.chars (words text) <;> rfl

theorem holdsCallsigns_decodeCandidate {decoding : SlotDecoding}
    (holds : decoding.callsigns.HoldsCallsigns) (candidate : Candidate) :
    (decodeCandidate options clock decoding candidate).callsigns.HoldsCallsigns := by
  simp only [decodeCandidate]
  split
  · exact holds
  · split
    · exact holds.decode candidate.message
    · rename_i text decoded
      rw [callsigns_decodeText options clock candidate (noNewline_of_decode holds decoded)]
      exact holds.decode candidate.message

theorem holdsCallsigns_decodeSlot {callsigns : CallsignTable}
    (holds : callsigns.HoldsCallsigns) (candidates : List Candidate) :
    (decodeSlot options clock callsigns candidates).callsigns.HoldsCallsigns :=
  EventRuns.run_induction (fun decoding : SlotDecoding => decoding.callsigns.HoldsCallsigns) holds
    (fun _ candidate before => holdsCallsigns_decodeCandidate options clock before candidate)
    candidates

/-- The table of callsigns holds callsigns only, whatever was received. -/
theorem holdsCallsigns_decodingAfter (slots : List ReceivedSlot) (earlier : List Candidate) :
    (decodingAfter options clock slots earlier).callsigns.HoldsCallsigns := by
  apply holdsCallsigns_decodeSlot options clock
  exact EventRuns.run_induction CallsignTable.HoldsCallsigns holdsCallsigns_hashtableInit
    (fun _ slot before => holdsCallsigns_decodeSlot options slot.1 before slot.2) slots

/-- The message of a candidate is no duplicate, and the duplicate table has room. -/
def IsNew (decoding : SlotDecoding) (candidate : Candidate) : Prop :=
  (findEmptySlot decoding.decodedHashtable candidate.message).isSome

instance (decoding : SlotDecoding) (candidate : Candidate) :
    Decidable (IsNew decoding candidate) :=
  inferInstanceAs (Decidable (_ = true))

/-- What one pass of the loop adds for a new message: what its routing says. -/
theorem decodeCandidate_of_isNew {decoding : SlotDecoding} {candidate : Candidate}
    (holds : decoding.callsigns.HoldsCallsigns) (isNew : IsNew decoding candidate)
    {text : List Char} (decoded : (candidate.message.decode decoding.callsigns).1 = .ok text) :
    ∃ entered : SlotDecoding, entered.decodes = decoding.decodes ∧
      entered.qsohQueue = decoding.qsohQueue ∧
      decodeCandidate options clock decoding candidate =
        entered.follow options clock candidate (route options.rcall.chars (words text)) := by
  obtain ⟨idxHash, found⟩ := Option.isSome_iff_exists.mp isNew
  refine ⟨
    { decoding with
      callsigns := (candidate.message.decode decoding.callsigns).2
      decodedHashtable :=
        decoding.decodedHashtable.set idxHash (some candidate.message) idxHash.isLt },
    rfl, rfl, ?_⟩
  simp only [decodeCandidate, found, decoded,
    decodeText_eq options clock candidate (noNewline_of_decode holds decoded)]

end RtlsdrFt8d
