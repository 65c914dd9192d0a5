import RtlsdrFt8d.FreeWords

/-!
# The fallback to free text

`ftx_message_encode` means to pack as free text whatever is no message with
callsigns.  Before it does, a long first word is an error, and two words that
could be callsigns are sent as hashes which nobody can turn back into words.
-/

namespace RtlsdrFt8d

/-! ## Texts -/

/-- A text for the thirteen characters of free text, which does not start like a
call. -/
structure IsGenuineFreeText (text : List Char) : Prop where
  length_le : text.length ≤ 13
  symbols : ∀ symbol ∈ text, symbol ∈ CharTable.full.chars
  singleSpaced : ∀ word ∈ text.splitOn ' ', word ≠ []
  noToken : ∀ word, (text.splitOn ' ').head? = some word → word ∉ callTokens
  noCallsign : ∀ word ∈ text.splitOn ' ',
    ¬ (word.any isLetter = true ∧ word.any Char.isDigit = true)

/-- The encoder accepts a text, and the decoder gives it back. -/
def SurvivesCodec (message : FtxMessage) (hashIf decoderIf : Option CallsignTable)
    (text : List Char) : Prop :=
  ∃ encoded, (message.encode hashIf text).1 = .ok encoded ∧
    (encoded.decodeIf decoderIf).1 = .ok text

/-- A standard message in which numbers stand for callsigns. -/
structure IsNumberMessage (words : List (List Char)) : Prop where
  three : words.length = 3
  callTo : IsThreeDigits (words.getD 0 [])
  callDe : IsThreeDigits (words.getD 1 []) ∨ words.getD 1 [] ∈ callTokens
  extra : IsPlainReport (words.getD 2 [])

/-- The first two words could be callsigns. -/
def StartsLikeCalls (words : List (List Char)) : Prop :=
  IsCallId (words.getD 0 []) ∧ (words.getD 1 [] ∈ callTokens ∨ IsCallId (words.getD 1 []))

/-- The text reaches the free-text encoder, or is read back all the same. -/
structure KeepsFreeText (text : List Char) : Prop where
  firstShort : ((text.splitOn ' ').getD 0 []).length ≤ 11
  noCalls : StartsLikeCalls (text.splitOn ' ') → IsNumberMessage (text.splitOn ' ')

theorem IsGenuineFreeText.isFreeWord {text word : List Char} (genuine : IsGenuineFreeText text)
    (isWord : word ∈ text.splitOn ' ') : IsFreeWord word where
  nonempty := genuine.singleSpaced word isWord
  symbols symbol isSymbol := genuine.symbols symbol
    (joined_splitOn text ▸ mem_joined isWord symbol isSymbol)
  noBlank := blank_not_mem_of_mem_splitOn isWord
  noCallsign := genuine.noCallsign word isWord

/-! ## Messages with two calls -/

variable {message : FtxMessage} {callTo callDe extra : List Char} {a b : Nat}

/-- The suffixes that no standard message can have together. -/
def SuffixConflict (callTo callDe : List Char) : Prop :=
  ((endsWith callTo "/P".toList || endsWith callDe "/P".toList) &&
    (endsWith callTo "/R".toList || endsWith callDe "/R".toList)) = true

instance (callTo callDe : List Char) : Decidable (SuffixConflict callTo callDe) :=
  inferInstanceAs (Decidable (_ = true))

/-- The flag that a suffix of the first call sets. -/
def suffixBit (callTo : List Char) : Nat :=
  if endsWith callTo "/R".toList || endsWith callTo "/P".toList then 1 else 0

/-- The standard encoder from what its two calls are packed to. -/
theorem encodeStd_eq (hashIf : Option CallsignTable) :
    (message.encodeStd hashIf callTo callDe extra).1 =
      match (pack28 callTo hashIf).1, (pack28 callDe (pack28 callTo hashIf).2).1 with
      | none, _ => .error .callsign1
      | _, none => .error .callsign2
      | some callA, some callB =>
          if SuffixConflict callTo callDe then .error .suffix
          else .ok { message with
            payload := stdPayload
              (callA.n28 <<< 1 ||| callA.ip ||| suffixBit callTo) (callB.n28 <<< 1 ||| callB.ip)
              (packgrid extra)
              (if endsWith callTo "/P".toList || endsWith callDe "/P".toList then 2 else 1) } := by
  rw [FtxMessage.encodeStd]
  generalize pack28 callTo hashIf = packed
  obtain ⟨packedA, hashIf⟩ := packed
  dsimp only
  generalize pack28 callDe hashIf = packed
  obtain ⟨packedB, hashIf⟩ := packed
  cases packedA with
  | none => rfl
  | some callA =>
      cases packedB with
      | none => rfl
      | some callB =>
          by_cases conflict : SuffixConflict callTo callDe
          · dsimp only
            rw [if_pos conflict]
            rw [SuffixConflict] at conflict
            rw [if_pos conflict]
          · dsimp only
            rw [if_neg conflict]
            rw [SuffixConflict] at conflict
            rw [if_neg conflict]
            rfl

theorem encodeStd_of_packsAs (packsA : PacksAs callTo a) (packsB : PacksAs callDe b)
    (hashIf : Option CallsignTable) (noConflict : ¬ SuffixConflict callTo callDe) :
    ∃ encoded i3, (message.encodeStd hashIf callTo callDe extra).1 = .ok encoded ∧
      (i3 = 1 ∨ i3 = 2) ∧ encoded.payload =
        stdPayload (a <<< 1 ||| suffixBit callTo) (b <<< 1) (packgrid extra) i3 := by
  have isStd (portable : Bool) : (if portable then 2 else 1) = 1 ∨
      (if portable then 2 else 1) = 2 := by
    cases portable
    · exact Or.inl rfl
    · exact Or.inr rfl
  rw [encodeStd_eq, packsA.2, packsB.2]
  dsimp only
  rw [if_neg noConflict, Nat.or_zero, Nat.or_zero]
  exact ⟨_, _, rfl, isStd _, rfl⟩

theorem encodeStd_of_suffixConflict (packsA : PacksAs callTo a) (packsB : PacksAs callDe b)
    (hashIf : Option CallsignTable) (conflict : SuffixConflict callTo callDe) :
    (message.encodeStd hashIf callTo callDe extra).1 = .error .suffix := by
  rw [encodeStd_eq, packsA.2, packsB.2]
  exact if_pos conflict

theorem encodeStd_of_none (hashIf : Option CallsignTable)
    (notPacked : (∀ hashIf, (pack28 callTo hashIf).1 = none) ∨
      ∀ hashIf, (pack28 callDe hashIf).1 = none) :
    ∃ code, (message.encodeStd hashIf callTo callDe extra).1 = .error code := by
  rw [encodeStd_eq]
  rcases notPacked with noFirst | noSecond
  · rw [noFirst]
    exact ⟨_, rfl⟩
  · rw [noSecond]
    cases (pack28 callTo hashIf).1 with
    | none => exact ⟨_, rfl⟩
    | some callA => exact ⟨_, rfl⟩

theorem exists_withInterface {α : Type} (decoder : CallsignTable → α × CallsignTable)
    (hashIf : Option CallsignTable) :
    ∃ table, (withInterface decoder hashIf).1 = (decoder table).1 := by
  cases hashIf with
  | none => exact ⟨hashtableInit, rfl⟩
  | some table => exact ⟨table, rfl⟩

theorem exists_unpack28 {n28 ip : Nat} {IsField : List Char → Prop}
    (unpacks : UnpacksTo n28 ip IsField) (i3 : Nat) (hashIf : Option CallsignTable) :
    ∃ field, (withInterface (unpack28 n28 ip i3) hashIf).1 = some field ∧ IsField field := by
  obtain ⟨table, same⟩ := exists_withInterface (unpack28 n28 ip i3) hashIf
  rw [same]
  exact unpacks i3 table

/-- What the decoder makes of a standard message. -/
theorem decodeIf_of_stdPayload {FieldA FieldB : List Char → Prop} {n29a n29b igrid4 i3 : Nat}
    (payload : message.payload = stdPayload n29a n29b igrid4 i3) (smallA : n29a < 2 ^ 29)
    (smallB : n29b < 2 ^ 29) (smallGrid : igrid4 < 2 ^ 16) (isStd : i3 = 1 ∨ i3 = 2)
    (unpacksA : UnpacksTo (n29a >>> 1) (n29a &&& 1) FieldA)
    (unpacksB : UnpacksTo (n29b >>> 1) (n29b &&& 1) FieldB) (hashIf : Option CallsignTable) :
    ∃ fieldA fieldB, FieldA fieldA ∧ FieldB fieldB ∧
      (message.decodeIf hashIf).1 = .ok (fieldA ++ ' ' ::
        (fieldB ++ ' ' :: unpackedGrid igrid4)) := by
  have smallI3 : i3 < 2 ^ 3 := by omega
  have bytes := stdBytes_of_payload payload smallB smallGrid smallI3
  have isType : message.getType = .standard := by
    rw [FtxMessage.getType, bytes.getI3_eq smallI3]
    rcases isStd with rfl | rfl <;> rfl
  rw [FtxMessage.decodeIf, isType]
  dsimp only
  rw [FtxMessage.decodeStdIf, bytes.n29a_eq smallA smallB, bytes.n29b_eq smallB smallGrid,
    bytes.getI3_eq smallI3, bytes.igrid4_eq smallI3, bytes.ir_eq smallGrid]
  obtain ⟨fieldA, first, isFieldA⟩ := exists_unpack28 unpacksA i3 hashIf
  generalize withInterface (unpack28 (n29a >>> 1) (n29a &&& 1) i3) hashIf = unpacked at first ⊢
  obtain ⟨unpackedA, hashIf⟩ := unpacked
  obtain rfl : unpackedA = _ := first
  obtain ⟨fieldB, second, isFieldB⟩ := exists_unpack28 unpacksB i3 hashIf
  dsimp only
  generalize withInterface (unpack28 (n29b >>> 1) (n29b &&& 1) i3) hashIf = unpacked at second ⊢
  obtain ⟨unpackedB, hashIf⟩ := unpacked
  obtain rfl : unpackedB = _ := second
  exact ⟨fieldA, fieldB, isFieldA, isFieldB, rfl⟩

/-! ## Non-standard messages -/

/-- What `pack58` does with a word that has no brackets. -/
theorem pack58_eq (noBracket : '<' ∉ callDe) (short : callDe.length ≤ 11)
    (hashIf : Option CallsignTable) :
    (pack58 callDe hashIf).1 =
      (callDe.mapM fun symbol => nchar symbol .alphanumSpaceSlash).bind fun digits =>
        (callsignHash callDe).map fun _ => PositionalNumerals.value 38 digits := by
  have notFlipped : callDe.head? ≠ some '<' := fun isFirst =>
    noBracket (List.mem_of_mem_head? isFirst)
  have whole : callDe.takeWhile (fun symbol => symbol ≠ '<') = callDe := by
    rw [List.takeWhile_eq_self_iff]
    intro symbol isSymbol
    rw [decide_eq_true_iff]
    rintro rfl
    exact noBracket isSymbol
  rw [pack58, if_neg notFlipped]
  simp only [whole, List.take_of_length_le short, saveCallsignIf]
  cases callDe.mapM fun symbol => nchar symbol .alphanumSpaceSlash with
  | none => rfl
  | some digits => rfl

theorem exists_mapM_nchar {text : List Char} {table : CharTable}
    (inTable : ∀ symbol ∈ text, symbol ∈ table.chars) :
    ∃ digits, (text.mapM fun symbol => nchar symbol table) = some digits := by
  induction text with
  | nil => exact ⟨[], rfl⟩
  | cons symbol text ih =>
      rw [List.forall_mem_cons] at inTable
      obtain ⟨digits, isRest⟩ := ih inTable.2
      obtain ⟨j, index⟩ := Option.isSome_iff_exists.mp (List.isSome_idxOf?.mpr inTable.1)
      have isIndex : nchar symbol table = some j := index
      exact ⟨j :: digits, by rw [List.mapM_cons, isIndex, isRest]; rfl⟩

/-- The non-standard encoder on two words that are neither `CQ` nor in brackets. -/
theorem encodeNonstd_eq (hashIf : Option CallsignTable) (notCq : callTo ≠ "CQ".toList)
    (noBracket : '<' ∉ callDe) (toLong : 3 ≤ callTo.length) (deLong : 3 ≤ callDe.length)
    (deShort : callDe.length ≤ 11) :
    ∃ nrpt < 4, (message.encodeNonstd hashIf callTo callDe extra).1 =
      match callsignHash callTo with
      | none => .error .callsign1
      | some n22 =>
          match (callDe.mapM fun symbol => nchar symbol .alphanumSpaceSlash).bind fun digits =>
            (callsignHash callDe).map fun _ => PositionalNumerals.value 38 digits with
          | none => .error .callsign2
          | some n58 =>
              .ok { message with
                payload := nonstdPayload (n22.toNat >>> 10) n58 0 nrpt 0 4 } := by
  have notFlipped : callDe.head? ≠ some '<' := fun isFirst =>
    noBracket (List.mem_of_mem_head? isFirst)
  refine ⟨if extra = "RRR".toList then 1 else if extra = "RR73".toList then 2
    else if extra = "73".toList then 3 else 0, by split_ifs <;> decide, ?_⟩
  rw [FtxMessage.encodeNonstd]
  simp only [notCq, if_false, notFlipped, false_and, and_false, true_and, if_true, ne_eq,
    not_true_eq_false]
  rw [if_neg (by omega), if_neg (by omega), saveCallsignIf]
  cases callsignHash callTo with
  | none => rfl
  | some n22 =>
      dsimp only
      have packed := pack58_eq noBracket deShort (hashIf.map (saveCallsign callTo))
      generalize pack58 callDe (hashIf.map (saveCallsign callTo)) = field at packed ⊢
      obtain ⟨n58, hashIf⟩ := field
      obtain rfl : n58 = _ := packed
      cases (callDe.mapM fun symbol => nchar symbol .alphanumSpaceSlash).bind fun digits =>
        (callsignHash callDe).map fun _ => PositionalNumerals.value 38 digits with
      | none => rfl
      | some n58 => rfl

/-- The non-standard encoder refuses a word that could not be a callsign. -/
theorem encodeNonstd_of_not_isCallId (hashIf : Option CallsignTable)
    (notCq : callTo ≠ "CQ".toList) (noBracket : '<' ∉ callDe) (toNoBlank : ' ' ∉ callTo)
    (deNoBlank : ' ' ∉ callDe) (toShort : callTo.length ≤ 11) (deShort : callDe.length ≤ 11)
    (notCalls : ¬ (IsCallId callTo ∧ IsCallId callDe)) :
    ∃ code, (message.encodeNonstd hashIf callTo callDe extra).1 = .error code := by
  by_cases toLong : 3 ≤ callTo.length
  · by_cases deLong : 3 ≤ callDe.length
    · obtain ⟨nrpt, -, encoded⟩ :=
        @encodeNonstd_eq message _ _ extra hashIf notCq noBracket toLong deLong deShort
      rw [encoded]
      by_cases toCall : IsCallId callTo
      · have deNone := callsignHash_of_not_isCallId deNoBlank deLong deShort fun deCall =>
          notCalls ⟨toCall, deCall⟩
        obtain ⟨n22, hashed, -⟩ := toCall.exists_callsignHash
        rw [hashed, deNone]
        cases callDe.mapM fun symbol => nchar symbol .alphanumSpaceSlash with
        | none => exact ⟨_, rfl⟩
        | some digits => exact ⟨_, rfl⟩
      · rw [callsignHash_of_not_isCallId toNoBlank toLong toShort toCall]
        exact ⟨_, rfl⟩
    · rw [FtxMessage.encodeNonstd]
      simp only [notCq, if_false, true_and]
      rw [if_neg (by omega), if_pos (by omega)]
      exact ⟨_, rfl⟩
  · rw [FtxMessage.encodeNonstd]
    simp only [notCq, if_false, true_and]
    rw [if_pos (by omega)]
    exact ⟨_, rfl⟩

/-- The type and the two flags of a non-standard message with neither. -/
theorem flags_of_nonstdPayload {n12 n58 nrpt : Nat} (fits : nrpt < 4)
    (payload : message.payload = nonstdPayload n12 n58 0 nrpt 0 4) :
    message.getType = .nonstdCall ∧ message.icq = 0 ∧ message.iflip = 0 := by
  have byte9 : message.payloadByte 9 = nrpt % 2 * 2 ^ 7 + 2 ^ 5 := by
    have known : ∀ nrpt < 4, (UInt8.ofNat (nrpt <<< 7) ||| UInt8.ofNat (0 <<< 6) |||
        UInt8.ofNat (4 <<< 3)).toNat = nrpt % 2 * 2 ^ 7 + 2 ^ 5 := by
      decide
    rw [FtxMessage.payloadByte, payload]
    exact known nrpt fits
  have byte8 : message.payloadByte 8 = (n58 * 2 ^ 2 + nrpt / 2) % 256 := by
    rw [FtxMessage.payloadByte, payload]
    change (UInt8.ofNat (n58 <<< 2) ||| (0 : UInt8) ||| UInt8.ofNat (nrpt >>> 1)).toNat = _
    rw [UInt8.or_zero, Nat.shiftRight_eq_div_pow]
    exact toNat_joined 2 (by omega)
  have known : ∀ nrpt < 4, (nrpt % 2 * 2 ^ 7 + 2 ^ 5) >>> 3 &&& 7 = 4 ∧
      (nrpt % 2 * 2 ^ 7 + 2 ^ 5) >>> 6 &&& 1 = 0 := by
    decide
  obtain ⟨i3, icq⟩ := known nrpt fits
  refine ⟨?_, by rw [FtxMessage.icq, byte9, icq], ?_⟩
  · rw [FtxMessage.getType, FtxMessage.getI3, byte9, i3]
    rfl
  · rw [FtxMessage.iflip, byte8, Nat.and_one_is_mod, Nat.shiftRight_eq_div_pow]
    omega

/-- The decoder shows a hashed call in brackets in front of a non-standard message. -/
theorem decodeIf_of_nonstdPayload {n12 n58 nrpt : Nat} (fits : nrpt < 4)
    (payload : message.payload = nonstdPayload n12 n58 0 nrpt 0 4)
    (hashIf : Option CallsignTable) :
    ∃ shown, (message.decodeIf hashIf).1 = .ok shown ∧ IsBracketed shown := by
  obtain ⟨isType, noCq, notFlipped⟩ := flags_of_nonstdPayload fits payload
  rw [FtxMessage.decodeIf, isType]
  dsimp only
  rw [FtxMessage.decodeNonstdIf]
  generalize withInterface (unpack58 message.n58) hashIf = unpacked
  obtain ⟨callDecoded, hashIf⟩ := unpacked
  obtain ⟨table, same⟩ := exists_withInterface
    (fun table => (lookupCallsign .bits12 (UInt32.ofNat message.n12) table, table)) hashIf
  obtain ⟨inner, bracketed⟩ := isBracketed_lookupCallsign .bits12 (UInt32.ofNat message.n12) table
  refine ⟨_, rfl, ?_⟩
  simp only [FtxMessage.nonstdFields, noCq, notFlipped, same, bracketed]
  exact ⟨_, rfl⟩

/-- Where two suffixes exclude each other, the two words go out as a non-standard
message. -/
theorem encodeNonstd_of_isCallId (hashIf : Option CallsignTable) (notCq : callTo ≠ "CQ".toList)
    (toCall : IsCallId callTo) (deCall : IsCallId callDe) :
    ∃ encoded, (message.encodeNonstd hashIf callTo callDe extra).1 = .ok encoded ∧
      ∀ decoderIf, ∃ shown, (encoded.decodeIf decoderIf).1 = .ok shown ∧ IsBracketed shown := by
  have noBracket : '<' ∉ callDe := fun isBracket =>
    absurd (deCall.symbols '<' isBracket) (by decide)
  obtain ⟨n12, toHash, -⟩ := toCall.exists_callsignHash
  obtain ⟨n58, deHash, -⟩ := deCall.exists_callsignHash
  obtain ⟨digits, isField⟩ := exists_mapM_nchar deCall.mem_chars
  obtain ⟨nrpt, fits, encoded⟩ := @encodeNonstd_eq message _ _ extra hashIf notCq noBracket
    toCall.le_length deCall.le_length deCall.length_le
  rw [toHash, isField, deHash] at encoded
  exact ⟨_, encoded, decodeIf_of_nonstdPayload fits rfl⟩

/-! ## Free text that is packed as such -/

variable {text : List Char}

theorem freeTextSymbol_of_mem :
    ∀ symbol ∈ CharTable.full.chars, freeTextSymbol symbol = symbol := by
  decide +kernel

theorem freeTextShown_of_isGenuineFreeText (genuine : IsGenuineFreeText text) :
    freeTextShown text = text := by
  have same : text.map freeTextSymbol = text.map id :=
    List.map_congr_left fun symbol isSymbol =>
      freeTextSymbol_of_mem symbol (genuine.symbols symbol isSymbol)
  rw [freeTextShown, Nat.sub_eq_zero_of_le genuine.length_le, List.drop_zero, same, List.map_id]

/-- What reaches the free-text encoder comes back. -/
theorem decodeIf_encodeFree (genuine : IsGenuineFreeText text) (hashIf : Option CallsignTable) :
    ((message.encodeFree text).decodeIf hashIf).1 = .ok text := by
  obtain ⟨shown, payload, -⟩ := freeText_roundTrip message text
  have trimmed : trim text = text := by
    rw [← joined_splitOn text]
    exact trim_joined fun word => genuine.isFreeWord
  rw [FtxMessage.decodeIf, payload.type]
  dsimp only
  rw [shown, freeTextShown_of_isGenuineFreeText genuine, trimmed]

/-! ## The three encoders in turn -/

/-- Where the words of a text are. -/
structure TextWords (text callTo callDe extra : List Char) : Prop where
  first : copyToken 12 text = (callTo.take 12, joined ((text.splitOn ' ').drop 1))
  second : copyToken 12 (joined ((text.splitOn ' ').drop 1)) =
    (callDe, joined ((text.splitOn ' ').drop 2))
  third : (copyToken 20 (joined ((text.splitOn ' ').drop 2))).1 = extra
  deShort : callDe.length ≤ 11
  extraShort : extra.length ≤ 19

/-- Behind the first word and its blank at most eleven characters are left. -/
theorem length_drop_one_le (genuine : IsGenuineFreeText text) :
    (joined ((text.splitOn ' ').drop 1)).length ≤ 11 := by
  have length := genuine.length_le
  rw [← joined_splitOn text] at length
  have areWords := genuine.singleSpaced
  generalize text.splitOn ' ' = words at length areWords ⊢
  cases words with
  | nil => exact Nat.zero_le 11
  | cons word words =>
      rw [List.forall_mem_cons] at areWords
      cases words with
      | nil => exact Nat.zero_le 11
      | cons next words =>
          have nonempty := List.length_pos_of_ne_nil areWords.1
          rw [joined_cons_cons, List.length_append, List.length_cons] at length
          rw [List.drop_succ_cons, List.drop_zero]
          omega

theorem length_getD_le_length_joined (words : List (List Char)) (i : Nat) :
    (words.getD i []).length ≤ (joined words).length := by
  induction words generalizing i with
  | nil => simp
  | cons word words ih =>
      cases words with
      | nil =>
          rw [joined, List.intercalate_singleton]
          cases i with
          | zero => exact Nat.le_refl _
          | succ i => simp
      | cons next words =>
          rw [joined_cons_cons, List.length_append, List.length_cons]
          cases i with
          | zero => exact Nat.le_add_right _ _
          | succ i =>
              have later := ih i
              rw [List.getD_cons_succ]
              omega

theorem textWords_of_isGenuineFreeText (genuine : IsGenuineFreeText text) :
    TextWords text ((text.splitOn ' ').getD 0 []) ((text.splitOn ' ').getD 1 [])
      ((text.splitOn ' ').getD 2 []) := by
  have areWords : ∀ word ∈ text.splitOn ' ', IsFreeWord word := fun word => genuine.isFreeWord
  have areLater (count : Nat) : ∀ word ∈ (text.splitOn ' ').drop count, IsFreeWord word :=
    fun word isLater => areWords word (List.mem_of_mem_drop isLater)
  have short := length_drop_one_le genuine
  have deShort := length_getD_le_length_joined ((text.splitOn ' ').drop 1) 0
  have extraShort := length_getD_le_length_joined ((text.splitOn ' ').drop 1) 1
  have first := copyToken_joined areWords 12
  have second := copyToken_joined (areLater 1) 12
  have third := copyToken_joined (areLater 2) 20
  rw [joined_splitOn] at first
  simp only [List.getD_eq_getElem?_getD, List.getElem?_drop, Nat.add_zero, List.drop_drop,
    Nat.reduceAdd] at second third deShort extraShort ⊢
  rw [List.take_of_length_le (by omega)] at second third
  refine ⟨?_, second, by rw [third], by omega, by omega⟩
  rw [first, List.getD_eq_getElem?_getD]

section Encoders

variable (words : TextWords text callTo callDe extra) (hashIf : Option CallsignTable)
include words

theorem encode_of_long (long : 11 < callTo.length) :
    (message.encode hashIf text).1 = .error .callsign1 := by
  have cut : 11 < (callTo.take 12).length := by
    rw [List.length_take]
    omega
  rw [FtxMessage.encode, words.first]
  dsimp only
  rw [words.second]
  dsimp only
  rw [if_pos cut]

theorem encode_of_short (short : callTo.length ≤ 11) :
    message.encode hashIf text =
      match message.encodeStd hashIf callTo callDe extra with
      | (.ok encoded, hashIf) => (.ok encoded, hashIf)
      | (.error _, hashIf) =>
          match message.encodeNonstd hashIf callTo callDe extra with
          | (.ok encoded, hashIf) => (.ok encoded, hashIf)
          | (.error _, hashIf) => (.ok (message.encodeFree text), hashIf) := by
  have whole : callTo.take 12 = callTo := List.take_of_length_le (by omega)
  have deShort := words.deShort
  have extraShort := words.extraShort
  rw [FtxMessage.encode, words.first, whole]
  dsimp only
  rw [words.second]
  dsimp only
  rw [words.third, if_neg (by omega), if_neg (by omega)]
  exact (if_neg (show ¬ 19 < extra.length by omega)).trans rfl

/-- The standard encoder is asked first. -/
theorem encode_of_encodeStd (short : callTo.length ≤ 11) {encoded : FtxMessage}
    (std : (message.encodeStd hashIf callTo callDe extra).1 = .ok encoded) :
    (message.encode hashIf text).1 = .ok encoded := by
  rw [encode_of_short words hashIf short]
  generalize message.encodeStd hashIf callTo callDe extra = result at std ⊢
  obtain ⟨result, hashIf⟩ := result
  obtain rfl : result = _ := std
  rfl

/-- Then the non-standard one. -/
theorem encode_of_encodeNonstd (short : callTo.length ≤ 11) {code : EncodeError}
    (std : (message.encodeStd hashIf callTo callDe extra).1 = .error code)
    {Result : FtxMessage → Prop}
    (nonstd : ∀ hashIf, ∃ encoded,
      (message.encodeNonstd hashIf callTo callDe extra).1 = .ok encoded ∧ Result encoded) :
    ∃ encoded, (message.encode hashIf text).1 = .ok encoded ∧ Result encoded := by
  rw [encode_of_short words hashIf short]
  generalize message.encodeStd hashIf callTo callDe extra = result at std ⊢
  obtain ⟨result, hashIf⟩ := result
  obtain rfl : result = _ := std
  obtain ⟨encoded, isOk, isResult⟩ := nonstd hashIf
  dsimp only
  generalize message.encodeNonstd hashIf callTo callDe extra = result at isOk ⊢
  obtain ⟨result, hashIf⟩ := result
  obtain rfl : result = _ := isOk
  exact ⟨encoded, rfl, isResult⟩

/-- Then the text is packed as it is. -/
theorem encode_of_neither (short : callTo.length ≤ 11) {code : EncodeError}
    (std : (message.encodeStd hashIf callTo callDe extra).1 = .error code)
    (nonstd : ∀ hashIf, ∃ code,
      (message.encodeNonstd hashIf callTo callDe extra).1 = .error code) :
    (message.encode hashIf text).1 = .ok (message.encodeFree text) := by
  rw [encode_of_short words hashIf short]
  generalize message.encodeStd hashIf callTo callDe extra = result at std ⊢
  obtain ⟨result, hashIf⟩ := result
  obtain rfl : result = _ := std
  obtain ⟨code, isError⟩ := nonstd hashIf
  dsimp only
  generalize message.encodeNonstd hashIf callTo callDe extra = result at isError ⊢
  obtain ⟨result, hashIf⟩ := result
  obtain rfl : result = _ := isError
  rfl

end Encoders

/-! ## Which free text comes back -/

theorem joined_cons (word : List Char) (words : List (List Char)) :
    ∃ rest, joined (word :: words) = word ++ rest ∧ (∀ symbol ∈ rest.head?, symbol = ' ') ∧
      (rest = [] ↔ words = []) := by
  cases words with
  | nil => exact ⟨[], by rw [joined, List.intercalate_singleton, List.append_nil], by simp⟩
  | cons next words => exact ⟨_, joined_cons_cons word next words, by simp, by simp⟩

/-- A message of two calls is the text itself where a third word is the last one
and a plain report. -/
theorem fields_eq_joined_iff {words : List (List Char)}
    (areWords : ∀ word ∈ words, IsFreeWord word) (deNonempty : words.getD 1 [] ≠ []) :
    words.getD 0 [] ++ ' ' :: (words.getD 1 [] ++ ' ' ::
        unpackedGrid (packgrid (words.getD 2 []))) = joined words ↔
      words.length = 3 ∧ IsPlainReport (words.getD 2 []) := by
  match words with
  | [] => exact absurd rfl deNonempty
  | [_] => exact absurd rfl deNonempty
  | [callTo, callDe] =>
      refine iff_of_false (fun same => ?_) fun three => absurd three.1 (by simp)
      rw [joined_cons_cons, joined, List.intercalate_singleton] at same
      have lengths := congrArg List.length same
      simp at lengths
  | callTo :: callDe :: extra :: words =>
      have free : IsFreeWord extra := areWords extra (by simp)
      obtain ⟨rest, isRest, ends, isLast⟩ := joined_cons extra words
      rw [joined_cons_cons, joined_cons_cons, isRest]
      simp only [List.getD_cons_zero, List.getD_cons_succ, List.append_cancel_left_eq,
        List.cons.injEq, true_and, List.length_cons]
      rw [unpackedGrid_eq_append_iff free ends, isLast]
      refine and_congr_left' ⟨fun last => by rw [last]; rfl, fun three => ?_⟩
      exact List.eq_nil_of_length_eq_zero (by omega)

/-- The words that are packed as they are. -/
def IsReadBack (word : List Char) : Prop :=
  word ∈ callTokens ∨ IsThreeDigits word

/-- How the decoder shows a call. -/
structure ShownAs (word field : List Char) : Prop where
  readBack : IsReadBack word → field = word
  hashed : ¬ IsReadBack word → IsBracketed field

theorem IsReadBack.not_suffixed {word : List Char} (readBack : IsReadBack word) :
    hasSuffix word = false := by
  have known : ∀ word ∈ callTokens, hasSuffix word = false := by decide
  rcases readBack with isToken | three
  · exact known word isToken
  · exact three.not_suffixed

theorem suffixBit_of_not_suffixed (notSuffixed : hasSuffix callTo = false) :
    suffixBit callTo = 0 := by
  rw [hasSuffix, Bool.or_eq_false_iff] at notSuffixed
  rw [suffixBit, notSuffixed.1, notSuffixed.2]
  rfl

theorem suffixBit_lt (callTo : List Char) : suffixBit callTo < 2 ^ 1 := by
  rw [suffixBit]
  split_ifs <;> decide

theorem UnpacksTo.imp {n28 ip : Nat} {First Second : List Char → Prop}
    (unpacks : UnpacksTo n28 ip First) (implies : ∀ field, First field → Second field) :
    UnpacksTo n28 ip Second := by
  intro i3 table
  obtain ⟨field, unpacked, isFirst⟩ := unpacks i3 table
  exact ⟨field, unpacked, implies field isFirst⟩

/-- A call is packed so that it is shown the same wherever it stands. -/
theorem exists_packsAs {word : List Char} (free : IsFreeWord word)
    (isCall : word ∈ callTokens ∨ IsCallId word) :
    ∃ n28, PacksAs word n28 ∧ UnpacksTo n28 (suffixBit word) (ShownAs word) ∧
      UnpacksTo n28 0 (ShownAs word) := by
  by_cases readBack : IsReadBack word
  · have asIs (field : List Char) (same : field = word) : ShownAs word field :=
      ⟨fun _ => same, fun notBack => absurd readBack notBack⟩
    rw [suffixBit_of_not_suffixed readBack.not_suffixed]
    rcases readBack with isToken | three
    · obtain ⟨n28, packs, unpacks⟩ := exists_packsAs_of_mem_callTokens isToken
      exact ⟨n28, packs, (unpacks 0).imp asIs, (unpacks 0).imp asIs⟩
    · obtain ⟨n28, packs, unpacks⟩ := exists_packsAs_of_isThreeDigits free three
      exact ⟨n28, packs, unpacks.imp asIs, unpacks.imp asIs⟩
  · have inBrackets (field : List Char) (bracketed : IsBracketed field) : ShownAs word field :=
      ⟨fun isBack => absurd isBack readBack, fun _ => bracketed⟩
    obtain ⟨notToken, notNumber⟩ := not_or.mp readBack
    obtain ⟨n28, packs, unpacks⟩ :=
      exists_packsAs_of_isCallId free notToken (isCall.resolve_left notToken) notNumber
    exact ⟨n28, packs, (unpacks _).imp inBrackets, (unpacks 0).imp inBrackets⟩

/-- What the decoder makes of two words that the standard encoder takes for calls. -/
theorem decodeIf_encodeStd (toFree : IsFreeWord callTo) (deFree : IsFreeWord callDe)
    (toCall : callTo ∈ callTokens ∨ IsCallId callTo)
    (deCall : callDe ∈ callTokens ∨ IsCallId callDe) (smallGrid : packgrid extra < 2 ^ 16)
    (hashIf decoderIf : Option CallsignTable) (noConflict : ¬ SuffixConflict callTo callDe) :
    ∃ encoded fieldA fieldB, (message.encodeStd hashIf callTo callDe extra).1 = .ok encoded ∧
      ShownAs callTo fieldA ∧ ShownAs callDe fieldB ∧
      (encoded.decodeIf decoderIf).1 =
        .ok (fieldA ++ ' ' :: (fieldB ++ ' ' :: unpackedGrid (packgrid extra))) := by
  obtain ⟨a, packsA, unpacksA, -⟩ := exists_packsAs toFree toCall
  obtain ⟨b, packsB, -, unpacksB⟩ := exists_packsAs deFree deCall
  obtain ⟨encoded, i3, isOk, isStd, payload⟩ :=
    @encodeStd_of_packsAs message _ _ extra _ _ packsA packsB hashIf noConflict
  have isBit := suffixBit_lt callTo
  have smallA := packsA.1
  have smallB := packsB.1
  rw [shiftLeft_or 1 isBit, Nat.shiftLeft_eq] at payload
  have fieldsA : UnpacksTo ((a * 2 ^ 1 + suffixBit callTo) >>> 1)
      (a * 2 ^ 1 + suffixBit callTo &&& 1) (ShownAs callTo) := by
    have call : (a * 2 ^ 1 + suffixBit callTo) / 2 ^ 1 = a := by omega
    have flag : (a * 2 ^ 1 + suffixBit callTo) % 2 = suffixBit callTo := by omega
    rw [Nat.shiftRight_eq_div_pow, Nat.and_one_is_mod, call, flag]
    exact unpacksA
  have fieldsB : UnpacksTo ((b * 2 ^ 1) >>> 1) (b * 2 ^ 1 &&& 1) (ShownAs callDe) := by
    have call : b * 2 ^ 1 / 2 ^ 1 = b := by omega
    have flag : b * 2 ^ 1 % 2 = 0 := by omega
    rw [Nat.shiftRight_eq_div_pow, Nat.and_one_is_mod, call, flag]
    exact unpacksB
  obtain ⟨fieldA, fieldB, shownA, shownB, decoded⟩ := decodeIf_of_stdPayload payload
    (show a * 2 ^ 1 + suffixBit callTo < 2 ^ 29 by omega) (show b * 2 ^ 1 < 2 ^ 29 by omega)
    smallGrid isStd fieldsA fieldsB decoderIf
  exact ⟨encoded, fieldA, fieldB, isOk, shownA, shownB, decoded⟩

theorem survivesCodec_iff_of_encode {encoded : FtxMessage} {hashIf : Option CallsignTable}
    (isOk : (message.encode hashIf text).1 = .ok encoded) (decoderIf : Option CallsignTable) :
    SurvivesCodec message hashIf decoderIf text ↔ (encoded.decodeIf decoderIf).1 = .ok text := by
  constructor
  · rintro ⟨other, isOther, decoded⟩
    obtain rfl : encoded = other := Except.ok.inj (isOk.symm.trans isOther)
    exact decoded
  · exact fun decoded => ⟨encoded, isOk, decoded⟩

theorem IsGenuineFreeText.not_bracketed (genuine : IsGenuineFreeText text) :
    '<' ∉ text := fun isBracket =>
  absurd (genuine.symbols '<' isBracket) (by decide)

theorem IsBracketed.not_isGenuineFreeText (bracketed : IsBracketed text) :
    ¬ IsGenuineFreeText text := by
  obtain ⟨inner, rfl⟩ := bracketed
  exact fun genuine => genuine.not_bracketed (List.mem_cons_self (a := '<'))

/-- Words that are read back have no suffix. -/
theorem SuffixConflict.not_isReadBack (conflict : SuffixConflict callTo callDe) :
    ¬ IsReadBack callTo ∧ ¬ IsReadBack callDe := by
  have notBoth (word : List Char) :
      ¬ (endsWith word "/P".toList = true ∧ endsWith word "/R".toList = true) := by
    rintro ⟨portable, rover⟩
    have sameEnd := List.suffix_of_suffix_length_le (List.isSuffixOf_iff_suffix.mp portable)
      (List.isSuffixOf_iff_suffix.mp rover) (Nat.le_refl 2)
    exact absurd (sameEnd.eq_of_length rfl) (by decide)
  rw [SuffixConflict] at conflict
  constructor
  · intro readBack
    have plain := readBack.not_suffixed
    rw [hasSuffix, Bool.or_eq_false_iff] at plain
    rw [plain.1, plain.2, Bool.false_or, Bool.false_or, Bool.and_eq_true] at conflict
    exact notBoth callDe conflict
  · intro readBack
    have plain := readBack.not_suffixed
    rw [hasSuffix, Bool.or_eq_false_iff] at plain
    rw [plain.1, plain.2, Bool.or_false, Bool.or_false, Bool.and_eq_true] at conflict
    exact notBoth callTo conflict

theorem blank_not_mem_getD (text : List Char) (i : Nat) :
    ' ' ∉ (text.splitOn ' ').getD i [] := fun isBlank =>
  blank_not_mem_of_mem_splitOn (getD_mem (List.ne_nil_of_mem isBlank)) isBlank

theorem StartsLikeCalls.second_nonempty {words : List (List Char)} (calls : StartsLikeCalls words) :
    words.getD 1 [] ≠ [] := by
  intro empty
  rcases calls.2 with isToken | deCall
  · rw [empty] at isToken
    exact absurd isToken (by decide)
  · have long := deCall.le_length
    rw [empty] at long
    cases long

section Survival

variable (genuine : IsGenuineFreeText text)
include genuine

theorem IsGenuineFreeText.getD_isFreeWord {i : Nat}
    (nonempty : (text.splitOn ' ').getD i [] ≠ []) : IsFreeWord ((text.splitOn ' ').getD i []) :=
  genuine.isFreeWord (getD_mem nonempty)

theorem IsGenuineFreeText.bracket_not_mem_getD (i : Nat) :
    '<' ∉ (text.splitOn ' ').getD i [] := by
  intro isBracket
  have free := genuine.getD_isFreeWord (List.ne_nil_of_mem isBracket)
  exact absurd (free.symbols '<' isBracket) (by decide)

theorem IsGenuineFreeText.first_nonempty : (text.splitOn ' ').getD 0 [] ≠ [] := by
  obtain ⟨first, words, split⟩ := List.exists_cons_of_ne_nil (List.splitOn_ne_nil ' ' text)
  have nonempty := genuine.singleSpaced first
  rw [split] at nonempty ⊢
  exact nonempty List.mem_cons_self

theorem IsGenuineFreeText.first_not_mem_callTokens :
    (text.splitOn ' ').getD 0 [] ∉ callTokens := by
  obtain ⟨first, words, split⟩ := List.exists_cons_of_ne_nil (List.splitOn_ne_nil ' ' text)
  have notToken := genuine.noToken first
  rw [split] at notToken ⊢
  exact notToken rfl

theorem IsGenuineFreeText.first_ne_cq : (text.splitOn ' ').getD 0 [] ≠ "CQ".toList := by
  intro isCq
  have notToken := genuine.first_not_mem_callTokens
  rw [isCq] at notToken
  exact notToken (by decide)

theorem IsGenuineFreeText.packgrid_third_lt : packgrid ((text.splitOn ' ').getD 2 []) < 2 ^ 16 := by
  by_cases empty : (text.splitOn ' ').getD 2 [] = []
  · rw [empty]
    decide
  · exact packgrid_lt (genuine.getD_isFreeWord empty)

variable (hashIf decoderIf : Option CallsignTable)

theorem not_survivesCodec_of_long
    (long : 11 < ((text.splitOn ' ').getD 0 []).length) :
    ¬ SurvivesCodec message hashIf decoderIf text := by
  rintro ⟨encoded, isOk, -⟩
  rw [encode_of_long (textWords_of_isGenuineFreeText genuine) hashIf long] at isOk
  cases isOk

variable (short : ((text.splitOn ' ').getD 0 []).length ≤ 11)
include short

/-- Text that does not start like two calls is packed as it is. -/
theorem survivesCodec_of_not_startsLikeCalls
    (noCalls : ¬ StartsLikeCalls (text.splitOn ' ')) :
    SurvivesCodec message hashIf decoderIf text := by
  have words := textWords_of_isGenuineFreeText genuine
  have notPacked : (∀ hashIf, (pack28 ((text.splitOn ' ').getD 0 []) hashIf).1 = none) ∨
      ∀ hashIf, (pack28 ((text.splitOn ' ').getD 1 []) hashIf).1 = none := by
    by_cases toCall : IsCallId ((text.splitOn ' ').getD 0 [])
    · obtain ⟨notToken, notCall⟩ := not_or.mp fun deCall => noCalls ⟨toCall, deCall⟩
      exact Or.inr (pack28_of_not_isCallId notToken (blank_not_mem_getD text 1) words.deShort
        notCall)
    · exact Or.inl (pack28_of_not_isCallId genuine.first_not_mem_callTokens
        (blank_not_mem_getD text 0) short toCall)
  obtain ⟨code, std⟩ := @encodeStd_of_none message _ _ ((text.splitOn ' ').getD 2 []) hashIf
    notPacked
  have isOk := encode_of_neither words hashIf short std fun hashIf =>
    encodeNonstd_of_not_isCallId hashIf genuine.first_ne_cq (genuine.bracket_not_mem_getD 1)
      (blank_not_mem_getD text 0) (blank_not_mem_getD text 1) short words.deShort
      fun calls => noCalls ⟨calls.1, Or.inr calls.2⟩
  rw [survivesCodec_iff_of_encode isOk]
  exact decodeIf_encodeFree genuine decoderIf

/-- Two suffixes that exclude each other send the text out as a non-standard message. -/
theorem not_survivesCodec_of_suffixConflict (calls : StartsLikeCalls (text.splitOn ' '))
    (conflict : SuffixConflict ((text.splitOn ' ').getD 0 []) ((text.splitOn ' ').getD 1 [])) :
    ¬ SurvivesCodec message hashIf decoderIf text := by
  have words := textWords_of_isGenuineFreeText genuine
  have deCall := calls.2.resolve_left fun isToken => conflict.not_isReadBack.2 (Or.inl isToken)
  obtain ⟨a, packsA, -⟩ :=
    exists_packsAs (genuine.getD_isFreeWord genuine.first_nonempty) (Or.inr calls.1)
  obtain ⟨b, packsB, -⟩ :=
    exists_packsAs (genuine.getD_isFreeWord calls.second_nonempty) (Or.inr deCall)
  have std := @encodeStd_of_suffixConflict message _ _ ((text.splitOn ' ').getD 2 []) _ _ packsA
    packsB hashIf conflict
  obtain ⟨encoded, isOk, shows⟩ := encode_of_encodeNonstd words hashIf short std fun hashIf =>
    encodeNonstd_of_isCallId hashIf genuine.first_ne_cq calls.1 deCall
  obtain ⟨shown, decoded, bracketed⟩ := shows decoderIf
  rw [survivesCodec_iff_of_encode isOk, decoded]
  intro same
  obtain rfl := Except.ok.inj same
  exact bracketed.not_isGenuineFreeText genuine

/-- Two calls come back where both are read back, and the third word too. -/
theorem survivesCodec_iff_of_startsLikeCalls (calls : StartsLikeCalls (text.splitOn ' '))
    (noConflict : ¬ SuffixConflict ((text.splitOn ' ').getD 0 [])
      ((text.splitOn ' ').getD 1 [])) :
    SurvivesCodec message hashIf decoderIf text ↔ IsNumberMessage (text.splitOn ' ') := by
  have deNonempty := calls.second_nonempty
  obtain ⟨encoded, fieldA, fieldB, isOk, shownA, shownB, decoded⟩ :=
    @decodeIf_encodeStd message _ _ ((text.splitOn ' ').getD 2 [])
      (genuine.getD_isFreeWord genuine.first_nonempty) (genuine.getD_isFreeWord deNonempty)
      (Or.inr calls.1) calls.2 genuine.packgrid_third_lt hashIf decoderIf noConflict
  have encodes := encode_of_encodeStd (textWords_of_isGenuineFreeText genuine) hashIf short isOk
  rw [survivesCodec_iff_of_encode encodes, decoded, Except.ok.injEq]
  by_cases backA : IsReadBack ((text.splitOn ' ').getD 0 [])
  · by_cases backB : IsReadBack ((text.splitOn ' ').getD 1 [])
    · have whole := fields_eq_joined_iff (fun word => genuine.isFreeWord) deNonempty
      rw [joined_splitOn] at whole
      rw [shownA.readBack backA, shownB.readBack backB, whole]
      constructor
      · rintro ⟨three, plain⟩
        exact ⟨three, backA.resolve_left genuine.first_not_mem_callTokens, backB.symm, plain⟩
      · exact fun numbers => ⟨numbers.three, numbers.extra⟩
    · refine iff_of_false (fun same => ?_) fun numbers => backB numbers.callDe.symm
      obtain ⟨inner, bracketed⟩ := shownB.hashed backB
      apply genuine.not_bracketed
      rw [← same, bracketed]
      simp
  · refine iff_of_false (fun same => ?_) fun numbers => backA (Or.inr numbers.callTo)
    obtain ⟨inner, bracketed⟩ := shownA.hashed backA
    apply genuine.not_bracketed
    rw [← same, bracketed]
    simp

omit short

/-- Free text survives where its first word is short enough for a callsign and
the first two words are no calls, or are numbers that come back. -/
theorem survivesCodec_iff :
    SurvivesCodec message hashIf decoderIf text ↔ KeepsFreeText text := by
  by_cases short : ((text.splitOn ' ').getD 0 []).length ≤ 11
  · by_cases calls : StartsLikeCalls (text.splitOn ' ')
    · have keeps : KeepsFreeText text ↔ IsNumberMessage (text.splitOn ' ') :=
        ⟨fun kept => kept.noCalls calls, fun numbers => ⟨short, fun _ => numbers⟩⟩
      rw [keeps]
      by_cases conflict : SuffixConflict ((text.splitOn ' ').getD 0 [])
          ((text.splitOn ' ').getD 1 [])
      · exact iff_of_false
          (not_survivesCodec_of_suffixConflict genuine hashIf decoderIf short calls conflict)
          fun numbers => conflict.not_isReadBack.1 (Or.inr numbers.callTo)
      · exact survivesCodec_iff_of_startsLikeCalls genuine hashIf decoderIf short calls conflict
    · exact iff_of_true
        (survivesCodec_of_not_startsLikeCalls genuine hashIf decoderIf short calls)
        ⟨short, fun isCalls => absurd isCalls calls⟩
  · exact iff_of_false
      (not_survivesCodec_of_long genuine hashIf decoderIf (Nat.lt_of_not_le short))
      fun kept => short kept.firstShort

end Survival

theorem isGenuineFreeText_thanks : IsGenuineFreeText "TNX 73 GL".toList where
  length_le := by decide
  symbols := by decide
  singleSpaced := by decide
  noToken word first := by
    obtain rfl := Option.some.inj first
    decide
  noCallsign := by decide

/-- The second word is too short for a callsign. -/
theorem survivesCodec_thanks :
    SurvivesCodec ⟨Vector.replicate 10 0, 0⟩ none none "TNX 73 GL".toList := by
  have keeps : KeepsFreeText "TNX 73 GL".toList := by
    refine ⟨by decide, fun calls => ?_⟩
    rcases calls.2 with isToken | isCallId
    · exact absurd isToken (by decide)
    · exact absurd isCallId.le_length (by decide)
  exact (survivesCodec_iff isGenuineFreeText_thanks none none).mpr keeps

/-- Two words of five letters go out as two hashes. -/
theorem not_survivesCodec_greeting :
    ¬ ∀ message hashIf decoderIf text, IsGenuineFreeText text →
      SurvivesCodec message hashIf decoderIf text := by
  intro allSurvive
  have genuine : IsGenuineFreeText "HELLO WORLD".toList :=
    { length_le := by decide
      symbols := by decide
      singleSpaced := by decide
      noToken := fun word first => by
        obtain rfl := Option.some.inj first
        decide
      noCallsign := by decide }
  obtain ⟨encoded, isOk, decoded⟩ :=
    allSurvive ⟨Vector.replicate 10 0, 0⟩ none none _ genuine
  have shown : ((FtxMessage.encode ⟨Vector.replicate 10 0, 0⟩ none "HELLO WORLD".toList).1.toOption
      |>.bind fun encoded => (encoded.decodeIf none).1.toOption) =
        some "<...> <...> ".toList := by
    decide +kernel
  rw [isOk] at shown
  change (encoded.decodeIf none).1.toOption = _ at shown
  rw [decoded] at shown
  exact absurd (Option.some.inj shown) (by decide)

end RtlsdrFt8d
