import RtlsdrFt8d.SlotRouting

/-!
# Spots of CQ calls

A CQ call should put its caller on the spot list and in the handler's queue,
and nothing else should.  The text of a message is split at blanks, so a
modifier of the CQ that is not two characters long, or a blank inside a field,
moves the words: what is reported is then the modifier.
-/

namespace RtlsdrFt8d

open TokenSplitting

def IsCqField (text : List Char) : Prop :=
  text = "CQ".toList ∨ ∃ modifier, text = "CQ ".toList ++ modifier ∧ IsCqModifier modifier

/-- A standard message to a CQ field, or a non-standard one with the CQ flag. -/
def AnnouncesCq (message : FtxMessage) (fields : CallFields) : Prop :=
  (message.getType = .standard ∧ IsCqField fields.callTo) ∨
    (message.getType = .nonstdCall ∧ message.icq ≠ 0)

/-- One spot and one message to the handler were added, both with the caller. -/
def ReportsCaller (fields : CallFields) (before after : SlotDecoding) : Prop :=
  (∃ result, after.decodes = before.decodes ++ [result] ∧
      result.call.chars = bareCall fields.callDe ∧
      result.loc.chars = fields.extra.take 6) ∧
    ∃ qsoMsg, after.qsohQueue = before.qsohQueue ++ [qsoMsg] ∧
      qsoMsg.src.chars = bareCall fields.callDe ∧ qsoMsg.dest.chars = "CQ".toList

/-- Neither a spot nor a CQ for the handler was added. -/
def ReportsNothing (before after : SlotDecoding) : Prop :=
  after.decodes = before.decodes ∧
    ∃ pushed, after.qsohQueue = before.qsohQueue ++ pushed ∧
      ∀ qsoMsg ∈ pushed, qsoMsg.dest.chars ≠ "CQ".toList

variable {options : Options} {clock : SlotClock}

/-! ## Outcomes of a routing -/

def Routing.SpotsCaller (fields : CallFields) (routing : Routing) : Prop :=
  ∃ cmd call loc, routing = .cq cmd call loc ∧
    stripBrackets call 13 = bareCall fields.callDe ∧
    (loc.getD []).take 6 = fields.extra.take 6

def Routing.SpotsSomeone : Routing → Prop
  | .ignored => False
  | .cq _ _ _ => True
  | .call dst _ _ => stripBrackets (some dst) 13 = "CQ".toList

theorem reportsCaller_follow_iff {fields : CallFields} {before entered : SlotDecoding}
    {candidate : Candidate} {routing : Routing} (sameDecodes : entered.decodes = before.decodes)
    (sameQueue : entered.qsohQueue = before.qsohQueue) :
    ReportsCaller fields before (entered.follow options clock candidate routing) ↔
      routing.SpotsCaller fields := by
  cases routing with
  | ignored => simp [ReportsCaller, Routing.SpotsCaller, SlotDecoding.follow, sameDecodes]
  | call dst src msg =>
      simp [ReportsCaller, Routing.SpotsCaller, SlotDecoding.follow, sameDecodes]
  | cq cmd call loc =>
      simp only [ReportsCaller, Routing.SpotsCaller, SlotDecoding.follow, SlotDecoding.pushCq,
        sameDecodes, sameQueue, List.append_cancel_left_eq, List.cons.injEq, and_true]
      simp [cqResult, cqMessage, take_stripBrackets]
      tauto

theorem reportsNothing_follow_iff {before entered : SlotDecoding} {candidate : Candidate}
    {routing : Routing} (sameDecodes : entered.decodes = before.decodes)
    (sameQueue : entered.qsohQueue = before.qsohQueue) :
    ReportsNothing before (entered.follow options clock candidate routing) ↔
      ¬ routing.SpotsSomeone := by
  cases routing with
  | ignored =>
      simp [ReportsNothing, Routing.SpotsSomeone, SlotDecoding.follow, sameDecodes, sameQueue]
  | call dst src msg =>
      simp [ReportsNothing, Routing.SpotsSomeone, SlotDecoding.follow, sameDecodes, sameQueue,
        callMessage, take_stripBrackets]
  | cq cmd call loc =>
      simp [ReportsNothing, Routing.SpotsSomeone, SlotDecoding.follow, SlotDecoding.pushCq,
        sameDecodes]

/-! ## CQ calls -/

variable {rcall : List Char} {fields : CallFields}

theorem route_cq_nil : route rcall ["CQ".toList] = .ignored := by
  rw [route, if_pos (by decide)]

theorem route_cq_cons (second : List Char) (rest : List (List Char)) :
    route rcall ("CQ".toList :: second :: rest) =
      if second.length = 2 then .cq ("CQ ".toList ++ second) rest[0]? rest[1]?
      else .cq "CQ   ".toList (some second) rest[0]? := by
  rw [route, if_pos (by decide)]

/-- A caller of two characters is taken for a modifier, and never reported. -/
theorem not_spotsCaller_of_length_two (callDe : IsCallField fields.callDe)
    (extra : IsExtraField fields.extra) (callIsWord : IsWord isBlank fields.callDe)
    (extraNoBlank : NoBlank fields.extra) (twoChars : fields.callDe.length = 2) :
    ¬ (route rcall ("CQ".toList ::
        (words fields.callDe ++ words fields.extra))).SpotsCaller fields := by
  rw [words_of_isWord callIsWord, words_of_noBlank extraNoBlank, List.singleton_append,
    route_cq_cons, if_pos twoChars]
  rintro ⟨_, call, loc, same, callEq, locEq⟩
  cases same
  split_ifs at callEq locEq with empty
  · have bareEmpty : bareCall fields.callDe = [] := by
      simpa [stripBrackets, bareCall] using callEq.symm
    exact callIsWord.1 (callDe.bareCall_shape.2.1.mp bareEmpty)
  · rw [List.take_of_length_le extra.short] at locEq
    exact empty (by simpa using locEq.symm)

/-- A plain CQ is reported correctly unless blanks or a caller of two characters
move the words. -/
theorem spotsCaller_plainCq_iff (callDe : IsCallField fields.callDe)
    (extra : IsExtraField fields.extra) (nonempty : fields.callDe ≠ []) :
    (route rcall ("CQ".toList :: (words fields.callDe ++ words fields.extra))).SpotsCaller fields ↔
      IsWord isBlank fields.callDe ∧ NoBlank fields.extra ∧ fields.callDe.length ≠ 2 := by
  constructor
  · intro spots
    have wordsNoBlank : ∀ word ∈ words fields.callDe ++ words fields.extra, NoBlank word :=
      noBlank_of_mem_rest rfl
    obtain ⟨callNoBlank, extraNoBlank⟩ : NoBlank fields.callDe ∧ NoBlank fields.extra := by
      cases rest : words fields.callDe ++ words fields.extra with
      | nil =>
          rw [rest, route_cq_nil] at spots
          obtain ⟨_, _, _, same, _⟩ := spots
          cases same
      | cons second rest' =>
          rw [rest, route_cq_cons] at spots
          rw [rest] at wordsNoBlank
          obtain ⟨cmd, call, loc, same, callEq, locEq⟩ := spots
          split_ifs at same with twoChars <;> cases same
          · exact noBlank_of_eq_words callDe extra
              (fun word wordMem => wordsNoBlank word (List.mem_cons_of_mem _ wordMem))
              callEq (Nat.le_refl 6) locEq
          · exact noBlank_of_eq_words callDe extra wordsNoBlank (i := 0) (j := 1) callEq
              (Nat.le_refl 6) locEq
    have callIsWord : IsWord isBlank fields.callDe := ⟨nonempty, callNoBlank⟩
    exact ⟨callIsWord, extraNoBlank, fun twoChars =>
      not_spotsCaller_of_length_two callDe extra callIsWord extraNoBlank twoChars spots⟩
  · rintro ⟨callIsWord, extraNoBlank, notTwo⟩
    have reported := (eq_words_iff_noBlank callDe extra nonempty (Nat.le_refl 6) rfl).mpr
      ⟨callIsWord, extraNoBlank⟩
    rw [words_of_isWord callIsWord] at reported ⊢
    rw [List.singleton_append, route_cq_cons, if_neg notTwo]
    exact ⟨_, _, _, rfl, reported⟩

/-- A modifier of two characters leaves the words in order. -/
theorem spotsCaller_twoChars_iff (callDe : IsCallField fields.callDe)
    (extra : IsExtraField fields.extra) (nonempty : fields.callDe ≠ []) {modifier : List Char}
    (twoChars : modifier.length = 2) :
    (route rcall ("CQ".toList :: modifier ::
        (words fields.callDe ++ words fields.extra))).SpotsCaller fields ↔
      IsWord isBlank fields.callDe ∧ NoBlank fields.extra := by
  rw [route_cq_cons, if_pos twoChars,
    ← eq_words_iff_noBlank callDe extra nonempty (Nat.le_refl 6) rfl]
  simp [Routing.SpotsCaller]

theorem IsCqModifier.shape {modifier : List Char} (isModifier : IsCqModifier modifier) :
    modifier.length ≤ 4 ∧ '<' ∉ modifier ∧ IsWord isBlank modifier := by
  rcases isModifier with ⟨three, digits⟩ | ⟨one, four, letters⟩
  · refine ⟨by omega, fun bracket => by simpa using List.all_eq_true.mp digits _ bracket,
      fun empty => by simp [empty] at three, fun symbol symbolMem => ?_⟩
    have isDigit := List.all_eq_true.mp digits symbol symbolMem
    by_contra isBlank'
    simp [isBlank] at isBlank'
    simp [isBlank'] at isDigit
  · refine ⟨four, fun bracket => by simpa using List.all_eq_true.mp letters _ bracket,
      fun empty => by simp [empty] at one, fun symbol symbolMem => ?_⟩
    have isUpper := List.all_eq_true.mp letters symbol symbolMem
    by_contra isBlank'
    simp [isBlank] at isBlank'
    simp [isBlank'] at isUpper

/-- Any other modifier is reported in place of the caller. -/
theorem not_spotsCaller_of_length_ne (callDe : IsCallField fields.callDe)
    (extra : IsExtraField fields.extra) (standard : IsStandardCall fields.callDe)
    {modifier : List Char} (isModifier : IsCqModifier modifier)
    (notTwo : modifier.length ≠ 2) :
    ¬ (route rcall ("CQ".toList :: modifier ::
        (words fields.callDe ++ words fields.extra))).SpotsCaller fields := by
  obtain ⟨short, notBracket, modifierIsWord⟩ := isModifier.shape
  have bareModifier : bareCall modifier = modifier :=
    bareCall_of_head_ne fun bracket => notBracket (List.mem_of_mem_head? bracket)
  rw [route_cq_cons, if_neg notTwo]
  rintro ⟨_, _, _, same, callEq, locEq⟩
  cases same
  have callEq : bareCall fields.callDe = modifier := by
    rw [← callEq, stripBrackets, Option.getD_some, bareModifier,
      List.take_of_length_le (by omega)]
  have callIsWord : IsWord isBlank fields.callDe :=
    ⟨standard.ne_nil, callDe.bareCall_shape.2.2.mp (callEq ▸ modifierIsWord.2)⟩
  rw [words_of_isWord callIsWord, List.singleton_append, List.getElem?_cons_zero,
    Option.getD_some, List.take_of_length_le extra.short] at locEq
  rcases callDe.plain_or_bracketed with plain | ⟨inner, bracketed, -⟩
  · rw [bareCall_of_head_ne plain.head_ne] at callEq
    rw [callEq, List.take_of_length_le (by omega)] at locEq
    have isRrr := extra.eq_of_isCqModifier (locEq ▸ isModifier)
    exact standard.ne_rrr (by rw [callEq, locEq, isRrr])
  · exact extra.head_ne (by simp [← locEq, bracketed, addBrackets])

/-- The words of a CQ keep their places: the caller and the extra field are free of
blanks, and what stands between the CQ and the extra field has two characters if it
is a modifier, and not two if it is the caller. -/
def CqKeepsWords (fields : CallFields) : Prop :=
  IsWord isBlank fields.callDe ∧ NoBlank fields.extra ∧
    ((fields.callTo = "CQ".toList ∧ fields.callDe.length ≠ 2) ∨
      ∃ modifier, fields.callTo = "CQ ".toList ++ modifier ∧ modifier.length = 2)

theorem spotsCaller_iff_of_isCqField (shaped : fields.WellShaped)
    (standard : IsStandardCall fields.callDe) (isCq : IsCqField fields.callTo) :
    (route rcall (words fields.text)).SpotsCaller fields ↔ CqKeepsWords fields := by
  rw [words_text, CqKeepsWords]
  rcases isCq with plainCq | ⟨modifier, withModifier, isModifier⟩
  · have cqWords : words fields.callTo = ["CQ".toList] := by rw [plainCq]; decide
    rw [cqWords, List.singleton_append,
      spotsCaller_plainCq_iff shaped.callDe shaped.extra standard.ne_nil, plainCq]
    simp
  · have cqWords : words fields.callTo = ["CQ".toList, modifier] := by
      have split := words_append_blank "CQ".toList modifier
      rw [words_of_isWord isModifier.shape.2.2] at split
      rw [withModifier]
      exact split
    have placed : ((fields.callTo = "CQ".toList ∧ fields.callDe.length ≠ 2) ∨
        ∃ other, fields.callTo = "CQ ".toList ++ other ∧ other.length = 2) ↔
          modifier.length = 2 := by
      simp [withModifier]
    rw [cqWords, List.cons_append, List.singleton_append, placed]
    by_cases twoChars : modifier.length = 2
    · rw [spotsCaller_twoChars_iff shaped.callDe shaped.extra standard.ne_nil twoChars]
      simp [twoChars]
    · refine iff_of_false ?_ fun keeps => twoChars keeps.2.2
      exact not_spotsCaller_of_length_ne shaped.callDe shaped.extra standard isModifier twoChars

/-- A CQ call reports its caller exactly when its words keep their places. -/
theorem spotsCaller_iff {table : CallsignTable} (holds : table.HoldsCallsigns)
    {message : FtxMessage} (unpacked : (message.decodeFields table).1 = .ok fields)
    (announces : AnnouncesCq message fields) :
    (route rcall (words fields.text)).SpotsCaller fields ↔ CqKeepsWords fields := by
  have shaped := (decodeFields_shape holds rfl).2 fields unpacked
  rcases announces with ⟨isStandard, isCq⟩ | ⟨isNonstd, flagged⟩
  · have stdResult : (message.decodeStd table).1 = .ok fields := by
      rw [← unpacked, FtxMessage.decodeFields, isStandard]
    exact spotsCaller_iff_of_isCqField shaped
      ((decodeStd_shape holds rfl).2 fields stdResult).2 isCq
  · have nonstdResult : (message.decodeNonstd table).1 = fields := by
      rw [FtxMessage.decodeFields, isNonstd] at unpacked
      exact Except.ok.inj unpacked
    obtain ⟨isCq, noExtra⟩ := decodeNonstd_of_icq flagged table
    rw [nonstdResult] at isCq noExtra
    have cqWords : words fields.callTo = ["CQ".toList] := by rw [isCq]; decide
    rw [words_text, cqWords, List.singleton_append, CqKeepsWords, isCq]
    by_cases noCaller : fields.callDe = []
    · rw [noCaller, noExtra, words_nil, List.append_nil, route_cq_nil]
      simp [Routing.SpotsCaller, IsWord]
    · rw [spotsCaller_plainCq_iff shaped.callDe shaped.extra noCaller]
      simp

/-! ## Other messages -/

/-- Two words or more, the first starting with `CQ`. -/
def StartsLikeCq (text : List Char) : Prop :=
  ∃ first second rest, words text = first :: second :: rest ∧ BeginsWithCq first

/-- The first word passes for our callsign but names `CQ` in brackets. -/
def NamesCqAsUs (rcall text : List Char) : Prop :=
  ∃ first rest, words text = first :: rest ∧ ¬ BeginsWithCq first ∧ rcall <+: first ∧
    stripBrackets (some first) 13 = "CQ".toList

theorem spotsSomeone_iff (rcall text : List Char) :
    (route rcall (words text)).SpotsSomeone ↔ StartsLikeCq text ∨ NamesCqAsUs rcall text := by
  constructor
  · intro spots
    cases routed : route rcall (words text) with
    | ignored => simp [routed, Routing.SpotsSomeone] at spots
    | cq cmd call loc => exact Or.inl (exists_route_eq_cq_iff.mp ⟨_, _, _, routed⟩)
    | call dst src msg =>
        rw [routed, Routing.SpotsSomeone] at spots
        obtain ⟨rest, textWords, notCq, isOurs, -, -⟩ := route_eq_call_iff.mp routed
        exact Or.inr ⟨dst, rest, textWords, notCq, isOurs, spots⟩
  · rintro (startsLikeCq | ⟨first, rest, textWords, notCq, isOurs, named⟩)
    · obtain ⟨cmd, call, loc, routed⟩ : ∃ cmd call loc,
          route rcall (words text) = .cq cmd call loc :=
        exists_route_eq_cq_iff.mpr startsLikeCq
      rw [routed]
      trivial
    · rw [route_eq_call_iff.mpr ⟨rest, textWords, notCq, isOurs, rfl, rfl⟩]
      exact named

/-! ## Spots of a candidate -/

/-- A candidate with a new message to `CQ` from a resolved caller reports this
caller; a candidate with any other message to a station reports nothing. -/
def SpotsCqCallers (options : Options) (clock : SlotClock) (before : SlotDecoding)
    (candidate : Candidate) : Prop :=
  ∀ fields, IsNew before candidate →
    (candidate.message.decodeFields before.callsigns).1 = .ok fields →
      (AnnouncesCq candidate.message fields → fields.callDe ≠ unresolvedCallsign →
        ReportsCaller fields before (decodeCandidate options clock before candidate)) ∧
      (¬ IsCqField fields.callTo →
        ReportsNothing before (decodeCandidate options clock before candidate))

/-- Spots are right exactly for the CQ calls whose words keep their places, and for
the other messages whose text does not start like a CQ. -/
theorem spotsCqCallers_iff (options : Options) (clock : SlotClock) (slots : List ReceivedSlot)
    (earlier : List Candidate) (candidate : Candidate) :
    SpotsCqCallers options clock (decodingAfter options clock slots earlier) candidate ↔
      ∀ fields, IsNew (decodingAfter options clock slots earlier) candidate →
        (candidate.message.decodeFields
            (decodingAfter options clock slots earlier).callsigns).1 = .ok fields →
          (AnnouncesCq candidate.message fields → fields.callDe ≠ unresolvedCallsign →
            CqKeepsWords fields) ∧
          (¬ IsCqField fields.callTo →
            ¬ StartsLikeCq fields.text ∧ ¬ NamesCqAsUs options.rcall.chars fields.text) := by
  have holds := holdsCallsigns_decodingAfter options clock slots earlier
  unfold SpotsCqCallers
  apply forall_congr'
  intro fields
  apply forall_congr'
  intro isNew
  apply forall_congr'
  intro unpacked
  obtain ⟨entered, sameDecodes, sameQueue, result⟩ :=
    decodeCandidate_of_isNew options clock holds isNew (decode_of_decodeFields unpacked)
  rw [result, reportsCaller_follow_iff sameDecodes sameQueue,
    reportsNothing_follow_iff sameDecodes sameQueue, spotsSomeone_iff, not_or]
  apply and_congr_left
  intro _
  apply forall_congr'
  intro announces
  apply forall_congr'
  intro _
  exact spotsCaller_iff holds unpacked announces

/-- `CQ TEST K1ABC FN42`, as contest stations call. -/
def contestCq : Candidate where
  message := { payload := #v[0, 97, 95, 144, 77, 239, 26, 138, 25, 136], hash := 7 }
  freqHz := 1000
  snr := -7
  leftover := .empty 40

/-- The contest call is spotted as a station named `TEST`. -/
theorem not_spotsCqCallers_contestCq :
    ¬ SpotsCqCallers sampleStation sampleClock
      (decodingAfter sampleStation sampleClock [] []) contestCq := by
  intro spots
  have unpacked :
      (contestCq.message.decodeFields
          (decodingAfter sampleStation sampleClock [] []).callsigns).1 =
        .ok
          { callTo := "CQ TEST".toList
            callDe := "K1ABC".toList
            extra := "FN42".toList } := by
    decide +kernel
  have announces : AnnouncesCq contestCq.message
      { callTo := "CQ TEST".toList
        callDe := "K1ABC".toList
        extra := "FN42".toList } :=
    Or.inl ⟨by decide, Or.inr ⟨"TEST".toList, by decide, by decide⟩⟩
  obtain ⟨⟨result, added, call, -⟩, -⟩ :=
    (spots _ (by decide +kernel) unpacked).1 announces (by decide)
  have reported :
      (decodeCandidate sampleStation sampleClock
          (decodingAfter sampleStation sampleClock [] []) contestCq).decodes.map
        (fun entry => entry.call.chars) = ["TEST".toList] := by
    decide +kernel
  have noneBefore : (decodingAfter sampleStation sampleClock [] []).decodes = [] := rfl
  rw [added, noneBefore] at reported
  have sameCall : result.call.chars = "TEST".toList := List.singleton_inj.mp reported
  exact absurd (sameCall.symm.trans call) (by decide)

end RtlsdrFt8d
