import RtlsdrFt8d.QsoMachine
import RtlsdrFt8d.SlotRouting

/-!
# Calls to our station

A message to our callsign should reach `addQso`, and no other message should.
The decoder compares the first word as it stands, brackets included, and only
the handler compares it without them: a call to the hash of our callsign is
lost, and so is a call to a callsign that starts with `CQ`.
-/

namespace RtlsdrFt8d

open TokenSplitting

variable {options : Options} {clock : SlotClock}

/-- The handler passes this message to `addQso`. -/
def HandsToAddQso (options : Options) (qsoMsg : PlainMessage) : Prop :=
  qsoMsg.dest.chars ≠ "CQ".toList ∧ qsoMsg.dest.chars = options.rcall.chars

/-- A message that is neither a CQ nor handed to `addQso` changes nothing. -/
theorem dispatch_of_not_handsToAddQso {qsoMsg : PlainMessage}
    (notCq : qsoMsg.dest.chars ≠ "CQ".toList) (notHanded : ¬ HandsToAddQso options qsoMsg)
    (handler : QsoHandler) : dispatch options qsoMsg handler = handler := by
  rw [dispatch, if_neg notCq, if_neg fun isOurs => notHanded ⟨notCq, isOurs⟩]

/-- One message was pushed: the call as it was sent, for `addQso`. -/
def DeliversCall (options : Options) (fields : CallFields) (before after : SlotDecoding) : Prop :=
  ∃ qsoMsg, after.qsohQueue = before.qsohQueue ++ [qsoMsg] ∧
    qsoMsg.dest.chars = options.rcall.chars ∧
    qsoMsg.src.chars = bareCall fields.callDe ∧
    qsoMsg.message.chars = fields.extra ∧
    HandsToAddQso options qsoMsg

def DeliversNothing (options : Options) (before after : SlotDecoding) : Prop :=
  ∃ pushed, after.qsohQueue = before.qsohQueue ++ pushed ∧
    ∀ qsoMsg ∈ pushed, ¬ HandsToAddQso options qsoMsg

/-! ## Outcomes of a routing -/

def Routing.HandsOver (rcall : List Char) : Routing → Prop
  | .ignored => False
  | .cq _ _ _ => False
  | .call dst _ _ => rcall ≠ "CQ".toList ∧ stripBrackets (some dst) 13 = rcall

def Routing.HandsCallOver (rcall : List Char) (fields : CallFields) (routing : Routing) : Prop :=
  ∃ dst src msg, routing = .call dst src msg ∧ routing.HandsOver rcall ∧
    stripBrackets src 13 = bareCall fields.callDe ∧ (msg.getD []).take 39 = fields.extra

theorem dest_callMessage (candidate : Candidate) (dst : List Char)
    (src msg : Option (List Char)) :
    (callMessage options clock candidate dst src msg).dest.chars =
      stripBrackets (some dst) 13 :=
  take_stripBrackets _

theorem handsToAddQso_callMessage_iff (candidate : Candidate) (dst : List Char)
    (src msg : Option (List Char)) :
    HandsToAddQso options (callMessage options clock candidate dst src msg) ↔
      (Routing.call dst src msg).HandsOver options.rcall.chars := by
  rw [HandsToAddQso, Routing.HandsOver, dest_callMessage]
  constructor
  · rintro ⟨notCq, isOurs⟩
    exact ⟨isOurs ▸ notCq, isOurs⟩
  · rintro ⟨notCq, isOurs⟩
    exact ⟨isOurs.symm ▸ notCq, isOurs⟩

theorem not_handsToAddQso_cqMessage (candidate : Candidate) (result : DecoderResult) :
    ¬ HandsToAddQso options (cqMessage options clock candidate result) :=
  fun hands => hands.1 rfl

theorem deliversCall_follow_iff {fields : CallFields} {before entered : SlotDecoding}
    {candidate : Candidate} {routing : Routing}
    (sameQueue : entered.qsohQueue = before.qsohQueue) :
    DeliversCall options fields before (entered.follow options clock candidate routing) ↔
      routing.HandsCallOver options.rcall.chars fields := by
  cases routing with
  | ignored => simp [DeliversCall, Routing.HandsCallOver, SlotDecoding.follow, sameQueue]
  | cq cmd call loc =>
      simp [DeliversCall, Routing.HandsCallOver, SlotDecoding.follow, SlotDecoding.pushCq,
        sameQueue, not_handsToAddQso_cqMessage]
  | call dst src msg =>
      have pushed : DeliversCall options fields before
          (entered.follow options clock candidate (.call dst src msg)) ↔
            HandsToAddQso options (callMessage options clock candidate dst src msg) ∧
              stripBrackets src 13 = bareCall fields.callDe ∧
              (msg.getD []).take 39 = fields.extra := by
        simp only [DeliversCall, SlotDecoding.follow, sameQueue, List.append_cancel_left_eq,
          List.cons.injEq, and_true, exists_eq_left', callMessage, CString.chars_snprintf,
          Nat.reduceSub, take_stripBrackets]
        constructor
        · rintro ⟨-, sameSrc, sameMsg, hands⟩
          exact ⟨hands, sameSrc, sameMsg⟩
        · rintro ⟨hands, sameSrc, sameMsg⟩
          exact ⟨(dest_callMessage candidate dst src msg).symm.trans hands.2, sameSrc, sameMsg,
            hands⟩
      rw [pushed, handsToAddQso_callMessage_iff]
      constructor
      · rintro ⟨hands, sameSrc, sameMsg⟩
        exact ⟨_, _, _, rfl, hands, sameSrc, sameMsg⟩
      · rintro ⟨_, _, _, same, hands, sameSrc, sameMsg⟩
        cases same
        exact ⟨hands, sameSrc, sameMsg⟩

theorem deliversNothing_follow_iff {before entered : SlotDecoding} {candidate : Candidate}
    {routing : Routing} (sameQueue : entered.qsohQueue = before.qsohQueue) :
    DeliversNothing options before (entered.follow options clock candidate routing) ↔
      ¬ routing.HandsOver options.rcall.chars := by
  cases routing with
  | ignored => simp [DeliversNothing, Routing.HandsOver, SlotDecoding.follow, sameQueue]
  | cq cmd call loc =>
      simp [DeliversNothing, Routing.HandsOver, SlotDecoding.follow, SlotDecoding.pushCq,
        sameQueue, not_handsToAddQso_cqMessage]
  | call dst src msg =>
      simp [DeliversNothing, SlotDecoding.follow, sameQueue, handsToAddQso_callMessage_iff]

/-! ## Texts -/

variable {fields : CallFields}

/-- The message names our callsign in plain text, and keeps its words in place. -/
def AddressesUsPlainly (rcall : List Char) (fields : CallFields) : Prop :=
  fields.callTo = rcall ∧ NoBlank rcall ∧ ¬ BeginsWithCq rcall ∧
    ((IsWord isBlank fields.callDe ∧ NoBlank fields.extra) ∨
      (fields.callDe = [] ∧ fields.extra = []))

/-- The first word of a text is our callsign after the decoder cut it to the size
of its buffer, and no CQ. -/
def PassesForUs (rcall text : List Char) : Prop :=
  ∃ first rest, words text = first :: rest ∧ ¬ BeginsWithCq first ∧ rcall <+: first ∧
    stripBrackets (some first) 13 = rcall

theorem handsOver_iff (rcall text : List Char) :
    (route rcall (words text)).HandsOver rcall ↔ PassesForUs rcall text := by
  constructor
  · intro handsOver
    cases routed : route rcall (words text) with
    | ignored => simp [routed, Routing.HandsOver] at handsOver
    | cq cmd call loc => simp [routed, Routing.HandsOver] at handsOver
    | call dst src msg =>
        rw [routed] at handsOver
        obtain ⟨rest, textWords, notCq, isOurs, -, -⟩ := route_eq_call_iff.mp routed
        exact ⟨dst, rest, textWords, notCq, isOurs, handsOver.2⟩
  · rintro ⟨first, rest, textWords, notCq, isOurs, named⟩
    rw [route_eq_call_iff.mpr ⟨rest, textWords, notCq, isOurs, rfl, rfl⟩]
    refine ⟨fun same => notCq ?_, named⟩
    rwa [same] at isOurs

theorem stripBrackets_of_plain {text : List Char} (plain : IsPlainText text)
    (short : text.length ≤ 12) : stripBrackets (some text) 13 = text := by
  rw [stripBrackets, Option.getD_some, bareCall_of_head_ne plain.head_ne]
  exact List.take_of_length_le short

/-- The two words after our callsign are the two fields exactly when blanks do not
move them; an extra field may not follow an empty caller. -/
theorem eq_words_iff_inPlace (callDe : IsCallField fields.callDe)
    (extra : IsExtraField fields.extra) {rest : List (List Char)}
    (isRest : rest = words fields.callDe ++ words fields.extra) :
    (stripBrackets rest[0]? 13 = bareCall fields.callDe ∧
        (rest[1]?.getD []).take 39 = fields.extra) ↔
      (IsWord isBlank fields.callDe ∧ NoBlank fields.extra) ∨
        (fields.callDe = [] ∧ fields.extra = []) := by
  have wide : fields.extra.take 39 = fields.extra :=
    List.take_of_length_le (extra.short.trans (by decide))
  by_cases noCaller : fields.callDe = []
  · have restWords : rest = words fields.extra := by simp [isRest, noCaller]
    constructor
    · rintro ⟨call, third⟩
      have noBlank := (noBlank_of_eq_words callDe extra (noBlank_of_mem_rest isRest) call
        (by decide : 6 ≤ 39) (third.trans wide.symm)).2
      rw [restWords, words_of_noBlank noBlank, noCaller] at call
      split_ifs at call with noExtra
      · exact Or.inr ⟨noCaller, noExtra⟩
      · have asCaller : stripBrackets (some fields.extra) 13 = fields.extra := by
          rw [stripBrackets, Option.getD_some, bareCall_of_head_ne extra.head_ne]
          exact List.take_of_length_le (extra.short.trans (by decide))
        exact absurd (asCaller.symm.trans call) noExtra
    · rintro (⟨callIsWord, _⟩ | ⟨_, noExtra⟩)
      · exact absurd noCaller callIsWord.1
      · simp [restWords, noExtra, noCaller, stripBrackets, bareCall]
  · have inOrder := eq_words_iff_noBlank callDe extra noCaller (by decide : 6 ≤ 39) isRest
    rw [wide] at inOrder
    simpa [noCaller] using inOrder

/-- A plain callsign of ours in front is handed over with the other two fields,
exactly when these keep their places. -/
theorem handsCallOver_iff_of_plain {rcall : List Char} (callDe : IsCallField fields.callDe)
    (extra : IsExtraField fields.extra) (plain : IsPlainText rcall) (short : rcall.length ≤ 12)
    (nonempty : rcall ≠ []) (isTo : fields.callTo = rcall) :
    (route rcall (words fields.text)).HandsCallOver rcall fields ↔
      AddressesUsPlainly rcall fields := by
  rw [AddressesUsPlainly, words_text, isTo]
  constructor
  · rintro ⟨dst, src, msg, routed, handsOver, sameSrc, sameMsg⟩
    obtain ⟨rest, textWords, notCq, isOurs, rfl, rfl⟩ := route_eq_call_iff.mp routed
    have dstMem : dst ∈ words fields.text := by
      rw [words_text, isTo, textWords]
      exact List.mem_cons_self
    have noBlank : NoBlank rcall := fun symbol symbolMem =>
      noBlank_of_mem_words dstMem symbol (isOurs.subset symbolMem)
    rw [words_of_isWord ⟨nonempty, noBlank⟩, List.singleton_append] at textWords
    cases textWords
    exact ⟨rfl, noBlank, notCq, (eq_words_iff_inPlace callDe extra rfl).mp ⟨sameSrc, sameMsg⟩⟩
  · rintro ⟨_, noBlank, notCq, inPlace⟩
    rw [words_of_isWord ⟨nonempty, noBlank⟩, List.singleton_append,
      route_eq_call_iff.mpr ⟨_, rfl, notCq, List.prefix_refl _, rfl, rfl⟩]
    refine ⟨_, _, _, rfl, ⟨fun same => notCq ?_, stripBrackets_of_plain plain short⟩,
      (eq_words_iff_inPlace callDe extra rfl).mpr inPlace⟩
    rw [same]
    decide

/-- The hash of our callsign in front is never handed over. -/
theorem not_handsCallOver_of_bracketed {rcall inner : List Char} (plain : IsPlainText rcall)
    (nonempty : rcall ≠ []) (isTo : fields.callTo = addBrackets inner) :
    ¬ (route rcall (words fields.text)).HandsCallOver rcall fields := by
  rintro ⟨dst, src, msg, routed, -⟩
  obtain ⟨rest, textWords, -, isOurs, -, -⟩ := route_eq_call_iff.mp routed
  obtain ⟨word, others, startsWithBracket⟩ : ∃ word others,
      words fields.text = ('<' :: word) :: others := by
    rw [CallFields.text, isTo]
    exact exists_tokens_of_head_not_delim (by decide)
  rw [startsWithBracket] at textWords
  cases textWords
  cases rcall with
  | nil => exact nonempty rfl
  | cons first rcall =>
      obtain ⟨tail, same⟩ := isOurs
      cases same
      exact plain.1 List.mem_cons_self

/-- A call to us is handed over exactly when it names us in plain text, in place. -/
theorem handsCallOver_iff (shaped : fields.WellShaped)
    (isOurs : bareCall fields.callTo = options.rcall.chars) :
    (route options.rcall.chars (words fields.text)).HandsCallOver options.rcall.chars fields ↔
      AddressesUsPlainly options.rcall.chars fields := by
  rcases shaped.callTo.plain_or_bracketed with plain | ⟨inner, bracketed, plain⟩
  · rw [bareCall_of_head_ne plain.head_ne] at isOurs
    exact handsCallOver_iff_of_plain shaped.callDe shaped.extra (isOurs ▸ plain)
      options.rcall.length_le options.rcall_ne_nil isOurs
  · rw [bracketed, bareCall_addBrackets] at isOurs
    rw [isOurs] at bracketed plain
    refine iff_of_false
      (not_handsCallOver_of_bracketed plain options.rcall_ne_nil bracketed) fun addressed => ?_
    apply plain.1
    rw [← addressed.1, bracketed]
    exact List.mem_cons_self

/-! ## Calls of a candidate -/

/-- A candidate with a new message to our callsign delivers this call, and one with
a new message to another station delivers nothing. -/
def DeliversOwnCalls (options : Options) (clock : SlotClock) (before : SlotDecoding)
    (candidate : Candidate) : Prop :=
  ∀ fields, IsNew before candidate →
    (candidate.message.decodeFields before.callsigns).1 = .ok fields →
      (bareCall fields.callTo = options.rcall.chars →
        DeliversCall options fields before (decodeCandidate options clock before candidate)) ∧
      (bareCall fields.callTo ≠ options.rcall.chars →
        DeliversNothing options before (decodeCandidate options clock before candidate))

/-- Calls are delivered right exactly when those to us name us in plain text, with
words in place, and no other text passes for one to us. -/
theorem deliversOwnCalls_iff (options : Options) (clock : SlotClock) (slots : List ReceivedSlot)
    (earlier : List Candidate) (candidate : Candidate) :
    DeliversOwnCalls options clock (decodingAfter options clock slots earlier) candidate ↔
      ∀ fields, IsNew (decodingAfter options clock slots earlier) candidate →
        (candidate.message.decodeFields
            (decodingAfter options clock slots earlier).callsigns).1 = .ok fields →
          (bareCall fields.callTo = options.rcall.chars →
            AddressesUsPlainly options.rcall.chars fields) ∧
          (bareCall fields.callTo ≠ options.rcall.chars →
            ¬ PassesForUs options.rcall.chars fields.text) := by
  have holds := holdsCallsigns_decodingAfter options clock slots earlier
  unfold DeliversOwnCalls
  apply forall_congr'
  intro fields
  apply forall_congr'
  intro isNew
  apply forall_congr'
  intro unpacked
  obtain ⟨entered, sameDecodes, sameQueue, result⟩ :=
    decodeCandidate_of_isNew options clock holds isNew (decode_of_decodeFields unpacked)
  have shaped := (decodeFields_shape holds rfl).2 fields unpacked
  rw [result, deliversCall_follow_iff sameQueue, deliversNothing_follow_iff sameQueue,
    handsOver_iff]
  apply and_congr_left
  intro _
  apply forall_congr'
  intro isOurs
  exact handsCallOver_iff shaped isOurs

/-- `SA0PRF K1ABC FN42`, after which the table of callsigns resolves our own. -/
def ownCall : Candidate where
  message := { payload := #v[203, 211, 230, 128, 77, 239, 26, 138, 25, 136], hash := 1 }
  freqHz := 1000
  snr := -7
  leftover := .empty 40

/-- `<SA0PRF> PJ4/K1ABC RRR`, as a station with a compound callsign calls. -/
def hashedOwnCall : Candidate where
  message := { payload := #v[58, 0, 1, 163, 163, 17, 202, 160, 4, 160], hash := 2 }
  freqHz := 1200
  snr := -7
  leftover := .empty 40

/-- The call to the hash of our callsign is not delivered. -/
theorem not_deliversOwnCalls_hashedOwnCall :
    ¬ DeliversOwnCalls sampleStation sampleClock
      (decodingAfter sampleStation sampleClock [] [ownCall]) hashedOwnCall := by
  intro delivers
  have unpacked :
      (hashedOwnCall.message.decodeFields
          (decodingAfter sampleStation sampleClock [] [ownCall]).callsigns).1 =
        .ok
          { callTo := "<SA0PRF>".toList
            callDe := "PJ4/K1ABC".toList
            extra := "RRR".toList } := by
    decide +kernel
  obtain ⟨qsoMsg, added, -⟩ := (delivers _ (by decide +kernel) unpacked).1 (by decide)
  have nothingAdded :
      (decodeCandidate sampleStation sampleClock
          (decodingAfter sampleStation sampleClock [] [ownCall]) hashedOwnCall).qsohQueue =
        (decodingAfter sampleStation sampleClock [] [ownCall]).qsohQueue := by
    decide +kernel
  rw [nothingAdded] at added
  simp at added

end RtlsdrFt8d
