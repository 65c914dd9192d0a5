import RtlsdrFt8d.SlotReception
import RtlsdrFt8d.StandardMessages
import RtlsdrFt8d.TwoStations

/-!
# Delivery of requests

The way of a standard message from the handler of one station to that of another: the
transmitter reads its words, encodes the message and sends the tones; the receiver
finds them in its slot, decodes the payload and splits the text into the words of a
message to its handler.
-/

namespace RtlsdrFt8d

/-! ## The transmitter -/

theorem StandardCall.isCallWord (call : StandardCall) : IsCallWord call.text := by
  have known : ∀ symbol ∈ callSymbols, symbol.isAlphanum = true ∨ symbol = '/' := by decide
  refine ⟨List.ne_nil_of_length_pos ?_, fun symbol isSymbol =>
    known symbol (call.isCallId.symbols symbol isSymbol)⟩
  have long := call.isCallId.le_length
  omega

theorem StandardCall.upperCase (call : StandardCall) : UpperCase call.text := by
  have known : ∀ symbol ∈ callSymbols, symbol.isLower = false := by decide
  exact fun symbol isSymbol => known symbol (call.isCallId.symbols symbol isSymbol)

namespace StandardExtra

def symbols : List Char :=
  "ABCDEFGHIJKLMNOPQR0123456789+-".toList

theorem mem_symbols (extra : StandardExtra) : ∀ symbol ∈ extra.text, symbol ∈ symbols := by
  have reports : ∀ n < 130, ∀ symbol ∈ intToDd ((n : Nat) - 30 : Int) 2 true,
      symbol ∈ symbols := by
    decide +kernel
  have report {value : Int} (atLeast : -30 ≤ value) (atMost : value ≤ 99) :
      ∀ symbol ∈ intToDd value 2 true, symbol ∈ symbols := by
    have found := reports (value + 30).toNat (by omega)
    rwa [show ((value + 30).toNat : Int) - 30 = value by omega] at found
  cases extra with
  | nothing => simp [text]
  | locator square =>
      have letters : ∀ n < 18, Char.ofNat ('A'.toNat + n) ∈ symbols := by decide
      have digits : ∀ n < 10, Char.ofNat ('0'.toNat + n) ∈ symbols := by decide
      simp only [text, gridChars, List.mem_cons, List.not_mem_nil, or_false]
      rintro symbol (rfl | rfl | rfl | rfl)
      · exact letters _ (Nat.mod_lt _ (by decide))
      · exact letters _ (Nat.mod_lt _ (by decide))
      · exact digits _ (Nat.mod_lt _ (by decide))
      · exact digits _ (Nat.mod_lt _ (by decide))
  | rogers => decide
  | rogersBye => decide
  | bye => decide
  | report value atLeast atMost => exact report atLeast atMost
  | rogersReport value atLeast atMost =>
      intro symbol isSymbol
      rcases List.mem_cons.mp isSymbol with rfl | inReport
      · decide
      · exact report atLeast atMost symbol inReport

theorem isWord (extra : StandardExtra) (nonempty : extra.text ≠ []) :
    TokenSplitting.IsWord isWordSeparator extra.text := by
  have known : ∀ symbol ∈ symbols, isWordSeparator symbol = false := by decide
  exact ⟨nonempty, fun symbol isSymbol => known symbol (extra.mem_symbols symbol isSymbol)⟩

theorem upperCase (extra : StandardExtra) : UpperCase extra.text := by
  have known : ∀ symbol ∈ symbols, symbol.isLower = false := by decide
  exact fun symbol isSymbol => known symbol (extra.mem_symbols symbol isSymbol)

end StandardExtra

/-- A standard message as the handler sends them, to all or to a station, with a
third word. -/
structure HandlerMessage extends StandardMessage where
  toAllOrStation : callTo.text = "CQ".toList ∨ ∃ call, callTo = .station call
  nonempty : extra.text ≠ []

namespace HandlerMessage

variable (message : HandlerMessage)

def request (freq : Int32) : List Char :=
  requestText freq message.callTo.text message.callDe.text message.extra.text

theorem isRequestWord_callTo : IsRequestWord message.callTo.text := by
  rcases message.toAllOrStation with isCq | ⟨call, isStation⟩
  · rw [isCq]
    exact isRequestWord_of_isCallWord (by decide)
  · rw [isStation]
    exact isRequestWord_of_isCallWord call.isCallWord

theorem upperCase_callTo : UpperCase message.callTo.text := by
  rcases message.toAllOrStation with isCq | ⟨call, isStation⟩
  · rw [isCq]
    decide
  · rw [isStation]
    exact call.upperCase

/-- The transmitter takes the text of the message from the request. -/
theorem parseCommandline_request {freq : Int32} (nonneg : 0 ≤ freq)
    (notOption : GetoptPermutation.isOption message.extra.text = false) :
    ∃ line, parseCommandline (wordexp (message.request freq)).tail = some line ∧
      line.message = message.text := by
  have upper := (upperCase_request _ _ _).mpr
    ⟨message.upperCase_callTo, message.callDe.upperCase, message.extra.upperCase⟩
  refine ⟨_, parseCommandline_requestText nonneg message.isRequestWord_callTo
    (isRequestWord_of_isCallWord message.callDe.isCallWord)
    ⟨message.extra.isWord message.nonempty, notOption⟩, ?_⟩
  refine ((map_toUpper_eq_self_iff _).mpr upper).trans ?_
  simp [StandardMessage.text]

end HandlerMessage

/-! ## The payload -/

namespace StandardMessage

variable {message : StandardMessage} {a b : Nat}

/-- The three bits behind the 77 of a message are clear. -/
theorem clearTail_payload (message : StandardMessage) (a b : Nat) :
    clearTail (message.payload a b) = message.payload a b := by
  have masked : ∀ low < 4, ∀ i3 < 8,
      (UInt8.ofNat (low * 64) ||| UInt8.ofNat (i3 <<< 3)) &&& (0xF8 : UInt8) =
        UInt8.ofNat (low * 64) ||| UInt8.ofNat (i3 <<< 3) := by
    decide +kernel
  have lowBits (igrid4 : Nat) : UInt8.ofNat (igrid4 <<< 6) = UInt8.ofNat (igrid4 % 4 * 64) := by
    apply UInt8.toNat_inj.mp
    rw [UInt8.toNat_ofNat', UInt8.toNat_ofNat', Nat.shiftLeft_eq]
    omega
  have small : message.i3 < 8 := by
    rcases message.isStd with isType | isType <;> rw [isType] <;> decide
  have lastByte : (message.payload a b)[9] &&& (0xF8 : UInt8) = (message.payload a b)[9] := by
    change (UInt8.ofNat (packgrid message.extra.text <<< 6) ||| UInt8.ofNat (message.i3 <<< 3)) &&&
      (0xF8 : UInt8) = UInt8.ofNat (packgrid message.extra.text <<< 6) |||
        UInt8.ofNat (message.i3 <<< 3)
    rw [lowBits]
    exact masked _ (Nat.mod_lt _ (by decide)) _ small
  rw [clearTail, lastByte]
  exact Vector.set_getElem_self _

theorem CallFieldsOf.payload_ne_zero (fields : message.CallFieldsOf a b) :
    message.payload a b ≠ Vector.replicate 10 0 := by
  intro zero
  have isType := (@CallFieldsOf.decodeStd message a b fields ⟨message.payload a b, 0⟩ rfl
    hashtableInit).1
  rw [zero] at isType
  exact absurd isType (by decide)

end StandardMessage

/-! ## The queue to the handler -/

section Queue

variable {options : Options} {clock : SlotClock} {callsigns : CallsignTable}
  {candidates : List Candidate}

theorem qsohQueue_prefix_decodeText (candidate : Candidate) (text : List Char)
    (decoding : SlotDecoding) :
    decoding.qsohQueue <+: (decodeText options clock candidate text decoding).qsohQueue := by
  unfold decodeText
  split
  · exact List.prefix_rfl
  · split
    · unfold decodeCq
      split
      · exact List.prefix_rfl
      · split
        · exact List.prefix_append _ _
        · exact List.prefix_append _ _
    · split
      · exact List.prefix_append _ _
      · exact List.prefix_rfl

/-- A pass of the loop takes nothing out of the queue. -/
theorem qsohQueue_prefix_decodeCandidate (decoding : SlotDecoding) (candidate : Candidate) :
    decoding.qsohQueue <+: (decodeCandidate options clock decoding candidate).qsohQueue := by
  unfold decodeCandidate
  split
  · exact List.prefix_rfl
  · dsimp only
    split
    · exact List.prefix_rfl
    · refine List.IsPrefix.trans ?_ (qsohQueue_prefix_decodeText candidate _ _)
      exact List.prefix_rfl

theorem qsohQueue_prefix_run (decoding : SlotDecoding) (later : List Candidate) :
    decoding.qsohQueue <+:
      (EventRuns.run (decodeCandidate options clock) decoding later).qsohQueue :=
  EventRuns.run_induction (fun after : SlotDecoding => decoding.qsohQueue <+: after.qsohQueue)
    List.prefix_rfl
    (fun _ candidate grown => grown.trans (qsohQueue_prefix_decodeCandidate _ candidate)) later

/-- What the routing of a handled message pushes stays in the queue. -/
theorem qsohQueue_of_mem_handled (holds : callsigns.HoldsCallsigns) {message : FtxMessage}
    (isHandled : message ∈ handledMessages options clock callsigns candidates)
    {text : List Char}
    (decoded : ∀ table, (message.decode table).1 = .ok text) :
    ∃ candidate ∈ candidates, ∃ entered : SlotDecoding,
      (entered.follow options clock candidate
        (route options.rcall.chars (words text))).qsohQueue <+:
          (decodeSlot options clock callsigns candidates).qsohQueue := by
  obtain ⟨taken, isNewStep, rfl⟩ := List.mem_map.mp isHandled
  obtain ⟨isStep, isNew⟩ := List.mem_filter.mp isNewStep
  obtain ⟨earlier, later, split, before, -⟩ := EventRuns.mem_steps_iff.mp isStep
  have holdsBefore : taken.before.callsigns.HoldsCallsigns :=
    before ▸ holdsCallsigns_decodeSlot options clock holds earlier
  obtain ⟨entered, -, -, routed⟩ := decodeCandidate_of_isNew options clock holdsBefore
    (of_decide_eq_true isNew) (decoded taken.before.callsigns)
  refine ⟨taken.event, split ▸ by simp, entered, ?_⟩
  rw [← routed, before, decodeSlot, split, EventRuns.run_append]
  exact qsohQueue_prefix_run _ later

end Queue

/-! ## The routing of a standard message -/

namespace HandlerMessage

variable (message : HandlerMessage)

theorem words_text :
    words message.text = [message.callTo.text, message.callDe.text, message.extra.text] := by
  have word {text : List Char} (nonempty : text ≠ []) (noBlank : ' ' ∉ text) :
      words text = [text] := by
    refine words_of_isWord ⟨nonempty, fun symbol isSymbol => ?_⟩
    exact not_isBlank_of_mem noBlank isSymbol
  have deNoBlank : ' ' ∉ message.callDe.text := (Addressee.station message.callDe).blank_not_mem
  have toLong := message.callTo.length_text.1
  have deLong := message.callDe.isCallId.le_length
  rw [StandardMessage.text, words_append_blank, words_append_blank,
    word (List.ne_nil_of_length_pos (by omega)) message.callTo.blank_not_mem,
    word (List.ne_nil_of_length_pos (by omega)) deNoBlank,
    word message.nonempty message.extra.blank_not_mem]
  rfl

theorem wordexp_request (freq : Int32) :
    wordexp (message.request freq) = ["FT8Tx".toList, CNumerals.formatInt 0 freq.toInt,
      message.callTo.text, message.callDe.text, message.extra.text] :=
  wordexp_requestText freq message.isRequestWord_callTo.1
    (isWord_of_isCallWord message.callDe.isCallWord) (message.extra.isWord message.nonempty)

theorem conveys_request {freq : Int32} {qsoMsg : PlainMessage}
    (toSame : qsoMsg.dest.chars = message.callTo.text)
    (fromSame : qsoMsg.src.chars = message.callDe.text)
    (sameText : qsoMsg.dest.chars ≠ "CQ".toList → qsoMsg.message.chars = message.extra.text) :
    Conveys (message.request freq) qsoMsg :=
  ⟨_, message.extra.text, by rw [message.wordexp_request, toSame, fromSame], sameText⟩

/-- A callsign fits into its field. -/
theorem chars_snprintf_stripBrackets (call : StandardCall) :
    (CString.snprintf 13 (stripBrackets (some call.text) 13)).chars = call.text := by
  have short := call.isCallId.length_le
  have notBracket : call.text.head? ≠ some '<' := fun bracket =>
    absurd (call.isCallId.symbols '<' (List.mem_of_mem_head? bracket)) (by decide)
  rw [CString.chars_snprintf, stripBrackets, Option.getD_some, bareCall_of_head_ne notBracket,
    List.take_take, List.take_of_length_le]
  omega

/-- The message to all or to the station reaches the handler with the words of the
request. -/
theorem follow_conveys {options : Options} (clock : SlotClock) (candidate : Candidate)
    (entered : SlotDecoding) (freq : Int32)
    (forUs : message.callTo.text = "CQ".toList ∨
      (message.callTo.text = options.rcall.chars ∧ ¬ BeginsWithCq options.rcall.chars)) :
    ∃ qsoMsg ∈ (entered.follow options clock candidate
        (route options.rcall.chars (words message.text))).qsohQueue,
      Conveys (message.request freq) qsoMsg ∧ qsoMsg.ft8slot = clock.thisSlot := by
  rw [message.words_text]
  have deLong := message.callDe.isCallId.le_length
  have fromSender := chars_snprintf_stripBrackets message.callDe
  rcases forUs with toAll | ⟨toUs, notCq⟩
  · have routed : route options.rcall.chars
        [message.callTo.text, message.callDe.text, message.extra.text] =
          .cq "CQ   ".toList (some message.callDe.text) (some message.extra.text) := by
      rw [toAll, route, if_pos (by decide)]
      exact if_neg (by omega)
    rw [routed]
    refine ⟨_, List.mem_append.mpr (Or.inr (List.mem_singleton.mpr rfl)), ?_, rfl⟩
    exact message.conveys_request toAll.symm fromSender fun toOther => absurd rfl toOther
  · have routed : route options.rcall.chars
        [message.callTo.text, message.callDe.text, message.extra.text] =
          .call message.callTo.text (some message.callDe.text) (some message.extra.text) := by
      rw [toUs, route, if_neg notCq, if_pos List.prefix_rfl]
      rfl
    have toStation : (CString.snprintf 13 (stripBrackets (some message.callTo.text) 13)).chars =
        message.callTo.text := by
      rcases message.toAllOrStation with toAll | ⟨call, isStation⟩
      · rw [← toUs, toAll] at notCq
        exact absurd (by decide) notCq
      · rw [isStation]
        exact chars_snprintf_stripBrackets call
    have wholeText : (CString.snprintf 40 message.extra.text).chars = message.extra.text :=
      List.take_of_length_le (message.extra.length_text_le.trans (by decide))
    rw [routed]
    refine ⟨_, List.mem_append.mpr (Or.inr (List.mem_singleton.mpr rfl)), ?_, rfl⟩
    exact message.conveys_request toStation fromSender fun _ => wholeText

end HandlerMessage

/-! ## The whole way -/

/-- A request for a standard message, to everyone or to a station, becomes tones
that any receiver turns into a message with the same words, if the signal is clear,
strong enough and the slot not too crowded. -/
theorem request_delivered {K : Type*} [Field K] [LinearOrder K] [IsStrictOrderedRing K]
    (message : HandlerMessage) {freq : Int32} (nonneg : 0 ≤ freq)
    (notOption : GetoptPermutation.isOption message.extra.text = false) (start : FtxMessage) :
    ∃ line encoded, parseCommandline (wordexp (message.request freq)).tail = some line ∧
      (start.encode none line.message).1 = .ok encoded ∧
        ∀ (wf : SearchedWaterfall) (slot : RecordedSlot K wf) (options : Options)
          (clock : SlotClock) (callsigns : CallsignTable),
          HeardClearly slot encoded.payload → callsigns.HoldsCallsigns →
            (message.callTo.text = "CQ".toList ∨ (message.callTo.text = options.rcall.chars ∧
              ¬ BeginsWithCq options.rcall.chars)) →
              ∃ qsoMsg ∈ (receiveSlot options clock callsigns slot).qsohQueue,
                Conveys (message.request freq) qsoMsg ∧ qsoMsg.ft8slot = clock.thisSlot := by
  obtain ⟨line, parsed, sameText⟩ := message.parseCommandline_request nonneg notOption
  obtain ⟨a, b, fields, encoded⟩ := message.exists_encoded start none
  rw [← sameText] at encoded
  refine ⟨line, _, parsed, encoded, fun wf slot options clock callsigns heard holds forUs => ?_⟩
  have same := message.clearTail_payload a b
  have nonzero : clearTail (message.payload a b) ≠ Vector.replicate 10 0 := by
    rw [same]
    exact fields.payload_ne_zero
  obtain ⟨received, isHandled, isPayload⟩ :=
    heard.exists_handled nonzero options clock callsigns
  obtain ⟨candidate, -, entered, isPrefix⟩ := qsohQueue_of_mem_handled holds isHandled
    fun table => fields.decode (isPayload.trans same) table
  obtain ⟨qsoMsg, isPushed, conveys, inSlot⟩ :=
    message.follow_conveys clock candidate entered freq forUs
  exact ⟨qsoMsg, isPrefix.subset isPushed, conveys, inSlot⟩

/-- `CQ K1ABC FN42`. -/
def callToAll : HandlerMessage where
  callTo := .all "CQ".toList (by decide)
  callDe := ⟨"K1ABC".toList, .none, .short (by decide) (by decide) ⟨by decide, by decide⟩
    (by decide)⟩
  extra := .locator 10342
  agree := by decide
  toAllOrStation := .inl rfl
  nonempty := by decide

theorem request_delivered_callToAll :
    ∃ qsoMsg ∈ (receiveSlot sampleStation sampleClock hashtableInit
        (cqSlot Real.sqrt)).qsohQueue,
      Conveys (callToAll.request 14074000) qsoMsg ∧ qsoMsg.ft8slot = .even := by
  let start : FtxMessage := { payload := Vector.replicate 10 0, hash := 0 }
  have text : (parseCommandline (wordexp (callToAll.request 14074000)).tail).map (·.message) =
      some "CQ K1ABC FN42".toList := by
    decide +kernel
  have payload : (start.encode none "CQ K1ABC FN42".toList).1.toOption.map (·.payload) =
      some cqPayload := by
    decide +kernel
  obtain ⟨line, encoded, parsed, isEncoded, received⟩ :=
    request_delivered (K := ℝ) callToAll (show (0 : Int32) ≤ 14074000 by decide) (by decide) start
  rw [parsed] at text
  rw [show line.message = _ from Option.some.inj text] at isEncoded
  rw [isEncoded] at payload
  have isPayload : encoded.payload = cqPayload := Option.some.inj payload
  exact received cqWaterfall (cqSlot Real.sqrt) sampleStation sampleClock hashtableInit
    (isPayload ▸ heardClearly_cqSlot) holdsCallsigns_hashtableInit (.inl rfl)

end RtlsdrFt8d
