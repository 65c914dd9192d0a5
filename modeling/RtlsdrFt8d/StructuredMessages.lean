import RtlsdrFt8d.CqSpots
import RtlsdrFt8d.OwnCalls
import RtlsdrFt8d.QsoMachineSteps

/-!
# Messages that must not act

Free text, telemetry and messages from an unresolved sender should neither be
spotted nor move the QSO handler.  The decoder looks at the text only, so they
do as soon as their words look like a CQ or like a call to our station.
-/

namespace RtlsdrFt8d

open TokenSplitting

variable {options : Options} {clock : SlotClock}

/-- Free text, telemetry, or a sender that no known callsign hashes to. -/
def IsUnstructured (message : FtxMessage) (callsigns : CallsignTable) : Prop :=
  message.getType = .freeText ∨ message.getType = .telemetry ∨
    ∃ fields, (message.decodeFields callsigns).1 = .ok fields ∧
      fields.callDe = unresolvedCallsign

/-- The variables of the handler that stand for QSOs agree. -/
structure SameQso (first second : QsoHandler) : Prop where
  qsoState : first.qsoState = second.qsoState
  currentQSO : first.currentQSO = second.currentQSO
  peers : first.peers = second.peers
  txQueue : first.txQueue = second.txQueue

/-- No spot was added, and the handler, wherever it is, comes out of the pushed
messages as if there were none. -/
def HasNoEffect (options : Options) (before after : SlotDecoding) : Prop :=
  after.decodes = before.decodes ∧
    ∃ pushed, after.qsohQueue = before.qsohQueue ++ pushed ∧
      ∀ adiOpens events,
        SameQso (qsoRun options adiOpens (events ++ pushed.map .message))
          (qsoRun options adiOpens events)

/-! ## Handlers that react -/

/-- Commands after which the idle handler takes any call and answers any CQ. -/
def readyEvents (theSlot : Ft8Slot) : List QsoEvent :=
  [.command (.autoReply true), .command (.autoQSO true), .command (.slot theSlot)]

def readyHandler (options : Options) (theSlot : Ft8Slot) : QsoHandler :=
  qsoRun options true (readyEvents theSlot)

theorem checkPeer_readyHandler (theSlot : Ft8Slot) (thePeer : List Char) :
    (readyHandler options theSlot).peers.checkPeer thePeer = false :=
  rfl

/-- Some handler takes a message that it hands to `addQso`. -/
theorem not_sameQso_of_handsToAddQso {qsoMsg : PlainMessage}
    (hands : HandsToAddQso options qsoMsg) :
    ¬ SameQso (dispatch options qsoMsg (readyHandler options qsoMsg.ft8slot))
      (readyHandler options qsoMsg.ft8slot) := by
  intro same
  have starts : StartsQso options (readyHandler options qsoMsg.ft8slot) qsoMsg :=
    ⟨hands.1, hands.2, rfl, rfl, rfl, checkPeer_readyHandler _ _⟩
  have taken : (startQso qsoMsg (readyHandler options qsoMsg.ft8slot)).currentQSO = qsoMsg := by
    unfold startQso
    cases parseMsg qsoMsg.message.chars <;> rfl
  have blank := same.currentQSO
  rw [dispatch_of_startsQso starts, taken] at blank
  have noDest : qsoMsg.dest.chars = [] := congrArg (fun qso => qso.dest.chars) blank
  exact options.rcall_ne_nil (hands.2.symm.trans noDest)

/-- Some handler answers a message to `CQ`. -/
theorem not_sameQso_of_cq {qsoMsg : PlainMessage} (isCq : qsoMsg.dest.chars = "CQ".toList) :
    ¬ SameQso (dispatch options qsoMsg (readyHandler options qsoMsg.ft8slot))
      (readyHandler options qsoMsg.ft8slot) := by
  intro same
  have answers : AnswersCq (readyHandler options qsoMsg.ft8slot) qsoMsg :=
    ⟨isCq, rfl, rfl, rfl, checkPeer_readyHandler _ _⟩
  have idle := same.qsoState
  rw [dispatch_of_answersCq answers] at idle
  cases idle

/-! ## Outcomes of a routing -/

theorem hasNoEffect_call_iff {before entered : SlotDecoding} {candidate : Candidate}
    {dst : List Char} {src msg : Option (List Char)}
    (sameDecodes : entered.decodes = before.decodes)
    (sameQueue : entered.qsohQueue = before.qsohQueue) :
    HasNoEffect options before
        (entered.follow options clock candidate (.call dst src msg)) ↔
      ∀ adiOpens events,
        SameQso
          (dispatch options (callMessage options clock candidate dst src msg)
            (qsoRun options adiOpens events))
          (qsoRun options adiOpens events) := by
  constructor
  · rintro ⟨_, pushed, added, silent⟩ adiOpens events
    have isPushed : pushed = [callMessage options clock candidate dst src msg] := by
      simpa [SlotDecoding.follow, sameQueue] using added.symm
    have quiet := silent adiOpens events
    rw [isPushed, List.map_singleton, qsoRun_append_singleton] at quiet
    exact quiet
  · intro silent
    refine ⟨sameDecodes, [callMessage options clock candidate dst src msg],
      by simp [SlotDecoding.follow, sameQueue], fun adiOpens events => ?_⟩
    rw [List.map_singleton, qsoRun_append_singleton]
    exact silent adiOpens events

theorem hasNoEffect_follow_iff {before entered : SlotDecoding} {candidate : Candidate}
    {routing : Routing} (sameDecodes : entered.decodes = before.decodes)
    (sameQueue : entered.qsohQueue = before.qsohQueue) :
    HasNoEffect options before (entered.follow options clock candidate routing) ↔
      ¬ routing.SpotsSomeone ∧ ¬ routing.HandsOver options.rcall.chars := by
  cases routing with
  | ignored =>
      refine iff_of_true ⟨sameDecodes, [], by simp [SlotDecoding.follow, sameQueue], ?_⟩
        ⟨id, id⟩
      intro adiOpens events
      simpa using ⟨rfl, rfl, rfl, rfl⟩
  | cq cmd call loc =>
      refine iff_of_false (fun effect => ?_) fun silent => silent.1 trivial
      have noSpot := effect.1
      simp [SlotDecoding.follow, SlotDecoding.pushCq, sameDecodes] at noSpot
  | call dst src msg =>
      have dest : (callMessage options clock candidate dst src msg).dest.chars =
          stripBrackets (some dst) 13 :=
        dest_callMessage candidate dst src msg
      have handed : HandsToAddQso options (callMessage options clock candidate dst src msg) ↔
          (Routing.call dst src msg).HandsOver options.rcall.chars :=
        handsToAddQso_callMessage_iff candidate dst src msg
      rw [hasNoEffect_call_iff sameDecodes sameQueue, Routing.SpotsSomeone, ← dest, ← handed]
      constructor
      · intro silent
        exact ⟨fun isCq => not_sameQso_of_cq isCq (silent _ _),
          fun hands => not_sameQso_of_handsToAddQso hands (silent _ _)⟩
      · rintro ⟨notCq, notHanded⟩ adiOpens events
        rw [dispatch_of_not_handsToAddQso notCq notHanded]
        exact ⟨rfl, rfl, rfl, rfl⟩

/-! ## Messages of a candidate -/

theorem exists_decode_of_isUnstructured {message : FtxMessage} {callsigns : CallsignTable}
    (unstructured : IsUnstructured message callsigns) :
    ∃ text, (message.decode callsigns).1 = .ok text := by
  rcases unstructured with isFree | isTelemetry | ⟨fields, unpacked, _⟩
  · exact ⟨message.decodeFree, by rw [FtxMessage.decode, isFree]⟩
  · exact ⟨message.decodeTelemetryHex, by rw [FtxMessage.decode, isTelemetry]⟩
  · exact ⟨fields.text, decode_of_decodeFields unpacked⟩

/-- A candidate with a new unstructured message has no effect. -/
def IgnoresUnstructured (options : Options) (clock : SlotClock) (before : SlotDecoding)
    (candidate : Candidate) : Prop :=
  IsNew before candidate → IsUnstructured candidate.message before.callsigns →
    HasNoEffect options before (decodeCandidate options clock before candidate)

/-- Unstructured messages have no effect exactly when their text neither starts like
a CQ nor passes for a call to our station. -/
theorem ignoresUnstructured_iff (options : Options) (clock : SlotClock)
    (slots : List ReceivedSlot) (earlier : List Candidate) (candidate : Candidate) :
    IgnoresUnstructured options clock (decodingAfter options clock slots earlier) candidate ↔
      (IsNew (decodingAfter options clock slots earlier) candidate →
        IsUnstructured candidate.message (decodingAfter options clock slots earlier).callsigns →
          ∀ text,
            (candidate.message.decode
                (decodingAfter options clock slots earlier).callsigns).1 = .ok text →
              ¬ StartsLikeCq text ∧ ¬ NamesCqAsUs options.rcall.chars text ∧
                ¬ PassesForUs options.rcall.chars text) := by
  have holds := holdsCallsigns_decodingAfter options clock slots earlier
  unfold IgnoresUnstructured
  apply forall_congr'
  intro isNew
  apply forall_congr'
  intro unstructured
  obtain ⟨text, decoded⟩ := exists_decode_of_isUnstructured unstructured
  obtain ⟨entered, sameDecodes, sameQueue, result⟩ :=
    decodeCandidate_of_isNew options clock holds isNew decoded
  rw [result, hasNoEffect_follow_iff sameDecodes sameQueue, spotsSomeone_iff, handsOver_iff,
    not_or, and_assoc]
  constructor
  · intro silent other otherDecoded
    rwa [← Except.ok.inj (decoded.symm.trans otherDecoded)]
  · exact fun silent => silent text decoded

/-- The free text `SA0PRF 73`. -/
def freeTextToUs : Candidate where
  message := { payload := #v[0, 0, 2, 3, 101, 80, 146, 41, 40, 0], hash := 3 }
  freqHz := 1000
  snr := -7
  leftover := .empty 40

/-- The free text starts a QSO. -/
theorem not_ignoresUnstructured_freeTextToUs :
    ¬ IgnoresUnstructured sampleStation sampleClock
      (decodingAfter sampleStation sampleClock [] []) freeTextToUs := by
  intro ignores
  obtain ⟨-, pushed, added, silent⟩ :=
    ignores (by decide +kernel) (Or.inl (by decide +kernel))
  have isPushed : pushed =
      (decodeCandidate sampleStation sampleClock
        (decodingAfter sampleStation sampleClock [] []) freeTextToUs).qsohQueue :=
    added.symm
  have stillIdle := (silent true (readyEvents .even)).qsoState
  rw [isPushed] at stillIdle
  exact absurd stillIdle (by decide +kernel)

end RtlsdrFt8d
