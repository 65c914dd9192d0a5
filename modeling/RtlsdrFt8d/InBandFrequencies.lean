import RtlsdrFt8d.QsoMachineSteps
import RtlsdrFt8d.RequestLengths
import RtlsdrFt8d.SettledCenters
import RtlsdrFt8d.SlotDecoding

/-!
# Frequencies inside the band

A request holds a single frequency.  The base of a band leaves the choice of an
audio frequency to `ft8`, which takes any other frequency as it stands.  The
receiver relies on this for its CQ calls, where it sends its dial, and for its
replies, where it sends the frequency at which it heard the peer.  What goes on the
air also depends on the encoder, and on the center that the synthesizer settles on.
-/

namespace RtlsdrFt8d

open CNumerals (Double)

/-! ## The passband of a build -/

/-- `RX_AUDIO_MIN`. -/
def rxAudioMin : Int := 200

/-- `RX_AUDIO_MAX`. -/
def Build.rxAudioMax : Build → Int
  | .wide => 2900
  | .narrowband => 1500

/-- `NUM_BIN`. -/
def Build.numBin : Build → Nat
  | .wide => 512
  | .narrowband => 256

/-- A position of `ftx_find_candidates`: the eight tones fit into the
waterfall. -/
structure WaterfallBin (build : Build) where
  freqOffset : Nat
  freqSub : Nat
  freqOffset_lt : freqOffset + 7 < build.numBin
  freqSub_lt : freqSub < 2

/-- `(int32_t)freq_hz`.  A bin has 6.25 Hz and `K_FREQ_OSR` halves; single
precision holds all multiples of 3.125 Hz in the passband. -/
def WaterfallBin.freqHz {build : Build} (bin : WaterfallBin build) : Int32 :=
  Int32.ofInt ((2 * bin.freqOffset + bin.freqSub) * 25 / 8)

/-! ## The choice of the transmitter -/

def txAudioMin : Int := 300

def txAudioMax : Int := 2800

/-- The audio frequency that `mainFT8` adds to a band base. -/
def txAudio (draw : RandomDraw) : Int :=
  txAudioMin + ⌊draw.value * (txAudioMax - txAudioMin : Int)⌋

/-- The center that `setupDMATab` programs under a clock.  A frequency that is no
number has none. -/
def synthesizedCenter (plld : Rat) : Double → Option Double
  | .finite desired =>
      (setupDMATab desired toneSpacing plld).map fun table => .finite table.centerFreqActual
  | _ => none

/-- The transmitter with a random draw, and with the PLLD clock that it assumes. -/
def Transmitter.tuned (transmitter : Transmitter) (draw : RandomDraw) (plld : Rat) :
    Transmitter :=
  { transmitter with audio := fun _ => txAudio draw, setupDMATab := synthesizedCenter plld }

section Tuned

variable (transmitter : Transmitter) (draw : RandomDraw) (plld : Rat)

@[simp]
theorem Transmitter.hardwareOpens_tuned :
    (transmitter.tuned draw plld).hardwareOpens = transmitter.hardwareOpens :=
  rfl

@[simp]
theorem Transmitter.encodes_tuned :
    (transmitter.tuned draw plld).encodes = transmitter.encodes :=
  rfl

@[simp]
theorem Transmitter.audio_tuned (pass : Nat) :
    (transmitter.tuned draw plld).audio pass = txAudio draw :=
  rfl

@[simp]
theorem Transmitter.setupDMATab_tuned (desired : Rat) :
    (transmitter.tuned draw plld).setupDMATab (.finite desired) =
      (RtlsdrFt8d.setupDMATab desired toneSpacing plld).map fun table =>
        .finite table.centerFreqActual :=
  rfl

end Tuned

/-- `ft8` takes up a request and goes on the air once, with the tones of this
`center_freq_actual` and with dividers that fit in their register. -/
def TransmittedAt (transmitter : Transmitter) (draw : RandomDraw) (plld : Rat)
    (text : List Char) (frequency : Rat) : Prop :=
  ∃ line desired table,
    startFT8 (transmitter.tuned draw plld) (wordexp text) = .loopStart line 0 0 0 ∧
    line.repeats = false ∧
    desiredFreq (transmitter.tuned draw plld) line 0 0 = .finite desired ∧
    transmits (transmitter.tuned draw plld) line 0 0 = true ∧
    setupDMATab desired toneSpacing plld = some table ∧ table.FitsRegister ∧
    table.centerFreqActual = frequency

/-- What the convention promises for the requests of `queryCQ` and `handleTx`. -/
structure InBand (transmitter : Transmitter) (build : Build) (draw : RandomDraw) (plld : Rat)
    (options : Options) (handler : QsoHandler) : Prop where
  cq : ∃ audio : Rat,
    TransmittedAt transmitter draw plld (cqText options) (options.dialfreq.toNat + audio) ∧
      rxAudioMin ≤ audio ∧ audio ≤ build.rxAudioMax
  reply : ∀ extra, replyExtra options handler = some extra →
    TransmittedAt transmitter draw plld (replyText options handler extra)
      handler.currentQSO.freq.toInt

theorem floor_draw_bounds (draw : RandomDraw) :
    0 ≤ ⌊draw.value * (2500 : Int)⌋ ∧ ⌊draw.value * (2500 : Int)⌋ < 2500 := by
  have nonneg := draw.nonneg
  have lt_one := draw.lt_one
  constructor
  · apply Int.floor_nonneg.mpr
    positivity
  · apply Int.floor_lt.mpr
    push_cast
    linarith

theorem txAudio_eq (draw : RandomDraw) :
    txAudio draw = 300 + ⌊draw.value * (2500 : Int)⌋ :=
  rfl

theorem txAudio_bounds (draw : RandomDraw) : 300 ≤ txAudio draw ∧ txAudio draw < 2800 := by
  have bounds := floor_draw_bounds draw
  rw [txAudio_eq]
  omega

/-- The window of `ft8` lies inside the wide passband, and reaches beyond the
narrow one. -/
theorem txAudio_le_rxAudioMax_iff (build : Build) (draw : RandomDraw) :
    txAudio draw ≤ build.rxAudioMax ↔ (build = .narrowband → draw.value * 2500 < 1201) := by
  have bounds := txAudio_bounds draw
  cases build with
  | wide =>
      simp only [Build.rxAudioMax, reduceCtorEq, false_implies, iff_true]
      omega
  | narrowband =>
      have floor_lt : ⌊draw.value * (2500 : Int)⌋ < 1201 ↔ draw.value * 2500 < 1201 := by
        rw [Int.floor_lt]
        norm_num
      rw [txAudio_eq, ← floor_lt]
      simp only [Build.rxAudioMax, forall_const]
      omega

/-! ## What `ft8` makes of a request -/

theorem llround_intCast (value : Int) : llround (.finite value) = value := by
  have half : ∀ whole : Int, ⌊(whole : Rat) + 1 / 2⌋ = whole := by
    intro whole
    rw [Int.floor_intCast_add]
    norm_num
  change (if (0 : Rat) ≤ value then ⌊(value : Rat) + 1 / 2⌋ else -⌊-(value : Rat) + 1 / 2⌋) =
    value
  split
  · exact half value
  · have opposite := half (-value)
    push_cast at opposite
    rw [opposite, neg_neg]

variable {transmitter : Transmitter} {draw : RandomDraw} {plld : Rat} {freq : Int32}
  {dest src extra : List Char}

/-- The message that `ft8` reads from a request. -/
def requestMessage (dest src extra : List Char) : List Char :=
  (dest ++ ' ' :: src ++ ' ' :: extra).map Char.toUpper

/-- The command line of a request without options. -/
def requestLine (freq : Int32) (dest src extra : List Char) : CommandLine :=
  { defaultCommandLine with
    message := requestMessage dest src extra
    centerFreqSet := [.finite (freq.toInt : Rat)] }

theorem startFT8_requestText_iff (nonneg : 0 ≤ freq) (destWord : IsRequestWord dest)
    (srcWord : IsRequestWord src) (extraWord : IsRequestWord extra) (line : CommandLine) :
    startFT8 transmitter (wordexp (requestText freq dest src extra)) = .loopStart line 0 0 0 ↔
      (transmitter.hardwareOpens = true ∧
        transmitter.encodes (requestMessage dest src extra) = true) ∧
      requestLine freq dest src extra = line := by
  have parsed : parseCommandline (wordexp (requestText freq dest src extra)).tail =
      some (requestLine freq dest src extra) :=
    parseCommandline_requestText nonneg destWord srcWord extraWord
  have mode : (requestLine freq dest src extra).mode = .ft8 := rfl
  have message : (requestLine freq dest src extra).message = requestMessage dest src extra := rfl
  rw [startFT8, parsed]
  simp only [mode, message]
  by_cases opens : transmitter.hardwareOpens = true
  · by_cases encodes : transmitter.encodes (requestMessage dest src extra) = true
    · simp [opens, encodes]
    · simp [opens, encodes]
  · simp [opens]

/-- `center_freq_desired`: a frequency as it stands, or with an audio frequency on
top of a band base. -/
def chosenFreq (draw : RandomDraw) (freq : Int) : Int :=
  if isBandBase freq then freq + txAudio draw else freq

theorem transmits_tuned_iff {line : CommandLine} {band pass : Nat} {desired : Rat}
    (isDesired : desiredFreq (transmitter.tuned draw plld) line band pass = .finite desired) :
    transmits (transmitter.tuned draw plld) line band pass = true ↔
      desired ≠ 0 ∧ ∃ table, setupDMATab desired toneSpacing plld = some table ∧
        table.centerFreqActual ≠ 0 := by
  rw [transmits, actualFreq, isDesired]
  by_cases zero : desired = 0
  · simp [zero, Double.isTrue]
  · have goesOn : Double.isTrue (.finite desired) = true := by simp [Double.isTrue, zero]
    rw [if_pos goesOn, Transmitter.setupDMATab_tuned]
    cases programmed : setupDMATab desired toneSpacing plld with
    | none => simp
    | some table => simp [zero, Double.isTrue]

theorem desiredFreq_requestLine (freq : Int32) (dest src extra : List Char) :
    desiredFreq (transmitter.tuned draw plld) (requestLine freq dest src extra) 0 0 =
      .finite ((chosenFreq draw freq.toInt : Int) : Rat) := by
  have single : (requestLine freq dest src extra).centerFreqSet =
      [.finite (freq.toInt : Rat)] :=
    rfl
  have noOffset : (requestLine freq dest src extra).randomOffset = false := rfl
  simp only [desiredFreq, single, noOffset, List.getD_cons_zero, llround_intCast, chosenFreq,
    Bool.false_eq_true, and_false, if_false, Transmitter.audio_tuned]
  split
  · rw [Double.add, Int.cast_add]
  · rfl

/-- A frequency that is not negative is transmitted on the center that the
synthesizer settles on for `ft8`'s choice. -/
theorem transmittedAt_requestText_iff (nonneg : 0 ≤ freq) (destWord : IsRequestWord dest)
    (srcWord : IsRequestWord src) (extraWord : IsRequestWord extra) (frequency : Rat) :
    TransmittedAt transmitter draw plld (requestText freq dest src extra) frequency ↔
      (transmitter.hardwareOpens = true ∧
        transmitter.encodes (requestMessage dest src extra) = true) ∧
      chosenFreq draw freq.toInt ≠ 0 ∧
        SettlesOn plld (chosenFreq draw freq.toInt : Int) frequency := by
  have started (line : CommandLine) :
      startFT8 (transmitter.tuned draw plld) (wordexp (requestText freq dest src extra)) =
        .loopStart line 0 0 0 ↔ _ :=
    startFT8_requestText_iff nonneg destWord srcWord extraWord line
  have isDesired : desiredFreq (transmitter.tuned draw plld) (requestLine freq dest src extra) 0 0 =
      _ :=
    desiredFreq_requestLine freq dest src extra
  have castZero : ((chosenFreq draw freq.toInt : Int) : Rat) ≠ 0 ↔
      chosenFreq draw freq.toInt ≠ 0 := by
    exact_mod_cast Iff.rfl
  rw [← castZero]
  constructor
  · rintro ⟨line, center, table, starts, -, asked, onAir, programmed, fits, rfl⟩
    obtain ⟨accepted, rfl⟩ := (started line).mp starts
    rw [isDesired, Double.finite.injEq] at asked
    obtain rfl := asked
    exact ⟨accepted, ((transmits_tuned_iff isDesired).mp onAir).1,
      (settlesOn_iff _ _ _).mpr ⟨table, programmed, fits, rfl⟩⟩
  · rintro ⟨accepted, nonzero, settles⟩
    have center_ne := settles.2.ne_zero
    obtain ⟨table, programmed, fits, rfl⟩ := (settlesOn_iff _ _ _).mp settles
    exact ⟨_, _, table, (started _).mpr ⟨accepted, rfl⟩, rfl, isDesired,
      (transmits_tuned_iff isDesired).mpr ⟨nonzero, table, programmed, center_ne⟩,
      programmed, fits, rfl⟩

theorem not_transmittedAt_of_aborts {text : List Char} {frequency : Rat}
    (aborts : parseCommandline (wordexp text).tail = none) :
    ¬ TransmittedAt transmitter draw plld text frequency := by
  rintro ⟨line, desired, table, starts, -⟩
  simp [startFT8, aborts] at starts

/-! ## Where the receiver hears a peer -/

variable {options : Options} {handler : QsoHandler} {build : Build}

theorem freq_of_mem_decodeText {clock : SlotClock} {candidate : Candidate} {text : List Char}
    {decoding : SlotDecoding} {qsoMsg : PlainMessage}
    (pushed : qsoMsg ∈ (decodeText options clock candidate text decoding).qsohQueue) :
    qsoMsg ∈ decoding.qsohQueue ∨
      qsoMsg.freq = candidate.freqHz + options.dialfreq.toInt32 := by
  have ofPushCq {cmd : List Char} {call loc : Option (List Char)}
      (mem : qsoMsg ∈ (decoding.pushCq options clock candidate cmd call loc).qsohQueue) :
      qsoMsg ∈ decoding.qsohQueue ∨
        qsoMsg.freq = candidate.freqHz + options.dialfreq.toInt32 := by
    rcases List.mem_append.mp mem with earlier | new
    · exact Or.inl earlier
    · obtain rfl := List.mem_singleton.mp new
      exact Or.inr rfl
  unfold decodeText at pushed
  split at pushed
  · exact Or.inl pushed
  · split at pushed
    · unfold decodeCq at pushed
      split at pushed
      · exact Or.inl pushed
      · split at pushed
        · exact ofPushCq pushed
        · exact ofPushCq pushed
    · split at pushed
      · rcases List.mem_append.mp pushed with earlier | new
        · exact Or.inl earlier
        · obtain rfl := List.mem_singleton.mp new
          exact Or.inr rfl
      · exact Or.inl pushed

theorem freq_of_mem_decodeCandidate {clock : SlotClock} {candidate : Candidate}
    {decoding : SlotDecoding} {qsoMsg : PlainMessage}
    (pushed : qsoMsg ∈ (decodeCandidate options clock decoding candidate).qsohQueue) :
    qsoMsg ∈ decoding.qsohQueue ∨
      qsoMsg.freq = candidate.freqHz + options.dialfreq.toInt32 := by
  unfold decodeCandidate at pushed
  split at pushed
  · exact Or.inl pushed
  · simp only at pushed
    split at pushed
    · exact Or.inl pushed
    · rcases freq_of_mem_decodeText pushed with earlier | heard
      · exact Or.inl earlier
      · exact Or.inr heard

/-- A message for the handler carries the dial plus the audio frequency of a
candidate. -/
theorem freq_of_mem_decodeSlot {clock : SlotClock} {callsigns : CallsignTable}
    {candidates : List Candidate} {qsoMsg : PlainMessage}
    (pushed : qsoMsg ∈ (decodeSlot options clock callsigns candidates).qsohQueue) :
    ∃ candidate ∈ candidates,
      qsoMsg.freq = candidate.freqHz + options.dialfreq.toInt32 := by
  induction candidates using List.reverseRecOn with
  | nil => exact absurd pushed List.not_mem_nil
  | append_singleton earlier candidate ih =>
      unfold decodeSlot at pushed ih
      rw [EventRuns.run_append] at pushed
      rcases freq_of_mem_decodeCandidate pushed with before | heard
      · obtain ⟨other, otherMem, heard⟩ := ih before
        exact ⟨other, List.mem_append_left _ otherMem, heard⟩
      · exact ⟨candidate, List.mem_append_right _ List.mem_cons_self, heard⟩

/-- A step that leaves a QSO in progress keeps its frequency, or takes it from
the message that began it. -/
theorem freq_qsoStep (event : QsoEvent)
    (inProgress : (qsoStep options handler event).qsoState ≠ .idle) :
    (handler.qsoState ≠ .idle ∧
        (qsoStep options handler event).currentQSO.freq = handler.currentQSO.freq) ∨
      ∃ qsoMsg, event = .message qsoMsg ∧
        (qsoStep options handler event).currentQSO.freq = qsoMsg.freq := by
  cases event with
  | tick => exact Or.inl ⟨inProgress, rfl⟩
  | adiFile opens => exact Or.inl ⟨inProgress, rfl⟩
  | command command => cases command <;> exact Or.inl ⟨inProgress, rfl⟩
  | update theSlot =>
      rcases update_keeps_or_ends options theSlot handler with ended | ⟨sameState, sameQso⟩
      · exact absurd ended inProgress
      · exact Or.inl ⟨sameState ▸ inProgress, congrArg PlainMessage.freq sameQso⟩
  | message qsoMsg =>
      change (dispatch options qsoMsg handler).qsoState ≠ .idle at inProgress
      change (_ ∧ (dispatch options qsoMsg handler).currentQSO.freq = _) ∨
        ∃ taken, _ ∧ (dispatch options qsoMsg handler).currentQSO.freq = _
      rcases dispatch_cases options handler qsoMsg with continued | started | answered | same
      · left
        refine ⟨continued.inProgress, ?_⟩
        rw [dispatch_of_continuesQso continued] at inProgress ⊢
        cases parsed : parseMsg qsoMsg.message.chars <;>
          simp_all [continueQso, addPeer, logToAdi, resetQsoState]
      · right
        refine ⟨qsoMsg, rfl, ?_⟩
        rw [dispatch_of_startsQso started]
        cases parsed : parseMsg qsoMsg.message.chars <;> simp [startQso, parsed]
      · right
        refine ⟨qsoMsg, rfl, ?_⟩
        rw [dispatch_of_answersCq answered]
      · rw [same] at inProgress ⊢
        exact Or.inl ⟨inProgress, rfl⟩

/-- The frequency of a QSO is the one of a message that the handler received. -/
theorem exists_freq_of_inProgress (adiOpens : Bool) (events : List QsoEvent)
    (inProgress : (qsoRun options adiOpens events).qsoState ≠ .idle) :
    ∃ qsoMsg, .message qsoMsg ∈ events ∧
      (qsoRun options adiOpens events).currentQSO.freq = qsoMsg.freq := by
  induction events using List.reverseRecOn with
  | nil => exact absurd rfl inProgress
  | append_singleton earlier event ih =>
      rw [qsoRun_append_singleton] at inProgress ⊢
      rcases freq_qsoStep event inProgress with ⟨before, sameFreq⟩ | ⟨qsoMsg, rfl, newFreq⟩
      · obtain ⟨qsoMsg, qsoMsgMem, heard⟩ := ih before
        exact ⟨qsoMsg, List.mem_append_left _ qsoMsgMem, sameFreq.trans heard⟩
      · exact ⟨qsoMsg, List.mem_append_right _ List.mem_cons_self, newFreq⟩

/-- The QSO of a handler that is fed by the decoder is on the dial plus the
audio frequency of a candidate. -/
theorem exists_candidate_of_inProgress (adiOpens : Bool) (events : List QsoEvent)
    (decoded : ∀ qsoMsg, .message qsoMsg ∈ events → ∃ clock callsigns candidates,
      qsoMsg ∈ (decodeSlot options clock callsigns candidates).qsohQueue)
    (inProgress : (qsoRun options adiOpens events).qsoState ≠ .idle) :
    ∃ candidate : Candidate, (qsoRun options adiOpens events).currentQSO.freq =
      candidate.freqHz + options.dialfreq.toInt32 := by
  obtain ⟨qsoMsg, received, sameFreq⟩ := exists_freq_of_inProgress adiOpens events inProgress
  obtain ⟨clock, callsigns, candidates, pushed⟩ := decoded qsoMsg received
  obtain ⟨candidate, -, heard⟩ := freq_of_mem_decodeSlot pushed
  exact ⟨candidate, sameFreq.trans heard⟩

/-! ## The requests of the receiver -/

/-- The third word of a reply is a plain word, or a negative report. -/
theorem replyExtra_cases (locWord : IsRequestWord options.rloc.chars)
    (transmits : replyExtra options handler = some extra) :
    (IsRequestWord extra ∧ ¬ (handler.qsoState = .replySig ∧ handler.currentQSO.snr < 0)) ∨
      (extra = reportText handler.currentQSO.snr ∧ handler.qsoState = .replySig ∧
        handler.currentQSO.snr < 0) := by
  unfold replyExtra at transmits
  cases state : handler.qsoState with
  | idle => simp [state] at transmits
  | cqIng => simp [state] at transmits
  | replyLoc =>
      obtain rfl : options.rloc.chars = extra := by simpa [state] using transmits
      exact Or.inl ⟨locWord, by simp⟩
  | replySig =>
      obtain rfl : reportText handler.currentQSO.snr = extra := by simpa [state] using transmits
      by_cases negative : handler.currentQSO.snr < 0
      · exact Or.inr ⟨rfl, rfl, negative⟩
      · exact Or.inl ⟨isRequestWord_reportText (Int32.not_lt.mp negative), by simp [negative]⟩
  | replyRR73 =>
      obtain rfl : "RR73".toList = extra := by simpa [state] using transmits
      exact Or.inl ⟨isRequestWord_of_isCallWord (by decide), by simp⟩
  | reply73 =>
      obtain rfl : "73".toList = extra := by simpa [state] using transmits
      exact Or.inl ⟨isRequestWord_of_isCallWord (by decide), by simp⟩

/-- When `ft8` transmits a reply on the frequency of the peer: it takes that
frequency as it stands, and the divider keeps it. -/
structure ReplyGoesOut (transmitter : Transmitter) (plld : Rat) (options : Options)
    (handler : QsoHandler) (peer : Int) (extra : List Char) : Prop where
  plainReport : ¬ (handler.qsoState = .replySig ∧ handler.currentQSO.snr < 0)
  encodes : transmitter.encodes
    (requestMessage handler.currentQSO.src.chars options.rcall.chars extra) = true
  positive : 0 < peer
  noBase : isBandBase peer = false
  kept : KeepsCenter plld peer

theorem chosenFreq_pos (draw : RandomDraw) {freq : Int} (positive : 0 < freq) :
    0 < chosenFreq draw freq := by
  have bounds := txAudio_bounds draw
  unfold chosenFreq
  split <;> omega

/-- The divider does not take back the audio frequency that is added to a band base. -/
theorem settlesOn_chosenFreq_iff {peer : Int} (positive : 0 < peer) :
    SettlesOn plld (chosenFreq draw peer : Int) peer ↔
      isBandBase peer = false ∧ KeepsCenter plld peer := by
  have positiveRat : (0 : Rat) < peer := by exact_mod_cast positive
  unfold chosenFreq
  cases base : isBandBase peer with
  | false => simpa using settlesOn_self_iff positiveRat
  | true =>
      have audio : (300 : Rat) ≤ txAudio draw := by exact_mod_cast (txAudio_bounds draw).1
      simp only [if_true, reduceCtorEq, false_and, iff_false, settlesOn_iff_kept_or_moved]
      push_cast
      rintro (⟨same, -⟩ | ⟨same, moves⟩)
      · linarith
      · have near := moves.lt_movedCenter (by linarith)
        linarith

variable (transmitter draw plld) in
theorem reply_transmittedAt_iff (peerWord : IsRequestWord handler.currentQSO.src.chars)
    (ownWord : IsRequestWord options.rcall.chars) (locWord : IsRequestWord options.rloc.chars)
    (extra : List Char) (transmits : replyExtra options handler = some extra) :
    TransmittedAt transmitter draw plld (replyText options handler extra)
        handler.currentQSO.freq.toInt ↔
      transmitter.hardwareOpens = true ∧
        ReplyGoesOut transmitter plld options handler handler.currentQSO.freq.toInt extra := by
  unfold replyText
  rcases replyExtra_cases locWord transmits with ⟨extraWord, kept⟩ | ⟨rfl, reporting, negative⟩
  · by_cases negative : handler.currentQSO.freq.toInt < 0
    · constructor
      · intro transmitted
        exact absurd transmitted (not_transmittedAt_of_aborts
          (parseCommandline_of_negativeFreq negative peerWord.1 ownWord.1 extraWord.1))
      · rintro ⟨-, goesOut⟩
        exact absurd goesOut.positive (by omega)
    · have nonneg : 0 ≤ handler.currentQSO.freq :=
        (nonneg_iff_toInt_nonneg _).mpr (by omega)
      rw [transmittedAt_requestText_iff nonneg peerWord ownWord extraWord]
      constructor
      · rintro ⟨⟨opens, encodes⟩, -, settles⟩
        have peer_ne : handler.currentQSO.freq.toInt ≠ 0 := by
          exact_mod_cast settles.2.ne_zero
        have positive : 0 < handler.currentQSO.freq.toInt := by omega
        obtain ⟨noBase, keeps⟩ := (settlesOn_chosenFreq_iff positive).mp settles
        exact ⟨opens, kept, encodes, positive, noBase, keeps⟩
      · rintro ⟨opens, -, encodes, positive, noBase, keeps⟩
        exact ⟨⟨opens, encodes⟩, (chosenFreq_pos draw positive).ne',
          (settlesOn_chosenFreq_iff positive).mpr ⟨noBase, keeps⟩⟩
  · have aborts := @parseCommandline_of_negativeReport handler.currentQSO.freq _ _ _
      ((Int32.lt_iff_toInt_lt).mp negative) peerWord ownWord
    constructor
    · intro transmitted
      exact absurd transmitted (not_transmittedAt_of_aborts aborts)
    · rintro ⟨-, goesOut⟩
      exact absurd ⟨reporting, negative⟩ goesOut.plainReport

theorem lt_of_isBandBase {freq : Int} (base : isBandBase freq = true) :
    0 < freq ∧ freq < 2 ^ 31 := by
  have bounds : ∀ base ∈ [1840000, 3573000, 5357000, 7074000, 10136000, 14074000, 18100000,
      21074000, 24915000, 28074000, 50313000, 70100000, (144174000 : Int)],
      0 < base ∧ base < 2 ^ 31 := by
    decide
  exact bounds freq (List.contains_iff_mem.mp base)

/-- A dial from 2^31 Hz on turns negative in a request. -/
theorem toInt_toInt32 (dial : UInt32) :
    (0 ≤ dial.toInt32.toInt ∧ dial.toInt32.toInt = dial.toNat) ∨
      (dial.toInt32.toInt < 0 ∧ 2 ^ 31 ≤ dial.toNat) := by
  have small := dial.toNat_lt
  have signed : dial.toInt32.toInt =
      if 2 * dial.toNat < 2 ^ 32 then (dial.toNat : Int) else dial.toNat - (2 ^ 32 : Nat) :=
    rfl
  split at signed <;> omega

/-- The choice of the transmitter can be synthesized, as it is or moved, and is not
too high for the narrow build. -/
def InsidePassband (build : Build) (draw : RandomDraw) (plld : Rat) (dial : Nat) : Prop :=
  (KeepsCenter plld (dial + txAudio draw : Int) ∧
      (build = .narrowband → draw.value * 2500 < 1201)) ∨
    (MovesCenter plld (dial + txAudio draw : Int) ∧
      (build = .narrowband →
        plld ≤ (dial + 1510) * wholeDivider plld (dial + txAudio draw : Int)))

theorem movedCenter_inside {dial : Nat}
    (moves : MovesCenter plld (dial + txAudio draw : Int)) :
    (rxAudioMin ≤ movedCenter plld (dial + txAudio draw : Int) - dial ∧
        movedCenter plld (dial + txAudio draw : Int) - dial ≤ build.rxAudioMax) ↔
      (build = .narrowband →
        plld ≤ (dial + 1510) * wholeDivider plld (dial + txAudio draw : Int)) := by
  have dialNonneg : (0 : Rat) ≤ dial := Nat.cast_nonneg dial
  have least : (300 : Rat) ≤ txAudio draw := by exact_mod_cast (txAudio_bounds draw).1
  have most : (txAudio draw : Rat) < 2800 := by exact_mod_cast (txAudio_bounds draw).2
  have chosen : (((dial : Int) + txAudio draw : Int) : Rat) = dial + txAudio draw := by
    push_cast
    ring
  have firstPos : (75 / 8 : Rat) < (dial + txAudio draw : Int) := by
    rw [chosen]
    linarith
  obtain ⟨plldPos, wholePos⟩ := moves.plld_pos firstPos
  have above := moves.lt_movedCenter firstPos
  have below := movedCenter_lt plldPos moves.otherInteger (by linarith)
  rw [chosen] at above below ⊢
  rw [and_iff_right (by norm_num [rxAudioMin]; linarith)]
  cases build with
  | wide =>
      simp only [Build.rxAudioMax, reduceCtorEq, false_implies, iff_true]
      push_cast
      linarith
  | narrowband =>
      rw [chosen] at wholePos
      have wholeRat : (0 : Rat) < wholeDivider plld (dial + txAudio draw) := by
        exact_mod_cast wholePos
      simp only [Build.rxAudioMax, forall_const]
      rw [movedCenter_eq, ← div_le_iff₀ wholeRat]
      push_cast
      constructor <;> intro bound <;> linarith

theorem insidePassband_iff (build : Build) (draw : RandomDraw) (plld : Rat) (dial : Nat) :
    InsidePassband build draw plld dial ↔
      ∃ center : Rat, SettlesOn plld (dial + txAudio draw : Int) center ∧
        rxAudioMin ≤ center - dial ∧ center - dial ≤ build.rxAudioMax := by
  have bounds := txAudio_bounds draw
  have aboveDial : (((dial : Int) + txAudio draw : Int) : Rat) - dial = txAudio draw := by
    push_cast
    ring
  unfold InsidePassband
  simp only [settlesOn_iff_kept_or_moved, ← txAudio_le_rxAudioMax_iff]
  constructor
  · rintro (⟨keeps, low⟩ | ⟨moves, low⟩)
    · refine ⟨_, Or.inl ⟨rfl, keeps⟩, ?_⟩
      rw [aboveDial]
      exact ⟨by exact_mod_cast (by unfold rxAudioMin; omega : rxAudioMin ≤ txAudio draw),
        by exact_mod_cast low⟩
    · exact ⟨_, Or.inr ⟨rfl, moves⟩, (movedCenter_inside moves).mpr low⟩
  · rintro ⟨center, ⟨rfl, keeps⟩ | ⟨rfl, moves⟩, inside⟩
    · rw [aboveDial] at inside
      exact Or.inl ⟨keeps, by exact_mod_cast inside.2⟩
    · exact Or.inr ⟨moves, (movedCenter_inside moves).mp inside⟩

/-- When `ft8` transmits a CQ inside the passband of the receiver. -/
structure CqGoesOut (transmitter : Transmitter) (build : Build) (draw : RandomDraw)
    (plld : Rat) (options : Options) : Prop where
  base : isBandBase options.dialfreq.toNat = true
  encodes : transmitter.encodes
    (requestMessage "CQ".toList options.rcall.chars options.rloc.chars) = true
  inside : InsidePassband build draw plld options.dialfreq.toNat

variable (transmitter draw plld) in
/-- A CQ is transmitted inside the passband only from a band base. -/
theorem cq_transmittedAt_iff (ownWord : IsRequestWord options.rcall.chars)
    (locWord : IsRequestWord options.rloc.chars) :
    (∃ audio : Rat, TransmittedAt transmitter draw plld (cqText options)
        (options.dialfreq.toNat + audio) ∧ rxAudioMin ≤ audio ∧ audio ≤ build.rxAudioMax) ↔
      transmitter.hardwareOpens = true ∧ CqGoesOut transmitter build draw plld options := by
  have cqWord : IsRequestWord "CQ".toList := isRequestWord_of_isCallWord (by decide)
  have least : (rxAudioMin : Rat) = 200 := by norm_num [rxAudioMin]
  have dialNonneg : (0 : Rat) ≤ options.dialfreq.toNat := by positivity
  unfold cqText
  rcases toInt_toInt32 options.dialfreq with ⟨nonneg, sameDial⟩ | ⟨negative, large⟩
  · have transmitted (frequency : Rat) :
        TransmittedAt transmitter draw plld (requestText options.dialfreq.toInt32 "CQ".toList
          options.rcall.chars options.rloc.chars) frequency ↔ _ :=
      transmittedAt_requestText_iff ((nonneg_iff_toInt_nonneg _).mpr nonneg) cqWord ownWord
        locWord frequency
    simp only [transmitted, sameDial]
    constructor
    · rintro ⟨audio, ⟨⟨opens, encodes⟩, -, settles⟩, above, below⟩
      have base : isBandBase options.dialfreq.toNat = true := by
        by_contra noBase
        rw [chosenFreq, if_neg noBase] at settles
        -- Without an audio frequency the center is the dial or lies below it.
        rcases settles.eq_or_lt (by linarith) with same | lower
        · push_cast at same
          linarith
        · push_cast at lower
          linarith
      rw [chosenFreq, if_pos base] at settles
      refine ⟨opens, base, encodes, (insidePassband_iff _ _ _ _).mpr ⟨_, settles, ?_, ?_⟩⟩
      · rwa [add_sub_cancel_left]
      · rwa [add_sub_cancel_left]
    · rintro ⟨opens, base, encodes, inside⟩
      obtain ⟨center, settles, above, below⟩ := (insidePassband_iff _ _ _ _).mp inside
      have positive := chosenFreq_pos draw (lt_of_isBandBase base).1
      refine ⟨center - options.dialfreq.toNat, ⟨⟨opens, encodes⟩, positive.ne', ?_⟩, above, below⟩
      rw [chosenFreq, if_pos base, add_sub_cancel]
      exact settles
  · constructor
    · rintro ⟨audio, transmitted, -⟩
      exact absurd transmitted (not_transmittedAt_of_aborts
        (parseCommandline_of_negativeFreq negative cqWord.1 ownWord.1 locWord.1))
    · rintro ⟨-, goesOut⟩
      have bound := (lt_of_isBandBase goesOut.base).2
      omega

/-- The frequencies of a station are as the convention promises exactly when the
hardware works, its CQ goes out inside the passband, and the reply that it has to
send goes out on the frequency of the peer. -/
theorem inBand_iff (transmitter : Transmitter) (build : Build) (draw : RandomDraw) (plld : Rat)
    (options : Options) (bin : WaterfallBin build) (handler : QsoHandler)
    (decodedAt : handler.currentQSO.freq = bin.freqHz + options.dialfreq.toInt32)
    (peerWord : IsRequestWord handler.currentQSO.src.chars)
    (ownWord : IsRequestWord options.rcall.chars)
    (locWord : IsRequestWord options.rloc.chars) :
    InBand transmitter build draw plld options handler ↔
      transmitter.hardwareOpens = true ∧ CqGoesOut transmitter build draw plld options ∧
        ∀ extra, replyExtra options handler = some extra →
          ReplyGoesOut transmitter plld options handler
            (bin.freqHz + options.dialfreq.toInt32).toInt extra := by
  have reply := reply_transmittedAt_iff transmitter draw plld peerWord ownWord locWord
  rw [← and_assoc, ← cq_transmittedAt_iff transmitter draw plld ownWord locWord, ← decodedAt]
  constructor
  · rintro ⟨cq, replies⟩
    exact ⟨cq, fun extra transmits => ((reply extra transmits).mp (replies extra transmits)).2⟩
  · rintro ⟨cq, goesOut⟩
    have opens := ((cq_transmittedAt_iff transmitter draw plld ownWord locWord).mp cq).1
    exact ⟨cq, fun extra transmits =>
      (reply extra transmits).mpr ⟨opens, goesOut extra transmits⟩⟩

/-! ## Bands of the receiver -/

/-- The names that the receiver's `-f` knows. -/
def receiverBandTable : List (List Char × UInt32) :=
  [("160m".toList, 1840000), ("80m".toList, 3573000), ("60m".toList, 5357000),
    ("40m".toList, 7074000), ("30m".toList, 10136000), ("20m".toList, 14074000),
    ("17m".toList, 18100000), ("15m".toList, 21074000), ("12m".toList, 24915000),
    ("10m".toList, 28074000), ("6m".toList, 50313000), ("4m".toList, 70100000),
    ("2m".toList, 144174000), ("1m25".toList, 222065000), ("70cm".toList, 432065000),
    ("23cm".toList, 1296174000)]

/-- The chain of `strcasecmp` comparisons in `main`; any other argument of `-f` is a
number. -/
def bandDial (optarg : List Char) : Option UInt32 :=
  receiverBandTable.lookup (optarg.map Char.toLower)

/-- The tables of the two programs differ in three bands. -/
theorem isBandBase_of_bandDial {optarg : List Char} {dial : UInt32}
    (named : bandDial optarg = some dial) :
    isBandBase dial.toNat = true ↔
      optarg.map Char.toLower ∉ ["1m25".toList, "70cm".toList, "23cm".toList] := by
  have each : ∀ band ∈ receiverBandTable, isBandBase band.2.toNat = true ↔
      band.1 ∉ ["1m25".toList, "70cm".toList, "23cm".toList] := by
    decide
  obtain ⟨before, after, split, -⟩ := List.lookup_eq_some_iff.mp named
  exact each (optarg.map Char.toLower, dial) (by rw [split]; simp)

/-- On these bands no CQ goes out inside the band. -/
theorem not_inBand_of_bandDial {optarg : List Char}
    (named : bandDial optarg = some options.dialfreq)
    (missing : optarg.map Char.toLower ∈ ["1m25".toList, "70cm".toList, "23cm".toList])
    (ownWord : IsRequestWord options.rcall.chars) (locWord : IsRequestWord options.rloc.chars) :
    ¬ InBand transmitter build draw plld options handler := by
  intro inBand
  have goesOut := ((cq_transmittedAt_iff transmitter draw plld ownWord locWord).mp inBand.cq).2
  exact (isBandBase_of_bandDial named).mp goesOut.base missing

/-- The receiver on one of them. -/
def seventyCentimetres : Options :=
  { sampleStation with dialfreq := 432065000, dialfreq_ne_zero := by decide }

def halfDraw : RandomDraw where
  value := 1 / 2
  nonneg := by norm_num
  lt_one := by norm_num

/-- Its CQ goes out on the dial itself. -/
theorem not_inBand_seventyCentimetres :
    ¬ InBand sampleTransmitter .wide halfDraw 500000000 seventyCentimetres
      (initQsoState true) := by
  have named : bandDial "70cm".toList = some seventyCentimetres.dialfreq := by decide
  exact not_inBand_of_bandDial named (by decide)
    (isRequestWord_of_isCallWord (by decide)) (isRequestWord_of_isCallWord (by decide))

/-- The sample station answers, at 1000 Hz in the wide build. -/
theorem inBand_sampleStation :
    InBand sampleTransmitter .wide halfDraw 750000000 sampleStation
      { initQsoState true with
        currentQSO := sampleCall "RR73".toList, qsoState := .reply73 } := by
  have audio : txAudio halfDraw = 1550 := by
    rw [txAudio_eq, show halfDraw.value * (2500 : Int) = (1250 : Int) by
      norm_num [halfDraw], Int.floor_intCast]
    rfl
  have keeps {center : Rat} (least : 14000000 ≤ center) (most : center ≤ 14100000) :
      KeepsCenter 750000000 center := by
    have shares : SharesInteger center 750000000 53 := by
      refine ⟨by decide, ?_, ?_, ?_⟩
      · norm_num [toneSpacing]
        linarith
      · norm_num [toneSpacing]
        linarith
      · norm_num [toneSpacing]
        linarith
    exact shares.keepsCenter (by decide)
  refine (inBand_iff sampleTransmitter .wide halfDraw 750000000 sampleStation
    ⟨160, 0, by decide, by decide⟩ _ (by decide) (isRequestWord_of_isCallWord (by decide))
    (isRequestWord_of_isCallWord (by decide))
    (isRequestWord_of_isCallWord (by decide))).mpr ⟨rfl, ⟨by decide, rfl, ?_⟩, ?_⟩
  · refine Or.inl ⟨?_, by decide⟩
    have sum : (sampleStation.dialfreq.toNat : Int) + 1550 = 14075550 := by decide
    rw [audio, sum]
    exact keeps (by norm_num) (by norm_num)
  · intro extra transmits
    exact ⟨by decide, rfl, by decide, by decide, keeps (by decide) (by decide)⟩

end RtlsdrFt8d
