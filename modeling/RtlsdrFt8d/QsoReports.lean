import RtlsdrFt8d.QsoMachineSteps

/-!
# Signal reports and RR73

RR73 acknowledges a report exchange: our report went out and the peer answered
with an R-prefixed one.  The handler only looks at its state and at the class
of the received token, which also holds plain reports.  This file states when a
run acknowledges only complete exchanges, and when a report that the peer
repeats after our RR73 leaves the machine where it is.
-/

namespace RtlsdrFt8d

variable {options : Options}

/-- `R`, a sign and two digits. -/
def IsRReport (msg : List Char) : Bool :=
  match msg with
  | ['R', sign, tens, ones] => (sign = '+' || sign = '-') && tens.isDigit && ones.isDigit
  | _ => false

structure QueuesReport (options : Options) (peer : List Char)
    (taken : EventRuns.Step QsoHandler QsoEvent) : Prop where
  before : taken.before.qsoState = .replySig
  after : taken.after.qsoState = .replySig
  queued : ∃ freq snr, taken.after.txQueue =
    taken.before.txQueue ++ [requestText freq peer options.rcall.chars (reportText snr)]

/-- An update in the slot of a QSO that waits with its report. -/
structure OffersReport (taken : EventRuns.Step QsoHandler QsoEvent) : Prop where
  before : taken.before.qsoState = .replySig
  update : ∃ theSlot, taken.event = .update theSlot ∧ RepliesIn taken.before theSlot

def SendsRReport (options : Options) (peer : List Char)
    (taken : EventRuns.Step QsoHandler QsoEvent) : Prop :=
  ∃ qsoMsg, taken.event = .message qsoMsg ∧ qsoMsg.src.chars = peer ∧
    qsoMsg.dest.chars = options.rcall.chars ∧ IsRReport qsoMsg.message.chars = true

theorem updateQsoMachine_of_reports {handler : QsoHandler} {theSlot : Ft8Slot}
    (replies : RepliesIn handler theSlot) (reporting : handler.qsoState = .replySig) :
    updateQsoMachine options theSlot handler =
      { handler with
        txQueue := handler.txQueue ++
          [replyText options handler (reportText handler.currentQSO.snr)]
        txBusy := true } := by
  have transmits : replyExtra options handler =
      some (reportText handler.currentQSO.snr) := by
    simp [replyExtra, reporting]
  have qsoPart : updateQso options theSlot handler =
      { handler with
        txQueue := handler.txQueue ++
          [replyText options handler (reportText handler.currentQSO.snr)]
        txBusy := true } := by
    rw [updateQso_of_active replies.notTimesOut replies.active,
      handleTx_of_replyExtra transmits replies.sameSlot]
    simp [reporting]
  rw [updateQsoMachine_of_not_callsCq (by simp [qsoPart]), qsoPart]

theorem queuesReport_of_offersReport {taken : EventRuns.Step QsoHandler QsoEvent}
    (after : taken.after = qsoStep options taken.before taken.event)
    (offers : OffersReport taken) :
    QueuesReport options taken.before.currentQSO.src.chars taken := by
  obtain ⟨reporting, theSlot, isUpdate, replies⟩ := offers
  have reports : taken.after =
      { taken.before with
        txQueue := taken.before.txQueue ++
          [replyText options taken.before (reportText taken.before.currentQSO.snr)]
        txBusy := true } := by
    rw [after, isUpdate]
    exact updateQsoMachine_of_reports replies reporting
  exact ⟨reporting, by rw [reports]; exact reporting, _, _, by rw [reports]; rfl⟩

theorem offersReport_of_queuesReport {taken : EventRuns.Step QsoHandler QsoEvent}
    {peer : List Char} (after : taken.after = qsoStep options taken.before taken.event)
    (queues : QueuesReport options peer taken) : OffersReport taken := by
  obtain ⟨reporting, stillReporting, freq, snr, queued⟩ := queues
  have grows : taken.after.txQueue ≠ taken.before.txQueue := by
    simp [queued]
  cases event : taken.event with
  | update theSlot =>
      rw [after, event] at stillReporting grows
      refine ⟨reporting, theSlot, event, ?_⟩
      by_contra silent
      have running : ¬ TimesOut taken.before := by
        intro expired
        exact absurd ((qsoState_update_of_timesOut expired).symm.trans stillReporting)
          (by decide)
      obtain ⟨busy, waits⟩ := updateQsoMachine_of_waits options running
        (by simp [reporting]) silent
      exact grows (by rw [qsoStep, waits])
  | tick => exact absurd (by rw [after, event, txQueue_step_of_ne_update (by simp)]) grows
  | adiFile opens =>
      exact absurd (by rw [after, event, txQueue_step_of_ne_update (by simp)]) grows
  | command command =>
      exact absurd (by rw [after, event, txQueue_step_of_ne_update (by simp)]) grows
  | message qsoMsg =>
      exact absurd (by rw [after, event, txQueue_step_of_ne_update (by simp)]) grows

/-! ## RR73 and the report exchange -/

/-- The steps hold a report of ours and, after it, the peer's R-prefixed
report. -/
def ExchangesReports (options : Options) (peer : List Char)
    (taken : List (EventRuns.Step QsoHandler QsoEvent)) : Prop :=
  ∃ report answer, [report, answer].Sublist taken ∧ QueuesReport options peer report ∧
    SendsRReport options peer answer

/-- In a run from program start, `replyRR73` is entered only after a complete
report exchange in the same QSO. -/
def RR73AcknowledgesReport (options : Options) (adiOpens : Bool) (events : List QsoEvent) :
    Prop :=
  ∀ earlier event, earlier ++ [event] <+: events →
    (qsoRun options adiOpens earlier).qsoState ≠ .replyRR73 →
    (qsoRun options adiOpens (earlier ++ [event])).qsoState = .replyRR73 →
      ExchangesReports options
        (qsoRun options adiOpens (earlier ++ [event])).currentQSO.src.chars
        (qsoEpisode options adiOpens (earlier ++ [event]))

/-- A report that `addQso` takes as the answer to ours. -/
structure AnswersReport (options : Options) (handler : QsoHandler) (qsoMsg : PlainMessage) :
    Prop where
  continues : ContinuesQso options handler qsoMsg
  reporting : handler.qsoState = .replySig
  isReport : parseMsg qsoMsg.message.chars = .sigMsg

theorem qsoState_of_answersReport {handler : QsoHandler} {qsoMsg : PlainMessage}
    (answers : AnswersReport options handler qsoMsg) :
    (qsoStep options handler (.message qsoMsg)).qsoState = .replyRR73 := by
  change (dispatch options qsoMsg handler).qsoState = .replyRR73
  rw [dispatch_of_continuesQso answers.continues, qsoState_continueQso]
  simp [answers.isReport, answers.reporting]

/-- RR73 is given for acknowledged reports only, exactly in the runs in which
every report taken as an answer to ours comes after an update that offered ours
and is, or follows, an R-prefixed one. -/
theorem rr73AcknowledgesReport_iff (options : Options) (adiOpens : Bool)
    (events : List QsoEvent) :
    RR73AcknowledgesReport options adiOpens events ↔
      ∀ earlier qsoMsg, earlier ++ [.message qsoMsg] <+: events →
        AnswersReport options (qsoRun options adiOpens earlier) qsoMsg →
          ∃ chance answer,
            [chance, answer].Sublist
              (qsoEpisode options adiOpens (earlier ++ [.message qsoMsg])) ∧
            OffersReport chance ∧ SendsRReport options qsoMsg.src.chars answer := by
  have afterOf {earlier : List QsoEvent} {chance answer : EventRuns.Step QsoHandler QsoEvent}
      (pair : [chance, answer].Sublist (qsoEpisode options adiOpens earlier)) :
      chance.after = qsoStep options chance.before chance.event :=
    EventRuns.after_eq_of_mem_steps
      (EventRuns.mem_of_mem_episode (pair.subset (by simp)))
  constructor
  · intro acknowledged earlier qsoMsg isPrefix answers
    have after : (qsoRun options adiOpens (earlier ++ [.message qsoMsg])).qsoState =
        .replyRR73 := by
      rw [qsoRun_append_singleton]
      exact qsoState_of_answersReport answers
    have samePeer : (qsoRun options adiOpens (earlier ++ [.message qsoMsg])).currentQSO.src =
        (qsoRun options adiOpens earlier).currentQSO.src := by
      rw [qsoRun_append_singleton] at after ⊢
      exact src_step_of_inProgress options _ answers.continues.inProgress (by simp [after])
    obtain ⟨report, answer, pair, queues, sends⟩ :=
      acknowledged earlier _ isPrefix (by simp [answers.reporting]) after
    refine ⟨report, answer, pair, offersReport_of_queuesReport (afterOf pair) queues, ?_⟩
    rwa [samePeer, ← answers.continues.src_eq] at sends
  · intro offered earlier event isPrefix before after
    have entered := after
    rw [qsoRun_append_singleton] at entered
    obtain ⟨qsoMsg, rfl, continued, reporting, isReport⟩ := becomes_replyRR73 before entered
    obtain ⟨chance, answer, pair, offers, sends⟩ :=
      offered earlier qsoMsg isPrefix ⟨continued, reporting, isReport⟩
    have samePeer : (qsoRun options adiOpens (earlier ++ [.message qsoMsg])).currentQSO.src =
        (qsoRun options adiOpens earlier).currentQSO.src := by
      rw [qsoRun_append_singleton]
      exact src_step_of_inProgress options _ continued.inProgress (by simp [entered])
    have inProgress :
        (qsoRun options adiOpens (earlier ++ [.message qsoMsg])).qsoState ≠ .idle := by
      simp [after]
    have chancePeer := src_of_mem_qsoEpisode inProgress chance (pair.subset (by simp))
      (by simp [offers.before])
    have queues := queuesReport_of_offersReport (afterOf pair) offers
    rw [chancePeer] at queues
    refine ⟨chance, answer, pair, queues, ?_⟩
    rwa [samePeer, ← continued.src_eq]

/-- A peer that answers our CQ with a report, does not hear ours and repeats its
own. -/
def peerRepeatsReport : List QsoEvent :=
  [.command (.autoQSO true), .tick, .message (sampleCall "-10".toList), .update .even,
    .tick, .update .odd, .tick, .message (sampleCall "-10".toList), .update .even]

/-- The repeated plain report passes for an acknowledgement. -/
theorem not_rr73AcknowledgesReport_peerRepeatsReport :
    ¬ RR73AcknowledgesReport sampleStation true peerRepeatsReport := by
  intro acknowledged
  have plain : ∀ qsoMsg, QsoEvent.message qsoMsg ∈ peerRepeatsReport →
      IsRReport qsoMsg.message.chars = false := by
    simp only [peerRepeatsReport, List.mem_cons, List.not_mem_nil, reduceCtorEq, false_or,
      or_false, QsoEvent.message.injEq]
    rintro qsoMsg (rfl | rfl) <;> decide
  obtain ⟨report, answer, pair, -, qsoMsg, isMessage, -, -, isRReport⟩ :=
    acknowledged (peerRepeatsReport.take 7) (.message (sampleCall "-10".toList))
      ⟨[.update .even], rfl⟩ (by decide) (by decide)
  have answerMem : answer ∈ qsoSteps sampleStation true
      (peerRepeatsReport.take 7 ++ [.message (sampleCall "-10".toList)]) :=
    EventRuns.mem_of_mem_episode (pair.subset (by simp))
  obtain ⟨earlier, later, split, -, -⟩ := EventRuns.mem_steps_iff.mp answerMem
  have isEvent : QsoEvent.message qsoMsg ∈ peerRepeatsReport := by
    have shorter : QsoEvent.message qsoMsg ∈
        peerRepeatsReport.take 7 ++ [.message (sampleCall "-10".toList)] := by
      rw [split, isMessage]
      simp
    exact List.mem_of_mem_take (i := 8) (by simpa [peerRepeatsReport] using shorter)
  simp [plain qsoMsg isEvent] at isRReport

/-! ## Repeated reports -/

/-- A report of the current peer that reaches us in a QSO that has been at RR73
before. -/
structure RepeatsReport (options : Options) (adiOpens : Bool) (earlier : List QsoEvent)
    (qsoMsg : PlainMessage) : Prop where
  inProgress : (qsoRun options adiOpens earlier).qsoState ≠ .idle
  acknowledged : ∃ taken ∈ qsoEpisode options adiOpens earlier,
    taken.after.qsoState = .replyRR73
  src_eq : qsoMsg.src.chars = (qsoRun options adiOpens earlier).currentQSO.src.chars
  dest_eq : qsoMsg.dest.chars = options.rcall.chars
  isReport : parseMsg qsoMsg.message.chars = .sigMsg

def isFromPeer (options : Options) (peer : List Char) : QsoEvent → Bool
  | .message qsoMsg => qsoMsg.src.chars = peer && qsoMsg.dest.chars = options.rcall.chars
  | _ => false

/-- The steps by which the handler answers the last message of its peer: they
end with the QSO or with the peer's next message. -/
def answerSteps (options : Options) (peer : List Char) (handler : QsoHandler)
    (later : List QsoEvent) : List (EventRuns.Step QsoHandler QsoEvent) :=
  (EventRuns.steps (qsoStep options) handler later).takeWhile fun taken =>
    taken.before.qsoInProgress && !isFromPeer options peer taken.event

/-- In a run from program start, a report repeated in a QSO that has reached
`replyRR73` leaves the machine there, and no report of ours answers it. -/
def StaysAtRR73 (options : Options) (adiOpens : Bool) (events : List QsoEvent) : Prop :=
  ∀ earlier qsoMsg later, events = earlier ++ .message qsoMsg :: later →
    RepeatsReport options adiOpens earlier qsoMsg →
      (qsoRun options adiOpens (earlier ++ [.message qsoMsg])).qsoState = .replyRR73 ∧
      ∀ taken ∈ answerSteps options qsoMsg.src.chars
        (qsoRun options adiOpens (earlier ++ [.message qsoMsg])) later,
        ¬ QueuesReport options qsoMsg.src.chars taken

/-- What is not a message of the peer keeps the QSO as it is or ends it. -/
theorem step_keeps_or_ends_of_not_isFromPeer {handler : QsoHandler} {event : QsoEvent}
    (inProgress : handler.qsoState ≠ .idle)
    (foreign : isFromPeer options handler.currentQSO.src.chars event = false) :
    (qsoStep options handler event).qsoState = .idle ∨
      ((qsoStep options handler event).qsoState = handler.qsoState ∧
        (qsoStep options handler event).currentQSO = handler.currentQSO) := by
  cases event with
  | tick => exact Or.inr ⟨rfl, rfl⟩
  | adiFile opens => exact Or.inr ⟨rfl, rfl⟩
  | command command => cases command <;> exact Or.inr ⟨rfl, rfl⟩
  | update theSlot => exact update_keeps_or_ends options theSlot handler
  | message qsoMsg =>
      have notContinued : ¬ ContinuesQso options handler qsoMsg := by
        intro continued
        simp [isFromPeer, continued.src_eq, continued.dest_eq] at foreign
      have same := dispatch_of_inProgress inProgress notContinued
      exact Or.inr ⟨congrArg QsoHandler.qsoState same, congrArg QsoHandler.currentQSO same⟩

/-- While the handler answers the peer's last message, its state stays what that
message made it. -/
theorem qsoState_of_mem_answerSteps {handler : QsoHandler} {later : List QsoEvent}
    {taken : EventRuns.Step QsoHandler QsoEvent}
    (takenMem : taken ∈ answerSteps options handler.currentQSO.src.chars handler later) :
    taken.before.qsoState = handler.qsoState := by
  induction later generalizing handler with
  | nil => simp [answerSteps] at takenMem
  | cons event later ih =>
      rw [answerSteps, EventRuns.steps, List.takeWhile_cons] at takenMem
      split at takenMem
      case isFalse => simp at takenMem
      case isTrue goesOn =>
        have inProgress : handler.qsoState ≠ .idle := by
          simpa using (Bool.and_eq_true_iff.mp goesOn).1
        have foreign : isFromPeer options handler.currentQSO.src.chars event = false := by
          simpa using (Bool.and_eq_true_iff.mp goesOn).2
        rcases List.mem_cons.mp takenMem with rfl | inLater
        · rfl
        · rcases step_keeps_or_ends_of_not_isFromPeer inProgress foreign with
            ended | ⟨state, qso⟩
          · cases later with
            | nil => simp [EventRuns.steps] at inLater
            | cons next later =>
                simp [EventRuns.steps, QsoHandler.qsoInProgress, ended] at inLater
          · rw [← state]
            exact ih (by rwa [answerSteps, qso])

/-- A report finds the machine at RR73 and is not taken, or finds it at our report
and is. -/
def LeadsToRR73 (options : Options) (handler : QsoHandler) (qsoMsg : PlainMessage) : Prop :=
  (handler.qsoState = .replyRR73 ∧ ¬ ContinuesQso options handler qsoMsg) ∨
    (handler.qsoState = .replySig ∧ ContinuesQso options handler qsoMsg)

/-- `addQso` looks at the state for our report only: from every other one, RR73
and 73 included, a report that it takes leads to our report. -/
theorem qsoState_message_eq_replyRR73_iff {handler : QsoHandler} {qsoMsg : PlainMessage}
    (inProgress : handler.qsoState ≠ .idle)
    (isReport : parseMsg qsoMsg.message.chars = .sigMsg) :
    (qsoStep options handler (.message qsoMsg)).qsoState = .replyRR73 ↔
      LeadsToRR73 options handler qsoMsg := by
  change (dispatch options qsoMsg handler).qsoState = .replyRR73 ↔ _
  unfold LeadsToRR73
  by_cases continued : ContinuesQso options handler qsoMsg
  · rw [dispatch_of_continuesQso continued, qsoState_continueQso]
    simp [isReport, continued]
  · rw [dispatch_of_inProgress inProgress continued]
    simp [continued]

/-- Reports repeated in a QSO that has been at RR73 do no harm exactly in the runs
in which each of them leads to RR73. -/
theorem staysAtRR73_iff (options : Options) (adiOpens : Bool) (events : List QsoEvent) :
    StaysAtRR73 options adiOpens events ↔
      ∀ earlier qsoMsg later, events = earlier ++ .message qsoMsg :: later →
        RepeatsReport options adiOpens earlier qsoMsg →
          LeadsToRR73 options (qsoRun options adiOpens earlier) qsoMsg := by
  constructor
  · intro stays earlier qsoMsg later split repeats
    have stayed := (stays earlier qsoMsg later split repeats).1
    rw [qsoRun_append_singleton] at stayed
    exact (qsoState_message_eq_replyRR73_iff repeats.inProgress repeats.isReport).mp stayed
  · intro leads earlier qsoMsg later split repeats
    have stayed : (qsoRun options adiOpens (earlier ++ [.message qsoMsg])).qsoState =
        .replyRR73 := by
      rw [qsoRun_append_singleton]
      exact (qsoState_message_eq_replyRR73_iff repeats.inProgress repeats.isReport).mpr
        (leads earlier qsoMsg later split repeats)
    refine ⟨stayed, fun taken takenMem queues => ?_⟩
    have samePeer : (qsoRun options adiOpens (earlier ++ [.message qsoMsg])).currentQSO.src =
        (qsoRun options adiOpens earlier).currentQSO.src := by
      rw [qsoRun_append_singleton] at stayed ⊢
      exact src_step_of_inProgress options _ repeats.inProgress (by simp [stayed])
    rw [repeats.src_eq, ← samePeer] at takenMem
    have state := qsoState_of_mem_answerSteps takenMem
    rw [queues.before, stayed] at state
    exact absurd state (by decide)

/-- A QSO in which the peer does not hear our RR73 and sends its R-prefixed
report again. -/
def peerRepeatsRReport : List QsoEvent :=
  [.command (.autoQSO true), .tick, .message (sampleCall "JO65".toList), .update .even,
    .tick, .update .odd, .tick, .message (sampleCall "R-10".toList), .update .even,
    .tick, .update .odd, .tick, .message (sampleCall "R-10".toList), .update .even]

/-- The repeated report takes the machine back from RR73 to its report. -/
theorem not_staysAtRR73_peerRepeatsRReport :
    ¬ StaysAtRR73 sampleStation true peerRepeatsRReport := by
  intro stays
  have stayed := (stays (peerRepeatsRReport.take 12) (sampleCall "R-10".toList)
    [.update .even] rfl
    ⟨by decide, by decide +kernel, by decide, by decide, by decide⟩).1
  exact absurd stayed (by decide)

end RtlsdrFt8d
