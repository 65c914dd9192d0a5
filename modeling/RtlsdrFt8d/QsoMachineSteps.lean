import RtlsdrFt8d.QsoMachine

/-!
# What one event does to the QSO handler

Every invariant of the handler is derived from the statements of this file:
which messages are ignored, which start a QSO and which continue it, and what
one call of `updateQsoMachine` queues, logs and leaves behind.
-/

namespace RtlsdrFt8d

variable {options : Options} {handler : QsoHandler} {theSlot : Ft8Slot}
  {qsoMsg : PlainMessage}

/-! ## Messages -/

/-- A message that `addQso` takes as the next one of the current QSO. -/
structure ContinuesQso (options : Options) (handler : QsoHandler)
    (qsoMsg : PlainMessage) : Prop where
  dest_ne_cq : qsoMsg.dest.chars ≠ "CQ".toList
  dest_eq : qsoMsg.dest.chars = options.rcall.chars
  autoQSO : handler.autoQSO = true
  slot_eq : qsoMsg.ft8slot = handler.activeSlot
  inProgress : handler.qsoState ≠ .idle
  src_eq : qsoMsg.src.chars = handler.currentQSO.src.chars

instance : Decidable (ContinuesQso options handler qsoMsg) :=
  decidable_of_iff
    (qsoMsg.dest.chars ≠ "CQ".toList ∧ qsoMsg.dest.chars = options.rcall.chars ∧
      handler.autoQSO = true ∧ qsoMsg.ft8slot = handler.activeSlot ∧
      handler.qsoState ≠ .idle ∧ qsoMsg.src.chars = handler.currentQSO.src.chars)
    ⟨fun ⟨destNe, dest, auto, slot, progress, src⟩ =>
        ⟨destNe, dest, auto, slot, progress, src⟩,
      fun continues => ⟨continues.dest_ne_cq, continues.dest_eq, continues.autoQSO,
        continues.slot_eq, continues.inProgress, continues.src_eq⟩⟩

/-- A call that `addQso` takes up in the idle state. -/
structure StartsQso (options : Options) (handler : QsoHandler)
    (qsoMsg : PlainMessage) : Prop where
  dest_ne_cq : qsoMsg.dest.chars ≠ "CQ".toList
  dest_eq : qsoMsg.dest.chars = options.rcall.chars
  autoQSO : handler.autoQSO = true
  slot_eq : qsoMsg.ft8slot = handler.activeSlot
  isIdle : handler.qsoState = .idle
  unknown : handler.peers.checkPeer qsoMsg.src.chars = false

/-- A CQ that `addCQ` answers. -/
structure AnswersCq (handler : QsoHandler) (qsoMsg : PlainMessage) : Prop where
  dest_eq : qsoMsg.dest.chars = "CQ".toList
  autoCqReply : handler.autoCqReply = true
  slot_eq : qsoMsg.ft8slot = handler.activeSlot
  isIdle : handler.qsoState = .idle
  unknown : handler.peers.checkPeer qsoMsg.src.chars = false

theorem dispatch_of_continuesQso (continues : ContinuesQso options handler qsoMsg) :
    dispatch options qsoMsg handler = continueQso qsoMsg handler := by
  obtain ⟨destNe, dest, auto, slot, progress, src⟩ := continues
  rw [dispatch, if_neg destNe, if_pos dest]
  simp [addQso, auto, slot, progress, src]

theorem dispatch_of_startsQso (starts : StartsQso options handler qsoMsg) :
    dispatch options qsoMsg handler = startQso qsoMsg handler := by
  obtain ⟨destNe, dest, auto, slot, isIdle, unknown⟩ := starts
  rw [dispatch, if_neg destNe, if_pos dest]
  simp [addQso, auto, slot, isIdle, unknown]

theorem dispatch_of_answersCq (answers : AnswersCq handler qsoMsg) :
    dispatch options qsoMsg handler =
      { handler with
        ft8time := handler.ft8tick + maxQsoLifetime
        currentQSO :=
          { qsoMsg with dest := .empty 13, message := .snprintf 40 "CQ".toList }
        qsoState := .replyLoc } := by
  obtain ⟨dest, auto, slot, isIdle, unknown⟩ := answers
  rw [dispatch, if_pos dest]
  simp [addCQ, auto, slot, isIdle, unknown]

/-- A message that is neither the next one of the current QSO nor the start of
one leaves the handler alone. -/
theorem dispatch_cases (options : Options) (handler : QsoHandler) (qsoMsg : PlainMessage) :
    ContinuesQso options handler qsoMsg ∨ StartsQso options handler qsoMsg ∨
      AnswersCq handler qsoMsg ∨ dispatch options qsoMsg handler = handler := by
  by_cases toCq : qsoMsg.dest.chars = "CQ".toList
  · by_cases answered : AnswersCq handler qsoMsg
    · exact Or.inr (Or.inr (Or.inl answered))
    · right; right; right
      rw [dispatch, if_pos toCq, addCQ]
      split_ifs with noReply busy otherSlot known <;> try rfl
      exact absurd ⟨toCq, by simpa using noReply, by simpa using otherSlot,
        by simpa using busy, by simpa using known⟩ answered
  · by_cases toUs : qsoMsg.dest.chars = options.rcall.chars
    · by_cases continued : ContinuesQso options handler qsoMsg
      · exact Or.inl continued
      · by_cases started : StartsQso options handler qsoMsg
        · exact Or.inr (Or.inl started)
        · right; right; right
          rw [dispatch, if_neg toCq, if_pos toUs, addQso]
          split_ifs with noAuto otherSlot isIdle known otherPeer <;> try rfl
          · exact absurd ⟨toCq, toUs, by simpa using noAuto, by simpa using otherSlot,
              isIdle, by simpa using known⟩ started
          · exact absurd ⟨toCq, toUs, by simpa using noAuto, by simpa using otherSlot,
              isIdle, by simpa using otherPeer⟩ continued
    · right; right; right
      rw [dispatch, if_neg toCq, if_neg toUs]

/-- A message from someone else does not touch a QSO in progress. -/
theorem dispatch_of_inProgress (inProgress : handler.qsoState ≠ .idle)
    (notContinued : ¬ ContinuesQso options handler qsoMsg) :
    dispatch options qsoMsg handler = handler := by
  rcases dispatch_cases options handler qsoMsg with continued | started | answered | same
  · exact absurd continued notContinued
  · exact absurd started.isIdle inProgress
  · exact absurd answered.isIdle inProgress
  · exact same

theorem qsoState_continueQso (qsoMsg : PlainMessage) (handler : QsoHandler) :
    (continueQso qsoMsg handler).qsoState =
      match parseMsg qsoMsg.message.chars with
      | .locMsg => .replySig
      | .sigMsg => if handler.qsoState = .replySig then .replyRR73 else .replySig
      | .rr73Msg => .reply73
      | .s73Msg => .idle
      | .cqMsg => .idle := by
  cases parsed : parseMsg qsoMsg.message.chars <;>
    simp [continueQso, parsed, addPeer, logToAdi, resetQsoState]

/-- The state after a call in the idle state: a report follows, unless the
peer says good-bye. -/
theorem qsoState_startQso (isIdle : handler.qsoState = .idle) (qsoMsg : PlainMessage) :
    (startQso qsoMsg handler).qsoState = .replySig ∨
      (startQso qsoMsg handler).qsoState = .idle := by
  cases parsed : parseMsg qsoMsg.message.chars <;> simp [startQso, parsed, isIdle]

/-- A message neither transmits nor moves the time, whatever it does to the QSO. -/
theorem dispatch_keeps (options : Options) (qsoMsg : PlainMessage) (handler : QsoHandler) :
    (dispatch options qsoMsg handler).txQueue = handler.txQueue ∧
      (dispatch options qsoMsg handler).ft8tick = handler.ft8tick ∧
      (dispatch options qsoMsg handler).queryRepeat = handler.queryRepeat := by
  rcases dispatch_cases options handler qsoMsg with continued | started | answered | same
  · rw [dispatch_of_continuesQso continued]
    cases parsed : parseMsg qsoMsg.message.chars <;>
      simp [continueQso, parsed, addPeer, logToAdi, resetQsoState]
  · rw [dispatch_of_startsQso started]
    cases parsed : parseMsg qsoMsg.message.chars <;> simp [startQso, parsed]
  · rw [dispatch_of_answersCq answered]
    exact ⟨rfl, rfl, rfl⟩
  · rw [same]
    exact ⟨rfl, rfl, rfl⟩

theorem txQueue_dispatch (options : Options) (qsoMsg : PlainMessage) (handler : QsoHandler) :
    (dispatch options qsoMsg handler).txQueue = handler.txQueue :=
  (dispatch_keeps options qsoMsg handler).1

/-! ## Updates -/

/-- `updateQsoMachine` finds the timer expired. -/
def TimesOut (handler : QsoHandler) : Prop :=
  handler.ft8time ≤ handler.ft8tick

instance : Decidable (TimesOut handler) :=
  inferInstanceAs (Decidable (_ ≤ _))

/-- `updateQsoMachine` reaches the `switch` of `handleTx`. -/
structure RepliesIn (handler : QsoHandler) (theSlot : Ft8Slot) : Prop where
  notTimesOut : ¬ TimesOut handler
  active : theSlot = handler.activeSlot
  sameSlot : handler.currentQSO.ft8slot = theSlot

instance : Decidable (RepliesIn handler theSlot) :=
  decidable_of_iff
    (¬ TimesOut handler ∧ theSlot = handler.activeSlot ∧ handler.currentQSO.ft8slot = theSlot)
    ⟨fun ⟨running, active, same⟩ => ⟨running, active, same⟩,
      fun replies => ⟨replies.notTimesOut, replies.active, replies.sameSlot⟩⟩

def LogsOnTimeout (handler : QsoHandler) : Prop :=
  handler.qsoState ≠ .replyLoc ∧ handler.qsoState ≠ .replySig ∧ handler.qsoState ≠ .idle

instance : Decidable (LogsOnTimeout handler) :=
  inferInstanceAs (Decidable (_ ∧ _))

structure CallsCq (handler : QsoHandler) (theSlot : Ft8Slot) : Prop where
  autoCq : handler.autoCq = true
  active : theSlot = handler.activeSlot
  rested : handler.queryRepeat ≤ handler.ft8tick

theorem queryCQ_of_callsCq (calls : CallsCq handler theSlot) :
    queryCQ options theSlot handler =
      { handler with
        txQueue := handler.txQueue ++ [cqText options]
        queryRepeat := handler.ft8tick + queryCqDelay } := by
  obtain ⟨auto, active, rested⟩ := calls
  simp [queryCQ, auto, active, rested, queueTx]

theorem queryCQ_of_not_callsCq (silent : ¬ CallsCq handler theSlot) :
    queryCQ options theSlot handler = handler := by
  unfold queryCQ
  split_ifs with noAuto otherSlot rested <;> try rfl
  exact absurd ⟨by simpa using noAuto, by simpa using otherSlot, rested⟩ silent

/-- After the QSO part, `updateQsoMachine` calls CQ or does nothing more. -/
theorem updateQsoMachine_of_callsCq
    (free : (updateQso options theSlot handler).txBusy = false)
    (calls : CallsCq (updateQso options theSlot handler) theSlot) :
    updateQsoMachine options theSlot handler =
      { updateQso options theSlot handler with
        txQueue := (updateQso options theSlot handler).txQueue ++ [cqText options]
        queryRepeat := (updateQso options theSlot handler).ft8tick + queryCqDelay } := by
  have active := calls.active
  simp only [updateQsoMachine, free, Bool.false_eq_true, not_false_eq_true, if_true,
    queryCQ_of_callsCq calls]
  rw [if_pos active]

theorem updateQsoMachine_of_not_callsCq
    (silent : ¬ ((updateQso options theSlot handler).txBusy = false ∧
      CallsCq (updateQso options theSlot handler) theSlot)) :
    updateQsoMachine options theSlot handler = updateQso options theSlot handler := by
  by_cases free : (updateQso options theSlot handler).txBusy = false
  · have noCall : ¬ CallsCq (updateQso options theSlot handler) theSlot :=
      fun calls => silent ⟨free, calls⟩
    simp only [updateQsoMachine, queryCQ_of_not_callsCq noCall, ite_self]
  · simp [updateQsoMachine, free]

/-- The QSO is not affected by the choice of a CQ. -/
theorem updateQsoMachine_cases (options : Options) (theSlot : Ft8Slot)
    (handler : QsoHandler) :
    updateQsoMachine options theSlot handler = updateQso options theSlot handler ∨
      updateQsoMachine options theSlot handler =
        { updateQso options theSlot handler with
          txQueue := (updateQso options theSlot handler).txQueue ++ [cqText options]
          queryRepeat := (updateQso options theSlot handler).ft8tick + queryCqDelay } := by
  by_cases calls : (updateQso options theSlot handler).txBusy = false ∧
      CallsCq (updateQso options theSlot handler) theSlot
  · exact Or.inr (updateQsoMachine_of_callsCq calls.1 calls.2)
  · exact Or.inl (updateQsoMachine_of_not_callsCq calls)

theorem updateQso_of_timesOut (options : Options) (theSlot : Ft8Slot) (expired : TimesOut handler) :
    updateQso options theSlot handler =
      { resetQsoState
          (if LogsOnTimeout handler then logToAdi handler else handler) with
        txBusy := false } := by
  rw [updateQso, if_pos (show handler.ft8time ≤ handler.ft8tick from expired)]
  rfl

theorem updateQso_of_listens (options : Options) (running : ¬ TimesOut handler)
    (listens : theSlot ≠ handler.activeSlot) :
    updateQso options theSlot handler = { handler with txBusy := false } := by
  rw [updateQso, if_neg (show ¬ handler.ft8time ≤ handler.ft8tick from running),
    if_neg listens]

theorem updateQso_of_active (running : ¬ TimesOut handler)
    (active : theSlot = handler.activeSlot) :
    updateQso options theSlot handler =
      { (handleTx options theSlot handler).2 with
        txBusy := (handleTx options theSlot handler).1 } := by
  rw [updateQso, if_neg (show ¬ handler.ft8time ≤ handler.ft8tick from running),
    if_pos active]

theorem handleTx_of_idle (isIdle : handler.qsoState = .idle) :
    handleTx options theSlot handler = (false, handler) := by
  simp [handleTx, isIdle]

theorem handleTx_of_otherSlot (inProgress : handler.qsoState ≠ .idle)
    (otherSlot : handler.currentQSO.ft8slot ≠ theSlot) :
    handleTx options theSlot handler = (true, handler) := by
  simp [handleTx, inProgress, otherSlot]

theorem handleTx_of_replyExtra {extra : List Char}
    (transmits : replyExtra options handler = some extra)
    (sameSlot : handler.currentQSO.ft8slot = theSlot) :
    handleTx options theSlot handler =
      (decide (handler.qsoState ≠ .reply73),
        { handler with
          txQueue := handler.txQueue ++ [replyText options handler extra]
          qsoState := if handler.qsoState = .reply73 then .idle else handler.qsoState }) := by
  have inProgress : handler.qsoState ≠ .idle := by
    intro isIdle
    simp [replyExtra, isIdle] at transmits
  by_cases lastReply : handler.qsoState = .reply73 <;>
    simp [handleTx, inProgress, sameSlot, transmits, queueTx, replyText, lastReply]

/-- In every state of a QSO but the unused one `handleTx` has something to say,
and in no other. -/
theorem exists_replyExtra_iff (options : Options) (handler : QsoHandler) :
    (∃ extra, replyExtra options handler = some extra) ↔
      handler.qsoState ≠ .idle ∧ handler.qsoState ≠ .cqIng := by
  unfold replyExtra
  cases handler.qsoState <;> simp

/-- Everything the QSO part of `updateQsoMachine` can do: close the QSO, send
its reply, or only note whether it is busy.  The fourth case is the state that
never occurs. -/
theorem updateQso_cases (options : Options) (theSlot : Ft8Slot) (handler : QsoHandler) :
    (TimesOut handler ∧
      updateQso options theSlot handler =
        { resetQsoState
            (if LogsOnTimeout handler then logToAdi handler else handler) with
          txBusy := false }) ∨
    (RepliesIn handler theSlot ∧ ∃ extra, replyExtra options handler = some extra ∧
      updateQso options theSlot handler =
        { handler with
          txQueue := handler.txQueue ++ [replyText options handler extra]
          qsoState := if handler.qsoState = .reply73 then .idle else handler.qsoState
          txBusy := decide (handler.qsoState ≠ .reply73) }) ∨
    (¬ TimesOut handler ∧ (¬ RepliesIn handler theSlot ∨ handler.qsoState = .idle) ∧
      ∃ busy, updateQso options theSlot handler = { handler with txBusy := busy }) ∨
    (handler.qsoState = .cqIng ∧
      updateQso options theSlot handler =
        { handler with qsoState := .idle, txBusy := false }) := by
  by_cases expired : TimesOut handler
  · exact Or.inl ⟨expired, updateQso_of_timesOut options theSlot expired⟩
  right
  by_cases active : theSlot = handler.activeSlot
  · rw [updateQso_of_active expired active]
    by_cases isIdle : handler.qsoState = .idle
    · rw [handleTx_of_idle isIdle]
      exact Or.inr (Or.inl ⟨expired, Or.inr isIdle, false, rfl⟩)
    · by_cases sameSlot : handler.currentQSO.ft8slot = theSlot
      · cases transmits : replyExtra options handler with
        | some extra =>
            rw [handleTx_of_replyExtra transmits sameSlot]
            exact Or.inl ⟨⟨expired, active, sameSlot⟩, extra, rfl, rfl⟩
        | none =>
            have unused : handler.qsoState = .cqIng := by
              by_contra notCqIng
              obtain ⟨extra, some⟩ := (exists_replyExtra_iff options handler).mpr ⟨isIdle, notCqIng⟩
              simp [some] at transmits
            refine Or.inr (Or.inr ⟨unused, ?_⟩)
            simp [handleTx, isIdle, sameSlot, transmits]
      · rw [handleTx_of_otherSlot isIdle sameSlot]
        exact Or.inr (Or.inl ⟨expired, Or.inl fun replies => sameSlot replies.sameSlot,
          true, rfl⟩)
  · rw [updateQso_of_listens options expired active]
    exact Or.inr (Or.inl ⟨expired, Or.inl fun replies => active replies.active, false, rfl⟩)

/-- The QSO part leaves the active slot and the counters alone. -/
theorem updateQso_keeps (options : Options) (theSlot : Ft8Slot) (handler : QsoHandler) :
    (updateQso options theSlot handler).activeSlot = handler.activeSlot ∧
      (updateQso options theSlot handler).queryRepeat = handler.queryRepeat ∧
      (updateQso options theSlot handler).ft8tick = handler.ft8tick := by
  rcases updateQso_cases options theSlot handler with
    ⟨-, closed⟩ | ⟨-, extra, -, replied⟩ | ⟨-, -, busy, quiet⟩ | ⟨-, unused⟩
  · rw [closed]
    split_ifs <;> exact ⟨rfl, rfl, rfl⟩
  · rw [replied]
    exact ⟨rfl, rfl, rfl⟩
  · rw [quiet]
    exact ⟨rfl, rfl, rfl⟩
  · rw [unused]
    exact ⟨rfl, rfl, rfl⟩

/-- Outside the slot of a running QSO an update queues nothing, not even a
CQ. -/
theorem updateQsoMachine_of_waits (options : Options) (running : ¬ TimesOut handler)
    (inProgress : handler.qsoState ≠ .idle) (silent : ¬ RepliesIn handler theSlot) :
    ∃ busy, updateQsoMachine options theSlot handler = { handler with txBusy := busy } := by
  by_cases active : theSlot = handler.activeSlot
  · have otherSlot : handler.currentQSO.ft8slot ≠ theSlot :=
      fun sameSlot => silent ⟨running, active, sameSlot⟩
    have qsoPart : updateQso options theSlot handler = { handler with txBusy := true } := by
      rw [updateQso_of_active running active, handleTx_of_otherSlot inProgress otherSlot]
    exact ⟨true, by rw [updateQsoMachine_of_not_callsCq (by simp [qsoPart]), qsoPart]⟩
  · have qsoPart := updateQso_of_listens options running active
    refine ⟨false, ?_⟩
    rw [updateQsoMachine_of_not_callsCq, qsoPart]
    rintro ⟨-, calls⟩
    rw [qsoPart] at calls
    exact active calls.active

theorem qsoState_update_of_timesOut (expired : TimesOut handler) :
    (updateQsoMachine options theSlot handler).qsoState = .idle := by
  have qsoPart := updateQso_of_timesOut options theSlot expired
  rcases updateQsoMachine_cases options theSlot handler with same | queued
  · simp [same, qsoPart, resetQsoState]
  · simp [queued, qsoPart, resetQsoState]

theorem update_keeps_or_ends (options : Options) (theSlot : Ft8Slot) (handler : QsoHandler) :
    (updateQsoMachine options theSlot handler).qsoState = .idle ∨
      ((updateQsoMachine options theSlot handler).qsoState = handler.qsoState ∧
        (updateQsoMachine options theSlot handler).currentQSO = handler.currentQSO) := by
  have early : (updateQso options theSlot handler).qsoState = .idle ∨
      ((updateQso options theSlot handler).qsoState = handler.qsoState ∧
        (updateQso options theSlot handler).currentQSO = handler.currentQSO) := by
    rcases updateQso_cases options theSlot handler with
      ⟨-, closed⟩ | ⟨-, extra, -, replied⟩ | ⟨-, -, busy, quiet⟩ | ⟨-, unused⟩
    · exact Or.inl (by simp [closed, resetQsoState])
    · by_cases lastReply : handler.qsoState = .reply73
      · exact Or.inl (by simp [replied, lastReply])
      · exact Or.inr ⟨by simp [replied, lastReply], by simp [replied]⟩
    · exact Or.inr ⟨by simp [quiet], by simp [quiet]⟩
    · exact Or.inl (by simp [unused])
  rcases updateQsoMachine_cases options theSlot handler with same | queued
  · rwa [same]
  · rwa [queued]

/-! ## Invariants -/

/-- No assignment ever stores `cqIng`. -/
theorem qsoState_ne_cqIng_step (notCqIng : handler.qsoState ≠ .cqIng) (event : QsoEvent) :
    (qsoStep options handler event).qsoState ≠ .cqIng := by
  cases event with
  | tick => exact notCqIng
  | adiFile opens => exact notCqIng
  | command command => cases command <;> exact notCqIng
  | message qsoMsg =>
      change (dispatch options qsoMsg handler).qsoState ≠ .cqIng
      rcases dispatch_cases options handler qsoMsg with continued | started | answered | same
      · rw [dispatch_of_continuesQso continued, qsoState_continueQso]
        split
        · simp
        · split_ifs <;> simp
        · simp
        · simp
        · simp
      · rw [dispatch_of_startsQso started]
        rcases qsoState_startQso started.isIdle qsoMsg with state | state <;> simp [state]
      · rw [dispatch_of_answersCq answered]
        simp
      · rwa [same]
  | update theSlot =>
      change (updateQsoMachine options theSlot handler).qsoState ≠ .cqIng
      rcases update_keeps_or_ends options theSlot handler with ended | ⟨kept, -⟩
      · simp [ended]
      · rwa [kept]

theorem qsoState_qsoRun_ne_cqIng (options : Options) (adiOpens : Bool)
    (events : List QsoEvent) : (qsoRun options adiOpens events).qsoState ≠ .cqIng :=
  EventRuns.run_induction (fun state : QsoHandler => state.qsoState ≠ .cqIng)
    (by simp [initQsoState]) (fun _ event notCqIng => qsoState_ne_cqIng_step notCqIng event)
    events

theorem src_step_of_inProgress (options : Options) (event : QsoEvent)
    (inProgress : handler.qsoState ≠ .idle)
    (stillInProgress : (qsoStep options handler event).qsoState ≠ .idle) :
    (qsoStep options handler event).currentQSO.src = handler.currentQSO.src := by
  cases event with
  | tick => rfl
  | adiFile opens => rfl
  | command command => cases command <;> rfl
  | message qsoMsg =>
      change (dispatch options qsoMsg handler).qsoState ≠ .idle at stillInProgress
      change (dispatch options qsoMsg handler).currentQSO.src = handler.currentQSO.src
      by_cases continued : ContinuesQso options handler qsoMsg
      · rw [dispatch_of_continuesQso continued] at stillInProgress ⊢
        cases parsed : parseMsg qsoMsg.message.chars <;>
          simp_all [continueQso, addPeer, logToAdi, resetQsoState]
      · rw [dispatch_of_inProgress inProgress continued]
  | update theSlot =>
      rcases update_keeps_or_ends options theSlot handler with ended | ⟨-, kept⟩
      · exact absurd ended stillInProgress
      · exact congrArg PlainMessage.src kept

theorem txQueue_step_of_ne_update {event : QsoEvent}
    (notUpdate : ∀ theSlot, event ≠ .update theSlot) :
    (qsoStep options handler event).txQueue = handler.txQueue := by
  cases event with
  | tick => rfl
  | adiFile opens => rfl
  | command command => cases command <;> rfl
  | message qsoMsg => exact txQueue_dispatch options qsoMsg handler
  | update theSlot => exact absurd rfl (notUpdate theSlot)

/-- The only way into `replyRR73` is a report of the peer in `replySig`. -/
theorem becomes_replyRR73 {event : QsoEvent} (before : handler.qsoState ≠ .replyRR73)
    (after : (qsoStep options handler event).qsoState = .replyRR73) :
    ∃ qsoMsg, event = .message qsoMsg ∧ ContinuesQso options handler qsoMsg ∧
      handler.qsoState = .replySig ∧ parseMsg qsoMsg.message.chars = .sigMsg := by
  cases event with
  | tick => exact absurd after before
  | adiFile opens => exact absurd after before
  | command command => cases command <;> exact absurd after before
  | update theSlot =>
      rcases update_keeps_or_ends options theSlot handler with ended | ⟨kept, -⟩
      · exact absurd (ended.symm.trans after) (by decide)
      · exact absurd (kept.symm.trans after) before
  | message qsoMsg =>
      change (dispatch options qsoMsg handler).qsoState = .replyRR73 at after
      rcases dispatch_cases options handler qsoMsg with continued | started | answered | same
      · rw [dispatch_of_continuesQso continued, qsoState_continueQso] at after
        cases parsed : parseMsg qsoMsg.message.chars with
        | sigMsg =>
            have reporting : handler.qsoState = .replySig := by
              by_contra otherState
              simp [parsed, otherState] at after
            exact ⟨qsoMsg, rfl, continued, reporting, parsed⟩
        | locMsg => simp [parsed] at after
        | rr73Msg => simp [parsed] at after
        | s73Msg => simp [parsed] at after
        | cqMsg => simp [parsed] at after
      · rw [dispatch_of_startsQso started] at after
        rcases qsoState_startQso started.isIdle qsoMsg with state | state <;>
          simp [state] at after
      · rw [dispatch_of_answersCq answered] at after
        simp at after
      · rw [same] at after
        exact absurd after before

/-- All steps of the QSO in progress are about one peer. -/
theorem src_of_mem_qsoEpisode {adiOpens : Bool} {events : List QsoEvent}
    (inProgress : (qsoRun options adiOpens events).qsoState ≠ .idle) :
    ∀ taken ∈ qsoEpisode options adiOpens events, taken.before.qsoState ≠ .idle →
      taken.before.currentQSO.src = (qsoRun options adiOpens events).currentQSO.src := by
  refine EventRuns.episode_induction (qsoStep options) QsoHandler.qsoInProgress
    (fun episode state => ∀ taken ∈ episode, taken.before.qsoState ≠ .idle →
      taken.before.currentQSO.src = state.currentQSO.src)
    ?_ ?_ rfl events ((qsoInProgress_iff _).mpr inProgress)
  · intro taken _ wasIdle _ first firstMem firstActive
    rw [List.mem_singleton.mp firstMem] at firstActive
    simp [firstActive] at wasIdle
  · intro earlier taken after wasActive isActive ih one oneMem oneActive
    have kept : taken.after.currentQSO.src = taken.before.currentQSO.src := by
      rw [after] at isActive ⊢
      exact src_step_of_inProgress options taken.event
        (by simpa using wasActive) (by simpa using isActive)
    rcases List.mem_append.mp oneMem with early | last
    · rw [kept]
      exact ih one early oneActive
    · rw [List.mem_singleton.mp last, kept]

end RtlsdrFt8d
