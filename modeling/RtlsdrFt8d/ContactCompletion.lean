import RtlsdrFt8d.QsoBookkeeping
import RtlsdrFt8d.QsoSlotTransmissions
import RtlsdrFt8d.TwoStations

/-!
# How contacts end

A station logs the other one when one of the two confirms, and an open contact
that nothing disturbs any more is logged within four slots, by one of the two
only.  Which one it is depends on what was lost before.
-/

namespace RtlsdrFt8d

open ContactProtocol

variable {options : Ft8Slot → Options} {stations : TwoStations} {who : Ft8Slot}

theorem inContact_of_phaseOf
    (inContact : phaseOf options stations.station who ≠ .away) :
    (stations.station who).qsoState ≠ .idle ∧
      (stations.station who).currentQSO.src.chars = (options who.other).rcall.chars ∧
        (stations.station who).qsoState.phase = phaseOf options stations.station who := by
  have isPeer : (stations.station who).currentQSO.src.chars =
      (options who.other).rcall.chars := by
    by_contra isOther
    exact inContact (phaseAbout_of_src_ne isOther)
  have phase : (stations.station who).qsoState.phase = phaseOf options stations.station who :=
    (phaseAbout_of_src_eq isPeer).symm
  refine ⟨fun isIdle => inContact ?_, isPeer, phase⟩
  rw [← phase, isIdle]
  rfl

/-! ## Logs -/

/-- A log changes by an event at its own station. -/
theorem logsQso_of_update {other : Ft8Slot} {qsoEvent : QsoEvent}
    (logs : (Function.update stations.station other
        (qsoStep (options other) (stations.station other) qsoEvent) who).adiCalls ≠
      (stations.station who).adiCalls) :
    who = other ∧ LogsQso (options who) (stations.station who) qsoEvent := by
  have same : who = other := by
    by_contra different
    exact logs (congrArg QsoHandler.adiCalls (Function.update_of_ne different ..))
  subst same
  rw [Function.update_self] at logs
  refine ⟨rfl, ?_⟩
  by_contra silent
  exact logs (keepsLog_of_not_logsQso silent).adiCalls_eq

/-- The event at a station that changes its log. -/
theorem logsQso_of_ne {event : ContactEvent}
    (logs : ((contactStep options stations event).station who).adiCalls ≠
      (stations.station who).adiCalls) :
    (∃ qsoEvent, event = .act who qsoEvent ∧
        LogsQso (options who) (stations.station who) qsoEvent) ∨
      (∃ request qsoMsg, event = .hear request qsoMsg ∧ who = stations.slot ∧
        LogsQso (options who) (stations.station who) (.message qsoMsg)) ∨
      (event = .slotEnds ∧
        LogsQso (options who) (stations.station who) (.update stations.slot)) := by
  cases event with
  | act other qsoEvent =>
      obtain ⟨rfl, logsQso⟩ := logsQso_of_update logs
      exact Or.inl ⟨qsoEvent, rfl, logsQso⟩
  | hear request qsoMsg =>
      obtain ⟨isListener, logsQso⟩ := logsQso_of_update logs
      exact Or.inr (Or.inl ⟨request, qsoMsg, rfl, isListener, logsQso⟩)
  | slotEnds =>
      refine Or.inr (Or.inr ⟨rfl, ?_⟩)
      by_contra silent
      exact logs (keepsLog_of_not_logsQso silent).adiCalls_eq

/-- The listener logs the talker when it hears the RR73: it sends its report, or
good-bye already. -/
theorem confirmed_of_hears (sound : Sound options stations)
    (consistent : (contactOf options stations).Consistent) {request : List Char}
    {qsoMsg : PlainMessage} (enabled : ContactEnabled options stations (.hear request qsoMsg))
    (isPeer : (stations.station stations.slot).currentQSO.src.chars =
      (options stations.slot.other).rcall.chars)
    (logsQso : LogsQso (options stations.slot) (stations.station stations.slot)
      (.message qsoMsg)) :
    (stations.station stations.slot).qsoState = .reply73 ∨
      ((stations.station stations.slot).qsoState = .replySig ∧
        (stations.station stations.slot.other).qsoState = .replyRR73 ∧
          (stations.station stations.slot.other).currentQSO.src.chars =
            (options stations.slot).rcall.chars) := by
  obtain ⟨qsoMsg, ⟨rfl⟩, continued, isRR73⟩ := logsQso.resolve_right
    fun ⟨⟨_, isUpdate⟩, _⟩ => by cases isUpdate
  have rogers : qsoMsg.signal = .rogers := by
    rw [PlainMessage.signal, if_neg continued.dest_ne_cq, isRR73]
    rfl
  have isSent := (sound.heard request enabled.1 qsoMsg enabled.2.1).2 (Or.inr continued.dest_eq)
  rw [rogers] at isSent
  have listener : (stations.station stations.slot).qsoState.phase =
      (contactOf options stations).listener :=
    (phaseAbout_of_src_eq isPeer).symm
  have listening := phase_ne_away continued.inProgress (sound.keeps stations.slot).notCqIng
  obtain ⟨confirms, reports | closes⟩ :=
    consistent.confirms_of_rogers isSent (listener ▸ listening)
  · have talking : phaseOf options stations.station stations.slot.other ≠ .away := fun away =>
      absurd (confirms.symm.trans away) (by decide)
    obtain ⟨-, otherPeer, phase⟩ := inContact_of_phaseOf talking
    rw [stations.slot.other_other] at otherPeer
    refine Or.inr ⟨?_, ?_, otherPeer⟩
    · exact (phase_eq_iff (sound.keeps _).notCqIng).2.2.1.mp (listener.trans reports)
    · exact (phase_eq_iff (sound.keeps _).notCqIng).2.2.2.1.mp (phase.trans confirms)
  · exact Or.inl ((phase_eq_iff (sound.keeps _).notCqIng).2.2.2.2.mp (listener.trans closes))

/-- A station enters the other one in its log only if it confirms the contact itself
or is about to say good-bye, or if it sends its report and hears that the other one
confirms. -/
theorem confirmed_of_logged (facing : Facing options) (apart : StartsApart stations)
    (earlier : List ContactEvent) (event : ContactEvent) (who : Ft8Slot) :
    let before := contactRun options stations earlier
    Happens options stations (earlier ++ [event]) →
      (before.station who).currentQSO.src.chars = (options who.other).rcall.chars →
        ((contactStep options before event).station who).adiCalls ≠
            (before.station who).adiCalls →
          (before.station who).qsoState = .replyRR73 ∨
            (before.station who).qsoState = .reply73 ∨
              ((before.station who).qsoState = .replySig ∧
                (before.station who.other).qsoState = .replyRR73 ∧
                  (before.station who.other).currentQSO.src.chars =
                    (options who).rcall.chars) := by
  intro before happens isPeer logs
  obtain ⟨early, enabled⟩ := EventRuns.admissible_append_singleton_iff.mp happens
  obtain ⟨sound, reached⟩ := contactRun_simulates facing apart early
  rcases logsQso_of_ne logs with ⟨qsoEvent, rfl, logsQso⟩ | ⟨request, qsoMsg, rfl, isListener,
    logsQso⟩ | ⟨-, logsQso⟩
  · exfalso
    rcases logsQso with ⟨qsoMsg, rfl, continued, -⟩ | ⟨⟨theSlot, rfl⟩, -⟩
    · exact enabled.2.1 (continued.src_eq.trans isPeer)
    · exact enabled
  · subst isListener
    exact Or.inr (confirmed_of_hears sound (Contact.consistent_of_reachable reached) enabled
      isPeer logsQso)
  · rcases logsQso with ⟨qsoMsg, isMessage, -⟩ | ⟨-, -, notLoc, notSig, notIdle⟩
    · cases isMessage
    · have notCqIng := (sound.keeps who).notCqIng
      cases state : (before.station who).qsoState with
      | replyRR73 => exact Or.inl rfl
      | reply73 => exact Or.inr (Or.inl rfl)
      | idle => exact absurd state notIdle
      | replyLoc => exact absurd state notLoc
      | replySig => exact absurd state notSig
      | cqIng => exact absurd state notCqIng

/-- The rest of the contact that the sample stations opened. -/
def closedContact : List ContactEvent :=
  heardSlot .odd "FT8Tx 14075000 F1ABC SA0PRF +07".toList "F1ABC".toList "+07".toList ++
  heardSlot .even "FT8Tx 14075000 SA0PRF F1ABC +07".toList "SA0PRF".toList "+07".toList ++
  heardSlot .odd "FT8Tx 14075000 F1ABC SA0PRF RR73".toList "F1ABC".toList "RR73".toList

theorem confirmed_of_logged_closedContact :
    let before := contactRun facingOptions quietStations
      (openedContact ++ .slotEnds :: closedContact.dropLast.dropLast)
    (before.station .odd).qsoState = .replyRR73 ∨
      (before.station .odd).qsoState = .reply73 ∨
        ((before.station .odd).qsoState = .replySig ∧
          (before.station .even).qsoState = .replyRR73 ∧
            (before.station .even).currentQSO.src.chars = (facingOptions .odd).rcall.chars) :=
  confirmed_of_logged facing_facingOptions startsApart_quietStations
    (openedContact ++ .slotEnds :: closedContact.dropLast.dropLast)
    (.hear "FT8Tx 14075000 F1ABC SA0PRF RR73".toList
      (heardMessage .odd "F1ABC".toList "RR73".toList)) .odd
    (by decide +kernel) (by decide +kernel) (by decide +kernel)

/-! ## Undisturbed slots -/

/-- Every request is heard in its slot, no timer runs out, and the operators leave
the automatic answers on. -/
def Undisturbed (stations : TwoStations) : ContactEvent → Prop
  | .act _ (.command (.autoQSO on)) => on = true
  | .slotEnds => stations.air = [] ∧ ∀ who, ¬ TimesOut (stations.station who)
  | _ => True

instance (stations : TwoStations) (event : ContactEvent) :
    Decidable (Undisturbed stations event) := by
  unfold Undisturbed
  split <;> infer_instance

/-- Two stations in a contact, and what they have logged. -/
structure Underway (options : Ft8Slot → Options) (stations : TwoStations) (contact : Contact)
    (logs : Ft8Slot → List PlainMessage) : Prop where
  sound : Sound options stations
  autoQSO : ∀ who, (stations.station who).autoQSO = true
  contact_eq : contactOf options stations = contact
  logs_eq : ∀ who, (stations.station who).adiCalls = logs who

/-- The reply of the talker is on the air, and nothing else. -/
def ReplyOnAir (options : Ft8Slot → Options) (stations : TwoStations) : Prop :=
  ∃ request, stations.air = [request] ∧ ∀ qsoMsg, Conveys request qsoMsg →
    qsoMsg.src.chars = (options stations.slot.other).rcall.chars ∧
      qsoMsg.dest.chars = (options stations.slot).rcall.chars

variable {contact : Contact} {logs : Ft8Slot → List PlainMessage} {qsoMsg : PlainMessage}

/-- What else happens at two stations in contact leaves the contact alone. -/
theorem Underway.act (underway : Underway options stations contact logs)
    (inContact : ∀ who, phaseOf options stations.station who ≠ .away) {event : QsoEvent}
    (enabled : ContactEnabled options stations (.act who event))
    (undisturbed : Undisturbed stations (.act who event)) :
    Underway options (contactStep options stations (.act who event)) contact logs := by
  obtain ⟨sound, autoQSO, contact_eq, logs_eq⟩ := underway
  obtain ⟨soundAfter, sameContact⟩ := act_simulates sound enabled
  have kept : (qsoStep (options who) (stations.station who) event).autoQSO = true ∧
      (qsoStep (options who) (stations.station who) event).adiCalls = logs who := by
    cases event with
    | tick => exact ⟨autoQSO who, logs_eq who⟩
    | adiFile opens => exact ⟨autoQSO who, logs_eq who⟩
    | update theSlot => exact enabled.elim
    | command command =>
        cases command with
        | slot value => exact enabled.elim
        | autoCQ on => exact ⟨autoQSO who, logs_eq who⟩
        | autoReply on => exact ⟨autoQSO who, logs_eq who⟩
        | autoQSO on => exact ⟨undisturbed, logs_eq who⟩
    | message qsoMsg =>
        obtain ⟨inProgress, isPeer, -⟩ := inContact_of_phaseOf (inContact who)
        have ignored : dispatch (options who) qsoMsg (stations.station who) =
            stations.station who :=
          dispatch_of_inProgress inProgress fun continued =>
            enabled.2.1 (continued.src_eq.trans isPeer)
        rw [qsoStep, ignored]
        exact ⟨autoQSO who, logs_eq who⟩
  refine ⟨soundAfter, ?_, sameContact.trans contact_eq, ?_⟩
  · exact (Function.forall_update_iff _ fun _ (handler : QsoHandler) => handler.autoQSO = true).mpr
      ⟨kept.1, fun other _ => autoQSO other⟩
  · exact (Function.forall_update_iff _
      fun other (handler : QsoHandler) => handler.adiCalls = logs other).mpr
      ⟨kept.2, fun other _ => logs_eq other⟩

/-- What a station has logged once it heard a signal that closes the contact, or
another one. -/
def LogsAfter (closes : Prop) (peer : List Char) (before after : List PlainMessage) : Prop :=
  (closes ∧ ∃ record, after = before ++ [record] ∧ record.src.chars = peer) ∨
    (¬ closes ∧ after = before)

theorem after_eq_closes_iff {phase : Phase} (notClosed : phase ≠ .closes) (signal : Signal) :
    phase.after signal = .closes ↔ signal = .rogers := by
  cases signal <;> cases phase <;> first | decide | exact absurd rfl notClosed

theorem autoQSO_dispatch (station : Options) (qsoMsg : PlainMessage) (handler : QsoHandler) :
    (dispatch station qsoMsg handler).autoQSO = handler.autoQSO := by
  rcases dispatch_cases station handler qsoMsg with continued | started | answered | same
  · rw [dispatch_of_continuesQso continued]
    cases parsed : parseMsg qsoMsg.message.chars <;>
      simp only [continueQso, parsed, addPeer, logToAdi, resetQsoState]
  · rw [dispatch_of_startsQso started]
    cases parsed : parseMsg qsoMsg.message.chars <;> simp only [startQso, parsed]
  · rw [dispatch_of_answersCq answered]
  · rw [same]

/-- A listener in contact logs the talker if it hears RR73. -/
theorem logsAfter_dispatch {station : Options} {handler : QsoHandler} {phase : Phase}
    (continued : ContinuesQso station handler qsoMsg) (notClosed : phase ≠ .closes) :
    LogsAfter (phase.after qsoMsg.signal = .closes) handler.currentQSO.src.chars
      handler.adiCalls (dispatch station qsoMsg handler).adiCalls := by
  rw [LogsAfter, after_eq_closes_iff notClosed, PlainMessage.signal,
    if_neg continued.dest_ne_cq]
  by_cases isRR73 : parseMsg qsoMsg.message.chars = .rr73Msg
  · obtain ⟨record, sameSrc, logged, -⟩ := logsOnce_of_handlesRR73 ⟨qsoMsg, rfl, continued, isRR73⟩
    exact Or.inl ⟨by rw [isRR73]; rfl, record, logged, congrArg CString.chars sameSrc⟩
  · refine Or.inr ⟨fun isRogers => isRR73 ?_, ?_⟩
    · cases parsed : parseMsg qsoMsg.message.chars <;> rw [parsed] at isRogers <;>
        first | rfl | cases isRogers
    · refine (keepsLog_dispatch qsoMsg ?_).adiCalls_eq
      rintro ⟨_, ⟨rfl⟩, -, handled⟩
      exact isRR73 handled

/-- The reply that the listener hears brings it to its next phase, and makes it log
the talker if that one confirms. -/
theorem Underway.hear (facing : Facing options)
    (underway : Underway options stations contact logs) (isOpen : contact.Open)
    {request : List Char} (onAir : ∀ qsoMsg, Conveys request qsoMsg →
      qsoMsg.src.chars = (options stations.slot.other).rcall.chars ∧
        qsoMsg.dest.chars = (options stations.slot).rcall.chars)
    (enabled : ContactEnabled options stations (.hear request qsoMsg)) :
    ∃ signal ∈ contact.talker.sends, ∃ logged,
      LogsAfter (contact.listener.after signal = .closes)
          (options stations.slot.other).rcall.chars (logs stations.slot) logged ∧
        Underway options (contactStep options stations (.hear request qsoMsg))
          ⟨contact.talker, contact.listener.after signal⟩
          (Function.update logs stations.slot logged) := by
  obtain ⟨sound, autoQSO, rfl, logs_eq⟩ := underway
  obtain ⟨isSent, conveys, fromSlot⟩ := enabled
  obtain ⟨fromPeer, forUs⟩ := onAir qsoMsg conveys
  obtain ⟨inProgress, isPeer, phase⟩ := inContact_of_phaseOf isOpen.listening
  let listener := stations.station stations.slot
  have continued : ContinuesQso (options stations.slot) listener qsoMsg :=
    { dest_ne_cq := forUs ▸ facing.call_ne_cq stations.slot
      dest_eq := forUs
      autoQSO := autoQSO stations.slot
      slot_eq := fromSlot.trans (sound.keeps stations.slot).active.symm
      inProgress := inProgress
      src_eq := fromPeer.trans isPeer.symm }
  have soundAfter := (hear_simulates facing sound ⟨isSent, conveys, fromSlot⟩).1
  have logged := logsAfter_dispatch continued isOpen.notClosed
  rw [isPeer, logs_eq] at logged
  refine ⟨qsoMsg.signal, (sound.heard request isSent qsoMsg conveys).2 (Or.inr forUs), _, logged,
    soundAfter, ?_, ?_, ?_⟩
  · refine (Function.forall_update_iff _ fun _ (handler : QsoHandler) =>
      handler.autoQSO = true).mpr ⟨?_, fun other _ => autoQSO other⟩
    exact (autoQSO_dispatch _ qsoMsg listener).trans (autoQSO stations.slot)
  · rw [contactOf_hear, dispatch_of_continuesQso continued, phaseAbout_continueQso isPeer, phase,
      PlainMessage.signal, if_neg continued.dest_ne_cq]
    rfl
  · exact (Function.forall_update_iff _ fun other (handler : QsoHandler) =>
      handler.adiCalls = Function.update logs stations.slot _ other).mpr
      ⟨by rw [Function.update_self]; rfl,
        fun other ne => (logs_eq other).trans (Function.update_of_ne ne ..).symm⟩

/-! ## The end of an undisturbed slot -/

theorem autoQSO_updateQsoMachine (station : Options) (theSlot : Ft8Slot)
    (handler : QsoHandler) :
    (updateQsoMachine station theSlot handler).autoQSO = handler.autoQSO := by
  have qsoPart : (updateQso station theSlot handler).autoQSO = handler.autoQSO := by
    rcases updateQso_cases station theSlot handler with
      ⟨-, closed⟩ | ⟨-, extra, -, replied⟩ | ⟨-, -, busy, quiet⟩ | ⟨-, unused⟩
    · rw [closed]
      split_ifs <;> rfl
    · rw [replied]
    · rw [quiet]
    · rw [unused]
  rcases updateQsoMachine_cases station theSlot handler with same | queued
  · rw [same, qsoPart]
  · rw [queued, qsoPart]

theorem repliesIn_of_running {handler : QsoHandler} {theSlot : Ft8Slot}
    (keeps : KeepsSlot theSlot handler) (running : ¬ TimesOut handler)
    (inProgress : handler.qsoState ≠ .idle) : RepliesIn handler theSlot where
  notTimesOut := running
  active := keeps.active.symm
  sameSlot := (keeps.fromSlot inProgress).1

theorem qsoState_update_of_lastReply {handler : QsoHandler} {theSlot : Ft8Slot}
    (station : Options) (replies : RepliesIn handler theSlot)
    (lastReply : handler.qsoState = .reply73) :
    (updateQsoMachine station theSlot handler).qsoState = .idle := by
  have qsoPart := updateQso_of_replies replies (replyExtra_of_reply73 station lastReply)
  rw [if_pos lastReply] at qsoPart
  rcases updateQsoMachine_cases station theSlot handler with same | queued
  · rw [same, qsoPart]
  · rw [queued, qsoPart]

/-- A QSO that goes on in the active slot replies and does nothing else. -/
theorem updateQsoMachine_of_repliesIn {station : Options} {handler : QsoHandler}
    {theSlot : Ft8Slot} (replies : RepliesIn handler theSlot) {extra : List Char}
    (transmits : replyExtra station handler = some extra)
    (goesOn : handler.qsoState ≠ .reply73) :
    updateQsoMachine station theSlot handler =
      { handler with
        txQueue := handler.txQueue ++ [replyText station handler extra]
        txBusy := true } := by
  have qsoPart := updateQso_of_replies replies transmits
  rw [if_neg goesOn, decide_eq_true goesOn] at qsoPart
  rw [updateQsoMachine_of_not_callsCq (by simp [qsoPart]), qsoPart]

/-- A station that goes on with its contact after it listened transmits its reply
and nothing else. -/
theorem replyOnAir_slotEnds (facing : Facing options) (sound : Sound options stations)
    (goesOn : (contactOf options (contactStep options stations .slotEnds)).talker ≠ .away) :
    ReplyOnAir options (contactStep options stations .slotEnds) := by
  let handler := stations.station stations.slot
  have keeps : KeepsSlot stations.slot handler := sound.keeps stations.slot
  rw [contactOf_slotEnds] at goesOn
  obtain ⟨inProgress, isPeer, -⟩ :=
    @inContact_of_phaseOf _ (contactStep options stations .slotEnds) _ goesOn
  change (updateQsoMachine (options stations.slot) stations.slot handler).qsoState ≠ .idle
    at inProgress
  change (updateQsoMachine (options stations.slot) stations.slot handler).currentQSO.src.chars = _
    at isPeer
  rcases update_keeps_or_ends (options stations.slot) stations.slot handler with
    ended | ⟨sameState, sameQso⟩
  · exact absurd ended inProgress
  rw [sameState] at inProgress
  rw [sameQso] at isPeer
  have running : ¬ TimesOut handler := fun expired =>
    inProgress (sameState.symm.trans (qsoState_update_of_timesOut expired))
  have replies := repliesIn_of_running keeps running inProgress
  have notLast : handler.qsoState ≠ .reply73 := fun lastReply =>
    inProgress (sameState.symm.trans (qsoState_update_of_lastReply _ replies lastReply))
  obtain ⟨extra, transmits⟩ := (exists_replyExtra_iff (options stations.slot) handler).mpr
    ⟨inProgress, keeps.notCqIng⟩
  refine ⟨replyText (options stations.slot) handler extra, ?_, fun qsoMsg conveys => ?_⟩
  · change (updateQsoMachine _ _ handler).txQueue.drop handler.txQueue.length = _
    rw [updateQsoMachine_of_repliesIn replies transmits notLast, List.drop_left]
  · obtain ⟨extraWord, -⟩ := signal_of_replyExtra (facing.locatorWord stations.slot)
      (facing.isLocator stations.slot) transmits
    obtain ⟨toPeer, fromUs, -⟩ := conveys.words (keeps.fromSlot inProgress).2
      (isWord_of_isCallWord (facing.callWord stations.slot)) extraWord
    refine ⟨?_, toPeer.trans isPeer⟩
    change _ = (options stations.slot.other.other).rcall.chars
    rw [stations.slot.other_other]
    exact fromUs

theorem adiCalls_updated (running : ¬ TimesOut (stations.station who)) :
    (updated options stations who).adiCalls = (stations.station who).adiCalls := by
  refine (keepsLog_of_not_logsQso ?_).adiCalls_eq
  rintro (⟨_, ⟨⟩, -⟩ | ⟨-, expired, -⟩)
  exact running expired

/-- A contact that goes on when a slot ends changes its direction. -/
theorem Underway.slotEnds (facing : Facing options)
    (underway : Underway options stations contact logs) (talking : contact.talker ≠ .away)
    (listening : contact.listener ≠ .away) (goesOn : contact.listener ≠ .closes)
    (running : ∀ who, ¬ TimesOut (stations.station who)) :
    Underway options (contactStep options stations .slotEnds)
        ⟨contact.listener, contact.talker⟩ logs ∧
      ReplyOnAir options (contactStep options stations .slotEnds) := by
  obtain ⟨sound, autoQSO, rfl, logs_eq⟩ := underway
  obtain ⟨inProgress, isPeer, phase⟩ := inContact_of_phaseOf listening
  obtain ⟨waits, -, -⟩ := inContact_of_phaseOf talking
  have replies := repliesIn_of_running (sound.keeps stations.slot) (running _) inProgress
  obtain ⟨extra, transmits⟩ :=
    (exists_replyExtra_iff (options stations.slot) (stations.station stations.slot)).mpr
      ⟨inProgress, (sound.keeps _).notCqIng⟩
  have notLast : (stations.station stations.slot).qsoState ≠ .reply73 := fun lastReply =>
    goesOn (phase.symm.trans (congrArg QsoState.phase lastReply))
  have speaks := updateQsoMachine_of_repliesIn replies transmits notLast
  have silent : ¬ RepliesIn (stations.station stations.slot.other) stations.slot := fun replies =>
    stations.slot.other_ne (replies.active.trans (sound.keeps _).active).symm
  obtain ⟨busy, listens⟩ := updateQsoMachine_of_waits (options stations.slot.other)
    (running _) waits silent
  have contact_eq : contactOf options (contactStep options stations .slotEnds) =
      ⟨(contactOf options stations).listener, (contactOf options stations).talker⟩ := by
    rw [contactOf_slotEnds]
    refine congrArg₂ Contact.mk ?_ ?_
    · exact (congrArg (QsoHandler.phaseAbout · _) speaks).trans rfl
    · exact (congrArg (QsoHandler.phaseAbout · _) listens).trans rfl
  refine ⟨⟨(slotEnds_simulates facing sound).1, fun who => ?_, contact_eq, fun who =>
    (adiCalls_updated (running who)).trans (logs_eq who)⟩, ?_⟩
  · exact (autoQSO_updateQsoMachine _ _ _).trans (autoQSO who)
  · exact replyOnAir_slotEnds facing sound (contact_eq ▸ listening)

/-- A station that has taken the RR73 says good-bye and is idle. -/
theorem Underway.idle_of_closes (underway : Underway options stations contact logs)
    (closes : contact.listener = .closes)
    (running : ∀ who, ¬ TimesOut (stations.station who)) :
    (updated options stations stations.slot).qsoState = .idle ∧
      ∀ who, (updated options stations who).adiCalls = logs who := by
  obtain ⟨sound, -, rfl, logs_eq⟩ := underway
  have listening : phaseOf options stations.station stations.slot ≠ .away := fun away =>
    absurd (closes.symm.trans away) (by decide)
  obtain ⟨inProgress, -, phase⟩ := inContact_of_phaseOf listening
  have replies := repliesIn_of_running (sound.keeps stations.slot) (running _) inProgress
  refine ⟨qsoState_update_of_lastReply _ replies ?_, fun who =>
    (adiCalls_updated (running who)).trans (logs_eq who)⟩
  exact (phase_eq_iff (sound.keeps _).notCqIng).2.2.2.2.mp (phase.trans closes)

/-! ## Undisturbed slots -/

/-- The events can happen, and nothing disturbs the contact. -/
def HappensUndisturbed (options : Ft8Slot → Options) (stations : TwoStations)
    (events : List ContactEvent) : Prop :=
  EventRuns.Admissible
    (fun stations event => ContactEnabled options stations event ∧ Undisturbed stations event)
    (contactStep options) stations events

instance (stations : TwoStations) (events : List ContactEvent) :
    Decidable (HappensUndisturbed options stations events) :=
  EventRuns.decidableAdmissible _ _ _ _

/-- A contact within a slot: the reply of the talker is on the air, or the listener
has heard it. -/
structure InSlot (options : Ft8Slot → Options) (slot : Ft8Slot) (contact : Contact)
    (logs : Ft8Slot → List PlainMessage) (stations : TwoStations) : Prop where
  slot_eq : stations.slot = slot
  outcome : (Underway options stations contact logs ∧ ReplyOnAir options stations) ∨
    (stations.air = [] ∧ ∃ signal ∈ contact.talker.sends, ∃ logged,
      LogsAfter (contact.listener.after signal = .closes) (options slot.other).rcall.chars
          (logs slot) logged ∧
        Underway options stations ⟨contact.talker, contact.listener.after signal⟩
          (Function.update logs slot logged))

theorem Ft8Slot.eq_or_eq_other (slot who : Ft8Slot) : who = slot ∨ who = slot.other := by
  cases slot <;> cases who <;> decide

theorem Underway.inContact (underway : Underway options stations contact logs)
    (talking : contact.talker ≠ .away) (listening : contact.listener ≠ .away) (who : Ft8Slot) :
    phaseOf options stations.station who ≠ .away := by
  obtain ⟨-, -, rfl, -⟩ := underway
  rcases stations.slot.eq_or_eq_other who with rfl | rfl
  · exact listening
  · exact talking

theorem after_ne_away_of_open (isOpen : contact.Open) {signal : Signal}
    (isSent : signal ∈ contact.talker.sends) : contact.listener.after signal ≠ .away := by
  rcases isOpen.closer isSent with ⟨closes, -⟩ | ⟨next, -⟩
  · rw [closes]
    decide
  · exact next.talking

theorem InSlot.step (facing : Facing options) (isOpen : contact.Open) {slot : Ft8Slot}
    (inSlot : InSlot options slot contact logs stations) {event : ContactEvent}
    (notEnd : event ≠ .slotEnds) (enabled : ContactEnabled options stations event)
    (undisturbed : Undisturbed stations event) :
    InSlot options slot contact logs (contactStep options stations event) := by
  obtain ⟨rfl, ⟨underway, onAir⟩ | ⟨heard, signal, isSent, logged, logsAfter, underway⟩⟩ := inSlot
  · cases event with
    | slotEnds => exact absurd rfl notEnd
    | act who event =>
        have inContact := underway.inContact isOpen.talking isOpen.listening
        exact ⟨rfl, Or.inl ⟨underway.act inContact enabled undisturbed, onAir⟩⟩
    | hear request qsoMsg =>
        obtain ⟨reply, air, onAir⟩ := onAir
        have isReply : request = reply := List.mem_singleton.mp (air ▸ enabled.1)
        refine ⟨rfl, Or.inr ⟨?_, underway.hear facing isOpen (isReply ▸ onAir) enabled⟩⟩
        change stations.air.erase request = []
        rw [air, isReply, List.erase_cons_head]
  · cases event with
    | slotEnds => exact absurd rfl notEnd
    | act who event =>
        have inContact := underway.inContact isOpen.talking (after_ne_away_of_open isOpen isSent)
        exact ⟨rfl, Or.inr ⟨heard, signal, isSent, logged, logsAfter,
          underway.act inContact enabled undisturbed⟩⟩
    | hear request qsoMsg =>
        have nothing := enabled.1
        rw [heard] at nothing
        cases nothing

theorem InSlot.run (facing : Facing options) (isOpen : contact.Open) {slot : Ft8Slot}
    (inSlot : InSlot options slot contact logs stations) {events : List ContactEvent}
    (noEnd : .slotEnds ∉ events) (happens : HappensUndisturbed options stations events) :
    InSlot options slot contact logs (contactRun options stations events) := by
  induction events generalizing stations with
  | nil => exact inSlot
  | cons event events ih =>
      obtain ⟨⟨enabled, undisturbed⟩, rest⟩ := happens
      have notEnd := (List.ne_of_not_mem_cons noEnd).symm
      exact ih (inSlot.step facing isOpen notEnd enabled undisturbed)
        (List.not_mem_of_not_mem_cons noEnd) rest

/-- One station has logged the other one once and is idle, and the other one has
logged nothing. -/
structure ClosedBy (options : Ft8Slot → Options) (logs : Ft8Slot → List PlainMessage)
    (who : Ft8Slot) (stations : TwoStations) : Prop where
  isIdle : (stations.station who).qsoState = .idle
  logged : ∃ record, (stations.station who).adiCalls = logs who ++ [record] ∧
    record.src.chars = (options who.other).rcall.chars
  otherLog : (stations.station who.other).adiCalls = logs who.other

/-- A slot in which the reply was heard ends with the contact closed or going on in
the other direction. -/
theorem InSlot.slotEnds (facing : Facing options) (isOpen : contact.Open) {slot : Ft8Slot}
    (inSlot : InSlot options slot contact logs stations)
    (undisturbed : Undisturbed stations .slotEnds) :
    (contact.slotsLeft = 0 ∧
        ClosedBy options logs slot (contactStep options stations .slotEnds)) ∨
      ∃ next : Contact, next.Open ∧ next.slotsLeft + 1 = contact.slotsLeft ∧
        Underway options (contactStep options stations .slotEnds) next logs ∧
          ReplyOnAir options (contactStep options stations .slotEnds) := by
  obtain ⟨silent, running⟩ := undisturbed
  obtain ⟨rfl, ⟨-, reply, air, -⟩ | ⟨-, signal, isSent, logged, logsAfter, underway⟩⟩ := inSlot
  · rw [silent] at air
    cases air
  · rcases isOpen.closer isSent with ⟨closes, none⟩ | ⟨next, fewer⟩
    · obtain ⟨isIdle, logs_eq⟩ := underway.idle_of_closes closes running
      obtain ⟨-, record, rfl, fromPeer⟩ := logsAfter.resolve_right fun other => other.1 closes
      refine Or.inl ⟨none, isIdle, ⟨record, ?_, fromPeer⟩, ?_⟩
      · exact (logs_eq _).trans (Function.update_self ..)
      · exact (logs_eq _).trans (Function.update_of_ne stations.slot.other_ne ..)
    · have notClosed : contact.listener.after signal ≠ .closes := next.consistent.talker_ne_closes
      obtain ⟨-, rfl⟩ := logsAfter.resolve_left fun closing => notClosed closing.1
      rw [Function.update_eq_self] at underway
      exact Or.inr ⟨_, next, fewer,
        underway.slotEnds facing isOpen.talking next.talking notClosed running⟩

/-- An open contact is closed after as many undisturbed slots as it needs. -/
theorem closedBy_of_open (facing : Facing options) (isOpen : contact.Open)
    (underway : Underway options stations contact logs) (onAir : ReplyOnAir options stations)
    {later : List ContactEvent} (happens : HappensUndisturbed options stations later)
    (enough : contact.slotsLeft < later.count .slotEnds) :
    ∃ slots, slots <+: later ∧ slots.count .slotEnds = contact.slotsLeft + 1 ∧
      ∃ who, ClosedBy options logs who (contactRun options stations slots) := by
  induction left : contact.slotsLeft using Nat.strong_induction_on
    generalizing stations contact later with
  | _ count ih =>
      have someEnd : .slotEnds ∈ later := List.count_pos_iff.mp (Nat.zero_lt_of_lt enough)
      obtain ⟨first, rest, rfl, noEnd⟩ := List.eq_append_cons_of_mem someEnd
      obtain ⟨firstHappens, ⟨-, undisturbed⟩, restHappens⟩ :=
        EventRuns.admissible_append_iff.mp happens
      have noneEarlier : first.count .slotEnds = 0 := List.count_eq_zero.mpr noEnd
      rw [List.count_append, noneEarlier, List.count_cons_self] at enough
      have inSlot : InSlot options stations.slot contact logs (contactRun options stations first) :=
        InSlot.run facing isOpen ⟨rfl, Or.inl ⟨underway, onAir⟩⟩ noEnd firstHappens
      rcases inSlot.slotEnds facing isOpen undisturbed with
        ⟨none, closed⟩ | ⟨next, nextOpen, fewer, nextUnderway, nextOnAir⟩
      · refine ⟨first ++ [.slotEnds], ?_, ?_, stations.slot, ?_⟩
        · exact (List.prefix_append_right_inj first).mpr (List.prefix_append [_] rest)
        · rw [List.count_append, noneEarlier, ← left, none, List.count_singleton_self]
        · rw [contactRun, EventRuns.run_append]
          exact closed
      · obtain ⟨slots, isPrefix, slotCount, who, closed⟩ :=
          ih next.slotsLeft (by omega) nextOpen nextUnderway nextOnAir restHappens (by omega) rfl
        refine ⟨first ++ .slotEnds :: slots, ?_, ?_, who, ?_⟩
        · exact (List.prefix_append_right_inj first).mpr ((List.prefix_cons_inj _).mpr isPrefix)
        · rw [List.count_append, noneEarlier, List.count_cons_self, slotCount]
          omega
        · rw [contactRun, EventRuns.run_append]
          exact closed

/-- Whatever was lost before, two stations that are in a QSO with each other complete
it in at most four slots once nothing is lost any more and no timer runs out: one of
them logs the other one, exactly once, and is idle, and the other one has logged
nothing. -/
theorem contact_completes (facing : Facing options) (apart : StartsApart stations)
    (earlier later : List ContactEvent) :
    let now := contactRun options stations (earlier ++ [.slotEnds])
    Happens options stations (earlier ++ [.slotEnds]) → InContact options now →
      (∀ who, (now.station who).autoQSO = true) → HappensUndisturbed options now later →
        (contactOf options now).slotsLeft < later.count .slotEnds →
          ∃ slots, slots <+: later ∧ slots.count .slotEnds ≤ 4 ∧
            ∃ who, ClosedBy options (fun who => (now.station who).adiCalls) who
              (contactRun options now slots) := by
  intro now happened inContact autoQSO undisturbed enough
  obtain ⟨earlierHappened, -⟩ := EventRuns.admissible_append_singleton_iff.mp happened
  obtain ⟨soundBefore, reachedBefore⟩ := contactRun_simulates facing apart earlierHappened
  obtain ⟨sound, reached⟩ := contactRun_simulates facing apart happened
  have isNow : now = contactStep options (contactRun options stations earlier) .slotEnds :=
    EventRuns.run_append
  have inPhase (who : Ft8Slot) : phaseOf options now.station who ≠ .away := fun away =>
    phase_ne_away (inContact who).1 (sound.keeps who).notCqIng
      ((phaseAbout_of_src_eq (inContact who).2).symm.trans away)
  have notClosed : (contactOf options now).listener ≠ .closes := by
    have waited := (slotEnds_phases soundBefore).2
    rw [← isNow] at waited
    intro closes
    rw [closes] at waited
    rcases List.mem_cons.mp waited with talked | away
    · exact (Contact.consistent_of_reachable reachedBefore).talker_ne_closes talked.symm
    · exact absurd (List.mem_singleton.mp away) (by decide)
  have onAir : ReplyOnAir options now := by
    rw [isNow]
    refine replyOnAir_slotEnds facing soundBefore ?_
    rw [← isNow]
    exact inPhase _
  obtain ⟨slots, isPrefix, slotCount, closed⟩ := closedBy_of_open facing
    ⟨Contact.consistent_of_reachable reached, inPhase _, inPhase _, notClosed⟩
    ⟨sound, autoQSO, rfl, fun _ => rfl⟩ onAir undisturbed enough
  refine ⟨slots, isPrefix, ?_, closed⟩
  rw [slotCount]
  exact Nat.succ_le_succ (Contact.slotsLeft_le _)

theorem contact_completes_closedContact :
    let now := contactRun facingOptions quietStations (openedContact ++ [.slotEnds])
    ∃ slots, slots <+: closedContact ∧ slots.count .slotEnds ≤ 4 ∧
      ∃ who, ClosedBy facingOptions (fun who => (now.station who).adiCalls) who
        (contactRun facingOptions now slots) :=
  contact_completes facing_facingOptions startsApart_quietStations openedContact closedContact
    (by decide +kernel) (by decide +kernel) (by decide +kernel) (by decide +kernel)
    (by decide +kernel)

end RtlsdrFt8d
