import RtlsdrFt8d.QsoMachineSteps

/-!
# The supervision timer of a QSO

`ft8time` is set when a QSO is accepted and never moved while the QSO is in
progress, so the update that finds it reached ends the QSO whatever the peer
has sent.  Tick counts are compared as natural numbers, which is right as long
as the 32-bit counter has not wrapped around.
-/

namespace RtlsdrFt8d

variable {options : Options} {handler : QsoHandler}

/-! ## The tick counter -/

/-- The ticks that `QSOHandler` popped. -/
def ticksIn (events : List QsoEvent) : Nat :=
  events.count .tick

@[simp]
theorem ticksIn_append (events more : List QsoEvent) :
    ticksIn (events ++ more) = ticksIn events + ticksIn more :=
  List.count_append

theorem ticksIn_le_of_isPrefix {earlier events : List QsoEvent}
    (isPrefix : earlier <+: events) : ticksIn earlier ≤ ticksIn events :=
  isPrefix.sublist.count_le QsoEvent.tick

theorem ft8tick_dispatch (options : Options) (qsoMsg : PlainMessage) (handler : QsoHandler) :
    (dispatch options qsoMsg handler).ft8tick = handler.ft8tick :=
  (dispatch_keeps options qsoMsg handler).2.1

theorem ft8tick_updateQsoMachine (options : Options) (theSlot : Ft8Slot)
    (handler : QsoHandler) :
    (updateQsoMachine options theSlot handler).ft8tick = handler.ft8tick := by
  have early := (updateQso_keeps options theSlot handler).2.2
  rcases updateQsoMachine_cases options theSlot handler with same | queued
  · rw [same, early]
  · rw [queued]
    exact early

theorem ft8tick_qsoRun (options : Options) (adiOpens : Bool) (events : List QsoEvent) :
    (qsoRun options adiOpens events).ft8tick = UInt32.ofNat (ticksIn events) := by
  induction events using List.reverseRecOn with
  | nil => rfl
  | append_singleton events event ih =>
      rw [qsoRun_append_singleton, ticksIn_append, UInt32.ofNat_add, ← ih]
      cases event with
      | tick => rfl
      | message qsoMsg => exact (ft8tick_dispatch options qsoMsg _).trans (UInt32.add_zero _).symm
      | update theSlot =>
          exact (ft8tick_updateQsoMachine options theSlot _).trans (UInt32.add_zero _).symm
      | command command => cases command <;> exact (UInt32.add_zero _).symm
      | adiFile opens => exact (UInt32.add_zero _).symm

/-! ## The timer -/

/-- A QSO that an update leaves in progress had not reached its timer. -/
theorem update_of_stillInProgress {theSlot : Ft8Slot}
    (stillInProgress : (updateQsoMachine options theSlot handler).qsoState ≠ .idle) :
    ¬ TimesOut handler ∧
      (updateQsoMachine options theSlot handler).ft8time = handler.ft8time := by
  have running : ¬ TimesOut handler :=
    fun expired => stillInProgress (qsoState_update_of_timesOut expired)
  have early : (updateQso options theSlot handler).ft8time = handler.ft8time := by
    rcases updateQso_cases options theSlot handler with
      ⟨expired, -⟩ | ⟨-, extra, -, replied⟩ | ⟨-, -, busy, quiet⟩ | ⟨-, unused⟩
    · exact absurd expired running
    · rw [replied]
    · rw [quiet]
    · rw [unused]
  refine ⟨running, ?_⟩
  rcases updateQsoMachine_cases options theSlot handler with same | queued
  · rw [same, early]
  · rw [queued]
    exact early

theorem ft8time_step_of_inProgress (options : Options) (event : QsoEvent)
    (inProgress : handler.qsoState ≠ .idle)
    (stillInProgress : (qsoStep options handler event).qsoState ≠ .idle) :
    (qsoStep options handler event).ft8time = handler.ft8time := by
  cases event with
  | tick => rfl
  | adiFile opens => rfl
  | command command => cases command <;> rfl
  | update theSlot => exact (update_of_stillInProgress stillInProgress).2
  | message qsoMsg =>
      change (dispatch options qsoMsg handler).qsoState ≠ .idle at stillInProgress
      change (dispatch options qsoMsg handler).ft8time = handler.ft8time
      by_cases continued : ContinuesQso options handler qsoMsg
      · rw [dispatch_of_continuesQso continued] at stillInProgress ⊢
        cases parsed : parseMsg qsoMsg.message.chars <;>
          simp_all [continueQso, addPeer, logToAdi, resetQsoState]
      · rw [dispatch_of_inProgress inProgress continued]

/-- Whatever starts a QSO sets its timer. -/
theorem ft8time_step_of_begins (options : Options) (event : QsoEvent)
    (isIdle : handler.qsoState = .idle)
    (inProgress : (qsoStep options handler event).qsoState ≠ .idle) :
    (qsoStep options handler event).ft8time = handler.ft8tick + maxQsoLifetime := by
  cases event with
  | tick => exact absurd isIdle inProgress
  | adiFile opens => exact absurd isIdle inProgress
  | command command => cases command <;> exact absurd isIdle inProgress
  | update theSlot =>
      rcases update_keeps_or_ends options theSlot handler with ended | ⟨kept, -⟩
      · exact absurd ended inProgress
      · exact absurd (kept.trans isIdle) inProgress
  | message qsoMsg =>
      change (dispatch options qsoMsg handler).qsoState ≠ .idle at inProgress
      change (dispatch options qsoMsg handler).ft8time = handler.ft8tick + maxQsoLifetime
      rcases dispatch_cases options handler qsoMsg with continued | started | answered | same
      · exact absurd isIdle continued.inProgress
      · rw [dispatch_of_startsQso started]
        cases parsed : parseMsg qsoMsg.message.chars <;> simp [startQso, parsed]
      · rw [dispatch_of_answersCq answered]
      · rw [same] at inProgress
        exact absurd isIdle inProgress

/-- The QSO in progress after `events` was accepted right after `earlier`. -/
abbrev AcceptedAfter (options : Options) (adiOpens : Bool) (earlier events : List QsoEvent) :
    Prop :=
  EventRuns.ActiveSince (qsoStep options) (initQsoState adiOpens) QsoHandler.qsoInProgress
    earlier events

theorem ft8time_of_acceptedAfter {adiOpens : Bool} {earlier events : List QsoEvent}
    (accepted : AcceptedAfter options adiOpens earlier events)
    (inProgress : (qsoRun options adiOpens events).qsoState ≠ .idle) :
    (qsoRun options adiOpens events).ft8time =
      (qsoRun options adiOpens earlier).ft8tick + maxQsoLifetime := by
  apply EventRuns.activeSince_induction (fun state : QsoHandler =>
    state.ft8time = (qsoRun options adiOpens earlier).ft8tick + maxQsoLifetime) _ _ accepted
  · exact (qsoInProgress_iff _).mpr inProgress
  · intro event isActive
    exact ft8time_step_of_begins options event (by simpa using accepted.wasIdle)
      (by simpa using isActive)
  · intro state event wasActive isActive timer
    rw [ft8time_step_of_inProgress options event (by simpa using wasActive)
      (by simpa using isActive), timer]

/-- Every QSO is bounded by its timer: after an update that leaves a QSO in
progress, the timer stands at its value from the acceptance of this QSO, less
than the lifetime ago. -/
theorem qsoState_supervised (options : Options) (adiOpens : Bool) (events : List QsoEvent)
    (theSlot : Ft8Slot) (fewTicks : ticksIn events < 2 ^ 32 - maxQsoLifetime.toNat)
    (inProgress : (qsoRun options adiOpens (events ++ [.update theSlot])).qsoState ≠ .idle) :
    (qsoRun options adiOpens (events ++ [.update theSlot])).qsoState ∈
        [.replyLoc, .replySig, .replyRR73, .reply73] ∧
      (qsoRun options adiOpens (events ++ [.update theSlot])).ft8tick <
        (qsoRun options adiOpens (events ++ [.update theSlot])).ft8time ∧
      ∃ earlier, AcceptedAfter options adiOpens earlier (events ++ [.update theSlot]) ∧
        (qsoRun options adiOpens (events ++ [.update theSlot])).ft8time.toNat =
          ticksIn earlier + maxQsoLifetime.toNat ∧
        ticksIn events < ticksIn earlier + maxQsoLifetime.toNat := by
  have notCqIng := qsoState_qsoRun_ne_cqIng options adiOpens (events ++ [.update theSlot])
  obtain ⟨earlier, accepted⟩ := EventRuns.exists_activeSince QsoHandler.qsoInProgress
    rfl ((qsoInProgress_iff _).mpr inProgress)
  have timer := ft8time_of_acceptedAfter accepted inProgress
  have tick := ft8tick_qsoRun options adiOpens (events ++ [.update theSlot])
  have noTick : ticksIn (events ++ [.update theSlot]) = ticksIn events := by
    simp [ticksIn]
  have acceptedTicks : ticksIn earlier ≤ ticksIn events :=
    noTick ▸ ticksIn_le_of_isPrefix accepted.isPrefix
  have timerValue : (qsoRun options adiOpens (events ++ [.update theSlot])).ft8time.toNat =
      ticksIn earlier + maxQsoLifetime.toNat := by
    rw [timer, ft8tick_qsoRun, UInt32.toNat_add, UInt32.toNat_ofNat']
    omega
  have running : (qsoRun options adiOpens (events ++ [.update theSlot])).ft8tick <
      (qsoRun options adiOpens (events ++ [.update theSlot])).ft8time := by
    rw [qsoRun_append_singleton] at inProgress ⊢
    obtain ⟨notExpired, sameTimer⟩ := update_of_stillInProgress inProgress
    rw [qsoStep, sameTimer, ft8tick_updateQsoMachine]
    exact UInt32.not_le.mp notExpired
  refine ⟨?_, running, earlier, accepted, timerValue, ?_⟩
  · cases state : (qsoRun options adiOpens (events ++ [.update theSlot])).qsoState <;> simp_all
  · have small := UInt32.lt_iff_toNat_lt.mp running
    rw [timerValue, tick, noTick, UInt32.toNat_ofNat'] at small
    omega

/-- A QSO that `F1ABC` starts and we answer. -/
def answeredCall : List QsoEvent :=
  [.command (.autoQSO true), .tick, .message (sampleCall "JO65".toList)]

theorem qsoState_supervised_answeredCall :
    ∃ earlier, AcceptedAfter sampleStation true earlier (answeredCall ++ [.update .even]) ∧
      (qsoRun sampleStation true (answeredCall ++ [.update .even])).ft8time.toNat =
        ticksIn earlier + maxQsoLifetime.toNat ∧
      ticksIn answeredCall < ticksIn earlier + maxQsoLifetime.toNat :=
  (qsoState_supervised sampleStation true answeredCall .even (by decide) (by decide)).2.2

end RtlsdrFt8d
