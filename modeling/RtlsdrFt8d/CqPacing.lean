import RtlsdrFt8d.QsoLifetime

/-!
# Pacing of CQ calls

`updateQsoMachine` comes to `queryCQ` only with the transmitter free, which in
the active slot means that no QSO is in progress.  The repeat time is kept as a
tick count of 32 bits; a CQ queued in the last ticks before the counter starts
over leaves a repeat time that has already passed.
-/

namespace RtlsdrFt8d

variable {options : Options} {adiOpens : Bool} {handler : QsoHandler} {theSlot : Ft8Slot}

/-- The call of `updateQsoMachine` reaches `queryCQ`, which queues a request. -/
structure QueuesCq (options : Options) (handler : QsoHandler) (theSlot : Ft8Slot) : Prop where
  free : (updateQso options theSlot handler).txBusy = false
  called : theSlot = (updateQso options theSlot handler).activeSlot
  queues : (queryCQ options theSlot (updateQso options theSlot handler)).txQueue ≠
    (updateQso options theSlot handler).txQueue

/-- No CQ of the run disturbs a QSO, and between two of them at least
`QUERYCQDELAY` ticks pass, provided that the first is queued before tick
`limit`. -/
def CqPaced (options : Options) (adiOpens : Bool) (limit : Nat) (events : List QsoEvent) :
    Prop :=
  ∀ front theSlot, front ++ [.update theSlot] <+: events →
    QueuesCq options (qsoRun options adiOpens front) theSlot →
      (updateQso options theSlot (qsoRun options adiOpens front)).qsoState = .idle ∧
      (updateQso options theSlot (qsoRun options adiOpens front)).autoCq = true ∧
      theSlot = (updateQso options theSlot (qsoRun options adiOpens front)).activeSlot ∧
      ∀ before slot, before ++ [.update slot] <+: front → ticksIn before < limit →
        QueuesCq options (qsoRun options adiOpens before) slot →
          ticksIn before + queryCqDelay.toNat ≤ ticksIn front

/-! ## One update -/

/-- `handleTx` reports a free transmitter only without a QSO, be it that the
last reply has just ended it. -/
theorem qsoState_handleTx_of_free (free : (handleTx options theSlot handler).1 = false) :
    (handleTx options theSlot handler).2.qsoState = .idle := by
  by_cases isIdle : handler.qsoState = .idle
  · rw [handleTx_of_idle isIdle]
    exact isIdle
  · simpa [handleTx, isIdle] using free

/-- In the active slot a free transmitter means that no QSO is in progress,
through the timer as well as through `handleTx`. -/
theorem qsoState_updateQso_of_free (free : (updateQso options theSlot handler).txBusy = false)
    (active : theSlot = handler.activeSlot) :
    (updateQso options theSlot handler).qsoState = .idle := by
  by_cases expired : TimesOut handler
  · rw [updateQso_of_timesOut options theSlot expired]
    rfl
  · rw [updateQso_of_active expired active] at free ⊢
    exact qsoState_handleTx_of_free free

theorem callsCq_of_queuesCq (queued : QueuesCq options handler theSlot) :
    CallsCq (updateQso options theSlot handler) theSlot := by
  by_contra silent
  apply queued.queues
  rw [queryCQ_of_not_callsCq silent]

theorem rested_of_queuesCq (queued : QueuesCq options handler theSlot) :
    handler.queryRepeat ≤ handler.ft8tick := by
  have rested := (callsCq_of_queuesCq queued).rested
  obtain ⟨-, sameRepeat, sameTick⟩ := updateQso_keeps options theSlot handler
  rwa [sameRepeat, sameTick] at rested

theorem queryRepeat_of_queuesCq (queued : QueuesCq options handler theSlot) :
    (updateQsoMachine options theSlot handler).queryRepeat =
      handler.ft8tick + queryCqDelay := by
  rw [updateQsoMachine_of_callsCq queued.free (callsCq_of_queuesCq queued),
    (updateQso_keeps options theSlot handler).2.2]

/-- An update moves the repeat time only when it queues a CQ. -/
theorem queryRepeat_of_not_queuesCq (silent : ¬ QueuesCq options handler theSlot) :
    (updateQsoMachine options theSlot handler).queryRepeat = handler.queryRepeat := by
  rw [updateQsoMachine_of_not_callsCq, (updateQso_keeps options theSlot handler).2.1]
  rintro ⟨free, calls⟩
  apply silent
  refine ⟨free, calls.active, ?_⟩
  rw [queryCQ_of_callsCq calls]
  simp

theorem queryRepeat_step_of_ne_update {event : QsoEvent}
    (notUpdate : ∀ theSlot, event ≠ .update theSlot) :
    (qsoStep options handler event).queryRepeat = handler.queryRepeat := by
  cases event with
  | tick => rfl
  | adiFile opens => rfl
  | command command => cases command <;> rfl
  | update theSlot => exact absurd rfl (notUpdate theSlot)
  | message qsoMsg => exact (dispatch_keeps options qsoMsg handler).2.2

/-! ## Runs -/

theorem toNat_ft8tick_qsoRun {events : List QsoEvent} (fewTicks : ticksIn events < 2 ^ 32) :
    (qsoRun options adiOpens events).ft8tick.toNat = ticksIn events := by
  rw [ft8tick_qsoRun, UInt32.toNat_ofNat', Nat.mod_eq_of_lt fewTicks]

/-- Once a CQ is queued, the repeat time stays ahead until the delay is over. -/
theorem rests_after_queuesCq {before later : List QsoEvent} {slot : Ft8Slot}
    (fewTicks : ticksIn (before ++ [.update slot] ++ later) < 2 ^ 32)
    (early : ticksIn before + queryCqDelay.toNat < 2 ^ 32)
    (queued : QueuesCq options (qsoRun options adiOpens before) slot) :
    ticksIn before + queryCqDelay.toNat ≤
        (qsoRun options adiOpens (before ++ [.update slot] ++ later)).queryRepeat.toNat ∨
      ticksIn before + queryCqDelay.toNat ≤ ticksIn (before ++ [.update slot] ++ later) := by
  induction later using List.reverseRecOn with
  | nil =>
      left
      rw [List.append_nil] at fewTicks ⊢
      have beforeTicks : ticksIn before < 2 ^ 32 := by omega
      rw [qsoRun_append_singleton, qsoStep, queryRepeat_of_queuesCq queued, UInt32.toNat_add,
        toNat_ft8tick_qsoRun beforeTicks, Nat.mod_eq_of_lt early]
  | append_singleton later event ih =>
      rw [← List.append_assoc] at fewTicks ⊢
      rw [ticksIn_append] at fewTicks ⊢
      have reached := ih (by omega)
      by_cases calls : ∃ theSlot, event = .update theSlot ∧
          QueuesCq options (qsoRun options adiOpens (before ++ [.update slot] ++ later)) theSlot
      · right
        obtain ⟨theSlot, -, again⟩ := calls
        have rested := UInt32.le_iff_toNat_le.mp (rested_of_queuesCq again)
        rw [toNat_ft8tick_qsoRun (by omega)] at rested
        omega
      · have kept : (qsoStep options
            (qsoRun options adiOpens (before ++ [.update slot] ++ later)) event).queryRepeat =
            (qsoRun options adiOpens (before ++ [.update slot] ++ later)).queryRepeat := by
          by_cases isUpdate : ∃ theSlot, event = .update theSlot
          · obtain ⟨theSlot, rfl⟩ := isUpdate
            exact queryRepeat_of_not_queuesCq fun again => calls ⟨theSlot, rfl, again⟩
          · exact queryRepeat_step_of_ne_update fun theSlot same => isUpdate ⟨theSlot, same⟩
        rw [qsoRun_append_singleton, kept]
        omega

/-- CQ calls never interfere with a QSO and are paced, as long as the repeat
time fits the tick counter. -/
theorem cq_paced (options : Options) (adiOpens : Bool) (events : List QsoEvent)
    (fewTicks : ticksIn events < 2 ^ 32) :
    CqPaced options adiOpens (2 ^ 32 - queryCqDelay.toNat) events := by
  intro front theSlot isPrefix queued
  have active := queued.called.trans (updateQso_keeps options theSlot _).1
  refine ⟨qsoState_updateQso_of_free queued.free active, (callsCq_of_queuesCq queued).autoCq,
    queued.called, ?_⟩
  rintro before slot ⟨later, rfl⟩ early earlierQueued
  have frontTicks : ticksIn (before ++ [.update slot] ++ later) < 2 ^ 32 :=
    (ticksIn_le_of_isPrefix ((List.prefix_append _ _).trans isPrefix)).trans_lt fewTicks
  have rested := UInt32.le_iff_toNat_le.mp (rested_of_queuesCq queued)
  rw [toNat_ft8tick_qsoRun frontTicks] at rested
  rcases rests_after_queuesCq frontTicks (by omega) earlierQueued with ahead | passed
  · exact ahead.trans rested
  · exact passed

/-- A station that calls CQ in the even slots. -/
def callingStation : List QsoEvent :=
  [.command (.autoCQ true), .tick, .update .even, .tick, .tick, .tick, .update .even]

theorem cq_paced_callingStation :
    CqPaced sampleStation true (2 ^ 32 - queryCqDelay.toNat) callingStation :=
  cq_paced sampleStation true callingStation (by decide)

/-! ## The end of the tick counter -/

/-- Waiting changes the tick counter only. -/
theorem run_replicate_tick (options : Options) (handler : QsoHandler) (count : Nat) :
    EventRuns.run (qsoStep options) handler (List.replicate count .tick) =
      { handler with ft8tick := handler.ft8tick + UInt32.ofNat count } := by
  induction count generalizing handler with
  | zero => simp
  | succ count ih =>
      rw [List.replicate_succ, EventRuns.run_cons, ih, Nat.add_comm count 1, UInt32.ofNat_add,
        ← UInt32.add_assoc]
      rfl

/-- A station that enables CQ calls at program start and then hears `waited`
slots. -/
def lateCaller (waited : Nat) : List QsoEvent :=
  .command (.autoCQ true) :: List.replicate waited .tick

theorem ticksIn_lateCaller (waited : Nat) : ticksIn (lateCaller waited) = waited := by
  rw [ticksIn, lateCaller, List.count_cons_of_ne (by decide), List.count_replicate_self]

theorem qsoRun_lateCaller (waited : Nat) :
    qsoRun sampleStation true (lateCaller waited) =
      { initQsoState true with autoCq := true, ft8tick := 0 + UInt32.ofNat waited } := by
  rw [qsoRun, lateCaller, EventRuns.run_cons, run_replicate_tick]
  rfl

/-- A CQ queued three ticks before the counter starts over leaves the repeat
time 0. -/
theorem queuesCq_twice {waited : Nat} (late : UInt32.ofNat waited = 4294967293) :
    QueuesCq sampleStation (qsoRun sampleStation true (lateCaller waited)) .even ∧
      QueuesCq sampleStation
        (qsoRun sampleStation true (lateCaller waited ++ [.update .even] ++ [.tick])) .even := by
  rw [qsoRun_append_singleton, qsoRun_append_singleton, qsoRun_lateCaller, late]
  exact ⟨⟨by decide, by decide, by decide⟩, ⟨by decide, by decide, by decide⟩⟩

theorem not_cqPaced_of_late (waited : Nat) (late : UInt32.ofNat waited = 4294967293)
    (beforeLimit : waited < 2 ^ 32) :
    ¬ CqPaced sampleStation true (2 ^ 32)
      (lateCaller waited ++ [.update .even] ++ [.tick] ++ [.update .even]) := by
  intro paced
  obtain ⟨first, second⟩ := queuesCq_twice late
  have spaced := (paced _ .even List.prefix_rfl second).2.2.2 (lateCaller waited) .even
    (List.prefix_append _ _) (by rwa [ticksIn_lateCaller]) first
  have frontTicks :
      ticksIn (lateCaller waited ++ [.update .even] ++ [.tick]) = waited + 1 := by
    rw [ticksIn_append, ticksIn_append, ticksIn_lateCaller]
    rfl
  rw [ticksIn_lateCaller, frontTicks] at spaced
  have delay : queryCqDelay.toNat = 3 := rfl
  omega

/-- The CQ at tick 2^32 - 3 is followed by another one at the next tick. -/
theorem not_cqPaced_lateCaller :
    ¬ ∀ events, ticksIn events < 2 ^ 32 → CqPaced sampleStation true (2 ^ 32) events := by
  intro paced
  refine not_cqPaced_of_late (2 ^ 32 - 3) (by decide) (by decide) (paced _ ?_)
  rw [ticksIn_append, ticksIn_append, ticksIn_append, ticksIn_lateCaller]
  decide

end RtlsdrFt8d
