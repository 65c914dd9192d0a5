import RtlsdrFt8d.QsoMachineSteps

/-!
# Logs and worked peers

A QSO is logged when the peer's RR73 arrives and when its timer expires late in
the exchange; its peer is entered in the table of worked peers in the first case
only.  This file says which steps log, and from that when a run logs every QSO
once and when it leaves the books of every finished QSO complete.
-/

namespace RtlsdrFt8d

variable {options : Options} {handler : QsoHandler} {event : QsoEvent}

/-! ## Steps that log -/

/-- `addQso` takes the RR73 of the current peer. -/
def HandlesRR73 (options : Options) (handler : QsoHandler) (event : QsoEvent) : Prop :=
  ∃ qsoMsg, event = .message qsoMsg ∧ ContinuesQso options handler qsoMsg ∧
    parseMsg qsoMsg.message.chars = .rr73Msg

/-- An update finds the timer of a QSO expired that is far enough to be
logged. -/
def ExpiresLate (handler : QsoHandler) (event : QsoEvent) : Prop :=
  (∃ theSlot, event = .update theSlot) ∧ TimesOut handler ∧ LogsOnTimeout handler

/-- The two occasions of `logToAdi`. -/
def LogsQso (options : Options) (handler : QsoHandler) (event : QsoEvent) : Prop :=
  HandlesRR73 options handler event ∨ ExpiresLate handler event

structure LogsOnce (before after : QsoHandler) (record : PlainMessage) : Prop where
  src_eq : record.src = before.currentQSO.src
  adiCalls_eq : after.adiCalls = before.adiCalls ++ [record]
  adiFile_eq : after.adiFile =
    if before.adiOpens then before.adiFile ++ [record] else before.adiFile

structure KeepsLog (before after : QsoHandler) : Prop where
  adiCalls_eq : after.adiCalls = before.adiCalls
  adiFile_eq : after.adiFile = before.adiFile

theorem HandlesRR73.inProgress (handles : HandlesRR73 options handler event) :
    handler.qsoState ≠ .idle := by
  obtain ⟨qsoMsg, -, continued, -⟩ := handles
  exact continued.inProgress

theorem LogsQso.inProgress (logs : LogsQso options handler event) :
    handler.qsoState ≠ .idle := by
  rcases logs with handles | ⟨-, -, -, -, inProgress⟩
  · exact handles.inProgress
  · exact inProgress

theorem logsOnce_of_handlesRR73 (handles : HandlesRR73 options handler event) :
    ∃ record, LogsOnce handler (qsoStep options handler event) record := by
  obtain ⟨qsoMsg, rfl, continued, isRR73⟩ := handles
  change ∃ record, LogsOnce handler (dispatch options qsoMsg handler) record
  rw [dispatch_of_continuesQso continued]
  simp only [continueQso, isRR73]
  exact ⟨{ handler.currentQSO with message := qsoMsg.message }, rfl, rfl, rfl⟩

theorem keepsLog_updateQsoMachine (options : Options) (theSlot : Ft8Slot)
    (handler : QsoHandler) :
    KeepsLog (updateQso options theSlot handler)
      (updateQsoMachine options theSlot handler) := by
  rcases updateQsoMachine_cases options theSlot handler with same | queued
  · rw [same]
    exact ⟨rfl, rfl⟩
  · rw [queued]
    exact ⟨rfl, rfl⟩

theorem logsOnce_of_expiresLate (expires : ExpiresLate handler event) :
    ∃ record, LogsOnce handler (qsoStep options handler event) record := by
  obtain ⟨⟨theSlot, rfl⟩, expired, logs⟩ := expires
  have closed := updateQso_of_timesOut options theSlot expired
  rw [if_pos logs] at closed
  have kept := keepsLog_updateQsoMachine options theSlot handler
  exact ⟨handler.currentQSO, rfl, by rw [qsoStep, kept.adiCalls_eq, closed]; rfl,
    by rw [qsoStep, kept.adiFile_eq, closed]; rfl⟩

theorem logsOnce_of_logsQso (logs : LogsQso options handler event) :
    ∃ record, LogsOnce handler (qsoStep options handler event) record := by
  rcases logs with handles | expires
  · exact logsOnce_of_handlesRR73 handles
  · exact logsOnce_of_expiresLate expires

theorem keepsLog_dispatch (qsoMsg : PlainMessage)
    (silent : ¬ HandlesRR73 options handler (.message qsoMsg)) :
    KeepsLog handler (dispatch options qsoMsg handler) := by
  rcases dispatch_cases options handler qsoMsg with continued | started | answered | same
  · have otherClass : parseMsg qsoMsg.message.chars ≠ .rr73Msg :=
      fun isRR73 => silent ⟨qsoMsg, rfl, continued, isRR73⟩
    rw [dispatch_of_continuesQso continued]
    cases parsed : parseMsg qsoMsg.message.chars with
    | rr73Msg => exact absurd parsed otherClass
    | cqMsg => exact ⟨by simp [continueQso, parsed, resetQsoState],
        by simp [continueQso, parsed, resetQsoState]⟩
    | locMsg => exact ⟨by simp [continueQso, parsed], by simp [continueQso, parsed]⟩
    | sigMsg => exact ⟨by simp [continueQso, parsed], by simp [continueQso, parsed]⟩
    | s73Msg => exact ⟨by simp [continueQso, parsed, resetQsoState],
        by simp [continueQso, parsed, resetQsoState]⟩
  · rw [dispatch_of_startsQso started]
    cases parsed : parseMsg qsoMsg.message.chars <;>
      exact ⟨by simp [startQso, parsed], by simp [startQso, parsed]⟩
  · rw [dispatch_of_answersCq answered]
    exact ⟨rfl, rfl⟩
  · rw [same]
    exact ⟨rfl, rfl⟩

theorem keepsLog_updateQso (options : Options) (theSlot : Ft8Slot)
    (silent : ¬ ExpiresLate handler (.update theSlot)) :
    KeepsLog handler (updateQso options theSlot handler) := by
  rcases updateQso_cases options theSlot handler with
    ⟨expired, closed⟩ | ⟨-, extra, -, replied⟩ | ⟨-, -, busy, quiet⟩ | ⟨-, unused⟩
  · have early : ¬ LogsOnTimeout handler :=
      fun logs => silent ⟨⟨theSlot, rfl⟩, expired, logs⟩
    rw [closed, if_neg early]
    exact ⟨rfl, rfl⟩
  · rw [replied]
    exact ⟨rfl, rfl⟩
  · rw [quiet]
    exact ⟨rfl, rfl⟩
  · rw [unused]
    exact ⟨rfl, rfl⟩

theorem keepsLog_of_not_logsQso (silent : ¬ LogsQso options handler event) :
    KeepsLog handler (qsoStep options handler event) := by
  obtain ⟨notRR73, notLate⟩ := not_or.mp silent
  cases event with
  | tick => exact ⟨rfl, rfl⟩
  | adiFile opens => exact ⟨rfl, rfl⟩
  | command command => cases command <;> exact ⟨rfl, rfl⟩
  | message qsoMsg => exact keepsLog_dispatch qsoMsg notRR73
  | update theSlot =>
      have early := keepsLog_updateQso options theSlot notLate
      have late := keepsLog_updateQsoMachine options theSlot handler
      exact ⟨late.adiCalls_eq.trans early.adiCalls_eq,
        late.adiFile_eq.trans early.adiFile_eq⟩

/-! ## One log for each QSO -/

def loggedBy (taken : EventRuns.Step QsoHandler QsoEvent) : List PlainMessage :=
  taken.after.adiCalls.drop taken.before.adiCalls.length

/-- The calls of `logToAdi` for the QSO in progress, or for the one that just
ended. -/
def qsoAdiCalls (options : Options) (adiOpens : Bool) (events : List QsoEvent) :
    List PlainMessage :=
  (qsoEpisode options adiOpens events).flatMap loggedBy

theorem length_loggedBy_of_logsQso {taken : EventRuns.Step QsoHandler QsoEvent}
    (after : taken.after = qsoStep options taken.before taken.event)
    (logs : LogsQso options taken.before taken.event) : (loggedBy taken).length = 1 := by
  obtain ⟨record, -, calls, -⟩ := logsOnce_of_logsQso logs
  simp [loggedBy, after, calls]

theorem loggedBy_of_not_logsQso {taken : EventRuns.Step QsoHandler QsoEvent}
    (after : taken.after = qsoStep options taken.before taken.event)
    (silent : ¬ LogsQso options taken.before taken.event) : loggedBy taken = [] := by
  have calls := (keepsLog_of_not_logsQso silent).adiCalls_eq
  simp [loggedBy, after, calls]

theorem length_loggedBy_le_one {taken : EventRuns.Step QsoHandler QsoEvent}
    (after : taken.after = qsoStep options taken.before taken.event) :
    (loggedBy taken).length ≤ 1 := by
  by_cases logs : LogsQso options taken.before taken.event
  · rw [length_loggedBy_of_logsQso after logs]
  · simp [loggedBy_of_not_logsQso after logs]

/-- In a run from program start, no QSO is logged twice. -/
def OneLogPerQso (options : Options) (adiOpens : Bool) (events : List QsoEvent) : Prop :=
  ∀ earlier, earlier <+: events → (qsoAdiCalls options adiOpens earlier).length ≤ 1

theorem qsoState_step_of_expiresLate (expires : ExpiresLate handler event) :
    (qsoStep options handler event).qsoState = .idle := by
  obtain ⟨⟨theSlot, rfl⟩, expired, -⟩ := expires
  exact qsoState_update_of_timesOut expired

theorem qsoEpisode_append_of_inProgress {adiOpens : Bool} {earlier : List QsoEvent}
    (inProgress : (qsoRun options adiOpens earlier).qsoState ≠ .idle) :
    qsoEpisode options adiOpens (earlier ++ [event]) =
      qsoEpisode options adiOpens earlier ++
        [⟨qsoRun options adiOpens earlier, event,
          qsoStep options (qsoRun options adiOpens earlier) event⟩] := by
  rw [qsoEpisode, qsoSteps, EventRuns.steps_append_singleton]
  exact EventRuns.episode_of_active_before ((qsoInProgress_iff _).mpr inProgress)

theorem after_of_mem_qsoEpisode {adiOpens : Bool} {events : List QsoEvent}
    {taken : EventRuns.Step QsoHandler QsoEvent}
    (takenMem : taken ∈ qsoEpisode options adiOpens events) :
    taken.after = qsoStep options taken.before taken.event :=
  EventRuns.after_eq_of_mem_steps (EventRuns.mem_of_mem_episode takenMem)

/-- While a QSO is in progress, only its RR73 can have logged it. -/
theorem handlesRR73_of_logsQso {adiOpens : Bool} {events : List QsoEvent}
    (inProgress : (qsoRun options adiOpens events).qsoState ≠ .idle)
    {taken : EventRuns.Step QsoHandler QsoEvent}
    (takenMem : taken ∈ qsoEpisode options adiOpens events)
    (logs : LogsQso options taken.before taken.event) :
    HandlesRR73 options taken.before taken.event := by
  rcases logs with handles | expires
  · exact handles
  · have stillActive : taken.after.qsoInProgress = true :=
      EventRuns.active_after_of_mem_episode rfl ((qsoInProgress_iff _).mpr inProgress)
        takenMem
    rw [after_of_mem_qsoEpisode takenMem, qsoInProgress_iff] at stillActive
    exact absurd (qsoState_step_of_expiresLate expires) stillActive

theorem length_qsoAdiCalls_append_of_idle {adiOpens : Bool} {earlier : List QsoEvent}
    (isIdle : (qsoRun options adiOpens earlier).qsoState = .idle) (event : QsoEvent) :
    (qsoAdiCalls options adiOpens (earlier ++ [event])).length ≤ 1 := by
  rw [qsoAdiCalls, qsoEpisode, qsoSteps, EventRuns.steps_append_singleton]
  have wasIdle : QsoHandler.qsoInProgress
      (EventRuns.run (qsoStep options) (initQsoState adiOpens) earlier) = false :=
    (qsoInProgress_eq_false_iff _).mpr isIdle
  cases isActive : QsoHandler.qsoInProgress (qsoStep options
      (EventRuns.run (qsoStep options) (initQsoState adiOpens) earlier) event) with
  | true =>
      rw [EventRuns.episode_of_begins wasIdle isActive, List.flatMap_singleton]
      exact length_loggedBy_le_one rfl
  | false =>
      rw [EventRuns.episode_of_idle wasIdle isActive]
      simp

/-- Every QSO is logged at most once exactly in the runs in which, after the RR73
of a QSO, neither another RR73 of its peer is handled nor its timer expires. -/
theorem oneLogPerQso_iff (options : Options) (adiOpens : Bool) (events : List QsoEvent) :
    OneLogPerQso options adiOpens events ↔
      ∀ earlier event, earlier ++ [event] <+: events →
        LogsQso options (qsoRun options adiOpens earlier) event →
          ∀ taken ∈ qsoEpisode options adiOpens earlier,
            ¬ HandlesRR73 options taken.before taken.event := by
  constructor
  · intro oneLog earlier event isPrefix logs taken takenMem handles
    have atMostOne := oneLog _ isPrefix
    have early : 0 < (qsoAdiCalls options adiOpens earlier).length := by
      have one := length_loggedBy_of_logsQso (after_of_mem_qsoEpisode takenMem)
        (Or.inl handles)
      obtain ⟨record, recordMem⟩ := List.length_pos_iff_exists_mem.mp
        (show 0 < (loggedBy taken).length by omega)
      exact List.length_pos_of_mem (List.mem_flatMap.mpr ⟨taken, takenMem, recordMem⟩)
    rw [qsoAdiCalls, qsoEpisode_append_of_inProgress logs.inProgress, List.flatMap_append,
      List.flatMap_singleton, List.length_append,
      length_loggedBy_of_logsQso rfl logs] at atMostOne
    unfold qsoAdiCalls at early
    omega
  · intro separate earlier isPrefix
    induction earlier using List.reverseRecOn with
    | nil => simp [qsoAdiCalls, qsoEpisode, qsoSteps]
    | append_singleton earlier event ih =>
        by_cases isIdle : (qsoRun options adiOpens earlier).qsoState = .idle
        · exact length_qsoAdiCalls_append_of_idle isIdle event
        · rw [qsoAdiCalls, qsoEpisode_append_of_inProgress isIdle, List.flatMap_append,
            List.flatMap_singleton, List.length_append]
          have lastAtMost : (loggedBy ⟨qsoRun options adiOpens earlier, event,
              qsoStep options (qsoRun options adiOpens earlier) event⟩).length ≤ 1 :=
            length_loggedBy_le_one rfl
          by_cases logs : LogsQso options (qsoRun options adiOpens earlier) event
          · have silent : qsoAdiCalls options adiOpens earlier = [] := by
              apply List.flatMap_eq_nil_iff.mpr
              intro taken takenMem
              apply loggedBy_of_not_logsQso (after_of_mem_qsoEpisode takenMem)
              intro early
              exact separate earlier event isPrefix logs taken takenMem
                (handlesRR73_of_logsQso isIdle takenMem early)
            unfold qsoAdiCalls at silent
            simpa [silent] using lastAtMost
          · have before := ih ((List.prefix_append earlier [event]).trans isPrefix)
            rw [loggedBy_of_not_logsQso rfl logs]
            simpa [qsoAdiCalls] using before

/-- A QSO whose RR73 arrives with the tick that ends its lifetime. -/
def rr73AtEndOfLifetime : List QsoEvent :=
  [.command (.autoQSO true), .tick, .message (sampleCall "JO65".toList), .update .even,
    .tick, .update .odd, .tick, .update .even, .tick, .update .odd, .tick, .update .even,
    .tick, .update .odd, .tick, .update .even, .tick, .update .odd,
    .tick, .message (sampleCall "RR73".toList), .update .even]

/-- The RR73 logs the QSO, and the timer logs it again. -/
theorem not_oneLogPerQso_rr73AtEndOfLifetime :
    ¬ OneLogPerQso sampleStation true rr73AtEndOfLifetime := by
  intro oneLog
  exact absurd (oneLog rr73AtEndOfLifetime (List.prefix_refl _)) (by decide)

end RtlsdrFt8d
