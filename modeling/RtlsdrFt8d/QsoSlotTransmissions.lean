import RtlsdrFt8d.QsoMachineSteps

/-!
# Transmissions of one slot

`updateQsoMachine` runs once per slot and may queue a reply of the current QSO
and a CQ.  This file counts what one call queues.  The two collide exactly when
the last reply of a QSO leaves the machine idle in a call that also owes a CQ.
-/

namespace RtlsdrFt8d

variable {options : Options} {handler : QsoHandler} {theSlot : Ft8Slot}

/-- The last reply of a QSO and a CQ are due in the same call. -/
structure RepliesAndCalls (handler : QsoHandler) (theSlot : Ft8Slot) : Prop where
  replies : RepliesIn handler theSlot
  lastReply : handler.qsoState = .reply73
  calls : CallsCq handler theSlot

theorem txQueue_updateQso_of_silent
    (silent : ¬ RepliesIn handler theSlot ∨ replyExtra options handler = none) :
    (updateQso options theSlot handler).txQueue = handler.txQueue := by
  rcases updateQso_cases options theSlot handler with
    ⟨-, closed⟩ | ⟨replies, extra, transmits, -⟩ | ⟨-, -, busy, quiet⟩ | ⟨-, unused⟩
  · rw [closed]
    split_ifs <;> simp [resetQsoState, logToAdi]
  · rcases silent with noReply | noExtra
    · exact absurd replies noReply
    · simp [transmits] at noExtra
  · rw [quiet]
  · rw [unused]

/-- A due reply is queued; the QSO part then reports whether the QSO goes on. -/
theorem updateQso_of_replies (replies : RepliesIn handler theSlot) {extra : List Char}
    (transmits : replyExtra options handler = some extra) :
    updateQso options theSlot handler =
      { handler with
        txQueue := handler.txQueue ++ [replyText options handler extra]
        qsoState := if handler.qsoState = .reply73 then .idle else handler.qsoState
        txBusy := decide (handler.qsoState ≠ .reply73) } := by
  rw [updateQso_of_active replies.notTimesOut replies.active,
    handleTx_of_replyExtra transmits replies.sameSlot]

theorem replyExtra_of_reply73 (options : Options) (lastReply : handler.qsoState = .reply73) :
    replyExtra options handler = some "73".toList := by
  simp [replyExtra, lastReply]

/-- When the last reply and a CQ are due together, one call queues both. -/
theorem txQueue_of_repliesAndCalls (both : RepliesAndCalls handler theSlot) :
    (updateQsoMachine options theSlot handler).txQueue =
      handler.txQueue ++
        [replyText options handler "73".toList, cqText options] := by
  have qsoPart := updateQso_of_replies both.replies
    (replyExtra_of_reply73 options both.lastReply)
  have free : (updateQso options theSlot handler).txBusy = false := by
    simp [qsoPart, both.lastReply]
  have calls : CallsCq (updateQso options theSlot handler) theSlot := by
    rw [qsoPart]
    exact ⟨both.calls.autoCq, both.calls.active, both.calls.rested⟩
  rw [updateQsoMachine_of_callsCq free calls]
  simp [qsoPart]

theorem txQueue_of_not_repliesAndCalls (separate : ¬ RepliesAndCalls handler theSlot) :
    ∃ pushed, (updateQsoMachine options theSlot handler).txQueue = handler.txQueue ++ pushed ∧
      pushed.length ≤ 1 := by
  have cqAtMost (silent : (updateQso options theSlot handler).txQueue = handler.txQueue) :
      ∃ pushed, (updateQsoMachine options theSlot handler).txQueue =
        handler.txQueue ++ pushed ∧ pushed.length ≤ 1 := by
    rcases updateQsoMachine_cases options theSlot handler with same | queued
    · exact ⟨[], by simp [same, silent]⟩
    · exact ⟨[cqText options], by simp [queued, silent]⟩
  by_cases replies : RepliesIn handler theSlot
  · cases transmits : replyExtra options handler with
    | none => exact cqAtMost (txQueue_updateQso_of_silent (Or.inr transmits))
    | some extra =>
        have qsoPart := updateQso_of_replies replies transmits
        refine ⟨[replyText options handler extra], ?_, by simp⟩
        rw [updateQsoMachine_of_not_callsCq, qsoPart]
        rw [qsoPart]
        rintro ⟨free, auto, active, rested⟩
        exact separate ⟨replies, by simpa using free, auto, active, rested⟩
  · exact cqAtMost (txQueue_updateQso_of_silent (Or.inl replies))

/-- One call queues at most one request, in a state where the two do not
collide and only there. -/
theorem one_request_iff_not_repliesAndCalls (options : Options) (theSlot : Ft8Slot)
    (handler : QsoHandler) :
    (∃ pushed, (updateQsoMachine options theSlot handler).txQueue =
        handler.txQueue ++ pushed ∧ pushed.length ≤ 1) ↔
      ¬ RepliesAndCalls handler theSlot := by
  constructor
  · rintro ⟨pushed, queued, atMostOne⟩ both
    rw [txQueue_of_repliesAndCalls both, List.append_cancel_left_eq] at queued
    simp [← queued] at atMostOne
  · exact txQueue_of_not_repliesAndCalls

/-- In a run from program start, each call of `updateQsoMachine` pushes at most
one request into `tx_queue`. -/
def OneRequestPerUpdate (options : Options) (adiOpens : Bool) (events : List QsoEvent) :
    Prop :=
  ∀ taken ∈ qsoSteps options adiOpens events, ∀ theSlot, taken.event = .update theSlot →
    ∃ pushed, taken.after.txQueue = taken.before.txQueue ++ pushed ∧ pushed.length ≤ 1

/-- A run sends at most one request per slot exactly when none of its slots
owes both the last reply of a QSO and a CQ. -/
theorem oneRequestPerUpdate_iff (options : Options) (adiOpens : Bool)
    (events : List QsoEvent) :
    OneRequestPerUpdate options adiOpens events ↔
      ∀ taken ∈ qsoSteps options adiOpens events, ∀ theSlot,
        taken.event = .update theSlot → ¬ RepliesAndCalls taken.before theSlot := by
  have after {taken} (takenMem : taken ∈ qsoSteps options adiOpens events) {theSlot}
      (isUpdate : taken.event = .update theSlot) :
      taken.after = updateQsoMachine options theSlot taken.before := by
    rw [EventRuns.after_eq_of_mem_steps takenMem, isUpdate]
    rfl
  constructor
  · intro oneRequest taken takenMem theSlot isUpdate
    rw [← one_request_iff_not_repliesAndCalls options theSlot taken.before,
      ← after takenMem isUpdate]
    exact oneRequest taken takenMem theSlot isUpdate
  · intro separate taken takenMem theSlot isUpdate
    rw [after takenMem isUpdate]
    exact (one_request_iff_not_repliesAndCalls options theSlot taken.before).mpr
      (separate taken takenMem theSlot isUpdate)

/-- A QSO that ends while CQ calls are enabled: the peer sends its locator, gets
a report, and answers with RR73 in the next even slot. -/
def qsoEndsWhileCalling : List QsoEvent :=
  [.command (.autoCQ true), .command (.autoQSO true),
    .tick, .message (sampleCall "JO65".toList), .update .even,
    .tick, .update .odd,
    .tick, .message (sampleCall "RR73".toList), .update .even]

/-- In its last call `updateQsoMachine` queues the 73 and a CQ. -/
theorem not_oneRequestPerUpdate_qsoEndsWhileCalling :
    ¬ OneRequestPerUpdate sampleStation true qsoEndsWhileCalling := by
  intro oneRequest
  let earlier := qsoEndsWhileCalling.dropLast
  have both : RepliesAndCalls (qsoRun sampleStation true earlier) .even :=
    { replies := by decide
      lastReply := by decide
      calls := ⟨by decide, by decide, by decide⟩ }
  obtain ⟨pushed, queued, atMostOne⟩ := oneRequest
    ⟨qsoRun sampleStation true earlier, .update .even,
      updateQsoMachine sampleStation .even (qsoRun sampleStation true earlier)⟩
    (EventRuns.mem_steps_iff.mpr ⟨earlier, [], rfl, rfl, rfl⟩) .even rfl
  rw [txQueue_of_repliesAndCalls both, List.append_cancel_left_eq] at queued
  simp [← queued] at atMostOne

end RtlsdrFt8d
