import RtlsdrFt8d.QsoMachineSteps
import RtlsdrFt8d.QsoThread

/-!
# Updates without a tick

The wait loop of `QSOHandler` is left when a tick is queued, and also when the
exit flag is set.  Both ways lead to the same code, so an iteration that finds
no tick still calls `updateQsoMachine`, with an indeterminate slot.
-/

namespace RtlsdrFt8d

variable {options : Options} {adiOpens : Bool} {trace : List ThreadAction}

/-- Every update is made in an iteration that popped a tick, for the slot of its
last tick; an iteration without a tick queues no transmission. -/
structure ActsOnRealTicks (options : Options) (adiOpens : Bool) (trace : List ThreadAction) :
    Prop where
  realSlot : ∀ front theSlot, front ++ [.update theSlot] <+: trace →
    (poppedTicks (currentIteration front)).getLast? = some theSlot
  quiet : ∀ front action, front ++ [action] <+: trace →
    poppedTicks (currentIteration front) = [] →
      (threadRun options adiOpens (front ++ [action])).handler.txQueue =
        (threadRun options adiOpens front).handler.txQueue

/-- The next `tsq_pop` is the first of its iteration and fails. -/
def FindsNoTick (state : ThreadState) : Prop :=
  state.pc = .popTicks ∧ state.tickQueue = [] ∧ state.tickMsg = none

instance (state : ThreadState) : Decidable (FindsNoTick state) :=
  inferInstanceAs (Decidable (_ ∧ _ ∧ _))

/-- In no step of the trace does the handler find no tick. -/
def AlwaysFindsTick (options : Options) (adiOpens : Bool) (trace : List ThreadAction) : Prop :=
  ∀ front, front ++ [.ticksDrained] <+: trace → ¬ FindsNoTick (threadRun options adiOpens front)

/-! ## The slot of an update -/

theorem currentIteration_append_singleton {action : ThreadAction}
    (sameIteration : action ≠ .enterLoop) (trace : List ThreadAction) :
    currentIteration (trace ++ [action]) = currentIteration trace ++ [action] :=
  List.rtakeWhile_concat_pos _ _ _ (by simpa using sameIteration)

theorem currentIteration_enterLoop (trace : List ThreadAction) :
    currentIteration (trace ++ [.enterLoop]) = [] :=
  List.rtakeWhile_concat_neg _ _ _ (by simp)

/-- `tickMsg` holds the last tick of the iteration, or nothing. -/
theorem tickMsg_threadRun (options : Options) (adiOpens : Bool) (trace : List ThreadAction) :
    (threadRun options adiOpens trace).tickMsg =
      (poppedTicks (currentIteration trace)).getLast? := by
  induction trace using List.reverseRecOn with
  | nil => rfl
  | append_singleton earlier action ih =>
      rw [threadRun_append_singleton]
      by_cases newIteration : action = .enterLoop
      · subst newIteration
        rw [currentIteration_enterLoop]
        rfl
      · rw [currentIteration_append_singleton newIteration, poppedTicks_append]
        cases action with
        | enterLoop => contradiction
        | popTick currentSlot => simp [threadStep, poppedTicks]
        | _ =>
            change (threadRun options adiOpens earlier).tickMsg = _
            simp [ih, poppedTicks]

/-- A handler that found a tick has one when it comes to its messages. -/
theorem tickMsg_ne_none (interleaving : Interleaving options adiOpens trace)
    (findsTick : AlwaysFindsTick options adiOpens trace)
    (pastTicks : (threadRun options adiOpens trace).pc = .popMessages ∨
      (threadRun options adiOpens trace).pc = .update) :
    (threadRun options adiOpens trace).tickMsg ≠ none := by
  induction trace using List.reverseRecOn with
  | nil => simp [threadRun, threadStart] at pastTicks
  | append_singleton earlier action ih =>
      obtain ⟨early, enabled⟩ := EventRuns.admissible_append_singleton_iff.mp interleaving
      change ThreadEnabled (threadRun options adiOpens earlier) action at enabled
      have earlierFinds : AlwaysFindsTick options adiOpens earlier :=
        fun front isPrefix => findsTick front (isPrefix.trans (List.prefix_append _ _))
      rw [threadRun_append_singleton] at pastTicks ⊢
      cases action with
      | ticksDrained =>
          intro noTick
          exact findsTick earlier List.prefix_rfl ⟨enabled.1, enabled.2, noTick⟩
      | popTick currentSlot => simp [threadStep]
      | messagesDrained => exact ih early earlierFinds (Or.inl enabled.1)
      | enterLoop | leaveLoop | tickFound | tickMissing | exitSeen | sleep | update =>
          simp [threadStep] at pastTicks
      | beginSlot | pushMessage | pushTick | closeQsoHandler | command | adiFile
        | popMessage => exact ih early earlierFinds pastTicks

theorem txQueue_threadStep (options : Options) (state : ThreadState) {action : ThreadAction}
    (notUpdate : ∀ theSlot, action ≠ .update theSlot) :
    (threadStep options state action).handler.txQueue = state.handler.txQueue := by
  cases action with
  | update theSlot => exact absurd rfl (notUpdate theSlot)
  | command command => cases command <;> rfl
  | popMessage qsoMsg => exact txQueue_dispatch options qsoMsg state.handler
  | _ => rfl

/-- As long as the handler finds a tick in every iteration, the QSO machine acts
on real ticks only. -/
theorem actsOnRealTicks_of_alwaysFindsTick (options : Options) (adiOpens : Bool)
    (trace : List ThreadAction) (interleaving : Interleaving options adiOpens trace)
    (findsTick : AlwaysFindsTick options adiOpens trace) :
    ActsOnRealTicks options adiOpens trace := by
  have realSlot : ∀ front theSlot, front ++ [.update theSlot] <+: trace →
      (poppedTicks (currentIteration front)).getLast? = some theSlot := by
    intro front theSlot isPrefix
    have early : front <+: trace := (List.prefix_append _ _).trans isPrefix
    obtain ⟨frontInterleaving, atUpdate, slot⟩ := EventRuns.admissible_append_singleton_iff.mp
      (EventRuns.admissible_of_isPrefix isPrefix interleaving)
    have hasTick := tickMsg_ne_none frontInterleaving
      (fun first isFirst => findsTick first (isFirst.trans early)) (Or.inr atUpdate)
    rw [← tickMsg_threadRun options adiOpens front]
    exact slot.resolve_left hasTick
  refine ⟨realSlot, ?_⟩
  intro front action isPrefix noTick
  rw [threadRun_append_singleton]
  apply txQueue_threadStep
  rintro theSlot rfl
  have slot := realSlot front theSlot isPrefix
  simp [noTick] at slot

theorem alwaysFindsTick_of_take
    (findsTick : ∀ count < trace.length, (trace.drop count).head? = some .ticksDrained →
      ¬ FindsNoTick (threadRun options adiOpens (trace.take count))) :
    AlwaysFindsTick options adiOpens trace := by
  rintro front ⟨later, rfl⟩
  have atFront := findsTick front.length (by simp)
  rw [List.append_assoc, List.drop_left, List.take_left] at atFront
  exact atFront rfl

/-- The tick arrives while the handler sleeps. -/
def awaitedTick : List ThreadAction :=
  [.enterLoop, .tickMissing, .beginSlot .even, .pushTick .even, .sleep, .tickFound,
    .popTick .even, .ticksDrained, .messagesDrained, .update .even]

theorem actsOnRealTicks_awaitedTick : ActsOnRealTicks sampleStation true awaitedTick :=
  actsOnRealTicks_of_alwaysFindsTick sampleStation true awaitedTick (by decide)
    (alwaysFindsTick_of_take (by decide))

/-! ## Shutting down -/

/-- The handler can always drain the queued messages. -/
theorem drainMessages_admissible (options : Options) {state : ThreadState}
    (pops : state.pc = .popMessages) :
    EventRuns.Admissible ThreadEnabled (threadStep options) state
        (state.qsohQueue.map .popMessage) ∧
      (EventRuns.run (threadStep options) state (state.qsohQueue.map .popMessage)).pc =
        .popMessages ∧
      (EventRuns.run (threadStep options) state
        (state.qsohQueue.map .popMessage)).qsohQueue = [] ∧
      (EventRuns.run (threadStep options) state (state.qsohQueue.map .popMessage)).tickMsg =
        state.tickMsg := by
  induction queue : state.qsohQueue generalizing state with
  | nil => exact ⟨trivial, pops, queue, rfl⟩
  | cons qsoMsg rest ih =>
      have nextPops : (threadStep options state (.popMessage qsoMsg)).pc = .popMessages := pops
      have tail : (threadStep options state (.popMessage qsoMsg)).qsohQueue = rest := by
        simp [threadStep, queue]
      obtain ⟨admissible, reached⟩ := ih nextPops tail
      refine ⟨⟨⟨pops, ?_⟩, admissible⟩, reached⟩
      rw [queue]
      rfl

/-- A handler that finds no tick goes on to drain the messages and to update the
machine without one. -/
theorem exists_update_of_findsNoTick (interleaving : Interleaving options adiOpens trace)
    (noTick : FindsNoTick (threadRun options adiOpens trace)) (theSlot : Ft8Slot) :
    ∃ front, trace <+: front ∧ Interleaving options adiOpens (front ++ [.update theSlot]) ∧
      poppedTicks (currentIteration front) = [] := by
  obtain ⟨pops, empty, unset⟩ := noTick
  let atMessages := threadStep options (threadRun options adiOpens trace) .ticksDrained
  obtain ⟨admissible, stillPops, drained, stillUnset⟩ :=
    drainMessages_admissible options (show atMessages.pc = .popMessages from rfl)
  let drain : List ThreadAction :=
    .ticksDrained :: (atMessages.qsohQueue.map .popMessage ++ [.messagesDrained])
  have reached : threadRun options adiOpens (trace ++ drain) =
      threadStep options (EventRuns.run (threadStep options) atMessages
        (atMessages.qsohQueue.map .popMessage)) .messagesDrained := by
    simp [threadRun, drain, atMessages]
  have drains : Interleaving options adiOpens (trace ++ drain) := by
    apply EventRuns.admissible_append_iff.mpr
    refine ⟨interleaving, ⟨pops, empty⟩, ?_⟩
    exact EventRuns.admissible_append_singleton_iff.mpr ⟨admissible, stillPops, drained⟩
  have noSlot : (threadRun options adiOpens (trace ++ drain)).tickMsg = none := by
    rw [reached]
    exact stillUnset.trans unset
  refine ⟨trace ++ drain, List.prefix_append _ _, ?_, ?_⟩
  · apply EventRuns.admissible_append_singleton_iff.mpr
    refine ⟨drains, ?_, Or.inl noSlot⟩
    change (threadRun options adiOpens (trace ++ drain)).pc = .update
    rw [reached]
    rfl
  · rw [tickMsg_threadRun] at noSlot
    exact List.getLast?_eq_none_iff.mp noSlot

/-- The operator stops the program while the handler waits for a tick. -/
def shutdownTrace : List ThreadAction :=
  [.command (.autoCQ true), .enterLoop, .tickMissing, .closeQsoHandler, .exitSeen,
    .ticksDrained, .messagesDrained]

/-- The shutdown sends a last CQ. -/
theorem not_actsOnRealTicks_shutdownTrace :
    Interleaving sampleStation true (shutdownTrace ++ [.update .even]) ∧
      ¬ ActsOnRealTicks sampleStation true (shutdownTrace ++ [.update .even]) := by
  refine ⟨by decide, ?_⟩
  intro realTicks
  have quiet := realTicks.quiet shutdownTrace (.update .even) List.prefix_rfl (by decide)
  revert quiet
  decide

end RtlsdrFt8d
