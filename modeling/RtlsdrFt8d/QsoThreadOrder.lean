import RtlsdrFt8d.QsoLifetime
import RtlsdrFt8d.QsoThread

/-!
# Order of messages, ticks and updates

The decoder pushes the messages of a slot before its tick, and `QSOHandler`
drains the ticks before the messages.  The messages of a slot are therefore
handled before the update that follows its tick, however the two threads are
interleaved.
-/

namespace RtlsdrFt8d

variable {options : Options} {adiOpens : Bool} {trace : List ThreadAction}

/-! ## The queues -/

/-- One action moves messages from the decoder to the queue or from the queue
to the handler. -/
theorem qsohQueue_threadStep (options : Options) {state : ThreadState} {action : ThreadAction}
    (enabled : ThreadEnabled state action) :
    poppedMessages [action] ++ (threadStep options state action).qsohQueue =
      state.qsohQueue ++ pushedMessages [action] := by
  cases action with
  | popMessage qsoMsg =>
      obtain ⟨rest, queue⟩ := List.head?_eq_some_iff.mp enabled.2
      simp [poppedMessages, pushedMessages, threadStep, queue]
  | _ => simp [poppedMessages, pushedMessages, threadStep]

theorem tickQueue_threadStep (options : Options) {state : ThreadState} {action : ThreadAction}
    (enabled : ThreadEnabled state action) :
    poppedTicks [action] ++ (threadStep options state action).tickQueue =
      state.tickQueue ++ pushedTicks [action] := by
  cases action with
  | popTick currentSlot =>
      obtain ⟨rest, queue⟩ := List.head?_eq_some_iff.mp enabled.2
      simp [poppedTicks, pushedTicks, threadStep, queue]
  | _ => simp [poppedTicks, pushedTicks, threadStep]

/-- Messages are handled exactly once and in the order of the pushes; those not
yet handled are queued. -/
theorem poppedMessages_append_qsohQueue (interleaving : Interleaving options adiOpens trace) :
    poppedMessages trace ++ (threadRun options adiOpens trace).qsohQueue =
      pushedMessages trace := by
  apply EventRuns.admissible_induction (fun events (state : ThreadState) =>
    poppedMessages events ++ state.qsohQueue = pushedMessages events) rfl _ interleaving
  intro earlier state action inOrder enabled
  rw [poppedMessages_append, pushedMessages_append, List.append_assoc,
    qsohQueue_threadStep options enabled, ← inOrder, List.append_assoc]

theorem poppedTicks_append_tickQueue (interleaving : Interleaving options adiOpens trace) :
    poppedTicks trace ++ (threadRun options adiOpens trace).tickQueue = pushedTicks trace := by
  apply EventRuns.admissible_induction (fun events (state : ThreadState) =>
    poppedTicks events ++ state.tickQueue = pushedTicks events) rfl _ interleaving
  intro earlier state action inOrder enabled
  rw [poppedTicks_append, pushedTicks_append, List.append_assoc,
    tickQueue_threadStep options enabled, ← inOrder, List.append_assoc]

/-! ## The handler -/

/-- Whatever the interleaving, the handler's variables go through a run of the
QSO machine. -/
theorem handler_threadRun (options : Options) (adiOpens : Bool) (trace : List ThreadAction) :
    (threadRun options adiOpens trace).handler =
      qsoRun options adiOpens (handlerEvents trace) := by
  have oneStep (state : ThreadState) (action : ThreadAction) :
      (threadStep options state action).handler =
        EventRuns.run (qsoStep options) state.handler (handlerEvents [action]) := by
    cases action <;> rfl
  induction trace using List.reverseRecOn with
  | nil => rfl
  | append_singleton earlier action ih =>
      rw [threadRun_append_singleton, oneStep, ih, handlerEvents_append, qsoRun, qsoRun,
        EventRuns.run_append]

theorem ticksIn_handlerEvents (trace : List ThreadAction) :
    ticksIn (handlerEvents trace) = (poppedTicks trace).length := by
  induction trace using List.reverseRecOn with
  | nil => rfl
  | append_singleton earlier action ih =>
      rw [handlerEvents_append, ticksIn_append, ih, poppedTicks_append, List.length_append]
      congr 1
      cases action <;> rfl

theorem ft8tick_threadRun (options : Options) (adiOpens : Bool) (trace : List ThreadAction) :
    (threadRun options adiOpens trace).handler.ft8tick =
      UInt32.ofNat (poppedTicks trace).length := by
  rw [handler_threadRun, ft8tick_qsoRun, ticksIn_handlerEvents]

/-! ## Messages before updates -/

/-- Every message pushed before a popped tick has been handled. -/
def SlotsHandled (trace : List ThreadAction) : Prop :=
  ∀ earlier currentSlot, earlier ++ [.pushTick currentSlot] <+: trace →
    (pushedTicks earlier).length < (poppedTicks trace).length →
      pushedMessages earlier <+: poppedMessages trace

theorem pushedMessages_prefix {earlier : List ThreadAction} (isPrefix : earlier <+: trace) :
    pushedMessages earlier <+: pushedMessages trace :=
  isPrefix.filterMap _

/-- A drained queue means that everything pushed so far has been handled. -/
theorem slotsHandled_of_qsohQueue_eq_nil (interleaving : Interleaving options adiOpens trace)
    (drained : (threadRun options adiOpens trace).qsohQueue = []) : SlotsHandled trace := by
  intro earlier currentSlot isPrefix _
  have allHandled := poppedMessages_append_qsohQueue interleaving
  rw [drained, List.append_nil] at allHandled
  rw [allHandled]
  exact pushedMessages_prefix ((List.prefix_append _ _).trans isPrefix)

/-- Until the next tick is popped, new messages and ticks belong to later
slots. -/
theorem slotsHandled_append_singleton (interleaving : Interleaving options adiOpens trace)
    (handled : SlotsHandled trace) {action : ThreadAction} (noTick : poppedTicks [action] = []) :
    SlotsHandled (trace ++ [action]) := by
  intro earlier currentSlot isPrefix popped
  rw [poppedTicks_append, noTick, List.append_nil] at popped
  rcases List.prefix_concat_iff.mp isPrefix with isLast | early
  · obtain ⟨rfl, -⟩ := List.append_inj' isLast rfl
    have notMore := congrArg List.length (poppedTicks_append_tickQueue interleaving)
    rw [List.length_append] at notMore
    omega
  · rw [poppedMessages_append]
    exact (handled earlier currentSlot early popped).trans (List.prefix_append _ _)

/-- `QSOHandler` comes to its update only by draining the messages. -/
theorem slotsHandled_of_pc_eq_update (interleaving : Interleaving options adiOpens trace)
    (atUpdate : (threadRun options adiOpens trace).pc = .update) : SlotsHandled trace := by
  induction trace using List.reverseRecOn with
  | nil => contradiction
  | append_singleton earlier action ih =>
      obtain ⟨early, enabled⟩ := EventRuns.admissible_append_singleton_iff.mp interleaving
      change ThreadEnabled (threadRun options adiOpens earlier) action at enabled
      rw [threadRun_append_singleton] at atUpdate
      cases action with
      | messagesDrained =>
          apply slotsHandled_append_singleton early _ rfl
          exact slotsHandled_of_qsohQueue_eq_nil early enabled.2
      | popTick currentSlot =>
          have pops : (threadRun options adiOpens earlier).pc = .popTicks := enabled.1
          rw [threadStep, pops] at atUpdate
          contradiction
      | beginSlot | pushMessage | pushTick | closeQsoHandler | command | adiFile =>
          exact slotsHandled_append_singleton early (ih early atUpdate) rfl
      | popMessage qsoMsg =>
          have pops : (threadRun options adiOpens earlier).pc = .popMessages := enabled.1
          rw [threadStep, pops] at atUpdate
          contradiction
      | enterLoop | leaveLoop | tickFound | tickMissing | exitSeen | sleep | ticksDrained
        | update => contradiction

/-! ## Every interleaving -/

/-- Messages and ticks are taken in the order of their pushes, an update finds
the messages of every popped tick's slot handled, and the tick counter counts
the popped ticks in 32 bits. -/
structure ActsInOrder (options : Options) (adiOpens : Bool) (trace : List ThreadAction) :
    Prop where
  messagesInOrder :
    poppedMessages trace ++ (threadRun options adiOpens trace).qsohQueue = pushedMessages trace
  ticksInOrder :
    poppedTicks trace ++ (threadRun options adiOpens trace).tickQueue = pushedTicks trace
  handledBeforeUpdate :
    ∀ front theSlot, front ++ [.update theSlot] <+: trace → SlotsHandled front
  tickCount :
    (threadRun options adiOpens trace).handler.ft8tick.toNat =
      (poppedTicks trace).length % 2 ^ 32

theorem actsInOrder (options : Options) (adiOpens : Bool) (trace : List ThreadAction)
    (interleaving : Interleaving options adiOpens trace) :
    ActsInOrder options adiOpens trace := by
  constructor
  · exact poppedMessages_append_qsohQueue interleaving
  · exact poppedTicks_append_tickQueue interleaving
  · intro front theSlot isPrefix
    obtain ⟨early, enabled⟩ := EventRuns.admissible_append_singleton_iff.mp
      (EventRuns.admissible_of_isPrefix isPrefix interleaving)
    exact slotsHandled_of_pc_eq_update early enabled.1
  · rw [ft8tick_threadRun, UInt32.toNat_ofNat']

/-- A call arrives while the handler waits, a second one while it drains the
ticks. -/
def twoCallsTrace : List ThreadAction :=
  [.enterLoop, .beginSlot .even, .pushMessage (sampleCall "JO65".toList), .pushTick .even,
    .tickFound, .popTick .even, .beginSlot .even, .pushMessage (sampleCall "-03".toList),
    .ticksDrained, .popMessage (sampleCall "JO65".toList), .pushTick .even,
    .popMessage (sampleCall "-03".toList), .messagesDrained, .update .even]

theorem actsInOrder_twoCallsTrace : ActsInOrder sampleStation true twoCallsTrace :=
  actsInOrder sampleStation true twoCallsTrace (by decide)

/-- The decoder works through `count` slots without a message. -/
def emptySlots (count : Nat) : List ThreadAction :=
  (List.replicate count [.beginSlot .even, .pushTick .even]).flatten

/-- Then the handler pops their ticks. -/
def tickBacklog (count : Nat) : List ThreadAction :=
  emptySlots count ++ ([.enterLoop, .tickFound] ++ List.replicate count (.popTick .even))

theorem emptySlots_succ (count : Nat) :
    emptySlots (count + 1) = emptySlots count ++ [.beginSlot .even, .pushTick .even] := by
  simp [emptySlots, List.replicate_succ']

theorem interleaving_emptySlots (options : Options) (adiOpens : Bool) (count : Nat) :
    Interleaving options adiOpens (emptySlots count) ∧
      (threadRun options adiOpens (emptySlots count)).thisSlot = none ∧
      (threadRun options adiOpens (emptySlots count)).pc = .loopTest ∧
      (threadRun options adiOpens (emptySlots count)).qsoExit = false := by
  induction count with
  | zero => exact ⟨trivial, rfl, rfl, rfl⟩
  | succ count ih =>
      obtain ⟨early, betweenSlots, atTest, noExit⟩ := ih
      unfold Interleaving
      rw [emptySlots_succ, EventRuns.admissible_append_iff, threadRun, EventRuns.run_append]
      exact ⟨⟨early, betweenSlots, rfl, trivial⟩, rfl, atTest, noExit⟩

theorem pushedTicks_emptySlots (count : Nat) :
    pushedTicks (emptySlots count) = List.replicate count .even := by
  induction count with
  | zero => rfl
  | succ count ih =>
      rw [emptySlots_succ, pushedTicks_append, ih, List.replicate_succ']
      rfl

theorem poppedTicks_emptySlots (count : Nat) : poppedTicks (emptySlots count) = [] := by
  induction count with
  | zero => rfl
  | succ count ih =>
      rw [emptySlots_succ, poppedTicks_append, ih]
      rfl

theorem admissible_popTicks (options : Options) (count : Nat) {state : ThreadState}
    (pops : state.pc = .popTicks) (queue : state.tickQueue = List.replicate count .even) :
    EventRuns.Admissible ThreadEnabled (threadStep options) state
      (List.replicate count (.popTick .even)) := by
  induction count generalizing state with
  | zero => trivial
  | succ count ih =>
      rw [List.replicate_succ] at queue ⊢
      refine ⟨⟨pops, by rw [queue]; rfl⟩, ?_⟩
      have rest : (threadStep options state (.popTick .even)).tickQueue =
          List.replicate count .even := by
        change state.tickQueue.tail = List.replicate count .even
        rw [queue]
        rfl
      exact ih pops rest

theorem interleaving_tickBacklog (options : Options) (adiOpens : Bool) {count : Nat}
    (positive : 0 < count) : Interleaving options adiOpens (tickBacklog count) := by
  obtain ⟨slots, -, atTest, noExit⟩ := interleaving_emptySlots options adiOpens count
  have queue := poppedTicks_append_tickQueue slots
  rw [poppedTicks_emptySlots, pushedTicks_emptySlots, List.nil_append] at queue
  have nonempty : (threadRun options adiOpens (emptySlots count)).tickQueue ≠ [] := by
    rw [queue]
    simp [positive.ne']
  apply EventRuns.admissible_append_iff.mpr
  refine ⟨slots, ⟨atTest, noExit⟩, ⟨rfl, nonempty⟩, ?_⟩
  exact admissible_popTicks options count rfl queue

theorem length_poppedTicks_tickBacklog (count : Nat) :
    (poppedTicks (tickBacklog count)).length = count := by
  have pops : poppedTicks (List.replicate count (.popTick .even)) =
      List.replicate count .even := by
    simp [poppedTicks]
  rw [tickBacklog, poppedTicks_append, poppedTicks_append, poppedTicks_emptySlots, pops]
  simp [poppedTicks]

/-- After 2 ^ 32 ticks the counter is back at zero. -/
theorem ft8tick_tickBacklog_ne :
    Interleaving sampleStation true (tickBacklog (2 ^ 32)) ∧
      (threadRun sampleStation true (tickBacklog (2 ^ 32))).handler.ft8tick.toNat ≠
        (poppedTicks (tickBacklog (2 ^ 32))).length := by
  refine ⟨interleaving_tickBacklog sampleStation true (by decide), ?_⟩
  rw [ft8tick_threadRun, UInt32.toNat_ofNat', length_poppedTicks_tickBacklog]
  decide

end RtlsdrFt8d
