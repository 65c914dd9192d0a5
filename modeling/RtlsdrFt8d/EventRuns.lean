import Mathlib.Data.List.Basic
import Mathlib.Data.List.Infix

/-!
# Runs of an event-driven machine

A machine that reacts to one event at a time is a function from a state and an
event to the next state.  This file records its runs as lists of steps, gives
the induction rules for invariants of states and of steps, and isolates the
steps of the current *episode*: those since the machine last became active.
-/

namespace EventRuns

variable {State Event : Type*}

/-- One reaction, with the states around it. -/
structure Step (State Event : Type*) where
  before : State
  event : Event
  after : State

def run (step : State → Event → State) (start : State) (events : List Event) : State :=
  events.foldl step start

def steps (step : State → Event → State) : State → List Event → List (Step State Event)
  | _, [] => []
  | state, event :: events =>
      ⟨state, event, step state event⟩ :: steps step (step state event) events

variable {step : State → Event → State} {start : State} {events more : List Event}

@[simp]
theorem run_nil : run step start [] = start :=
  rfl

@[simp]
theorem run_cons (event : Event) :
    run step start (event :: events) = run step (step start event) events :=
  rfl

@[simp]
theorem run_append :
    run step start (events ++ more) = run step (run step start events) more := by
  simp [run]

/-- Events that come in batches are as good as one sequence of events. -/
theorem run_flatMap {Batch : Type*} (step : State → Event → State) (events : Batch → List Event)
    (start : State) (batches : List Batch) :
    run step start (batches.flatMap events) =
      run (fun state batch => run step state (events batch)) start batches := by
  induction batches generalizing start with
  | nil => rfl
  | cons batch batches ih => rw [List.flatMap_cons, run_append, ih, run_cons]

@[simp]
theorem steps_nil : steps step start [] = [] :=
  rfl

theorem steps_append :
    steps step start (events ++ more) =
      steps step start events ++ steps step (run step start events) more := by
  induction events generalizing start with
  | nil => rfl
  | cons event events ih => simp [steps, ih]

theorem steps_append_singleton (event : Event) :
    steps step start (events ++ [event]) =
      steps step start events ++
        [⟨run step start events, event, step (run step start events) event⟩] := by
  simp [steps_append, steps]

/-- A step of a run starts in the state that some prefix of the events
reaches. -/
theorem mem_steps_iff {taken : Step State Event} :
    taken ∈ steps step start events ↔
      ∃ earlier later, events = earlier ++ taken.event :: later ∧
        taken.before = run step start earlier ∧
        taken.after = step taken.before taken.event := by
  induction events generalizing start with
  | nil => simp [steps]
  | cons event events ih =>
      rw [steps, List.mem_cons, ih]
      constructor
      · rintro (rfl | ⟨earlier, later, rfl, before, after⟩)
        · exact ⟨[], events, rfl, rfl, rfl⟩
        · exact ⟨event :: earlier, later, rfl, before, after⟩
      · rintro ⟨earlier, later, split, before, after⟩
        cases earlier with
        | nil =>
            obtain ⟨rfl, rfl⟩ := List.cons.inj split
            left
            cases taken
            simp_all
        | cons first earlier =>
            obtain ⟨rfl, rfl⟩ := List.cons.inj split
            exact Or.inr ⟨earlier, later, rfl, before, after⟩

theorem after_eq_of_mem_steps {taken : Step State Event}
    (takenMem : taken ∈ steps step start events) :
    taken.after = step taken.before taken.event := by
  obtain ⟨-, -, -, -, after⟩ := mem_steps_iff.mp takenMem
  exact after

/-- What holds at the start and survives every step holds after every run. -/
theorem run_induction (Invariant : State → Prop) (atStart : Invariant start)
    (preserved : ∀ state event, Invariant state → Invariant (step state event))
    (events : List Event) : Invariant (run step start events) := by
  induction events generalizing start with
  | nil => exact atStart
  | cons event events ih => exact ih (preserved start event atStart)

/-! ## Guarded events -/

section Admissible

variable (Enabled : State → Event → Prop) (step : State → Event → State)

/-- Every event is enabled in the state that the earlier ones reach. -/
def Admissible : State → List Event → Prop
  | _, [] => True
  | state, event :: events => Enabled state event ∧ Admissible (step state event) events

instance decidableAdmissible [∀ state event, Decidable (Enabled state event)] :
    ∀ (start : State) (events : List Event), Decidable (Admissible Enabled step start events)
  | _, [] => isTrue trivial
  | state, event :: events =>
      @instDecidableAnd _ _ _ (decidableAdmissible (step state event) events)

variable {Enabled step}

theorem admissible_append_iff :
    Admissible Enabled step start (events ++ more) ↔
      Admissible Enabled step start events ∧
        Admissible Enabled step (run step start events) more := by
  induction events generalizing start with
  | nil => simp [Admissible]
  | cons event events ih =>
      rw [List.cons_append, Admissible, Admissible, ih, run_cons, and_assoc]

theorem admissible_append_singleton_iff {event : Event} :
    Admissible Enabled step start (events ++ [event]) ↔
      Admissible Enabled step start events ∧ Enabled (run step start events) event := by
  rw [admissible_append_iff, Admissible, Admissible, and_true]

theorem admissible_of_isPrefix {earlier : List Event} (isPrefix : earlier <+: events)
    (admissible : Admissible Enabled step start events) :
    Admissible Enabled step start earlier := by
  obtain ⟨later, rfl⟩ := isPrefix
  exact (admissible_append_iff.mp admissible).1

/-- The induction rule for invariants that relate a state to the events that
led to it. -/
theorem admissible_induction (Invariant : List Event → State → Prop)
    (atStart : Invariant [] start)
    (preserved : ∀ earlier state event, Invariant earlier state → Enabled state event →
      Invariant (earlier ++ [event]) (step state event))
    (admissible : Admissible Enabled step start events) :
    Invariant events (run step start events) := by
  induction events using List.reverseRecOn with
  | nil => exact atStart
  | append_singleton earlier event ih =>
      obtain ⟨early, enabled⟩ := admissible_append_singleton_iff.mp admissible
      rw [run_append]
      exact preserved earlier _ event (ih early) enabled

/-- An invariant of the enabled events holds in every state of a run. -/
theorem admissible_invariant {Invariant : State → Prop} (atStart : Invariant start)
    (preserved : ∀ state event, Invariant state → Enabled state event →
      Invariant (step state event))
    (admissible : Admissible Enabled step start events) {earlier : List Event}
    (isPrefix : earlier <+: events) : Invariant (run step start earlier) :=
  admissible_induction (fun _ => Invariant) atStart (fun _ => preserved)
    (admissible_of_isPrefix isPrefix admissible)

/-- What an invariant guarantees of the enabled events holds of every step. -/
theorem admissible_of_invariant {Guaranteed : State → Event → Prop} {Invariant : State → Prop}
    (atStart : Invariant start)
    (preserved : ∀ state event, Invariant state → Enabled state event →
      Invariant (step state event))
    (guaranteed : ∀ state event, Invariant state → Enabled state event →
      Guaranteed state event)
    (admissible : Admissible Enabled step start events) :
    Admissible Guaranteed step start events := by
  induction events generalizing start with
  | nil => trivial
  | cons event events ih =>
      obtain ⟨enabled, rest⟩ := admissible
      exact ⟨guaranteed start event atStart enabled,
        ih (preserved start event atStart enabled) rest⟩

theorem admissible_of_forall {Careful : Event → Prop}
    (always : ∀ event ∈ events, Careful event) :
    Admissible (fun _ event => Careful event) step start events := by
  induction events generalizing start with
  | nil => trivial
  | cons event events ih =>
      rw [List.forall_mem_cons] at always
      exact ⟨always.1, ih always.2⟩

theorem admissible_and {Careful : State → Event → Prop}
    (admissible : Admissible Enabled step start events)
    (careful : Admissible Careful step start events) :
    Admissible (fun state event => Enabled state event ∧ Careful state event)
      step start events := by
  induction events generalizing start with
  | nil => trivial
  | cons event events ih =>
      exact ⟨⟨admissible.1, careful.1⟩, ih admissible.2 careful.2⟩

/-- Where the invariant of the careful events guarantees a property and every
other event destroys it, the careful runs are those that have the property
throughout. -/
theorem forall_isPrefix_iff_admissible {Careful : State → Event → Prop}
    {Holds Invariant : State → Prop} (atStart : Invariant start)
    (preserved : ∀ state event, Invariant state → Enabled state event → Careful state event →
      Invariant (step state event))
    (guaranteed : ∀ state, Invariant state → Holds state)
    (destroyed : ∀ state event, Invariant state → Enabled state event →
      ¬ Careful state event → ¬ Holds (step state event))
    (admissible : Admissible Enabled step start events) :
    (∀ earlier, earlier <+: events → Holds (run step start earlier)) ↔
      Admissible Careful step start events := by
  constructor
  · intro always
    induction events using List.reverseRecOn with
    | nil => trivial
    | append_singleton earlier event ih =>
        obtain ⟨early, enabled⟩ := admissible_append_singleton_iff.mp admissible
        have careful := ih early fun part isPrefix =>
          always part (isPrefix.trans (List.prefix_append _ _))
        refine admissible_append_singleton_iff.mpr ⟨careful, ?_⟩
        by_contra careless
        have invariant : Invariant (run step start earlier) :=
          admissible_invariant atStart
            (fun state event invariant both => preserved state event invariant both.1 both.2)
            (admissible_and early careful) List.prefix_rfl
        apply destroyed _ event invariant enabled careless
        simpa using always (earlier ++ [event]) List.prefix_rfl
  · intro careful earlier isPrefix
    apply guaranteed
    exact admissible_invariant atStart
      (fun state event invariant both => preserved state event invariant both.1 both.2)
      (admissible_and admissible careful) isPrefix

end Admissible

/-! ## Additional events -/

/-- The events of a stream, the additional ones (marked `true`) included. -/
def received (stream : List (Event × Bool)) : List Event :=
  stream.map Prod.fst

/-- The same events without the additional ones. -/
def undisturbed (stream : List (Event × Bool)) : List Event :=
  (stream.filter fun entry => !entry.2).map Prod.fst

/-- Additional events that the machine ignores where they arrive do not change
its run. -/
theorem run_undisturbed {stream : List (Event × Bool)}
    (ignored : ∀ earlier event, earlier ++ [(event, true)] <+: stream →
      step (run step start (received earlier)) event = run step start (received earlier)) :
    run step start (undisturbed stream) = run step start (received stream) := by
  induction stream using List.reverseRecOn with
  | nil => rfl
  | append_singleton earlier entry ih =>
      have same := ih fun before event isPrefix =>
        ignored before event (isPrefix.trans (List.prefix_append _ _))
      obtain ⟨event, additional⟩ := entry
      cases additional with
      | true =>
          have noEffect := ignored earlier event List.prefix_rfl
          simpa [received, undisturbed, noEffect] using same.trans noEffect.symm
      | false =>
          have parts : undisturbed (earlier ++ [(event, false)]) =
              undisturbed earlier ++ [event] := by
            simp [undisturbed]
          rw [parts, run_append, same]
          simp [received]

/-! ## Activations -/

section Activations

variable (step start) (active : State → Bool) in
/-- The run `events` has been active ever since its part `earlier`, after which
the machine was idle for the last time. -/
structure ActiveSince (earlier events : List Event) : Prop where
  wasIdle : active (run step start earlier) = false
  isPrefix : earlier <+: events
  staysActive : ∀ between, earlier <+: between → between ≠ earlier → between <+: events →
    active (run step start between) = true

variable {active : State → Bool}

theorem activeSince_append_singleton {earlier : List Event}
    (since : ActiveSince step start active earlier events) {event : Event}
    (isActive : active (run step start (events ++ [event])) = true) :
    ActiveSince step start active earlier (events ++ [event]) := by
  refine ⟨since.wasIdle, since.isPrefix.trans (List.prefix_append _ _), ?_⟩
  intro between isAfter notEarlier isPrefix
  rcases List.prefix_concat_iff.mp isPrefix with whole | early
  · rwa [whole]
  · exact since.staysActive between isAfter notEarlier early

variable (active) in
/-- A machine that starts idle and is active now was activated at some time. -/
theorem exists_activeSince (startIdle : active start = false)
    (isActive : active (run step start events) = true) :
    ∃ earlier, ActiveSince step start active earlier events := by
  induction events using List.reverseRecOn with
  | nil => simp_all
  | append_singleton events event ih =>
      cases wasActive : active (run step start events) with
      | true =>
          obtain ⟨earlier, since⟩ := ih wasActive
          exact ⟨earlier, activeSince_append_singleton since isActive⟩
      | false =>
          refine ⟨events, wasActive, List.prefix_append _ _, ?_⟩
          intro between isAfter notEarlier isPrefix
          rcases List.prefix_concat_iff.mp isPrefix with whole | early
          · rwa [whole]
          · exact absurd (isAfter.eq_of_length_le early.length_le).symm notEarlier

/-- The induction rule for what an activation establishes and every step of an
active machine keeps. -/
theorem activeSince_induction {earlier : List Event} (Holds : State → Prop)
    (begins : ∀ event, active (step (run step start earlier) event) = true →
      Holds (step (run step start earlier) event))
    (continues : ∀ state event, active state = true → active (step state event) = true →
      Holds state → Holds (step state event))
    (since : ActiveSince step start active earlier events)
    (isActive : active (run step start events) = true) : Holds (run step start events) := by
  obtain ⟨later, rfl⟩ := since.isPrefix
  induction later using List.reverseRecOn with
  | nil => simp_all [since.wasIdle]
  | append_singleton later event ih =>
      have split : earlier ++ (later ++ [event]) = (earlier ++ later) ++ [event] := by simp
      rw [split, run_append, run_cons, run_nil] at isActive ⊢
      by_cases first : later = []
      · subst first
        simp only [List.append_nil] at isActive ⊢
        exact begins event isActive
      · have isPrefix : earlier ++ later <+: earlier ++ (later ++ [event]) := by
          rw [split]
          exact List.prefix_append _ _
        have wasActive := since.staysActive (earlier ++ later) (List.prefix_append _ _)
          (by simpa using first) isPrefix
        apply continues _ _ wasActive isActive
        apply ih _ wasActive
        exact ⟨since.wasIdle, List.prefix_append _ _, fun between isAfter notEarlier early =>
          since.staysActive between isAfter notEarlier (early.trans isPrefix)⟩

end Activations

/-! ## Episodes -/

section Episodes

variable (active : State → Bool)

/-- Extend the current episode by one step: a step from an active state
continues it, a step that activates the machine begins a new one. -/
def extendEpisode (episode : List (Step State Event)) (taken : Step State Event) :
    List (Step State Event) :=
  if active taken.before then episode ++ [taken]
  else if active taken.after then [taken]
  else []

/-- The steps since the machine last became active.  The step that ends the
activity is the last one of its episode. -/
def episode (taken : List (Step State Event)) : List (Step State Event) :=
  taken.foldl (extendEpisode active) []

variable {active}

@[simp]
theorem episode_nil : episode active ([] : List (Step State Event)) = [] :=
  rfl

theorem episode_append_singleton (earlier : List (Step State Event))
    (last : Step State Event) :
    episode active (earlier ++ [last]) =
      extendEpisode active (episode active earlier) last := by
  simp [episode]

theorem episode_of_active_before {earlier : List (Step State Event)}
    {last : Step State Event} (isActive : active last.before = true) :
    episode active (earlier ++ [last]) = episode active earlier ++ [last] := by
  simp [episode_append_singleton, extendEpisode, isActive]

theorem episode_of_begins {earlier : List (Step State Event)} {last : Step State Event}
    (wasIdle : active last.before = false) (isActive : active last.after = true) :
    episode active (earlier ++ [last]) = [last] := by
  simp [episode_append_singleton, extendEpisode, wasIdle, isActive]

theorem episode_of_idle {earlier : List (Step State Event)} {last : Step State Event}
    (wasIdle : active last.before = false) (isIdle : active last.after = false) :
    episode active (earlier ++ [last]) = [] := by
  simp [episode_append_singleton, extendEpisode, wasIdle, isIdle]

theorem episode_isSuffix (taken : List (Step State Event)) :
    episode active taken <:+ taken := by
  induction taken using List.reverseRecOn with
  | nil => simp
  | append_singleton earlier last ih =>
      rw [episode_append_singleton, extendEpisode]
      split
      · obtain ⟨front, split⟩ := ih
        exact ⟨front, by rw [← List.append_assoc, split]⟩
      · split
        · exact List.suffix_append earlier [last]
        · exact List.nil_suffix

theorem mem_of_mem_episode {taken : List (Step State Event)} {one : Step State Event}
    (oneMem : one ∈ episode active taken) : one ∈ taken :=
  (episode_isSuffix taken).subset oneMem

variable (step active) in
/-- The induction rule for properties of episodes.  It is enough to look at
the step that begins an episode and at those that continue it. -/
theorem episode_induction (Holds : List (Step State Event) → State → Prop)
    (begins : ∀ taken : Step State Event, taken.after = step taken.before taken.event →
      active taken.before = false → active taken.after = true →
        Holds [taken] taken.after)
    (continues : ∀ (earlier : List (Step State Event)) (taken : Step State Event),
      taken.after = step taken.before taken.event → active taken.before = true →
        active taken.after = true → Holds earlier taken.before →
          Holds (earlier ++ [taken]) taken.after)
    (startIdle : active start = false) (events : List Event)
    (isActive : active (run step start events) = true) :
    Holds (episode active (steps step start events)) (run step start events) := by
  induction events using List.reverseRecOn with
  | nil => simp_all
  | append_singleton events event ih =>
      rw [steps_append_singleton, run_append]
      cases wasActive : active (run step start events) with
      | true =>
          rw [episode_of_active_before wasActive]
          rw [run_append] at isActive
          exact continues _ ⟨_, _, _⟩ rfl wasActive isActive (ih wasActive)
      | false =>
          rw [run_append] at isActive
          rw [episode_of_begins wasActive isActive]
          exact begins ⟨_, _, _⟩ rfl wasActive isActive

/-- While the machine is active, every step of its episode left it active. -/
theorem active_after_of_mem_episode (startIdle : active start = false)
    (isActive : active (run step start events) = true)
    {taken : Step State Event} (takenMem : taken ∈ episode active (steps step start events)) :
    active taken.after = true := by
  refine episode_induction step active
    (fun episode _ => ∀ one ∈ episode, active one.after = true)
    ?_ ?_ startIdle events isActive taken takenMem
  · intro first _ _ firstActive one oneMem
    rwa [List.mem_singleton.mp oneMem]
  · intro earlier last _ _ lastActive ih one oneMem
    rcases List.mem_append.mp oneMem with early | isLast
    · exact ih one early
    · rwa [List.mem_singleton.mp isLast]

end Episodes

end EventRuns
