import Mathlib.Logic.Relation
import Mathlib.Data.Fintype.Sum
import Mathlib.Tactic.DeriveFintype

/-!
# Contacts between two stations

Two stations take turns: while one transmits, the other one listens.  A contact
goes from a call over the two signal reports to a confirmation and a good-bye.
Signals get lost, a call may be ignored, and either station may give up at the
end of any slot, so the two do not always agree on how far they are.  This file
says what they agree on all the same, and how fast a contact ends that nothing
disturbs any more.
-/

namespace ContactProtocol

/-! ## One station -/

/-- How far a station is with the other one. -/
inductive Phase where
  | away
  | calls
  | reports
  | confirms
  | closes
  deriving DecidableEq

instance : Fintype Phase := derive_fintype% Phase

inductive Signal where
  | cq
  | locator
  | report
  | rogers
  | bye
  deriving DecidableEq

namespace Phase

/-- The phase of a station in contact after a signal of the other one. -/
def after : Phase → Signal → Phase
  | phase, .cq => phase
  | _, .locator => .reports
  | .reports, .report => .confirms
  | _, .report => .reports
  | _, .rogers => .closes
  | _, .bye => .away

/-- The phases that a signal may lead to.  Whether a station that is away takes up
a call is its own choice. -/
def hears (phase : Phase) (signal : Signal) : List Phase :=
  if phase ≠ .away then [phase.after signal]
  else
    match signal with
    | .cq => [.away, .calls]
    | .locator | .report => [.away, .reports]
    | .rogers | .bye => [.away]

theorem hears_of_ne_away {phase : Phase} (inContact : phase ≠ .away) (signal : Signal) :
    phase.hears signal = [phase.after signal] :=
  if_pos inContact

/-- The phases that a station may be in after it listened for a slot.  A station
that is about to say good-bye does so and leaves. -/
def settles : Phase → List Phase
  | .away | .closes => [.away]
  | phase => [phase, .away]

/-- What the other one may hear of a station that transmits in a phase. -/
def sends : Phase → List Signal
  | .away => [.cq, .bye]
  | .calls => [.locator]
  | .reports => [.report]
  | .confirms => [.rogers]
  | .closes => []

end Phase

/-! ## Both stations -/

/-- The phases of the station that transmits and of the one that listens. -/
structure Contact where
  talker : Phase
  listener : Phase
  deriving DecidableEq

namespace Contact

/-- The listener hears a signal, or the two change roles. -/
inductive Step (contact : Contact) : Contact → Prop where
  | hears {signal : Signal} {next : Phase} (isSent : signal ∈ contact.talker.sends)
      (isNext : next ∈ contact.listener.hears signal) : Step contact ⟨contact.talker, next⟩
  | slotEnds {talker listener : Phase} (speaks : talker ∈ contact.listener.settles)
      (waits : listener ∈ [contact.talker, .away]) : Step contact ⟨talker, listener⟩

/-- What the listener can be when the talker is in a phase. -/
def Consistent (contact : Contact) : Prop :=
  contact.listener ∈
    match contact.talker with
    | .away | .reports => [Phase.away, .calls, .reports, .confirms]
    | .calls => [Phase.away, .reports]
    | .confirms => [Phase.away, .reports, .closes]
    | .closes => []

instance (contact : Contact) : Decidable contact.Consistent :=
  List.instDecidableMemOfLawfulBEq _ _

variable {contact next : Contact}

theorem Consistent.step (consistent : contact.Consistent) (step : contact.Step next) :
    next.Consistent := by
  cases step with
  | hears isSent isNext =>
      have kept : ∀ talker listener : Phase, Consistent ⟨talker, listener⟩ →
          ∀ signal ∈ talker.sends, ∀ next ∈ listener.hears signal,
            Consistent ⟨talker, next⟩ := by
        decide
      exact kept _ _ consistent _ isSent _ isNext
  | slotEnds speaks waits =>
      have kept : ∀ talker listener : Phase, Consistent ⟨talker, listener⟩ →
          ∀ speaking ∈ listener.settles, ∀ waiting ∈ [talker, .away],
            Consistent ⟨speaking, waiting⟩ := by
        decide
      exact kept _ _ consistent _ speaks _ waits

theorem Consistent.talker_ne_closes (consistent : contact.Consistent) :
    contact.talker ≠ .closes := by
  intro closes
  rw [Consistent, closes] at consistent
  cases consistent

/-- Two stations that start apart stay consistent. -/
theorem consistent_of_reachable
    (reachable : Relation.ReflTransGen Step ⟨.away, .away⟩ contact) : contact.Consistent := by
  induction reachable with
  | refl => decide
  | tail _ step ih => exact ih.step step

/-- As long as two stations are in contact, one of them sends its report, unless
the listener has just heard the confirmation of the talker. -/
theorem Consistent.reports_or_closes (consistent : contact.Consistent) :
    contact.talker = .away ∨ contact.listener = .away ∨ contact.talker = .reports ∨
      contact.listener = .reports ∨
        (contact.talker = .confirms ∧ contact.listener = .closes) := by
  have cover : ∀ talker listener : Phase, Consistent ⟨talker, listener⟩ →
      talker = .away ∨ listener = .away ∨ talker = .reports ∨ listener = .reports ∨
        (talker = .confirms ∧ listener = .closes) := by
    decide
  exact cover _ _ consistent

/-- Only a station that confirms makes the other one close the contact. -/
theorem Consistent.confirms_of_rogers (consistent : contact.Consistent)
    (isSent : Signal.rogers ∈ contact.talker.sends) (inContact : contact.listener ≠ .away) :
    contact.talker = .confirms ∧
      (contact.listener = .reports ∨ contact.listener = .closes) := by
  have isTalker : ∀ talker : Phase, Signal.rogers ∈ talker.sends → talker = .confirms := by
    decide
  have isListener : ∀ listener : Phase, Consistent ⟨.confirms, listener⟩ →
      listener ≠ .away → listener = .reports ∨ listener = .closes := by
    decide
  obtain ⟨talker, listener⟩ := contact
  obtain rfl : talker = _ := isTalker talker isSent
  exact ⟨rfl, isListener listener consistent inContact⟩

/-! ## Undisturbed slots -/

/-- A slot begins with both stations in contact. -/
structure Open (contact : Contact) : Prop where
  consistent : contact.Consistent
  talking : contact.talker ≠ .away
  listening : contact.listener ≠ .away
  notClosed : contact.listener ≠ .closes

/-- The undisturbed slots before the one that closes the contact. -/
def slotsLeft (contact : Contact) : Nat :=
  match contact.talker, contact.listener with
  | .confirms, _ => 0
  | .reports, .reports => 1
  | .reports, _ => 2
  | _, _ => 3

/-- A slot in which the listener hears the talker closes the contact or brings it
one slot closer to that. -/
theorem Open.closer (isOpen : contact.Open) {signal : Signal}
    (isSent : signal ∈ contact.talker.sends) :
    (contact.listener.after signal = .closes ∧ contact.slotsLeft = 0) ∨
      (Open ⟨contact.listener.after signal, contact.talker⟩ ∧
        slotsLeft ⟨contact.listener.after signal, contact.talker⟩ + 1 = contact.slotsLeft) := by
  have progress : ∀ talker listener : Phase, Consistent ⟨talker, listener⟩ → talker ≠ .away →
      listener ≠ .away → listener ≠ .closes → ∀ signal ∈ talker.sends,
        (listener.after signal = .closes ∧ slotsLeft ⟨talker, listener⟩ = 0) ∨
          ((Consistent ⟨listener.after signal, talker⟩ ∧ listener.after signal ≠ .away ∧
              talker ≠ .closes) ∧
            slotsLeft ⟨listener.after signal, talker⟩ + 1 = slotsLeft ⟨talker, listener⟩) := by
    decide
  obtain ⟨consistent, talking, listening, notClosed⟩ := isOpen
  rcases progress _ _ consistent talking listening notClosed _ isSent with
    closed | ⟨⟨consistentNext, talkingNext, notClosedNext⟩, fewer⟩
  · exact Or.inl closed
  · exact Or.inr ⟨⟨consistentNext, talkingNext, talking, notClosedNext⟩, fewer⟩

/-- At most three undisturbed slots come before the last one. -/
theorem slotsLeft_le (contact : Contact) : contact.slotsLeft ≤ 3 := by
  unfold slotsLeft
  split <;> decide

end Contact

end ContactProtocol
