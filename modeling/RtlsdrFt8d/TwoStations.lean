import RtlsdrFt8d.ContactProtocol
import RtlsdrFt8d.CqPacing
import RtlsdrFt8d.TransmitRequests

/-!
# Two stations on the air

Two receivers with their handlers listen in opposite slots, each to what the
other one transmits.  Requests get lost or are heard in any order, other stations
call in between, and operators switch the automatic replies.  Seen from outside,
the two handlers follow the contact protocol, so they agree on their contact as
far as that protocol does.
-/

namespace RtlsdrFt8d

open ContactProtocol

/-! ## Phases and signals of a handler -/

def Ft8Slot.other : Ft8Slot → Ft8Slot
  | .even => .odd
  | .odd => .even

@[simp]
theorem Ft8Slot.other_other (slot : Ft8Slot) : slot.other.other = slot := by
  cases slot <;> rfl

@[simp]
theorem Ft8Slot.other_ne (slot : Ft8Slot) : slot.other ≠ slot := by
  cases slot <;> decide

instance : Fintype Ft8Slot := derive_fintype% Ft8Slot

def QsoState.phase : QsoState → Phase
  | .idle | .cqIng => .away
  | .replyLoc => .calls
  | .replySig => .reports
  | .replyRR73 => .confirms
  | .reply73 => .closes

/-- How far a handler is with one peer. -/
def QsoHandler.phaseAbout (handler : QsoHandler) (peer : List Char) : Phase :=
  if handler.currentQSO.src.chars = peer then handler.qsoState.phase else .away

def PeerMsg.signal : PeerMsg → Signal
  | .cqMsg => .cq
  | .locMsg => .locator
  | .sigMsg => .report
  | .rr73Msg => .rogers
  | .s73Msg => .bye

def PlainMessage.signal (qsoMsg : PlainMessage) : Signal :=
  if qsoMsg.dest.chars = "CQ".toList then .cq else (parseMsg qsoMsg.message.chars).signal

/-! ## The system -/

structure TwoStations where
  /-- The slot that is being received. -/
  slot : Ft8Slot
  /-- For each slot the handler that listens in it. -/
  station : Ft8Slot → QsoHandler
  /-- What the other station transmits in the slot, without what has been heard. -/
  air : List (List Char)

/-- A message with the words of a request.  The text of a CQ does not reach the
handler. -/
def Conveys (request : List Char) (qsoMsg : PlainMessage) : Prop :=
  ∃ freq extra, wordexp request =
      ["FT8Tx".toList, freq, qsoMsg.dest.chars, qsoMsg.src.chars, extra] ∧
    (qsoMsg.dest.chars ≠ "CQ".toList → qsoMsg.message.chars = extra)

instance (request : List Char) (qsoMsg : PlainMessage) : Decidable (Conveys request qsoMsg) :=
  decidable_of_iff
    (∃ freq ∈ wordexp request, ∃ extra ∈ wordexp request, wordexp request =
        ["FT8Tx".toList, freq, qsoMsg.dest.chars, qsoMsg.src.chars, extra] ∧
      (qsoMsg.dest.chars ≠ "CQ".toList → qsoMsg.message.chars = extra))
    ⟨fun ⟨freq, _, extra, _, conveys⟩ => ⟨freq, extra, conveys⟩,
      fun ⟨freq, extra, words, text⟩ =>
        ⟨freq, by simp [words], extra, by simp [words], words, text⟩⟩

/-- Something happens at one of the stations, the one that listens hears a request
of the other one, or the slot ends with the update of both handlers. -/
inductive ContactEvent where
  | act (who : Ft8Slot) (event : QsoEvent)
  | hear (request : List Char) (qsoMsg : PlainMessage)
  | slotEnds
  deriving DecidableEq

variable (options : Ft8Slot → Options)

/-- The handlers after the update that ends a slot. -/
def updated (stations : TwoStations) (who : Ft8Slot) : QsoHandler :=
  qsoStep (options who) (stations.station who) (.update stations.slot)

def contactStep (stations : TwoStations) : ContactEvent → TwoStations
  | .act who event =>
      { stations with
        station := Function.update stations.station who
          (qsoStep (options who) (stations.station who) event) }
  | .hear request qsoMsg =>
      { stations with
        station := Function.update stations.station stations.slot
          (qsoStep (options stations.slot) (stations.station stations.slot) (.message qsoMsg))
        air := stations.air.erase request }
  | .slotEnds =>
      { slot := stations.slot.other
        station := updated options stations
        air := (updated options stations stations.slot).txQueue.drop
          (stations.station stations.slot).txQueue.length }

/-- What can happen in a slot.  The messages that a station does not hear from the
other one are those of third stations, and the operators leave the slots alone. -/
def ContactEnabled (stations : TwoStations) : ContactEvent → Prop
  | .act who (.message qsoMsg) =>
      qsoMsg.ft8slot = stations.slot ∧
        qsoMsg.src.chars ≠ (options who.other).rcall.chars ∧
          ∀ symbol ∈ qsoMsg.src.chars, isWordSeparator symbol = false
  | .act _ (.command (.slot _)) => False
  | .act _ (.update _) => False
  | .act _ _ => True
  | .hear request qsoMsg =>
      request ∈ stations.air ∧ Conveys request qsoMsg ∧ qsoMsg.ft8slot = stations.slot
  | .slotEnds => True

instance (stations : TwoStations) :
    (event : ContactEvent) → Decidable (ContactEnabled options stations event)
  | .act _ (.message qsoMsg) =>
      letI := List.decidableBAll (isWordSeparator · = false) qsoMsg.src.chars
      inferInstanceAs (Decidable (_ ∧ _ ∧ ∀ symbol ∈ qsoMsg.src.chars, _))
  | .act _ (.command (.slot _)) | .act _ (.update _) => inferInstanceAs (Decidable False)
  | .act _ .tick | .act _ (.adiFile _) | .act _ (.command (.autoCQ _)) |
    .act _ (.command (.autoReply _)) | .act _ (.command (.autoQSO _)) | .slotEnds =>
      inferInstanceAs (Decidable True)
  | .hear _ _ => inferInstanceAs (Decidable (_ ∧ _ ∧ _))

/-- Two stations that can talk to each other. -/
structure Facing : Prop where
  callWord : ∀ who, IsCallWord (options who).rcall.chars
  call_ne_cq : ∀ who, (options who).rcall.chars ≠ "CQ".toList
  call_ne : ∀ who, (options who.other).rcall.chars ≠ (options who).rcall.chars
  locatorWord : ∀ who, TokenSplitting.IsWord isWordSeparator (options who).rloc.chars
  isLocator : ∀ who, parseMsg (options who).rloc.chars = .locMsg

/-- Both handlers are idle, and nothing is transmitted. -/
structure StartsApart (stations : TwoStations) : Prop where
  active : ∀ who, (stations.station who).activeSlot = who
  isIdle : ∀ who, (stations.station who).qsoState = .idle
  silent : stations.air = []

def contactRun (stations : TwoStations) (events : List ContactEvent) : TwoStations :=
  EventRuns.run (contactStep options) stations events

/-- The events can happen one after the other. -/
def Happens (stations : TwoStations) (events : List ContactEvent) : Prop :=
  EventRuns.Admissible (ContactEnabled options) (contactStep options) stations events

instance (stations : TwoStations) (events : List ContactEvent) :
    Decidable (Happens options stations events) :=
  EventRuns.decidableAdmissible _ _ _ _

/-- How far a station is with the other one. -/
def phaseOf (station : Ft8Slot → QsoHandler) (who : Ft8Slot) : Phase :=
  (station who).phaseAbout (options who.other).rcall.chars

/-- The two handlers as a contact. -/
def contactOf (stations : TwoStations) : Contact where
  talker := phaseOf options stations.station stations.slot.other
  listener := phaseOf options stations.station stations.slot

/-! ## One handler -/

/-- What a handler that listens in one slot only keeps. -/
structure KeepsSlot (who : Ft8Slot) (handler : QsoHandler) : Prop where
  active : handler.activeSlot = who
  notCqIng : handler.qsoState ≠ .cqIng
  fromSlot : handler.qsoState ≠ .idle → handler.currentQSO.ft8slot = who ∧
    ∀ symbol ∈ handler.currentQSO.src.chars, isWordSeparator symbol = false

variable {options} {station : Options} {handler : QsoHandler} {who theSlot : Ft8Slot}
  {peer : List Char} {qsoMsg : PlainMessage}

theorem phaseAbout_of_src_eq (isPeer : handler.currentQSO.src.chars = peer) :
    handler.phaseAbout peer = handler.qsoState.phase :=
  if_pos isPeer

theorem phaseAbout_of_src_ne (isOther : handler.currentQSO.src.chars ≠ peer) :
    handler.phaseAbout peer = .away :=
  if_neg isOther

theorem phaseAbout_of_idle (isIdle : handler.qsoState = .idle) :
    handler.phaseAbout peer = .away := by
  rw [QsoHandler.phaseAbout, isIdle]
  exact ite_self _

theorem phase_ne_away {state : QsoState} (inProgress : state ≠ .idle) (notCqIng : state ≠ .cqIng) :
    state.phase ≠ .away := by
  cases state <;> simp_all [QsoState.phase]

theorem parseMsg_ne_cqMsg (msg : List Char) : parseMsg msg ≠ .cqMsg := by
  unfold parseMsg
  split_ifs <;> simp

theorem KeepsSlot.dispatch (keeps : KeepsSlot who handler) (station : Options)
    (noSeparator : ∀ symbol ∈ qsoMsg.src.chars, isWordSeparator symbol = false) :
    KeepsSlot who (dispatch station qsoMsg handler) := by
  obtain ⟨active, notCqIng, fromSlot⟩ := keeps
  have state : (RtlsdrFt8d.dispatch station qsoMsg handler).qsoState ≠ .cqIng :=
    qsoState_ne_cqIng_step notCqIng (.message qsoMsg)
  rcases dispatch_cases station handler qsoMsg with continued | started | answered | same
  · rw [dispatch_of_continuesQso continued] at state ⊢
    have sameQso := fromSlot continued.inProgress
    cases parsed : parseMsg qsoMsg.message.chars <;> simp only [continueQso, parsed] at state ⊢
    case cqMsg => exact ⟨active, state, fun inProgress => absurd rfl inProgress⟩
    case locMsg => exact ⟨active, state, fun _ => sameQso⟩
    case sigMsg => exact ⟨active, state, fun _ => sameQso⟩
    case rr73Msg => exact ⟨active, state, fun _ => sameQso⟩
    case s73Msg => exact ⟨active, state, fun inProgress => absurd rfl inProgress⟩
  · rw [dispatch_of_startsQso started] at state ⊢
    have newQso := And.intro (started.slot_eq.trans active) noSeparator
    cases parsed : parseMsg qsoMsg.message.chars <;> simp only [startQso, parsed] at state ⊢ <;>
      exact ⟨active, state, fun _ => newQso⟩
  · rw [dispatch_of_answersCq answered] at state ⊢
    exact ⟨active, state, fun _ => ⟨answered.slot_eq.trans active, noSeparator⟩⟩
  · rw [same]
    exact ⟨active, notCqIng, fromSlot⟩

/-- A message of someone else does not change how far a handler is with a peer. -/
theorem phaseAbout_dispatch_of_other (station : Options) (isOther : qsoMsg.src.chars ≠ peer) :
    (dispatch station qsoMsg handler).phaseAbout peer = handler.phaseAbout peer := by
  rcases dispatch_cases station handler qsoMsg with continued | started | answered | same
  · have otherPeer : handler.currentQSO.src.chars ≠ peer :=
      fun isPeer => isOther (continued.src_eq.trans isPeer)
    rw [dispatch_of_continuesQso continued, phaseAbout_of_src_ne otherPeer]
    cases parsed : parseMsg qsoMsg.message.chars <;> simp only [continueQso, parsed]
    case cqMsg => exact phaseAbout_of_idle rfl
    case locMsg => exact phaseAbout_of_src_ne otherPeer
    case sigMsg => exact phaseAbout_of_src_ne otherPeer
    case rr73Msg => exact phaseAbout_of_src_ne otherPeer
    case s73Msg => exact phaseAbout_of_idle rfl
  · rw [dispatch_of_startsQso started, phaseAbout_of_idle started.isIdle]
    cases parsed : parseMsg qsoMsg.message.chars <;> simp only [startQso, parsed] <;>
      exact phaseAbout_of_src_ne isOther
  · rw [dispatch_of_answersCq answered, phaseAbout_of_idle answered.isIdle]
    exact phaseAbout_of_src_ne isOther
  · rw [same]

theorem phaseAbout_startQso (isIdle : handler.qsoState = .idle)
    (isPeer : qsoMsg.src.chars = peer) :
    (startQso qsoMsg handler).phaseAbout peer =
      match parseMsg qsoMsg.message.chars with
      | .locMsg | .sigMsg => .reports
      | .cqMsg | .rr73Msg | .s73Msg => .away := by
  cases parsed : parseMsg qsoMsg.message.chars <;> simp only [startQso, parsed]
  case locMsg => exact phaseAbout_of_src_eq isPeer
  case sigMsg => exact phaseAbout_of_src_eq isPeer
  all_goals exact phaseAbout_of_idle isIdle

theorem phaseAbout_continueQso (samePeer : handler.currentQSO.src.chars = peer) :
    (continueQso qsoMsg handler).phaseAbout peer =
      handler.qsoState.phase.after (parseMsg qsoMsg.message.chars).signal := by
  cases parsed : parseMsg qsoMsg.message.chars <;> simp only [continueQso, parsed]
  case cqMsg => exact absurd parsed (parseMsg_ne_cqMsg _)
  case locMsg => exact phaseAbout_of_src_eq samePeer
  case rr73Msg => exact phaseAbout_of_src_eq samePeer
  case s73Msg => exact phaseAbout_of_idle rfl
  case sigMsg =>
    rw [QsoHandler.phaseAbout, if_pos samePeer]
    cases handler.qsoState <;> rfl

/-- A message of the peer is a signal of the contact, or does nothing. -/
theorem phaseAbout_dispatch (keeps : KeepsSlot who handler) (station : Options)
    (isPeer : qsoMsg.src.chars = peer) :
    (dispatch station qsoMsg handler).phaseAbout peer = handler.phaseAbout peer ∨
      ((qsoMsg.dest.chars = "CQ".toList ∨ qsoMsg.dest.chars = station.rcall.chars) ∧
        (dispatch station qsoMsg handler).phaseAbout peer ∈
          (handler.phaseAbout peer).hears qsoMsg.signal) := by
  rcases dispatch_cases station handler qsoMsg with continued | started | answered | same
  · refine Or.inr ⟨Or.inr continued.dest_eq, ?_⟩
    have samePeer : handler.currentQSO.src.chars = peer := continued.src_eq.symm.trans isPeer
    have inContact := phase_ne_away continued.inProgress keeps.notCqIng
    rw [dispatch_of_continuesQso continued, phaseAbout_continueQso samePeer,
      phaseAbout_of_src_eq samePeer, Phase.hears_of_ne_away inContact, List.mem_singleton,
      PlainMessage.signal, if_neg continued.dest_ne_cq]
  · refine Or.inr ⟨Or.inr started.dest_eq, ?_⟩
    rw [dispatch_of_startsQso started, phaseAbout_of_idle started.isIdle, PlainMessage.signal,
      if_neg started.dest_ne_cq, phaseAbout_startQso started.isIdle isPeer]
    cases parsed : parseMsg qsoMsg.message.chars
    case cqMsg => exact absurd parsed (parseMsg_ne_cqMsg _)
    all_goals decide
  · refine Or.inr ⟨Or.inl answered.dest_eq, ?_⟩
    rw [dispatch_of_answersCq answered, phaseAbout_of_idle answered.isIdle, PlainMessage.signal,
      if_pos answered.dest_eq, phaseAbout_of_src_eq isPeer]
    change Phase.calls ∈ Phase.hears .away .cq
    decide
  · exact Or.inl (by rw [same])

/-! ## The end of a slot -/

/-- The requests that an update queues: a CQ of a handler that is idle by then, or
the reply of the QSO. -/
inductive Queued (station : Options) (handler after : QsoHandler) : List Char → Prop where
  | cq (isIdle : after.qsoState = .idle) : Queued station handler after (cqText station)
  | reply {extra : List Char} (transmits : replyExtra station handler = some extra)
      (state : after.qsoState =
        if handler.qsoState = .reply73 then .idle else handler.qsoState)
      (sameQso : after.currentQSO = handler.currentQSO) :
      Queued station handler after (replyText station handler extra)

/-- What the update at the end of a slot does to a handler that keeps its slot. -/
structure Updates (station : Options) (theSlot who : Ft8Slot) (handler after : QsoHandler) :
    Prop where
  keeps : KeepsSlot who after
  phase : ∀ peer, after.phaseAbout peer ∈
    if theSlot = who then (handler.phaseAbout peer).settles
    else [handler.phaseAbout peer, .away]
  queue : ∃ pushed, after.txQueue = handler.txQueue ++ pushed ∧
    ∀ request ∈ pushed, Queued station handler after request

theorem KeepsSlot.of_idle {after : QsoHandler} (active : after.activeSlot = who)
    (isIdle : after.qsoState = .idle) : KeepsSlot who after where
  active := active
  notCqIng := isIdle ▸ by decide
  fromSlot inProgress := absurd isIdle inProgress

/-- A handler with the same QSO in a state that is none of the others. -/
theorem KeepsSlot.of_sameQso {after : QsoHandler} (keeps : KeepsSlot who handler)
    (active : after.activeSlot = handler.activeSlot) (state : after.qsoState = handler.qsoState)
    (sameQso : after.currentQSO = handler.currentQSO) : KeepsSlot who after where
  active := active.trans keeps.active
  notCqIng := state ▸ keeps.notCqIng
  fromSlot inProgress := sameQso ▸ keeps.fromSlot (state ▸ inProgress)

theorem away_mem_settles (phase : Phase) : .away ∈ phase.settles := by
  cases phase <;> decide

/-- The QSO part of an update, and whether a CQ may follow it. -/
theorem updateQso_outcome (keeps : KeepsSlot who handler) (station : Options)
    (theSlot : Ft8Slot) :
    Updates station theSlot who handler (updateQso station theSlot handler) := by
  have sameActive := (updateQso_keeps station theSlot handler).1
  rcases updateQso_cases station theSlot handler with
    ⟨-, closed⟩ | ⟨replies, extra, transmits, replied⟩ |
      ⟨running, silent, busy, quiet⟩ | ⟨unused, -⟩
  · have isIdle : (updateQso station theSlot handler).qsoState = .idle := by
      rw [closed]
      rfl
    refine ⟨.of_idle (sameActive.trans keeps.active) isIdle, fun peer => ?_, [], ?_, by simp⟩
    · rw [phaseAbout_of_idle isIdle]
      split_ifs
      · exact away_mem_settles _
      · exact .tail _ (.head _)
    · rw [closed]
      split_ifs <;> simp [resetQsoState, logToAdi]
  · have state : (updateQso station theSlot handler).qsoState =
        if handler.qsoState = .reply73 then .idle else handler.qsoState := by
      rw [replied]
    have sameQso : (updateQso station theSlot handler).currentQSO = handler.currentQSO := by
      rw [replied]
    have isActive : theSlot = who := replies.active.trans keeps.active
    refine ⟨?_, fun peer => ?_, [replyText station handler extra], by rw [replied], ?_⟩
    · by_cases lastReply : handler.qsoState = .reply73
      · exact .of_idle (sameActive.trans keeps.active) (state.trans (if_pos lastReply))
      · exact keeps.of_sameQso sameActive (state.trans (if_neg lastReply)) sameQso
    · rw [if_pos isActive, QsoHandler.phaseAbout, QsoHandler.phaseAbout, sameQso, state]
      split_ifs with isPeer lastReply
      · exact away_mem_settles _
      · cases reached : handler.qsoState <;> first | decide | exact absurd reached lastReply
      · decide
    · rintro _ (_ | ⟨_, ⟨⟩⟩)
      exact .reply transmits state sameQso
  · refine ⟨keeps.of_sameQso sameActive (by rw [quiet]) (by rw [quiet]), fun peer => ?_, [], ?_,
      by simp⟩
    · have same : (updateQso station theSlot handler).phaseAbout peer =
          handler.phaseAbout peer := by
        rw [quiet]
        rfl
      rw [same]
      split_ifs with isActive
      · have isIdle : handler.qsoState = .idle := by
          refine silent.elim (fun noReply => ?_) id
          by_contra inProgress
          exact noReply ⟨running, isActive.trans keeps.active.symm,
            (keeps.fromSlot inProgress).1.trans isActive.symm⟩
        rw [phaseAbout_of_idle isIdle]
        decide
      · exact .head _
    · rw [quiet, List.append_nil]
  · exact absurd unused keeps.notCqIng

/-- An update replies to the peer, or calls CQ once no QSO is in progress. -/
theorem updateQsoMachine_outcome (keeps : KeepsSlot who handler) (station : Options)
    (theSlot : Ft8Slot) :
    Updates station theSlot who handler (updateQsoMachine station theSlot handler) := by
  obtain ⟨keepsAfter, phase, pushed, queued, each⟩ := updateQso_outcome keeps station theSlot
  by_cases calls : (updateQso station theSlot handler).txBusy = false ∧
      CallsCq (updateQso station theSlot handler) theSlot
  · have sameActive := (updateQso_keeps station theSlot handler).1
    have isIdle := qsoState_updateQso_of_free calls.1 (calls.2.active.trans sameActive)
    rw [updateQsoMachine_of_callsCq calls.1 calls.2]
    refine ⟨.of_idle keepsAfter.active isIdle, phase, pushed ++ [cqText station],
      by rw [queued, List.append_assoc], fun request isPushed => ?_⟩
    rcases List.mem_append.mp isPushed with reply | call
    · cases each request reply with
      | cq isIdle => exact .cq isIdle
      | reply transmits state sameQso => exact .reply transmits state sameQso
    · rw [List.mem_singleton.mp call]
      exact .cq isIdle
  · rw [updateQsoMachine_of_not_callsCq calls]
    exact ⟨keepsAfter, phase, pushed, queued, each⟩

/-! ## Requests on the air -/

/-- Whoever hears a request hears its words. -/
theorem Conveys.words {freq : Int32} {dest src extra : List Char}
    (noSeparator : ∀ symbol ∈ dest, isWordSeparator symbol = false)
    (srcWord : TokenSplitting.IsWord isWordSeparator src)
    (extraWord : TokenSplitting.IsWord isWordSeparator extra)
    (conveys : Conveys (requestText freq dest src extra) qsoMsg) :
    qsoMsg.dest.chars = dest ∧ qsoMsg.src.chars = src ∧
      (qsoMsg.dest.chars ≠ "CQ".toList → qsoMsg.message.chars = extra) := by
  obtain ⟨number, third, words, text⟩ := conveys
  rw [wordexp_requestText_append, wordexp, wordexp, wordexp,
    TokenSplitting.tokens_of_isWord srcWord, TokenSplitting.tokens_of_isWord extraWord] at words
  by_cases empty : dest = []
  · rw [empty, TokenSplitting.tokens_nil] at words
    simp at words
  · rw [TokenSplitting.tokens_of_isWord ⟨empty, noSeparator⟩] at words
    simp only [List.cons_append, List.nil_append, List.cons.injEq, and_true, true_and] at words
    obtain ⟨-, sameDest, sameSrc, sameExtra⟩ := words
    exact ⟨sameDest.symm, sameSrc.symm, fun notCq => (text notCq).trans sameExtra.symm⟩

theorem parseMsg_reportText (snr : Int32) : parseMsg (reportText snr) = .sigMsg := by
  unfold reportText
  split_ifs with nonneg
  · rfl
  · have negative := toInt_neg_of_not_nonneg nonneg
    obtain ⟨digit, rest, shape, -⟩ := CNumerals.formatInt_of_neg 3 negative
    rw [shape]
    rfl

/-- The third word of a reply is the signal of the phase that its station is in
from then on. -/
theorem signal_of_replyExtra
    (locatorWord : TokenSplitting.IsWord isWordSeparator station.rloc.chars)
    (isLocator : parseMsg station.rloc.chars = .locMsg) {extra : List Char}
    (transmits : replyExtra station handler = some extra) :
    TokenSplitting.IsWord isWordSeparator extra ∧ (parseMsg extra).signal ∈
      (if handler.qsoState = .reply73 then QsoState.idle else handler.qsoState).phase.sends := by
  unfold replyExtra at transmits
  cases reached : handler.qsoState <;> rw [reached] at transmits <;> cases transmits
  case replyLoc =>
    rw [isLocator]
    exact ⟨locatorWord, by decide⟩
  case replySig =>
    rw [parseMsg_reportText]
    exact ⟨isWord_reportText _, by decide⟩
  case replyRR73 => exact ⟨by decide, by decide⟩
  case reply73 => exact ⟨by decide, by decide⟩

/-- A queued request is heard as a signal of the phase of its station. -/
theorem Queued.heard {after : QsoHandler} {request : List Char}
    (queued : Queued station handler after request) (keeps : KeepsSlot who handler)
    (callWord : IsCallWord station.rcall.chars)
    (locatorWord : TokenSplitting.IsWord isWordSeparator station.rloc.chars)
    (isLocator : parseMsg station.rloc.chars = .locMsg) (notCq : peer ≠ "CQ".toList)
    (conveys : Conveys request qsoMsg) :
    qsoMsg.src.chars = station.rcall.chars ∧
      (qsoMsg.dest.chars = "CQ".toList ∨ qsoMsg.dest.chars = peer →
        qsoMsg.signal ∈ (after.phaseAbout peer).sends) := by
  have srcWord := isWord_of_isCallWord callWord
  cases queued with
  | cq isIdle =>
      have noSeparator : ∀ symbol ∈ "CQ".toList, isWordSeparator symbol = false := by
        simp [isWordSeparator]
      obtain ⟨toAll, fromUs, -⟩ := conveys.words noSeparator srcWord locatorWord
      refine ⟨fromUs, fun _ => ?_⟩
      rw [PlainMessage.signal, if_pos toAll, phaseAbout_of_idle isIdle]
      decide
  | @reply extra transmits state sameQso =>
      have inProgress : handler.qsoState ≠ .idle :=
        ((exists_replyExtra_iff station handler).mp ⟨extra, transmits⟩).1
      obtain ⟨extraWord, isSent⟩ := signal_of_replyExtra locatorWord isLocator transmits
      obtain ⟨toPeer, fromUs, text⟩ :=
        conveys.words (keeps.fromSlot inProgress).2 srcWord extraWord
      refine ⟨fromUs, fun forUs => ?_⟩
      by_cases toAll : qsoMsg.dest.chars = "CQ".toList
      · have otherPeer : after.currentQSO.src.chars ≠ peer := by
          rw [sameQso, ← toPeer, toAll]
          exact notCq.symm
        rw [PlainMessage.signal, if_pos toAll, phaseAbout_of_src_ne otherPeer]
        decide
      · have isPeer : after.currentQSO.src.chars = peer := by
          rw [sameQso, ← toPeer]
          exact forUs.resolve_left toAll
        rw [PlainMessage.signal, if_neg toAll, text toAll, phaseAbout_of_src_eq isPeer, state]
        exact isSent

/-! ## The simulation -/

variable {stations : TwoStations}

/-- What holds of two facing stations at any time. -/
structure Sound (options : Ft8Slot → Options) (stations : TwoStations) : Prop where
  keeps : ∀ who, KeepsSlot who (stations.station who)
  heard : ∀ request ∈ stations.air, ∀ qsoMsg, Conveys request qsoMsg →
    qsoMsg.src.chars = (options stations.slot.other).rcall.chars ∧
      (qsoMsg.dest.chars = "CQ".toList ∨
          qsoMsg.dest.chars = (options stations.slot).rcall.chars →
        qsoMsg.signal ∈ (contactOf options stations).talker.sends)

theorem StartsApart.sound (apart : StartsApart stations) : Sound options stations where
  keeps who := .of_idle (apart.active who) (apart.isIdle who)
  heard request isSent := by
    rw [apart.silent] at isSent
    cases isSent

/-- What happens at a station besides the messages of the other one. -/
theorem act_keeps {event : QsoEvent} (keeps : KeepsSlot who (stations.station who))
    (enabled : ContactEnabled options stations (.act who event)) :
    KeepsSlot who (qsoStep (options who) (stations.station who) event) ∧
      (qsoStep (options who) (stations.station who) event).phaseAbout
          (options who.other).rcall.chars = phaseOf options stations.station who := by
  cases event with
  | tick => exact ⟨keeps.of_sameQso rfl rfl rfl, rfl⟩
  | adiFile opens => exact ⟨keeps.of_sameQso rfl rfl rfl, rfl⟩
  | update theSlot => exact enabled.elim
  | message qsoMsg =>
      obtain ⟨-, isOther, noSeparator⟩ := enabled
      exact ⟨keeps.dispatch _ noSeparator, phaseAbout_dispatch_of_other _ isOther⟩
  | command command =>
      cases command with
      | slot value => exact enabled.elim
      | autoCQ on => exact ⟨keeps.of_sameQso rfl rfl rfl, rfl⟩
      | autoReply on => exact ⟨keeps.of_sameQso rfl rfl rfl, rfl⟩
      | autoQSO on => exact ⟨keeps.of_sameQso rfl rfl rfl, rfl⟩

theorem keeps_update {handler : QsoHandler}
    (keeps : ∀ other, KeepsSlot other (stations.station other)) (after : KeepsSlot who handler) :
    ∀ other, KeepsSlot other (Function.update stations.station who handler other) :=
  (Function.forall_update_iff _ KeepsSlot).mpr ⟨after, fun other _ => keeps other⟩

theorem phaseOf_update (options : Ft8Slot → Options) (stations : Ft8Slot → QsoHandler)
    (who other : Ft8Slot) (handler : QsoHandler) :
    phaseOf options (Function.update stations who handler) other =
      if other = who then handler.phaseAbout (options who.other).rcall.chars
      else phaseOf options stations other := by
  split_ifs with same
  · rw [same, phaseOf, Function.update_self]
  · rw [phaseOf, Function.update_of_ne same]
    rfl

theorem act_simulates (sound : Sound options stations) {event : QsoEvent}
    (enabled : ContactEnabled options stations (.act who event)) :
    Sound options (contactStep options stations (.act who event)) ∧
      contactOf options (contactStep options stations (.act who event)) =
        contactOf options stations := by
  obtain ⟨keeps, samePhase⟩ := act_keeps (sound.keeps who) enabled
  have same (other : Ft8Slot) :
      phaseOf options (contactStep options stations (.act who event)).station other =
        phaseOf options stations.station other := by
    refine (phaseOf_update options stations.station who other _).trans ?_
    split_ifs with isWho
    · rw [isWho]
      exact samePhase
    · rfl
  have sameContact : contactOf options (contactStep options stations (.act who event)) =
      contactOf options stations := by
    rw [contactOf, same, same]
    rfl
  refine ⟨⟨keeps_update sound.keeps keeps, fun request isSent qsoMsg conveys => ?_⟩, sameContact⟩
  rw [sameContact]
  exact sound.heard request isSent qsoMsg conveys

theorem contactOf_hear (options : Ft8Slot → Options) (stations : TwoStations)
    (request : List Char) (qsoMsg : PlainMessage) :
    contactOf options (contactStep options stations (.hear request qsoMsg)) =
      ⟨(contactOf options stations).talker,
        (dispatch (options stations.slot) qsoMsg (stations.station stations.slot)).phaseAbout
          (options stations.slot.other).rcall.chars⟩ := by
  refine congrArg₂ Contact.mk ?_ ?_
  · exact (phaseOf_update options _ _ _ _).trans (if_neg stations.slot.other_ne)
  · exact (phaseOf_update options _ _ _ _).trans (if_pos rfl)

theorem hear_simulates (facing : Facing options) (sound : Sound options stations)
    {request : List Char} (enabled : ContactEnabled options stations (.hear request qsoMsg)) :
    Sound options (contactStep options stations (.hear request qsoMsg)) ∧
      (contactOf options (contactStep options stations (.hear request qsoMsg)) =
          contactOf options stations ∨
        (contactOf options stations).Step
          (contactOf options (contactStep options stations (.hear request qsoMsg)))) := by
  obtain ⟨isSent, conveys, -⟩ := enabled
  obtain ⟨fromPeer, isSignal⟩ := sound.heard request isSent qsoMsg conveys
  have srcWord := isWord_of_isCallWord (facing.callWord stations.slot.other)
  have noSeparator : ∀ symbol ∈ qsoMsg.src.chars, isWordSeparator symbol = false :=
    fromPeer ▸ srcWord.2
  have keeps := (sound.keeps stations.slot).dispatch (options stations.slot) noSeparator
  have contact := contactOf_hear options stations request qsoMsg
  refine ⟨⟨keeps_update sound.keeps keeps, fun other isLeft message conveys => ?_⟩, ?_⟩
  · rw [contact]
    exact sound.heard other (List.mem_of_mem_erase isLeft) message conveys
  · rw [contact]
    rcases phaseAbout_dispatch (sound.keeps stations.slot) (options stations.slot) fromPeer with
      same | ⟨forUs, isNext⟩
    · exact Or.inl (congrArg (Contact.mk _) same)
    · exact Or.inr (.hears (isSignal forUs) isNext)

theorem contactOf_slotEnds (options : Ft8Slot → Options) (stations : TwoStations) :
    contactOf options (contactStep options stations .slotEnds) =
      ⟨phaseOf options (updated options stations) stations.slot,
        phaseOf options (updated options stations) stations.slot.other⟩ := by
  refine congrArg (Contact.mk · _) ?_
  exact congrArg (phaseOf options (updated options stations)) stations.slot.other_other

theorem slotEnds_phases (sound : Sound options stations) :
    (contactOf options (contactStep options stations .slotEnds)).talker ∈
        (contactOf options stations).listener.settles ∧
      (contactOf options (contactStep options stations .slotEnds)).listener ∈
        [(contactOf options stations).talker, .away] := by
  have outcome (who : Ft8Slot) := updateQsoMachine_outcome (sound.keeps who) (options who)
    stations.slot
  have speaks := (outcome stations.slot).phase (options stations.slot.other).rcall.chars
  have waits := (outcome stations.slot.other).phase (options stations.slot.other.other).rcall.chars
  rw [if_pos rfl] at speaks
  rw [if_neg stations.slot.other_ne.symm] at waits
  rw [contactOf_slotEnds]
  exact ⟨speaks, waits⟩

theorem slotEnds_simulates (facing : Facing options) (sound : Sound options stations) :
    Sound options (contactStep options stations .slotEnds) ∧
      (contactOf options stations).Step
        (contactOf options (contactStep options stations .slotEnds)) := by
  have outcome (who : Ft8Slot) := updateQsoMachine_outcome (sound.keeps who) (options who)
    stations.slot
  obtain ⟨pushed, queued, each⟩ := (outcome stations.slot).queue
  have air : (contactStep options stations .slotEnds).air = pushed := by
    change (updateQsoMachine _ _ _).txQueue.drop _ = _
    rw [queued, List.drop_left]
  obtain ⟨speaks, waits⟩ := slotEnds_phases sound
  refine ⟨⟨fun who => (outcome who).keeps, fun request isSent qsoMsg conveys => ?_⟩,
    .slotEnds speaks waits⟩
  rw [air] at isSent
  have heard := (each request isSent).heard (sound.keeps stations.slot)
    (facing.callWord stations.slot) (facing.locatorWord stations.slot)
    (facing.isLocator stations.slot) (facing.call_ne_cq stations.slot.other) conveys
  change qsoMsg.src.chars = (options stations.slot.other.other).rcall.chars ∧ _
  rw [contactOf_slotEnds, stations.slot.other_other]
  exact heard

/-- One event keeps two facing stations sound, and seen from outside it is a step
of the contact protocol or none. -/
theorem contactStep_simulates (facing : Facing options) (sound : Sound options stations)
    {event : ContactEvent} (enabled : ContactEnabled options stations event) :
    Sound options (contactStep options stations event) ∧
      (contactOf options (contactStep options stations event) = contactOf options stations ∨
        (contactOf options stations).Step
          (contactOf options (contactStep options stations event))) := by
  cases event with
  | act who event => exact (act_simulates sound enabled).imp_right Or.inl
  | hear request qsoMsg => exact hear_simulates facing sound enabled
  | slotEnds => exact (slotEnds_simulates facing sound).imp_right Or.inr

/-! ## Runs -/

theorem StartsApart.contactOf_eq (apart : StartsApart stations) :
    contactOf options stations = ⟨.away, .away⟩ :=
  congrArg₂ Contact.mk (phaseAbout_of_idle (apart.isIdle _)) (phaseAbout_of_idle (apart.isIdle _))

theorem contactRun_simulates (facing : Facing options) (apart : StartsApart stations)
    {events : List ContactEvent} (happens : Happens options stations events) :
    Sound options (contactRun options stations events) ∧
      Relation.ReflTransGen Contact.Step ⟨.away, .away⟩
        (contactOf options (contactRun options stations events)) := by
  refine EventRuns.admissible_induction
    (fun _ state => Sound options state ∧
      Relation.ReflTransGen Contact.Step ⟨.away, .away⟩ (contactOf options state))
    ⟨apart.sound, apart.contactOf_eq ▸ .refl⟩ ?_ happens
  rintro - state event ⟨sound, reached⟩ enabled
  obtain ⟨soundAfter, same | step⟩ := contactStep_simulates facing sound enabled
  · exact ⟨soundAfter, same ▸ reached⟩
  · exact ⟨soundAfter, reached.tail step⟩

/-- Each of the two is in a QSO with the other one. -/
def InContact (options : Ft8Slot → Options) (stations : TwoStations) : Prop :=
  ∀ who, (stations.station who).qsoState ≠ .idle ∧
    (stations.station who).currentQSO.src.chars = (options who.other).rcall.chars

instance (options : Ft8Slot → Options) (stations : TwoStations) :
    Decidable (InContact options stations) :=
  inferInstanceAs (Decidable (∀ _, _ ∧ _))

theorem phase_eq_iff {state : QsoState} (notCqIng : state ≠ .cqIng) :
    (state.phase = .away ↔ state = .idle) ∧ (state.phase = .calls ↔ state = .replyLoc) ∧
      (state.phase = .reports ↔ state = .replySig) ∧
        (state.phase = .confirms ↔ state = .replyRR73) ∧
          (state.phase = .closes ↔ state = .reply73) := by
  cases state <;> first | decide | exact absurd rfl notCqIng

/-- Whatever is lost, heard out of order or heard from third stations, and whatever
the operators do, two stations that face each other follow the contact protocol.
As long as both are in a QSO with each other, one of them sends its report, unless
the listener has just taken the RR73 of the talker. -/
theorem contacts_agree (facing : Facing options) (apart : StartsApart stations)
    (events : List ContactEvent) (happens : Happens options stations events) :
    let reached := contactRun options stations events
    Relation.ReflTransGen Contact.Step ⟨.away, .away⟩ (contactOf options reached) ∧
      (InContact options reached →
        (∃ who, (reached.station who).qsoState = .replySig) ∨
          ((reached.station reached.slot.other).qsoState = .replyRR73 ∧
            (reached.station reached.slot).qsoState = .reply73)) := by
  intro reached
  obtain ⟨sound, reachable⟩ := contactRun_simulates facing apart happens
  refine ⟨reachable, fun inContact => ?_⟩
  have phases (who : Ft8Slot) := phase_eq_iff (sound.keeps who).notCqIng
  have phase (who : Ft8Slot) : (reached.station who).qsoState.phase =
      phaseOf options reached.station who :=
    (phaseAbout_of_src_eq (inContact who).2).symm
  rcases (Contact.consistent_of_reachable reachable).reports_or_closes with
    away | away | reports | reports | ⟨confirms, closes⟩
  · exact absurd ((phases _).1.mp ((phase _).trans away)) (inContact _).1
  · exact absurd ((phases _).1.mp ((phase _).trans away)) (inContact _).1
  · exact Or.inl ⟨_, (phases _).2.2.1.mp ((phase _).trans reports)⟩
  · exact Or.inl ⟨_, (phases _).2.2.1.mp ((phase _).trans reports)⟩
  · exact Or.inr ⟨(phases _).2.2.2.1.mp ((phase _).trans confirms),
      (phases _).2.2.2.2.mp ((phase _).trans closes)⟩

/-- The sample station faces one that listens in odd slots. -/
def facingOptions : Ft8Slot → Options
  | .even => sampleStation
  | .odd =>
      { sampleStation with
        rcall := .snprintf 13 "F1ABC".toList
        rloc := .snprintf 7 "JN18".toList
        rcall_ne_nil := by decide
        rloc_ne_nil := by decide }

theorem facing_facingOptions : Facing facingOptions where
  callWord who := by cases who <;> decide
  call_ne_cq who := by cases who <;> decide
  call_ne who := by cases who <;> decide
  locatorWord who := by cases who <;> decide
  isLocator who := by cases who <;> decide

def quietStations : TwoStations where
  slot := .even
  station who := { initQsoState true with activeSlot := who }
  air := []

theorem startsApart_quietStations : StartsApart quietStations where
  active _ := rfl
  isIdle _ := rfl
  silent := rfl

/-- What one of the two hears of the other one. -/
def heardMessage (listener : Ft8Slot) (dest extra : List Char) : PlainMessage where
  src := (facingOptions listener.other).rcall
  dest := .snprintf 13 dest
  message := .snprintf 40 extra
  freq := 14075000
  snr := 7
  tempus := 1700000000
  ft8slot := listener

/-- A slot in which one of the sample stations hears a request of the other one. -/
def heardSlot (listener : Ft8Slot) (request dest extra : List Char) : List ContactEvent :=
  [.act .even .tick, .act .odd .tick, .hear request (heardMessage listener dest extra), .slotEnds]

/-- The sample station calls CQ, the other one answers, and the answer is heard. -/
def openedContact : List ContactEvent :=
  [.act .even (.command (.autoCQ true)), .act .even (.command (.autoQSO true)),
    .act .odd (.command (.autoReply true)), .act .odd (.command (.autoQSO true)),
    .act .even .tick, .act .odd .tick, .slotEnds] ++
  heardSlot .odd (cqText sampleStation) "CQ".toList [] ++
  [.act .even .tick, .act .odd .tick,
    .hear "FT8Tx 14075000 SA0PRF F1ABC JN18".toList
      (heardMessage .even "SA0PRF".toList "JN18".toList)]

theorem contacts_agree_openedContact :
    let reached := contactRun facingOptions quietStations openedContact
    Relation.ReflTransGen Contact.Step ⟨.away, .away⟩ (contactOf facingOptions reached) ∧
      (InContact facingOptions reached →
        (∃ who, (reached.station who).qsoState = .replySig) ∨
          ((reached.station reached.slot.other).qsoState = .replyRR73 ∧
            (reached.station reached.slot).qsoState = .reply73)) :=
  contacts_agree facing_facingOptions startsApart_quietStations openedContact
    (by decide +kernel)

end RtlsdrFt8d
