import RtlsdrFt8d.QsoBookkeeping

/-!
# Worked peers

A finished QSO should leave an ADIF record and an entry in the table of worked
peers, so that its peer is not worked again.  Of the three ways out of a QSO
only the one through the peer's RR73 does both, and the table forgets everyone
when its last entry is used.
-/

namespace RtlsdrFt8d

variable {options : Options} {handler : QsoHandler} {event : QsoEvent}

/-! ## The table -/

/-- The next entry of the table of worked peers is its last one: the index
starts over and the table forgets all peers. -/
def FillsTable (handler : QsoHandler) : Prop :=
  maxQsoPeers ≤ handler.peers.peersIdx + 1

namespace PeerTable

theorem checkPeer_eq_true_iff (table : PeerTable) (thePeer : List Char) :
    table.checkPeer thePeer = true ↔
      hashCallId thePeer ∈ table.peers.toList.take table.peersIdx := by
  simp [checkPeer]

theorem checkPeer_addPeer_of_lt {table : PeerTable} (room : table.peersIdx + 1 < maxQsoPeers)
    {thePeer newPeer : List Char}
    (known : table.checkPeer thePeer = true ∨ thePeer = newPeer) :
    (table.addPeer newPeer).2.checkPeer thePeer = true := by
  unfold addPeer
  split
  case isTrue alreadyKnown =>
    rcases known with before | rfl
    · exact before
    · exact alreadyKnown
  case isFalse =>
    have inTable : table.peersIdx < table.peers.toList.length := by
      simpa using table.peersIdx_lt
    rw [checkPeer_eq_true_iff]
    simp only [if_neg (Nat.not_le.mpr room), Vector.toList_set]
    rw [List.take_add_one, List.take_set_of_le (Nat.le_refl _)]
    rcases known with before | rfl
    · exact List.mem_append_left _ ((checkPeer_eq_true_iff table thePeer).mp before)
    · simp [List.getElem?_set_self inTable]

theorem addPeer_of_known {table : PeerTable} {newPeer : List Char}
    (known : table.checkPeer newPeer = true) : (table.addPeer newPeer).2 = table := by
  simp [addPeer, known]

end PeerTable

theorem peers_of_not_handlesRR73 (silent : ¬ HandlesRR73 options handler event) :
    (qsoStep options handler event).peers = handler.peers := by
  cases event with
  | tick => rfl
  | adiFile opens => rfl
  | command command => cases command <;> rfl
  | message qsoMsg =>
      change (dispatch options qsoMsg handler).peers = handler.peers
      rcases dispatch_cases options handler qsoMsg with continued | started | answered | same
      · have otherClass : parseMsg qsoMsg.message.chars ≠ .rr73Msg :=
          fun isRR73 => silent ⟨qsoMsg, rfl, continued, isRR73⟩
        rw [dispatch_of_continuesQso continued]
        cases parsed : parseMsg qsoMsg.message.chars <;>
          simp_all [continueQso, resetQsoState]
      · rw [dispatch_of_startsQso started]
        cases parsed : parseMsg qsoMsg.message.chars <;> simp [startQso, parsed]
      · rw [dispatch_of_answersCq answered]
      · rw [same]
  | update theSlot =>
      have qsoPart : (updateQso options theSlot handler).peers = handler.peers := by
        rcases updateQso_cases options theSlot handler with
          ⟨-, closed⟩ | ⟨-, extra, -, replied⟩ | ⟨-, -, busy, quiet⟩ | ⟨-, unused⟩
        · rw [closed]
          split_ifs <;> rfl
        · rw [replied]
        · rw [quiet]
        · rw [unused]
      change (updateQsoMachine options theSlot handler).peers = handler.peers
      rcases updateQsoMachine_cases options theSlot handler with same | queued
      · rw [same, qsoPart]
      · rw [queued, qsoPart]

theorem peers_of_handlesRR73 (handles : HandlesRR73 options handler event) :
    (qsoStep options handler event).peers =
      (handler.peers.addPeer handler.currentQSO.src.chars).2 := by
  obtain ⟨qsoMsg, rfl, continued, isRR73⟩ := handles
  change (dispatch options qsoMsg handler).peers = _
  rw [dispatch_of_continuesQso continued, ← continued.src_eq]
  simp [continueQso, isRR73, addPeer, logToAdi]

/-! ## Finished QSOs -/

/-- The ADIF records written for the QSO in progress, or for the one that just
ended. -/
def qsoRecords (options : Options) (adiOpens : Bool) (events : List QsoEvent) :
    List PlainMessage :=
  (qsoEpisode options adiOpens events).flatMap fun taken =>
    taken.after.adiFile.drop taken.before.adiFile.length

/-- How often a sequence of events enters a peer in the table. -/
def peersAdded (options : Options) (handler : QsoHandler) (events : List QsoEvent) : Nat :=
  (EventRuns.steps (qsoStep options) handler events).countP fun taken =>
    taken.after.peers.peersIdx ≠ taken.before.peers.peersIdx

/-- The event ends a QSO that has reached `replyRR73` or `reply73`. -/
structure FinishesQso (options : Options) (adiOpens : Bool) (earlier : List QsoEvent)
    (event : QsoEvent) : Prop where
  inProgress : (qsoRun options adiOpens earlier).qsoState ≠ .idle
  ended : (qsoRun options adiOpens (earlier ++ [event])).qsoState = .idle
  reached : ∃ taken ∈ qsoEpisode options adiOpens earlier,
    taken.after.qsoState = .replyRR73 ∨ taken.after.qsoState = .reply73

/-- The QSO that the event ends is logged, its peer is in the table, and unless
the table is used up meanwhile no message of this peer starts another one. -/
structure BooksQso (options : Options) (adiOpens : Bool) (earlier : List QsoEvent)
    (event : QsoEvent) (later : List QsoEvent) : Prop where
  logged : ∃ record ∈ qsoRecords options adiOpens (earlier ++ [event]),
    record.src = (qsoRun options adiOpens earlier).currentQSO.src
  entered : (qsoRun options adiOpens (earlier ++ [event])).peers.checkPeer
    (qsoRun options adiOpens earlier).currentQSO.src.chars = true
  remembered : ∀ meanwhile qsoMsg rest, later = meanwhile ++ .message qsoMsg :: rest →
    qsoMsg.src.chars = (qsoRun options adiOpens earlier).currentQSO.src.chars →
    peersAdded options (qsoRun options adiOpens (earlier ++ [event])) meanwhile
      < maxQsoPeers →
    (qsoRun options adiOpens (earlier ++ event :: meanwhile)).qsoState = .idle →
      (qsoRun options adiOpens (earlier ++ event :: meanwhile ++ [.message qsoMsg])).qsoState =
        .idle

/-- In a run from program start, every finished QSO leaves the books
complete. -/
def BooksFinishedQsos (options : Options) (adiOpens : Bool) (events : List QsoEvent) : Prop :=
  ∀ earlier event later, events = earlier ++ event :: later →
    FinishesQso options adiOpens earlier event →
      BooksQso options adiOpens earlier event later

/-- Every finished QSO has handled the RR73 of its peer, and the ADIF file opened
when it was logged. -/
def FinishesThroughRR73 (options : Options) (adiOpens : Bool) (events : List QsoEvent) :
    Prop :=
  ∀ earlier event, earlier ++ [event] <+: events →
    FinishesQso options adiOpens earlier event →
      (∃ taken ∈ qsoEpisode options adiOpens earlier,
        HandlesRR73 options taken.before taken.event) ∧
      ∃ taken ∈ qsoEpisode options adiOpens (earlier ++ [event]),
        LogsQso options taken.before taken.event ∧ taken.before.adiOpens = true

/-- No new peer takes the last entry of the table. -/
def NeverFillsTable (options : Options) (adiOpens : Bool) (events : List QsoEvent) : Prop :=
  ∀ taken ∈ qsoSteps options adiOpens events,
    HandlesRR73 options taken.before taken.event →
      taken.before.peers.checkPeer taken.before.currentQSO.src.chars = false →
        ¬ FillsTable taken.before

/-! ### The log -/

theorem adiFile_step (options : Options) (handler : QsoHandler) (event : QsoEvent) :
    (LogsQso options handler event ∧ handler.adiOpens = true ∧
      ∃ record, record.src = handler.currentQSO.src ∧
        (qsoStep options handler event).adiFile = handler.adiFile ++ [record]) ∨
    (¬ (LogsQso options handler event ∧ handler.adiOpens = true) ∧
      (qsoStep options handler event).adiFile = handler.adiFile) := by
  by_cases logs : LogsQso options handler event
  · obtain ⟨record, src, -, file⟩ := logsOnce_of_logsQso logs
    by_cases opens : handler.adiOpens = true
    · exact Or.inl ⟨logs, opens, record, src, by simpa [opens] using file⟩
    · exact Or.inr ⟨fun both => opens both.2, by simpa [opens] using file⟩
  · exact Or.inr ⟨fun both => logs both.1, (keepsLog_of_not_logsQso logs).adiFile_eq⟩

/-- All steps of a QSO, the one that ends it included, are about one peer. -/
theorem src_of_mem_qsoEpisode_append {adiOpens : Bool} {earlier : List QsoEvent}
    (inProgress : (qsoRun options adiOpens earlier).qsoState ≠ .idle)
    {taken : EventRuns.Step QsoHandler QsoEvent}
    (takenMem : taken ∈ qsoEpisode options adiOpens (earlier ++ [event]))
    (active : taken.before.qsoState ≠ .idle) :
    taken.before.currentQSO.src = (qsoRun options adiOpens earlier).currentQSO.src := by
  rw [qsoEpisode_append_of_inProgress inProgress] at takenMem
  rcases List.mem_append.mp takenMem with early | last
  · exact src_of_mem_qsoEpisode inProgress taken early active
  · rw [List.mem_singleton.mp last]

/-- A QSO is on record exactly when one of its steps logged it while the file
opened. -/
theorem logged_iff {adiOpens : Bool} {earlier : List QsoEvent}
    (inProgress : (qsoRun options adiOpens earlier).qsoState ≠ .idle) :
    (∃ record ∈ qsoRecords options adiOpens (earlier ++ [event]),
      record.src = (qsoRun options adiOpens earlier).currentQSO.src) ↔
    ∃ taken ∈ qsoEpisode options adiOpens (earlier ++ [event]),
      LogsQso options taken.before taken.event ∧ taken.before.adiOpens = true := by
  constructor
  · rintro ⟨record, recordMem, -⟩
    obtain ⟨taken, takenMem, written⟩ := List.mem_flatMap.mp recordMem
    refine ⟨taken, takenMem, ?_⟩
    rcases adiFile_step options taken.before taken.event with
      ⟨logs, opens, -⟩ | ⟨-, unchanged⟩
    · exact ⟨logs, opens⟩
    · rw [after_of_mem_qsoEpisode takenMem, unchanged] at written
      simp at written
  · rintro ⟨taken, takenMem, logs, opens⟩
    rcases adiFile_step options taken.before taken.event with
      ⟨-, -, record, src, written⟩ | ⟨silent, -⟩
    · refine ⟨record, List.mem_flatMap.mpr ⟨taken, takenMem, ?_⟩, ?_⟩
      · rw [after_of_mem_qsoEpisode takenMem, written]
        simp
      · rw [src, src_of_mem_qsoEpisode_append inProgress takenMem logs.inProgress]
    · exact absurd ⟨logs, opens⟩ silent

/-! ### The table during a QSO -/

/-- A QSO begins with a message of a peer that is not in the table. -/
theorem unknown_of_begins (isIdle : handler.qsoState = .idle)
    (begins : (qsoStep options handler event).qsoState ≠ .idle) :
    (qsoStep options handler event).peers.checkPeer
      (qsoStep options handler event).currentQSO.src.chars = false := by
  cases event with
  | tick => exact absurd isIdle begins
  | adiFile opens => exact absurd isIdle begins
  | command command => cases command <;> exact absurd isIdle begins
  | update theSlot =>
      rcases update_keeps_or_ends options theSlot handler with ended | ⟨kept, -⟩
      · exact absurd ended begins
      · exact absurd (kept.trans isIdle) begins
  | message qsoMsg =>
      have stillOut : (qsoStep options handler (.message qsoMsg)).peers = handler.peers := by
        apply peers_of_not_handlesRR73
        rintro ⟨other, same, continued, -⟩
        exact continued.inProgress isIdle
      rw [stillOut]
      change (dispatch options qsoMsg handler).qsoState ≠ .idle at begins
      change handler.peers.checkPeer
        (dispatch options qsoMsg handler).currentQSO.src.chars = false
      rcases dispatch_cases options handler qsoMsg with continued | started | answered | same
      · exact absurd isIdle continued.inProgress
      · rw [dispatch_of_startsQso started]
        have src : (startQso qsoMsg handler).currentQSO.src = qsoMsg.src := by
          cases parsed : parseMsg qsoMsg.message.chars <;> simp [startQso, parsed]
        rw [src]
        exact started.unknown
      · rw [dispatch_of_answersCq answered]
        exact answered.unknown
      · rw [same] at begins
        exact absurd isIdle begins

/-- During a QSO its peer stays out of the table until its RR73 is handled. -/
theorem handlesRR73_or_unknown {adiOpens : Bool} {events : List QsoEvent}
    (inProgress : (qsoRun options adiOpens events).qsoState ≠ .idle) :
    (∃ taken ∈ qsoEpisode options adiOpens events,
      HandlesRR73 options taken.before taken.event) ∨
    (qsoRun options adiOpens events).peers.checkPeer
      (qsoRun options adiOpens events).currentQSO.src.chars = false := by
  refine EventRuns.episode_induction (qsoStep options) QsoHandler.qsoInProgress
    (fun episode state =>
      (∃ taken ∈ episode, HandlesRR73 options taken.before taken.event) ∨
        state.peers.checkPeer state.currentQSO.src.chars = false)
    ?_ ?_ rfl events ((qsoInProgress_iff _).mpr inProgress)
  · intro taken after wasIdle isActive
    rw [after] at isActive ⊢
    exact Or.inr (unknown_of_begins (by simpa using wasIdle) (by simpa using isActive))
  · intro earlier taken after wasActive isActive ih
    by_cases handles : HandlesRR73 options taken.before taken.event
    · exact Or.inl ⟨taken, by simp, handles⟩
    · rcases ih with ⟨one, oneMem, early⟩ | unknown
      · exact Or.inl ⟨one, List.mem_append_left _ oneMem, early⟩
      · right
        rw [after] at isActive ⊢
        rw [peers_of_not_handlesRR73 handles, src_step_of_inProgress options taken.event
          (by simpa using wasActive) (by simpa using isActive)]
        exact unknown

/-! ### The table after a QSO -/

theorem checkPeer_step_of_known
    (room : HandlesRR73 options handler event →
      handler.peers.checkPeer handler.currentQSO.src.chars = false → ¬ FillsTable handler)
    {thePeer : List Char} (known : handler.peers.checkPeer thePeer = true) :
    (qsoStep options handler event).peers.checkPeer thePeer = true := by
  by_cases handles : HandlesRR73 options handler event
  · rw [peers_of_handlesRR73 handles]
    cases isKnown : handler.peers.checkPeer handler.currentQSO.src.chars with
    | true => rwa [PeerTable.addPeer_of_known isKnown]
    | false =>
        exact PeerTable.checkPeer_addPeer_of_lt (Nat.not_le.mp (room handles isKnown))
          (Or.inl known)
  · rwa [peers_of_not_handlesRR73 handles]

theorem checkPeer_step_of_handlesRR73
    (room : HandlesRR73 options handler event →
      handler.peers.checkPeer handler.currentQSO.src.chars = false → ¬ FillsTable handler)
    (handles : HandlesRR73 options handler event) :
    (qsoStep options handler event).peers.checkPeer handler.currentQSO.src.chars = true := by
  rw [peers_of_handlesRR73 handles]
  cases isKnown : handler.peers.checkPeer handler.currentQSO.src.chars with
  | true => rwa [PeerTable.addPeer_of_known isKnown]
  | false =>
      exact PeerTable.checkPeer_addPeer_of_lt (Nat.not_le.mp (room handles isKnown))
        (Or.inr rfl)

/-- As long as the table is not filled, a known peer stays known. -/
theorem checkPeer_qsoRun_append {adiOpens : Bool} {earlier more : List QsoEvent}
    (room : NeverFillsTable options adiOpens (earlier ++ more)) {thePeer : List Char}
    (known : (qsoRun options adiOpens earlier).peers.checkPeer thePeer = true) :
    (qsoRun options adiOpens (earlier ++ more)).peers.checkPeer thePeer = true := by
  induction more generalizing earlier with
  | nil => simpa using known
  | cons event more ih =>
      rw [List.append_cons] at room ⊢
      apply ih room
      rw [qsoRun_append_singleton]
      refine checkPeer_step_of_known ?_ known
      exact room ⟨qsoRun options adiOpens earlier, event,
          qsoStep options (qsoRun options adiOpens earlier) event⟩
        (EventRuns.mem_steps_iff.mpr ⟨earlier, more, by simp, rfl, rfl⟩)

theorem neverFillsTable_of_isPrefix {adiOpens : Bool} {earlier events : List QsoEvent}
    (room : NeverFillsTable options adiOpens events) (isPrefix : earlier <+: events) :
    NeverFillsTable options adiOpens earlier := by
  obtain ⟨more, rfl⟩ := isPrefix
  intro taken takenMem
  apply room taken
  rw [qsoSteps, EventRuns.steps_append]
  exact List.mem_append_left _ takenMem

/-- A peer whose RR73 was handled is known from then on. -/
theorem checkPeer_of_handlesRR73 {adiOpens : Bool} {events : List QsoEvent}
    (room : NeverFillsTable options adiOpens events)
    {taken : EventRuns.Step QsoHandler QsoEvent}
    (takenMem : taken ∈ qsoSteps options adiOpens events)
    (handles : HandlesRR73 options taken.before taken.event) :
    (qsoRun options adiOpens events).peers.checkPeer taken.before.currentQSO.src.chars =
      true := by
  obtain ⟨earlier, later, split, before, -⟩ := EventRuns.mem_steps_iff.mp takenMem
  rw [List.append_cons] at split
  have after : qsoRun options adiOpens (earlier ++ [taken.event]) =
      qsoStep options taken.before taken.event := by
    rw [qsoRun_append_singleton, before]
    rfl
  rw [split] at room ⊢
  apply checkPeer_qsoRun_append room
  rw [after]
  exact checkPeer_step_of_handlesRR73
    (room taken (by rwa [← split])) handles

theorem dispatch_of_known {qsoMsg : PlainMessage} (isIdle : handler.qsoState = .idle)
    (known : handler.peers.checkPeer qsoMsg.src.chars = true) :
    dispatch options qsoMsg handler = handler := by
  rcases dispatch_cases options handler qsoMsg with continued | started | answered | same
  · exact absurd isIdle continued.inProgress
  · simp [started.unknown] at known
  · simp [answered.unknown] at known
  · exact same

/-- The books of finished QSOs are complete in every run that never fills the
table and finishes its QSOs through RR73 only, and in no run that finishes one
otherwise. -/
theorem booksFinishedQsos_of_finishesThroughRR73 (options : Options) (adiOpens : Bool)
    (events : List QsoEvent) :
    (FinishesThroughRR73 options adiOpens events → NeverFillsTable options adiOpens events →
      BooksFinishedQsos options adiOpens events) ∧
    (BooksFinishedQsos options adiOpens events →
      FinishesThroughRR73 options adiOpens events) := by
  constructor
  · intro throughRR73 room earlier event later split finishes
    have isPrefix : earlier ++ [event] <+: events := ⟨later, by simp [split]⟩
    obtain ⟨⟨taken, takenMem, handles⟩, written⟩ :=
      throughRR73 earlier event isPrefix finishes
    have entered : (qsoRun options adiOpens (earlier ++ [event])).peers.checkPeer
        (qsoRun options adiOpens earlier).currentQSO.src.chars = true := by
      have samePeer := src_of_mem_qsoEpisode finishes.inProgress taken takenMem
        handles.inProgress
      have prefixRoom := neverFillsTable_of_isPrefix room isPrefix
      apply checkPeer_qsoRun_append prefixRoom
      rw [← samePeer]
      exact checkPeer_of_handlesRR73
        (neverFillsTable_of_isPrefix prefixRoom (List.prefix_append earlier [event]))
        (EventRuns.mem_of_mem_episode takenMem) handles
    refine ⟨(logged_iff finishes.inProgress).mpr written, entered, ?_⟩
    intro meanwhile qsoMsg rest laterSplit samePeer _ isIdle
    have known : (qsoRun options adiOpens (earlier ++ event :: meanwhile)).peers.checkPeer
        qsoMsg.src.chars = true := by
      rw [samePeer, List.append_cons]
      refine checkPeer_qsoRun_append (neverFillsTable_of_isPrefix room ?_) entered
      exact ⟨.message qsoMsg :: rest, by simp [split, laterSplit]⟩
    rw [qsoRun_append_singleton]
    change (dispatch options qsoMsg _).qsoState = .idle
    rwa [dispatch_of_known isIdle known]
  · intro books earlier event isPrefix finishes
    obtain ⟨later, split⟩ := isPrefix
    have booked := books earlier event later (by simp [← split]) finishes
    refine ⟨?_, (logged_iff finishes.inProgress).mp booked.logged⟩
    rcases handlesRR73_or_unknown finishes.inProgress with handled | unknown
    · exact handled
    · have notHandled : ¬ HandlesRR73 options (qsoRun options adiOpens earlier) event := by
        rintro ⟨qsoMsg, rfl, continued, isRR73⟩
        have ended := finishes.ended
        rw [qsoRun_append_singleton] at ended
        change (dispatch options qsoMsg _).qsoState = .idle at ended
        rw [dispatch_of_continuesQso continued, qsoState_continueQso, isRR73] at ended
        simp at ended
      have entered := booked.entered
      rw [qsoRun_append_singleton, peers_of_not_handlesRR73 notHandled, unknown] at entered
      exact absurd entered (by decide)

/-- A QSO that the peer ends by answering our RR73 with 73. -/
def peerSends73 : List QsoEvent :=
  [.command (.autoQSO true), .tick, .message (sampleCall "JO65".toList), .update .even,
    .tick, .update .odd, .tick, .message (sampleCall "R-10".toList), .update .even,
    .tick, .update .odd, .tick, .message (sampleCall "73".toList), .update .even]

/-- The QSO is neither logged nor is its peer entered. -/
theorem not_booksFinishedQsos_peerSends73 :
    ¬ BooksFinishedQsos sampleStation true peerSends73 := by
  intro books
  have finishes : FinishesQso sampleStation true (peerSends73.take 12)
      (.message (sampleCall "73".toList)) :=
    ⟨by decide, by decide, by decide⟩
  have booked := books (peerSends73.take 12) (.message (sampleCall "73".toList))
    [.update .even] rfl finishes
  exact absurd booked.entered (by decide)

end RtlsdrFt8d
