import RtlsdrFt8d.LinearProbing
import RtlsdrFt8d.SlotRouting

/-!
# Duplicates within a slot

Several candidates of a slot may carry one message.  The loop of `decode` looks
every message up in a table of its own before it unpacks it, so each message is
unpacked and routed for the first of its candidates only, as long as the table
has room.
-/

namespace RtlsdrFt8d

open LinearProbing

/-! ## The probe loop -/

/-- The variables of the probe loop. -/
structure Probe where
  idxHash : Fin maxMessages
  foundEmptySlot : Bool
  foundDuplicate : Bool
  deriving DecidableEq

theorem messageHome_lt (message : FtxMessage) :
    message.hash.toNat % maxMessages < maxMessages :=
  Nat.mod_lt _ (by decide)

/-- `message.hash % K_MAX_MESSAGES`. -/
def messageHome (message : FtxMessage) : Fin maxMessages :=
  ⟨message.hash.toNat % maxMessages, messageHome_lt message⟩

section ProbeLoop

variable (decodedHashtable : Vector (Option FtxMessage) maxMessages) (message : FtxMessage)

def Probe.start : Probe where
  idxHash := messageHome message
  foundEmptySlot := false
  foundDuplicate := false

/-- The body of the loop, with `exit_flag` false. -/
def probeStep (probe : Probe) : Probe :=
  match decodedHashtable.get probe.idxHash with
  | none => { probe with foundEmptySlot := true }
  | some decoded =>
      if decoded.hash = message.hash ∧ decoded.payload = message.payload then
        { probe with foundDuplicate := true }
      else
        let idxHash := nextIndex probe.idxHash
        { probe with
          idxHash := idxHash
          foundDuplicate := probe.foundDuplicate || messageHome message = idxHash }

/-- The variables after some passes of the loop. -/
def probeAfter (passes : Nat) : Probe :=
  (probeStep decodedHashtable message)^[passes] (.start message)

/-- The loop is left. -/
def Probe.Done (probe : Probe) : Prop :=
  probe.foundEmptySlot = true ∨ probe.foundDuplicate = true

/-- The loop ends after at most as many passes as there are entries, and hands
over the entry that `findEmptySlot` finds. -/
structure ProbeEnds (passes : Nat) : Prop where
  pos : 0 < passes
  le : passes ≤ maxMessages
  done : (probeAfter decodedHashtable message passes).Done
  first : ∀ earlier, 0 < earlier → earlier < passes →
    ¬ (probeAfter decodedHashtable message earlier).Done
  outcome : findEmptySlot decodedHashtable message =
    if (probeAfter decodedHashtable message passes).foundEmptySlot then
      some (probeAfter decodedHashtable message passes).idxHash
    else none

variable {decodedHashtable message}

theorem passes_iff_ne {decoded : FtxMessage} :
    Passes id message (some decoded) ↔
      ¬ (decoded.hash = message.hash ∧ decoded.payload = message.payload) := by
  cases decoded
  cases message
  simp [Passes, and_comm]

theorem place_nextIndex (idxHash : Fin maxMessages) (i : Nat) :
    place (nextIndex idxHash) i = place idxHash (i + 1) := by
  ext
  simp only [place, nextIndex]
  rw [Nat.mod_add_mod, Nat.add_assoc, Nat.add_comm 1 i]

theorem nextIndex_place (home : Fin maxMessages) (i : Nat) :
    nextIndex (place home i) = place home (i + 1) := by
  ext
  simp only [place, nextIndex]
  rw [Nat.mod_add_mod, Nat.add_assoc]

/-- The recursion finds the empty entry behind others that it passes. -/
theorem probeLoop_eq_some_iff (remaining : Nat) (idxHash empty : Fin maxMessages) :
    probeLoop decodedHashtable message remaining idxHash = some empty ↔
      ∃ i < remaining, place idxHash i = empty ∧ decodedHashtable.get empty = none ∧
        ∀ j < i, Passes id message (decodedHashtable.get (place idxHash j)) := by
  induction remaining generalizing idxHash with
  | zero => simp [probeLoop]
  | succ remaining ih =>
      rw [probeLoop]
      cases here : decodedHashtable.get idxHash with
      | none =>
          constructor
          · rintro ⟨rfl⟩
            exact ⟨0, Nat.succ_pos _, place_zero _, here, by simp⟩
          · rintro ⟨i, -, rfl, -, passes⟩
            cases i with
            | zero => rw [place_zero]
            | succ i =>
                have passesFirst := passes 0 (Nat.succ_pos i)
                rw [place_zero, here] at passesFirst
                exact passesFirst.elim
      | some decoded =>
          dsimp only
          split_ifs with same
          · simp only [false_iff]
            rintro ⟨i, -, rfl, isEmpty, passes⟩
            cases i with
            | zero =>
                rw [place_zero, here] at isEmpty
                cases isEmpty
            | succ i =>
                have passesFirst := passes 0 (Nat.succ_pos i)
                rw [place_zero, here] at passesFirst
                exact passes_iff_ne.mp passesFirst same
          · rw [ih]
            constructor
            · rintro ⟨i, small, rfl, isEmpty, passes⟩
              refine ⟨i + 1, Nat.succ_lt_succ small, (place_nextIndex idxHash i).symm, isEmpty, ?_⟩
              intro j before
              cases j with
              | zero =>
                  rw [place_zero, here]
                  exact passes_iff_ne.mpr same
              | succ j =>
                  rw [← place_nextIndex]
                  exact passes j (Nat.lt_of_succ_lt_succ before)
            · rintro ⟨i, small, rfl, isEmpty, passes⟩
              cases i with
              | zero =>
                  rw [place_zero, here] at isEmpty
                  cases isEmpty
              | succ i =>
                  refine ⟨i, Nat.lt_of_succ_lt_succ small, place_nextIndex idxHash i, isEmpty,
                    fun j before => ?_⟩
                  rw [place_nextIndex]
                  exact passes (j + 1) (Nat.succ_lt_succ before)

theorem findEmptySlot_eq_some_iff (empty : Fin maxMessages) :
    findEmptySlot decodedHashtable message = some empty ↔
      ∃ i, EndsAt id messageHome decodedHashtable.get message i ∧
        place (messageHome message) i = empty ∧ decodedHashtable.get empty = none := by
  rw [findEmptySlot]
  refine (probeLoop_eq_some_iff _ _ _).trans ?_
  constructor
  · rintro ⟨i, inTable, isPlace, isEmpty, passes⟩
    refine ⟨i, ⟨inTable, ?_, passes⟩, isPlace, isEmpty⟩
    rw [show place (messageHome message) i = empty from isPlace, isEmpty]
    exact id
  · rintro ⟨i, endsAt, isPlace, isEmpty⟩
    exact ⟨i, endsAt.inTable, isPlace, isEmpty, endsAt.passes⟩

/-- One pass at an entry with another message. -/
theorem probeStep_of_passes {probe : Probe}
    (passes : Passes id message (decodedHashtable.get probe.idxHash)) :
    probeStep decodedHashtable message probe =
      ⟨nextIndex probe.idxHash, probe.foundEmptySlot,
        probe.foundDuplicate || messageHome message = nextIndex probe.idxHash⟩ := by
  obtain ⟨decoded, here, -⟩ := passes_iff.mp passes
  rw [here] at passes
  rw [probeStep, here]
  exact if_neg (passes_iff_ne.mp passes)

/-- The loop goes on around the table as long as it passes other messages. -/
theorem probeAfter_of_passes {passes : Nat} (le : passes ≤ maxMessages)
    (passed : ∀ j < passes,
      Passes id message (decodedHashtable.get (place (messageHome message) j))) :
    probeAfter decodedHashtable message passes =
      ⟨place (messageHome message) passes, false, passes = maxMessages⟩ := by
  induction passes with
  | zero =>
      rw [place_zero]
      rfl
  | succ passes ih =>
      have before := ih (by omega) fun j earlier => passed j (by omega)
      have notAround : passes ≠ maxMessages := by omega
      have around : messageHome message = place (messageHome message) (passes + 1) ↔
          passes + 1 = maxMessages := by
        rw [eq_comm, place_eq_home_iff (Nat.succ_pos passes) le]
      rw [probeAfter, Function.iterate_succ_apply', ← probeAfter, before,
        probeStep_of_passes (passed passes (Nat.lt_succ_self _)), nextIndex_place]
      simp [notAround, around]

theorem not_done_of_passes {passes : Nat} (lt : passes < maxMessages)
    (passed : ∀ j < passes,
      Passes id message (decodedHashtable.get (place (messageHome message) j))) :
    ¬ (probeAfter decodedHashtable message passes).Done := by
  rw [probeAfter_of_passes lt.le passed]
  simp [Probe.Done, lt.ne]

/-- Where the search ends, the loop ends with the next pass. -/
theorem probeEnds_of_endsAt {i : Nat}
    (endsAt : EndsAt id messageHome decodedHashtable.get message i) :
    ProbeEnds decodedHashtable message (i + 1) := by
  have inTable := endsAt.inTable
  have next : probeAfter decodedHashtable message (i + 1) =
      probeStep decodedHashtable message ⟨place (messageHome message) i, false, false⟩ := by
    rw [probeAfter, Function.iterate_succ_apply', ← probeAfter,
      probeAfter_of_passes inTable.le endsAt.passes, decide_eq_false inTable.ne]
  have first : ∀ earlier, 0 < earlier → earlier < i + 1 →
      ¬ (probeAfter decodedHashtable message earlier).Done := fun earlier _ lt =>
    not_done_of_passes (by omega) fun j before => endsAt.passes j (by omega)
  cases here : decodedHashtable.get (place (messageHome message) i) with
  | none =>
      rw [probeStep, here] at next
      refine ⟨Nat.succ_pos i, inTable, by simp [next, Probe.Done], first, ?_⟩
      rw [(findEmptySlot_eq_some_iff _).mpr ⟨i, endsAt, rfl, here⟩, next]
      rfl
  | some decoded =>
      have isMessage : decoded.hash = message.hash ∧ decoded.payload = message.payload := by
        have ends := endsAt.ends
        rw [here] at ends
        exact not_not.mp (mt passes_iff_ne.mpr ends)
      simp only [probeStep, here, if_pos isMessage] at next
      refine ⟨Nat.succ_pos i, inTable, by simp [next, Probe.Done], first, ?_⟩
      have notFound : findEmptySlot decodedHashtable message = none := by
        refine Option.eq_none_iff_forall_ne_some.mpr fun empty found => ?_
        obtain ⟨j, otherEnds, rfl, isEmpty⟩ := (findEmptySlot_eq_some_iff empty).mp found
        rw [otherEnds.unique endsAt, here] at isEmpty
        cases isEmpty
      rw [notFound, next]
      rfl

/-- In a table full of other messages the loop ends where it began. -/
theorem probeEnds_of_full
    (full : ∀ i, ¬ EndsAt id messageHome decodedHashtable.get message i) :
    ProbeEnds decodedHashtable message maxMessages := by
  have passes := not_not.mp (mt exists_endsAt_iff.mpr (not_exists.mpr full))
  have last := probeAfter_of_passes le_rfl fun j _ => passes (place (messageHome message) j)
  refine ⟨by decide, le_rfl, by simp [last, Probe.Done], ?_, ?_⟩
  · intro earlier _ lt
    exact not_done_of_passes lt fun j _ => passes (place (messageHome message) j)
  · have notFound : findEmptySlot decodedHashtable message = none := by
      refine Option.eq_none_iff_forall_ne_some.mpr fun empty found => ?_
      obtain ⟨j, endsAt, -, -⟩ := (findEmptySlot_eq_some_iff empty).mp found
      exact full j endsAt
    rw [notFound, last]
    rfl

theorem exists_probeEnds (decodedHashtable : Vector (Option FtxMessage) maxMessages)
    (message : FtxMessage) : ∃ passes, ProbeEnds decodedHashtable message passes := by
  by_cases finds : ∃ i, EndsAt id messageHome decodedHashtable.get message i
  · obtain ⟨i, endsAt⟩ := finds
    exact ⟨i + 1, probeEnds_of_endsAt endsAt⟩
  · exact ⟨maxMessages, probeEnds_of_full (not_exists.mp finds)⟩

end ProbeLoop

/-! ## The loop over the candidates -/

variable (options : Options) (clock : SlotClock) (callsigns : CallsignTable)
  (candidates : List Candidate)

/-- The passes of the loop of `decode`. -/
def decodingSteps : List (EventRuns.Step SlotDecoding Candidate) :=
  EventRuns.steps (decodeCandidate options clock) (.initial callsigns) candidates

/-- The messages that are unpacked and, if that succeeds, routed, in the order of
the loop. -/
def handledMessages : List FtxMessage :=
  ((decodingSteps options clock callsigns candidates).filter fun taken =>
    IsNew taken.before taken.event).map fun taken => taken.event.message

def payloads : List (Vector UInt8 10) :=
  candidates.map fun candidate => candidate.message.payload

/-- What one pass does to the entries and to `num_decoded`. -/
structure KeepsInRange (taken : EventRuns.Step SlotDecoding Candidate) : Prop where
  probeEnds : ∃ passes,
    ProbeEnds taken.before.decodedHashtable taken.event.message passes
  skipsOthers : ¬ IsNew taken.before taken.event → taken.after = taken.before
  keepsSlots : ∀ idx message, taken.before.decodedHashtable.get idx = some message →
    taken.after.decodedHashtable.get idx = some message
  inRange : taken.after.decodes = taken.before.decodes ∨
    taken.before.decodes.length < maxMessages ∧
      ∃ result, taken.after.decodes = taken.before.decodes ++ [result]

/-- Every message of a slot is handled at most once, and once if the slot has no
more messages than the table has entries. -/
structure HandlesOnce : Prop where
  passes : ∀ taken ∈ decodingSteps options clock callsigns candidates, KeepsInRange taken
  atMostOnce : ∀ payload,
    ((handledMessages options clock callsigns candidates).map (·.payload)).count payload ≤ 1
  once : (payloads candidates).toFinset.card ≤ maxMessages →
    ∀ payload ∈ payloads candidates,
      ((handledMessages options clock callsigns candidates).map (·.payload)).count payload = 1
  numDecoded_le : (decodeSlot options clock callsigns candidates).decodes.length ≤ maxMessages

/-! ### One pass -/

variable {options clock callsigns candidates} {decoding : SlotDecoding} {candidate : Candidate}

theorem decodeText_frame (candidate : Candidate) (text : List Char) (decoding : SlotDecoding) :
    (decodeText options clock candidate text decoding).decodedHashtable =
        decoding.decodedHashtable ∧
      ((decodeText options clock candidate text decoding).decodes = decoding.decodes ∨
        ∃ result, (decodeText options clock candidate text decoding).decodes =
          decoding.decodes ++ [result]) := by
  unfold decodeText
  split
  · exact ⟨rfl, Or.inl rfl⟩
  · split
    · unfold decodeCq
      split
      · exact ⟨rfl, Or.inl rfl⟩
      · split
        · exact ⟨rfl, Or.inr ⟨_, rfl⟩⟩
        · exact ⟨rfl, Or.inr ⟨_, rfl⟩⟩
    · split
      · exact ⟨rfl, Or.inl rfl⟩
      · exact ⟨rfl, Or.inl rfl⟩

theorem decodeCandidate_of_not_isNew (notNew : ¬ IsNew decoding candidate) :
    decodeCandidate options clock decoding candidate = decoding := by
  have notFound : findEmptySlot decoding.decodedHashtable candidate.message = none :=
    Option.not_isSome_iff_eq_none.mp notNew
  rw [decodeCandidate, notFound]

theorem decodeCandidate_frame {idxHash : Fin maxMessages}
    (found : findEmptySlot decoding.decodedHashtable candidate.message = some idxHash) :
    (decodeCandidate options clock decoding candidate).decodedHashtable =
        decoding.decodedHashtable.set idxHash (some candidate.message) idxHash.isLt ∧
      ((decodeCandidate options clock decoding candidate).decodes = decoding.decodes ∨
        ∃ result, (decodeCandidate options clock decoding candidate).decodes =
          decoding.decodes ++ [result]) := by
  rw [decodeCandidate, found]
  dsimp only
  split
  · exact ⟨rfl, Or.inl rfl⟩
  · exact decodeText_frame candidate _ _

/-! ### All passes -/

/-- The table records the messages so far, and each entry of `decodes` has one in
the table. -/
structure TracksMessages (decoding : SlotDecoding) (messages : List FtxMessage) : Prop where
  records : Records id messageHome decoding.decodedHashtable.get messages
  decodes_le : decoding.decodes.length ≤ (kept maxMessages messages).length

variable {messages : List FtxMessage}

/-- A message is new unless it was kept before or the table is full. -/
theorem TracksMessages.isNew_iff (tracks : TracksMessages decoding messages) :
    IsNew decoding candidate ↔
      ¬ (candidate.message ∈ kept maxMessages messages ∨
        maxMessages ≤ (kept maxMessages messages).length) := by
  rw [IsNew, Option.isSome_iff_exists, not_or, Nat.not_le]
  constructor
  · rintro ⟨empty, found⟩
    obtain ⟨i, endsAt, rfl, isEmpty⟩ := (findEmptySlot_eq_some_iff empty).mp found
    have absent : candidate.message ∉ kept maxMessages messages := by
      intro known
      obtain ⟨idx, _, stored, rfl⟩ := (tracks.records.stored_iff _).mpr known
      obtain ⟨j, otherEnds, isPlace⟩ := tracks.records.searchable.endsAt_of_stored stored
      have isPlace : place (messageHome candidate.message) j = idx := isPlace
      rw [endsAt.unique otherEnds, isPlace, stored] at isEmpty
      cases isEmpty
    exact ⟨absent, (tracks.records.exists_endsAt_iff.mp ⟨i, endsAt⟩).resolve_left absent⟩
  · rintro ⟨absent, room⟩
    obtain ⟨i, endsAt⟩ := tracks.records.exists_endsAt_iff.mpr (Or.inr room)
    have notStored := mt (tracks.records.stored_iff candidate.message).mp absent
    exact ⟨_, (findEmptySlot_eq_some_iff _).mpr ⟨i, endsAt, rfl, endsAt.eq_none notStored⟩⟩

/-- Another pass keeps track, and adds to `decodes` only where there is room. -/
theorem TracksMessages.step (tracks : TracksMessages decoding messages) (candidate : Candidate) :
    TracksMessages (decodeCandidate options clock decoding candidate)
        (messages ++ [candidate.message]) ∧
      KeepsInRange
        ⟨decoding, candidate, decodeCandidate options clock decoding candidate⟩ := by
  have next := @kept_append_singleton maxMessages _ _ messages candidate.message
  rw [keep] at next
  have probeEnds := exists_probeEnds decoding.decodedHashtable candidate.message
  have skips := @decodeCandidate_of_not_isNew options clock decoding candidate
  by_cases isNew : IsNew decoding candidate
  · have hasRoom := tracks.isNew_iff.mp isNew
    rw [if_neg hasRoom] at next
    obtain ⟨empty, found⟩ := Option.isSome_iff_exists.mp isNew
    obtain ⟨table, pushes⟩ := @decodeCandidate_frame options clock _ _ _ found
    obtain ⟨i, endsAt, rfl, isEmpty⟩ := (findEmptySlot_eq_some_iff empty).mp found
    rw [not_or, Nat.not_le] at hasRoom
    have decodes_le := tracks.decodes_le
    refine ⟨⟨?_, ?_⟩, ⟨probeEnds, skips, ?_, ?_⟩⟩
    · rw [table, get_set]
      exact tracks.records.write endsAt
    · rw [next, List.length_append, List.length_singleton]
      rcases pushes with same | ⟨result, pushed⟩
      · rw [same]
        omega
      · rw [pushed, List.length_append, List.length_singleton]
        omega
    · intro idx message stored
      dsimp only at stored ⊢
      rw [table, get_set, Function.update_of_ne, stored]
      rintro rfl
      rw [isEmpty] at stored
      cases stored
    · rcases pushes with same | pushed
      · exact Or.inl same
      · exact Or.inr ⟨by dsimp only; omega, pushed⟩
  · have full := not_not.mp (mt tracks.isNew_iff.mpr isNew)
    rw [if_pos full] at next
    rw [skips isNew]
    refine ⟨⟨?_, ?_⟩, ⟨probeEnds, fun _ => rfl, fun _ _ stored => stored, Or.inl rfl⟩⟩
    · refine tracks.records.skip ?_
      rcases full with known | noRoom
      · exact Or.inl ((tracks.records.stored_iff _).mpr known)
      · by_cases known : candidate.message ∈ kept maxMessages messages
        · exact Or.inl ((tracks.records.stored_iff _).mpr known)
        · refine Or.inr fun i endsAt => ?_
          have finds := tracks.records.exists_endsAt_iff.mp ⟨i, endsAt⟩
          have room := finds.resolve_left known
          omega
    · rw [next]
      exact tracks.decodes_le

theorem tracksMessages_initial (callsigns : CallsignTable) :
    TracksMessages (.initial callsigns) [] where
  records := by
    rw [SlotDecoding.initial, get_replicate_none]
    exact records_empty
  decodes_le := Nat.zero_le _

theorem decodeSlot_append_singleton (candidates : List Candidate) (candidate : Candidate) :
    decodeSlot options clock callsigns (candidates ++ [candidate]) =
      decodeCandidate options clock (decodeSlot options clock callsigns candidates) candidate := by
  rw [decodeSlot, EventRuns.run_append]
  rfl

theorem tracksMessages_decodeSlot (options : Options) (clock : SlotClock)
    (callsigns : CallsignTable) (candidates : List Candidate) :
    TracksMessages (decodeSlot options clock callsigns candidates)
      (candidates.map (·.message)) := by
  induction candidates using List.reverseRecOn with
  | nil => exact tracksMessages_initial callsigns
  | append_singleton candidates candidate ih =>
      rw [decodeSlot_append_singleton, List.map_append]
      exact (ih.step candidate).1

theorem keepsInRange_of_mem {taken : EventRuns.Step SlotDecoding Candidate}
    (isStep : taken ∈ decodingSteps options clock callsigns candidates) : KeepsInRange taken := by
  obtain ⟨earlier, later, -, before, after⟩ := EventRuns.mem_steps_iff.mp isStep
  have tracks := tracksMessages_decodeSlot options clock callsigns earlier
  have step := (@TracksMessages.step options clock _ _ tracks taken.event).2
  obtain ⟨takenBefore, event, takenAfter⟩ := taken
  dsimp only at before after step
  subst after before
  exact step

/-- The messages that are handled are the ones the table keeps. -/
theorem handledMessages_eq_kept (options : Options) (clock : SlotClock)
    (callsigns : CallsignTable) (candidates : List Candidate) :
    handledMessages options clock callsigns candidates =
      kept maxMessages (candidates.map (·.message)) := by
  induction candidates using List.reverseRecOn with
  | nil => rfl
  | append_singleton candidates candidate ih =>
      have tracks := tracksMessages_decodeSlot options clock callsigns candidates
      have isNew_iff := @TracksMessages.isNew_iff _ candidate _ tracks
      have last : handledMessages options clock callsigns (candidates ++ [candidate]) =
          handledMessages options clock callsigns candidates ++
            if IsNew (decodeSlot options clock callsigns candidates) candidate then
              [candidate.message] else [] := by
        rw [handledMessages, decodingSteps, EventRuns.steps_append_singleton, List.filter_append,
          List.map_append]
        rw [← decodeSlot]
        simp only [List.filter_cons, List.filter_nil, decide_eq_true_eq]
        split_ifs <;> rfl
      rw [last, ih, List.map_append, List.map_singleton, kept_append_singleton, keep]
      by_cases isNew : IsNew (decodeSlot options clock callsigns candidates) candidate
      · rw [if_pos isNew, if_neg (isNew_iff.mp isNew)]
      · rw [if_neg isNew, if_pos (not_not.mp (mt isNew_iff.mpr isNew)), List.append_nil]

/-- Where the hash is a function of the payload, every slot handles its messages
once. -/
theorem handlesOnce_decodeSlot (options : Options) (clock : SlotClock)
    (callsigns : CallsignTable) (candidates : List Candidate)
    (hashOf : Vector UInt8 10 → UInt16)
    (hashed : ∀ candidate ∈ candidates,
      candidate.message.hash = hashOf candidate.message.payload) :
    HandlesOnce options clock callsigns candidates := by
  have tracks := tracksMessages_decodeSlot options clock callsigns candidates
  have handled := handledMessages_eq_kept options clock callsigns candidates
  -- A payload belongs to one message.
  have samePayload : ∀ first ∈ candidates.map (·.message), ∀ second ∈ candidates.map (·.message),
      first.payload = second.payload → first = second := by
    intro first isFirst second isSecond same
    obtain ⟨firstCandidate, isCandidate, rfl⟩ := List.mem_map.mp isFirst
    obtain ⟨secondCandidate, isOther, rfl⟩ := List.mem_map.mp isSecond
    have sameHash : firstCandidate.message.hash = secondCandidate.message.hash := by
      rw [hashed firstCandidate isCandidate, hashed secondCandidate isOther, same]
    cases firstMessage : firstCandidate.message
    cases secondMessage : secondCandidate.message
    simp_all
  have distinct :
      ((handledMessages options clock callsigns candidates).map (·.payload)).Nodup := by
    rw [handled]
    exact (nodup_kept _).map_on fun first isFirst second isSecond =>
      samePayload first (kept_subset _ isFirst) second (kept_subset _ isSecond)
  refine ⟨fun taken => keepsInRange_of_mem, fun payload => ?_, ?_, ?_⟩
  · exact List.nodup_iff_count_le_one.mp distinct payload
  · intro few payload isPayload
    obtain ⟨candidate, isCandidate, rfl⟩ := List.mem_map.mp isPayload
    refine List.count_eq_one_of_mem distinct (List.mem_map.mpr ⟨candidate.message, ?_, rfl⟩)
    rw [handled]
    refine mem_kept_of_card_le ?_ (List.mem_map.mpr ⟨candidate, isCandidate, rfl⟩)
    have image : (payloads candidates).toFinset =
        (candidates.map (·.message)).toFinset.image (·.payload) := by
      ext other
      simp [payloads]
    have sameCard := Finset.card_image_of_injOn
      (s := (candidates.map (·.message)).toFinset) (f := fun message => message.payload)
      fun first isFirst second isSecond =>
        samePayload first (List.mem_toFinset.mp isFirst) second (List.mem_toFinset.mp isSecond)
    rw [← sameCard, ← image]
    exact few
  · exact tracks.decodes_le.trans (length_kept_le _)

/-- A message of `K1ABC` up to its last byte. -/
def payloadUpTo (last : UInt8) : Vector UInt8 10 :=
  #v[0, 97, 95, 144, 77, 239, 26, 138, 25, last]

/-- A message that shows up at two frequencies, with another one in between. -/
def repeatedMessage : List Candidate :=
  [⟨⟨payloadUpTo 136, 7⟩, 1000, -7, .empty 40⟩, ⟨⟨payloadUpTo 8, 57⟩, 1500, -3, .empty 40⟩,
    ⟨⟨payloadUpTo 136, 7⟩, 1003, -9, .empty 40⟩]

theorem handlesOnce_repeatedMessage :
    HandlesOnce sampleStation sampleClock hashtableInit repeatedMessage :=
  handlesOnce_decodeSlot sampleStation sampleClock hashtableInit repeatedMessage
    (fun payload => if payload.get 9 = 136 then 7 else 57) (by decide)

end RtlsdrFt8d
