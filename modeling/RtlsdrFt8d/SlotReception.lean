import RtlsdrFt8d.CandidateDecoding
import RtlsdrFt8d.CandidateSearch
import RtlsdrFt8d.DuplicateMessages

/-!
# Reception of a slot

`decode` from the waterfall of a slot to the messages that it handles: the search
for candidates, the decoder for each of them, and the loop that drops duplicates.
What is handled was sent as it is, and a clear signal that is strong enough is
handled once.
-/

namespace RtlsdrFt8d

/-- `K_MAX_CANDIDATES`. -/
def maxCandidates : Nat := 120

/-- `K_MIN_SCORE`. -/
def minScore : Int := 10

/-- `K_LDPC_ITERS`. -/
def ldpcIters : Nat := 20

/-- The waterfall of a slot, what `decode` computes from it besides the messages,
and what it finds in its uninitialised variables. -/
structure RecordedSlot (K : Type*) (wf : SearchedWaterfall) where
  mag : Int → UInt8
  sqrtf : K → K
  freqHz : ScoredCandidate wf → Int32
  estSnr : ScoredCandidate wf → Int32
  candidateList : Nat → ScoredCandidate wf
  plain174 : ScoredCandidate wf → Vector Bool 174
  leftover : ScoredCandidate wf → CString 40

section Functions

variable {K : Type*} [Zero K] [One K] [Add K] [Sub K] [Mul K] [Div K] [Neg K] [NatCast K] [LT K]
  [DecidableLT K] [LE K] [DecidableLE K] {wf : SearchedWaterfall}

namespace RecordedSlot

variable (slot : RecordedSlot K wf)

/-- `candidate_list`. -/
def found : List (ScoredCandidate wf) :=
  ftxFindCandidates slot.mag maxCandidates slot.candidateList minScore

/-- The message of a candidate, unless `decode` goes on to the next one. -/
def accepted (cand : ScoredCandidate wf) : Option Candidate :=
  match ftxDecodeCandidate slot.sqrtf slot.mag cand.position ldpcIters (slot.plain174 cand) with
  | .error _ => none
  | .ok message =>
      some
        { message := message
          freqHz := slot.freqHz cand
          snr := slot.estSnr cand
          leftover := slot.leftover cand }

/-- The candidates that carry a message, strongest first. -/
def candidates : List Candidate :=
  slot.found.filterMap slot.accepted

end RecordedSlot

/-- `decode` on a recorded slot. -/
def receiveSlot (options : Options) (clock : SlotClock) (callsigns : CallsignTable)
    (slot : RecordedSlot K wf) : SlotDecoding :=
  decodeSlot options clock callsigns slot.candidates

/-! ## Any arithmetic -/

variable {slot : RecordedSlot K wf}

theorem exists_of_mem_candidates {candidate : Candidate}
    (isCandidate : candidate ∈ slot.candidates) :
    ∃ cand ∈ slot.found, ftxDecodeCandidate slot.sqrtf slot.mag cand.position ldpcIters
      (slot.plain174 cand) = .ok candidate.message := by
  obtain ⟨cand, isFound, isAccepted⟩ := List.mem_filterMap.mp isCandidate
  refine ⟨cand, isFound, ?_⟩
  unfold RecordedSlot.accepted at isAccepted
  split at isAccepted
  · cases isAccepted
  · rename_i decoded
    obtain rfl := Option.some.inj isAccepted
    exact decoded

theorem mem_candidates_of_decoded {cand : ScoredCandidate wf} (isFound : cand ∈ slot.found)
    {message : FtxMessage}
    (decoded : ftxDecodeCandidate slot.sqrtf slot.mag cand.position ldpcIters
      (slot.plain174 cand) = .ok message) :
    message ∈ slot.candidates.map (·.message) := by
  have isAccepted : slot.accepted cand = some ⟨message, slot.freqHz cand, slot.estSnr cand,
      slot.leftover cand⟩ := by
    unfold RecordedSlot.accepted
    split
    · rename_i failed
      exact absurd (failed.symm.trans decoded) (by simp)
    · rename_i succeeded
      obtain rfl := Except.ok.inj (succeeded.symm.trans decoded)
      rfl
  exact List.mem_map.mpr ⟨_, List.mem_filterMap.mpr ⟨cand, isFound, isAccepted⟩, rfl⟩

/-- The hash of a message is the checksum of its payload. -/
theorem hash_of_mem_candidates {candidate : Candidate} (isCandidate : candidate ∈ slot.candidates) :
    candidate.message.hash = payloadCrc candidate.message.payload := by
  obtain ⟨cand, -, decoded⟩ := exists_of_mem_candidates isCandidate
  exact (ftxDecodeCandidate_sound decoded).2.1

theorem eq_of_payload_eq {first second : FtxMessage}
    (isFirst : first ∈ slot.candidates.map (·.message))
    (isSecond : second ∈ slot.candidates.map (·.message))
    (same : first.payload = second.payload) : first = second := by
  obtain ⟨firstCandidate, isCandidate, rfl⟩ := List.mem_map.mp isFirst
  obtain ⟨secondCandidate, isOther, rfl⟩ := List.mem_map.mp isSecond
  have firstHash := hash_of_mem_candidates isCandidate
  have secondHash := hash_of_mem_candidates isOther
  rw [same, ← secondHash] at firstHash
  cases firstMessage : firstCandidate.message
  cases secondMessage : secondCandidate.message
  rw [firstMessage, secondMessage] at same firstHash
  simp only at same firstHash
  rw [same, firstHash]

variable (options : Options) (clock : SlotClock) (callsigns : CallsignTable)

/-- The payloads that a slot hands over are distinct. -/
theorem nodup_handled (slot : RecordedSlot K wf) :
    ((handledMessages options clock callsigns slot.candidates).map (·.payload)).Nodup := by
  rw [handledMessages_eq_kept]
  exact (LinearProbing.nodup_kept _).map_on fun first isFirst second isSecond =>
    eq_of_payload_eq (LinearProbing.kept_subset _ isFirst) (LinearProbing.kept_subset _ isSecond)

/-- Whatever `float` computes and whatever the waterfall holds, a slot handles no
payload twice, and all 174 bits of each were found, behind a sync pattern, as
`ft8_encode` sends them. -/
theorem receiveSlot_sound (slot : RecordedSlot K wf) :
    ((handledMessages options clock callsigns slot.candidates).map (·.payload)).Nodup ∧
      ∀ message ∈ handledMessages options clock callsigns slot.candidates,
        message.hash = payloadCrc message.payload ∧
          message.payload ≠ Vector.replicate 10 0 ∧
            ∃ cand ∈ slot.found, minScore ≤ cand.position.syncScore slot.mag ∧
              packBits (decodeBits slot.sqrtf slot.mag cand.position ldpcIters
                (slot.plain174 cand)).1 174 = encode174 (addCrc message.payload) := by
  refine ⟨nodup_handled options clock callsigns slot, fun message isHandled => ?_⟩
  rw [handledMessages_eq_kept] at isHandled
  obtain ⟨candidate, isCandidate, rfl⟩ :=
    List.mem_map.mp (LinearProbing.kept_subset _ isHandled)
  obtain ⟨cand, isFound, decoded⟩ := exists_of_mem_candidates isCandidate
  obtain ⟨codeword, hash, -, nonzero⟩ := ftxDecodeCandidate_sound decoded
  have strong := (findsBest_ftxFindCandidates (show 0 < maxCandidates by decide) slot.mag
    slot.candidateList minScore).scored cand isFound
  exact ⟨hash, nonzero, cand, isFound, strong.2, codeword⟩

end Functions

/-! ## Exact arithmetic -/

section Clear

variable {K : Type*} [Field K] [LinearOrder K] [IsStrictOrderedRing K]
variable {wf : SearchedWaterfall} {slot : RecordedSlot K wf}

/-- The slot has a clear signal with the tones of a payload, which is long enough,
among the strongest, and not one message too many. -/
structure HeardClearly (slot : RecordedSlot K wf) (payload : Vector UInt8 10) : Prop where
  sqrtf_pos : ∀ x, 0 < x → 0 < slot.sqrtf x
  long : 91 ≤ wf.numBlocks
  signal : ∃ position : FtxCandidate wf, ClearSignal slot.mag position (ft8Encode payload) ∧
    minScore ≤ position.syncScore slot.mag ∧
      (eligible slot.mag (position.syncScore slot.mag) wf).length ≤ maxCandidates
  few : (slot.candidates.map (·.message)).toFinset.card ≤ maxMessages

theorem HeardClearly.exists_handled {payload : Vector UInt8 10}
    (heard : HeardClearly slot payload) (nonzero : clearTail payload ≠ Vector.replicate 10 0)
    (options : Options) (clock : SlotClock) (callsigns : CallsignTable) :
    ∃ message ∈ handledMessages options clock callsigns slot.candidates,
      message.payload = clearTail payload := by
  obtain ⟨sqrtf_pos, long, ⟨position, clear, strong, noCrowd⟩, few⟩ := heard
  have isPosition := (findsBest_ftxFindCandidates (show 0 < maxCandidates by decide) slot.mag
    slot.candidateList minScore).mem_of_few strong noCrowd
  obtain ⟨cand, isFound, rfl⟩ := List.mem_map.mp isPosition
  have decoded := ftxDecodeCandidate_of_clear sqrtf_pos nonzero clear (known_recordedBits long)
    (show 1 < ldpcIters by decide) (slot.plain174 cand)
  rw [handledMessages_eq_kept]
  exact ⟨_, LinearProbing.mem_kept_of_card_le few (mem_candidates_of_decoded isFound decoded), rfl⟩

/-- In exact arithmetic, a clear signal is handled exactly once if it is among the
strongest and the slot has no more messages than the table has entries. -/
theorem receiveSlot_hears (options : Options) (clock : SlotClock) (callsigns : CallsignTable)
    {payload : Vector UInt8 10} (heard : HeardClearly slot payload)
    (nonzero : clearTail payload ≠ Vector.replicate 10 0) :
    ((handledMessages options clock callsigns slot.candidates).map (·.payload)).count
      (clearTail payload) = 1 :=
  List.count_eq_one_of_mem (nodup_handled options clock callsigns slot)
    (List.mem_map.mpr (heard.exists_handled nonzero options clock callsigns))

end Clear

theorem visited_cqWaterfall : (visited cqWaterfall).length = 30 := by
  decide +kernel

/-- The late recording of a CQ call. -/
def cqSlot {K : Type*} (sqrtf : K → K) : RecordedSlot K cqWaterfall where
  mag := cqMag
  sqrtf := sqrtf
  freqHz _ := 0
  estSnr _ := 0
  candidateList _ := cqPosition.scored cqMag
  plain174 _ := Vector.replicate 174 false
  leftover _ := .empty 40

theorem heardClearly_cqSlot : HeardClearly (cqSlot Real.sqrt) cqPayload where
  sqrtf_pos _ := Real.sqrt_pos.mpr
  long := by decide
  signal := by
    refine ⟨cqPosition, clearSignal_cqMag, by decide +kernel, ?_⟩
    exact ((List.length_filter_le _ _).trans visited_cqWaterfall.le).trans (by decide)
  few := by
    have distinct := (findsBest_ftxFindCandidates (show 0 < maxCandidates by decide) cqMag
      (cqSlot Real.sqrt).candidateList minScore).distinct
    have foundCount := distinct.length_le_of_subset fun position _ => mem_visited position
    rw [List.length_map, visited_cqWaterfall] at foundCount
    refine (List.toFinset_card_le _).trans ?_
    rw [List.length_map]
    exact ((List.length_filterMap_le _ _).trans foundCount).trans (by decide)

theorem receiveSlot_hears_cqSlot :
    ((handledMessages sampleStation sampleClock hashtableInit
      (cqSlot Real.sqrt).candidates).map (·.payload)).count (clearTail cqPayload) = 1 :=
  receiveSlot_hears sampleStation sampleClock hashtableInit heardClearly_cqSlot
    (by decide +kernel)

end RtlsdrFt8d
