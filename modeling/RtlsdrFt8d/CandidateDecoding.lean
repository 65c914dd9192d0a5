import Mathlib.Analysis.Real.Sqrt
import RtlsdrFt8d.MessageUnpacking
import RtlsdrFt8d.SymbolLikelihoods

/-!
# Decoding of candidates

`ftx_decode_candidate` goes from the waterfall to a payload.  It accepts nothing
but what `ft8_encode` sends, whatever the arithmetic, and in exact arithmetic it
reads every signal that is clear where it was recorded.
-/

namespace RtlsdrFt8d

open BinaryLinearCodes ErasurePeeling PackedBits

/-! ## The function -/

/-- Why a candidate is no message: parity errors, or a checksum that differs. -/
inductive DecodeFailure where
  | ldpc (errors : Nat)
  | crc (extracted calculated : UInt16)
  deriving DecidableEq

section Functions

variable {K : Type*} [Zero K] [One K] [Add K] [Sub K] [Mul K] [Div K] [Neg K] [NatCast K] [LT K]
  [DecidableLT K] [LE K] [DecidableLE K] {wf : Waterfall}

/-- The bits that `ftx_decode_candidate` obtains from the waterfall, and their
parity errors. -/
def decodeBits (sqrtf : K → K) (mag : Int → UInt8) (cand : FtxCandidate wf) (maxIterations : Nat)
    (plain174 : Vector Bool 174) : Vector Bool 174 × Nat :=
  bpDecode (ftxNormalizeLogl sqrtf (ft8ExtractLikelihood mag cand)) maxIterations plain174

/-- The rest of `ftx_decode_candidate`. -/
def checkBits (plain174 : Vector Bool 174) (ldpcErrors : Nat) : Except DecodeFailure FtxMessage :=
  if 0 < ldpcErrors then .error (.ldpc ldpcErrors)
  else
    let a91 : Vector UInt8 12 := packBits plain174 91
    let crcExtracted := extractCrc a91
    let a91 := clearCrc a91
    let crcCalculated := computeCrc a91 (96 - 14)
    if crcExtracted ≠ crcCalculated then .error (.crc crcExtracted crcCalculated)
    else .ok { payload := Vector.ofFn fun i => a91[i.val], hash := crcCalculated }

/-- `ftx_decode_candidate` for FT8. -/
def ftxDecodeCandidate (sqrtf : K → K) (mag : Int → UInt8) (cand : FtxCandidate wf)
    (maxIterations : Nat) (plain174 : Vector Bool 174) : Except DecodeFailure FtxMessage :=
  let bits := decodeBits sqrtf mag cand maxIterations plain174
  checkBits bits.1 bits.2

end Functions

/-! ## Payloads -/

/-- The payload with what lies behind its 77 bits cleared. -/
def clearTail (payload : Vector UInt8 10) : Vector UInt8 10 :=
  payload.set 9 (payload[9] &&& 0xF8)

theorem bit_clearTail (payload : Vector UInt8 10) (position : Nat) :
    bit (clearTail payload) position = (decide (position < 77) && bit payload position) := by
  have masks : ∀ k < 8, byteBit 0xF8 k = decide (k < 5) := by
    decide
  rw [clearTail, bit_replace _ _ (by decide)]
  by_cases ninth : position / 8 = 9
  · have byte : byteBit payload[9] (position % 8) = bit payload position := by
      rw [bit, ninth]
      rfl
    rw [if_pos ninth, byteBit_and, masks _ (Nat.mod_lt _ (by decide)), byte, Bool.and_comm]
    congr 1
    exact decide_eq_decide.mpr (by omega)
  · rw [if_neg ninth]
    by_cases inside : position < 77
    · simp [inside]
    · rw [bit_eq_false (by omega), Bool.and_false]

/-- The payload that is unpacked from the first bits of a word. -/
theorem bit_unpacked (a91 : Vector UInt8 12) (position : Nat) :
    bit (Vector.ofFn fun i : Fin 10 => (clearCrc a91)[i.val]) position =
      (decide (position < 77) && bit a91 position) := by
  by_cases inside : position < 80
  · rw [← bit_clearCrc a91 (by omega), bit, bit]
    simp [show position / 8 < 10 by omega, show position / 8 < 12 by omega]
  · rw [bit_eq_false (by omega), decide_eq_false (by omega), Bool.false_and]

theorem calculated_eq_payloadCrc (a91 : Vector UInt8 12) :
    computeCrc (clearCrc a91) (96 - 14) =
      payloadCrc (Vector.ofFn fun i : Fin 10 => (clearCrc a91)[i.val]) := by
  rw [payloadCrc]
  apply computeCrc_clearCrc_congr
  intro position inside
  rw [bit_append_zeros, bit_unpacked, decide_eq_true inside, Bool.true_and]

/-- What passes the checksum is what `ftx_add_crc` makes of its payload. -/
theorem eq_addCrc_of_crcPasses {a91 : Vector UInt8 12} (passes : crcPasses a91 = true)
    (padded : ∀ position, 91 ≤ position → bit a91 position = false) :
    a91 = addCrc (Vector.ofFn fun i : Fin 10 => (clearCrc a91)[i.val]) := by
  have checksum : extractCrc a91 =
      payloadCrc (Vector.ofFn fun i : Fin 10 => (clearCrc a91)[i.val]) :=
    (beq_iff_eq.mp passes).trans (calculated_eq_payloadCrc a91)
  apply bytes_ext
  intro position _
  rcases Nat.lt_or_ge position 77 with inPayload | behind
  · rw [bit_addCrc_payload _ inPayload, bit_unpacked, decide_eq_true inPayload, Bool.true_and]
  · rcases Nat.lt_or_ge position 91 with inCrc | behindCrc
    · obtain ⟨k, rfl⟩ := Nat.exists_eq_add_of_le behind
      rw [bit_addCrc_checksum _ (by omega), ← checksum, testBit_extractCrc _ (by omega)]
    · rw [bit_addCrc_padding _ behindCrc, padded position behindCrc]

/-! ## What is accepted -/

theorem checkBits_ok {plain174 : Vector Bool 174} {ldpcErrors : Nat} {message : FtxMessage}
    (accepted : checkBits plain174 ldpcErrors = .ok message) :
    ldpcErrors = 0 ∧ packBits plain174 91 = addCrc message.payload ∧
      message.hash = payloadCrc message.payload := by
  rw [checkBits] at accepted
  split at accepted
  · exact absurd accepted (by simp)
  · rename_i noErrors
    dsimp only at accepted
    split at accepted
    · exact absurd accepted (by simp)
    · rename_i same
      obtain rfl := Except.ok.inj accepted
      have passes : crcPasses (packBits plain174 91) = true := beq_iff_eq.mpr (not_not.mp same)
      have sent := eq_addCrc_of_crcPasses passes fun position behind => by
        rw [bit_packBits, decide_eq_false (by omega), Bool.false_and]
      exact ⟨Nat.eq_zero_of_not_pos noErrors, sent, calculated_eq_payloadCrc _⟩

/-- The bits behind the payload are zero. -/
theorem payload_of_checkBits {plain174 : Vector Bool 174} {ldpcErrors : Nat} {message : FtxMessage}
    (accepted : checkBits plain174 ldpcErrors = .ok message) :
    clearTail message.payload = message.payload := by
  rw [checkBits] at accepted
  split at accepted
  · exact absurd accepted (by simp)
  · dsimp only at accepted
    split at accepted
    · exact absurd accepted (by simp)
    · obtain rfl := Except.ok.inj accepted
      apply bytes_ext
      intro position _
      rw [bit_clearTail, bit_unpacked]
      simp

/-- The code of a payload of zeros has no ones. -/
theorem encode174_addCrc_zero :
    encode174 (addCrc (Vector.replicate 10 0)) = Vector.replicate 22 0 := by
  decide +kernel

theorem countP_eq_zero_of_packBits {plain174 : Vector Bool 174}
    (zero : packBits plain174 174 = Vector.replicate 22 0) : plain174.toList.countP id = 0 := by
  rw [List.countP_eq_zero]
  intro value member isSet
  obtain ⟨n, inside, rfl⟩ := List.mem_iff_getElem.mp member
  rw [Vector.length_toList] at inside
  have clear := bit_packBits plain174 174 n
  have zeroBit : bit (Vector.replicate 22 (0 : UInt8)) n = false := by
    rw [bit, Vector.getElem?_replicate]
    split <;> exact byteBit_zero _
  rw [zero, zeroBit, decide_eq_true inside, Bool.true_and, wordOf,
    Vector.getElem?_eq_getElem inside, Option.getD_some] at clear
  rw [Vector.getElem_toList, id, ← clear] at isSet
  exact Bool.false_ne_true isSet

section Sound

variable {K : Type*} [Zero K] [One K] [Add K] [Sub K] [Mul K] [Div K] [Neg K] [NatCast K] [LT K]
  [DecidableLT K] [LE K] [DecidableLE K] {wf : Waterfall} {sqrtf : K → K} {mag : Int → UInt8}
  {cand : FtxCandidate wf} {maxIterations : Nat} {plain174 : Vector Bool 174}
  {message : FtxMessage}

/-- Whatever `float` computes and whatever the waterfall holds, an accepted
message comes from bits that are, all 174 of them, the codeword that
`ft8_encode` sends for its payload, and its hash is the payload's checksum. -/
theorem ftxDecodeCandidate_sound
    (accepted : ftxDecodeCandidate sqrtf mag cand maxIterations plain174 = .ok message) :
    packBits (decodeBits sqrtf mag cand maxIterations plain174).1 174 =
        encode174 (addCrc message.payload) ∧
      message.hash = payloadCrc message.payload ∧
      clearTail message.payload = message.payload ∧
      message.payload ≠ Vector.replicate 10 0 := by
  have checked : checkBits (decodeBits sqrtf mag cand maxIterations plain174).1
      (decodeBits sqrtf mag cand maxIterations plain174).2 = .ok message := accepted
  obtain ⟨noErrors, sent, hash⟩ := checkBits_ok checked
  obtain ⟨isCodeword, ones⟩ := bpDecode_accepts _ noErrors
  have bits := (ldpcCheck_eq_zero_iff_encode174 _).mp isCodeword
  have codeword : packBits (decodeBits sqrtf mag cand maxIterations plain174).1 174 =
      encode174 (addCrc message.payload) := bits.trans (congrArg encode174 sent)
  refine ⟨codeword, hash, payload_of_checkBits checked, fun zero => ones ?_⟩
  rw [zero, encode174_addCrc_zero] at codeword
  exact countP_eq_zero_of_packBits codeword

end Sound

/-! ## What is read -/

/-- The bits of a codeword are its message and pack to it. -/
theorem packBits_codewordBits {message : Vector UInt8 12}
    (padded : ∀ position, 91 ≤ position → bit message position = false) :
    packBits (codewordBits (encode174 message)) 91 = message ∧
      packBits (codewordBits (encode174 message)) 174 = encode174 message := by
  have word {position : Nat} (inside : position < 174) :
      wordOf (codewordBits (encode174 message)) position = bit (encode174 message) position := by
    rw [show position = (⟨position, inside⟩ : Fin 174).val from rfl, wordOf_val, codewordBits,
      get_vectorOfFn]
  constructor
  · apply bytes_ext
    intro position _
    rw [bit_packBits]
    by_cases inside : position < 91
    · rw [word (by omega), bit_encode174, decide_eq_false (p := 91 ≤ position) (by omega),
        decide_eq_true inside, Bool.false_and, Bool.or_false, Bool.true_and]
    · rw [decide_eq_false inside, Bool.false_and, padded position (by omega)]
  · apply bytes_ext
    intro position _
    rw [bit_packBits]
    by_cases inside : position < 174
    · rw [word inside, decide_eq_true inside, Bool.true_and]
    · have length : generatorMasks.length = 83 := rfl
      rw [decide_eq_false inside, Bool.false_and, bit_encode174, padded position (by omega),
        List.getD_eq_default _ _ (by rw [List.length_map, length]; omega), Bool.and_false,
        Bool.or_false]

theorem ldpcCheck_codewordBits {message : Vector UInt8 12}
    (padded : ∀ position, 91 ≤ position → bit message position = false) :
    ldpcCheck (codewordBits (encode174 message)) = 0 := by
  obtain ⟨first, all⟩ := packBits_codewordBits padded
  rw [ldpcCheck_eq_zero_iff_encode174, all, first]

theorem plain_ext {first second : Vector Bool 174}
    (same : packBits first 174 = packBits second 174) : first = second := by
  apply vector_ext
  intro n
  have bits := congrArg (fun bytes => bit bytes n) same
  simp only [bit_packBits, n.isLt, decide_true, Bool.true_and] at bits
  rwa [wordOf_val, wordOf_val] at bits

/-- The generator of the encoder and the checks of the decoder describe one code:
the decoder accepts what the encoder makes of the first 91 bits, and each choice
of them is accepted with exactly one choice of the others. -/
theorem ldpcCheck_systematic :
    (∀ plain, ldpcCheck plain = 0 ↔ packBits plain 174 = encode174 (packBits plain 91)) ∧
      ∀ message : Fin 91 → Bool, ∃! plain : Vector Bool 174,
        ldpcCheck plain = 0 ∧ ∀ n : Fin 91, plain.get (n.castLE (by decide)) = message n := by
  refine ⟨ldpcCheck_eq_zero_iff_encode174, fun message => ?_⟩
  let start : Vector Bool 174 :=
    Vector.ofFn fun n => if inside : n.val < 91 then message ⟨n.val, inside⟩ else false
  have startBit (n : Fin 91) : wordOf start n = message n := by
    rw [show n.val = (n.castLE (by decide : 91 ≤ 174)).val from rfl, wordOf_val, get_vectorOfFn]
    exact dif_pos n.isLt
  have padded : ∀ position, 91 ≤ position → bit (packBits start 91) position = false := by
    intro position behind
    rw [bit_packBits, decide_eq_false (by omega), Bool.false_and]
  have packed (plain : Vector Bool 174)
      (isMessage : ∀ n : Fin 91, plain.get (n.castLE (by decide)) = message n) :
      packBits plain 91 = packBits start 91 := by
    apply bytes_ext
    intro position _
    rw [bit_packBits, bit_packBits]
    by_cases inside : position < 91
    · have plainBit := isMessage ⟨position, inside⟩
      rw [← wordOf_val, ← startBit] at plainBit
      exact congrArg _ plainBit
    · rw [decide_eq_false inside, Bool.false_and, Bool.false_and]
  obtain ⟨first, all⟩ := packBits_codewordBits padded
  refine ⟨codewordBits (encode174 (packBits start 91)), ⟨ldpcCheck_codewordBits padded, ?_⟩, ?_⟩
  · intro n
    have bits := congrArg (fun bytes => bit bytes n) first
    simp only [bit_packBits, n.isLt, decide_true, Bool.true_and] at bits
    rw [← startBit, ← bits, ← wordOf_val]
    rfl
  · rintro plain ⟨isCodeword, isMessage⟩
    apply plain_ext
    rw [all, (ldpcCheck_eq_zero_iff_encode174 plain).mp isCodeword, packed plain isMessage]

/-- A sent codeword passes all checks and carries its payload. -/
theorem checkBits_codewordBits (payload : Vector UInt8 10) :
    checkBits (codewordBits (encode174 (addCrc payload))) 0 =
      .ok { payload := clearTail payload, hash := payloadCrc payload } := by
  have first := (packBits_codewordBits fun _ => bit_addCrc_padding payload).1
  have calculated : computeCrc (clearCrc (addCrc payload)) (96 - 14) = payloadCrc payload := by
    rw [← extractCrc_addCrc]
    exact (beq_iff_eq.mp (crcPasses_addCrc payload)).symm
  have unpacked : (Vector.ofFn fun i : Fin 10 => (clearCrc (addCrc payload))[i.val]) =
      clearTail payload := by
    apply bytes_ext
    intro position _
    rw [bit_unpacked, bit_clearTail]
    by_cases inside : position < 77
    · rw [bit_addCrc_payload payload inside]
    · rw [decide_eq_false inside, Bool.false_and, Bool.false_and]
  rw [checkBits, if_neg (Nat.lt_irrefl 0)]
  dsimp only
  rw [first, extractCrc_addCrc, calculated, if_neg (not_not.mpr rfl), unpacked]

theorem exists_one_of_nonzero {payload : Vector UInt8 10}
    (nonzero : clearTail payload ≠ Vector.replicate 10 0) :
    ∃ n, (codewordBits (encode174 (addCrc payload))).get n = true := by
  by_contra none
  apply nonzero
  apply bytes_ext
  intro position _
  have zeroBit : bit (Vector.replicate 10 (0 : UInt8)) position = false := by
    rw [bit, Vector.getElem?_replicate]
    split <;> exact byteBit_zero _
  rw [bit_clearTail, zeroBit]
  by_cases inside : position < 77
  · have clear := eq_false_of_ne_true (not_exists.mp none ⟨position, by omega⟩)
    rw [codewordBits, get_vectorOfFn, bit_encode174, bit_addCrc_payload payload inside,
      Bool.or_eq_false_iff] at clear
    rw [clear.1, Bool.and_false]
  · rw [decide_eq_false inside, Bool.false_and]

section Clear

variable {K : Type*} [Field K] [LinearOrder K] [IsStrictOrderedRing K]
variable {wf : Waterfall} {mag : Int → UInt8} {cand : FtxCandidate wf}

/-- The bits that the recorded symbols carry. -/
def recordedBits (cand : FtxCandidate wf) (n : Fin 174) : Bool :=
  decide (cand.Recorded (n / 3))

/-- In exact arithmetic, the decoder reads a payload that is not all zero from a
signal whose tones are the loudest wherever it was recorded, if the bits that were
not recorded can be peeled in fewer rounds than it has iterations. -/
theorem ftxDecodeCandidate_of_clear {sqrtf : K → K} (sqrtf_pos : ∀ x, 0 < x → 0 < sqrtf x)
    {payload : Vector UInt8 10} (nonzero : clearTail payload ≠ Vector.replicate 10 0)
    (clear : ClearSignal mag cand (ft8Encode payload)) {rounds maxIterations : Nat}
    (recoverable : ∀ n, ldpcGraph.known (recordedBits cand) rounds n = true)
    (enough : rounds < maxIterations) (plain174 : Vector Bool 174) :
    ftxDecodeCandidate sqrtf mag cand maxIterations plain174 =
      .ok { payload := clearTail payload, hash := payloadCrc payload } := by
  rw [ft8Encode_eq] at clear
  have isCodeword := ldpcCheck_codewordBits fun _ => bit_addCrc_padding payload
  have onGraph := (isCodeword_iff _).mpr isCodeword
  have hasOne := exists_one_of_nonzero nonzero
  have received : receivedBits (ft8ExtractLikelihood mag cand : Vector K 174) = recordedBits cand :=
    funext (receivedBits_of_clear clear)
  rw [← received] at recoverable
  obtain ⟨n, isReceived, isOne⟩ := exists_received_one onGraph hasOne recoverable
  obtain ⟨noneWrong, sameReceived⟩ := normalized_of_noneWrong sqrtf_pos onGraph
    (noneWrong_of_clear clear) isReceived isOne
  rw [← sameReceived] at recoverable
  obtain ⟨restored, noErrors⟩ := bpLoop_restores isCodeword hasOne noneWrong recoverable
    (Nat.zero_le rounds) (by rwa [Nat.zero_add])
    (show (BpState.start plain174).tov = tovAfter _ 0 from rfl) (show 83 ≠ 0 by decide)
  calc
    ftxDecodeCandidate sqrtf mag cand maxIterations plain174 =
        checkBits (codewordBits (encode174 (addCrc payload))) 0 := by
      rw [← restored, ← noErrors]
      rfl
    _ = .ok { payload := clearTail payload, hash := payloadCrc payload } :=
      checkBits_codewordBits payload

/-- No more than the first three data symbols of a position that is searched lie
before the recording, and one round restores them. -/
theorem known_recordedBits (long : 91 ≤ wf.numBlocks) (n : Fin 174) :
    ldpcGraph.known (recordedBits cand) 1 n = true := by
  have late : ((List.finRange 174).all fun n =>
      ldpcGraph.known (fun n => decide (9 ≤ n.val)) 1 n) = true := by
    decide +kernel
  apply TannerGraph.known_of_imp _ (List.all_eq_true.mp late n (List.mem_finRange n))
  intro bit behind
  have early := cand.least_timeOffset
  have latest := cand.timeOffset_lt
  have bound := bit.isLt
  have place := of_decide_eq_true behind
  apply decide_eq_true
  unfold FtxCandidate.Recorded FtxCandidate.dataBlock symIdx
  split_ifs <;> omega

/-- Every clear signal at a position that the search visits is read, also where
its first symbols came before the recording. -/
theorem ftxDecodeCandidate_of_search {sqrtf : K → K} (sqrtf_pos : ∀ x, 0 < x → 0 < sqrtf x)
    (long : 91 ≤ wf.numBlocks) {payload : Vector UInt8 10}
    (nonzero : clearTail payload ≠ Vector.replicate 10 0)
    (clear : ClearSignal mag cand (ft8Encode payload)) {maxIterations : Nat}
    (enough : 2 ≤ maxIterations) (plain174 : Vector Bool 174) :
    ftxDecodeCandidate sqrtf mag cand maxIterations plain174 =
      .ok { payload := clearTail payload, hash := payloadCrc payload } :=
  ftxDecodeCandidate_of_clear sqrtf_pos nonzero clear (known_recordedBits long) enough plain174

end Clear

/-- `CQ K1ABC FN42`. -/
def cqPayload : Vector UInt8 10 :=
  #v[0, 0, 0, 32, 77, 239, 26, 138, 25, 136]

def cqTones : List Nat :=
  [3, 1, 4, 0, 6, 5, 2, 0, 0, 0, 0, 0, 0, 0, 0, 1, 0, 0, 5, 4, 7, 6, 7, 0, 4, 6, 0, 6, 0, 2, 1, 5,
    3, 3, 4, 3, 3, 1, 4, 0, 6, 5, 2, 7, 3, 6, 0, 1, 1, 0, 4, 7, 5, 1, 7, 0, 0, 7, 3, 3, 4, 7, 4, 5,
    4, 5, 5, 1, 3, 3, 5, 4, 3, 1, 4, 0, 6, 5, 2]

theorem ft8Encode_cqPayload : ft8Encode cqPayload = cqTones := by
  decide +kernel

def cqWaterfall : SearchedWaterfall := .eightBins 91

/-- A recording that began eight symbols late. -/
def cqMag (cell : Int) : UInt8 :=
  if cqTones.getD ((cell / 8).toNat + 8) 8 = (cell % 8).toNat then 100 else 0

def cqPosition : FtxCandidate cqWaterfall where
  timeOffset := -8
  freqOffset := 0
  timeSub := ⟨0, by decide⟩
  freqSub := ⟨0, by decide⟩
  least_timeOffset := by decide
  timeOffset_lt := by decide
  freqOffset_lt := by decide

theorem clearSignal_cqMag : ClearSignal cqMag cqPosition (ft8Encode cqPayload) := by
  rw [ft8Encode_cqPayload]
  unfold ClearSignal
  decide +kernel

theorem ftxDecodeCandidate_of_search_cqPayload :
    ftxDecodeCandidate Real.sqrt cqMag cqPosition 20 (Vector.replicate 174 false) =
      .ok { payload := clearTail cqPayload, hash := payloadCrc cqPayload } :=
  ftxDecodeCandidate_of_search (fun _ => Real.sqrt_pos.mpr) (by decide)
    (by decide +kernel) clearSignal_cqMag (by decide) _

end RtlsdrFt8d
