import Mathlib.Tactic.IntervalCases
import RtlsdrFt8d.BeliefPropagation
import RtlsdrFt8d.ToneSequences

/-!
# Likelihoods of symbols

The decoder compares the magnitudes of the eight tones of a data symbol and
obtains a likelihood for each of its three bits.  Symbols outside the recording
say nothing.  Where the tone that was sent is the loudest, no likelihood is
wrong, and the normalization that follows keeps the signs.
-/

namespace RtlsdrFt8d

/-! ## The functions -/

section Functions

variable {K : Type*} [Zero K] [One K] [Add K] [Sub K] [Mul K] [Div K] [NatCast K] [LE K]
  [DecidableLE K]

/-- `WF_ELEM_MAG`. -/
def wfElemMag (x : UInt8) : K :=
  (x.toNat : K) * (1 / (2 : Nat)) - 120

def max2 (a b : K) : K :=
  if b ≤ a then a else b

def max4 (a b c d : K) : K :=
  max2 (max2 a b) (max2 c d)

/-- The last lines of `ft8_extract_symbol`, from the magnitudes in the order of
the bits. -/
def symbolLikelihoods (s2 : Nat → K) : Vector K 3 :=
  #v[max4 (s2 4) (s2 5) (s2 6) (s2 7) - max4 (s2 0) (s2 1) (s2 2) (s2 3),
    max4 (s2 2) (s2 3) (s2 6) (s2 7) - max4 (s2 0) (s2 1) (s2 4) (s2 5),
    max4 (s2 1) (s2 3) (s2 5) (s2 7) - max4 (s2 0) (s2 2) (s2 4) (s2 6)]

/-- `ft8_extract_symbol`, where `wf` points to the lowest tone. -/
def ft8ExtractSymbol (mag : Int → UInt8) (wf : Int) : Vector K 3 :=
  symbolLikelihoods fun j => wfElemMag (mag (wf + (ft8GrayMap.getD j 0 : Nat)))

/-- The block of the recording that a data symbol falls on. -/
def FtxCandidate.dataBlock {wf : Waterfall} (cand : FtxCandidate wf) (k : Nat) : Int :=
  cand.timeOffset + symIdx k

/-- The lowest of the eight tones of a data symbol. -/
def FtxCandidate.dataMag {wf : Waterfall} (cand : FtxCandidate wf) (k : Nat) : Int :=
  cand.candMag + symIdx k * wf.blockStride

/-- `ft8_extract_likelihood`. -/
def ft8ExtractLikelihood {wf : Waterfall} (mag : Int → UInt8) (cand : FtxCandidate wf) :
    Vector K 174 :=
  Vector.ofFn fun bitIdx =>
    let k := bitIdx.val / 3
    if cand.dataBlock k < 0 ∨ wf.numBlocks ≤ cand.dataBlock k then 0
    else (ft8ExtractSymbol mag (cand.dataMag k)).get ⟨bitIdx % 3, Nat.mod_lt _ (by decide)⟩

/-- `variance` in `ftx_normalize_logl`. -/
def logVariance (log174 : Vector K 174) : K :=
  let sum := log174.toList.foldl (fun sum logl => sum + logl) 0
  let sum2 := log174.toList.foldl (fun sum2 logl => sum2 + logl * logl) 0
  let invN := 1 / 174
  (sum2 - sum * sum * invN) * invN

/-- `ftx_normalize_logl`. -/
def ftxNormalizeLogl (sqrtf : K → K) (log174 : Vector K 174) : Vector K 174 :=
  let normFactor := sqrtf (24 / logVariance log174)
  log174.map fun logl => logl * normFactor

end Functions

/-! ## The loudest tone -/

section Loudest

variable {K : Type*} [Field K] [LinearOrder K] [IsStrictOrderedRing K]

omit [Field K] [IsStrictOrderedRing K] in
theorem max4_eq (a b c d : K) : max4 a b c d = max (max a b) (max c d) := by
  have pairs (a b : K) : max2 a b = max a b := by
    rw [max2]
    split
    · rename_i le
      exact (max_eq_left le).symm
    · rename_i notLe
      exact (max_eq_right (le_of_not_ge notLe)).symm
  rw [max4, pairs, pairs, pairs]

theorem vote_sub_pos (bit : Bool) {ones zeros : K}
    (larger : if bit then zeros < ones else ones < zeros) : 0 < vote bit (ones - zeros) := by
  cases bit <;> simpa [vote, ErasurePeeling.polarity] using larger

/-- The three bits of the loudest tone get the votes. -/
theorem vote_symbolLikelihoods {s2 : Nat → K} {sent : Nat} (small : sent < 8)
    (loudest : ∀ j < 8, j ≠ sent → s2 j < s2 sent) (i : Fin 3) :
    0 < vote (sent.testBit (2 - i)) ((symbolLikelihoods s2).get i) := by
  match i with
  | 0 | 1 | 2 =>
      apply vote_sub_pos
      rw [max4_eq, max4_eq]
      interval_cases sent <;> simp [Nat.testBit, loudest]

/-- The magnitude in decibels keeps the order of the stored bytes. -/
theorem wfElemMag_lt {first second : UInt8} (less : first < second) :
    (wfElemMag first : K) < wfElemMag second := by
  have values : (first.toNat : K) < second.toNat := Nat.cast_lt.mpr (UInt8.lt_iff_toNat_lt.mp less)
  unfold wfElemMag
  linarith

/-- The loudest of the eight tones at a place gets the votes for its bits. -/
theorem vote_ft8ExtractSymbol {mag : Int → UInt8} {wf : Int} {first second third : Bool}
    (loudest : ∀ tone < 8, tone ≠ grayTone first second third →
      mag (wf + (tone : Nat)) < mag (wf + (grayTone first second third : Nat))) (i : Fin 3) :
    0 < vote (#v[first, second, third].get i) ((ft8ExtractSymbol mag wf : Vector K 3).get i) := by
  have places : ∀ first second third : Bool, ∀ i : Fin 3,
      grayIndex first second third < 8 ∧
        (grayIndex first second third).testBit (2 - i) = #v[first, second, third].get i := by
    decide
  have gray : ∀ j < 8, ∀ k < 8, ft8GrayMap.getD j 0 < 8 ∧
      (ft8GrayMap.getD j 0 = ft8GrayMap.getD k 0 → j = k) := by
    decide
  obtain ⟨small, isBit⟩ := places first second third i
  rw [← isBit]
  apply vote_symbolLikelihoods small
  intro j inside different
  exact wfElemMag_lt (loudest _ (gray j inside _ small).1 fun same =>
    different ((gray j inside _ small).2 same))

end Loudest

/-! ## Clear signals -/

section Clear

variable {K : Type*} [Field K] [LinearOrder K] [IsStrictOrderedRing K]
variable {wf : Waterfall} {mag : Int → UInt8} {cand : FtxCandidate wf} {codeword : Vector UInt8 22}

/-- The bits of a packed codeword. -/
def codewordBits (codeword : Vector UInt8 22) : Vector Bool 174 :=
  Vector.ofFn fun n => PackedBits.bit codeword n

/-- A data symbol lies in the recording. -/
def FtxCandidate.Recorded (cand : FtxCandidate wf) (k : Nat) : Prop :=
  0 ≤ cand.dataBlock k ∧ cand.dataBlock k < wf.numBlocks

instance (k : Nat) : Decidable (cand.Recorded k) :=
  inferInstanceAs (Decidable (_ ∧ _))

/-- In each recorded data symbol, the tone that was sent is the loudest of the
eight. -/
def ClearSignal (mag : Int → UInt8) (cand : FtxCandidate wf) (tones : List Nat) : Prop :=
  ∀ k < 58, cand.Recorded k → ∀ tone < 8, tone ≠ tones.getD (symIdx k) 0 →
    mag (cand.dataMag k + (tone : Nat)) <
      mag (cand.dataMag k + (tones.getD (symIdx k) 0 : Nat))

omit [IsStrictOrderedRing K] in
theorem ft8ExtractLikelihood_of_not_recorded {n : Fin 174} (outside : ¬cand.Recorded (n / 3)) :
    (ft8ExtractLikelihood mag cand : Vector K 174).get n = 0 := by
  have isOutside : cand.dataBlock (n / 3) < 0 ∨ wf.numBlocks ≤ cand.dataBlock (n / 3) := by
    unfold FtxCandidate.Recorded at outside
    omega
  rw [ft8ExtractLikelihood, get_vectorOfFn]
  exact if_pos isOutside

theorem vote_of_recorded (clear : ClearSignal mag cand (codewordTones codeword)) {n : Fin 174}
    (recorded : cand.Recorded (n / 3)) :
    0 < vote ((codewordBits codeword).get n)
      ((ft8ExtractLikelihood mag cand : Vector K 174).get n) := by
  have symbol : n.val / 3 < 58 := by omega
  have isRecorded : ¬(cand.dataBlock (n / 3) < 0 ∨ wf.numBlocks ≤ cand.dataBlock (n / 3)) := by
    have bounds := recorded
    unfold FtxCandidate.Recorded at bounds
    omega
  have bits : #v[PackedBits.bit codeword (3 * (n / 3)), PackedBits.bit codeword (3 * (n / 3) + 1),
      PackedBits.bit codeword (3 * (n / 3) + 2)].get (Fin.ofNat 3 n) =
        (codewordBits codeword).get n := by
    have places : n.val % 3 = 0 ∨ n.val % 3 = 1 ∨ n.val % 3 = 2 := by omega
    rw [codewordBits, get_vectorOfFn]
    rcases places with place | place | place
    · rw [show Fin.ofNat 3 n = 0 from Fin.ext place]
      exact congrArg (PackedBits.bit codeword) (by omega)
    · rw [show Fin.ofNat 3 n = 1 from Fin.ext place]
      exact congrArg (PackedBits.bit codeword) (by omega)
    · rw [show Fin.ofNat 3 n = 2 from Fin.ext place]
      exact congrArg (PackedBits.bit codeword) (by omega)
  have loudest := clear (n / 3) symbol recorded
  rw [getD_codewordTones codeword symbol] at loudest
  rw [ft8ExtractLikelihood, get_vectorOfFn, if_neg isRecorded, ← bits]
  exact vote_ft8ExtractSymbol loudest _

/-- On a clear signal no likelihood is wrong. -/
theorem noneWrong_of_clear (clear : ClearSignal mag cand (codewordTones codeword)) :
    NoneWrong (ft8ExtractLikelihood mag cand : Vector K 174) (codewordBits codeword).get := by
  intro n
  by_cases recorded : cand.Recorded (n / 3)
  · exact (vote_of_recorded clear recorded).le
  · rw [ft8ExtractLikelihood_of_not_recorded recorded]
    simp [vote]

/-- The bits of the recorded symbols are received. -/
theorem receivedBits_of_clear (clear : ClearSignal mag cand (codewordTones codeword))
    (n : Fin 174) :
    receivedBits (ft8ExtractLikelihood mag cand : Vector K 174) n =
      decide (cand.Recorded (n / 3)) := by
  rw [receivedBits]
  apply decide_eq_decide.mpr
  constructor
  · intro received
    by_contra outside
    exact received (ft8ExtractLikelihood_of_not_recorded outside)
  · intro recorded zero
    have positive := vote_of_recorded (K := K) clear recorded
    rw [zero] at positive
    simp [vote] at positive

end Clear

/-! ## Normalization -/

section Normalization

variable {K : Type*} [Field K] [LinearOrder K] [IsStrictOrderedRing K]

omit [LinearOrder K] [IsStrictOrderedRing K] in
theorem foldl_sum_map (values : List K) (f : K → K) (start : K) :
    values.foldl (fun sum value => sum + f value) start = start + (values.map f).sum := by
  induction values generalizing start with
  | nil => simp
  | cons value values ih => simp [ih, add_assoc]

omit [LinearOrder K] [IsStrictOrderedRing K] in
/-- The variance by the mean of the squares is that by the distances. -/
theorem sum_sq_sub (values : List K) (mean : K) :
    (values.map fun value => (value - mean) ^ 2).sum =
      (values.map fun value => value * value).sum - 2 * mean * values.sum +
        values.length * mean ^ 2 := by
  induction values with
  | nil => simp
  | cons value values ih =>
      simp only [List.map_cons, List.sum_cons, List.length_cons, ih]
      push_cast
      ring

theorem logVariance_pos {log174 : Vector K 174} {first second : Fin 174}
    (different : log174.get first ≠ log174.get second) : 0 < logVariance log174 := by
  have expanded := sum_sq_sub log174.toList (log174.toList.sum / 174)
  have member (n : Fin 174) : log174.get n ∈ log174.toList :=
    Vector.mem_toList_iff.mpr (Vector.getElem_mem n.isLt)
  obtain ⟨n, offMean⟩ : ∃ n, log174.get n ≠ log174.toList.sum / 174 := by
    by_contra none
    have allMean (n : Fin 174) := not_not.mp (not_exists.mp none n)
    exact different ((allMean first).trans (allMean second).symm)
  have nonneg : ∀ square ∈ log174.toList.map
      (fun value => (value - log174.toList.sum / 174) ^ 2), 0 ≤ square := by
    intro square isSquare
    obtain ⟨value, _, rfl⟩ := List.mem_map.mp isSquare
    exact sq_nonneg _
  have positive : 0 < (log174.toList.map
      fun value => (value - log174.toList.sum / 174) ^ 2).sum :=
    (sq_pos_of_ne_zero (sub_ne_zero.mpr offMean)).trans_le
      (List.single_le_sum nonneg _ (List.mem_map_of_mem (member n)))
  rw [expanded, Vector.length_toList] at positive
  have sum := foldl_sum_map log174.toList (fun logl => logl) 0
  have sum2 := foldl_sum_map log174.toList (fun logl => logl * logl) 0
  rw [List.map_id', zero_add] at sum
  rw [zero_add] at sum2
  unfold logVariance
  dsimp only
  rw [sum, sum2]
  apply mul_pos _ (by norm_num)
  calc
    0 < _ := positive
    _ = _ := by
      push_cast
      ring

variable {log174 : Vector K 174} {word : Fin 174 → Bool}

omit [LinearOrder K] [IsStrictOrderedRing K] in
theorem vote_mul (bit : Bool) (likelihood factor : K) :
    vote bit (likelihood * factor) = vote bit likelihood * factor := by
  rw [vote, vote]
  ring

omit [IsStrictOrderedRing K] [LinearOrder K] in
theorem get_ftxNormalizeLogl (sqrtf : K → K) (n : Fin 174) :
    (ftxNormalizeLogl sqrtf log174).get n =
      log174.get n * sqrtf (24 / logVariance log174) := by
  change (log174.map fun logl => logl * sqrtf (24 / logVariance log174))[n.val] = _
  rw [Vector.getElem_map]
  rfl

/-- There is no codeword of ones only. -/
theorem exists_zero (isCodeword : ldpcGraph.IsCodeword word) : ∃ n, word n = false := by
  by_contra none
  have ones : word = fun _ => true := funext fun n => eq_true_of_ne_false (not_exists.mp none n)
  have odd : BinaryLinearCodes.parity ((checkRow 0).map fun _ => true) = true := by
    decide +kernel
  have even := isCodeword 0
  rw [ones] at even
  exact Bool.false_ne_true (even.symm.trans odd)

/-- The likelihoods of a codeword are not all the same. -/
theorem exists_different (isCodeword : ldpcGraph.IsCodeword word)
    (noneWrong : NoneWrong log174 word)
    {n : Fin 174} (received : receivedBits log174 n = true) (isOne : word n = true) :
    ∃ other, log174.get n ≠ log174.get other := by
  obtain ⟨other, isZero⟩ := exists_zero isCodeword
  refine ⟨other, fun same => ?_⟩
  have positive := vote_pos_of_received noneWrong received
  have nonneg := noneWrong other
  rw [isOne] at positive
  rw [isZero, ← same] at nonneg
  simp only [vote, ErasurePeeling.polarity] at positive nonneg
  norm_num at positive nonneg
  linarith

/-- The normalization changes no sign, if the square root of a positive number is
positive. -/
theorem normalized_of_noneWrong {sqrtf : K → K} (sqrtf_pos : ∀ x, 0 < x → 0 < sqrtf x)
    (isCodeword : ldpcGraph.IsCodeword word) (noneWrong : NoneWrong log174 word) {n : Fin 174}
    (received : receivedBits log174 n = true) (isOne : word n = true) :
    NoneWrong (ftxNormalizeLogl sqrtf log174) word ∧
      receivedBits (ftxNormalizeLogl sqrtf log174) = receivedBits log174 := by
  obtain ⟨other, different⟩ := exists_different isCodeword noneWrong received isOne
  have factor : 0 < sqrtf (24 / logVariance log174) :=
    sqrtf_pos _ (div_pos (by norm_num) (logVariance_pos different))
  constructor
  · intro n
    rw [get_ftxNormalizeLogl, vote_mul]
    exact mul_nonneg (noneWrong n) factor.le
  · funext n
    rw [receivedBits, receivedBits, get_ftxNormalizeLogl]
    exact decide_eq_decide.mpr (not_congr (mul_eq_zero_iff_right factor.ne'))

end Normalization

end RtlsdrFt8d
