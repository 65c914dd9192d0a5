import Mathlib.Algebra.Order.BigOperators.Group.List
import Mathlib.Algebra.Order.BigOperators.GroupWithZero.List
import Mathlib.Algebra.Order.Field.Basic
import Mathlib.Tactic.Linarith
import RtlsdrFt8d.ErasurePeeling
import RtlsdrFt8d.LdpcCode

/-!
# Belief propagation

`bp_decode` turns likelihoods of bits into a codeword.  The arithmetic is a
parameter: what it accepts is a codeword whatever the type `float` computes, and
in exact arithmetic it restores the bits that were not received.
-/

namespace RtlsdrFt8d

open BinaryLinearCodes ErasurePeeling

/-! ## The functions -/

section Functions

variable {K : Type*} [Zero K] [One K] [Add K] [Mul K] [Div K] [Neg K] [NatCast K] [LT K]
  [DecidableLT K]

/-- `fast_tanh`. -/
def fastTanh (x : K) : K :=
  if x < -(497 / 100) then -1
  else if 497 / 100 < x then 1
  else
    let x2 := x * x
    let a := x * (945 + x2 * (105 + x2))
    let b := 945 + x2 * (420 + x2 * 15)
    a / b

/-- `fast_atanh`. -/
def fastAtanh (x : K) : K :=
  let x2 := x * x
  let a := x * (945 + x2 * (-735 + x2 * 64))
  let b := 945 + x2 * (-1050 + x2 * 225)
  a / b

/-- The messages `tov` from checks to bits. -/
abbrev CheckMessages (K : Type*) :=
  Vector (Vector K 3) 174

/-- The hard decision guess. -/
def hardDecision (codeword : Vector K 174) (tov : CheckMessages K) : Vector Bool 174 :=
  Vector.ofFn fun n =>
    decide (0 < codeword.get n + (tov.get n).get 0 + (tov.get n).get 1 + (tov.get n).get 2)

/-- `Tnm`: what a bit tells a check, from the channel and its other checks. -/
def bitMessage (codeword : Vector K 174) (tov : CheckMessages K) (m : Fin 83) (n : Fin 174) : K :=
  (List.finRange 3).foldl
    (fun sum mIdx => if bitCheck n mIdx ≠ m then sum + (tov.get n).get mIdx else sum)
    (codeword.get n)

/-- The messages `toc` from bits to checks, each row in the order of the table. -/
def bitMessages (codeword : Vector K 174) (tov : CheckMessages K) : Vector (List K) 83 :=
  Vector.ofFn fun m =>
    (checkRow m).map fun n => fastTanh (-bitMessage codeword tov m n / 2)

/-- `Tmn`: what the other bits of a check tell a bit. -/
def checkProduct (toc : Vector (List K) 83) (m : Fin 83) (n : Fin 174) : K :=
  ((checkRow m).zip (toc.get m)).foldl
    (fun product message => if message.1 ≠ n then product * message.2 else product) 1

def checkMessages (toc : Vector (List K) 83) : CheckMessages K :=
  Vector.ofFn fun n => Vector.ofFn fun mIdx => -2 * fastAtanh (checkProduct toc (bitCheck n mIdx) n)

/-- The messages from the checks after some iterations. -/
def tovAfter (codeword : Vector K 174) : Nat → CheckMessages K
  | 0 => Vector.replicate 174 (Vector.replicate 3 0)
  | iterations + 1 => checkMessages (bitMessages codeword (tovAfter codeword iterations))

/-- The variables of the loop of `bp_decode`. -/
structure BpState (K : Type*) where
  plain : Vector Bool 174
  tov : CheckMessages K
  minErrors : Nat

/-- The variables before the loop.  `plain` is what the array held before. -/
def BpState.start (plain : Vector Bool 174) : BpState K where
  plain := plain
  tov := Vector.replicate 174 (Vector.replicate 3 0)
  minErrors := 83

/-- The iterations that are left. -/
def bpLoop (codeword : Vector K 174) : Nat → BpState K → BpState K
  | 0, state => state
  | iterations + 1, state =>
      let plain := hardDecision codeword state.tov
      -- A message of zeros is prohibited.
      if plain.toList.countP id = 0 then { state with plain := plain }
      else
        let errors := ldpcCheck plain
        let minErrors := if errors < state.minErrors then errors else state.minErrors
        if errors < state.minErrors ∧ errors = 0 then
          { state with plain := plain, minErrors := minErrors }
        else
          bpLoop codeword iterations
            { plain := plain
              tov := checkMessages (bitMessages codeword state.tov)
              minErrors := minErrors }

/-- `bp_decode`: the bits and the number of parity errors. -/
def bpDecode (codeword : Vector K 174) (maxIters : Nat) (plain : Vector Bool 174) :
    Vector Bool 174 × Nat :=
  let state := bpLoop codeword maxIters (.start plain)
  (state.plain, state.minErrors)

/-! ## What is accepted -/

variable (codeword : Vector K 174)

theorem bpLoop_accepts {iterations : Nat} {state : BpState K} (unsolved : state.minErrors ≠ 0)
    (accepted : (bpLoop codeword iterations state).minErrors = 0) :
    ldpcCheck (bpLoop codeword iterations state).plain = 0 ∧
      (bpLoop codeword iterations state).plain.toList.countP id ≠ 0 := by
  induction iterations generalizing state with
  | zero => exact absurd accepted unsolved
  | succ iterations ih =>
      rw [bpLoop] at accepted ⊢
      dsimp only at accepted ⊢
      split
      · rename_i noOnes
        rw [if_pos noOnes] at accepted
        exact absurd accepted unsolved
      · rename_i ones
        rw [if_neg ones] at accepted
        split
        · rename_i solved
          exact ⟨solved.2, ones⟩
        · rename_i notSolved
          rw [if_neg notSolved] at accepted
          apply ih _ accepted
          dsimp only
          split
          · rename_i fewer
            exact fun noErrors => notSolved ⟨fewer, noErrors⟩
          · exact unsolved

/-- Whatever the arithmetic computes, bits that `bp_decode` reports without errors
are a codeword, and not all zero. -/
theorem bpDecode_accepts {maxIters : Nat} {plain : Vector Bool 174}
    (accepted : (bpDecode codeword maxIters plain).2 = 0) :
    ldpcCheck (bpDecode codeword maxIters plain).1 = 0 ∧
      (bpDecode codeword maxIters plain).1.toList.countP id ≠ 0 :=
  bpLoop_accepts codeword (show 83 ≠ 0 by decide) accepted

end Functions

/-! ## Votes -/

theorem get_vectorOfFn {α : Type*} {size : Nat} (f : Fin size → α) (i : Fin size) :
    (Vector.ofFn f).get i = f i := by
  change (Vector.ofFn f)[i.val] = f i
  rw [Vector.getElem_ofFn]

section Votes

variable {K : Type*} [Field K]

/-- How strongly a likelihood speaks for a bit. -/
def vote (bit : Bool) (likelihood : K) : K :=
  polarity bit * -likelihood

theorem vote_add (bit : Bool) (first second : K) :
    vote bit (first + second) = vote bit first + vote bit second := by
  rw [vote, vote, vote]
  ring

theorem vote_sum (bit : Bool) (likelihoods : List K) :
    vote bit likelihoods.sum = (likelihoods.map (vote bit)).sum := by
  induction likelihoods with
  | nil => simp [vote]
  | cons first rest ih => rw [List.sum_cons, vote_add, ih, List.map_cons, List.sum_cons]

theorem foldl_skip_add {Index : Type*} (items : List Index) (skip : Index → Prop)
    [DecidablePred skip] (values : Index → K) (start : K) :
    items.foldl (fun sum item => if ¬skip item then sum + values item else sum) start =
      start + ((items.filter fun item => ¬skip item).map values).sum := by
  induction items generalizing start with
  | nil => simp
  | cons item items ih =>
      rw [List.foldl_cons, ih, List.filter_cons]
      by_cases skipped : skip item <;> simp [skipped, add_assoc]

theorem foldl_skip_mul {Index : Type*} (items : List Index) (skip : Index → Prop)
    [DecidablePred skip] (values : Index → K) (start : K) :
    items.foldl (fun product item => if ¬skip item then product * values item else product) start =
      start * ((items.filter fun item => ¬skip item).map values).prod := by
  induction items generalizing start with
  | nil => simp
  | cons item items ih =>
      rw [List.foldl_cons, ih, List.filter_cons]
      by_cases skipped : skip item <;> simp [skipped, mul_assoc]

theorem fastAtanh_neg (x : K) : fastAtanh (-x) = -fastAtanh x := by
  unfold fastAtanh
  dsimp only
  rw [neg_mul_neg, neg_mul, neg_div]

end Votes

/-! ## Exact arithmetic -/

section Exact

variable {K : Type*} [Field K] [LinearOrder K] [IsStrictOrderedRing K]

theorem fastTanh_neg (x : K) : fastTanh (-x) = -fastTanh x := by
  unfold fastTanh
  rcases lt_or_ge (497 / 100 : K) x with large | notLarge
  · have notSmall : ¬x < -(497 / 100) := by linarith
    rw [if_pos (by linarith), if_neg notSmall, if_pos large]
  · rcases lt_or_ge x (-(497 / 100)) with small | notSmall
    · rw [if_neg (by linarith), if_pos (by linarith), if_pos small, neg_neg]
    · rw [if_neg (by linarith), if_neg (by linarith), if_neg (by linarith), if_neg (by linarith)]
      dsimp only
      rw [neg_mul_neg, neg_mul, neg_div]

theorem fastTanh_pos {x : K} (positive : 0 < x) : 0 < fastTanh x := by
  unfold fastTanh
  rw [if_neg (by linarith)]
  split
  · exact one_pos
  · positivity

/-- On the interval where the fraction is used it exceeds one only slightly. -/
theorem fastTanh_le {x : K} (positive : 0 < x) : fastTanh x ≤ 101 / 100 := by
  unfold fastTanh
  rw [if_neg (by linarith)]
  split
  · norm_num
  · rename_i notLarge
    have inside : 0 ≤ 5 - x := by linarith
    rw [div_le_iff₀ (by positivity)]
    have quartic : 0 ≤ (5 - x) * (x ^ 4 - 1015 / 100 * x ^ 3 + 5425 / 100 * x ^ 2 -
        15295 / 100 * x + 18025 / 100) := by
      apply mul_nonneg inside
      nlinarith [sq_nonneg (x ^ 2 - 5075 / 1000 * x + 10), sq_nonneg (x - 3)]
    nlinarith

theorem fastAtanh_pos {x : K} (positive : 0 < x) (small : x ≤ 11 / 10) : 0 < fastAtanh x := by
  have square : x * x ≤ 121 / 100 := by nlinarith
  have nonneg : 0 ≤ x * x := mul_self_nonneg x
  unfold fastAtanh
  dsimp only
  apply div_pos
  · apply mul_pos positive
    nlinarith
  · nlinarith [mul_self_nonneg (121 / 100 - x * x)]

theorem fastTanh_bounds {x : K} (nonneg : 0 ≤ x) : 0 ≤ fastTanh x ∧ fastTanh x ≤ 101 / 100 := by
  rcases nonneg.eq_or_lt with rfl | positive
  · have odd := fastTanh_neg (0 : K)
    rw [neg_zero] at odd
    have zero : fastTanh (0 : K) = 0 := by linarith
    rw [zero]
    norm_num
  · exact ⟨(fastTanh_pos positive).le, fastTanh_le positive⟩

theorem fastAtanh_nonneg {x : K} (nonneg : 0 ≤ x) (small : x ≤ 11 / 10) : 0 ≤ fastAtanh x := by
  rcases nonneg.eq_or_lt with rfl | positive
  · simp [fastAtanh]
  · exact (fastAtanh_pos positive small).le

/-! ## Messages -/

/-- Bits and checks of the code. -/
def ldpcGraph : TannerGraph (Fin 174) (Fin 83) where
  row := checkRow
  checks := bitChecks
  nodup_row := nodup_checkRow
  mem_row_iff := mem_checkRow_iff

theorem isCodeword_iff (word : Vector Bool 174) :
    ldpcGraph.IsCodeword word.get ↔ ldpcCheck word = 0 := by
  simp [TannerGraph.IsCodeword, ldpcGraph, ldpcCheck, foldl_xor]

theorem length_others_le {m : Fin 83} {n : Fin 174} (member : n ∈ checkRow m) :
    (ldpcGraph.others m n).length ≤ 6 := by
  have shorter : (ldpcGraph.others m n).length < (checkRow m).length :=
    List.length_filter_lt_length_iff_exists.mpr ⟨n, member, by simp⟩
  have length := length_checkRow m
  omega

section Messages

variable (codeword : Vector K 174) (tov : CheckMessages K)

omit [LinearOrder K] [IsStrictOrderedRing K] in
theorem vote_bitMessage (bit : Bool) (m : Fin 83) (n : Fin 174) :
    vote bit (bitMessage codeword tov m n) =
      vote bit (codeword.get n) +
        (((List.finRange 3).filter fun mIdx => bitCheck n mIdx ≠ m).map fun mIdx =>
          vote bit ((tov.get n).get mIdx)).sum := by
  rw [bitMessage, foldl_skip_add _ (fun mIdx => bitCheck n mIdx = m), vote_add, vote_sum,
    List.map_map]
  rfl

omit [IsStrictOrderedRing K] in
theorem checkProduct_bitMessages (m : Fin 83) (n : Fin 174) :
    checkProduct (bitMessages codeword tov) m n =
      ((ldpcGraph.others m n).map fun other =>
        fastTanh (-bitMessage codeword tov m other / 2)).prod := by
  have zipped (row : List (Fin 174)) (message : Fin 174 → K) :
      row.zip (row.map message) = row.map fun n => (n, message n) := by
    induction row with
    | nil => rfl
    | cons first rest ih => rw [List.map_cons, List.zip_cons_cons, ih, List.map_cons]
  rw [checkProduct, bitMessages, get_vectorOfFn, zipped, List.foldl_map]
  dsimp only
  rw [foldl_skip_mul _ (fun other => other = n), one_mul]
  rfl

/-- A check speaks for the bit that its other bits imply. -/
theorem vote_checkMessage {word : Fin 174 → Bool} (isCodeword : ldpcGraph.IsCodeword word)
    {m : Fin 83} {n : Fin 174} (member : n ∈ checkRow m) :
    vote (word n) (-2 * fastAtanh (checkProduct (bitMessages codeword tov) m n)) =
      2 * fastAtanh ((ldpcGraph.others m n).map fun other =>
        fastTanh (vote (word other) (bitMessage codeword tov m other) / 2)).prod := by
  have signed : polarity (word n) * checkProduct (bitMessages codeword tov) m n =
      ((ldpcGraph.others m n).map fun other =>
        fastTanh (vote (word other) (bitMessage codeword tov m other) / 2)).prod := by
    rw [checkProduct_bitMessages, ← isCodeword.parity_others member, ← prod_polarity]
    congr 1
    apply List.map_congr_left
    intro other _
    rw [polarity_mul_odd fastTanh_neg, vote, mul_div_assoc]
  rw [vote, ← signed, ← polarity_mul_odd fastAtanh_neg]
  ring

theorem checkProduct_bounds (word : Fin 174 → Bool) {m : Fin 83} {n : Fin 174}
    (member : n ∈ checkRow m)
    (votes : ∀ other ∈ ldpcGraph.others m n,
      0 ≤ vote (word other) (bitMessage codeword tov m other)) :
    0 ≤ ((ldpcGraph.others m n).map fun other =>
        fastTanh (vote (word other) (bitMessage codeword tov m other) / 2)).prod ∧
      ((ldpcGraph.others m n).map fun other =>
        fastTanh (vote (word other) (bitMessage codeword tov m other) / 2)).prod ≤ 11 / 10 := by
  obtain ⟨nonneg, le⟩ := prod_nonneg_le_pow (101 / 100 : K)
    ((ldpcGraph.others m n).map fun other =>
      fastTanh (vote (word other) (bitMessage codeword tov m other) / 2)) (by
    intro factor isFactor
    obtain ⟨other, isOther, rfl⟩ := List.mem_map.mp isFactor
    exact fastTanh_bounds (by linarith [votes other isOther]))
  refine ⟨nonneg, le.trans ?_⟩
  have six : ((101 / 100 : K)) ^ (ldpcGraph.others m n).length ≤ (101 / 100) ^ 6 :=
    pow_le_pow_right₀ (by norm_num) (length_others_le member)
  rw [List.length_map]
  exact six.trans (by norm_num)

end Messages

/-! ## Votes of the checks -/

section Iterations

variable {codeword : Vector K 174} {word : Fin 174 → Bool}

omit [IsStrictOrderedRing K] in
theorem tovAfter_succ (iterations : Nat) (n : Fin 174) (mIdx : Fin 3) :
    ((tovAfter codeword (iterations + 1)).get n).get mIdx =
      -2 * fastAtanh (checkProduct (bitMessages codeword (tovAfter codeword iterations))
        (bitCheck n mIdx) n) := by
  rw [tovAfter, checkMessages, get_vectorOfFn, get_vectorOfFn]

theorem mem_checkRow_bitCheck (n : Fin 174) (mIdx : Fin 3) : n ∈ checkRow (bitCheck n mIdx) :=
  (mem_checkRow_iff _ _).mpr (List.mem_map.mpr ⟨mIdx, List.mem_finRange mIdx, rfl⟩)

/-- No likelihood of the channel speaks against the codeword. -/
def NoneWrong (codeword : Vector K 174) (word : Fin 174 → Bool) : Prop :=
  ∀ n, 0 ≤ vote (word n) (codeword.get n)

/-- The bits that the channel says something about. -/
def receivedBits (codeword : Vector K 174) (n : Fin 174) : Bool :=
  decide (codeword.get n ≠ 0)

variable (isCodeword : ldpcGraph.IsCodeword word) (noneWrong : NoneWrong codeword word)
include noneWrong

theorem vote_bitMessage_nonneg {tov : CheckMessages K}
    (votes : ∀ n mIdx, 0 ≤ vote (word n) ((tov.get n).get mIdx)) (m : Fin 83) (n : Fin 174) :
    0 ≤ vote (word n) (bitMessage codeword tov m n) := by
  rw [vote_bitMessage]
  apply add_nonneg (noneWrong n)
  apply List.sum_nonneg
  intro value isValue
  obtain ⟨mIdx, _, rfl⟩ := List.mem_map.mp isValue
  exact votes n mIdx

omit [IsStrictOrderedRing K] in
theorem vote_pos_of_received {n : Fin 174} (received : receivedBits codeword n = true) :
    0 < vote (word n) (codeword.get n) := by
  apply lt_of_le_of_ne (noneWrong n)
  intro zero
  have cancelled := polarity_mul_cancel (word n) (-codeword.get n)
  rw [← vote, ← zero, mul_zero] at cancelled
  exact of_decide_eq_true received (neg_eq_zero.mp cancelled.symm)

/-- What a known bit tells a check that it was not recovered from. -/
theorem vote_bitMessage_pos {tov : CheckMessages K}
    (votes : ∀ n mIdx, 0 ≤ vote (word n) ((tov.get n).get mIdx)) {m : Fin 83} {n : Fin 174}
    {rounds : Nat} (isKnown : ldpcGraph.known (receivedBits codeword) rounds n = true)
    (recovered : ∀ earlier < rounds, ∀ mIdx,
      ldpcGraph.Recovers (receivedBits codeword) earlier (bitCheck n mIdx) n →
        bitCheck n mIdx ≠ m ∧ 0 < vote (word n) ((tov.get n).get mIdx)) :
    0 < vote (word n) (bitMessage codeword tov m n) := by
  have nonneg : ∀ value ∈ ((List.finRange 3).filter fun mIdx => bitCheck n mIdx ≠ m).map
      (fun mIdx => vote (word n) ((tov.get n).get mIdx)), 0 ≤ value := by
    intro value isValue
    obtain ⟨mIdx, _, rfl⟩ := List.mem_map.mp isValue
    exact votes n mIdx
  rw [vote_bitMessage]
  obtain received | ⟨earlier, less, check, recovers⟩ := TannerGraph.received_or_recovers isKnown
  · exact add_pos_of_pos_of_nonneg (vote_pos_of_received noneWrong received)
      (List.sum_nonneg nonneg)
  · obtain ⟨mIdx, _, rfl⟩ := List.mem_map.mp recovers.member
    obtain ⟨different, positive⟩ := recovered earlier less mIdx recovers
    have member : vote (word n) ((tov.get n).get mIdx) ∈
        ((List.finRange 3).filter fun mIdx => bitCheck n mIdx ≠ m).map
          (fun mIdx => vote (word n) ((tov.get n).get mIdx)) :=
      List.mem_map_of_mem (List.mem_filter.mpr ⟨List.mem_finRange mIdx, by simpa using different⟩)
    exact add_pos_of_nonneg_of_pos (noneWrong n)
      (positive.trans_le (List.single_le_sum nonneg _ member))

include isCodeword

/-- No message of a check ever speaks against the codeword. -/
theorem vote_tovAfter_nonneg (iterations : Nat) (n : Fin 174) (mIdx : Fin 3) :
    0 ≤ vote (word n) (((tovAfter codeword iterations).get n).get mIdx) := by
  induction iterations generalizing n mIdx with
  | zero => simp [tovAfter, Vector.get, vote]
  | succ iterations ih =>
      have member := mem_checkRow_bitCheck n mIdx
      obtain ⟨nonneg, small⟩ := checkProduct_bounds codeword (tovAfter codeword iterations)
        word member fun other _ => vote_bitMessage_nonneg noneWrong ih _ other
      rw [tovAfter_succ, vote_checkMessage _ _ isCodeword member]
      exact mul_nonneg zero_le_two (fastAtanh_nonneg nonneg small)

/-- A check from which a bit is recovered speaks for it from then on. -/
theorem vote_tovAfter_pos {rounds iterations : Nat} {n : Fin 174} {mIdx : Fin 3}
    (recovers : ldpcGraph.Recovers (receivedBits codeword) rounds (bitCheck n mIdx) n)
    (later : rounds < iterations) :
    0 < vote (word n) (((tovAfter codeword iterations).get n).get mIdx) := by
  induction iterations generalizing rounds n mIdx with
  | zero => exact absurd later (Nat.not_lt_zero _)
  | succ iterations ih =>
      have member := mem_checkRow_bitCheck n mIdx
      have votes := vote_tovAfter_nonneg isCodeword noneWrong iterations
      have small := (checkProduct_bounds codeword (tovAfter codeword iterations) word member
        fun other _ => vote_bitMessage_nonneg noneWrong votes _ other).2
      have positive : 0 < ((ldpcGraph.others (bitCheck n mIdx) n).map fun other =>
          fastTanh (vote (word other) (bitMessage codeword (tovAfter codeword iterations)
            (bitCheck n mIdx) other) / 2)).prod := by
        apply List.prod_pos
        intro factor isFactor
        obtain ⟨other, isOther, rfl⟩ := List.mem_map.mp isFactor
        apply fastTanh_pos
        apply div_pos _ two_pos
        apply vote_bitMessage_pos noneWrong votes (recovers.others_known other isOther)
        intro earlier less otherIdx otherRecovers
        refine ⟨fun same => ?_, ih otherRecovers (by omega)⟩
        -- The check that recovered the other bit would have needed this one.
        obtain ⟨inRow, different⟩ := TannerGraph.mem_others.mp isOther
        have needed : n ∈ ldpcGraph.others (bitCheck other otherIdx) other := by
          rw [same]
          exact TannerGraph.mem_others.mpr ⟨member, different.symm⟩
        have known := TannerGraph.known_mono less.le (otherRecovers.others_known n needed)
        rw [recovers.unknown] at known
        exact Bool.false_ne_true known
      rw [tovAfter_succ, vote_checkMessage _ _ isCodeword member]
      exact mul_pos two_pos (fastAtanh_pos positive small)

/-! ## Decisions -/

/-- Where a known bit is decided, all messages together speak for it. -/
theorem vote_total_pos {rounds iterations : Nat} (le : rounds ≤ iterations) {n : Fin 174}
    (isKnown : ldpcGraph.known (receivedBits codeword) rounds n = true) :
    0 < vote (word n) (codeword.get n + ((tovAfter codeword iterations).get n).get 0 +
      ((tovAfter codeword iterations).get n).get 1 +
      ((tovAfter codeword iterations).get n).get 2) := by
  have votes := vote_tovAfter_nonneg isCodeword noneWrong iterations n
  rw [vote_add, vote_add, vote_add]
  obtain received | ⟨earlier, less, check, recovers⟩ := TannerGraph.received_or_recovers isKnown
  · linarith [vote_pos_of_received noneWrong received, votes 0, votes 1, votes 2]
  · obtain ⟨mIdx, _, rfl⟩ := List.mem_map.mp recovers.member
    have positive := vote_tovAfter_pos isCodeword noneWrong recovers (less.trans_le le)
    have one (value : Fin 3 → K) (nonneg : ∀ i, 0 ≤ value i) (i : Fin 3) :
        value i ≤ value 0 + value 1 + value 2 := by
      match i with
      | 0 | 1 | 2 => linarith [nonneg 0, nonneg 1, nonneg 2]
    have largest := one _ votes mIdx
    linarith [noneWrong n]

omit isCodeword noneWrong in
theorem decide_pos_of_vote_pos {bit : Bool} {likelihood : K} (positive : 0 < vote bit likelihood) :
    decide (0 < likelihood) = bit := by
  cases bit <;> simp [vote, polarity] at positive ⊢ <;> linarith

theorem hardDecision_of_known {rounds iterations : Nat} (le : rounds ≤ iterations) {n : Fin 174}
    (isKnown : ldpcGraph.known (receivedBits codeword) rounds n = true) :
    (hardDecision codeword (tovAfter codeword iterations)).get n = word n := by
  rw [hardDecision, get_vectorOfFn]
  exact decide_pos_of_vote_pos (vote_total_pos isCodeword noneWrong le isKnown)

end Iterations

/-! ## Erasures -/

theorem vector_ext {α : Type*} {size : Nat} {first second : Vector α size}
    (same : ∀ n, first.get n = second.get n) : first = second :=
  Vector.ext fun i inside => same ⟨i, inside⟩

theorem countP_ne_zero {size : Nat} {bits : Vector Bool size} {n : Fin size}
    (isSet : bits.get n = true) : bits.toList.countP id ≠ 0 := by
  have member : bits.get n ∈ bits.toList := Vector.mem_toList_iff.mpr (Vector.getElem_mem n.isLt)
  exact (List.countP_pos_iff.mpr ⟨_, member, isSet⟩).ne'

omit [IsStrictOrderedRing K] in
/-- If the missing bits of a codeword can be peeled, one of its ones was received. -/
theorem exists_received_one {codeword : Vector K 174} {word : Fin 174 → Bool}
    (isCodeword : ldpcGraph.IsCodeword word) (nonzero : ∃ n, word n = true) {rounds : Nat}
    (recoverable : ∀ n, ldpcGraph.known (receivedBits codeword) rounds n = true) :
    ∃ n, receivedBits codeword n = true ∧ word n = true := by
  by_contra none
  obtain ⟨n, isOne⟩ := nonzero
  have zeros : ldpcGraph.IsCodeword fun _ => false := by
    intro check
    generalize ldpcGraph.row check = row
    induction row with
    | nil => rfl
    | cons first rest ih => rw [List.map_cons, parity_cons, ih, Bool.xor_false]
  have same := TannerGraph.eq_of_known isCodeword zeros
    (fun bit isReceived => eq_false_of_ne_true fun isSet => none ⟨bit, isReceived, isSet⟩)
    (recoverable n)
  rw [isOne] at same
  exact Bool.false_ne_true same.symm

/-- In exact arithmetic, `bp_decode` restores a codeword that was received without
wrong bits, if the missing ones can be peeled in fewer rounds than iterations. -/
theorem bpLoop_restores {codeword : Vector K 174} {word : Vector Bool 174}
    (isCodeword : ldpcCheck word = 0) (nonzero : ∃ n, word.get n = true)
    (noneWrong : NoneWrong codeword word.get) {rounds : Nat}
    (recoverable : ∀ n, ldpcGraph.known (receivedBits codeword) rounds n = true)
    {done iterations : Nat} (notLater : done ≤ rounds) (enough : rounds < done + iterations)
    {state : BpState K} (reached : state.tov = tovAfter codeword done)
    (unsolved : state.minErrors ≠ 0) :
    (bpLoop codeword iterations state).plain = word ∧
      (bpLoop codeword iterations state).minErrors = 0 := by
  have codewordGraph := (isCodeword_iff word).mpr isCodeword
  induction iterations generalizing done state with
  | zero => omega
  | succ iterations ih =>
      have enoughLeft : rounds < done + 1 + iterations := by omega
      have decided {round : Nat} (le : round ≤ done) {n : Fin 174}
          (isKnown : ldpcGraph.known (receivedBits codeword) round n = true) :
          (hardDecision codeword (tovAfter codeword done)).get n = word.get n :=
        hardDecision_of_known codewordGraph noneWrong le isKnown
      have ones : (hardDecision codeword (tovAfter codeword done)).toList.countP id ≠ 0 := by
        obtain ⟨n, isReceived, isOne⟩ :=
          exists_received_one codewordGraph nonzero recoverable
        have isSet := decided (Nat.zero_le done) isReceived
        rw [isOne] at isSet
        exact countP_ne_zero isSet
      rw [bpLoop, reached]
      dsimp only
      rw [if_neg ones]
      generalize errorsEq : ldpcCheck (hardDecision codeword (tovAfter codeword done)) = errors
      by_cases noErrors : errors = 0
      · have isCodeword' := (isCodeword_iff _).mpr (errorsEq.trans noErrors)
        have same : hardDecision codeword (tovAfter codeword done) = word :=
          vector_ext fun n => TannerGraph.eq_of_known isCodeword' codewordGraph
            (fun bit isReceived => decided (Nat.zero_le done) isReceived) (recoverable n)
        have fewer : errors < state.minErrors := by
          rw [noErrors]
          exact Nat.pos_of_ne_zero unsolved
        rw [if_pos ⟨fewer, noErrors⟩, if_pos fewer]
        exact ⟨same, noErrors⟩
      · have earlier : done ≠ rounds := by
          rintro rfl
          have same : hardDecision codeword (tovAfter codeword done) = word :=
            vector_ext fun n => decided le_rfl (recoverable n)
          rw [same, isCodeword] at errorsEq
          exact noErrors errorsEq.symm
        rw [if_neg fun solved => noErrors solved.2]
        refine ih (Nat.lt_of_le_of_ne notLater earlier) enoughLeft rfl ?_
        dsimp only
        split
        · exact noErrors
        · exact unsolved

/-- The same from the start of the decoder. -/
theorem bpDecode_restores {codeword : Vector K 174} {word : Vector Bool 174}
    (isCodeword : ldpcCheck word = 0) (nonzero : ∃ n, word.get n = true)
    (noneWrong : NoneWrong codeword word.get) {rounds maxIters : Nat}
    (recoverable : ∀ n, ldpcGraph.known (receivedBits codeword) rounds n = true)
    (enough : rounds < maxIters) (plain : Vector Bool 174) :
    bpDecode codeword maxIters plain = (word, 0) := by
  obtain ⟨restored, noErrors⟩ := bpLoop_restores isCodeword nonzero noneWrong recoverable
    (Nat.zero_le rounds) (by rwa [Nat.zero_add])
    (show (BpState.start plain).tov = tovAfter codeword 0 from rfl) (show 83 ≠ 0 by decide)
  exact Prod.ext restored noErrors

end Exact

/-- The ones of the codeword for a message whose first bit is set. -/
def firstBitOnes : Nat :=
  0x7570bf4a02718d88528280000000000000000000001

def firstBitWord : Vector Bool 174 :=
  Vector.ofFn fun n => firstBitOnes.testBit n

/-- Its likelihoods without the first nine bits. -/
def firstBitReceived : Vector ℚ 174 :=
  Vector.ofFn fun n => if n.val < 9 then 0 else if firstBitOnes.testBit n then 3 else -3

theorem ldpcCheck_firstBitWord : ldpcCheck firstBitWord = 0 := by
  have satisfied : (checkMasks.all fun mask => !dot mask firstBitOnes.testBit) = true := by
    decide +kernel
  have small : firstBitOnes < 2 ^ 174 := by
    decide +kernel
  have same : wordOf firstBitWord = firstBitOnes.testBit := by
    funext position
    by_cases inside : position < 174
    · exact (wordOf_val firstBitWord ⟨position, inside⟩).trans (get_vectorOfFn _ _)
    · rw [wordOf, Vector.getElem?_eq_none (Nat.le_of_not_lt inside), Option.getD_none,
        Nat.testBit_lt_two_pow (small.trans_le (Nat.pow_le_pow_right (by decide)
          (Nat.le_of_not_lt inside)))]
  rw [ldpcCheck_eq_zero_iff, same]
  simpa [Satisfies] using satisfied

theorem bpDecode_restores_firstBit :
    bpDecode firstBitReceived 20 (Vector.replicate 174 false) = (firstBitWord, 0) := by
  have recoverable : ((List.finRange 174).all fun n =>
      ldpcGraph.known (fun n => decide (9 ≤ n.val)) 1 n) = true := by
    decide +kernel
  have received : receivedBits firstBitReceived = fun n => decide (9 ≤ n.val) := by
    funext n
    rw [receivedBits, firstBitReceived, get_vectorOfFn]
    apply decide_eq_decide.mpr
    split_ifs with early isOne
    · simp [early]
    · simp [Nat.le_of_not_lt early]
    · simp [Nat.le_of_not_lt early]
  have noneWrong : NoneWrong firstBitReceived firstBitWord.get := by
    intro n
    rw [firstBitReceived, get_vectorOfFn, firstBitWord, get_vectorOfFn, vote, polarity]
    split_ifs <;> norm_num
  exact bpDecode_restores ldpcCheck_firstBitWord
    ⟨0, (get_vectorOfFn _ _).trans (by decide +kernel)⟩ noneWrong
    (fun n => received ▸ List.all_eq_true.mp recoverable n (List.mem_finRange n)) (by decide) _

end RtlsdrFt8d
