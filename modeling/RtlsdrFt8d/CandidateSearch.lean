import Mathlib.Data.List.FinRange
import RtlsdrFt8d.BinaryHeaps
import RtlsdrFt8d.WaterfallCells

/-!
# Search for candidates

`ftx_find_candidates` scores every position of the waterfall and keeps those with
the highest scores in a heap, which it sorts at the end.  Its loops run over the
fields of a candidate, which are narrower than the geometry.
-/

namespace RtlsdrFt8d

open BinaryHeaps

/-! ## The function -/

variable {wf : Waterfall}

/-- `ftx_candidate_t`. -/
structure ScoredCandidate (wf : Waterfall) where
  position : FtxCandidate wf
  score : Int16

/-- What the heap is ordered by. -/
def ScoredCandidate.order (scored : ScoredCandidate wf) : Int :=
  scored.score.toInt

/-- `ft8_sync_score` on the bytes of a waterfall. -/
def FtxCandidate.syncScore (mag : Int → UInt8) (candidate : FtxCandidate wf) : Int :=
  candidate.ft8SyncScore fun cell => (mag cell).toNat

/-- A position with its score, which is stored in 16 bits. -/
def FtxCandidate.scored (mag : Int → UInt8) (candidate : FtxCandidate wf) : ScoredCandidate wf where
  position := candidate
  score := Int16.ofInt (candidate.syncScore mag)

/-- The position for the variables of the four loops. -/
def positionAt (timeSub : Fin wf.timeOsr) (freqSub : Fin wf.freqOsr) (timeOffset : Fin 30)
    (freqOffset : Fin (wf.numBins - 7)) : FtxCandidate wf where
  timeOffset := -10 + (timeOffset.val : Int)
  freqOffset := freqOffset.val
  timeSub := timeSub
  freqSub := freqSub
  least_timeOffset := by omega
  timeOffset_lt := by omega
  freqOffset_lt := by omega

/-- The positions in the order of the loops. -/
def visited (wf : SearchedWaterfall) : List (FtxCandidate wf) :=
  (List.finRange wf.timeOsr).flatMap fun timeSub =>
    (List.finRange wf.freqOsr).flatMap fun freqSub =>
      (List.finRange 30).flatMap fun timeOffset =>
        (List.finRange (wf.numBins - 7)).map fun freqOffset =>
          positionAt timeSub freqSub timeOffset freqOffset

variable {wf : SearchedWaterfall}

/-- The body of the loops. -/
def searchStep (mag : Int → UInt8) (numCandidates : Nat) (minScore : Int)
    (heap : Bounded (ScoredCandidate wf)) (candidate : FtxCandidate wf) :
    Bounded (ScoredCandidate wf) :=
  let candidate := candidate.scored mag
  if candidate.order < minScore then heap
  else offer ScoredCandidate.order numCandidates heap candidate

/-- The entries of `heap` that `ftx_find_candidates` reports, for FT8. -/
def ftxFindCandidates (mag : Int → UInt8) (numCandidates : Nat)
    (heap : Nat → ScoredCandidate wf) (minScore : Int) : List (ScoredCandidate wf) :=
  let found :=
    (visited wf).foldl (searchStep mag numCandidates minScore) { heap := heap, size := 0 }
  (List.range found.size).map (sortDescending ScoredCandidate.order found.heap found.size)

/-! ## Positions -/

/-- The variables of the loops pass every position and stop behind the last one
without a wrap. -/
theorem loopVariables_eq (candidate : FtxCandidate wf) :
    (Int16.ofInt candidate.timeOffset).toInt = candidate.timeOffset ∧
      (Int16.ofNat (candidate.freqOffset + 1)).toInt = candidate.freqOffset + 1 ∧
        (UInt8.ofNat (candidate.timeSub.val + 1)).toNat = candidate.timeSub.val + 1 ∧
          (UInt8.ofNat (candidate.freqSub.val + 1)).toNat = candidate.freqSub.val + 1 := by
  have bins := wf.numBins_le
  have offset := candidate.freqOffset_lt
  have least := candidate.least_timeOffset
  have greatest := candidate.timeOffset_lt
  have timeSub := candidate.timeSub.isLt.trans_le wf.timeOsr_le
  have freqSub := candidate.freqSub.isLt.trans_le wf.freqOsr_le
  refine ⟨?_, ?_, ?_, ?_⟩
  · exact Int16.toInt_ofInt_of_le (by norm_num; omega) (by norm_num; omega)
  · exact Int16.toInt_ofNat_of_lt (by omega)
  · exact UInt8.toNat_ofNat_of_lt' (show candidate.timeSub.val + 1 < 256 by omega)
  · exact UInt8.toNat_ofNat_of_lt' (show candidate.freqSub.val + 1 < 256 by omega)

theorem mem_visited (candidate : FtxCandidate wf) : candidate ∈ visited wf := by
  have offset := candidate.freqOffset_lt
  have least := candidate.least_timeOffset
  have greatest := candidate.timeOffset_lt
  have isPosition : candidate = positionAt candidate.timeSub candidate.freqSub
      ⟨(candidate.timeOffset + 10).toNat, by omega⟩ ⟨candidate.freqOffset, by omega⟩ := by
    cases candidate
    simp only [positionAt, FtxCandidate.mk.injEq, and_self, and_true]
    omega
  rw [isPosition]
  simp only [visited, List.mem_flatMap, List.mem_map, List.mem_finRange, true_and]
  exact ⟨_, _, _, _, rfl⟩

theorem nodup_flatMap_of_separated {α β : Type*} {outer : List α} {inner : α → List β}
    (nodup : outer.Nodup) (each : ∀ element ∈ outer, (inner element).Nodup)
    (separated : ∀ first second value, value ∈ inner first → value ∈ inner second →
      first = second) : (outer.flatMap inner).Nodup := by
  refine List.nodup_flatMap.mpr ⟨each, nodup.imp ?_⟩
  intro first second different value isFirst isSecond
  exact different (separated first second value isFirst isSecond)

/-- The loops visit no position twice. -/
theorem nodup_visited (wf : SearchedWaterfall) : (visited wf).Nodup := by
  have fields {timeSub : Fin wf.timeOsr} {freqSub : Fin wf.freqOsr} {timeOffset : Fin 30}
      {freqOffset : Fin (wf.numBins - 7)} {candidate : FtxCandidate wf}
      (isPosition : positionAt timeSub freqSub timeOffset freqOffset = candidate) :
      timeSub = candidate.timeSub ∧ freqSub = candidate.freqSub ∧
        (timeOffset.val : Int) = candidate.timeOffset + 10 ∧
          freqOffset.val = candidate.freqOffset := by
    subst isPosition
    refine ⟨rfl, rfl, ?_, rfl⟩
    simp only [positionAt]
    omega
  refine nodup_flatMap_of_separated (List.nodup_finRange _) (fun timeSub _ => ?_) ?_
  · refine nodup_flatMap_of_separated (List.nodup_finRange _) (fun freqSub _ => ?_) ?_
    · refine nodup_flatMap_of_separated (List.nodup_finRange _) (fun timeOffset _ => ?_) ?_
      · refine (List.nodup_finRange _).map fun first second same => ?_
        exact Fin.ext ((fields same).2.2.2.trans (fields rfl).2.2.2.symm)
      · intro first second candidate isFirst isSecond
        simp only [List.mem_map] at isFirst isSecond
        obtain ⟨_, -, firstAt⟩ := isFirst
        obtain ⟨_, -, secondAt⟩ := isSecond
        have firstOffset := (fields firstAt).2.2.1
        have secondOffset := (fields secondAt).2.2.1
        omega
    · intro first second candidate isFirst isSecond
      simp only [List.mem_flatMap, List.mem_map] at isFirst isSecond
      obtain ⟨_, -, _, -, firstAt⟩ := isFirst
      obtain ⟨_, -, _, -, secondAt⟩ := isSecond
      exact (fields firstAt).2.1.trans (fields secondAt).2.1.symm
  · intro first second candidate isFirst isSecond
    simp only [List.mem_flatMap, List.mem_map] at isFirst isSecond
    obtain ⟨_, -, _, -, _, -, firstAt⟩ := isFirst
    obtain ⟨_, -, _, -, _, -, secondAt⟩ := isSecond
    exact (fields firstAt).1.trans (fields secondAt).1.symm

/-! ## Scores -/

theorem natAbs_sum_le {values : List Int} {bound : Nat}
    (small : ∀ value ∈ values, value.natAbs ≤ bound) :
    values.sum.natAbs ≤ values.length * bound := by
  induction values with
  | nil => simp
  | cons value values ih =>
      have first := small value List.mem_cons_self
      have rest := ih fun other member => small other (List.mem_cons_of_mem value member)
      calc
        (value :: values).sum.natAbs ≤ value.natAbs + values.sum.natAbs := by
          rw [List.sum_cons]
          exact Int.natAbs_add_le value values.sum
        _ ≤ bound + values.length * bound := Nat.add_le_add first rest
        _ = (value :: values).length * bound := by rw [List.length_cons, Nat.succ_mul, Nat.add_comm]

/-- A mean of differences of bytes fits in the field. -/
theorem natAbs_syncScore_le (mag : Int → UInt8) (candidate : FtxCandidate wf) :
    (candidate.syncScore mag).natAbs ≤ 255 := by
  have small : ∀ difference ∈ candidate.differences fun cell => (mag cell).toNat,
      difference.natAbs ≤ 255 := by
    intro difference isDifference
    simp only [FtxCandidate.differences, List.mem_flatMap, List.mem_map] at isDifference
    obtain ⟨group, -, number, -, neighbour, -, rfl⟩ := isDifference
    have first := (mag (candidate.scorerCell (group, number))).toNat_lt
    have second := (mag neighbour).toNat_lt
    omega
  have sum := natAbs_sum_le small
  unfold FtxCandidate.syncScore FtxCandidate.ft8SyncScore
  dsimp only
  split
  · rw [Int.natAbs_tdiv]
    exact Nat.div_le_of_le_mul sum
  · rename_i none
    rw [Nat.eq_zero_of_not_pos none] at sum
    omega

theorem order_scored (mag : Int → UInt8) (candidate : FtxCandidate wf) :
    (candidate.scored mag).order = candidate.syncScore mag := by
  have bound := natAbs_syncScore_le mag candidate
  rw [ScoredCandidate.order, FtxCandidate.scored, Int16.toInt_ofInt]
  apply Int.bmod_eq_of_le
  · simp only [Int16.size]
    omega
  · simp only [Int16.size]
    omega

/-! ## The result -/

/-- The candidates are found positions in descending order, at most so many; a
position is left out only for a full list of others that score no less. -/
structure FindsBest (mag : Int → UInt8) (numCandidates : Nat) (minScore : Int)
    (found : List (ScoredCandidate wf)) : Prop where
  scored : ∀ candidate ∈ found, candidate = candidate.position.scored mag ∧
    minScore ≤ candidate.position.syncScore mag
  distinct : (found.map (·.position)).Nodup
  descending : found.Pairwise fun first second => second.score.toInt ≤ first.score.toInt
  bounded : found.length ≤ numCandidates
  best : ∀ position : FtxCandidate wf, minScore ≤ position.syncScore mag →
    position ∉ found.map (·.position) →
      found.length = numCandidates ∧
        ∀ candidate ∈ found, position.syncScore mag ≤ candidate.position.syncScore mag

/-- The positions that are not pruned. -/
def eligible (mag : Int → UInt8) (minScore : Int) (wf : SearchedWaterfall) :
    List (FtxCandidate wf) :=
  (visited wf).filter fun candidate => minScore ≤ candidate.syncScore mag

theorem foldl_searchStep (mag : Int → UInt8) (numCandidates : Nat) (minScore : Int)
    (candidates : List (FtxCandidate wf)) (heap : Bounded (ScoredCandidate wf)) :
    candidates.foldl (searchStep mag numCandidates minScore) heap =
      ((candidates.filter fun candidate => minScore ≤ candidate.syncScore mag).map
        (FtxCandidate.scored mag)).foldl (offer ScoredCandidate.order numCandidates) heap := by
  induction candidates generalizing heap with
  | nil => rfl
  | cons candidate candidates ih =>
      rw [List.foldl_cons, ih, searchStep, order_scored]
      by_cases pruned : candidate.syncScore mag < minScore
      · rw [if_pos pruned, List.filter_cons_of_neg (by simpa using pruned)]
      · rw [if_neg pruned, List.filter_cons_of_pos (by simpa using pruned), List.map_cons,
          List.foldl_cons]

/-- The heap that the loops leave. -/
theorem keeps_foldl_searchStep {numCandidates : Nat} (some : 0 < numCandidates)
    (mag : Int → UInt8) (heap : Nat → ScoredCandidate wf) (minScore : Int) :
    Keeps ScoredCandidate.order numCandidates
      ((eligible mag minScore wf).map (FtxCandidate.scored mag))
      ((visited wf).foldl (searchStep mag numCandidates minScore) { heap := heap, size := 0 }) := by
  have run := (Keeps.empty ScoredCandidate.order numCandidates heap).run some
    ((eligible mag minScore wf).map (FtxCandidate.scored mag))
  rwa [Multiset.zero_add, eligible, ← foldl_searchStep, ← eligible] at run

theorem mem_eligible {mag : Int → UInt8} {minScore : Int} {position : FtxCandidate wf} :
    position ∈ eligible mag minScore wf ↔ minScore ≤ position.syncScore mag := by
  rw [eligible, List.mem_filter, decide_eq_true_eq, and_iff_right (mem_visited position)]

theorem findsBest_ftxFindCandidates {numCandidates : Nat} (some : 0 < numCandidates)
    (mag : Int → UInt8) (heap : Nat → ScoredCandidate wf) (minScore : Int) :
    FindsBest mag numCandidates minScore
      (ftxFindCandidates mag numCandidates heap minScore) := by
  have keeps := keeps_foldl_searchStep some mag heap minScore
  obtain ⟨rejected, kept⟩ := keeps.kept
  rw [← coe_map_sortDescending ScoredCandidate.order, ← ftxFindCandidates] at kept
  obtain ⟨whole, bounded, full, best⟩ := kept
  have scored : ∀ candidate ∈ ftxFindCandidates mag numCandidates heap minScore,
      ∃ position ∈ eligible mag minScore wf, position.scored mag = candidate := by
    intro candidate isFound
    have isSeen := Multiset.mem_coe.mp (whole ▸ Multiset.mem_add.mpr (Or.inl isFound))
    exact List.mem_map.mp isSeen
  refine ⟨?_, ?_, keeps.isHeap.pairwise_sortDescending, bounded, ?_⟩
  · intro candidate isFound
    obtain ⟨position, isEligible, rfl⟩ := scored candidate isFound
    exact ⟨rfl, mem_eligible.mp isEligible⟩
  · have distinct : ((eligible mag minScore wf : Multiset (FtxCandidate wf))).Nodup :=
      (nodup_visited wf).filter _
    have positions : ((eligible mag minScore wf : Multiset (FtxCandidate wf))) =
        ((ftxFindCandidates mag numCandidates heap minScore).map (·.position) :
          Multiset (FtxCandidate wf)) + rejected.map (·.position) := by
      have mapped := congrArg (Multiset.map ScoredCandidate.position) whole
      rwa [Multiset.map_add, Multiset.map_coe, Multiset.map_coe, List.map_map,
        show ScoredCandidate.position ∘ FtxCandidate.scored mag = id from rfl,
        List.map_id] at mapped
    rw [positions] at distinct
    exact (Multiset.nodup_add.mp distinct).1
  · intro position isEligible notFound
    have isSeen : position.scored mag ∈
        ((eligible mag minScore wf).map (FtxCandidate.scored mag) :
          Multiset (ScoredCandidate wf)) :=
      List.mem_map_of_mem (mem_eligible.mpr isEligible)
    rw [whole, Multiset.mem_add] at isSeen
    rcases isSeen with isFound | isRejected
    · exact absurd (List.mem_map_of_mem (f := ScoredCandidate.position) isFound) notFound
    · refine ⟨full fun none => by simp [none] at isRejected, ?_⟩
      intro candidate isFound
      obtain ⟨other, -, rfl⟩ := scored candidate isFound
      have order := best _ isRejected _ isFound
      rwa [order_scored, order_scored] at order

/-- Every position that is among the best is found. -/
theorem FindsBest.mem_of_few {mag : Int → UInt8} {numCandidates : Nat} {minScore : Int}
    {found : List (ScoredCandidate wf)} (best : FindsBest mag numCandidates minScore found)
    {position : FtxCandidate wf} (isEligible : minScore ≤ position.syncScore mag)
    (few : (eligible mag (position.syncScore mag) wf).length ≤ numCandidates) :
    position ∈ found.map (·.position) := by
  by_contra notFound
  obtain ⟨full, noLess⟩ := best.best position isEligible notFound
  have others : (position :: found.map (·.position)) ⊆
      eligible mag (position.syncScore mag) wf := by
    intro other isOther
    rcases List.mem_cons.mp isOther with rfl | isFound
    · exact mem_eligible.mpr le_rfl
    · obtain ⟨candidate, isCandidate, rfl⟩ := List.mem_map.mp isFound
      exact mem_eligible.mpr (noLess candidate isCandidate)
  have count := (List.nodup_cons.mpr ⟨notFound, best.distinct⟩).length_le_of_subset others
  rw [List.length_cons, List.length_map, full] at count
  omega

/-- However many positions score enough, the search returns the best of them, as
many as there is room for. -/
theorem ftxFindCandidates_best {numCandidates : Nat} (some : 0 < numCandidates)
    (mag : Int → UInt8) (heap : Nat → ScoredCandidate wf) (minScore : Int) :
    FindsBest mag numCandidates minScore (ftxFindCandidates mag numCandidates heap minScore) ∧
      (ftxFindCandidates mag numCandidates heap minScore).length =
        min numCandidates (eligible mag minScore wf).length := by
  refine ⟨findsBest_ftxFindCandidates some mag heap minScore, ?_⟩
  obtain ⟨rejected, kept⟩ := (keeps_foldl_searchStep some mag heap minScore).kept
  rw [← coe_map_sortDescending ScoredCandidate.order, ← ftxFindCandidates] at kept
  have count := congrArg Multiset.card kept.whole
  have bounded := kept.bounded
  rw [Multiset.card_add, Multiset.coe_card, Multiset.coe_card, List.length_map] at count
  rw [Multiset.coe_card] at bounded
  by_cases none : rejected = 0
  · rw [none, Multiset.card_zero] at count
    omega
  · have full := kept.full none
    rw [Multiset.coe_card] at full
    omega

/-- One block of eight bins. -/
def narrowWaterfall : SearchedWaterfall := .eightBins 1

def firstPosition : FtxCandidate narrowWaterfall :=
  positionAt ⟨0, by decide⟩ ⟨0, by decide⟩ 0 ⟨0, by decide⟩

/-- Two of thirty positions that score the same. -/
theorem ftxFindCandidates_best_silence :
    0 < 2 ∧ (ftxFindCandidates (fun _ => 0) 2 (fun _ => firstPosition.scored fun _ => 0) 0).length =
      2 :=
  ⟨by decide, (ftxFindCandidates_best (by decide) _ _ _).2.trans (by decide +kernel)⟩

end RtlsdrFt8d
