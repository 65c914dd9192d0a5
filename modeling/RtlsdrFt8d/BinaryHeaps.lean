import Mathlib.Data.Multiset.Range
import Mathlib.Logic.Equiv.Basic
import Mathlib.Order.Basic

/-!
# Binary heaps

A min-heap in the first places of an array, the two loops that restore its order,
and the use of a heap with a bounded number of places to keep the best of a
stream of values.  The array is a function from its indices.
-/

namespace BinaryHeaps

variable {α β : Type*}

/-! ## Exchanges -/

/-- Exchange two entries. -/
def exchange (heap : Nat → α) (i j : Nat) : Nat → α :=
  fun k => if k = i then heap j else if k = j then heap i else heap k

@[simp]
theorem exchange_left (heap : Nat → α) (i j : Nat) : exchange heap i j i = heap j :=
  if_pos rfl

@[simp]
theorem exchange_right (heap : Nat → α) (i j : Nat) : exchange heap i j j = heap i := by
  unfold exchange
  split
  · rename_i same
    rw [same]
  · exact if_pos rfl

theorem exchange_of_ne (heap : Nat → α) {i j k : Nat} (notLeft : k ≠ i) (notRight : k ≠ j) :
    exchange heap i j k = heap k := by
  rw [exchange, if_neg notLeft, if_neg notRight]

/-- The values in the first places. -/
def values (heap : Nat → α) (size : Nat) : Multiset α :=
  (Multiset.range size).map heap

@[simp]
theorem values_zero (heap : Nat → α) : values heap 0 = 0 :=
  rfl

theorem values_succ (heap : Nat → α) (size : Nat) :
    values heap (size + 1) = heap size ::ₘ values heap size := by
  rw [values, Multiset.range_succ, Multiset.map_cons, values]

theorem card_values (heap : Nat → α) (size : Nat) : (values heap size).card = size := by
  rw [values, Multiset.card_map, Multiset.card_range]

theorem mem_values {heap : Nat → α} {size i : Nat} (inside : i < size) :
    heap i ∈ values heap size :=
  Multiset.mem_map_of_mem heap (Multiset.mem_range.mpr inside)

theorem exists_of_mem_values {heap : Nat → α} {size : Nat} {value : α}
    (member : value ∈ values heap size) : ∃ i < size, heap i = value := by
  obtain ⟨i, inside, same⟩ := Multiset.mem_map.mp member
  exact ⟨i, Multiset.mem_range.mp inside, same⟩

theorem values_congr {first second : Nat → α} {size : Nat}
    (same : ∀ i < size, first i = second i) : values first size = values second size :=
  Multiset.map_congr rfl fun i inside => same i (Multiset.mem_range.mp inside)

/-- An exchange within the first places keeps their values. -/
theorem values_exchange (heap : Nat → α) {size i j : Nat} (iInside : i < size)
    (jInside : j < size) : values (exchange heap i j) size = values heap size := by
  have swapped : exchange heap i j = heap ∘ Equiv.swap i j := by
    funext k
    rw [exchange, Function.comp_apply, Equiv.swap_apply_def]
    split_ifs <;> rfl
  have permuted : (Multiset.range size).map (Equiv.swap i j) = Multiset.range size := by
    apply (Multiset.Nodup.ext ((Multiset.nodup_range size).map (Equiv.injective _))
      (Multiset.nodup_range size)).mpr
    intro k
    rw [Multiset.mem_map, Multiset.mem_range]
    constructor
    · rintro ⟨other, inside, rfl⟩
      rw [Multiset.mem_range] at inside
      rw [Equiv.swap_apply_def]
      split_ifs <;> omega
    · intro inside
      refine ⟨Equiv.swap i j k, Multiset.mem_range.mpr ?_, Equiv.swap_apply_self i j k⟩
      rw [Equiv.swap_apply_def]
      split_ifs <;> omega
  rw [values, swapped, ← Multiset.map_map, permuted, values]

/-! ## The loops -/

section Code

variable [LT β] [DecidableLT β] (score : α → β)

/-- The place of the smallest of a parent and its children. -/
def smallestOf (heap : Nat → α) (heapSize current : Nat) : Nat :=
  let left := 2 * current + 1
  let right := left + 1
  let smallest :=
    if left < heapSize ∧ score (heap left) < score (heap current) then left else current
  if right < heapSize ∧ score (heap right) < score (heap smallest) then right else smallest

theorem smallestOf_cases (heap : Nat → α) (heapSize current : Nat) :
    smallestOf score heap heapSize current = current ∨
      (smallestOf score heap heapSize current < heapSize ∧
        (smallestOf score heap heapSize current = 2 * current + 1 ∨
          smallestOf score heap heapSize current = 2 * current + 2)) := by
  unfold smallestOf
  dsimp only
  split_ifs <;> omega

/-- Move the entry at a place down until both children are at least as large. -/
def siftDown (heap : Nat → α) (heapSize current : Nat) : Nat → α :=
  if _same : smallestOf score heap heapSize current = current then heap
  else
    siftDown (exchange heap (smallestOf score heap heapSize current) current) heapSize
      (smallestOf score heap heapSize current)
termination_by heapSize - current
decreasing_by
  have cases := smallestOf_cases score heap heapSize current
  omega

/-- Move the entry at a place up until its parent is at most as large. -/
def siftUp (heap : Nat → α) (current : Nat) : Nat → α :=
  if _isRoot : current = 0 then heap
  else if score (heap current) < score (heap ((current - 1) / 2)) then
    siftUp (exchange heap ((current - 1) / 2) current) ((current - 1) / 2)
  else heap
termination_by current
decreasing_by omega

end Code

/-! ## Values -/

section Values

variable [LT β] [DecidableLT β] (score : α → β)

/-- A sift changes nothing behind the heap. -/
theorem siftDown_of_le (heap : Nat → α) {heapSize current i : Nat} (behind : heapSize ≤ i) :
    siftDown score heap heapSize current i = heap i := by
  fun_induction siftDown score heap heapSize current with
  | case1 => rfl
  | case2 heap current different ih =>
      have cases := smallestOf_cases score heap heapSize current
      rw [ih, exchange_of_ne _ (by omega) (by omega)]

theorem values_siftDown (heap : Nat → α) {heapSize size : Nat} (le : heapSize ≤ size)
    (current : Nat) : values (siftDown score heap heapSize current) size = values heap size := by
  fun_induction siftDown score heap heapSize current with
  | case1 => rfl
  | case2 heap current different ih =>
      have cases := smallestOf_cases score heap heapSize current
      rw [ih, values_exchange _ (by omega) (by omega)]

theorem values_siftUp (heap : Nat → α) {heapSize current : Nat} (inside : current < heapSize) :
    values (siftUp score heap current) heapSize = values heap heapSize := by
  fun_induction siftUp score heap current with
  | case1 => rfl
  | case2 heap current notRoot smaller ih =>
      rw [ih (by omega), values_exchange _ (by omega) inside]
  | case3 => rfl

end Values

/-! ## Order -/

section Order

variable [LinearOrder β] (score : α → β)

/-- No entry is smaller than its parent. -/
def IsHeap (heap : Nat → α) (size : Nat) : Prop :=
  ∀ i, 0 < i → i < size → score (heap ((i - 1) / 2)) ≤ score (heap i)

/-- All parents are in order but that of one place, whose children are in order
with its parent. -/
structure UpReady (heap : Nat → α) (size place : Nat) : Prop where
  ordered : ∀ i, 0 < i → i < size → i ≠ place → score (heap ((i - 1) / 2)) ≤ score (heap i)
  bridged : 0 < place → ∀ i, 0 < i → i < size → (i - 1) / 2 = place →
    score (heap ((place - 1) / 2)) ≤ score (heap i)

/-- All entries are in order with their parents but the children of one place,
which are in order with its parent. -/
structure DownReady (heap : Nat → α) (size place : Nat) : Prop where
  ordered : ∀ i, 0 < i → i < size → (i - 1) / 2 ≠ place →
    score (heap ((i - 1) / 2)) ≤ score (heap i)
  bridged : 0 < place → ∀ i, 0 < i → i < size → (i - 1) / 2 = place →
    score (heap ((place - 1) / 2)) ≤ score (heap i)

variable {score}

/-- The root is the smallest. -/
theorem IsHeap.root_le {heap : Nat → α} {size i : Nat} (isHeap : IsHeap score heap size)
    (inside : i < size) : score (heap 0) ≤ score (heap i) := by
  induction i using Nat.strong_induction_on with
  | _ i ih =>
      rcases Nat.eq_zero_or_pos i with rfl | positive
      · exact le_rfl
      · exact (ih ((i - 1) / 2) (by omega) (by omega)).trans (isHeap i positive inside)

theorem UpReady.move {heap : Nat → α} {size place : Nat} (ready : UpReady score heap size place)
    (notRoot : place ≠ 0)
    (smaller : score (heap place) < score (heap ((place - 1) / 2))) :
    UpReady score (exchange heap ((place - 1) / 2) place) size ((place - 1) / 2) := by
  constructor
  · intro i positive iInside different
    by_cases here : i = place
    · rw [here, exchange_left, exchange_right]
      exact smaller.le
    · rw [exchange_of_ne heap different here]
      by_cases isChild : (i - 1) / 2 = place
      · rw [isChild, exchange_right]
        exact ready.bridged (Nat.pos_of_ne_zero notRoot) i positive iInside isChild
      · by_cases isSibling : (i - 1) / 2 = (place - 1) / 2
        · rw [isSibling, exchange_left]
          have parent := ready.ordered i positive iInside here
          rw [isSibling] at parent
          exact smaller.le.trans parent
        · rw [exchange_of_ne heap isSibling isChild]
          exact ready.ordered i positive iInside here
  · intro positive i iPositive iInside isChild
    have grandparent := ready.ordered ((place - 1) / 2) positive (by omega) (by omega)
    rw [exchange_of_ne heap (k := ((place - 1) / 2 - 1) / 2) (by omega) (by omega)]
    by_cases here : i = place
    · rw [here, exchange_right]
      exact grandparent
    · rw [exchange_of_ne heap (by omega) here]
      have parent := ready.ordered i iPositive iInside here
      rw [isChild] at parent
      exact grandparent.trans parent

theorem isHeap_siftUp {heap : Nat → α} {size place : Nat}
    (ready : UpReady score heap size place) : IsHeap score (siftUp score heap place) size := by
  fun_induction siftUp score heap place with
  | case1 heap => exact fun i positive iInside => ready.ordered i positive iInside positive.ne'
  | case2 heap place notRoot smaller ih => exact ih (ready.move notRoot smaller)
  | case3 heap place notRoot notSmaller =>
      intro i positive iInside
      by_cases here : i = place
      · rw [here]
        exact not_lt.mp notSmaller
      · exact ready.ordered i positive iInside here

/-- The place that a parent is exchanged with is the smallest of the three. -/
theorem smallestOf_le (score : α → β) (heap : Nat → α) (size place : Nat) :
    score (heap (smallestOf score heap size place)) ≤ score (heap place) ∧
      ∀ i, 0 < i → i < size → (i - 1) / 2 = place →
        score (heap (smallestOf score heap size place)) ≤ score (heap i) := by
  have children (i : Nat) (positive : 0 < i) (isChild : (i - 1) / 2 = place) :
      i = 2 * place + 1 ∨ i = 2 * place + 1 + 1 := by omega
  unfold smallestOf
  dsimp only
  generalize firstTwo : (if 2 * place + 1 < size ∧ score (heap (2 * place + 1)) < score (heap place)
    then 2 * place + 1 else place) = smaller
  have ofTwo : score (heap smaller) ≤ score (heap place) ∧
      (2 * place + 1 < size → score (heap smaller) ≤ score (heap (2 * place + 1))) := by
    rw [← firstTwo]
    split
    · rename_i isLeft
      exact ⟨isLeft.2.le, fun _ => le_rfl⟩
    · rename_i notLeft
      exact ⟨le_rfl, fun inside => not_lt.mp fun less => notLeft ⟨inside, less⟩⟩
  split
  · rename_i isRight
    refine ⟨isRight.2.le.trans ofTwo.1, fun i positive inside isChild => ?_⟩
    rcases children i positive isChild with rfl | rfl
    · exact isRight.2.le.trans (ofTwo.2 inside)
    · exact le_rfl
  · rename_i notRight
    refine ⟨ofTwo.1, fun i positive inside isChild => ?_⟩
    rcases children i positive isChild with rfl | rfl
    · exact ofTwo.2 inside
    · exact not_lt.mp fun less => notRight ⟨inside, less⟩

theorem DownReady.move {heap : Nat → α} {size place : Nat} (ready : DownReady score heap size place)
    (different : smallestOf score heap size place ≠ place) :
    DownReady score (exchange heap (smallestOf score heap size place) place) size
      (smallestOf score heap size place) := by
  have cases := smallestOf_cases score heap size place
  obtain ⟨leParent, leChildren⟩ := smallestOf_le score heap size place
  generalize smallestOf score heap size place = smallest at *
  have isChild : (smallest - 1) / 2 = place := by omega
  constructor
  · intro i positive inside elsewhere
    by_cases here : i = place
    · rw [here, exchange_right, exchange_of_ne heap (by omega) (by omega)]
      exact ready.bridged (by omega) smallest (by omega) (by omega) isChild
    · by_cases below : (i - 1) / 2 = place
      · rw [below, exchange_right]
        by_cases moved : i = smallest
        · rw [moved, exchange_left]
          exact leParent
        · rw [exchange_of_ne heap moved here]
          exact leChildren i positive inside below
      · rw [exchange_of_ne heap elsewhere below, exchange_of_ne heap (by omega) here]
        exact ready.ordered i positive inside below
  · intro positive i iPositive inside below
    have order := ready.ordered i iPositive inside (by omega)
    rw [isChild, exchange_right, exchange_of_ne heap (by omega) (by omega)]
    rwa [below] at order

theorem isHeap_siftDown {heap : Nat → α} {size place : Nat}
    (ready : DownReady score heap size place) :
    IsHeap score (siftDown score heap size place) size := by
  fun_induction siftDown score heap size place with
  | case1 heap place same =>
      intro i positive inside
      by_cases isChild : (i - 1) / 2 = place
      · have smallest := (smallestOf_le score heap size place).2 i positive inside isChild
        rw [same] at smallest
        rwa [isChild]
      · exact ready.ordered i positive inside isChild
  | case2 heap place different ih => exact ih (ready.move different)

end Order

/-! ## A bounded heap -/

/-- An array whose first places are in use. -/
structure Bounded (α : Type*) where
  heap : Nat → α
  size : Nat

section Offers

variable [LT β] [DecidableLT β] (score : α → β)

/-- Replace the root by the last entry and leave the last place. -/
def removeRoot (state : Bounded α) : Bounded α :=
  let size := state.size - 1
  { heap := siftDown score (Function.update state.heap 0 (state.heap size)) size 0, size := size }

/-- Put a value into the first free place. -/
def append (state : Bounded α) (value : α) : Bounded α :=
  { heap := siftUp score (Function.update state.heap state.size value) state.size
    size := state.size + 1 }

/-- Offer a value to a heap with so many places: a full heap gives up its root for
a larger value, and a value goes where there is a free place. -/
def offer (places : Nat) (state : Bounded α) (value : α) : Bounded α :=
  let state :=
    if state.size = places ∧ score (state.heap 0) < score value then removeRoot score state
    else state
  if state.size < places then append score state value else state

/-- Exchange the root with the last entry and shorten the heap, until one is left. -/
def sortDescending (heap : Nat → α) : Nat → (Nat → α)
  | 0 => heap
  | 1 => heap
  | size + 2 => sortDescending (siftDown score (exchange heap (size + 1) 0) (size + 1) 0) (size + 1)

end Offers

section Best

variable [LinearOrder β] {score : α → β}

variable (score) in
theorem values_removeRoot (state : Bounded α) (inUse : 0 < state.size) :
    values state.heap state.size =
      state.heap 0 ::ₘ values (removeRoot score state).heap (removeRoot score state).size := by
  obtain ⟨size, full⟩ := Nat.exists_eq_add_one_of_ne_zero inUse.ne'
  have same : ∀ i < size, exchange state.heap 0 size i =
      Function.update state.heap 0 (state.heap size) i := by
    intro i inside
    by_cases isRoot : i = 0
    · rw [isRoot, exchange_left, Function.update_self]
    · rw [exchange_of_ne _ isRoot inside.ne, Function.update_of_ne isRoot]
  calc
    values state.heap state.size = values (exchange state.heap 0 size) (size + 1) := by
      rw [full, values_exchange _ (Nat.succ_pos size) (Nat.lt_succ_self size)]
    _ = state.heap 0 ::ₘ values (Function.update state.heap 0 (state.heap size)) size := by
      rw [values_succ, exchange_right, values_congr same]
    _ = state.heap 0 ::ₘ values (removeRoot score state).heap (removeRoot score state).size := by
      simp only [removeRoot, full, Nat.add_sub_cancel, values_siftDown score _ le_rfl]

theorem isHeap_removeRoot {state : Bounded α} (isHeap : IsHeap score state.heap state.size) :
    IsHeap score (removeRoot score state).heap (removeRoot score state).size := by
  apply isHeap_siftDown
  constructor
  · intro i positive inside notBelow
    rw [Function.update_of_ne positive.ne', Function.update_of_ne notBelow]
    exact isHeap i positive (by omega)
  · intro positive
    exact absurd positive (Nat.lt_irrefl 0)

theorem values_append (state : Bounded α) (value : α) :
    values (append score state value).heap (append score state value).size =
      value ::ₘ values state.heap state.size := by
  have same : ∀ i < state.size, Function.update state.heap state.size value i = state.heap i :=
    fun i inside => Function.update_of_ne inside.ne _ _
  rw [append, values_siftUp score _ (Nat.lt_succ_self _), values_succ, Function.update_self,
    values_congr same]

theorem isHeap_append {state : Bounded α} (isHeap : IsHeap score state.heap state.size)
    (value : α) : IsHeap score (append score state value).heap (append score state value).size := by
  have ready : UpReady score (Function.update state.heap state.size value) (state.size + 1)
      state.size := by
    constructor
    · intro i positive inside notLast
      rw [Function.update_of_ne notLast, Function.update_of_ne (by omega)]
      exact isHeap i positive (by omega)
    · intro _ i positive inside isChild
      omega
  exact isHeap_siftUp ready

/-- Of the values seen so far, some are kept in so many places and the others are
rejected: none while there is a free place, and none above a kept one. -/
structure BestKept (score : α → β) (places : Nat) (seen kept rejected : Multiset α) : Prop where
  whole : seen = kept + rejected
  bounded : kept.card ≤ places
  full : rejected ≠ 0 → kept.card = places
  best : ∀ lost ∈ rejected, ∀ held ∈ kept, score lost ≤ score held

/-- A heap that keeps the best of what it was offered. -/
structure Keeps (score : α → β) (places : Nat) (seen : Multiset α) (state : Bounded α) : Prop where
  isHeap : IsHeap score state.heap state.size
  kept : ∃ rejected, BestKept score places seen (values state.heap state.size) rejected

theorem Keeps.append {places : Nat} {seen : Multiset α} {state : Bounded α}
    (keeps : Keeps score places seen state) (free : state.size < places) (value : α) :
    Keeps score places (value ::ₘ seen) (append score state value) := by
  obtain ⟨isHeap, rejected, whole, bounded, full, best⟩ := keeps
  have noneRejected : rejected = 0 := by
    by_contra some
    have isFull := full some
    rw [card_values] at isFull
    exact free.ne isFull
  refine ⟨isHeap_append isHeap value, 0, ?_, ?_, fun some => absurd rfl some, by simp⟩
  · rw [values_append, whole, noneRejected]
    simp
  · rw [card_values]
    exact free

theorem Keeps.replace {places : Nat} {seen : Multiset α} {state : Bounded α}
    (keeps : Keeps score places seen state) (inUse : 0 < places) (isFull : state.size = places)
    {value : α} (larger : score (state.heap 0) < score value) :
    Keeps score places (value ::ₘ seen)
      (BinaryHeaps.append score (removeRoot score state) value) := by
  obtain ⟨isHeap, rejected, whole, bounded, full, best⟩ := keeps
  have split := values_removeRoot score state (isFull ▸ inUse)
  have size : (removeRoot score state).size + 1 = places := by
    simp only [removeRoot]
    omega
  have root : ∀ held ∈ values state.heap state.size, score (state.heap 0) ≤ score held := by
    intro held member
    obtain ⟨i, inside, rfl⟩ := exists_of_mem_values member
    exact isHeap.root_le inside
  refine ⟨isHeap_append (isHeap_removeRoot isHeap) value, state.heap 0 ::ₘ rejected, ?_, ?_, ?_, ?_⟩
  · rw [values_append, whole, split]
    simp only [Multiset.cons_add, Multiset.add_cons]
    exact Multiset.cons_swap _ _ _
  · rw [card_values]
    exact size.le
  · intro _
    rw [card_values]
    exact size
  · intro lost isLost held isHeld
    have lostLe : score lost ≤ score (state.heap 0) := by
      rcases Multiset.mem_cons.mp isLost with rfl | earlier
      · exact le_rfl
      · exact best lost earlier _ (mem_values (isFull ▸ inUse))
    rw [values_append] at isHeld
    rcases Multiset.mem_cons.mp isHeld with rfl | stays
    · exact lostLe.trans larger.le
    · exact lostLe.trans (root held (split ▸ Multiset.mem_cons_of_mem stays))

theorem Keeps.reject {places : Nat} {seen : Multiset α} {state : Bounded α}
    (keeps : Keeps score places seen state) (isFull : state.size = places) {value : α}
    (notLarger : ¬score (state.heap 0) < score value) :
    Keeps score places (value ::ₘ seen) state := by
  obtain ⟨isHeap, rejected, whole, bounded, full, best⟩ := keeps
  refine ⟨isHeap, value ::ₘ rejected, ?_, bounded, fun _ => (card_values _ _).trans isFull, ?_⟩
  · rw [whole, Multiset.add_cons]
  · intro lost isLost held isHeld
    rcases Multiset.mem_cons.mp isLost with rfl | earlier
    · obtain ⟨i, inside, rfl⟩ := exists_of_mem_values isHeld
      exact (not_lt.mp notLarger).trans (isHeap.root_le inside)
    · exact best lost earlier held isHeld

/-- One offer. -/
theorem Keeps.offer {places : Nat} {seen : Multiset α} {state : Bounded α}
    (keeps : Keeps score places seen state) (inUse : 0 < places) (value : α) :
    Keeps score places (value ::ₘ seen) (offer score places state value) := by
  have bounded : state.size ≤ places := by
    obtain ⟨rejected, kept⟩ := keeps.kept
    have inPlaces := kept.bounded
    rwa [card_values] at inPlaces
  unfold BinaryHeaps.offer
  dsimp only
  by_cases replaced : state.size = places ∧ score (state.heap 0) < score value
  · have free : (removeRoot score state).size < places := by
      simp only [removeRoot]
      omega
    rw [if_pos replaced, if_pos free]
    exact keeps.replace inUse replaced.1 replaced.2
  · rw [if_neg replaced]
    by_cases free : state.size < places
    · rw [if_pos free]
      exact keeps.append free value
    · have isFull : state.size = places := by omega
      rw [if_neg free]
      exact keeps.reject isFull fun larger => replaced ⟨isFull, larger⟩

/-- A run of offers keeps the best of what the heap has seen. -/
theorem Keeps.run {places : Nat} {seen : Multiset α} {state : Bounded α}
    (keeps : Keeps score places seen state) (inUse : 0 < places) (offers : List α) :
    Keeps score places (seen + offers) (offers.foldl (BinaryHeaps.offer score places) state) := by
  induction offers generalizing seen state with
  | nil => simpa using keeps
  | cons value offers ih =>
      have rest := ih (keeps.offer inUse value)
      rwa [Multiset.cons_add, ← Multiset.add_cons, Multiset.cons_coe] at rest

theorem Keeps.empty (score : α → β) (places : Nat) (heap : Nat → α) :
    Keeps score places 0 { heap := heap, size := 0 } where
  isHeap := fun i _ inside => absurd inside (Nat.not_lt_zero i)
  kept := ⟨0, by simp, by simp, fun some => absurd rfl some, by simp⟩

/-! ## Sorting -/

/-- The places behind the heap are in descending order and below the heap. -/
structure PartlySorted (score : α → β) (heap : Nat → α) (unsorted size : Nat) : Prop where
  isHeap : IsHeap score heap unsorted
  sorted : ∀ i j, unsorted ≤ i → i ≤ j → j < size → score (heap j) ≤ score (heap i)
  below : ∀ i < unsorted, ∀ j, unsorted ≤ j → j < size → score (heap j) ≤ score (heap i)

theorem PartlySorted.step {heap : Nat → α} {unsorted size : Nat}
    (partly : PartlySorted score heap (unsorted + 1) size) :
    PartlySorted score (siftDown score (exchange heap unsorted 0) unsorted 0) unsorted size := by
  have sorted (k : Nat) (behind : unsorted ≤ k) :
      siftDown score (exchange heap unsorted 0) unsorted 0 k =
        if k = unsorted then heap 0 else heap k := by
    rw [siftDown_of_le _ _ behind]
    split
    · rename_i here
      rw [here, exchange_left]
    · rename_i elsewhere
      by_cases isRoot : k = 0
      · omega
      · rw [exchange_of_ne _ elsewhere isRoot]
  have stays (i : Nat) (inside : i < unsorted) : ∃ k < unsorted + 1,
      siftDown score (exchange heap unsorted 0) unsorted 0 i = heap k := by
    have member : siftDown score (exchange heap unsorted 0) unsorted 0 i ∈ values _ unsorted :=
      mem_values inside
    rw [values_siftDown score _ le_rfl] at member
    obtain ⟨k, kInside, same⟩ := exists_of_mem_values member
    by_cases isRoot : k = 0
    · rw [isRoot, exchange_right] at same
      exact ⟨unsorted, Nat.lt_succ_self _, same.symm⟩
    · rw [exchange_of_ne _ kInside.ne isRoot] at same
      exact ⟨k, by omega, same.symm⟩
  constructor
  · apply isHeap_siftDown
    constructor
    · intro i positive inside notBelow
      rw [exchange_of_ne _ inside.ne positive.ne', exchange_of_ne _ (by omega) notBelow]
      exact partly.isHeap i positive (by omega)
    · intro positive
      exact absurd positive (Nat.lt_irrefl 0)
  · intro i j behind le inside
    rw [sorted i behind, sorted j (behind.trans le)]
    split_ifs with jHere iHere iHere
    · exact le_rfl
    · omega
    · exact partly.below 0 (Nat.succ_pos _) j (by omega) inside
    · exact partly.sorted i j (by omega) le inside
  · intro i iInside j behind inside
    obtain ⟨k, kInside, same⟩ := stays i iInside
    rw [same, sorted j behind]
    split_ifs with here
    · exact partly.isHeap.root_le kInside
    · exact partly.below k kInside j (by omega) inside

theorem PartlySorted.run {heap : Nat → α} {unsorted size : Nat}
    (partly : PartlySorted score heap unsorted size) :
    ∀ i j, i ≤ j → j < size →
      score (sortDescending score heap unsorted j) ≤
        score (sortDescending score heap unsorted i) := by
  fun_induction sortDescending score heap unsorted with
  | case1 heap => exact fun i j => partly.sorted i j (Nat.zero_le i)
  | case2 heap =>
      intro i j le inside
      by_cases isFirst : i = 0
      · by_cases same : j = 0
        · rw [isFirst, same]
        · rw [isFirst]
          exact partly.below 0 Nat.one_pos j (by omega) inside
      · exact partly.sorted i j (by omega) le inside
  | case3 heap unsorted ih => exact ih partly.step

variable (score) in
theorem values_sortDescending (heap : Nat → α) {unsorted size : Nat} (inside : unsorted ≤ size) :
    values (sortDescending score heap unsorted) size = values heap size := by
  fun_induction sortDescending score heap unsorted with
  | case1 => rfl
  | case2 => rfl
  | case3 heap unsorted ih =>
      rw [ih (by omega), values_siftDown score _ (by omega),
        values_exchange _ (by omega) (by omega)]

/-- The entries of a heap once it is sorted. -/
theorem coe_map_sortDescending (score : α → β) (state : Bounded α) :
    (((List.range state.size).map (sortDescending score state.heap state.size) : List α) :
      Multiset α) = values state.heap state.size := by
  rw [← values_sortDescending score state.heap le_rfl]
  rfl

theorem IsHeap.pairwise_sortDescending {state : Bounded α}
    (isHeap : IsHeap score state.heap state.size) :
    ((List.range state.size).map (sortDescending score state.heap state.size)).Pairwise
      fun first second => score second ≤ score first := by
  have partly : PartlySorted score state.heap state.size state.size :=
    ⟨isHeap, fun i j behind le inside => absurd (behind.trans le) (Nat.not_le.mpr inside),
      fun i _ j behind inside => absurd behind (Nat.not_le.mpr inside)⟩
  rw [List.pairwise_map]
  apply List.pairwise_lt_range.imp_of_mem
  intro i j _ jInside less
  exact partly.run i j less.le (List.mem_range.mp jInside)

end Best

end BinaryHeaps
