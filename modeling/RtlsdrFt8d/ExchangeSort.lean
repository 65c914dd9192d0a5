import Mathlib.Data.List.Sort
import RtlsdrFt8d.CountedLoops

/-!
# Exchange sort

The sort of two nested loops that compares each place of an array with all
places behind it and exchanges the two values whenever the later one is
smaller.  Afterwards the place `k` holds the value of rank `k`.
-/

namespace ExchangeSort

open CountedLoops

variable {α : Type*} {n : ℕ}

section Code

variable [LT α] [DecidableLT α]

/-- `if (values[j] < values[i]) swap(values[i], values[j])`. -/
def exchange (i j : Fin n) (values : Vector α n) : Vector α n :=
  if values.get j < values.get i then values.swap i j i.isLt j.isLt else values

/-- The place `i + 1 + d`. -/
def behind (i : Fin n) (d : Fin (n - (i + 1))) : Fin n :=
  ⟨i + 1 + d, by omega⟩

theorem lt_behind (i : Fin n) (d : Fin (n - (i + 1))) : i < behind i d := by
  change i.val < i.val + 1 + d.val
  omega

/-- The inner loop, for `j = i + 1, ..., n - 1`. -/
def select (i : Fin n) (values : Vector α n) : Vector α n :=
  Fin.foldl (n - (i + 1)) (fun values d => exchange i (behind i d) values) values

def sort (values : Vector α n) : Vector α n :=
  Fin.foldl n (fun values i => select i values) values

end Code

variable [LinearOrder α] {values original : Vector α n}

/-- The first `i` places hold what belongs there: nothing behind them is
smaller. -/
structure SortedUpTo (original : Vector α n) (i : ℕ) (values : Vector α n) : Prop where
  perm : values.Perm original
  smallest : ∀ p q : Fin n, p < q → p.val < i → values.get p ≤ values.get q

/-- In the inner loop the place `i` holds the smallest value up to `j`. -/
structure Selecting (original : Vector α n) (i : Fin n) (j : ℕ) (values : Vector α n) :
    Prop where
  sorted : SortedUpTo original i values
  least : ∀ q : Fin n, i < q → q.val < j → values.get i ≤ values.get q

omit [LinearOrder α] in
theorem get_swap (i j q : Fin n) (values : Vector α n) :
    (values.swap i j i.isLt j.isLt).get q = values.get (Equiv.swap i j q) := by
  change (values.swap i j i.isLt j.isLt)[q.val] = values.get (Equiv.swap i j q)
  rw [Vector.getElem_swap, Equiv.swap_apply_def]
  simp only [Fin.ext_iff]
  split_ifs <;> rfl

theorem sortedUpTo_swap {i j : Fin n} (isBehind : i < j) (sorted : SortedUpTo original i values) :
    SortedUpTo original i (values.swap i j i.isLt j.isLt) where
  perm := (Vector.swap_perm i.isLt j.isLt).trans sorted.perm
  smallest := by
    intro p q isAfter pLt
    have fixed : Equiv.swap i j p = p := Equiv.swap_apply_of_ne_of_ne (by omega) (by omega)
    have stillAfter : p < Equiv.swap i j q := by
      rw [Equiv.swap_apply_def]
      split_ifs <;> omega
    rw [get_swap, get_swap, fixed]
    exact sorted.smallest p _ stillAfter pLt

theorem selecting_exchange {i j : Fin n} (isBehind : i < j)
    (selecting : Selecting original i j values) :
    Selecting original i (j + 1) (exchange i j values) := by
  unfold exchange
  split
  · next smaller =>
      refine ⟨sortedUpTo_swap isBehind selecting.sorted, ?_⟩
      intro q isAfter qLt
      rw [get_swap, get_swap, Equiv.swap_apply_left]
      rcases Nat.lt_succ_iff_lt_or_eq.mp qLt with early | isLast
      · rw [Equiv.swap_apply_of_ne_of_ne (by omega) (by omega)]
        exact smaller.le.trans (selecting.least q isAfter early)
      · rw [Fin.ext isLast, Equiv.swap_apply_right]
        exact smaller.le
  · next notSmaller =>
      refine ⟨selecting.sorted, ?_⟩
      intro q isAfter qLt
      rcases Nat.lt_succ_iff_lt_or_eq.mp qLt with early | isLast
      · exact selecting.least q isAfter early
      · rw [Fin.ext isLast]
        exact not_lt.mp notSmaller

theorem sortedUpTo_select (i : Fin n) (sorted : SortedUpTo original i values) :
    SortedUpTo original (i + 1) (select i values) := by
  have selected : Selecting original i (i + 1 + (n - (i + 1))) (select i values) := by
    apply finFoldl_invariant fun d => Selecting original i (i + 1 + d)
    · exact ⟨sorted, fun q isAfter qLt => absurd isAfter (by omega)⟩
    · intro d values selecting
      exact selecting_exchange (lt_behind i d) selecting
  refine ⟨selected.sorted.perm, ?_⟩
  intro p q isAfter pLt
  rcases Nat.lt_succ_iff_lt_or_eq.mp pLt with early | isLast
  · exact selected.sorted.smallest p q isAfter early
  · obtain rfl := Fin.ext isLast
    exact selected.least q isAfter (by omega)

theorem sortedUpTo_sort (values : Vector α n) : SortedUpTo values n (sort values) := by
  apply finFoldl_invariant (SortedUpTo values)
  · exact ⟨Vector.Perm.refl _, fun p q _ pLt => absurd pLt (Nat.not_lt_zero _)⟩
  · exact fun i _ sorted => sortedUpTo_select i sorted

/-! ## Ranks -/

/-- The values in ascending order. -/
def ascending (values : List α) : List α :=
  values.mergeSort (· ≤ ·)

/-- The sort puts the values in ascending order. -/
theorem toList_sort (values : Vector α n) : (sort values).toList = ascending values.toList := by
  have sorted := sortedUpTo_sort values
  have inOrder : (sort values).toList.Pairwise (· ≤ ·) := by
    rw [List.pairwise_iff_getElem]
    intro p q pLt qLt isAfter
    simp only [Vector.length_toList] at pLt qLt
    exact sorted.smallest ⟨p, pLt⟩ ⟨q, qLt⟩ isAfter pLt
  have samePerm : (sort values).toList.Perm (ascending values.toList) :=
    sorted.perm.toList.trans (List.mergeSort_perm _ _).symm
  exact samePerm.eq_of_pairwise' inOrder (List.pairwise_mergeSort' _ _)

end ExchangeSort
