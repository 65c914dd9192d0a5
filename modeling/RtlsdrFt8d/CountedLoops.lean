import Mathlib.Order.Basic

/-!
# Counted loops

The loop `for (i = 0; i < count; i++) body` as a function of the state it
changes, with the rules for invariants that mention the loop variable.  A body
that needs the bound on its variable is folded over `Fin count`.
-/

namespace CountedLoops

variable {State : Type*}

/-- `for (i = 0; i < count; i++) state = body(i, state)`. -/
def loop : (count : Nat) → (body : Nat → State → State) → (start : State) → State
  | 0, _, start => start
  | count + 1, body, start => body count (loop count body start)

variable {count : Nat} {body : Nat → State → State} {start : State}

@[simp]
theorem loop_zero : loop 0 body start = start :=
  rfl

@[simp]
theorem loop_succ : loop (count + 1) body start = body count (loop count body start) :=
  rfl

/-- What holds before the loop and moves on with each iteration holds at its
end for the final count. -/
theorem loop_invariant (Invariant : Nat → State → Prop) (atStart : Invariant 0 start)
    (preserved : ∀ i < count, ∀ state, Invariant i state → Invariant (i + 1) (body i state)) :
    Invariant count (loop count body start) := by
  induction count with
  | zero => exact atStart
  | succ count ih =>
      apply preserved count (Nat.lt_succ_self count)
      exact ih fun i below => preserved i (Nat.lt_succ_of_lt below)

/-- The same rule for a body that needs the bound. -/
theorem finFoldl_invariant {body : State → Fin count → State} (Invariant : Nat → State → Prop)
    (atStart : Invariant 0 start)
    (preserved : ∀ (i : Fin count) state, Invariant i state → Invariant (i + 1) (body state i)) :
    Invariant count (Fin.foldl count body start) := by
  induction count with
  | zero => exact atStart
  | succ count ih =>
      have before := ih fun i => preserved i.castSucc
      rw [Fin.foldl_succ_last]
      exact preserved (Fin.last count) _ before

section Pairs

variable {Other : Type*} {first : State → Fin count → State} {second : Other → Fin count → Other}
  {otherStart : Other}

/-- A loop over two independent states is a pair of loops. -/
theorem finFoldl_prod :
    Fin.foldl count (fun states i => (first states.1 i, second states.2 i))
        (start, otherStart) =
      (Fin.foldl count first start, Fin.foldl count second otherStart) := by
  induction count with
  | zero => rfl
  | succ count ih =>
      rw [Fin.foldl_succ_last, Fin.foldl_succ_last, Fin.foldl_succ_last,
        @ih (fun state i => first state i.castSucc) fun other i => second other i.castSucc]

/-- Two loops in step: what relates their states before them and moves on with
each pair of iterations relates them at their ends. -/
theorem finFoldl_related (Related : Nat → State → Other → Prop)
    (atStart : Related 0 start otherStart)
    (preserved : ∀ (i : Fin count) state other, Related i state other →
      Related (i + 1) (first state i) (second other i)) :
    Related count (Fin.foldl count first start) (Fin.foldl count second otherStart) := by
  have related : Related count
      (Fin.foldl count (fun states i => (first states.1 i, second states.2 i))
        (start, otherStart)).1
      (Fin.foldl count (fun states i => (first states.1 i, second states.2 i))
        (start, otherStart)).2 :=
    finFoldl_invariant (fun i (states : State × Other) => Related i states.1 states.2) atStart
      fun i states => preserved i states.1 states.2
  rwa [finFoldl_prod] at related

end Pairs

end CountedLoops
