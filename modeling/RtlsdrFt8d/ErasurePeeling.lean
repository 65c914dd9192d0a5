import Mathlib.Algebra.Order.Ring.Defs
import Mathlib.Tactic.Ring
import RtlsdrFt8d.BinaryLinearCodes

/-!
# Peeling of erasures

Bits of a codeword that were not received follow from checks in which all other
bits are known.  This file defines what can be recovered in rounds, shows that
it is determined, and records how products of signed messages behave.
-/

namespace ErasurePeeling

open BinaryLinearCodes

/-! ## Checks and bits -/

/-- Which bits the checks of a code sum. -/
structure TannerGraph (Bit Check : Type*) where
  row : Check → List Bit
  checks : Bit → List Check
  nodup_row : ∀ check, (row check).Nodup
  mem_row_iff : ∀ check bit, bit ∈ row check ↔ check ∈ checks bit

variable {Bit Check : Type*} [DecidableEq Bit] (graph : TannerGraph Bit Check)

namespace TannerGraph

def IsCodeword (word : Bit → Bool) : Prop :=
  ∀ check, parity ((graph.row check).map word) = false

/-- The bits of a check besides one. -/
def others (check : Check) (bit : Bit) : List Bit :=
  (graph.row check).filter (· ≠ bit)

variable {graph}

theorem mem_others {check : Check} {bit other : Bit} :
    other ∈ graph.others check bit ↔ other ∈ graph.row check ∧ other ≠ bit := by
  simp [others]

theorem parity_filter_ne {bits : List Bit} (nodup : bits.Nodup) {bit : Bit} (member : bit ∈ bits)
    (word : Bit → Bool) :
    parity (bits.map word) = (word bit ^^ parity ((bits.filter (· ≠ bit)).map word)) := by
  induction bits with
  | nil => exact absurd member List.not_mem_nil
  | cons first rest ih =>
      obtain ⟨notMember, restNodup⟩ := List.nodup_cons.mp nodup
      by_cases here : first = bit
      · subst here
        have unchanged : rest.filter (· ≠ first) = rest := by
          rw [List.filter_eq_self]
          intro other isOther
          exact decide_eq_true fun same => notMember (same ▸ isOther)
        rw [List.map_cons, parity_cons, List.filter_cons_of_neg (by simp), unchanged]
      · have inRest : bit ∈ rest := (List.mem_cons.mp member).resolve_left (Ne.symm here)
        rw [List.map_cons, parity_cons, List.filter_cons_of_pos (by simpa using here),
          List.map_cons, parity_cons, ih restNodup inRest, Bool.xor_left_comm]

/-- A bit of a codeword is the sum of the others in each of its checks. -/
theorem IsCodeword.parity_others {word : Bit → Bool} (codeword : graph.IsCodeword word)
    {check : Check} {bit : Bit} (member : bit ∈ graph.row check) :
    parity ((graph.others check bit).map word) = word bit := by
  have sum := codeword check
  rw [parity_filter_ne (graph.nodup_row check) member] at sum
  exact (bne_eq_false_iff_eq.mp sum).symm

/-! ## Rounds -/

variable (graph)

/-- The bits that are known after some rounds, in each of which a bit is
recovered that is the only unknown one of a check. -/
def known (received : Bit → Bool) : Nat → Bit → Bool
  | 0, bit => received bit
  | rounds + 1, bit =>
      known received rounds bit ||
        (graph.checks bit).any fun check => (graph.others check bit).all (known received rounds)

/-- A check from which an unknown bit is recovered in the next round. -/
structure Recovers (received : Bit → Bool) (rounds : Nat) (check : Check) (bit : Bit) : Prop where
  unknown : graph.known received rounds bit = false
  member : check ∈ graph.checks bit
  others_known : ∀ other ∈ graph.others check bit, graph.known received rounds other = true

variable {graph} {received : Bit → Bool}

theorem known_succ {rounds : Nat} {bit : Bit} (isKnown : graph.known received rounds bit = true) :
    graph.known received (rounds + 1) bit = true := by
  rw [known, isKnown, Bool.true_or]

theorem known_mono {rounds more : Nat} (le : rounds ≤ more) {bit : Bit}
    (isKnown : graph.known received rounds bit = true) :
    graph.known received more bit = true := by
  induction le with
  | refl => exact isKnown
  | step _ ih => exact known_succ ih

/-- Who receives more knows more. -/
theorem known_of_imp {other : Bit → Bool} (more : ∀ bit, received bit = true → other bit = true)
    {rounds : Nat} {bit : Bit} (isKnown : graph.known received rounds bit = true) :
    graph.known other rounds bit = true := by
  induction rounds generalizing bit with
  | zero => exact more bit isKnown
  | succ rounds ih =>
      rw [known, Bool.or_eq_true, List.any_eq_true] at isKnown ⊢
      obtain before | ⟨check, member, allKnown⟩ := isKnown
      · exact Or.inl (ih before)
      · exact Or.inr ⟨check, member, List.all_eq_true.mpr fun bit isOther =>
          ih (List.all_eq_true.mp allKnown bit isOther)⟩

/-- A known bit was received or recovered in an earlier round. -/
theorem received_or_recovers {rounds : Nat} {bit : Bit}
    (isKnown : graph.known received rounds bit = true) :
    received bit = true ∨
      ∃ earlier < rounds, ∃ check, graph.Recovers received earlier check bit := by
  induction rounds with
  | zero => exact Or.inl isKnown
  | succ rounds ih =>
      cases before : graph.known received rounds bit with
      | true =>
          obtain isReceived | ⟨earlier, less, recovery⟩ := ih before
          · exact Or.inl isReceived
          · exact Or.inr ⟨earlier, Nat.lt_succ_of_lt less, recovery⟩
      | false =>
          rw [known, before, Bool.false_or, List.any_eq_true] at isKnown
          obtain ⟨check, member, allKnown⟩ := isKnown
          exact Or.inr ⟨rounds, Nat.lt_succ_self _, check, before, member,
            fun other isOther => List.all_eq_true.mp allKnown other isOther⟩

/-- Codewords that agree where one was received agree on what is recovered. -/
theorem eq_of_known {word other : Bit → Bool} (codeword : graph.IsCodeword word)
    (codeword' : graph.IsCodeword other) (agree : ∀ bit, received bit = true → word bit = other bit)
    {rounds : Nat} {bit : Bit} (isKnown : graph.known received rounds bit = true) :
    word bit = other bit := by
  induction rounds generalizing bit with
  | zero => exact agree bit isKnown
  | succ rounds ih =>
      rw [known, Bool.or_eq_true, List.any_eq_true] at isKnown
      obtain before | ⟨check, member, allKnown⟩ := isKnown
      · exact ih before
      · have inRow := (graph.mem_row_iff check bit).mpr member
        rw [← codeword.parity_others inRow, ← codeword'.parity_others inRow]
        congr 1
        exact List.map_congr_left fun bit isOther => ih (List.all_eq_true.mp allKnown bit isOther)

end TannerGraph

/-! ## Signed messages -/

section Signs

variable {K : Type*} [CommRing K]

/-- The sign of messages that vote for a zero bit. -/
def polarity (bit : Bool) : K :=
  if bit then -1 else 1

theorem polarity_xor (first second : Bool) :
    (polarity (first ^^ second) : K) = polarity first * polarity second := by
  cases first <;> cases second <;> simp [polarity]

theorem polarity_mul_self (bit : Bool) : (polarity bit * polarity bit : K) = 1 := by
  cases bit <;> simp [polarity]

theorem polarity_mul_cancel (bit : Bool) (x : K) : polarity bit * (polarity bit * x) = x := by
  rw [← mul_assoc, polarity_mul_self, one_mul]

/-- A function that keeps signs commutes with a polarity. -/
theorem polarity_mul_odd {f : K → K} (odd : ∀ x, f (-x) = -f x) (bit : Bool) (x : K) :
    polarity bit * f x = f (polarity bit * x) := by
  cases bit <;> simp [polarity, odd]

/-- The product of messages carries the sum of the bits that they vote for. -/
theorem prod_polarity {Position : Type*} (positions : List Position) (word : Position → Bool)
    (messages : Position → K) :
    (positions.map fun position => polarity (word position) * messages position).prod =
      polarity (parity (positions.map word)) * (positions.map messages).prod := by
  induction positions with
  | nil => simp [polarity]
  | cons position positions ih =>
      simp only [List.map_cons, List.prod_cons, parity_cons, polarity_xor, ih]
      ring

variable [LinearOrder K] [IsStrictOrderedRing K]

theorem prod_nonneg_le_pow (bound : K) (factors : List K)
    (bounds : ∀ factor ∈ factors, 0 ≤ factor ∧ factor ≤ bound) :
    0 ≤ factors.prod ∧ factors.prod ≤ bound ^ factors.length := by
  induction factors with
  | nil => simp
  | cons factor factors ih =>
      obtain ⟨nonneg, le⟩ := ih fun other isOther => bounds other (.tail _ isOther)
      obtain ⟨factorNonneg, factorLe⟩ := bounds factor (.head _)
      rw [List.prod_cons, List.length_cons, pow_succ']
      exact ⟨mul_nonneg factorNonneg nonneg, mul_le_mul factorLe le nonneg
        (factorNonneg.trans factorLe)⟩

end Signs

end ErasurePeeling
