import Mathlib.Data.Finset.Card
import Mathlib.Data.Fintype.Card
import Mathlib.Data.List.TakeWhile
import Mathlib.Data.Nat.ModEq

/-!
# Linear probing

A table of fixed size is searched place after place from the home of a key,
around the end, until the key or an empty place turns up.  As long as nothing
is removed, writing where the search ends keeps the table searchable: no key
has two places, and every entry is found from its home.  A full table has no
place for another key.
-/

namespace LinearProbing

/-- A table as the places of its entries. -/
abbrev Table (size : ℕ) (Entry : Type*) := Fin size → Option Entry

variable {size : ℕ} {Key Entry : Type*}

/-- The `i`-th place that the search from a home visits. -/
def place (home : Fin size) (i : ℕ) : Fin size :=
  ⟨(home.val + i) % size, Nat.mod_lt _ home.pos⟩

theorem place_zero (home : Fin size) : place home 0 = home := by
  ext
  exact Nat.mod_eq_of_lt home.isLt

/-! ## Tables in memory -/

theorem get_replicate_none (size : ℕ) (Entry : Type*) :
    (Vector.replicate size (none : Option Entry)).get = fun _ => none := by
  funext idx
  exact Vector.getElem_replicate idx.isLt

theorem get_set (entries : Vector (Option Entry) size) (idx : Fin size)
    (content : Option Entry) :
    (entries.set idx content idx.isLt).get = Function.update entries.get idx content := by
  funext other
  change (entries.set idx content idx.isLt)[other.val] = _
  rw [Vector.getElem_set, Function.update_apply]
  simp only [Fin.ext_iff, eq_comm]
  rfl

theorem mem_toList_iff {entries : Vector (Option Entry) size} {entry : Entry} :
    some entry ∈ entries.toList ↔ ∃ idx, entries.get idx = some entry := by
  rw [Vector.mem_toList_iff, Vector.mem_iff_getElem]
  constructor
  · rintro ⟨i, inTable, atIdx⟩
    exact ⟨⟨i, inTable⟩, atIdx⟩
  · rintro ⟨idx, atIdx⟩
    exact ⟨idx.val, idx.isLt, atIdx⟩

/-! ## Searching -/

/-- The search goes all around the table. -/
theorem exists_place (home idx : Fin size) : ∃ i < size, place home i = idx := by
  have homeLt := home.isLt
  have idxLt := idx.isLt
  by_cases after : home ≤ idx
  · refine ⟨idx - home, by omega, ?_⟩
    ext
    have sum : home.val + (idx.val - home.val) = idx.val := Nat.add_sub_cancel' after
    change (home.val + (idx.val - home.val)) % size = idx.val
    rw [sum, Nat.mod_eq_of_lt idxLt]
  · have before : idx.val < home.val := Nat.not_le.mp after
    refine ⟨idx + size - home, by omega, ?_⟩
    ext
    have sum : home.val + (idx.val + size - home.val) = idx.val + size := by omega
    change (home.val + (idx.val + size - home.val)) % size = idx.val
    rw [sum, Nat.add_mod_right, Nat.mod_eq_of_lt idxLt]

theorem place_injective {home : Fin size} {i j : ℕ} (iLt : i < size) (jLt : j < size)
    (same : place home i = place home j) : i = j := by
  have congruent : home.val + i ≡ home.val + j [MOD size] := congrArg Fin.val same
  exact (Nat.ModEq.add_left_cancel' _ congruent).eq_of_lt_of_lt iLt jLt

/-- The search is back at the home once it has seen every place. -/
theorem place_eq_home_iff {home : Fin size} {i : ℕ} (pos : 0 < i) (le : i ≤ size) :
    place home i = home ↔ i = size := by
  constructor
  · intro back
    by_contra inside
    have isZero := place_injective (le.lt_of_ne inside) home.pos
      (back.trans (place_zero home).symm)
    omega
  · rintro rfl
    ext
    simp [place, Nat.mod_eq_of_lt home.isLt]

section Search

variable (key : Entry → Key) (home : Key → Fin size)

/-- The search for a key passes the places of other keys. -/
def Passes (sought : Key) : Option Entry → Prop
  | none => False
  | some entry => key entry ≠ sought

/-- The search for a key ends at a place: after `i` others that it passes. -/
structure EndsAt (table : Table size Entry) (sought : Key) (i : ℕ) : Prop where
  inTable : i < size
  ends : ¬ Passes key sought (table (place (home sought) i))
  passes : ∀ j < i, Passes key sought (table (place (home sought) j))

def Stored (table : Table size Entry) (sought : Key) : Prop :=
  ∃ idx entry, table idx = some entry ∧ key entry = sought

/-- No key has two places, and no empty place comes between an entry and the
home of its key. -/
structure Searchable (table : Table size Entry) : Prop where
  distinct : ∀ idx other entry otherEntry, table idx = some entry →
    table other = some otherEntry → key entry = key otherEntry → idx = other
  reachable : ∀ idx entry, table idx = some entry →
    ∃ i < size, place (home (key entry)) i = idx ∧
      ∀ j < i, table (place (home (key entry)) j) ≠ none

variable {key home} {table : Table size Entry} {sought : Key} {i : ℕ}

theorem passes_iff {content : Option Entry} :
    Passes key sought content ↔ ∃ entry, content = some entry ∧ key entry ≠ sought := by
  cases content <;> simp [Passes]

theorem searchable_empty : Searchable key home (fun _ : Fin size => (none : Option Entry)) where
  distinct := by simp
  reachable := by simp

/-- The search ends only once. -/
theorem EndsAt.unique {j : ℕ} (first : EndsAt key home table sought i)
    (second : EndsAt key home table sought j) : i = j := by
  rcases Nat.lt_trichotomy i j with before | same | after
  · exact absurd (second.passes i before) first.ends
  · exact same
  · exact absurd (first.passes j after) second.ends

/-- A stored key is found. -/
theorem Searchable.endsAt_of_stored (searchable : Searchable key home table) {idx : Fin size}
    {entry : Entry} (stored : table idx = some entry) :
    ∃ i, EndsAt key home table (key entry) i ∧ place (home (key entry)) i = idx := by
  obtain ⟨i, inTable, isPlace, used⟩ := searchable.reachable idx entry stored
  refine ⟨i, ⟨inTable, ?_, ?_⟩, isPlace⟩
  · rw [isPlace, stored]
    simp [Passes]
  · intro j before
    obtain ⟨other, found⟩ := Option.ne_none_iff_exists'.mp (used j before)
    refine passes_iff.mpr ⟨other, found, fun sameKey => ?_⟩
    -- Another place of the key would end the search before.
    have samePlace := searchable.distinct _ _ _ _ found stored sameKey
    exact before.ne (place_injective (before.trans inTable) inTable
      (samePlace.trans isPlace.symm))

/-- Where the search for a key without a place ends there is room for it. -/
theorem EndsAt.eq_none (endsAt : EndsAt key home table sought i)
    (absent : ¬ Stored key table sought) : table (place (home sought) i) = none := by
  cases found : table (place (home sought) i) with
  | none => rfl
  | some entry =>
      have passes : Passes key sought (table (place (home sought) i)) :=
        passes_iff.mpr ⟨entry, found, fun sameKey => absent ⟨_, entry, found, sameKey⟩⟩
      exact absurd passes endsAt.ends

/-- The search goes on for ever only in a table full of other keys. -/
theorem exists_endsAt_iff :
    (∃ i, EndsAt key home table sought i) ↔
      ¬ ∀ idx, Passes key sought (table idx) := by
  classical
  constructor
  · rintro ⟨i, endsAt⟩ allPass
    exact endsAt.ends (allPass _)
  · intro notAll
    obtain ⟨idx, ends⟩ := not_forall.mp notAll
    obtain ⟨i, inTable, isPlace⟩ := exists_place (home sought) idx
    have somePlace : ∃ i, ¬ Passes key sought (table (place (home sought) i)) :=
      ⟨i, by rwa [isPlace]⟩
    refine ⟨Nat.find somePlace, ?_, Nat.find_spec somePlace, ?_⟩
    · exact (Nat.find_min' somePlace (by rwa [isPlace])).trans_lt inTable
    · intro j before
      exact not_not.mp (Nat.find_min somePlace before)

/-! ## Writing -/

section Write

variable {entry : Entry}

/-- Writing where the search for its key ends keeps a table searchable. -/
theorem Searchable.write (searchable : Searchable key home table)
    (endsAt : EndsAt key home table (key entry) i) :
    Searchable key home
      (Function.update table (place (home (key entry)) i) (some entry)) := by
  -- Another place of the key would have ended the search, or be this one.
  have noOther : ∀ other otherEntry, table other = some otherEntry →
      key otherEntry = key entry → other = place (home (key entry)) i := by
    intro other otherEntry stored sameKey
    obtain ⟨j, otherEnds, isPlace⟩ := searchable.endsAt_of_stored stored
    rw [sameKey] at otherEnds isPlace
    rw [endsAt.unique otherEnds, isPlace]
  constructor
  · intro idx other first second atIdx atOther sameKey
    by_cases idxWritten : idx = place (home (key entry)) i <;>
      by_cases otherWritten : other = place (home (key entry)) i
    · rw [idxWritten, otherWritten]
    · rw [idxWritten, Function.update_self, Option.some.injEq] at atIdx
      rw [Function.update_of_ne otherWritten] at atOther
      exact absurd (noOther other second atOther (by rw [← sameKey, atIdx])) otherWritten
    · rw [otherWritten, Function.update_self, Option.some.injEq] at atOther
      rw [Function.update_of_ne idxWritten] at atIdx
      exact absurd (noOther idx first atIdx (by rw [sameKey, atOther])) idxWritten
    · rw [Function.update_of_ne idxWritten] at atIdx
      rw [Function.update_of_ne otherWritten] at atOther
      exact searchable.distinct idx other first second atIdx atOther sameKey
  · have usedStays : ∀ idx, table idx ≠ none →
        Function.update table (place (home (key entry)) i) (some entry) idx ≠ none := by
      intro idx used
      by_cases written : idx = place (home (key entry)) i
      · simp [written]
      · rwa [Function.update_of_ne written]
    intro idx stored atIdx
    by_cases written : idx = place (home (key entry)) i
    · rw [written, Function.update_self, Option.some.injEq] at atIdx
      subst atIdx
      refine ⟨i, endsAt.inTable, written.symm, fun j before => usedStays _ ?_⟩
      obtain ⟨other, found, -⟩ := passes_iff.mp (endsAt.passes j before)
      simp [found]
    · rw [Function.update_of_ne written] at atIdx
      obtain ⟨j, inTable, isPlace, used⟩ := searchable.reachable idx stored atIdx
      exact ⟨j, inTable, isPlace, fun earlier before => usedStays _ (used earlier before)⟩

/-- A place that was used keeps its key. -/
theorem EndsAt.key_kept (endsAt : EndsAt key home table (key entry) i) {idx : Fin size}
    {old : Entry} (stored : table idx = some old) :
    ∃ new, Function.update table (place (home (key entry)) i) (some entry) idx = some new ∧
      key new = key old := by
  by_cases written : idx = place (home (key entry)) i
  · refine ⟨entry, by rw [written, Function.update_self], ?_⟩
    have ends := endsAt.ends
    rw [← written, stored] at ends
    exact (not_not.mp ends).symm
  · exact ⟨old, by rw [Function.update_of_ne written, stored], rfl⟩

theorem stored_write_iff (endsAt : EndsAt key home table (key entry) i) :
    Stored key (Function.update table (place (home (key entry)) i) (some entry)) sought ↔
      Stored key table sought ∨ sought = key entry := by
  constructor
  · rintro ⟨idx, stored, atIdx, sameKey⟩
    by_cases written : idx = place (home (key entry)) i
    · rw [written, Function.update_self, Option.some.injEq] at atIdx
      exact Or.inr (by rw [← sameKey, atIdx])
    · rw [Function.update_of_ne written] at atIdx
      exact Or.inl ⟨idx, stored, atIdx, sameKey⟩
  · rintro (⟨idx, stored, atIdx, sameKey⟩ | rfl)
    · obtain ⟨new, atNew, kept⟩ := endsAt.key_kept atIdx
      exact ⟨idx, new, atNew, kept.trans sameKey⟩
    · exact ⟨_, entry, Function.update_self _ _ _, rfl⟩

end Write

/-! ## Room -/

/-- As many places are used as there are keys. -/
theorem Searchable.card_used (searchable : Searchable key home table) (keys : Finset Key)
    (storedKeys : ∀ k, k ∈ keys ↔ Stored key table k) :
    (Finset.univ.filter fun idx => table idx ≠ none).card = keys.card := by
  classical
  refine Finset.card_bij (fun idx used => key ((table idx).get ?_)) ?_ ?_ ?_
  · exact Option.isSome_iff_ne_none.mpr (Finset.mem_filter.mp used).2
  · intro idx used
    exact (storedKeys _).mpr ⟨idx, _, (Option.some_get _).symm, rfl⟩
  · intro idx _ other _ sameKey
    exact searchable.distinct idx other _ _ (Option.some_get _).symm (Option.some_get _).symm
      sameKey
  · intro k isKey
    obtain ⟨idx, entry, atIdx, sameKey⟩ := (storedKeys k).mp isKey
    refine ⟨idx, by simp [atIdx], ?_⟩
    simp [atIdx, sameKey]

/-- A key finds a place exactly if it has one already or the table is not
full. -/
theorem Searchable.exists_endsAt_iff (searchable : Searchable key home table)
    (keys : Finset Key) (storedKeys : ∀ k, k ∈ keys ↔ Stored key table k) :
    (∃ i, EndsAt key home table sought i) ↔ sought ∈ keys ∨ keys.card < size := by
  rw [LinearProbing.exists_endsAt_iff, ← searchable.card_used keys storedKeys, storedKeys]
  constructor
  · intro notAll
    by_contra neither
    rw [not_or, Nat.not_lt] at neither
    obtain ⟨absent, full⟩ := neither
    refine notAll fun idx => ?_
    have allUsed : (Finset.univ.filter fun idx => table idx ≠ none) = Finset.univ :=
      Finset.eq_univ_of_card _ (le_antisymm (Finset.card_le_univ _) (by simpa using full))
    have isUsed := Finset.mem_univ idx
    rw [← allUsed] at isUsed
    obtain ⟨entry, found⟩ := Option.ne_none_iff_exists'.mp (Finset.mem_filter.mp isUsed).2
    exact passes_iff.mpr ⟨entry, found, fun sameKey => absent ⟨idx, entry, found, sameKey⟩⟩
  · rintro (⟨idx, entry, found, sameKey⟩ | room) allPass
    · obtain ⟨other, otherFound, otherKey⟩ := passes_iff.mp (allPass idx)
      rw [found, Option.some.injEq] at otherFound
      exact otherKey (otherFound ▸ sameKey)
    · have allUsed : (Finset.univ.filter fun idx => table idx ≠ none) = Finset.univ := by
        refine Finset.filter_true_of_mem fun idx _ => ?_
        obtain ⟨entry, found, -⟩ := passes_iff.mp (allPass idx)
        simp [found]
      rw [allUsed, Finset.card_univ, Fintype.card_fin] at room
      exact Nat.lt_irrefl _ room

end Search

/-! ## Histories -/

section Histories

variable [DecidableEq Key]

/-- A new key is kept while there is room. -/
def keep (size : ℕ) (known : List Key) (next : Key) : List Key :=
  if next ∈ known ∨ size ≤ known.length then known else known ++ [next]

/-- The keys that find a place when a sequence of keys comes in. -/
def kept (size : ℕ) (keys : List Key) : List Key :=
  keys.foldl (keep size) []

theorem kept_append_singleton (keys : List Key) (next : Key) :
    kept size (keys ++ [next]) = keep size (kept size keys) next := by
  simp [kept]

theorem nodup_kept (keys : List Key) : (kept size keys).Nodup := by
  induction keys using List.reverseRecOn with
  | nil => exact List.nodup_nil
  | append_singleton keys next ih =>
      rw [kept_append_singleton, keep]
      split_ifs with keeps
      · exact ih
      · rw [not_or] at keeps
        rw [← List.concat_eq_append]
        exact ih.concat keeps.1

theorem kept_subset (keys : List Key) : kept size keys ⊆ keys := by
  induction keys using List.reverseRecOn with
  | nil => exact List.Subset.refl _
  | append_singleton keys next ih =>
      rw [kept_append_singleton, keep]
      split_ifs
      · exact List.subset_append_of_subset_left _ ih
      · exact List.append_subset.mpr ⟨List.subset_append_of_subset_left _ ih,
          List.subset_append_right _ _⟩

theorem length_kept_le (keys : List Key) : (kept size keys).length ≤ size := by
  induction keys using List.reverseRecOn with
  | nil => exact Nat.zero_le _
  | append_singleton keys next ih =>
      rw [kept_append_singleton, keep]
      split_ifs with keeps
      · exact ih
      · rw [List.length_append, List.length_singleton]
        omega

/-- With room left every key is kept. -/
theorem subset_kept {keys : List Key} (room : (kept size keys).length < size) :
    keys ⊆ kept size keys := by
  induction keys using List.reverseRecOn with
  | nil => exact List.nil_subset _
  | append_singleton keys next ih =>
      rw [kept_append_singleton, keep] at room ⊢
      split_ifs at room ⊢ with keeps
      · refine List.append_subset.mpr ⟨ih room, ?_⟩
        rw [List.cons_subset]
        refine ⟨?_, List.nil_subset _⟩
        exact keeps.resolve_right (by omega)
      · rw [List.length_append, List.length_singleton] at room
        exact List.append_subset.mpr ⟨List.subset_append_of_subset_left _ (ih (by omega)),
          List.subset_append_right _ _⟩

theorem length_kept (keys : List Key) :
    (kept size keys).length = min size keys.toFinset.card := by
  have card : (kept size keys).toFinset.card = (kept size keys).length :=
    List.toFinset_card_of_nodup (nodup_kept keys)
  have subset : (kept size keys).toFinset ⊆ keys.toFinset :=
    fun k isKept => List.mem_toFinset.mpr (kept_subset keys (List.mem_toFinset.mp isKept))
  have atMost := Finset.card_le_card subset
  have atMostSize := @length_kept_le size _ _ keys
  by_cases room : (kept size keys).length < size
  · have all : keys.toFinset ⊆ (kept size keys).toFinset :=
      fun k isKey => List.mem_toFinset.mpr (subset_kept room (List.mem_toFinset.mp isKey))
    have atLeast := Finset.card_le_card all
    omega
  · omega

/-- As many keys as there are places are all kept. -/
theorem mem_kept_of_card_le {keys : List Key} (few : keys.toFinset.card ≤ size) {k : Key}
    (isKey : k ∈ keys) : k ∈ kept size keys := by
  have subset : (kept size keys).toFinset ⊆ keys.toFinset :=
    fun other isKept => List.mem_toFinset.mpr (kept_subset keys (List.mem_toFinset.mp isKept))
  have card : keys.toFinset.card ≤ (kept size keys).toFinset.card := by
    rw [List.toFinset_card_of_nodup (nodup_kept keys), length_kept, min_eq_right few]
  rw [← List.mem_toFinset, Finset.eq_of_subset_of_card_le subset card, List.mem_toFinset]
  exact isKey

/-- What becomes of a key is decided when it comes first. -/
theorem mem_kept_append_iff {keys : List Key} {k : Key} (came : k ∈ keys) (more : List Key) :
    k ∈ kept size (keys ++ more) ↔ k ∈ kept size keys := by
  induction more using List.reverseRecOn with
  | nil => rw [List.append_nil]
  | append_singleton more next ih =>
      rw [← List.append_assoc, kept_append_singleton, keep, ← ih]
      split_ifs with keeps
      · rfl
      · rw [not_or, Nat.not_le] at keeps
        have known : k ∈ kept size (keys ++ more) :=
          subset_kept keeps.2 (List.mem_append_left more came)
        simp [known]

theorem exists_eq_takeWhile_append {keys : List Key} {k : Key} (came : k ∈ keys) :
    ∃ later, keys = keys.takeWhile (· ≠ k) ++ k :: later := by
  induction keys with
  | nil => simp at came
  | cons first keys ih =>
      by_cases isFirst : first = k
      · exact ⟨keys, by simp [isFirst]⟩
      · obtain ⟨later, split⟩ := ih ((List.mem_cons.mp came).resolve_left (Ne.symm isFirst))
        refine ⟨later, ?_⟩
        rw [List.takeWhile_cons_of_pos (by simpa using isFirst), List.cons_append, ← split]

/-- A key is kept if fewer than `size` others came before it did first. -/
theorem mem_kept_iff {keys : List Key} {k : Key} :
    k ∈ kept size keys ↔
      k ∈ keys ∧ ((keys.takeWhile (· ≠ k)).toFinset).card < size := by
  by_cases came : k ∈ keys
  · obtain ⟨later, split⟩ := exists_eq_takeWhile_append came
    have isNew : k ∉ keys.takeWhile (· ≠ k) := by
      intro isOld
      simpa using List.mem_takeWhile_imp isOld
    have notKept : k ∉ kept size (keys.takeWhile (· ≠ k)) := fun isKept =>
      isNew (kept_subset _ isKept)
    have length := @length_kept size _ _ (keys.takeWhile (· ≠ k))
    have decided : k ∈ kept size keys ↔ k ∈ kept size (keys.takeWhile (· ≠ k) ++ [k]) := by
      conv_lhs => rw [split, ← List.singleton_append, ← List.append_assoc]
      exact mem_kept_append_iff (by simp) later
    rw [decided, kept_append_singleton, keep, and_iff_right came]
    split_ifs with keeps
    · have full := keeps.resolve_left notKept
      simp only [notKept, false_iff]
      omega
    · rw [not_or] at keeps
      simp only [List.mem_append, List.mem_singleton, or_true, true_iff]
      omega
  · simp only [came, false_and, iff_false]
    exact fun isKept => came (kept_subset keys isKept)

/-! ### Tables with a history -/

variable {key : Entry → Key} {home : Key → Fin size} {table : Table size Entry}
  {keys : List Key} {i : ℕ}

/-- The table holds the kept ones of the keys that came in. -/
structure Records (key : Entry → Key) (home : Key → Fin size) (table : Table size Entry)
    (keys : List Key) : Prop where
  searchable : Searchable key home table
  stored_iff : ∀ k, Stored key table k ↔ k ∈ kept size keys

theorem records_empty : Records key home (fun _ => none) [] where
  searchable := searchable_empty
  stored_iff := by simp [Stored, kept]

theorem Records.exists_endsAt_iff (records : Records key home table keys) {sought : Key} :
    (∃ i, EndsAt key home table sought i) ↔
      sought ∈ kept size keys ∨ (kept size keys).length < size := by
  rw [records.searchable.exists_endsAt_iff (kept size keys).toFinset
    (fun k => by rw [List.mem_toFinset, records.stored_iff]), List.mem_toFinset,
    List.toFinset_card_of_nodup (nodup_kept keys)]

theorem Records.write (records : Records key home table keys) {entry : Entry}
    (endsAt : EndsAt key home table (key entry) i) :
    Records key home (Function.update table (place (home (key entry)) i) (some entry))
      (keys ++ [key entry]) where
  searchable := records.searchable.write endsAt
  stored_iff k := by
    have finds := records.exists_endsAt_iff.mp ⟨i, endsAt⟩
    rw [stored_write_iff endsAt, records.stored_iff, kept_append_singleton, keep]
    split_ifs with keeps
    · have known : key entry ∈ kept size keys := by
        rcases finds with known | room
        · exact known
        · exact keeps.resolve_right (by omega)
      exact ⟨fun found => found.elim id fun same => same ▸ known, Or.inl⟩
    · simp

/-- A key that has a place, or finds none, leaves the table as it is. -/
theorem Records.skip (records : Records key home table keys) {sought : Key}
    (noRoom : Stored key table sought ∨ ∀ i, ¬ EndsAt key home table sought i) :
    Records key home table (keys ++ [sought]) where
  searchable := records.searchable
  stored_iff k := by
    rw [records.stored_iff, kept_append_singleton, keep, if_pos]
    rcases noRoom with stored | never
    · exact Or.inl ((records.stored_iff sought).mp stored)
    · have none := mt records.exists_endsAt_iff.mpr (not_exists.mpr never)
      rw [not_or, Nat.not_lt] at none
      exact Or.inr none.2

end Histories

end LinearProbing
