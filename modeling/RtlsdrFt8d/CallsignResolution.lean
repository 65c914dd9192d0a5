import RtlsdrFt8d.CallsignTable
import RtlsdrFt8d.EventRuns
import RtlsdrFt8d.LinearProbing

/-!
# Resolution of hashed callsigns

What `hashtable_lookup` finds after any sequence of `hashtable_add` calls.  The
table is searched by linear probing and nothing is ever removed, so it keeps
its shape, and a hash that has an entry keeps it.  Once all 256 entries are in
use, no other hash gets one.
-/

namespace RtlsdrFt8d

open LinearProbing

/-! ## Histories -/

/-- A call of `hashtable_add`. -/
structure CallsignAdd where
  callsign : List Char
  hash : UInt32

/-- A call as the codec makes it: the callsign fits in an entry, and the hash
has 22 bits. -/
structure HashedCallsign extends CallsignAdd where
  callsign_ne_nil : callsign ≠ []
  length_le : callsign.length ≤ 11
  hash_lt : hash < 0x400000

/-- The table after `hashtable_init` and a sequence of `hashtable_add` calls. -/
def callsignTableAfter (adds : List CallsignAdd) : CallsignTable :=
  EventRuns.run (fun table add => hashtableAdd add.callsign add.hash table) hashtableInit adds

/-- The callsign of the most recent call for a hash. -/
def lastCallsign (adds : List HashedCallsign) (hash : UInt32) : Option (List Char) :=
  ((adds.filter fun add => add.hash = hash).getLast?).map fun add => add.callsign

/-- Fewer than 256 other hashes came before the first call for a hash. -/
def FindsRoom (adds : List HashedCallsign) (hash : UInt32) : Prop :=
  (((adds.map fun add => add.hash).takeWhile (· ≠ hash)).toFinset).card < callsignHashTableSize

instance (adds : List HashedCallsign) (hash : UInt32) : Decidable (FindsRoom adds hash) :=
  inferInstanceAs (Decidable (_ < _))

/-- A lookup with the full width gives the most recent callsign for the hash, if
there was one. -/
def ResolvesHash (adds : List HashedCallsign) (hash : UInt32) : Prop :=
  hashtableLookup .bits22 hash (callsignTableAfter (adds.map (·.toCallsignAdd))) =
    lastCallsign adds hash

/-- The invariant of the table: no hash has two entries, the ones between the
home of a hash and its entry are in use, and a lookup of any width finds a
callsign exactly if the hash of some entry reduces to the one asked for. -/
structure CallsignTable.WellProbed (table : CallsignTable) : Prop where
  distinct : ∀ idx other entry otherEntry, table.get idx = some entry →
    table.get other = some otherEntry → entry.n22 = otherEntry.n22 → idx = other
  reachable : ∀ idx entry, table.get idx = some entry →
    ∃ i < callsignHashTableSize, callsignProbe entry.n22 i = idx ∧
      ∀ j < i, table.get (callsignProbe entry.n22 j) ≠ none
  lookup_isSome_iff : ∀ hashType hash,
    (hashtableLookup hashType hash table).isSome = true ↔
      ∃ idx entry, table.get idx = some entry ∧ hashType.reduce entry.n22 = hash
  lookup_stored : ∀ hashType hash callsign,
    hashtableLookup hashType hash table = some callsign →
      ∃ idx entry, table.get idx = some entry ∧ hashType.reduce entry.n22 = hash ∧
        entry.callsign.chars = callsign

/-! ## One call -/

/-- `hash % CALLSIGN_HASH_TABLE_SIZE`. -/
def callsignHome (hash : UInt32) : Fin callsignHashTableSize :=
  ⟨hash.toNat % callsignHashTableSize, Nat.mod_lt _ (by decide)⟩

theorem takesHash_iff (hash : UInt32) (content : Option CallsignEntry) :
    takesHash hash content = true ↔ ¬ Passes CallsignEntry.n22 hash content := by
  cases content <;> simp [takesHash, Passes]

/-- The loop of `hashtable_add` breaks where the search for the hash ends. -/
theorem find_takesHash_eq_some_iff (hash : UInt32) (table : CallsignTable) (i : Nat) :
    (List.range callsignHashTableSize).find?
        (fun i => takesHash hash (table.get (callsignProbe hash i))) = some i ↔
      EndsAt CallsignEntry.n22 callsignHome table.get hash i := by
  rw [List.find?_range_eq_some, takesHash_iff, List.mem_range]
  constructor
  · rintro ⟨ends, inTable, passes⟩
    refine ⟨inTable, ends, fun j before => ?_⟩
    have notTaken := passes j before
    rw [Bool.not_eq_true', ← Bool.not_eq_true, takesHash_iff, not_not] at notTaken
    exact notTaken
  · rintro ⟨inTable, ends, passes⟩
    refine ⟨ends, inTable, fun j before => ?_⟩
    rw [Bool.not_eq_true', ← Bool.not_eq_true, takesHash_iff, not_not]
    exact passes j before

/-- What a call can do to the table. -/
inductive AddStep (callsign : List Char) (hash : UInt32) (table : CallsignTable) :
    CallsignTable → Prop where
  | ignored (empty : callsign = []) : AddStep callsign hash table table
  | full (never : ∀ i, ¬ EndsAt CallsignEntry.n22 callsignHome table.get hash i) :
      AddStep callsign hash table table
  | written (i : Nat) (entry : CallsignEntry) (next : CallsignTable)
      (endsAt : EndsAt CallsignEntry.n22 callsignHome table.get hash i)
      (isHash : entry.n22 = hash) (isCallsign : entry.callsign = .snprintf 12 callsign)
      (isNext : next.get =
        Function.update table.get (place (callsignHome hash) i) (some entry)) :
      AddStep callsign hash table next

theorem addStep_hashtableAdd (callsign : List Char) (hash : UInt32) (table : CallsignTable) :
    AddStep callsign hash table (hashtableAdd callsign hash table) := by
  unfold hashtableAdd
  split
  case isFalse isEmpty => exact .ignored (not_not.mp isEmpty)
  case isTrue nonempty =>
    split
    case h_1 i found =>
      exact .written i _ _ ((find_takesHash_eq_some_iff hash table i).mp found) rfl rfl
        (get_set table _ _)
    case h_2 notFound =>
      refine .full fun i endsAt => ?_
      rw [(find_takesHash_eq_some_iff hash table i).mpr endsAt] at notFound
      exact absurd notFound (by simp)

/-! ## Shape -/

theorem searchable_hashtableAdd {table : CallsignTable}
    (searchable : Searchable CallsignEntry.n22 callsignHome table.get) (callsign : List Char)
    (hash : UInt32) :
    Searchable CallsignEntry.n22 callsignHome (hashtableAdd callsign hash table).get := by
  have added := addStep_hashtableAdd callsign hash table
  generalize hashtableAdd callsign hash table = next at added ⊢
  cases added with
  | ignored | full => exact searchable
  | written i entry _ endsAt isHash _ isNext =>
      subst isHash
      rw [isNext]
      exact searchable.write endsAt

theorem searchable_callsignTableAfter (adds : List CallsignAdd) :
    Searchable CallsignEntry.n22 callsignHome (callsignTableAfter adds).get := by
  refine EventRuns.run_induction
    (fun table : CallsignTable => Searchable CallsignEntry.n22 callsignHome table.get) ?_ ?_ adds
  · rw [hashtableInit, get_replicate_none]
    exact searchable_empty
  · intro table add searchable
    exact searchable_hashtableAdd searchable add.callsign add.hash

theorem n22_kept_hashtableAdd {table : CallsignTable} {idx : Fin callsignHashTableSize}
    {entry : CallsignEntry} (used : table.get idx = some entry) (callsign : List Char)
    (hash : UInt32) :
    ∃ later, (hashtableAdd callsign hash table).get idx = some later ∧
      later.n22 = entry.n22 := by
  have added := addStep_hashtableAdd callsign hash table
  generalize hashtableAdd callsign hash table = next at added ⊢
  cases added with
  | ignored | full => exact ⟨entry, used, rfl⟩
  | written i new _ endsAt isHash _ isNext =>
      subst isHash
      rw [isNext]
      exact endsAt.key_kept used

theorem n22_kept_callsignTableAfter {earlier adds : List CallsignAdd}
    (isPrefix : earlier <+: adds) {idx : Fin callsignHashTableSize} {entry : CallsignEntry}
    (used : (callsignTableAfter earlier).get idx = some entry) :
    ∃ later, (callsignTableAfter adds).get idx = some later ∧ later.n22 = entry.n22 := by
  obtain ⟨more, rfl⟩ := isPrefix
  rw [callsignTableAfter, EventRuns.run_append]
  refine EventRuns.run_induction
    (fun table : CallsignTable => ∃ later, table.get idx = some later ∧ later.n22 = entry.n22)
    ⟨entry, used, rfl⟩ ?_ more
  rintro table add ⟨later, atIdx, sameHash⟩
  obtain ⟨next, atNext, kept⟩ := n22_kept_hashtableAdd atIdx add.callsign add.hash
  exact ⟨next, atNext, kept.trans sameHash⟩

/-! ## Lookups -/

theorem hashtableLookup_eq_some {hashType : CallsignHashType} {hash : UInt32}
    {table : CallsignTable} {callsign : List Char}
    (found : hashtableLookup hashType hash table = some callsign) :
    ∃ idx entry, table.get idx = some entry ∧ hashType.reduce entry.n22 = hash ∧
      entry.callsign.chars = callsign := by
  obtain ⟨entry, isFound, rfl⟩ := Option.map_eq_some_iff.mp found
  obtain ⟨idx, atIdx⟩ :=
    mem_toList_iff.mp (List.reduceOption_mem_iff.mp (List.mem_of_find?_eq_some isFound))
  exact ⟨idx, entry, atIdx, by simpa using List.find?_some isFound, rfl⟩

theorem isSome_hashtableLookup_iff (hashType : CallsignHashType) (hash : UInt32)
    (table : CallsignTable) :
    (hashtableLookup hashType hash table).isSome = true ↔
      ∃ idx entry, table.get idx = some entry ∧ hashType.reduce entry.n22 = hash := by
  rw [hashtableLookup, Option.isSome_map, List.find?_isSome]
  constructor
  · rintro ⟨entry, isEntry, reduces⟩
    obtain ⟨idx, atIdx⟩ := mem_toList_iff.mp (List.reduceOption_mem_iff.mp isEntry)
    exact ⟨idx, entry, atIdx, by simpa using reduces⟩
  · rintro ⟨idx, entry, atIdx, reduces⟩
    exact ⟨entry, List.reduceOption_mem_iff.mpr (mem_toList_iff.mpr ⟨idx, atIdx⟩),
      by simpa using reduces⟩

/-- Every sequence of calls leaves a well probed table, in which the entries
that were in use before are in use for the same hash. -/
theorem wellProbed_callsignTableAfter (adds : List CallsignAdd) :
    (callsignTableAfter adds).WellProbed ∧
      ∀ earlier, earlier <+: adds → ∀ idx entry,
        (callsignTableAfter earlier).get idx = some entry →
          ∃ later, (callsignTableAfter adds).get idx = some later ∧
            later.n22 = entry.n22 := by
  have searchable := searchable_callsignTableAfter adds
  refine ⟨⟨searchable.distinct, searchable.reachable, ?_, ?_⟩, ?_⟩
  · intro hashType hash
    exact isSome_hashtableLookup_iff hashType hash _
  · intro hashType hash callsign found
    exact hashtableLookup_eq_some found
  · intro earlier isPrefix idx entry used
    exact n22_kept_callsignTableAfter isPrefix used

/-! ## Resolution -/

theorem reduce_bits22 {n22 : UInt32} (small : n22 < 0x400000) :
    CallsignHashType.bits22.reduce n22 = n22 := by
  apply UInt32.toNat_inj.mp
  have smallNat : n22.toNat < 2 ^ 22 := UInt32.lt_iff_toNat_lt.mp small
  change (n22 &&& 0x3FFFFF).toNat = n22.toNat
  rw [UInt32.toNat_and, show (0x3FFFFF : UInt32).toNat = 2 ^ 22 - 1 from rfl,
    Nat.and_two_pow_sub_one_eq_mod, Nat.mod_eq_of_lt smallNat]

variable (adds : List HashedCallsign) (hash : UInt32)

theorem lastCallsign_append_singleton (add : HashedCallsign) :
    lastCallsign (adds ++ [add]) hash =
      if add.hash = hash then some add.callsign else lastCallsign adds hash := by
  rw [lastCallsign, List.filter_append]
  by_cases same : add.hash = hash
  · simp [same]
  · simp [same, lastCallsign]

theorem lastCallsign_eq_none (never : hash ∉ adds.map fun add => add.hash) :
    lastCallsign adds hash = none := by
  have noAdd : (adds.filter fun add => add.hash = hash) = [] := by
    refine List.filter_eq_nil_iff.mpr fun add isAdd same => never ?_
    exact List.mem_map.mpr ⟨add, isAdd, by simpa using same⟩
  simp [lastCallsign, noAdd]

theorem callsignTableAfter_append_singleton (add : HashedCallsign) :
    callsignTableAfter ((adds ++ [add]).map (·.toCallsignAdd)) =
      hashtableAdd add.callsign add.hash
        (callsignTableAfter (adds.map (·.toCallsignAdd))) := by
  rw [callsignTableAfter, List.map_append, EventRuns.run_append]
  rfl

theorem records_callsignTableAfter :
    Records CallsignEntry.n22 callsignHome
      (callsignTableAfter (adds.map (·.toCallsignAdd))).get (adds.map fun add => add.hash) := by
  induction adds using List.reverseRecOn with
  | nil =>
      change Records _ _ hashtableInit.get _
      rw [hashtableInit, get_replicate_none]
      exact records_empty
  | append_singleton adds add ih =>
      rw [callsignTableAfter_append_singleton, List.map_append]
      generalize callsignTableAfter (adds.map (·.toCallsignAdd)) = table at ih ⊢
      have added := addStep_hashtableAdd add.callsign add.hash table
      generalize hashtableAdd add.callsign add.hash table = next at added ⊢
      cases added with
      | ignored isEmpty => exact absurd isEmpty add.callsign_ne_nil
      | full never => exact ih.skip (Or.inr never)
      | written i entry _ endsAt isHash _ isNext =>
          rw [isNext, List.map_singleton, ← isHash]
          rw [← isHash] at endsAt
          exact ih.write endsAt

/-- An entry holds the callsign that came last for its hash. -/
theorem lastCallsign_of_entry {idx : Fin callsignHashTableSize} {entry : CallsignEntry}
    (used : (callsignTableAfter (adds.map (·.toCallsignAdd))).get idx = some entry) :
    lastCallsign adds entry.n22 = some entry.callsign.chars := by
  induction adds using List.reverseRecOn generalizing idx entry with
  | nil =>
      change hashtableInit.get idx = _ at used
      rw [hashtableInit, get_replicate_none] at used
      cases used
  | append_singleton adds add ih =>
      have records := records_callsignTableAfter adds
      rw [callsignTableAfter_append_singleton] at used
      rw [lastCallsign_append_singleton]
      generalize callsignTableAfter (adds.map (·.toCallsignAdd)) = table at ih records used
      have added := addStep_hashtableAdd add.callsign add.hash table
      generalize hashtableAdd add.callsign add.hash table = next at added used
      cases added with
      | ignored isEmpty => exact absurd isEmpty add.callsign_ne_nil
      | full never =>
          rw [if_neg, ih used]
          intro sameHash
          obtain ⟨i, endsAt, -⟩ := records.searchable.endsAt_of_stored used
          exact never i (sameHash ▸ endsAt)
      | written i new _ endsAt isHash isCallsign isNext =>
          rw [isNext] at used
          by_cases written : idx = place (callsignHome add.hash) i
          · rw [written, Function.update_self, Option.some.injEq] at used
            rw [← used, if_pos isHash.symm, isCallsign, CString.chars_snprintf,
              List.take_of_length_le add.length_le]
          · rw [Function.update_of_ne written] at used
            rw [if_neg, ih used]
            intro sameHash
            obtain ⟨j, otherEnds, isPlace⟩ := records.searchable.endsAt_of_stored used
            rw [← sameHash] at otherEnds isPlace
            exact written (by rw [endsAt.unique otherEnds, isPlace])

/-- A hash with an entry. -/
theorem stored_iff :
    (∃ idx entry, (callsignTableAfter (adds.map (·.toCallsignAdd))).get idx = some entry ∧
      entry.n22 = hash) ↔
    hash ∈ (adds.map fun add => add.hash) ∧ FindsRoom adds hash := by
  have records := records_callsignTableAfter adds
  exact (records.stored_iff hash).trans mem_kept_iff

theorem n22_lt_of_entry {idx : Fin callsignHashTableSize} {entry : CallsignEntry}
    (used : (callsignTableAfter (adds.map (·.toCallsignAdd))).get idx = some entry) :
    entry.n22 < 0x400000 := by
  obtain ⟨isHash, -⟩ := (stored_iff adds entry.n22).mp ⟨idx, entry, used, rfl⟩
  obtain ⟨add, -, sameHash⟩ := List.mem_map.mp isHash
  exact sameHash ▸ add.hash_lt

/-- A lookup gives the most recent callsign for a hash that found room in the
table, and nothing for other hashes. -/
theorem hashtableLookup_callsignTableAfter :
    hashtableLookup .bits22 hash (callsignTableAfter (adds.map (·.toCallsignAdd))) =
      if FindsRoom adds hash then lastCallsign adds hash else none := by
  cases found : hashtableLookup .bits22 hash (callsignTableAfter (adds.map (·.toCallsignAdd))) with
  | some callsign =>
      obtain ⟨idx, entry, atIdx, reduces, rfl⟩ := hashtableLookup_eq_some found
      rw [reduce_bits22 (n22_lt_of_entry adds atIdx)] at reduces
      obtain ⟨-, room⟩ := (stored_iff adds hash).mp ⟨idx, entry, atIdx, reduces⟩
      rw [if_pos room, ← reduces, lastCallsign_of_entry adds atIdx]
  | none =>
      split_ifs with room
      · refine (lastCallsign_eq_none adds hash fun isHash => ?_).symm
        obtain ⟨idx, entry, atIdx, sameHash⟩ := (stored_iff adds hash).mpr ⟨isHash, room⟩
        have isSome := (isSome_hashtableLookup_iff .bits22 hash _).mpr
          ⟨idx, entry, atIdx, by rw [reduce_bits22 (n22_lt_of_entry adds atIdx), sameHash]⟩
        rw [found] at isSome
        cases isSome
      · rfl

/-- A station with each of the hashes from 0 to 256. -/
def crowdedBand : List HashedCallsign :=
  (List.finRange 257).map fun i : Fin 257 =>
    { callsign := "K1ABC".toList
      hash := UInt32.ofNat i.val
      callsign_ne_nil := by decide
      length_le := by decide
      hash_lt := by
        rw [UInt32.lt_iff_toNat_lt, UInt32.toNat_ofNat_of_lt' (i.isLt.trans (by decide))]
        exact i.isLt.trans (by decide) }

theorem not_findsRoom_crowdedBand : ¬ FindsRoom crowdedBand 256 := by
  have before : (crowdedBand.map fun add => add.hash).takeWhile (· ≠ 256) =
      (List.range 256).map UInt32.ofNat := by
    decide +kernel
  have distinct : ((List.range 256).map UInt32.ofNat).Nodup := by
    refine List.Nodup.map_on (fun i isI j isJ same => ?_) List.nodup_range
    have sameNat := congrArg UInt32.toNat same
    rwa [UInt32.toNat_ofNat_of_lt' ((List.mem_range.mp isI).trans (by decide)),
      UInt32.toNat_ofNat_of_lt' ((List.mem_range.mp isJ).trans (by decide))] at sameNat
  rw [FindsRoom, before, List.toFinset_card_of_nodup distinct, List.length_map,
    List.length_range]
  decide

/-- The last station is not resolved. -/
theorem not_resolvesHash_crowdedBand : ¬ ResolvesHash crowdedBand 256 := by
  have last : lastCallsign crowdedBand 256 = some "K1ABC".toList := by decide +kernel
  rw [ResolvesHash, last]
  intro found
  obtain ⟨idx, entry, atIdx, reduces, -⟩ := hashtableLookup_eq_some found
  rw [reduce_bits22 (n22_lt_of_entry crowdedBand atIdx)] at reduces
  exact not_findsRoom_crowdedBand
    ((stored_iff crowdedBand 256).mp ⟨idx, entry, atIdx, reduces⟩).2

end RtlsdrFt8d
