import Mathlib.Data.Finset.Card
import RtlsdrFt8d.EventRuns
import RtlsdrFt8d.WorkedPeers

/-!
# The table of peers as a ring

`addPeer` starts over at the first entry once the last one is written, as in a
ring, but `checkPeer` searches the entries below the index only.  The peer that
completes the first round is forgotten at once, together with all others.
-/

namespace RtlsdrFt8d

open PeerTable

/-- The table after a sequence of `addPeer` calls. -/
def peersAfter (calls : List (List Char)) : PeerTable :=
  EventRuns.run (fun table newPeer => (table.addPeer newPeer).2) .initial calls

def peerHashes (calls : List (List Char)) : Finset UInt32 :=
  (calls.map hashCallId).toFinset

/-- A peer is known from the return of `addPeer` on, until as many others as the
table has entries were added, and the next write is inside the table. -/
structure KeepsPeers (calls : List (List Char)) : Prop where
  known : ∀ earlier newPeer later, earlier ++ newPeer :: later <+: calls →
    ((peerHashes later).erase (hashCallId newPeer)).card < maxQsoPeers →
      (peersAfter (earlier ++ newPeer :: later)).checkPeer newPeer = true
  inRange : ∀ earlier, earlier <+: calls → (peersAfter earlier).peersIdx < maxQsoPeers

/-! ## The first round -/

/-- The entries below the index are the hashes so far. -/
structure HoldsHashes (table : PeerTable) (hashes : Finset UInt32) : Prop where
  peersIdx_eq : table.peersIdx = hashes.card
  mem_iff : ∀ hash, hash ∈ table.peers.toList.take table.peersIdx ↔ hash ∈ hashes

variable {table : PeerTable} {hashes : Finset UInt32} {newPeer : List Char}

theorem HoldsHashes.checkPeer_iff (holds : HoldsHashes table hashes) (thePeer : List Char) :
    table.checkPeer thePeer = true ↔ hashCallId thePeer ∈ hashes := by
  rw [checkPeer_eq_true_iff, holds.mem_iff]

theorem HoldsHashes.addPeer (holds : HoldsHashes table hashes)
    (room : (insert (hashCallId newPeer) hashes).card < maxQsoPeers) :
    HoldsHashes (table.addPeer newPeer).2 (insert (hashCallId newPeer) hashes) := by
  by_cases known : hashCallId newPeer ∈ hashes
  · rw [addPeer_of_known ((holds.checkPeer_iff newPeer).mpr known), Finset.insert_eq_of_mem known]
    exact holds
  · have unknown := mt (holds.checkPeer_iff newPeer).mp known
    have card := Finset.card_insert_of_notMem known
    have peersIdx := holds.peersIdx_eq
    have inTable : table.peersIdx < table.peers.toList.length := by
      simpa using table.peersIdx_lt
    have noWrap : ¬ maxQsoPeers ≤ table.peersIdx + 1 := by omega
    rw [PeerTable.addPeer, if_neg unknown]
    simp only [if_neg noWrap]
    refine ⟨by dsimp only; omega, fun hash => ?_⟩
    rw [Vector.toList_set, List.take_add_one, List.take_set_of_le (Nat.le_refl _),
      List.getElem?_set_self inTable, Option.toList_some, List.mem_append, holds.mem_iff,
      List.mem_singleton, Finset.mem_insert, or_comm]

theorem peerHashes_append_singleton (calls : List (List Char)) (newPeer : List Char) :
    peerHashes (calls ++ [newPeer]) = insert (hashCallId newPeer) (peerHashes calls) := by
  ext hash
  simp [peerHashes]

theorem peersAfter_append_singleton (calls : List (List Char)) (newPeer : List Char) :
    peersAfter (calls ++ [newPeer]) = ((peersAfter calls).addPeer newPeer).2 := by
  rw [peersAfter, EventRuns.run_append]
  rfl

theorem holdsHashes_peersAfter {calls : List (List Char)}
    (room : (peerHashes calls).card < maxQsoPeers) :
    HoldsHashes (peersAfter calls) (peerHashes calls) := by
  induction calls using List.reverseRecOn with
  | nil =>
      refine ⟨rfl, fun hash => ?_⟩
      simp [peersAfter, PeerTable.initial, peerHashes]
  | append_singleton calls newPeer ih =>
      rw [peerHashes_append_singleton] at room ⊢
      rw [peersAfter_append_singleton]
      have fewer := Finset.card_le_card (Finset.subset_insert (hashCallId newPeer)
        (peerHashes calls))
      exact (ih (by omega)).addPeer room

/-! ## The end of the round -/

/-- The peer that takes the last entry is not found. -/
theorem not_checkPeer_of_last (holds : HoldsHashes table hashes)
    (last : hashes.card + 1 = maxQsoPeers) (isNew : hashCallId newPeer ∉ hashes)
    (thePeer : List Char) : (table.addPeer newPeer).2.checkPeer thePeer = false := by
  have unknown := mt (holds.checkPeer_iff newPeer).mp isNew
  have peersIdx := holds.peersIdx_eq
  rw [PeerTable.addPeer, if_neg unknown, PeerTable.checkPeer]
  simp only [if_pos (show maxQsoPeers ≤ table.peersIdx + 1 by omega), List.take_zero, List.any_nil]

theorem KeepsPeers.of_isPrefix {calls earlier : List (List Char)} (keeps : KeepsPeers calls)
    (isPrefix : earlier <+: calls) : KeepsPeers earlier where
  known first newPeer later inEarlier := keeps.known first newPeer later
    (inEarlier.trans isPrefix)
  inRange first inEarlier := keeps.inRange first (inEarlier.trans isPrefix)

/-- As many peers as the table has entries are too many. -/
theorem not_keepsPeers_of_card {calls : List (List Char)}
    (many : maxQsoPeers ≤ (peerHashes calls).card) : ¬ KeepsPeers calls := by
  induction calls using List.reverseRecOn with
  | nil => simp [peerHashes, maxQsoPeers] at many
  | append_singleton calls newPeer ih =>
      intro keeps
      by_cases before : maxQsoPeers ≤ (peerHashes calls).card
      · exact ih before (keeps.of_isPrefix (List.prefix_append calls [newPeer]))
      · rw [peerHashes_append_singleton] at many
        have atMost := Finset.card_insert_le (hashCallId newPeer) (peerHashes calls)
        have isNew : hashCallId newPeer ∉ peerHashes calls := by
          intro known
          rw [Finset.insert_eq_of_mem known] at many
          exact before many
        have known := keeps.known calls newPeer [] (List.prefix_refl _)
          (by simp [peerHashes, maxQsoPeers])
        rw [peersAfter_append_singleton, not_checkPeer_of_last
          (holdsHashes_peersAfter (Nat.not_le.mp before)) (by omega) isNew] at known
        cases known

/-- The table keeps its peers as long as there are fewer of them than
entries. -/
theorem keepsPeers_iff (calls : List (List Char)) :
    KeepsPeers calls ↔ (peerHashes calls).card < maxQsoPeers := by
  constructor
  · intro keeps
    by_contra many
    exact not_keepsPeers_of_card (Nat.not_lt.mp many) keeps
  · intro room
    refine ⟨fun earlier newPeer later isPrefix _ => ?_, fun earlier _ => ?_⟩
    · have fewer : peerHashes (earlier ++ newPeer :: later) ⊆ peerHashes calls := by
        intro hash isHash
        obtain ⟨peer, isPeer, rfl⟩ := List.mem_map.mp (List.mem_toFinset.mp isHash)
        exact List.mem_toFinset.mpr
          (List.mem_map.mpr ⟨peer, isPrefix.subset isPeer, rfl⟩)
      have holds := holdsHashes_peersAfter ((Finset.card_le_card fewer).trans_lt room)
      refine (holds.checkPeer_iff newPeer).mpr ?_
      simp [peerHashes]
    · exact (peersAfter earlier).peersIdx_lt

/-- `K1AA`, `K1AB` and so on. -/
def manyPeers : List (List Char) :=
  (List.range 512).map fun i =>
    ['K', '1', Char.ofNat ('A'.toNat + i / 26), Char.ofNat ('A'.toNat + i % 26)]

/-- The last of 512 peers is not known when `addPeer` returns. -/
theorem not_keepsPeers_manyPeers : ¬ KeepsPeers manyPeers := by
  apply not_keepsPeers_of_card
  have increasing : ((manyPeers.map hashCallId).map UInt32.toNat).IsChain (· < ·) := by
    decide +kernel
  have distinct : (manyPeers.map hashCallId).Nodup :=
    List.Nodup.of_map UInt32.toNat (increasing.pairwise.imp ne_of_lt)
  rw [peerHashes, List.toFinset_card_of_nodup distinct]
  decide +kernel

end RtlsdrFt8d
