import RtlsdrFt8d.LdpcCode
import RtlsdrFt8d.MessageChecksums
import RtlsdrFt8d.WaterfallCells

/-!
# Tone sequences

`ft8_encode` sends a payload as 79 tones.  A cursor walks over the bits of the
codeword, three to a tone, and rests while the three sync groups are sent.
-/

namespace RtlsdrFt8d

open PackedBits

/-! ## The encoder -/

/-- `bits3`. -/
def grayIndex (first second third : Bool) : Nat :=
  (if first then 4 else 0) ||| (if second then 2 else 0) ||| (if third then 1 else 0)

/-- The tone for three bits of a codeword. -/
def grayTone (first second third : Bool) : Nat :=
  ft8GrayMap.getD (grayIndex first second third) 0

/-- The loop of `ft8_encode` over the tones that are left. -/
def ft8ToneLoop (codeword : Vector UInt8 22) : List Nat → Cursor → List Nat
  | [], _ => []
  | iTone :: rest, cursor =>
      if iTone < 7 then
        costasPattern (Fin.ofNat 7 iTone) :: ft8ToneLoop codeword rest cursor
      else if 36 ≤ iTone ∧ iTone < 43 then
        costasPattern (Fin.ofNat 7 (iTone - 36)) :: ft8ToneLoop codeword rest cursor
      else if 72 ≤ iTone ∧ iTone < 79 then
        costasPattern (Fin.ofNat 7 (iTone - 72)) :: ft8ToneLoop codeword rest cursor
      else
        grayTone (test codeword cursor) (test codeword cursor.next)
            (test codeword cursor.next.next) ::
          ft8ToneLoop codeword rest cursor.next.next.next

/-- `ft8_encode`. -/
def ft8Encode (payload : Vector UInt8 10) : List Nat :=
  ft8ToneLoop (encode174 (addCrc payload)) (List.range 79) { mask := 0x80, byte := 0 }

/-! ## Positions -/

/-- The place of a data symbol among the tones, as the decoder computes it. -/
def symIdx (k : Nat) : Nat :=
  k + if k < 29 then 7 else 14

/-- The bits before a tone. -/
def bitsBefore (iTone : Nat) : Nat :=
  3 * (if iTone < 36 then iTone - 7 else if iTone < 72 then max iTone 43 - 14 else 58)

/-- The tone at a place of the message. -/
def toneAt (codeword : Vector UInt8 22) (iTone : Nat) : Nat :=
  if iTone < 7 then costasPattern (Fin.ofNat 7 iTone)
  else if 36 ≤ iTone ∧ iTone < 43 then costasPattern (Fin.ofNat 7 (iTone - 36))
  else if 72 ≤ iTone ∧ iTone < 79 then costasPattern (Fin.ofNat 7 (iTone - 72))
  else
    grayTone (bit codeword (bitsBefore iTone)) (bit codeword (bitsBefore iTone + 1))
      (bit codeword (bitsBefore iTone + 2))

/-- The cursor rests during the sync groups. -/
theorem bitsBefore_succ {iTone : Nat} (inside : iTone < 79) :
    bitsBefore (iTone + 1) =
      if iTone < 7 ∨ 36 ≤ iTone ∧ iTone < 43 ∨ 72 ≤ iTone then bitsBefore iTone
      else bitsBefore iTone + 3 := by
  unfold bitsBefore
  split_ifs <;> omega

theorem ft8ToneLoop_eq (codeword : Vector UInt8 22) (count start : Nat)
    (bounded : start + count ≤ 79) :
    ft8ToneLoop codeword (List.range' start count) (cursorAt (bitsBefore start)) =
      (List.range' start count).map (toneAt codeword) := by
  induction count generalizing start with
  | zero => rfl
  | succ count ih =>
      have step := bitsBefore_succ (show start < 79 by omega)
      have rest := ih (start + 1) (by omega)
      rw [List.range'_succ, List.map_cons, ft8ToneLoop, toneAt]
      by_cases isFirst : start < 7
      · rw [if_pos (Or.inl isFirst)] at step
        rw [if_pos isFirst, if_pos isFirst, ← rest, step]
      · rw [if_neg isFirst, if_neg isFirst]
        by_cases isSecond : 36 ≤ start ∧ start < 43
        · rw [if_pos (Or.inr (Or.inl isSecond))] at step
          rw [if_pos isSecond, if_pos isSecond, ← rest, step]
        · rw [if_neg isSecond, if_neg isSecond]
          by_cases isThird : 72 ≤ start ∧ start < 79
          · rw [if_pos (Or.inr (Or.inr isThird.1))] at step
            rw [if_pos isThird, if_pos isThird, ← rest, step]
          · rw [if_neg (by omega)] at step
            rw [if_neg isThird, if_neg isThird, ← rest, step, next_cursorAt, next_cursorAt,
              next_cursorAt, test_cursorAt, test_cursorAt, test_cursorAt]

/-- The tones of a codeword. -/
def codewordTones (codeword : Vector UInt8 22) : List Nat :=
  (List.range 79).map (toneAt codeword)

theorem ft8Encode_eq (payload : Vector UInt8 10) :
    ft8Encode payload = codewordTones (encode174 (addCrc payload)) := by
  have start : ({ mask := 0x80, byte := 0 } : Cursor) = cursorAt (bitsBefore 0) := rfl
  rw [ft8Encode, codewordTones, start, List.range_eq_range', ft8ToneLoop_eq _ _ _ (by decide)]

/-- A data symbol carries three bits of the codeword. -/
theorem getD_codewordTones (codeword : Vector UInt8 22) {k : Nat} (inside : k < 58) :
    (codewordTones codeword).getD (symIdx k) 0 =
      grayTone (bit codeword (3 * k)) (bit codeword (3 * k + 1)) (bit codeword (3 * k + 2)) := by
  have places : symIdx k = k + 7 ∧ k < 29 ∨ symIdx k = k + 14 ∧ 29 ≤ k := by
    unfold symIdx
    split_ifs with early
    · exact Or.inl ⟨rfl, early⟩
    · exact Or.inr ⟨rfl, Nat.le_of_not_lt early⟩
  have bits : bitsBefore (symIdx k) = 3 * k := by
    unfold bitsBefore
    split_ifs <;> omega
  have tone : (codewordTones codeword).getD (symIdx k) 0 = toneAt codeword (symIdx k) := by
    simp [codewordTones, show symIdx k < 79 by omega]
  rw [tone, toneAt, if_neg (by omega), if_neg (by omega), if_neg (by omega), bits]

end RtlsdrFt8d
