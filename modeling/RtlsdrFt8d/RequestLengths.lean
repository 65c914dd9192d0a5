import RtlsdrFt8d.QsoMachineSteps
import RtlsdrFt8d.TransmitRequests

/-!
# Lengths of the queued requests

`queueTx` copies a request into the text of an `FT8Msg` without looking at its
length.  The fixed parts of a request leave thirty characters for the frequency
and three words; the buffers of the words alone hold more.
-/

namespace RtlsdrFt8d

open CNumerals (formatInt)

/-- A text and its terminating NUL fit into `FT8Msg::ft8Message`. -/
def FitsFT8Msg (text : List Char) : Prop :=
  text.length + 1 ≤ maxMsgSize

/-- The texts that `handleTx` and `queryCQ` hand to `queueTx` fit. -/
structure RequestsFit (options : Options) (handler : QsoHandler) : Prop where
  reply : ∀ extra, replyExtra options handler = some extra →
    FitsFT8Msg (replyText options handler extra)
  cq : FitsFT8Msg (cqText options)

theorem length_requestText (freq : Int32) (dest src extra : List Char) :
    (requestText freq dest src extra).length =
      9 + (formatInt 0 freq.toInt).length + dest.length + src.length + extra.length := by
  have lead : "FT8Tx ".toList.length = 6 := by decide
  unfold requestText
  generalize formatInt 0 freq.toInt = number
  rw [List.length_append, List.length_cons, List.length_append, List.length_cons,
    List.length_append, List.length_cons, List.length_append, lead]
  omega

theorem fitsFT8Msg_requestText_iff (freq : Int32) (dest src extra : List Char) :
    FitsFT8Msg (requestText freq dest src extra) ↔
      (formatInt 0 freq.toInt).length + dest.length + src.length + extra.length ≤ 30 := by
  unfold FitsFT8Msg
  rw [length_requestText, maxMsgSize]
  omega

theorem length_reportText (snr : Int32) :
    (reportText snr).length = 1 + max 2 (Nat.toDigits 10 snr.toInt.natAbs).length := by
  unfold reportText
  split
  · next nonneg =>
      have notNegative := Int.not_lt.mpr ((nonneg_iff_toInt_nonneg snr).mp nonneg)
      simp only [List.length_cons, formatInt, if_neg notNegative, List.length_append,
        List.length_replicate, List.length_nil]
      omega
  · next negative =>
      have isNegative := Int.not_le.mp (mt (nonneg_iff_toInt_nonneg snr).mpr negative)
      simp only [formatInt, if_pos isNegative, List.length_append, List.length_replicate,
        List.length_cons, List.length_nil]
      omega

/-- The length of the third word of a reply, from the state and the data of
the QSO. -/
def thirdWordLength (options : Options) (handler : QsoHandler) : Nat :=
  match handler.qsoState with
  | .replyLoc => options.rloc.chars.length
  | .replySig => 1 + max 2 (Nat.toDigits 10 handler.currentQSO.snr.toInt.natAbs).length
  | .replyRR73 => 4
  | .reply73 => 2
  | .idle | .cqIng => 0

theorem length_of_replyExtra {options : Options} {handler : QsoHandler} {extra : List Char}
    (transmits : replyExtra options handler = some extra) :
    extra.length = thirdWordLength options handler := by
  unfold replyExtra at transmits
  unfold thirdWordLength
  cases state : handler.qsoState with
  | idle => simp [state] at transmits
  | cqIng => simp [state] at transmits
  | replyLoc =>
      simp only [state, Option.some.injEq] at transmits
      rw [transmits]
  | replySig =>
      simp only [state, Option.some.injEq] at transmits
      rw [← transmits, length_reportText]
  | replyRR73 =>
      simp only [state, Option.some.injEq] at transmits
      rw [← transmits]
      rfl
  | reply73 =>
      simp only [state, Option.some.injEq] at transmits
      rw [← transmits]
      rfl

/-- All requests fit exactly when the printed frequency, both callsigns and the
third word have at most thirty characters together. -/
theorem requestsFit_iff (options : Options) (handler : QsoHandler) :
    RequestsFit options handler ↔
      (handler.qsoState ≠ .idle → handler.qsoState ≠ .cqIng →
        (formatInt 0 handler.currentQSO.freq.toInt).length +
          handler.currentQSO.src.chars.length + options.rcall.chars.length +
            thirdWordLength options handler ≤ 30) ∧
      (formatInt 0 options.dialfreq.toInt32.toInt).length + options.rcall.chars.length +
        options.rloc.chars.length ≤ 28 := by
  have cqFits : FitsFT8Msg (cqText options) ↔
      (formatInt 0 options.dialfreq.toInt32.toInt).length + options.rcall.chars.length +
        options.rloc.chars.length ≤ 28 := by
    have twoLetters : "CQ".toList.length = 2 := rfl
    rw [cqText, fitsFT8Msg_requestText_iff, twoLetters]
    omega
  rw [← cqFits]
  constructor
  · rintro ⟨reply, cq⟩
    refine ⟨?_, cq⟩
    intro inProgress notCqIng
    obtain ⟨extra, transmits⟩ := (exists_replyExtra_iff options handler).mpr ⟨inProgress, notCqIng⟩
    rw [← length_of_replyExtra transmits]
    exact (fitsFT8Msg_requestText_iff _ _ _ _).mp (reply extra transmits)
  · rintro ⟨short, cq⟩
    refine ⟨?_, cq⟩
    intro extra transmits
    apply (fitsFT8Msg_requestText_iff _ _ _ _).mpr
    rw [length_of_replyExtra transmits]
    obtain ⟨inProgress, notCqIng⟩ := (exists_replyExtra_iff options handler).mp ⟨extra, transmits⟩
    exact short inProgress notCqIng

/-- A portable station on 2 m that gives its locator with six characters. -/
def portableStation : Options where
  rcall := .snprintf 13 "SA0PRF/P".toList
  rloc := .snprintf 7 "JO65CP".toList
  dialfreq := 144174000
  rcall_ne_nil := by decide
  rloc_ne_nil := by decide
  dialfreq_ne_zero := by decide

/-- It answers the CQ of a compound callsign. -/
def compoundCallCq : PlainMessage where
  src := .snprintf 13 "PJ4/K1ABC".toList
  dest := .snprintf 13 "CQ".toList
  message := .empty 40
  freq := 144175000
  snr := 3
  tempus := 1700000000
  ft8slot := .even

/-- The answer overruns its message by two bytes. -/
theorem not_requestsFit_compoundCallCq :
    ¬ RequestsFit portableStation
      (qsoRun portableStation true
        [.command (.autoReply true), .tick, .message compoundCallCq]) := by
  rintro ⟨reply, -⟩
  have answer : replyExtra portableStation
      (qsoRun portableStation true
        [.command (.autoReply true), .tick, .message compoundCallCq]) =
          some "JO65CP".toList := by
    decide
  have fits := (fitsFT8Msg_requestText_iff _ _ _ _).mp (reply _ answer)
  revert fits
  decide

end RtlsdrFt8d
