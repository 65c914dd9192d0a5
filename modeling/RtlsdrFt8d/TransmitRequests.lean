import RtlsdrFt8d.Ft8CommandLine
import RtlsdrFt8d.QsoMachine

/-!
# Transmit requests on both sides of the socket

The receiver writes a request as text; `ft8` reads it as a command line, the
fake transmitter with a parser of its own.  The three agree unless the request
holds something that a command line takes for an option or changes to upper
case.
-/

namespace RtlsdrFt8d

open CNumerals (formatInt)

/-! ## Reading a request -/

def maxMsgSize : Nat := 40

def isWordSeparator (symbol : Char) : Bool :=
  symbol = ' ' || symbol = '\t' || symbol = '\n'

/-- `wordexp` on text without shell syntax. -/
def wordexp (text : List Char) : List (List Char) :=
  TokenSplitting.tokens isWordSeparator text

def fakeFrequency (words : List (List Char)) : Int :=
  match words[1]? with
  | none => 0
  | some word => (bandFrequency word).getD (CNumerals.strtol 64 word).1

/-- `strncat` that leaves room for the terminating NUL. -/
def strncat (size : Nat) (dest text : List Char) : List Char :=
  dest ++ text.take (size - dest.length - 1)

/-- The message that `fakeHandler` puts together from the remaining words. -/
def fakeMessage (words : List (List Char)) : List Char :=
  (words.drop 2).foldl
    (fun message word =>
      strncat maxMsgSize (if message = [] then [] else strncat maxMsgSize message [' ']) word)
    []

/-- Both transmitters accept a request and read the same frequency and message
from it. -/
structure MeansSame (text : List Char) (freq : Int) (message : List Char) : Prop where
  ft8 : ∃ line, parseCommandline (wordexp text).tail = some line ∧
    line.centerFreqSet = [.finite freq] ∧ line.message = message
  fake : fakeFrequency (wordexp text) = freq ∧ fakeMessage (wordexp text) = message

/-! ## The words of a request -/

/-- The letters, digits and strokes of a callsign or a locator. -/
def IsCallWord (word : List Char) : Prop :=
  word ≠ [] ∧ ∀ symbol ∈ word, symbol.isAlphanum = true ∨ symbol = '/'

instance (word : List Char) : Decidable (IsCallWord word) :=
  @instDecidableAnd _ _ _ (List.decidableBAll _ word)

def UpperCase (word : List Char) : Prop :=
  ∀ symbol ∈ word, symbol.isLower = false

instance (word : List Char) : Decidable (UpperCase word) :=
  List.decidableBAll _ word

theorem isWord_of_isCallWord {word : List Char} (callWord : IsCallWord word) :
    TokenSplitting.IsWord isWordSeparator word := by
  refine ⟨callWord.1, fun symbol symbolMem => ?_⟩
  rcases callWord.2 symbol symbolMem with alphanum | rfl
  · by_contra separator
    simp only [isWordSeparator, Bool.not_eq_false, Bool.or_eq_true, decide_eq_true_eq]
      at separator
    rcases separator with (rfl | rfl) | rfl <;> exact absurd alphanum (by decide)
  · rfl

theorem isOption_of_isCallWord {word : List Char} (callWord : IsCallWord word) :
    GetoptPermutation.isOption word = false := by
  obtain ⟨head, tail, rfl⟩ := List.exists_cons_of_ne_nil callWord.1
  have notDash : head ≠ '-' := by
    rintro rfl
    exact absurd (callWord.2 '-' (by simp)) (by decide)
  cases tail <;> simp [GetoptPermutation.isOption, notDash]

/-- A word that `wordexp` and `getopt_long` take as it stands. -/
def IsRequestWord (word : List Char) : Prop :=
  TokenSplitting.IsWord isWordSeparator word ∧ GetoptPermutation.isOption word = false

theorem isRequestWord_of_isCallWord {word : List Char} (callWord : IsCallWord word) :
    IsRequestWord word :=
  ⟨isWord_of_isCallWord callWord, isOption_of_isCallWord callWord⟩

theorem isWord_formatInt (width : Nat) (value : Int) :
    TokenSplitting.IsWord isWordSeparator (formatInt width value) := by
  refine ⟨CNumerals.formatInt_ne_nil width value, fun symbol symbolMem => ?_⟩
  rcases CNumerals.isDigit_or_minus_of_mem_formatInt symbolMem with isDigit | rfl
  · by_contra separator
    simp only [isWordSeparator, Bool.not_eq_false, Bool.or_eq_true, decide_eq_true_eq]
      at separator
    rcases separator with (rfl | rfl) | rfl <;> exact absurd isDigit (by decide)
  · rfl

private theorem request_eq_append (number dest src extra : List Char) :
    "FT8Tx ".toList ++ number ++ ' ' :: dest ++ ' ' :: src ++ ' ' :: extra =
      "FT8Tx".toList ++ ' ' :: (number ++ ' ' :: (dest ++ ' ' :: (src ++ ' ' :: extra))) := by
  have lead : "FT8Tx ".toList = "FT8Tx".toList ++ [' '] := by decide
  rw [lead]
  simp only [List.append_assoc, List.cons_append, List.nil_append]

/-- A request splits into its name, the frequency and the words of its parts. -/
theorem wordexp_requestText_append (freq : Int32) (dest src extra : List Char) :
    wordexp (requestText freq dest src extra) =
      "FT8Tx".toList :: formatInt 0 freq.toInt ::
        (wordexp dest ++ (wordexp src ++ wordexp extra)) := by
  have blank : isWordSeparator ' ' = true := rfl
  have nameWord : TokenSplitting.IsWord isWordSeparator "FT8Tx".toList := by decide
  have shape : requestText freq dest src extra = _ :=
    request_eq_append (formatInt 0 freq.toInt) dest src extra
  rw [wordexp, shape, TokenSplitting.tokens_word_append_cons nameWord blank,
    TokenSplitting.tokens_word_append_cons (isWord_formatInt 0 freq.toInt) blank,
    TokenSplitting.tokens_append_cons blank, TokenSplitting.tokens_append_cons blank]
  rfl

/-- Where the parts are words, it splits into these. -/
theorem wordexp_requestText (freq : Int32) {dest src extra : List Char}
    (destWord : TokenSplitting.IsWord isWordSeparator dest)
    (srcWord : TokenSplitting.IsWord isWordSeparator src)
    (extraWord : TokenSplitting.IsWord isWordSeparator extra) :
    wordexp (requestText freq dest src extra) =
      ["FT8Tx".toList, formatInt 0 freq.toInt, dest, src, extra] := by
  rw [wordexp_requestText_append, wordexp, wordexp, wordexp,
    TokenSplitting.tokens_of_isWord destWord, TokenSplitting.tokens_of_isWord srcWord,
    TokenSplitting.tokens_of_isWord extraWord]
  rfl

theorem isLower_iff (symbol : Char) :
    symbol.isLower = true ↔ 'a'.val ≤ symbol.val ∧ symbol.val ≤ 'z'.val := by
  change (decide ('a'.val ≤ symbol.val) && decide (symbol.val ≤ 'z'.val)) = true ↔ _
  rw [Bool.and_eq_true, decide_eq_true_iff, decide_eq_true_iff]

theorem toUpper_eq_self_iff (symbol : Char) :
    symbol.toUpper = symbol ↔ symbol.isLower = false := by
  by_cases lower : 'a'.val ≤ symbol.val ∧ symbol.val ≤ 'z'.val
  · have changes : symbol.toUpper ≠ symbol := by
      intro same
      have upper : symbol.toUpper = _ := dif_pos lower
      have sameVal := congrArg Char.val (upper.symm.trans same)
      simp at sameVal
    simp [(isLower_iff symbol).mpr lower, changes]
  · have notLower : symbol.isLower = false := by
      rwa [← Bool.not_eq_true, isLower_iff]
    have same : symbol.toUpper = symbol := dif_neg lower
    simp [notLower, same]

theorem map_toUpper_eq_self_iff (word : List Char) :
    word.map Char.toUpper = word ↔ UpperCase word := by
  have fixed : word.map Char.toUpper = word.map id ↔
      ∀ symbol ∈ word, symbol.toUpper = id symbol :=
    List.map_inj_left
  rw [List.map_id] at fixed
  rw [fixed]
  exact forall₂_congr fun symbol _ => toUpper_eq_self_iff symbol

/-! ## Agreement -/

theorem lookup_short_of_isDigit {letter : Char} (isDigit : letter.isDigit = true) :
    ft8Options.short.lookup letter = none := by
  have letters : ∀ entry ∈ ft8Options.short, entry.1.isDigit = false := by decide
  rw [List.lookup_eq_none_iff]
  intro entry entryMem
  have notDigit := letters entry entryMem
  rw [bne_iff_ne]
  rintro rfl
  simp [isDigit] at notDigit

/-- A word that starts like a negative number aborts `ft8`. -/
theorem parseCommandline_of_negative (plain : List (List Char))
    (notOptions : ∀ word ∈ plain, GetoptPermutation.isOption word = false) (width : Nat)
    {value : Int} (negative : value < 0) (rest : List (List Char)) :
    parseCommandline (plain ++ formatInt width value :: rest) = none := by
  obtain ⟨digit, digits, shape, isDigit⟩ := CNumerals.formatInt_of_neg width negative
  have notDash : digit ≠ '-' := by
    rintro rfl
    exact absurd isDigit (by decide)
  rw [shape]
  exact parseCommandline_of_unknown notOptions notDash (lookup_short_of_isDigit isDigit)
    digits rest

theorem nonneg_iff_toInt_nonneg (value : Int32) : 0 ≤ value ↔ 0 ≤ value.toInt := by
  rw [Int32.le_iff_toInt_le]
  rfl

theorem not_meansSame_of_aborts {text : List Char} {value : Int} {message : List Char}
    (aborts : parseCommandline (wordexp text).tail = none) :
    ¬ MeansSame text value message := by
  rintro ⟨⟨line, accepted, -⟩, -⟩
  rw [aborts] at accepted
  contradiction

theorem fakeMessage_of_fits {name frequency dest src extra : List Char}
    (destNonempty : dest ≠ [])
    (fits : dest.length + src.length + extra.length + 2 < maxMsgSize) :
    fakeMessage [name, frequency, dest, src, extra] = dest ++ ' ' :: src ++ ' ' :: extra := by
  have strncat_of_fits (front back : List Char) (room : front.length + back.length < 40) :
      strncat maxMsgSize front back = front ++ back := by
    rw [strncat, List.take_of_length_le]
    simp only [maxMsgSize]
    omega
  simp only [maxMsgSize] at fits
  simp only [fakeMessage, List.drop_succ_cons, List.drop_zero, List.foldl_cons,
    List.foldl_nil, if_true]
  rw [strncat_of_fits [] dest (by simp; omega), List.nil_append, if_neg destNonempty,
    strncat_of_fits dest [' '] (by simp; omega),
    strncat_of_fits (dest ++ [' ']) src (by simp; omega), if_neg (by simp),
    strncat_of_fits (dest ++ [' '] ++ src) [' '] (by simp; omega),
    strncat_of_fits (dest ++ [' '] ++ src ++ [' ']) extra (by simp; omega)]
  simp

theorem isOption_formatInt_of_nonneg {value : Int} (nonneg : 0 ≤ value) :
    GetoptPermutation.isOption (formatInt 0 value) = false := by
  refine isOption_of_isCallWord ⟨CNumerals.formatInt_ne_nil 0 value, fun symbol symbolMem => ?_⟩
  simp [Char.isAlphanum, CNumerals.isDigit_of_mem_formatInt_of_nonneg nonneg symbolMem]

/-- `ft8` takes the frequency and the words of a request without options, the
words in upper case. -/
theorem parseCommandline_requestText {freq : Int32} {dest src extra : List Char}
    (nonneg : 0 ≤ freq) (destWord : IsRequestWord dest) (srcWord : IsRequestWord src)
    (extraWord : IsRequestWord extra) :
    parseCommandline (wordexp (requestText freq dest src extra)).tail =
      some { defaultCommandLine with
        message := (dest ++ ' ' :: src ++ ' ' :: extra).map Char.toUpper
        centerFreqSet := [.finite (freq.toInt : Rat)] } := by
  have nonnegInt := (nonneg_iff_toInt_nonneg freq).mp nonneg
  have digits := CNumerals.formatInt_zero_of_nonneg nonnegInt
  have numberNotOption := isOption_formatInt_of_nonneg nonnegInt
  rw [digits] at numberNotOption
  have sameRat : (freq.toInt.natAbs : Rat) = (freq.toInt : Rat) := by
    rw [← Rat.intCast_natCast, Int.natAbs_of_nonneg nonnegInt]
  rw [wordexp_requestText freq destWord.1 srcWord.1 extraWord.1, digits, List.tail_cons,
    parseCommandline_of_plain _ _ _ _ destWord.1.1 (by
      simp [numberNotOption, destWord.2, srcWord.2, extraWord.2]), sameRat]

/-- A request without options keeps its meaning exactly when its message is in
upper case. -/
theorem meansSame_iff_upperCase {freq : Int32} {dest src extra : List Char}
    (nonneg : 0 ≤ freq) (destWord : IsRequestWord dest) (srcWord : IsRequestWord src)
    (extraWord : IsRequestWord extra)
    (fits : dest.length + src.length + extra.length + 2 < maxMsgSize) :
    MeansSame (requestText freq dest src extra) freq.toInt
        (dest ++ ' ' :: src ++ ' ' :: extra) ↔
      UpperCase (dest ++ ' ' :: src ++ ' ' :: extra) := by
  have nonnegInt := (nonneg_iff_toInt_nonneg freq).mp nonneg
  have words := wordexp_requestText freq destWord.1 srcWord.1 extraWord.1
  have parsed := parseCommandline_requestText nonneg destWord srcWord extraWord
  rw [← map_toUpper_eq_self_iff]
  constructor
  · rintro ⟨⟨line, accepted, -, message⟩, -⟩
    rw [parsed] at accepted
    obtain rfl := Option.some.inj accepted
    exact message
  · intro upper
    refine ⟨⟨_, parsed, rfl, upper⟩, ?_, ?_⟩
    · have small : freq.toInt.natAbs < 2 ^ (64 - 1) := by
        have bound := freq.toInt_lt
        omega
      have sameNumber : (freq.toInt.natAbs : Int) = freq.toInt := Int.natAbs_of_nonneg nonnegInt
      rw [words, CNumerals.formatInt_zero_of_nonneg nonnegInt]
      simp only [fakeFrequency, List.getElem?_cons_succ, List.getElem?_cons_zero,
        bandFrequency_toDigits, CNumerals.strtol_toDigits small, Option.getD_none, sameNumber]
    · rw [words]
      exact fakeMessage_of_fits destWord.1.1 fits

theorem upperCase_append (front back : List Char) :
    UpperCase (front ++ back) ↔ UpperCase front ∧ UpperCase back := by
  simp [UpperCase, or_imp, forall_and]

theorem upperCase_request (dest src extra : List Char) :
    UpperCase (dest ++ ' ' :: src ++ ' ' :: extra) ↔
      UpperCase dest ∧ UpperCase src ∧ UpperCase extra := by
  have blank (word : List Char) : UpperCase (' ' :: word) ↔ UpperCase word := by
    simp [UpperCase]
  rw [upperCase_append, upperCase_append, blank, blank, and_assoc]

/-! ## Reports as words of a request -/

theorem isWord_reportText (snr : Int32) :
    TokenSplitting.IsWord isWordSeparator (reportText snr) := by
  unfold reportText
  split
  · refine ⟨by simp, fun symbol symbolMem => ?_⟩
    rcases List.mem_cons.mp symbolMem with rfl | inNumber
    · rfl
    · exact (isWord_formatInt 2 snr.toInt).2 symbol inNumber
  · exact isWord_formatInt 3 snr.toInt

theorem reportText_of_nonneg {snr : Int32} (nonneg : 0 ≤ snr) :
    reportText snr = '+' :: formatInt 2 snr.toInt := by
  rw [reportText, if_pos nonneg]

theorem upperCase_reportText {snr : Int32} (nonneg : 0 ≤ snr) :
    UpperCase (reportText snr) := by
  rw [reportText_of_nonneg nonneg]
  intro symbol symbolMem
  rcases List.mem_cons.mp symbolMem with rfl | inNumber
  · rfl
  · have isDigit := CNumerals.isDigit_of_mem_formatInt_of_nonneg
      ((nonneg_iff_toInt_nonneg snr).mp nonneg) inNumber
    by_contra lower
    have bounds := CNumerals.digit_bounds isDigit
    rw [Bool.not_eq_false, isLower_iff] at lower
    have atLeast : 97 ≤ symbol.toNat := lower.1
    omega

theorem length_reportText_le {snr : Int32} (nonneg : 0 ≤ snr) :
    (reportText snr).length ≤ 11 := by
  have nonnegInt := (nonneg_iff_toInt_nonneg snr).mp nonneg
  have bound := snr.toInt_lt
  have digits := CNumerals.length_formatInt_le 2 10 nonnegInt (by omega) (by omega)
    (by omega)
  rw [reportText_of_nonneg nonneg, List.length_cons]
  omega

theorem isOption_reportText {snr : Int32} (nonneg : 0 ≤ snr) :
    GetoptPermutation.isOption (reportText snr) = false := by
  rw [reportText_of_nonneg nonneg]
  rfl

/-! ## The requests of the receiver -/

theorem isRequestWord_reportText {snr : Int32} (nonneg : 0 ≤ snr) :
    IsRequestWord (reportText snr) :=
  ⟨isWord_reportText snr, isOption_reportText nonneg⟩

/-- A negative frequency reads like an option. -/
theorem parseCommandline_of_negativeFreq {freq : Int32} {dest src extra : List Char}
    (negative : freq.toInt < 0) (destWord : TokenSplitting.IsWord isWordSeparator dest)
    (srcWord : TokenSplitting.IsWord isWordSeparator src)
    (extraWord : TokenSplitting.IsWord isWordSeparator extra) :
    parseCommandline (wordexp (requestText freq dest src extra)).tail = none := by
  rw [wordexp_requestText freq destWord srcWord extraWord, List.tail_cons]
  exact parseCommandline_of_negative [] (by simp) 0 negative [dest, src, extra]

/-- So does a negative report. -/
theorem parseCommandline_of_negativeReport {freq snr : Int32} {dest src : List Char}
    (negative : snr.toInt < 0) (destWord : IsRequestWord dest) (srcWord : IsRequestWord src) :
    parseCommandline (wordexp (requestText freq dest src (reportText snr))).tail = none := by
  by_cases negativeFreq : freq.toInt < 0
  · exact parseCommandline_of_negativeFreq negativeFreq destWord.1 srcWord.1
      (isWord_reportText snr)
  · have negativeReport : ¬ 0 ≤ snr := by
      rw [nonneg_iff_toInt_nonneg]
      omega
    have notOptions : ∀ word ∈ [formatInt 0 freq.toInt, dest, src],
        GetoptPermutation.isOption word = false := by
      simp [isOption_formatInt_of_nonneg (by omega : 0 ≤ freq.toInt), destWord.2, srcWord.2]
    rw [wordexp_requestText freq destWord.1 srcWord.1 (isWord_reportText snr), List.tail_cons,
      reportText, if_neg negativeReport]
    exact parseCommandline_of_negative _ notOptions 3 negative []

theorem toInt_neg_of_not_nonneg {value : Int32} (negative : ¬ 0 ≤ value) : value.toInt < 0 := by
  rw [nonneg_iff_toInt_nonneg] at negative
  omega

theorem meansSame_iff_of_callWords {freq : Int32} {dest src extra : List Char}
    (destWord : IsCallWord dest) (srcWord : IsCallWord src) (extraWord : IsCallWord extra)
    (fits : dest.length + src.length + extra.length + 2 < maxMsgSize) :
    MeansSame (requestText freq dest src extra) freq.toInt
        (dest ++ ' ' :: src ++ ' ' :: extra) ↔
      0 ≤ freq ∧ UpperCase dest ∧ UpperCase src ∧ UpperCase extra := by
  by_cases nonneg : 0 ≤ freq
  · rw [meansSame_iff_upperCase nonneg (isRequestWord_of_isCallWord destWord)
      (isRequestWord_of_isCallWord srcWord) (isRequestWord_of_isCallWord extraWord) fits,
      upperCase_request]
    simp [nonneg]
  · have aborts := parseCommandline_of_negativeFreq (toInt_neg_of_not_nonneg nonneg)
      (isWord_of_isCallWord destWord) (isWord_of_isCallWord srcWord)
      (isWord_of_isCallWord extraWord)
    simp [nonneg, not_meansSame_of_aborts aborts]

theorem meansSame_iff_of_report {freq snr : Int32} {dest src : List Char}
    (destWord : IsCallWord dest) (srcWord : IsCallWord src)
    (fits : dest.length + src.length ≤ 24) :
    MeansSame (requestText freq dest src (reportText snr)) freq.toInt
        (dest ++ ' ' :: src ++ ' ' :: reportText snr) ↔
      0 ≤ freq ∧ 0 ≤ snr ∧ UpperCase dest ∧ UpperCase src := by
  have destRequest := isRequestWord_of_isCallWord destWord
  have srcRequest := isRequestWord_of_isCallWord srcWord
  by_cases plus : 0 ≤ snr
  · by_cases nonneg : 0 ≤ freq
    · have short := length_reportText_le plus
      rw [meansSame_iff_upperCase nonneg destRequest srcRequest (isRequestWord_reportText plus)
        (by simp only [maxMsgSize]; omega), upperCase_request]
      simp [nonneg, plus, upperCase_reportText plus]
    · have aborts := parseCommandline_of_negativeFreq (toInt_neg_of_not_nonneg nonneg)
        destRequest.1 srcRequest.1 (isWord_reportText snr)
      simp [nonneg, not_meansSame_of_aborts aborts]
  · have aborts := @parseCommandline_of_negativeReport freq snr dest src
      (toInt_neg_of_not_nonneg plus) destRequest srcRequest
    simp [plus, not_meansSame_of_aborts aborts]

/-- The requests of `handleTx` and of `queryCQ` keep their meaning exactly when
the frequency is not negative, no negative report is sent, and the words are in
upper case. -/
theorem requestsMeanSame_iff (options : Options) (handler : QsoHandler)
    (peerWord : IsCallWord handler.currentQSO.src.chars)
    (ownWord : IsCallWord options.rcall.chars) (locWord : IsCallWord options.rloc.chars) :
    (∀ extra, replyExtra options handler = some extra →
      (MeansSame (replyText options handler extra) handler.currentQSO.freq.toInt
          (handler.currentQSO.src.chars ++ ' ' :: options.rcall.chars ++ ' ' :: extra) ↔
        0 ≤ handler.currentQSO.freq ∧
          ¬ (handler.qsoState = .replySig ∧ handler.currentQSO.snr < 0) ∧
          UpperCase handler.currentQSO.src.chars ∧ UpperCase options.rcall.chars ∧
          (handler.qsoState = .replyLoc → UpperCase options.rloc.chars))) ∧
    (MeansSame (cqText options) options.dialfreq.toInt32.toInt
        ("CQ".toList ++ ' ' :: options.rcall.chars ++ ' ' :: options.rloc.chars) ↔
      0 ≤ options.dialfreq.toInt32 ∧ UpperCase options.rcall.chars ∧
        UpperCase options.rloc.chars) := by
  have peerShort := handler.currentQSO.src.length_le
  have ownShort := options.rcall.length_le
  have locShort := options.rloc.length_le
  constructor
  · intro extra transmits
    cases state : handler.qsoState with
    | idle => simp [replyExtra, state] at transmits
    | cqIng => simp [replyExtra, state] at transmits
    | replyLoc =>
        obtain rfl : options.rloc.chars = extra := by simpa [replyExtra, state] using transmits
        rw [replyText, meansSame_iff_of_callWords peerWord ownWord locWord
          (by simp only [maxMsgSize]; omega)]
        simp
    | replySig =>
        obtain rfl : reportText handler.currentQSO.snr = extra := by
          simpa [replyExtra, state] using transmits
        rw [replyText, meansSame_iff_of_report peerWord ownWord (by omega)]
        simp
    | replyRR73 =>
        obtain rfl : "RR73".toList = extra := by simpa [replyExtra, state] using transmits
        have upper : UpperCase ['R', 'R', '7', '3'] := by decide
        rw [replyText, meansSame_iff_of_callWords peerWord ownWord (by decide)
          (by simp [maxMsgSize]; omega)]
        simp [upper]
    | reply73 =>
        obtain rfl : "73".toList = extra := by simpa [replyExtra, state] using transmits
        have upper : UpperCase ['7', '3'] := by decide
        rw [replyText, meansSame_iff_of_callWords peerWord ownWord (by decide)
          (by simp [maxMsgSize]; omega)]
        simp [upper]
  · have upper : UpperCase ['C', 'Q'] := by decide
    rw [cqText, meansSame_iff_of_callWords (by decide) ownWord locWord
      (by simp [maxMsgSize]; omega)]
    simp [upper]

/-- The CQ of the sample station reaches both transmitters unchanged. -/
theorem meansSame_cqText_sampleStation :
    MeansSame (cqText sampleStation) 14074000 "CQ SA0PRF JO99".toList :=
  (requestsMeanSame_iff sampleStation
    { initQsoState true with currentQSO := sampleCall "JO65".toList }
    (by decide) (by decide) (by decide)).2.mpr ⟨by decide, by decide, by decide⟩

/-- A station received at -7 dB gets its report in a request that `ft8` takes
for an option. -/
theorem not_meansSame_negativeReport :
    replyExtra sampleStation (qsoRun sampleStation true
      [.command (.autoQSO true), .tick, .message (sampleCall "JO65".toList)]) =
        some "-07".toList ∧
    ¬ MeansSame
      (replyText sampleStation (qsoRun sampleStation true
        [.command (.autoQSO true), .tick, .message (sampleCall "JO65".toList)]) "-07".toList)
      14075000 "F1ABC SA0PRF -07".toList := by
  refine ⟨by decide, ?_⟩
  have aborted : ¬ MeansSame
      (requestText 14075000 "F1ABC".toList "SA0PRF".toList (reportText (-7))) 14075000
      "F1ABC SA0PRF -07".toList :=
    not_meansSame_of_aborts (parseCommandline_of_negativeReport (by decide)
      (isRequestWord_of_isCallWord (by decide)) (isRequestWord_of_isCallWord (by decide)))
  exact aborted

end RtlsdrFt8d
