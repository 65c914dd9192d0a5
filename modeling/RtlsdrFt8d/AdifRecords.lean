import RtlsdrFt8d.Adif
import RtlsdrFt8d.StationTypes

/-!
# The ADIF record of a QSO

The text that `logToAdi` appends to the ADIF file.  The lengths of the callsign
of the peer and of the frequency are computed, those of the date, the own
locator and the own callsign are literals of the format strings.
-/

namespace RtlsdrFt8d

open CNumerals (formatInt)

/-! ## The text -/

/-- The fields of `struct tm` that `localtime_r` fills, in their ranges. -/
structure Tm where
  tmSec : Nat
  tmMin : Nat
  tmHour : Nat
  tmMday : Nat
  tmMon : Nat
  tmYear : Int
  tmSec_le : tmSec ≤ 60
  tmMin_le : tmMin ≤ 59
  tmHour_le : tmHour ≤ 23
  tmMday_le : tmMday ≤ 31
  tmMon_le : tmMon ≤ 11

def callText (completedQSO : PlainMessage) : List Char :=
  "<CALL:".toList ++ formatInt 0 completedQSO.src.chars.length ++ '>' :: completedQSO.src.chars

def clockText (timeinfo : Tm) : List Char :=
  formatInt 2 timeinfo.tmHour ++ (formatInt 2 timeinfo.tmMin ++ formatInt 2 timeinfo.tmSec)

def dateText (timeinfo : Tm) : List Char :=
  formatInt 0 (timeinfo.tmYear + 1900) ++
    (formatInt 2 (timeinfo.tmMon + 1 : Nat) ++ formatInt 2 timeinfo.tmMday)

/-- The text in `buff`: the frequency in megahertz. -/
def freqText (freq : Int32) : List Char :=
  formatInt 0 (freq.toInt.tdiv 1000000) ++ '.' :: formatInt 6 (freq.toInt.tmod 1000000)

def endOfRecord : List Char :=
  "\n<EOR>\n\n".toList

/-- The own locator and callsign, and the end of the record. -/
def stationText (options : Options) : List Char :=
  "<MY_GRIDSQUARE:6>".toList ++ (options.rloc.chars ++
    ("<OPERATOR:6>".toList ++ (options.rcall.chars ++ endOfRecord)))

/-- The text of one `logToAdi`. -/
def adifText (options : Options) (localtimeR : Int → Tm) (completedQSO : PlainMessage) :
    List Char :=
  let timeinfo := localtimeR completedQSO.tempus
  let buff := freqText completedQSO.freq
  callText completedQSO ++
    ("<TIME_ON:6>".toList ++ clockText timeinfo ++
      ("<QSO_DATE_OFF:8>".toList ++ (dateText timeinfo ++
        ("<FREQ_RX:".toList ++ formatInt 0 buff.length ++ '>' :: buff ++
          ("<BAND:3>20M<BAND_RX:3>20M<MODE:3>FT8".toList ++ stationText options)))))

/-! ## Faithful records -/

/-- The text is a record from which the peer, the frequency, and the own locator
and callsign are read back. -/
def FaithfulRecord (options : Options) (completedQSO : PlainMessage) (text : List Char) : Prop :=
  ∃ fields, Adif.readRecord text = some fields ∧
    Adif.fieldValue fields "CALL".toList = some completedQSO.src.chars ∧
    (∃ value, Adif.fieldValue fields "FREQ_RX".toList = some value ∧
      CNumerals.strtod value =
        (.finite ((completedQSO.freq.toInt : Rat) / (10 ^ 6 : Nat)), [])) ∧
    Adif.fieldValue fields "MY_GRIDSQUARE".toList = some options.rloc.chars ∧
    Adif.fieldValue fields "OPERATOR".toList = some options.rcall.chars

theorem length_clockText (timeinfo : Tm) : (clockText timeinfo).length = 6 := by
  have hour := timeinfo.tmHour_le
  have min := timeinfo.tmMin_le
  have sec := timeinfo.tmSec_le
  rw [clockText, List.length_append, List.length_append,
    CNumerals.length_formatInt_of_lt (by omega) (by omega),
    CNumerals.length_formatInt_of_lt (by omega) (by omega),
    CNumerals.length_formatInt_of_lt (by omega) (by omega)]

theorem length_dateText (timeinfo : Tm) :
    (dateText timeinfo).length = (formatInt 0 (timeinfo.tmYear + 1900)).length + 4 := by
  have mon := timeinfo.tmMon_le
  have mday := timeinfo.tmMday_le
  rw [dateText, List.length_append, List.length_append,
    CNumerals.length_formatInt_of_lt (by omega) (by omega),
    CNumerals.length_formatInt_of_lt (by omega) (by omega)]

theorem strtod_freqText {freq : Int32} (positive : 0 < freq.toInt) :
    CNumerals.strtod (freqText freq) = (.finite ((freq.toInt : Rat) / (10 ^ 6 : Nat)), []) := by
  obtain ⟨hertz, natural⟩ := Int.eq_ofNat_of_zero_le (le_of_lt positive)
  rw [freqText, natural]
  have whole : ((hertz : Int).tdiv 1000000) = ((hertz / 1000000 : Nat) : Int) := rfl
  have fraction : ((hertz : Int).tmod 1000000) = ((hertz % 1000000 : Nat) : Int) := rfl
  have split : hertz / 1000000 * 10 ^ 6 + hertz % 1000000 = hertz := by omega
  rw [whole, fraction, CNumerals.strtod_fraction (by omega) (by omega), split]
  rfl

/-! ## Reading the record -/

section Reading

variable {options : Options} {localtimeR : Int → Tm} {completedQSO : PlainMessage}
  {fields : Adif.Fields}

/-- The fields before those of the station. -/
def receivedFields (localtimeR : Int → Tm) (completedQSO : PlainMessage) : Adif.Fields :=
  [("CALL".toList, completedQSO.src.chars),
    ("TIME_ON".toList, clockText (localtimeR completedQSO.tempus)),
    ("QSO_DATE_OFF".toList, dateText (localtimeR completedQSO.tempus)),
    ("FREQ_RX".toList, freqText completedQSO.freq),
    ("BAND".toList, "20M".toList), ("BAND_RX".toList, "20M".toList),
    ("MODE".toList, "FT8".toList)]

theorem computedField_eq {lead name : List Char} (shape : lead = '<' :: name ++ [':'])
    (value : List Char) :
    lead ++ formatInt 0 value.length ++ '>' :: value = Adif.fieldText (name, value) := by
  rw [shape, CNumerals.formatInt_zero_of_nonneg (Int.natCast_nonneg _), Int.natAbs_natCast,
    Adif.fieldText, Adif.tagText]
  simp only [List.append_assoc, List.cons_append, List.nil_append]

theorem read_callText (rest : List Char) :
    Adif.read (.gap fields) (callText completedQSO ++ rest) =
      Adif.read (.gap (fields ++ [("CALL".toList, completedQSO.src.chars)])) rest := by
  have lead : "<CALL:".toList = '<' :: "CALL".toList ++ [':'] := by decide
  unfold callText
  rw [computedField_eq lead, Adif.read_fieldText (by decide)]

/-- The value of a tag takes what its number says from the text after it. -/
theorem read_literalTag {tag name : List Char} {length : Nat}
    (shape : tag = Adif.tagText name length)
    (nameText : Adif.IsTagName name) {text : List Char}
    (enough : length ≤ text.length) :
    Adif.read (.gap fields) (tag ++ text) =
      Adif.read (.gap (fields ++ [(name, text.take length)])) (text.drop length) := by
  rw [shape, Adif.read_append, Adif.read_tagText nameText, Adif.read_openValue enough]

theorem read_literalField {tag name value : List Char}
    (shape : tag = Adif.tagText name value.length)
    (nameText : Adif.IsTagName name) (rest : List Char) :
    Adif.read (.gap fields) (tag ++ (value ++ rest)) =
      Adif.read (.gap (fields ++ [(name, value)])) rest := by
  rw [read_literalTag shape nameText (by simp), List.take_left, List.drop_left]

theorem read_freqField (freq : Int32) (rest : List Char) :
    Adif.read (.gap fields)
        ("<FREQ_RX:".toList ++ formatInt 0 (freqText freq).length ++ '>' :: freqText freq ++
          ("<BAND:3>20M<BAND_RX:3>20M<MODE:3>FT8".toList ++ rest)) =
      Adif.read (.gap (fields ++ [("FREQ_RX".toList, freqText freq),
        ("BAND".toList, "20M".toList), ("BAND_RX".toList, "20M".toList),
        ("MODE".toList, "FT8".toList)])) rest := by
  have lead : "<FREQ_RX:".toList = '<' :: "FREQ_RX".toList ++ [':'] := by decide
  have bandShape : "<BAND:3>20M<BAND_RX:3>20M<MODE:3>FT8".toList =
      Adif.fieldText ("BAND".toList, "20M".toList) ++
        (Adif.fieldText ("BAND_RX".toList, "20M".toList) ++
          Adif.fieldText ("MODE".toList, "FT8".toList)) := by
    decide
  rw [computedField_eq lead, bandShape, Adif.read_fieldText (by decide)]
  simp only [List.append_assoc]
  rw [Adif.read_fieldText (by decide), Adif.read_fieldText (by decide),
    Adif.read_fieldText (by decide)]
  simp only [List.append_assoc, List.cons_append, List.nil_append]

/-- With a year of four characters everything before the station is read. -/
theorem read_adifText (options : Options) (localtimeR : Int → Tm) (completedQSO : PlainMessage)
    (fourColumns :
      (formatInt 0 ((localtimeR completedQSO.tempus).tmYear + 1900)).length = 4) :
    Adif.read (.gap []) (adifText options localtimeR completedQSO) =
      Adif.read (.gap (receivedFields localtimeR completedQSO)) (stationText options) := by
  have clockTag : "<TIME_ON:6>".toList = Adif.tagText "TIME_ON".toList
      (clockText (localtimeR completedQSO.tempus)).length := by
    rw [length_clockText]
    decide
  have dateTag : "<QSO_DATE_OFF:8>".toList = Adif.tagText "QSO_DATE_OFF".toList
      (dateText (localtimeR completedQSO.tempus)).length := by
    rw [length_dateText, fourColumns]
    decide
  rw [adifText, read_callText, List.append_assoc, read_literalField clockTag (by decide),
    read_literalField dateTag (by decide), read_freqField]
  rfl

/-- The characters of a date are neither white space nor brackets. -/
theorem breaksGap_of_mem_dateText {timeinfo : Tm} {symbol : Char}
    (symbolMem : symbol ∈ dateText timeinfo) : Adif.breaksGap symbol = true := by
  have printed : symbol.isDigit = true ∨ symbol = '-' := by
    simp only [dateText, List.mem_append] at symbolMem
    rcases symbolMem with inYear | inMon | inMday
    · exact CNumerals.isDigit_or_minus_of_mem_formatInt inYear
    · exact CNumerals.isDigit_or_minus_of_mem_formatInt inMon
    · exact CNumerals.isDigit_or_minus_of_mem_formatInt inMday
  rcases printed with isDigit | rfl
  · have notTag : symbol ≠ '<' := by
      rintro rfl
      exact absurd isDigit (by decide)
    simp [Adif.breaksGap, notTag, CNumerals.isSpace_eq_false_of_isDigit isDigit]
  · rfl

/-- A longer year leaves a part of the date before the next tag, a shorter one
takes the beginning of the next tag. -/
theorem read_dateText_of_ne (timeinfo : Tm)
    (notFour : (formatInt 0 (timeinfo.tmYear + 1900)).length ≠ 4) (rest : List Char) :
    Adif.read (.gap fields)
      ("<QSO_DATE_OFF:8>".toList ++ (dateText timeinfo ++ ("<FREQ_RX:".toList ++ rest))) =
        .malformed := by
  have tag : "<QSO_DATE_OFF:8>".toList = Adif.tagText "QSO_DATE_OFF".toList 8 := by decide
  have lengths := length_dateText timeinfo
  have nonempty := List.length_pos_iff.mpr
    (CNumerals.formatInt_ne_nil 0 (timeinfo.tmYear + 1900))
  have next : "<FREQ_RX:".toList.length = 9 := by decide
  rw [read_literalTag tag (by decide) (by simp only [List.length_append, next]; omega)]
  rcases Nat.lt_or_gt_of_ne notFour with short | long
  · -- of the next tag at least one and at most three characters are taken
    rw [List.drop_append, List.drop_of_length_le (by omega), List.nil_append]
    exact Adif.read_cutTag (by decide) (by omega) (by omega) rest
  · rw [List.drop_append_of_le_length (by omega)]
    apply Adif.read_gap_of_breaksGap
    · apply List.ne_nil_of_length_pos
      rw [List.length_drop]
      omega
    · rw [List.all_eq_true]
      intro symbol symbolMem
      exact breaksGap_of_mem_dateText (List.mem_of_mem_drop symbolMem)

theorem read_adifText_of_ne (options : Options) (localtimeR : Int → Tm)
    (completedQSO : PlainMessage)
    (notFour : (formatInt 0 ((localtimeR completedQSO.tempus).tmYear + 1900)).length ≠ 4) :
    Adif.read (.gap []) (adifText options localtimeR completedQSO) = .malformed := by
  have clockTag : "<TIME_ON:6>".toList = Adif.tagText "TIME_ON".toList
      (clockText (localtimeR completedQSO.tempus)).length := by
    rw [length_clockText]
    decide
  rw [adifText, read_callText, List.append_assoc, read_literalField clockTag (by decide)]
  simp only [List.append_assoc]
  exact read_dateText_of_ne _ notFour _

/-- A shorter locator takes the beginning of the operator's tag. -/
theorem read_stationText_of_ne (notSix : options.rloc.chars.length ≠ 6) :
    Adif.read (.gap fields) (stationText options) = .malformed := by
  have tag : "<MY_GRIDSQUARE:6>".toList = Adif.tagText "MY_GRIDSQUARE".toList 6 := by decide
  have atMost := options.rloc.length_le
  have atLeast := List.length_pos_iff.mpr options.rloc_ne_nil
  have next : "<OPERATOR:6>".toList.length = 12 := by decide
  unfold stationText
  rw [read_literalTag tag (by decide) (by simp only [List.length_append, next]; omega),
    List.drop_append, List.drop_of_length_le (by omega), List.nil_append]
  exact Adif.read_cutTag (by decide) (by omega) (by omega) _

/-- The operator's tag takes six characters of the callsign and of what follows
it. -/
theorem read_stationText (six : options.rloc.chars.length = 6) :
    Adif.read (.gap fields) (stationText options) =
      Adif.read (.gap (fields ++ [("MY_GRIDSQUARE".toList, options.rloc.chars),
          ("OPERATOR".toList, (options.rcall.chars ++ endOfRecord).take 6)]))
        ((options.rcall.chars ++ endOfRecord).drop 6) := by
  have gridTag : "<MY_GRIDSQUARE:6>".toList =
      Adif.tagText "MY_GRIDSQUARE".toList options.rloc.chars.length := by
    rw [six]
    decide
  have operatorTag : "<OPERATOR:6>".toList = Adif.tagText "OPERATOR".toList 6 := by decide
  have ending : endOfRecord.length = 8 := by decide
  unfold stationText
  rw [read_literalField gridTag (by decide),
    read_literalTag operatorTag (by decide) (by rw [List.length_append]; omega),
    List.append_assoc, List.cons_append, List.nil_append]

end Reading

/-! ## Which records are faithful -/

def stationFields (locator operator : List Char) : Adif.Fields :=
  [("MY_GRIDSQUARE".toList, locator), ("OPERATOR".toList, operator)]

/-- The record is faithful exactly when the printed year has four characters and
both the own locator and the own callsign have six. -/
theorem faithfulRecord_iff (options : Options) (localtimeR : Int → Tm)
    (completedQSO : PlainMessage) (positive : 0 < completedQSO.freq.toInt) :
    FaithfulRecord options completedQSO (adifText options localtimeR completedQSO) ↔
      (formatInt 0 ((localtimeR completedQSO.tempus).tmYear + 1900)).length = 4 ∧
        options.rloc.chars.length = 6 ∧ options.rcall.chars.length = 6 := by
  constructor
  · rintro ⟨final, isRecord, -, -, -, operator⟩
    rw [Adif.readRecord_eq_some_iff] at isRecord
    by_cases fourColumns :
        (formatInt 0 ((localtimeR completedQSO.tempus).tmYear + 1900)).length = 4
    · rw [read_adifText options localtimeR completedQSO fourColumns] at isRecord
      by_cases six : options.rloc.chars.length = 6
      · rw [read_stationText six] at isRecord
        have stored := Adif.fieldValue_of_read "OPERATOR".toList rfl isRecord
        have same : (options.rcall.chars ++ endOfRecord).take 6 = options.rcall.chars :=
          Option.some.inj (stored.symm.trans operator)
        have taken := congrArg List.length same
        have ending : endOfRecord.length = 8 := by decide
        rw [List.length_take, List.length_append, ending] at taken
        exact ⟨fourColumns, six, by omega⟩
      · rw [read_stationText_of_ne six] at isRecord
        contradiction
    · rw [read_adifText_of_ne options localtimeR completedQSO fourColumns] at isRecord
      contradiction
  · rintro ⟨fourColumns, six, sixLetters⟩
    have taken : (options.rcall.chars ++ endOfRecord).take 6 = options.rcall.chars := by
      rw [← sixLetters, List.take_left]
    have left : (options.rcall.chars ++ endOfRecord).drop 6 = endOfRecord := by
      rw [← sixLetters, List.drop_left]
    refine ⟨receivedFields localtimeR completedQSO ++
      stationFields options.rloc.chars options.rcall.chars, ?_, rfl,
        ⟨freqText completedQSO.freq, rfl, strtod_freqText positive⟩, rfl, rfl⟩
    rw [Adif.readRecord_eq_some_iff, read_adifText options localtimeR completedQSO fourColumns,
      read_stationText six, taken, left]
    rfl

/-- A clock that always shows the same second. -/
def sampleLocaltime (_ : Int) : Tm where
  tmSec := 20
  tmMin := 13
  tmHour := 22
  tmMday := 14
  tmMon := 10
  tmYear := 123
  tmSec_le := by decide
  tmMin_le := by decide
  tmHour_le := by decide
  tmMday_le := by decide
  tmMon_le := by decide

/-- The sample station with a six-character locator. -/
def preciseStation : Options :=
  { sampleStation with rloc := .snprintf 7 "JO99AB".toList, rloc_ne_nil := by decide }

theorem faithfulRecord_preciseStation :
    FaithfulRecord preciseStation (sampleCall "RR73".toList)
      (adifText preciseStation sampleLocaltime (sampleCall "RR73".toList)) :=
  (faithfulRecord_iff preciseStation sampleLocaltime (sampleCall "RR73".toList) (by decide)).mpr
    (by decide)

/-- With a four-character locator the record swallows the operator's tag. -/
theorem not_faithfulRecord_sampleStation :
    ¬ FaithfulRecord sampleStation (sampleCall "RR73".toList)
      (adifText sampleStation sampleLocaltime (sampleCall "RR73".toList)) := by
  rintro ⟨final, isRecord, -⟩
  rw [Adif.readRecord_eq_some_iff, read_adifText sampleStation sampleLocaltime _ (by decide),
    read_stationText_of_ne (by decide)] at isRecord
  contradiction

end RtlsdrFt8d
