import RtlsdrFt8d.ReceiverThreads

/-!
# Status texts of the device

`startRtlDevice` reports what it found, or the call that failed, in a buffer of
its caller.  It takes 96 bytes for granted, which main passes at start-up; the
stall watchdog passes 32.
-/

namespace RtlsdrFt8d

namespace Receiver

/-- `rtl_gen_t`. -/
inductive RtlGen where
  | auto
  | v3
  | v4
  deriving DecidableEq

/-- The fields of `receiver_options` that decide how a device is started. -/
structure DeviceOptions where
  autogain : Int32
  ppm : Int32
  directsampling : Int32
  isHF : Bool
  directset : Bool
  rxtest : Bool
  faketx : Bool
  rtlgen : RtlGen
  deriving DecidableEq

/-- The answers of librtlsdr.  The name of the device is missing or a string of
any length, one character a byte. -/
structure RtlAnswers where
  deviceCount : UInt32
  openResult : Int32
  tunerIsR828D : Bool
  deviceName : Option (List Char)
  setTunerGainMode : Int32
  setTunerGain : Int32
  setDirectSampling : Int32
  setSampleRate : Int32
  setFreqCorrection : Int32
  setCenterFreq : Int32
  resetBuffer : Int32
  deriving DecidableEq

section StartRtlDevice

variable (options : DeviceOptions) (answers : RtlAnswers)

/-- `gen`. -/
def generation : RtlGen :=
  if options.rtlgen = .auto then if answers.tunerIsR828D then .v4 else .v3
  else options.rtlgen

/-- `rx_options.directsampling` after the choice for HF. -/
def directSamplingMode : Int32 :=
  if options.isHF ∧ ¬ options.directset then
    if generation options answers = .v4 then 0 else 2
  else options.directsampling

def shownName : List Char :=
  match answers.deviceName with
  | some (first :: rest) => first :: rest
  | _ => "RTL device".toList

/-- The text with which `snprintf` is called, of which it writes 95 characters
at most. -/
def deviceText : List Char :=
  shownName answers ++ " (RTL-SDR ".toList ++
    (if generation options answers = .v4 then "v4".toList else "v3".toList) ++ ")".toList

/-- The answer to the one of the two calls for the gain that is made. -/
def gainResult : Int32 :=
  if options.autogain ≠ 0 then answers.setTunerGainMode else answers.setTunerGain

/-- `rtl_result` after the call for a setting: two of the calls are skipped if
their option is off. -/
def rtlResult (setting : Setting) (before : Int32) : Int32 :=
  match setting with
  | .gain => gainResult options answers
  | .directSampling =>
      if directSamplingMode options answers ≠ 0 then answers.setDirectSampling else before
  | .sampleRate => answers.setSampleRate
  | .freqCorrection => if options.ppm ≠ 0 then answers.setFreqCorrection else before
  | .centerFreq => answers.setCenterFreq
  | .resetBuffer => answers.resetBuffer

def failureText : Setting → List Char
  | .gain => "Cannot set gain\n".toList
  | .directSampling => "Cannot set direct sampling\n".toList
  | .sampleRate => "Cannot set sampling rate\n".toList
  | .freqCorrection => "Cannot set frequency correction\n".toList
  | .centerFreq => "Cannot set center frequency\n".toList
  | .resetBuffer => "Cannot reset device buffer\n".toList

/-- The settings in the order of their calls. -/
def settings : List Setting :=
  [.gain, .directSampling, .sampleRate, .freqCorrection, .centerFreq, .resetBuffer]

/-- The first setting that fails, if any. -/
def failedSetting : List Setting → Int32 → Option Setting
  | [], _ => none
  | setting :: rest, before =>
      let result := rtlResult options answers setting before
      if result < 0 then some setting else failedSetting rest result

/-- `startRtlDevice`: its result, and every text that it writes to `resultText`. -/
def startRtlDevice : Bool × List (List Char) :=
  if answers.deviceCount = 0 then (false, ["Device crashed\n".toList])
  else if answers.openResult < 0 then (false, ["Cannot open device\n".toList])
  else
    let found := (deviceText options answers).take 95
    match failedSetting options answers settings answers.openResult with
    | none => (true, [found])
    | some setting => (false, [found, failureText setting])

/-- `restartRtlDevice` passes its buffer on when the old device is closed. -/
def restartRtlDevice : Bool × List (List Char) :=
  startRtlDevice options answers

/-- Every text written to the buffer of a call site in main. -/
def statusTexts : StartCaller → List (List Char)
  | .startUp =>
      if options.rxtest ∨ options.faketx then
        ["Synthetic RX source (no RTL device)".toList.take 95]
      else (startRtlDevice options answers).2
  | .watchdog => (restartRtlDevice options answers).2

end StartRtlDevice

/-- `rtlDevResult` and `errorTxt`. -/
def resultTextSize : StartCaller → Nat
  | .startUp => 96
  | .watchdog => 32

/-- Every text fits in the buffer of its call site together with its NUL. -/
def TextsFit (caller : StartCaller) (options : DeviceOptions) (answers : RtlAnswers) : Prop :=
  ∀ text ∈ statusTexts options answers caller, text.length + 1 ≤ resultTextSize caller

/-- The device is opened and configured up to its frequency correction, which
fails. -/
def CorrectionFails (options : DeviceOptions) (answers : RtlAnswers) : Prop :=
  ¬ gainResult options answers < 0 ∧
    (directSamplingMode options answers ≠ 0 → ¬ answers.setDirectSampling < 0) ∧
    ¬ answers.setSampleRate < 0 ∧ options.ppm ≠ 0 ∧ answers.setFreqCorrection < 0

variable {options : DeviceOptions} {answers : RtlAnswers}

theorem length_deviceText : (deviceText options answers).length =
    (shownName answers).length + 13 := by
  unfold deviceText
  split <;> simp

/-- Only one of the texts for a failed setting has 32 characters. -/
theorem length_failureText (setting : Setting) :
    (failureText setting).length ≤ 31 ↔ setting ≠ .freqCorrection := by
  cases setting <;> decide

theorem length_failureText_le (setting : Setting) : (failureText setting).length ≤ 32 := by
  cases setting <;> decide

theorem failedSetting_cons_eq_some_iff {setting found : Setting} {rest : List Setting}
    {before : Int32} :
    failedSetting options answers (setting :: rest) before = some found ↔
      rtlResult options answers setting before < 0 ∧ setting = found ∨
        ¬ rtlResult options answers setting before < 0 ∧
          failedSetting options answers rest (rtlResult options answers setting before) =
            some found := by
  simp only [failedSetting]
  split <;> simp_all

theorem failedSetting_eq_freqCorrection_iff (before : Int32) :
    failedSetting options answers settings before = some .freqCorrection ↔
      CorrectionFails options answers := by
  have ended (result : Int32) :
      failedSetting options answers [] result ≠ some .freqCorrection := nofun
  simp only [settings, failedSetting_cons_eq_some_iff, ended, reduceCtorEq, and_false, false_or,
    or_false, and_true, rtlResult]
  unfold CorrectionFails
  -- A skipped call leaves the result of an earlier call, which has not failed.
  refine and_congr_right fun gainSet => and_congr ?_ (and_congr_right fun rateSet => ?_)
  · split <;> simp_all
  · split <;> simp_all

/-- What the texts of a device that is opened need. -/
theorem startRtlDevice_opened (counted : answers.deviceCount ≠ 0)
    (opened : ¬ answers.openResult < 0) (size : Nat) :
    (∀ text ∈ (startRtlDevice options answers).2, text.length + 1 ≤ size) ↔
      min 95 ((shownName answers).length + 13) + 1 ≤ size ∧
        ∀ setting ∈ failedSetting options answers settings answers.openResult,
          (failureText setting).length + 1 ≤ size := by
  unfold startRtlDevice
  rw [if_neg counted, if_neg opened]
  simp only
  cases failedSetting options answers settings answers.openResult with
  | none => simp [length_deviceText]
  | some setting => simp [length_deviceText]

/-! ## Buffers -/

theorem length_le_of_mem_startRtlDevice :
    ∀ text ∈ (startRtlDevice options answers).2, text.length + 1 ≤ 96 := by
  by_cases counted : answers.deviceCount = 0
  · simp [startRtlDevice, counted]
  by_cases opened : answers.openResult < 0
  · simp [startRtlDevice, counted, opened]
  rw [startRtlDevice_opened counted opened]
  refine ⟨by omega, fun setting _ => ?_⟩
  have := length_failureText_le setting
  omega

theorem textsFit_startUp (options : DeviceOptions) (answers : RtlAnswers) :
    TextsFit .startUp options answers := by
  intro text written
  simp only [statusTexts] at written
  split at written
  · rw [List.mem_singleton.mp written]
    decide
  · exact length_le_of_mem_startRtlDevice text written

theorem textsFit_watchdog_iff (options : DeviceOptions) (answers : RtlAnswers) :
    TextsFit .watchdog options answers ↔
      answers.deviceCount = 0 ∨ answers.openResult < 0 ∨
        (shownName answers).length ≤ 18 ∧ ¬ CorrectionFails options answers := by
  unfold TextsFit
  simp only [statusTexts, restartRtlDevice, resultTextSize]
  by_cases counted : answers.deviceCount = 0
  · simp [startRtlDevice, counted]
  by_cases opened : answers.openResult < 0
  · simp [startRtlDevice, counted, opened]
  rw [startRtlDevice_opened counted opened, ← failedSetting_eq_freqCorrection_iff
    answers.openResult]
  simp only [counted, opened, false_or]
  refine and_congr (by omega) ?_
  have fits (setting : Setting) :
      (failureText setting).length + 1 ≤ 32 ↔ setting ≠ .freqCorrection := by
    rw [← length_failureText]
    omega
  simp only [fits]
  cases failedSetting options answers settings answers.openResult with
  | none => simp
  | some setting => simp

/-- A found device with a long name, or a frequency correction that fails, is too
much for the buffer of the watchdog. -/
theorem textsFit_iff (caller : StartCaller) (options : DeviceOptions) (answers : RtlAnswers) :
    TextsFit caller options answers ↔
      caller = .startUp ∨ answers.deviceCount = 0 ∨ answers.openResult < 0 ∨
        (shownName answers).length ≤ 18 ∧ ¬ CorrectionFails options answers := by
  cases caller with
  | startUp => simp [textsFit_startUp]
  | watchdog => simp [textsFit_watchdog_iff]

/-- A restart in which every call succeeds: 34 bytes are written to 32. -/
theorem not_textsFit_genericDongle :
    ¬ TextsFit .watchdog
      { autogain := 0, ppm := 0, directsampling := 0, isHF := true, directset := false,
        rxtest := false, faketx := false, rtlgen := .auto }
      { deviceCount := 1, openResult := 0, tunerIsR828D := true,
        deviceName := some "Generic RTL2832U OEM".toList, setTunerGainMode := 0,
        setTunerGain := 0, setDirectSampling := 0, setSampleRate := 0, setFreqCorrection := 0,
        setCenterFreq := 0, resetBuffer := 0 } := by
  intro fits
  have := fits "Generic RTL2832U OEM (RTL-SDR v4)".toList (by decide)
  exact absurd this (by decide)

end Receiver

end RtlsdrFt8d
