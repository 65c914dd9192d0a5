import RtlsdrFt8d.CStrings

/-!
# Data shared by the threads of the receiver

The configuration that the command line of the receiver fixes, and the messages
that the decoder thread hands to the QSO handler thread.
-/

namespace RtlsdrFt8d

/-- The default build of the receiver, and the one with `NARROWBAND` defined. -/
inductive Build where
  | wide
  | narrowband
  deriving DecidableEq

/-- `ft8slot_t`: the two kinds of 15-second slots. -/
inductive Ft8Slot where
  | even
  | odd
  deriving DecidableEq

/-- `dec_options` together with `rx_options.dialfreq`.  Outside the self-test
`main` refuses an empty callsign, an empty locator and a zero dial. -/
structure Options where
  rcall : CString 13
  rloc : CString 7
  dialfreq : UInt32
  rcall_ne_nil : rcall.chars ≠ []
  rloc_ne_nil : rloc.chars ≠ []
  dialfreq_ne_zero : dialfreq ≠ 0

/-- `struct plain_message`, without the locator field that nothing reads. -/
structure PlainMessage where
  src : CString 13
  dest : CString 13
  message : CString 40
  freq : Int32
  snr : Int32
  tempus : Int
  ft8slot : Ft8Slot
  deriving DecidableEq

/-! ## A sample station -/

/-- The station of the manual's test commands, on 20 m. -/
def sampleStation : Options where
  rcall := .snprintf 13 "SA0PRF".toList
  rloc := .snprintf 7 "JO99".toList
  dialfreq := 14074000
  rcall_ne_nil := by decide
  rloc_ne_nil := by decide
  dialfreq_ne_zero := by decide

/-- A message from the fake transmitter's peer to that station, received in an
even slot. -/
def sampleCall (message : List Char) : PlainMessage where
  src := .snprintf 13 "F1ABC".toList
  dest := .snprintf 13 "SA0PRF".toList
  message := .snprintf 40 message
  freq := 14075000
  snr := -7
  tempus := 1700000000
  ft8slot := .even

end RtlsdrFt8d
