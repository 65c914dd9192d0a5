import RtlsdrFt8d.CNumerals
import RtlsdrFt8d.GetoptPermutation
import RtlsdrFt8d.TokenSplitting

/-!
# The command line of `ft8`

`parse_commandline` of `ft8.cpp`: options anywhere on the line, then a
frequency and the words of the message.  The daemon runs it on the words of
every request it receives.  `none` stands for the `ABORT` branches.
-/

namespace RtlsdrFt8d

open CNumerals (Double strtod strtol)

/-- `mode_type`, without the mode that only the WSPR parser sets. -/
inductive TxMode where
  | ft8
  | tone
  deriving DecidableEq

/-- The variables that `parse_commandline` fills. -/
structure CommandLine where
  ppm : Double
  selfCal : Bool
  repeats : Bool
  randomOffset : Bool
  testTone : Double
  noDelay : Bool
  mode : TxMode
  terminate : Int
  specificFreq : Double
  message : List Char
  centerFreqSet : List Double

def defaultCommandLine : CommandLine where
  ppm := .finite 0
  selfCal := false
  repeats := false
  randomOffset := false
  testTone := .nan
  noDelay := false
  mode := .ft8
  terminate := -1
  specificFreq := .finite 0
  message := []
  centerFreqSet := []

/-! ## Options -/

/-- `"hp:sfrx:ot:na:"` and `long_options`. -/
def ft8Options : GetoptPermutation.Spec where
  short := GetoptPermutation.parseOptstring "hp:sfrx:ot:na:".toList
  long :=
    [⟨"help".toList, .noArgument, 'h'⟩,
      ⟨"ppm".toList, .requiredArgument, 'p'⟩,
      ⟨"self-calibration".toList, .noArgument, 's'⟩,
      ⟨"free-running".toList, .noArgument, 'f'⟩,
      ⟨"repeat".toList, .noArgument, 'r'⟩,
      ⟨"terminate".toList, .requiredArgument, 'x'⟩,
      ⟨"offset".toList, .noArgument, 'o'⟩,
      ⟨"test-tone".toList, .requiredArgument, 't'⟩,
      ⟨"add".toList, .requiredArgument, 'a'⟩,
      ⟨"no-delay".toList, .noArgument, 'n'⟩]

/-- A `strtod` that must consume a nonempty argument completely. -/
def doubleOption (optarg : List Char) : Option Double :=
  let (value, endp) := strtod optarg
  if optarg = [] ∨ endp ≠ [] then none else some value

/-- `strtol` of the `-x` argument, stored in an `int` that must be positive. -/
def terminateOption (optarg : List Char) : Option Int :=
  let (value, endp) := strtol 64 optarg
  let terminate := Int.bmod value (2 ^ 32)
  if optarg = [] ∨ endp ≠ [] ∨ terminate < 1 then none else some terminate

/-- The `switch` over the value that `getopt_long` returns. -/
def applyOption (line : CommandLine) : GetoptPermutation.Found → Option CommandLine
  | .option 'p' (some optarg) =>
      (doubleOption optarg).map fun ppm => { line with ppm := ppm }
  | .option 's' _ => some { line with selfCal := true }
  | .option 'f' _ => some { line with selfCal := false }
  | .option 'r' _ => some { line with repeats := true }
  | .option 'x' (some optarg) =>
      (terminateOption optarg).map fun terminate => { line with terminate := terminate }
  | .option 'o' _ => some { line with randomOffset := true }
  | .option 'a' (some optarg) =>
      (doubleOption optarg).map fun specificFreq => { line with specificFreq := specificFreq }
  | .option 't' (some optarg) =>
      (doubleOption optarg).map fun testTone =>
        { line with testTone := testTone, mode := .tone }
  | .option 'n' _ => some { line with noDelay := true }
  | _ => none

/-! ## Free arguments -/

def bandTable : List (List Char × Int) :=
  [("160m".toList, 1840000), ("80m".toList, 3573000), ("60m".toList, 5357000),
    ("40m".toList, 7074000), ("30m".toList, 10136000), ("20m".toList, 14074000),
    ("17m".toList, 18100000), ("15m".toList, 21074000), ("12m".toList, 24915000),
    ("10m".toList, 28074000), ("6m".toList, 50313000), ("4m".toList, 70100000),
    ("2m".toList, 144174000)]

/-- The chain of `strcasecmp` comparisons. -/
def bandFrequency (word : List Char) : Option Int :=
  bandTable.lookup (word.map Char.toLower)

/-- The first free argument.  The test `optarg == endp` compares pointers into
different arguments, so only the unread rest counts. -/
def parseFrequency (word : List Char) : Option Double :=
  match bandFrequency word with
  | some frequency => some (.finite frequency)
  | none =>
      let (value, endp) := strtod word
      if endp ≠ [] then none else some value

/-- The loop over the free arguments: one frequency, then the message. -/
def parseFreeArguments (line : CommandLine) : List (List Char) → Option CommandLine
  | [] => some line
  | frequency :: words =>
      (parseFrequency frequency).map fun parsedFreq =>
        { line with
          centerFreqSet := [parsedFreq.add line.specificFreq]
          message := words.foldl
            (fun message word =>
              (if message = [] then [] else message ++ [' ']) ++ word) [] }

/-- The checks at the end, after the message is converted to upper case. -/
def checkCommandLine (line : CommandLine) : Option CommandLine :=
  let message := line.message.map Char.toUpper
  let ppm := if line.ppm.isTrue ∧ line.selfCal then .finite 0 else line.ppm
  match line.mode with
  | .tone =>
      if line.testTone.leZero then none
      else some { line with message := message, ppm := ppm, randomOffset := false }
  | .ft8 =>
      if message = [] ∨ line.centerFreqSet = [] then none
      else some { line with message := message, ppm := ppm }

/-- `parse_commandline` on the arguments after the program name. -/
def parseCommandline (arguments : List (List Char)) : Option CommandLine :=
  let (found, free) := GetoptPermutation.scan ft8Options none arguments
  (found.foldlM applyOption defaultCommandLine).bind fun line =>
    (parseFreeArguments line free).bind checkCommandLine

/-! ## What a command line can set -/

theorem centerFreqSet_applyOption {line next : CommandLine}
    {found : GetoptPermutation.Found} (applied : applyOption line found = some next) :
    next.centerFreqSet = line.centerFreqSet := by
  unfold applyOption at applied
  split at applied <;> simp_all [Option.map_eq_some_iff]
  all_goals (obtain ⟨value, -, rfl⟩ := applied; rfl)

theorem centerFreqSet_foldlM_applyOption {found : List GetoptPermutation.Found}
    {line next : CommandLine} (applied : found.foldlM applyOption line = some next) :
    next.centerFreqSet = line.centerFreqSet := by
  induction found generalizing line with
  | nil =>
      obtain rfl : line = next := by simpa using applied
      rfl
  | cons first found ih =>
      obtain ⟨middle, here, later⟩ := Option.bind_eq_some_iff.mp
        (by simpa [List.foldlM_cons] using applied)
      rw [ih later, centerFreqSet_applyOption here]

theorem length_centerFreqSet_parseFreeArguments {line parsed : CommandLine}
    {words : List (List Char)} (accepted : parseFreeArguments line words = some parsed)
    (fresh : line.centerFreqSet = []) : parsed.centerFreqSet.length ≤ 1 := by
  cases words with
  | nil =>
      obtain rfl : line = parsed := by simpa [parseFreeArguments] using accepted
      simp [fresh]
  | cons frequency words =>
      obtain ⟨parsedFreq, -, rfl⟩ := Option.map_eq_some_iff.mp accepted
      simp

theorem centerFreqSet_checkCommandLine {line checked : CommandLine}
    (accepted : checkCommandLine line = some checked) :
    checked.centerFreqSet = line.centerFreqSet ∧
      (checked.mode = .ft8 → line.centerFreqSet ≠ []) := by
  unfold checkCommandLine at accepted
  cases mode : line.mode with
  | tone =>
      obtain ⟨-, rfl⟩ : line.testTone.leZero = false ∧ _ = checked := by
        simpa [mode] using accepted
      exact ⟨rfl, by simp⟩
  | ft8 =>
      obtain ⟨⟨-, nonempty⟩, rfl⟩ : (line.message ≠ [] ∧ line.centerFreqSet ≠ []) ∧
          _ = checked := by
        simpa [mode] using accepted
      exact ⟨rfl, fun _ => nonempty⟩

/-- An accepted command line names at most one frequency. -/
theorem length_centerFreqSet_le_one {arguments : List (List Char)} {line : CommandLine}
    (accepted : parseCommandline arguments = some line) : line.centerFreqSet.length ≤ 1 := by
  obtain ⟨read, readOptions, rest⟩ := Option.bind_eq_some_iff.mp accepted
  obtain ⟨parsed, parsedFree, checked⟩ := Option.bind_eq_some_iff.mp rest
  rw [(centerFreqSet_checkCommandLine checked).1]
  exact length_centerFreqSet_parseFreeArguments parsedFree
    (centerFreqSet_foldlM_applyOption readOptions)

/-- In FT8 mode an accepted command line names exactly one. -/
theorem centerFreqSet_of_ft8 {arguments : List (List Char)} {line : CommandLine}
    (accepted : parseCommandline arguments = some line) (ft8Mode : line.mode = .ft8) :
    ∃ frequency, line.centerFreqSet = [frequency] := by
  have atMostOne := length_centerFreqSet_le_one accepted
  obtain ⟨read, -, rest⟩ := Option.bind_eq_some_iff.mp accepted
  obtain ⟨parsed, -, checked⟩ := Option.bind_eq_some_iff.mp rest
  obtain ⟨same, nonempty⟩ := centerFreqSet_checkCommandLine checked
  have positive : 0 < line.centerFreqSet.length := by
    rw [same]
    exact List.length_pos_iff.mpr (nonempty ft8Mode)
  exact List.length_eq_one_iff.mp (by omega)

/-! ## Plain requests -/

theorem bandFrequency_toDigits (number : Nat) :
    bandFrequency (Nat.toDigits 10 number) = none := by
  have named : ∀ entry ∈ bandTable, 'm' ∈ entry.1 := by decide
  rw [bandFrequency, List.lookup_eq_none_iff]
  intro entry entryMem
  have inName := named entry entryMem
  by_contra same
  rw [bne_iff_ne, not_not] at same
  rw [← same] at inName
  obtain ⟨digit, digitMem, lowered⟩ := List.mem_map.mp inName
  have isDigit := CNumerals.isDigit_of_mem_toDigits digitMem
  rw [CNumerals.toLower_of_isDigit isDigit] at lowered
  simp [lowered] at isDigit

theorem parseFrequency_toDigits (number : Nat) :
    parseFrequency (Nat.toDigits 10 number) = some (.finite number) := by
  rw [parseFrequency, bandFrequency_toDigits, CNumerals.strtod_toDigits]
  rfl

/-- A frequency and a message without options are taken as they stand, the
message in upper case. -/
theorem parseCommandline_of_plain (number : Nat) (dest src extra : List Char)
    (destNonempty : dest ≠ [])
    (notOptions : ∀ word ∈ [Nat.toDigits 10 number, dest, src, extra],
      GetoptPermutation.isOption word = false) :
    parseCommandline [Nat.toDigits 10 number, dest, src, extra] =
      some { defaultCommandLine with
        message := (dest ++ ' ' :: src ++ ' ' :: extra).map Char.toUpper
        centerFreqSet := [.finite number] } := by
  rw [parseCommandline, GetoptPermutation.scan_of_not_isOption notOptions]
  simp [parseFreeArguments, parseFrequency_toDigits, checkCommandLine, defaultCommandLine,
    destNonempty, Double.add]

/-- A later word that looks like an unknown option aborts the program. -/
theorem parseCommandline_of_unknown {plain : List (List Char)}
    (notOptions : ∀ word ∈ plain, GetoptPermutation.isOption word = false) {letter : Char}
    (notDash : letter ≠ '-') (unknown : ft8Options.short.lookup letter = none)
    (cluster : List Char) (rest : List (List Char)) :
    parseCommandline (plain ++ ('-' :: letter :: cluster) :: rest) = none := by
  obtain ⟨later, found⟩ := GetoptPermutation.head_scan_append_of_unknown notOptions notDash
    unknown cluster rest
  unfold parseCommandline
  simp [found, applyOption]

end RtlsdrFt8d
