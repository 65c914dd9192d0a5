import Mathlib.Data.List.Basic

/-!
# Command lines under a permuting `getopt_long`

GNU `getopt_long` accepts options anywhere on the command line: it hands out
the options in order and moves the remaining arguments behind them without
changing their order.  This file gives the options and free arguments that a
complete scan yields, as a recursion over the argument vector.
-/

namespace GetoptPermutation

inductive HasArg where
  | noArgument
  | requiredArgument
  | optionalArgument
  deriving DecidableEq

structure LongOption where
  name : List Char
  hasArg : HasArg
  value : Char
  deriving DecidableEq

/-- The option string and the table of long options of one caller. -/
structure Spec where
  short : List (Char × HasArg)
  long : List LongOption

/-- What one call returns: an option with its argument, or the `'?'` of an
unknown option or a missing argument. -/
inductive Found where
  | option (value : Char) (argument : Option (List Char))
  | unknown
  deriving DecidableEq

/-- The short options of an option string such as `"hp:s"`. -/
def parseOptstring : List Char → List (Char × HasArg)
  | option :: ':' :: ':' :: rest => (option, .optionalArgument) :: parseOptstring rest
  | option :: ':' :: rest => (option, .requiredArgument) :: parseOptstring rest
  | option :: rest => (option, .noArgument) :: parseOptstring rest
  | [] => []

/-- The long option a name stands for: an exact match, or the only meaning of
an abbreviation. -/
def findLong (spec : Spec) (name : List Char) : Option LongOption :=
  match spec.long.find? (fun option => option.name = name) with
  | some option => some option
  | none =>
      match spec.long.filter (fun option => name.isPrefixOf option.name) with
      | [] => none
      | first :: others =>
          if others.all (fun option =>
              option.hasArg = first.hasArg && option.value = first.value) then
            some first
          else none

/-- The options in a cluster of short options, and the option that still waits
for its argument. -/
def scanCluster (spec : Spec) : List Char → List Found × Option Char
  | [] => ([], none)
  | option :: rest =>
      match spec.short.lookup option with
      | none =>
          let (found, pending) := scanCluster spec rest
          (.unknown :: found, pending)
      | some .noArgument =>
          let (found, pending) := scanCluster spec rest
          (.option option none :: found, pending)
      | some .requiredArgument =>
          if rest = [] then ([], some option) else ([.option option (some rest)], none)
      | some .optionalArgument =>
          ([.option option (if rest = [] then none else some rest)], none)

/-- The option in a long argument, given without its two dashes. -/
def scanLong (spec : Spec) (text : List Char) : List Found × Option Char :=
  let name := text.takeWhile (fun symbol => symbol ≠ '=')
  let value := (text.dropWhile (fun symbol => symbol ≠ '=')).tail?
  match findLong spec name with
  | none => ([.unknown], none)
  | some option =>
      match option.hasArg, value with
      | .noArgument, some _ => ([.unknown], none)
      | .requiredArgument, none => ([], some option.value)
      | _, argument => ([.option option.value argument], none)

/-- The options of one argument that starts with a dash. -/
def scanElement (spec : Spec) : List Char → List Found × Option Char
  | '-' :: '-' :: text => scanLong spec text
  | '-' :: cluster => scanCluster spec cluster
  | _ => ([], none)

/-- An argument that can hold options: a dash and something after it. -/
def isOption : List Char → Bool
  | '-' :: _ :: _ => true
  | _ => false

/-- A complete scan of the arguments after the program name: the options in
order, and the free arguments.  The first parameter is the option whose
argument comes next. -/
def scan (spec : Spec) : Option Char → List (List Char) → List Found × List (List Char)
  | none, [] => ([], [])
  | some _, [] => ([.unknown], [])
  | some option, argument :: rest =>
      let (found, free) := scan spec none rest
      (.option option (some argument) :: found, free)
  | none, element :: rest =>
      if element = ['-', '-'] then ([], rest)
      else if isOption element then
        let (here, pending) := scanElement spec element
        let (found, free) := scan spec pending rest
        (here ++ found, free)
      else
        let (found, free) := scan spec none rest
        (found, element :: free)

variable {spec : Spec}

theorem scan_cons_of_not_isOption {element : List Char}
    (notOption : isOption element = false) (rest : List (List Char)) :
    scan spec none (element :: rest) =
      ((scan spec none rest).1, element :: (scan spec none rest).2) := by
  have notEnd : element ≠ ['-', '-'] := by rintro rfl; simp [isOption] at notOption
  simp [scan, notEnd, notOption]

/-- Arguments that are not options are passed over, whatever follows. -/
theorem scan_append_of_not_isOption {plain : List (List Char)}
    (notOptions : ∀ element ∈ plain, isOption element = false)
    (rest : List (List Char)) :
    scan spec none (plain ++ rest) =
      ((scan spec none rest).1, plain ++ (scan spec none rest).2) := by
  induction plain with
  | nil => rfl
  | cons element plain ih =>
      rw [List.cons_append, scan_cons_of_not_isOption (notOptions element (by simp)),
        ih fun other otherMem => notOptions other (by simp [otherMem])]
      rfl

/-- A command line without options yields its arguments unchanged. -/
theorem scan_of_not_isOption {plain : List (List Char)}
    (notOptions : ∀ element ∈ plain, isOption element = false) :
    scan spec none plain = ([], plain) := by
  have passed := @scan_append_of_not_isOption spec plain notOptions []
  simpa [scan] using passed

/-- An argument whose first option letter is not in the option string makes
the first call after the preceding plain arguments fail. -/
theorem head_scan_append_of_unknown {plain : List (List Char)}
    (notOptions : ∀ element ∈ plain, isOption element = false)
    {letter : Char} (notDash : letter ≠ '-') (unknown : spec.short.lookup letter = none)
    (cluster : List Char) (rest : List (List Char)) :
    ∃ later, (scan spec none (plain ++ ('-' :: letter :: cluster) :: rest)).1 =
      .unknown :: later := by
  refine ⟨(scanCluster spec cluster).1 ++
    (scan spec (scanCluster spec cluster).2 rest).1, ?_⟩
  rw [scan_append_of_not_isOption notOptions]
  simp [scan, isOption, scanElement, scanCluster, notDash, unknown]

example :
    scan ⟨parseOptstring "hp:s".toList, [⟨"ppm".toList, .requiredArgument, 'p'⟩]⟩ none
      ["20m".toList, "-sp3".toList, "CQ".toList, "--pp=4".toList, "K1".toList] =
      ([.option 's' none, .option 'p' (some "3".toList), .option 'p' (some "4".toList)],
        ["20m".toList, "CQ".toList, "K1".toList]) := by
  decide

end GetoptPermutation
