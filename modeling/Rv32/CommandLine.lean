import Rv32.TestRun

/-!
# Arguments of the command line

The command line names the file of a test program and may give options before or after it:
`--max-steps` with a number, `--signature` (or `-s`) with the file that the signature goes into, and
`--verbose` (or `-v`), which may be repeated.
-/

namespace Rv32

/-- What a command line asks for. -/
structure CommandLine where
  maxSteps : Nat
  signatureFile : Option String
  verbosity : Nat
  program : Option String
deriving DecidableEq, Repr

namespace CommandLine

/-- What is asked for by no arguments at all. -/
def defaults : CommandLine := ⟨100000, none, 0, none⟩

def usage : String := "usage: [--max-steps N] [--signature FILE] [--verbose] PROGRAM"

/-- The number that a text of decimal digits stands for, if it fits 64 bits. -/
def number? (text : String) : Option Nat :=
  let digits := text.toList
  if digits ≠ [] ∧ digits.all Char.isDigit then
    let value := digits.foldl (fun value digit => 10 * value + (digit.toNat - '0'.toNat)) 0
    if value < 1 <<< 64 then some value else none
  else none

/-- The file of the program, which can be named once. -/
def withProgram (line : CommandLine) (path : String) : Option CommandLine :=
  match line.program with
  | none => some { line with program := some path }
  | some _ => none

/-- Take in arguments from the first on. -/
def takeIn (line : CommandLine) : (arguments : List String) → Option CommandLine
  | [] => some line
  | "--max-steps" :: value :: rest =>
    match number? value with
    | some count => takeIn { line with maxSteps := count } rest
    | none => none
  | "--signature" :: path :: rest => takeIn { line with signatureFile := some path } rest
  | "-s" :: path :: rest => takeIn { line with signatureFile := some path } rest
  | "--verbose" :: rest => takeIn { line with verbosity := line.verbosity + 1 } rest
  | argument :: rest =>
    match argument.toList with
    | '-' :: first :: more =>
      if (first :: more).all (· = 'v') then
        takeIn { line with verbosity := line.verbosity + (more.length + 1) } rest
      else none
    | _ =>
      match line.withProgram argument with
      | some line => takeIn line rest
      | none => none

/-- What the arguments ask for, unless they are malformed. -/
def ofArguments? (arguments : List String) : Option CommandLine := defaults.takeIn arguments

/-- What is asked for about the run. -/
def options (line : CommandLine) : TestOptions :=
  ⟨line.maxSteps, line.signatureFile.isSome, line.verbosity⟩

end CommandLine

end Rv32
