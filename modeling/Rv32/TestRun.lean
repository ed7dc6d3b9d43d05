import Rv32.Executable
import Rv32.Machine.Run
import Rv32.TestRun.Layout

/-!
# Running a test program

A test program reports through the mailbox `tohost`: one means that it passed, and any other number
but zero that it failed. It is run in steps of a thousand cycles until it reports or the steps are
used up. On request its signature is taken then, the words between two symbols of the program, by
which it can be compared with other machines.

`TestRun.perform` does all of this from the bytes of the file to the report on the run.
-/

namespace Rv32

/-- Why a file cannot be run as a test, or gives no signature. -/
inductive TestError where
  | malformedFile
  | missingTohost
  | layout (error : LayoutError)
  | missingSymbol (name : String)
  | malformedSignature
deriving DecidableEq, Repr

namespace TestError

def message : TestError → String
  | malformedFile => "malformed executable file"
  | missingTohost => "missing `.tohost` section"
  | layout error => error.message
  | missingSymbol name => s!"missing symbol `{name}`"
  | malformedSignature => "malformed signature bounds"

end TestError

/-- How a test ended. -/
inductive Verdict where
  | passed
  | undecided
  | failed (code : DoubleWord)
deriving DecidableEq, Repr

namespace Verdict

/-- The verdict for the contents of `tohost`. The number of the failed test is above its lowest
bit. -/
def ofTohost (tohost : DoubleWord) : Verdict :=
  if tohost = 1 then passed else if tohost = 0 then undecided else failed (tohost >>> 1)

/-- The status with which a program should end that ran the test. -/
def exitCode : Verdict → Nat
  | passed => 0
  | undecided => 1
  | failed _ => 1

end Verdict

/-- What is asked for about a run. -/
structure TestOptions where
  maxSteps : Nat
  signature : Bool
  verbosity : Nat
deriving DecidableEq, Repr

/-- What is said about a run. -/
structure TestReport where
  verdict : Verdict
  messages : List String
  signature : Option (List String)
deriving DecidableEq, Repr

/-- A test on the way: the machine, what `tohost` held last, and the diagnostics so far. -/
structure TestRun where
  machine : Machine
  tohost : DoubleWord
  log : Array Diagnostic

namespace TestRun

/-- The number of cycles between two looks at `tohost`. -/
def cyclesPerStep : Nat := 1000

/-- Whether reports of this kind are asked for. -/
def shows (verbosity : Nat) (severity : Severity) : Bool := decide (severity.verbosity ≤ verbosity)

/-- Where a program places the mailboxes: at its section for them, or else at the symbol. -/
def findTohost (program : Executable) : Except TestError Word :=
  match (program.sectionAddress? ".tohost").or (program.symbolAddress? "tohost") with
  | some address => .ok address
  | none => .error .missingTohost

/-- The segments of a program in memory, unless one of them has no contents. -/
def loadSegments (bus : Bus) (program : Executable) : Except TestError Bus :=
  program.segments.foldlM
    (fun bus segment =>
      match segment.contents with
      | some contents => .ok (bus.writeBytes segment.physical contents)
      | none => .error .malformedFile)
    bus

/-- A program before its first cycle. -/
def start (program : Executable) (tohost : Word) (verbosity : Nat) :
    Except TestError TestRun := do
  let bus ← (TestLayout.bus tohost).mapError TestError.layout
  let loaded ← loadSegments bus program
  let config := { HartConfig.standard with resetVector := program.entry }
  let hart := (Hart.initial config).resetHard
  pure
    { machine := ⟨hart.value, loaded⟩
      tohost := 0
      log := hart.log.filter fun diagnostic => shows verbosity diagnostic.severity }

/-- Run for one step. The ledger of the bus is not kept. -/
def step (run : TestRun) (address : Word) (verbosity : Nat) : TestRun :=
  let turn := run.machine.run cyclesPerStep
  let (tohost, bus) := TestLayout.readTohost turn.value.bus address
  { machine := ⟨turn.value.hart, bus.forgetAccesses⟩
    tohost := tohost
    log := run.log ++ turn.log.filter fun diagnostic => shows verbosity diagnostic.severity }

/-- Run until `tohost` is set, for a number of steps at most. -/
def steps (address : Word) (verbosity : Nat) : (count : Nat) → TestRun → TestRun
  | 0, run => run
  | count + 1, run =>
    let run := run.step address verbosity
    if run.tohost ≠ 0 then run else steps address verbosity count run

/-- The address of a symbol that a program must have. -/
def findSymbol (program : Executable) (name : String) : Except TestError Word :=
  match program.symbolAddress? name with
  | some address => .ok address
  | none => .error (.missingSymbol name)

/-- Where the signature starts, a multiple of 16, and where it stops, a multiple of 4 not below. -/
def signatureBounds (program : Executable) : Except TestError (Word × Word) := do
  let start ← findSymbol program "begin_signature"
  let stop ← findSymbol program "end_signature"
  if start.toNat % 16 = 0 ∧ stop.toNat % 4 = 0 ∧ start ≤ stop then pure (start, stop)
  else throw .malformedSignature

/-- The words of the signature, one on a line. -/
def signature (run : TestRun) (program : Executable) : Except TestError (List String) := do
  let (start, stop) ← signatureBounds program
  let (words, _) := run.machine.bus.readWords start ((stop - start).toNat / Width.word.bytes)
  pure (words.map fun word => Hex.digits word.toNat 8)

/-- What is said at the end of a run that was given `maxSteps` steps. -/
def closingMessages (run : TestRun) (options : TestOptions) : List String :=
  let shown (severity : Severity) (message : String) : List String :=
    if shows options.verbosity severity then [severity.text ++ " " ++ message] else []
  match Verdict.ofTohost run.tohost with
  | .passed => shown .info s!"passed after {run.machine.hart.mcycle.toNat} cycles"
  | .undecided => shown .warn s!"no result after {options.maxSteps} steps" ++ ["timeout"]
  | .failed code => [s!"failed test {code.toNat}"]

/-- Run the test in a file. -/
def perform (options : TestOptions) (file : FileBytes) : Except TestError TestReport := do
  let program ←
    match Executable.ofBytes? file with
    | some program => pure program
    | none => throw .malformedFile
  let address ← findTohost program
  let fresh ← start program address options.verbosity
  let run := fresh.steps address options.verbosity options.maxSteps
  let signature ← if options.signature then some <$> run.signature program else pure none
  pure
    { verdict := .ofTohost run.tohost
      messages := run.log.toList.map Diagnostic.line ++ run.closingMessages options
      signature }

end TestRun

end Rv32
