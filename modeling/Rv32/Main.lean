import Rv32.CommandLine

/-!
# The command line

Runs the test program in a file and ends with the status of its verdict.
-/

namespace Rv32

/-- Print a text on the error stream and end with the status of a failure. -/
def refuse (text : String) : IO UInt32 := do
  IO.eprintln text
  return 1

/-- Run the program in a file, write its signature if that is asked for, and print the messages. -/
def runTest (line : CommandLine) (path : String) : IO UInt32 := do
  let contents ← IO.FS.readBinFile path
  match TestRun.perform line.options (contents.data.map UInt8.toBitVec) with
  | .error error => refuse ("Error: " ++ error.message)
  | .ok report =>
    match line.signatureFile, report.signature with
    | some target, some lines => IO.FS.writeFile target (String.join (lines.map (· ++ "\n")))
    | _, _ => pure ()
    report.messages.forM fun message => IO.eprintln message
    return UInt32.ofNat report.verdict.exitCode

end Rv32

/-- Read the arguments and run the program that they name. -/
def main (arguments : List String) : IO UInt32 :=
  match Rv32.CommandLine.ofArguments? arguments with
  | none => Rv32.refuse Rv32.CommandLine.usage
  | some line =>
    match line.program with
    | some path => Rv32.runTest line path
    | none => Rv32.refuse Rv32.CommandLine.usage
