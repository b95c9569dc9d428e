import XmlBinding.CommandLine
import XmlBinding.Duration

/-!
# The program

Standard input, files, the clock and the exit code. Everything else is decided by the command line.
-/
namespace XmlBinding.Program

def decode (bytes : ByteArray) : Except CommandLine.ReadError String :=
  match String.fromUTF8? bytes with
  | some text => .ok text
  | none => .error .notText

/-- Why the operating system does not give a file. Reading a directory fails with its number as it
is, looking for a file behind a file with the number negated. -/
def cause : IO.Error → CommandLine.ReadError
  | .noFileOrDirectory .. => .missing
  | .permissionDenied .. => .denied
  | .inappropriateType _ number _ => if number = 21 then .isDirectory else .notDirectory
  | .invalidArgument .. => .nameTooLong
  | failure => .other (toString failure)

/-- The computer that the program runs on. -/
def surroundings (terminal : Bool) : CommandLine.Surroundings IO where
  terminal := terminal
  input := do return decode (← (← IO.getStdin).readBinToEnd)
  contentOf path := do
    match ← (IO.FS.readBinFile path).toBaseIO with
    | .ok bytes => return decode bytes
    | .error e => return .error (cause e)
  timed work := do
    let before ← IO.monoNanosNow
    let result := work ()
    let after ← match result with
      | .ok _ => IO.monoNanosNow
      | .error _ => IO.monoNanosNow
    return (result, Duration.render (after - before))

end XmlBinding.Program

open XmlBinding in
def main (args : List String) : IO UInt32 := do
  let terminal ← (← IO.getStdout).isTty
  let outcome ← CommandLine.run (Program.surroundings terminal) args
  (← IO.getStdout).putStr outcome.output
  (← IO.getStderr).putStr outcome.errors
  return outcome.code.toUInt32
