import XmlBinding.CommandLine.Files
import XmlBinding.Report

/-!
# The command line

The program maps one document from a file or from standard input and prints a report. This module
reads the arguments and makes the answer; how files are read and time is taken is left to the
surroundings.
-/
namespace XmlBinding.CommandLine

structure Outcome where
  code : Nat
  output : String := ""
  errors : String := ""

structure Config where
  /-- The file to read; `none` and `-` stand for standard input. -/
  path : Option String := none
  options : Options := {}
  color : Bool := false

inductive Request
  | help
  | version
  | report (config : Config)

inductive UsageError
  | unknownOption (arg : String)
  | twoInputs
  | unreadableFile (path : String) (cause : ReadError)
  | unreadableInput (cause : ReadError)
  | noInput

def versionText : String := "digester 0.1.0"

def helpText : String := versionText ++ "

Maps an XML document onto a generic object tree and reports what fired.

Usage:
  digester [OPTIONS] [FILE]

  Reads stdin when FILE is omitted or '-'.

Options:
  --no-namespaces            Keep prefixed names, do not resolve namespaces.
  --raw-text                 Store body text untrimmed.
  --color                    Force ANSI color output.
  --no-color                 Disable ANSI color output.
  -h, --help                 Show this help message.
  -V, --version              Print version information.

Exit codes:
  0  Success.
  1  The document could not be mapped.
  2  Invalid arguments or missing input.
"

def UsageError.message : UsageError → String
  | .unknownOption arg => "error: unknown option '" ++ arg ++ "'"
  | .twoInputs => "error: input provided multiple times"
  | .unreadableFile path cause => "error: cannot read '" ++ path ++ "': " ++ cause.message
  | .unreadableInput cause => "error: failed to read stdin: " ++ cause.message
  | .noInput => "error: no input provided\n\n" ++ helpText

/-- Name the input, which may be named only once. -/
def Config.setPath (c : Config) (path : String) : Except UsageError Config :=
  match c.path with
  | some _ => .error .twoInputs
  | none => .ok { c with path := some path }

/-- Read the arguments from left to right. Behind `--` stands at most one input; what follows it is
not looked at. -/
def readArgs (c : Config) : List String → Except UsageError Request
  | [] => .ok (.report c)
  | arg :: rest =>
    if arg = "-h" ∨ arg = "--help" then .ok .help
    else if arg = "-V" ∨ arg = "--version" then .ok .version
    else if arg = "--color" then readArgs { c with color := true } rest
    else if arg = "--no-color" then readArgs { c with color := false } rest
    else if arg = "--no-namespaces" then
      readArgs { c with options := { c.options with namespaceAware := false } } rest
    else if arg = "--raw-text" then
      readArgs { c with options := { c.options with trimText := false } } rest
    else if arg = "--" then
      match rest with
      | [] => .ok (.report c)
      | path :: _ => (c.setPath path).map .report
    else if arg ≠ "-" ∧ arg.toList.head? = some '-' then .error (.unknownOption arg)
    else match c.setPath arg with
      | .ok c => readArgs c rest
      | .error e => .error e

/-- Where the program runs: whether its output is shown on a terminal, a way to read the input, which
can fail, and a way to take the time of the mapping. -/
structure Surroundings (m : Type → Type) where
  terminal : Bool := false
  input : m (Except ReadError String)
  contentOf : String → m (Except ReadError String)
  timed : (Unit → Except (Halt BindError) Generic.Summary) →
    m (Except (Halt BindError) Generic.Summary × String)

variable {m : Type → Type} [Monad m]

/-- The document and the name it has in the report. -/
def readDocument (s : Surroundings m) (c : Config) : m (Except UsageError (String × String)) := do
  let input ← match c.path with
    | some path =>
      if path = "-" then (·.mapError .unreadableInput) <$> s.input
      else (·.mapError (.unreadableFile path)) <$> s.contentOf path
    | none => (·.mapError .unreadableInput) <$> s.input
  let label := match c.path with
    | some path => if path = "-" then "<stdin>" else path
    | none => "<stdin>"
  return match input with
    | .ok text => if Text.isAllBlank text then .error .noInput else .ok (text, label)
    | .error e => .error e

/-- The answer to arguments or an input that cannot be used. -/
def refusal (e : UsageError) : Outcome := { code := 2, errors := e.message ++ "\n" }

/-- The answer to a document, given what became of it. -/
def answer (color : Bool) (label elapsed : String) :
    Except (Halt BindError) Generic.Summary → Outcome
  | .ok summary =>
    { code := 0
      output := String.join ((Report.lines color label elapsed summary).map (· ++ "\n")) }
  | .error (.error cause) => { code := 1, errors := "error: " ++ cause.message ++ "\n" }
  | .error .crash => { code := 101 }

def report (s : Surroundings m) (c : Config) (text label : String) : m Outcome := do
  let (result, elapsed) ← s.timed fun () => Generic.runVerbose c.options text
  return answer c.color label elapsed result

/-- The whole program. Where no option says otherwise, a terminal gets colours. -/
def run (s : Surroundings m) (args : List String) : m Outcome := do
  match readArgs { color := s.terminal } args with
  | .error e => return refusal e
  | .ok .help => return { code := 0, output := helpText ++ "\n" }
  | .ok .version => return { code := 0, output := versionText ++ "\n" }
  | .ok (.report c) =>
    match ← readDocument s c with
    | .error e => return refusal e
    | .ok (text, label) => report s c text label

end XmlBinding.CommandLine
