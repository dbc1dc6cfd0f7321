import StraightWasm.CommandLine.Arguments
import StraightWasm.CommandLine.Host

/-!
# Running the command line

What a run prints and how it ends, on any host. Progress and failures go to the error stream, and
the listing goes to the output stream unless a file is named for it.
-/

set_option autoImplicit false
set_option relaxedAutoImplicit false

namespace StraightWasm.CommandLine

/-- How a run ended. -/
inductive ExitStatus where
  | success
  | failure
  /-- The arguments could not be understood. -/
  | misuse
  deriving DecidableEq, Repr

/-- The number that tells the caller how a run ended. -/
def ExitStatus.code : ExitStatus → Nat
  | success => 0
  | failure => 1
  | misuse => 2

/-- The name of the program and its version. -/
def versionLine : String := "wasmaot 0.1.0"

/-- How the program is called. -/
def usage : String :=
  String.join
    ["Usage: wasmaot [OPTIONS] <INPUT>\n",
      "\n",
      "  -o, --output <PATH>           listing file, standard output when omitted\n",
      "      --stack-capacity <COUNT>  operand stack capacity per function, 1024 by default\n",
      "      --registers <COUNT>       number of registers, 16 by default\n",
      "      --allocator <STRATEGY>    monotonic, the default, or free-list\n",
      "  -h, --help                    print this text\n",
      "  -V, --version                 print the version\n"]

/-- A line of the error stream. -/
def progress (text : String) : String :=
  "wasmaot: " ++ text ++ "\n"

/-- The causes of a failure. A single cause is not numbered. -/
def causeLines : List String → List String
  | [cause] => ["    " ++ cause ++ "\n"]
  | causes => causes.zipIdx.map fun (cause, position) ↦
      "    " ++ toString position ++ ": " ++ cause ++ "\n"

/-- A failure and its causes, from the outermost to the innermost. -/
def failureText (summary : String) (causes : List String) : String :=
  "Error: " ++ summary ++ "\n\nCaused by:\n" ++ String.join (causeLines causes)

/-- The line that counts what was compiled. -/
def summaryLine (compiled : Compiled) : String :=
  let functions := compiled.program.functions.size
  let instructions := compiled.program.instructions.size
  progress s!"compiled {functions} function(s), {instructions} instruction(s)"

variable {m : Type → Type} [Monad m]

/-- Reports a failure and ends the run. -/
def fail (host : Host m) (summary : String) (causes : List String) : m ExitStatus := do
  host.report (failureText summary causes)
  pure .failure

/-- Delivers a listing and ends the run. -/
def deliver (host : Host m) (listing : String) : Option String → m ExitStatus
  | none => do
    host.print listing
    pure .success
  | some path => do
    match ← host.write path listing with
    | .ok () =>
      host.report (progress ("wrote " ++ path))
      pure .success
    | .error fault => fail host ("failed to write " ++ path) [fault.message]

/-- Compiles a file. -/
def compileFile (host : Host m) (invocation : Invocation) : m ExitStatus := do
  host.report (progress ("compiling " ++ invocation.input))
  match ← host.read invocation.input with
  | .error fault => fail host ("failed to read " ++ invocation.input) [fault.message]
  | .ok bytes =>
    match compile invocation.options bytes with
    | .error failure =>
      fail host "compilation failed" [failure.stage.message, failure.diagnostic.message]
    | .ok compiled =>
      host.report (summaryLine compiled)
      deliver host compiled.listing invocation.output

/-- Does what the arguments ask for. -/
def run (host : Host m) (arguments : List String) : m ExitStatus :=
  match parse arguments with
  | .error fault => do
    host.report ("error: " ++ fault.message ++ "\n\n" ++ usage)
    pure .misuse
  | .ok .version => do
    host.print (versionLine ++ "\n")
    pure .success
  | .ok .help => do
    host.print usage
    pure .success
  | .ok (.compile invocation) => compileFile host invocation

end StraightWasm.CommandLine
