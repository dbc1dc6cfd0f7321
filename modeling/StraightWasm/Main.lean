import StraightWasm.CommandLine.Run

/-!
# The program

Connects the command line to the operating system.
-/

set_option autoImplicit false
set_option relaxedAutoImplicit false

namespace StraightWasm.CommandLine

/-- What the operating system said about a failed access. -/
def FileFault.ofError : IO.Error → FileFault
  | .noFileOrDirectory _ code details
  | .interrupted _ code details
  | .alreadyExists _ code details
  | .invalidArgument _ code details
  | .permissionDenied _ code details
  | .resourceExhausted _ code details
  | .inappropriateType _ code details
  | .noSuchThing _ code details
  | .otherError code details
  | .resourceBusy code details
  | .resourceVanished code details
  | .unsupportedOperation code details
  | .hardwareFault code details
  | .unsatisfiedConstraints code details
  | .illegalOperation code details
  | .protocolError code details
  | .timeExpired code details => { description := details, code := code.toNat }
  | .unexpectedEof => { description := "unexpected end of file", code := 0 }
  | .userError details => { description := details, code := 0 }

/-- Runs an action and turns its failure into a fault. -/
def guarded {α : Type} (action : IO α) : IO (Except FileFault α) := do
  try
    pure (.ok (← action))
  catch failure =>
    pure (.error (.ofError failure))

/-- The operating system as the host of a run. -/
def operatingSystem : Host IO where
  read path := guarded <| IO.FS.withFile path .read fun handle ↦ do
    pure (← handle.readBinToEnd).data.toList
  write path text := guarded <| IO.FS.withFile path .write fun handle ↦ do
    handle.putStr text
    handle.flush
  print text := do (← IO.getStdout).putStr text
  report text := do (← IO.getStderr).putStr text

end StraightWasm.CommandLine

/-- Runs the command line. -/
def main (arguments : List String) : IO UInt32 := do
  let status ← StraightWasm.CommandLine.run StraightWasm.CommandLine.operatingSystem arguments
  pure (UInt32.ofNat status.code)
