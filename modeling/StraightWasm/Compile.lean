import StraightWasm.Linear.Lower
import StraightWasm.Listing
import StraightWasm.Machine.Emit
import StraightWasm.Module.Decode

/-!
# Compilation

A binary is decoded to a module, its functions are lowered to linear code, and linear code is turned
into a program. The first diagnostic of any stage ends the compilation and is reported together with
its stage.
-/

set_option autoImplicit false
set_option relaxedAutoImplicit false

namespace StraightWasm

/-- The limits and the choice that a compilation works under. -/
structure Options where
  stackCapacity : Nat := 1024
  registers : Nat := 16
  strategy : Machine.Strategy := .monotonic
  deriving DecidableEq, Repr, Inhabited

/-- The stages of a compilation. -/
inductive Stage where
  | decoding
  | lowering
  | emission
  deriving DecidableEq, Repr

namespace Stage

/-- How the failure of a stage is reported. -/
def message : Stage → String
  | decoding => "failed to decode WebAssembly module"
  | lowering => "failed to lower function bodies"
  | emission => "failed to generate machine code"

end Stage

/-- A diagnostic and the stage where it arose. -/
structure StageFailure where
  stage : Stage
  diagnostic : Diagnostic
  deriving DecidableEq, Repr

namespace StageFailure

/-- The failure in words, the stage first. -/
def message (failure : StageFailure) : String :=
  failure.stage.message ++ ": " ++ failure.diagnostic.message

end StageFailure

/-- What a successful compilation gives: the module, its linear code and its machine code. -/
structure Compiled where
  module : Module
  linear : List Linear.Function
  program : Machine.Program
  deriving DecidableEq, Repr, Inhabited

namespace Compiled

/-- The text of the machine code. -/
def listing (compiled : Compiled) (convert : String → String := Text.snakeCase) : String :=
  Listing.render compiled.module compiled.program convert

end Compiled

/-- Marks the diagnostics of a stage. -/
def Stage.mark {α : Type} (stage : Stage) (result : Except Diagnostic α) :
    Except StageFailure α :=
  result.mapError fun diagnostic ↦ { stage := stage, diagnostic := diagnostic }

/-- Compiles a binary. -/
def compile (options : Options) (bytes : List UInt8) : Except StageFailure Compiled := do
  let module ← Stage.decoding.mark (Module.decode bytes)
  let linear ← Stage.lowering.mark (Linear.ofModule options.stackCapacity module)
  let program ← Stage.emission.mark
    (Machine.Program.ofLinear options.strategy options.registers linear)
  pure { module := module, linear := linear, program := program }

end StraightWasm
