import StraightWasm.Machine.Basic
import StraightWasm.Outcome

/-!
# Running machine code

Machine code runs on registers, each of which holds a 32-bit word from the start. A run that goes
past the last instruction is stuck; stuck runs have no outcome.
-/

set_option autoImplicit false
set_option relaxedAutoImplicit false

namespace StraightWasm.Machine

/-- The contents of all registers. -/
abbrev Registers : Type := Nat → Int32

namespace Registers

/-- The arguments in the first registers, and in all others what was there before. -/
def start (arguments : List Int32) (leftover : Registers) : Registers := fun register ↦
  arguments[register]?.getD (leftover register)

/-- Gives a register a new value. -/
def write (dest : Nat) (value : Int32) (registers : Registers) : Registers := fun register ↦
  if register = dest then value else registers register

end Registers

/-- Runs instructions to the first return or trap. -/
def run : List Instr → Registers → Option Outcome
  | [], _ => none
  | .load dest value :: rest, registers => run rest (registers.write dest value)
  | .move dest source :: rest, registers => run rest (registers.write dest (registers source))
  | .add dest source :: rest, registers =>
    run rest (registers.write dest (registers dest + registers source))
  | .ret source :: _, registers => some (.returned (some (registers source)))
  | .trap :: _, _ => some .trapped

end StraightWasm.Machine
