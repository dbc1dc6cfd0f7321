/-!
# Machine code

The target is a register machine whose two-operand addition overwrites its left operand. Registers
are numbered from zero.
-/

set_option autoImplicit false
set_option relaxedAutoImplicit false

namespace StraightWasm.Machine

/-- The name of a register. -/
def registerName (register : Nat) : String :=
  "r" ++ toString register

/-- One machine instruction. -/
inductive Instr where
  /-- Puts a constant into a register. -/
  | load (dest : Nat) (value : Int32)
  /-- Copies a register. -/
  | move (dest source : Nat)
  /-- Adds a register to another one, modulo 2^32. -/
  | add (dest source : Nat)
  /-- Returns the contents of a register. -/
  | ret (source : Nat)
  /-- Traps. -/
  | trap
  deriving DecidableEq, Repr, Inhabited

namespace Instr

/-- The register that an instruction writes, if any. -/
def dest? : Instr → Option Nat
  | load dest _ => some dest
  | move dest _ => some dest
  | add dest _ => some dest
  | ret _ => none
  | trap => none

/-- The registers that an instruction reads, from left to right. -/
def sources : Instr → List Nat
  | load _ _ => []
  | move _ source => [source]
  | add dest source => [dest, source]
  | ret source => [source]
  | trap => []

/-- The instruction in assembly text. -/
def text : Instr → String
  | load dest value => "mov " ++ registerName dest ++ ", " ++ toString value.toInt
  | move dest source => "mov " ++ registerName dest ++ ", " ++ registerName source
  | add dest source => "add " ++ registerName dest ++ ", " ++ registerName source
  | ret source => "ret " ++ registerName source
  | trap => "ud2"

end Instr

end StraightWasm.Machine
