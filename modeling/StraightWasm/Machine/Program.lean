import StraightWasm.Machine.Basic

/-!
# Programs

The machine code of a module: all instructions in one sequence, and for each function where its
part of the sequence lies and how many registers it touches.
-/

set_option autoImplicit false
set_option relaxedAutoImplicit false

namespace StraightWasm.Machine

/-- Where the code of a function lies: from `start` up to, but not including, `stop`. -/
structure FunctionRecord where
  index : Nat
  start : Nat
  stop : Nat
  registerCount : Nat
  deriving DecidableEq, Repr, Inhabited

/-- The machine code of a module. -/
structure Program where
  instructions : Array Instr := #[]
  functions : Array FunctionRecord := #[]
  deriving DecidableEq, Repr, Inhabited

namespace Program

/-- Appends the code of a function. -/
def push (index registerCount : Nat) (code : List Instr) (program : Program) : Program where
  instructions := program.instructions ++ code
  functions :=
    program.functions.push
      { index := index
        start := program.instructions.size
        stop := program.instructions.size + code.length
        registerCount := registerCount }

/-- The code that a record points to. -/
def codeOf (program : Program) (record : FunctionRecord) : List Instr :=
  (program.instructions.extract record.start record.stop).toList

/-- The code of the first function with an index. -/
def function? (program : Program) (index : Nat) : Option (List Instr) :=
  (program.functions.find? fun record ↦ record.index = index).map program.codeOf

end Program

end StraightWasm.Machine
