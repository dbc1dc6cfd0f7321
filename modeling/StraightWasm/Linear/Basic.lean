import StraightWasm.Module.Basic

/-!
# Linear code

The form between stack code and machine code. The operand stack is gone: an operand is a constant, a
reference to a local, or a temporary that an earlier instruction defined. A function is a straight
sequence of instructions and a terminator.
-/

set_option autoImplicit false
set_option relaxedAutoImplicit false

namespace StraightWasm.Linear

/-- Where a value comes from. -/
inductive Operand where
  /-- A constant. -/
  | const (value : Int32)
  /-- The contents of a local at the moment of use. -/
  | slot (index : Nat)
  /-- The value of a temporary. -/
  | temp (index : Nat)
  deriving DecidableEq, Repr, Inhabited

namespace Operand

/-- The operand in words. -/
def text : Operand → String
  | const value => toString value.toInt
  | slot index => s!"l{index}"
  | temp index => s!"v{index}"

end Operand

/-- One operation. -/
inductive Instr where
  /-- Copies the contents of a local into a temporary. -/
  | snapshot (dest slot : Nat)
  /-- Gives a local a new value. -/
  | assign (slot : Nat) (value : Operand)
  /-- Puts the sum of two operands into a temporary. -/
  | add (dest : Nat) (lhs rhs : Operand)
  deriving DecidableEq, Repr, Inhabited

namespace Instr

/-- The temporary that an instruction defines, if any. -/
def dest? : Instr → Option Nat
  | snapshot dest _ => some dest
  | assign _ _ => none
  | add dest _ _ => some dest

/-- The operands that an instruction reads, from left to right. -/
def operands : Instr → List Operand
  | snapshot _ slot => [.slot slot]
  | assign _ value => [value]
  | add _ lhs rhs => [lhs, rhs]

/-- The instruction in words. -/
def text : Instr → String
  | snapshot dest slot => s!"v{dest} = get l{slot}"
  | assign slot value =>
    let source := value.text
    s!"set l{slot}, {source}"
  | add dest lhs rhs =>
    let left := lhs.text
    let right := rhs.text
    s!"v{dest} = add {left}, {right}"

end Instr

/-- How a function ends. -/
inductive Terminator where
  /-- It returns a value; none when the operand stack was empty. -/
  | ret (value : Option Operand)
  /-- It traps. -/
  | trap
  deriving DecidableEq, Repr, Inhabited

/-- The linear code of a function. The parameters are the first locals, and the declared `locals`
follow them. -/
structure Function where
  index : Nat
  typeIndex : Nat
  params : List ValueType
  locals : List ValueType
  result : ValueType
  instructions : List Instr
  terminator : Terminator
  tempCount : Nat
  deriving DecidableEq, Repr, Inhabited

namespace Function

/-- How many locals there are, parameters included. -/
def slotCount (function : Function) : Nat :=
  function.params.length + function.locals.length

/-- The type of a local, parameters included. -/
def slotType? (function : Function) (slot : Nat) : Option ValueType :=
  (function.params ++ function.locals)[slot]?

end Function

/-- What every step of an emission needs to know of the function: its index, for diagnostics, and
how many locals it has. -/
structure Frame where
  function : Nat
  slotCount : Nat
  deriving DecidableEq, Repr

end StraightWasm.Linear
