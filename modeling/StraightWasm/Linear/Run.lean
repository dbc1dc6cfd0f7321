import StraightWasm.Linear.Basic
import StraightWasm.Outcome

/-!
# Running linear code

Linear code runs on locals and temporaries. A reference to a local reads what the local holds when
the instruction is executed. A run is stuck when it reads a temporary that was never defined or
names a local that does not exist; stuck runs have no outcome.
-/

set_option autoImplicit false
set_option relaxedAutoImplicit false

namespace StraightWasm.Linear

/-- The locals, parameters first, and the temporaries that have been defined. -/
structure State where
  slots : List Int32
  temps : Nat → Option Int32

namespace State

/-- The state at the start of a call: the arguments, a zero for each declared local, and no
temporaries. -/
def start (arguments : List Int32) (declared : Nat) : State where
  slots := arguments ++ List.replicate declared 0
  temps := fun _ ↦ none

/-- The value of an operand. -/
def value? (state : State) : Operand → Option Int32
  | .const value => some value
  | .slot index => state.slots[index]?
  | .temp index => state.temps index

/-- Defines a temporary. -/
def define (dest : Nat) (value : Int32) (state : State) : State :=
  { state with temps := fun index ↦ if index = dest then some value else state.temps index }

/-- Gives a local a new value. -/
def assign (slot : Nat) (value : Int32) (state : State) : Option State :=
  if slot < state.slots.length then some { state with slots := state.slots.set slot value }
  else none

/-- Executes an instruction. -/
def step (state : State) : Instr → Option State
  | .snapshot dest slot => do
    let value ← state.value? (.slot slot)
    pure (state.define dest value)
  | .assign slot operand => do
    let value ← state.value? operand
    state.assign slot value
  | .add dest lhs rhs => do
    let left ← state.value? lhs
    let right ← state.value? rhs
    pure (state.define dest (left + right))

/-- How a terminator ends a run. -/
def finish (state : State) : Terminator → Option Outcome
  | .ret (some operand) => (state.value? operand).map fun value ↦ .returned (some value)
  | .ret none => some (.returned none)
  | .trap => some .trapped

end State

/-- Runs instructions and then a terminator. -/
def run (terminator : Terminator) : List Instr → State → Option Outcome
  | [], state => state.finish terminator
  | instruction :: rest, state => (state.step instruction).bind (run terminator rest)

/-- The outcome of a function on given arguments. -/
def Function.outcome (function : Function) (arguments : List Int32) : Option Outcome :=
  run function.terminator function.instructions (.start arguments function.locals.length)

end StraightWasm.Linear
