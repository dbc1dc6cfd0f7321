import StraightWasm.Outcome
import StraightWasm.StackCode.Scan

/-!
# Running stack code

The stack machine: locals and an operand stack of 32-bit words. A run is stuck when an instruction
lacks an operand or names a local that does not exist; stuck runs have no outcome.
-/

set_option autoImplicit false
set_option relaxedAutoImplicit false

namespace StraightWasm.StackCode

/-- The locals, parameters first, and the operand stack, the top first. -/
structure State where
  locals : List Int32
  stack : List Int32
  deriving DecidableEq, Repr

namespace State

/-- The state at the start of a call: the arguments, a zero for each declared local, and no
operands. -/
def start (arguments : List Int32) (declared : Nat) : State where
  locals := arguments ++ List.replicate declared 0
  stack := []

/-- Gives a local a new value. -/
def assign (slot : Nat) (value : Int32) (state : State) : Option State :=
  if slot < state.locals.length then some { state with locals := state.locals.set slot value }
  else none

/-- Executes an instruction other than `unreachable`. -/
def step (state : State) : Instruction → Option State
  | .unreachable => none
  | .nop => some state
  | .const value => some { state with stack := value :: state.stack }
  | .localGet slot =>
    state.locals[slot]?.map fun value ↦ { state with stack := value :: state.stack }
  | .localSet slot =>
    match state.stack with
    | top :: below => assign slot top { state with stack := below }
    | [] => none
  | .localTee slot =>
    match state.stack with
    | top :: _ => assign slot top state
    | [] => none
  | .add =>
    match state.stack with
    | rhs :: lhs :: below => some { state with stack := (lhs + rhs) :: below }
    | _ => none

end State

/-- Runs the instructions in front of the `end` of a body, to a trap or to that `end`. -/
def run : List Instruction → State → Option Outcome
  | [], state => some (.returned state.stack.head?)
  | .unreachable :: _, _ => some .trapped
  | instruction :: rest, state => (state.step instruction).bind (run rest)

end StraightWasm.StackCode
