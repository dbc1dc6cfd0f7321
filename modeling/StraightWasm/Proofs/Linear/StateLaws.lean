import Mathlib.Logic.Function.Basic
import StraightWasm.Linear.Run

/-!
# The values of operands

Defining a temporary gives the temporary its value, assigning to a local gives the local its value,
and every other operand keeps the value that it had (`Linear.State.value?_define`,
`Linear.State.value?_assign`). A run executes its instructions one after the other and then the
terminator (`Linear.run_eq_bind`).
-/

set_option autoImplicit false
set_option relaxedAutoImplicit false

namespace StraightWasm.Linear

/-! ### Operands -/

namespace State

/-- Defining a temporary changes the value of the temporary only. -/
theorem value?_define (dest : Nat) (value : Int32) (state : State) :
    (state.define dest value).value? =
      Function.update state.value? (.temp dest) (some value) := by
  funext operand
  rw [Function.update_apply]
  cases operand with
  | const constant => rfl
  | slot slot => rfl
  | temp temp => simp [value?, define]

/-- The state after an assignment to a local that exists. -/
theorem assign_eq {slot : Nat} {state : State} (h : slot < state.slots.length) (value : Int32) :
    state.assign slot value = some { state with slots := state.slots.set slot value } :=
  if_pos h

/-- Assigning to a local changes the value of the local only. -/
theorem value?_assign {slot : Nat} {state : State} (h : slot < state.slots.length)
    (value : Int32) :
    ({ state with slots := state.slots.set slot value } : State).value? =
      Function.update state.value? (.slot slot) (some value) := by
  funext operand
  rw [Function.update_apply]
  cases operand with
  | const constant => rfl
  | slot other =>
    simp only [value?, List.getElem?_set, Operand.slot.injEq]
    by_cases hother : other = slot
    · simp [hother, h]
    · simp [hother, Ne.symm hother]
  | temp temp => rfl

end State

/-! ### Sequences of instructions -/

/-- A run executes its instructions and then the terminator. -/
theorem run_eq_bind (terminator : Terminator) (instructions : List Instr) :
    ∀ state : State, run terminator instructions state =
      (instructions.foldlM State.step state).bind (State.finish · terminator) := by
  induction instructions with
  | nil => exact fun state ↦ rfl
  | cons instruction rest ih =>
    intro state
    rw [run, List.foldlM_cons, Option.bind_eq_bind, Option.bind_assoc]
    exact congrArg _ (funext ih)

/-- One more instruction takes the state that the earlier ones reached one step on. -/
theorem foldlM_push {emitted : Array Instr} {first last : State}
    (h : emitted.toList.foldlM State.step first = some last) (instruction : Instr) :
    (emitted.push instruction).toList.foldlM State.step first = last.step instruction := by
  rw [Array.toList_push, List.foldlM_append, h]
  simp

end StraightWasm.Linear
