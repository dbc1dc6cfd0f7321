import Mathlib.Data.List.Forall2
import StraightWasm.Linear.OperandStack
import StraightWasm.Proofs.Linear.StateLaws

/-!
# Pinning a local

An operand on the stack of a lowering stands for a value: the one that it has in the state that the
instructions emitted so far reach (`Operand.StandsFor`). Before a local gets a new value, the
references to it are replaced by snapshots. The snapshots can be executed, they change no local and
no temporary that was defined before, and the stack that results stands for the same values without
a reference to the local (`OperandStack.pins_pinAll`). The argument follows the walk over the stack,
from the bottom to the top (`OperandStack.Pins.pinOne`).
-/

set_option autoImplicit false
set_option relaxedAutoImplicit false

namespace StraightWasm.Linear

/-! ### What operands stand for -/

namespace Operand

/-- Whether an operand, if it is a temporary, is one below a bound. -/
def Below (bound : Nat) : Operand → Prop
  | .const _ | .slot _ => True
  | .temp index => index < bound

theorem Below.mono {bound bound' : Nat} {operand : Operand} (h : operand.Below bound)
    (hle : bound ≤ bound') : operand.Below bound' := by
  cases operand with
  | const value => exact trivial
  | slot slot => exact trivial
  | temp index => exact Nat.lt_of_lt_of_le h hle

/-- Whether an operand has a value in a state and refers to no temporary from a bound on. -/
structure StandsFor (state : State) (bound : Nat) (operand : Operand) (value : Int32) : Prop where
  value?_eq : state.value? operand = some value
  below : operand.Below bound

variable {state : State} {bound : Nat} {operand : Operand} {value : Int32}

/-- Defining the temporary at the bound leaves everything below it alone. -/
theorem Below.value?_define (h : operand.Below bound) (fresh : Int32) :
    (state.define bound fresh).value? operand = state.value? operand := by
  rw [State.value?_define]
  refine Function.update_of_ne ?_ _ _
  rintro rfl
  exact Nat.lt_irrefl bound h

theorem StandsFor.define (h : operand.StandsFor state bound value) (fresh : Int32) :
    operand.StandsFor (state.define bound fresh) (bound + 1) value := by
  refine ⟨?_, h.below.mono (Nat.le_succ bound)⟩
  rw [h.below.value?_define]
  exact h.value?_eq

/-- A temporary that was just defined stands for its value. -/
theorem standsFor_define (state : State) (bound : Nat) (fresh : Int32) :
    (temp bound).StandsFor (state.define bound fresh) (bound + 1) fresh := by
  refine ⟨?_, Nat.lt_succ_self bound⟩
  rw [State.value?_define, Function.update_self]

/-- Assigning to a local leaves what does not refer to it alone. -/
theorem StandsFor.assign (h : operand.StandsFor state bound value) {slot : Nat}
    (hslot : slot < state.slots.length) (hne : operand ≠ .slot slot) (assigned : Int32) :
    operand.StandsFor { state with slots := state.slots.set slot assigned } bound value := by
  refine ⟨?_, h.below⟩
  rw [State.value?_assign hslot, Function.update_of_ne hne]
  exact h.value?_eq

end Operand

/-! ### The walk over the stack -/

namespace OperandStack

/-- What is known after a walk over a part of a stack that stood for `stack` in the state `earlier`,
where temporaries from `bound` on were unused. The instructions now reach `state`, where the part
stands for the same values without a reference to the local. -/
structure Pins (slot bound : Nat) (first earlier : State) (stack : List Int32) (pinning : Pinning)
    (state : State) : Prop where
  reached : pinning.emitted.toList.foldlM State.step first = some state
  slots : state.slots = earlier.slots
  bound_le : bound ≤ pinning.nextTemp
  /-- What had a value before keeps it. -/
  kept : ∀ operand : Operand, operand.Below bound → state.value? operand = earlier.value? operand
  stands : List.Forall₂
    (fun operand value ↦ operand.StandsFor state pinning.nextTemp value ∧ operand ≠ .slot slot)
    pinning.values stack

variable {bound : Nat} {first earlier : State} {stack : List Int32}

/-- Walking over one more operand. -/
theorem Pins.pinOne {slot : Nat} {state : State} {pinning : Pinning}
    (h : Pins slot bound first earlier stack pinning state) {operand : Operand} {value : Int32}
    (hoperand : operand.StandsFor earlier bound value) :
    ∃ state', Pins slot bound first earlier (value :: stack) (pinOne slot operand pinning)
      state' := by
  have hvalue : state.value? operand = some value :=
    (h.kept operand hoperand.below).trans hoperand.value?_eq
  unfold OperandStack.pinOne
  split_ifs with heq
  · subst heq
    refine ⟨state.define pinning.nextTemp value, ?_, h.slots, ?_, ?_, ?_⟩
    · rw [foldlM_push h.reached, State.step, hvalue]
      rfl
    · exact Nat.le_succ_of_le h.bound_le
    · intro other hother
      rw [(hother.mono h.bound_le).value?_define]
      exact h.kept other hother
    · refine .cons ⟨Operand.standsFor_define state _ value, by simp⟩ (h.stands.imp ?_)
      exact fun other word hother ↦ ⟨hother.1.define value, hother.2⟩
  · refine ⟨state, h.reached, h.slots, h.bound_le, h.kept, .cons ⟨⟨hvalue, ?_⟩, heq⟩ h.stands⟩
    exact hoperand.below.mono h.bound_le

/-- Pinning a local keeps what the stack stands for. -/
theorem pins_pinAll (slot : Nat) {emitted : Array Instr}
    (hreached : emitted.toList.foldlM State.step first = some earlier) {values : List Operand}
    (hstands : List.Forall₂ (Operand.StandsFor earlier bound) values stack) :
    ∃ state, Pins slot bound first earlier stack (pinAll slot bound emitted values) state := by
  induction hstands with
  | nil => exact ⟨earlier, hreached, rfl, Nat.le_refl bound, fun _ _ ↦ rfl, .nil⟩
  | cons hoperand hbelow ih =>
    obtain ⟨state, hstate⟩ := ih
    exact hstate.pinOne hoperand

end OperandStack

end StraightWasm.Linear
