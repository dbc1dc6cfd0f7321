import StraightWasm.Linear.Basic

/-!
# The operand stack

A stack of operands that holds at most a fixed number of them. The depth is kept beside the
operands, so that it need not be counted; that it is their number and stays within the capacity is
part of the type.
-/

set_option autoImplicit false
set_option relaxedAutoImplicit false

namespace StraightWasm.Linear

/-- A bounded stack of operands, the top one first. -/
structure OperandStack where
  capacity : Nat
  depth : Nat
  values : List Operand
  length_values : values.length = depth
  depth_le : depth ≤ capacity

namespace OperandStack

/-- The empty stack of a capacity. -/
def empty (capacity : Nat) : OperandStack where
  capacity := capacity
  depth := 0
  values := []
  length_values := rfl
  depth_le := Nat.zero_le capacity

/-- Puts an operand on top. A full stack hands the operand back. -/
def push (operand : Operand) (stack : OperandStack) : Except Operand OperandStack :=
  if room : stack.depth < stack.capacity then
    .ok
      { capacity := stack.capacity
        depth := stack.depth + 1
        values := operand :: stack.values
        length_values := by simp [stack.length_values]
        depth_le := room }
  else .error operand

/-- The top operand and the stack below it, unless the stack is empty. -/
def pop? (stack : OperandStack) : Option (Operand × OperandStack) :=
  match stack with
  | { values := [], .. } => none
  | { capacity, depth, values := top :: below, length_values, depth_le } =>
    some
      (top,
        { capacity := capacity
          depth := depth - 1
          values := below
          length_values := by rw [← length_values, List.length_cons, Nat.add_sub_cancel]
          depth_le := Nat.le_trans (Nat.sub_le depth 1) depth_le })

/-- Drops all operands. -/
def clear (stack : OperandStack) : OperandStack :=
  empty stack.capacity

/-! ### Snapshots -/

/-- The state of a walk over a stack that replaces the references to a local: the operands walked
over, the next unused temporary, and the instructions that define the temporaries. -/
structure Pinning where
  values : List Operand
  nextTemp : Nat
  emitted : Array Instr

/-- Walks over one operand. A reference to the local becomes a new temporary, and an instruction
that copies the local into it is emitted. -/
def pinOne (slot : Nat) (operand : Operand) (pinning : Pinning) : Pinning :=
  if operand = .slot slot then
    { values := .temp pinning.nextTemp :: pinning.values
      nextTemp := pinning.nextTemp + 1
      emitted := pinning.emitted.push (.snapshot pinning.nextTemp slot) }
  else { pinning with values := operand :: pinning.values }

/-- Replaces every reference to a local by a temporary of its own, from the bottom of the stack to
the top. -/
def pinAll (slot nextTemp : Nat) (emitted : Array Instr) (values : List Operand) : Pinning :=
  values.foldr (pinOne slot) { values := [], nextTemp := nextTemp, emitted := emitted }

@[simp] theorem length_values_pinOne (slot : Nat) (operand : Operand) (pinning : Pinning) :
    (pinOne slot operand pinning).values.length = pinning.values.length + 1 := by
  unfold pinOne
  split <;> simp

@[simp] theorem length_values_pinAll (slot nextTemp : Nat) (emitted : Array Instr)
    (values : List Operand) :
    (pinAll slot nextTemp emitted values).values.length = values.length := by
  induction values with
  | nil => rfl
  | cons operand below ih => simpa [pinAll] using ih

end OperandStack

end StraightWasm.Linear
