import StraightWasm.Linear.OperandStack
import StraightWasm.StackCode.Scan

/-!
# Lowering stack code to linear code

Lowering runs the operand stack symbolically: a constant or a local that is pushed becomes an
operand, and only additions and assignments become instructions. Before a local gets a new value,
every reference to it that is still on the stack is replaced by a snapshot, so that the stack keeps
the value that was read.

The state of a lowering survives from one function to the next, also after a failure; a function
starts by setting it anew.
-/

set_option autoImplicit false
set_option relaxedAutoImplicit false

namespace StraightWasm.Linear

open StackCode (Located)

/-- The state of a lowering: the function that is lowered, the operand stack, the instructions
emitted so far, the next unused temporary, how many locals there are, and whether the rest of the
body is dead. -/
structure Builder where
  function : Nat
  stack : OperandStack
  emitted : Array Instr
  nextTemp : Nat
  slotCount : Nat
  dead : Bool

namespace Builder

/-- The state before the first function. -/
def ofCapacity (capacity : Nat) : Builder where
  function := 0
  stack := .empty capacity
  emitted := #[]
  nextTemp := 0
  slotCount := 0
  dead := false

/-- Replaces the references to a local on the stack by snapshots. -/
def pin (slot : Nat) (builder : Builder) : Builder :=
  let pinning :=
    OperandStack.pinAll slot builder.nextTemp builder.emitted builder.stack.values
  { builder with
    stack :=
      { capacity := builder.stack.capacity
        depth := builder.stack.depth
        values := pinning.values
        length_values := by simp [pinning, builder.stack.length_values]
        depth_le := builder.stack.depth_le }
    emitted := pinning.emitted
    nextTemp := pinning.nextTemp }

end Builder

/-- A computation on the state of a lowering that may fail. -/
abbrev Lowering (α : Type) : Type := EStateM Diagnostic Builder α

namespace Lowering

/-- Turns to a function. Nothing is left of the previous one but how many locals it had. -/
def enter (function : Nat) : Lowering Unit :=
  modify fun builder ↦
    { builder with
      function := function
      stack := builder.stack.clear
      emitted := #[]
      nextTemp := 0
      dead := false }

/-- Notes how many locals the function has, whose code stands at `place`. They have to be countable
in 32 bits. -/
def countSlots (place count : Nat) : Lowering Unit :=
  if count < UInt32.size then modify fun builder ↦ { builder with slotCount := count }
  else throw (.malformed place .uncountableLocals)

/-- Runs an action unless the code is dead. -/
def whenLive (action : Lowering Unit) : Lowering Unit := fun builder ↦
  if builder.dead then .ok () builder else action builder

/-- Pushes an operand for the instruction at `place`. -/
def push (place : Nat) (operand : Operand) : Lowering Unit := fun builder ↦
  match builder.stack.push operand with
  | .ok stack => .ok () { builder with stack := stack }
  | .error _ => .error (.stackOverflow builder.function place builder.stack.capacity) builder

/-- Pops an operand for the instruction at `place`. -/
def pop (place : Nat) : Lowering Operand := fun builder ↦
  match builder.stack.pop? with
  | some (top, below) => .ok top { builder with stack := below }
  | none => .error (.stackUnderflow builder.function place) builder

/-- Emits an instruction. -/
def emit (instruction : Instr) : Lowering Unit :=
  modify fun builder ↦ { builder with emitted := builder.emitted.push instruction }

/-- A temporary that was not used before. -/
def newTemp : Lowering Nat :=
  modifyGet fun builder ↦ (builder.nextTemp, { builder with nextTemp := builder.nextTemp + 1 })

/-- Replaces the references to a local on the stack by snapshots. -/
def pin (slot : Nat) : Lowering Unit :=
  modify (Builder.pin slot)

/-- Insists that the function has the local that the instruction at `place` names. -/
def checkSlot (place slot : Nat) : Lowering Unit := fun builder ↦
  if slot < builder.slotCount then .ok () builder
  else .error (.malformed place (.localIndex slot builder.function builder.slotCount)) builder

/-- Pops a value and assigns it to a local. -/
def assign (place slot : Nat) : Lowering Unit := do
  let value ← pop place
  pin slot
  emit (.assign slot value)

/-- Lowers one instruction. The local that it names is checked in dead code, too. -/
def step (located : Located) : Lowering Unit :=
  let place := located.offset
  match located.instruction with
  | .nop => pure ()
  | .unreachable => modify fun builder ↦ { builder with dead := true, stack := builder.stack.clear }
  | .const value => whenLive (push place (.const value))
  | .localGet slot => do
    checkSlot place slot
    whenLive (push place (.slot slot))
  | .localSet slot => do
    checkSlot place slot
    whenLive (assign place slot)
  | .localTee slot => do
    checkSlot place slot
    whenLive do
      assign place slot
      push place (.slot slot)
  | .add => whenLive do
    let rhs ← pop place
    let lhs ← pop place
    let dest ← newTemp
    emit (.add dest lhs rhs)
    push place (.temp dest)

/-- The terminator of a body that ends at `place`. A live body leaves at most one value. -/
def terminator (place : Nat) : Lowering Terminator := fun builder ↦
  if builder.dead then .ok .trap builder
  else
    match builder.stack.pop? with
    | none => .ok (.ret none) builder
    | some (top, below) =>
      let popped := { builder with stack := below }
      if below.depth = 0 then .ok (.ret (some top)) popped
      else .error (.malformed place (.valuesLeft below.depth builder.function)) popped

/-- Insists that nothing follows the `end` of a body and gives the terminator. -/
def close (ending : Except Diagnostic Span) : Lowering Terminator :=
  match ending with
  | .error failure => throw failure
  | .ok behind =>
    if behind.isEmpty then terminator behind.offset
    else do
      let builder ← get
      throw (.malformed behind.offset (.trailingBytes behind.length builder.function))

/-- Takes the instructions out of the builder. -/
def takeEmitted : Lowering (Array Instr) :=
  modifyGet fun builder ↦ (builder.emitted, { builder with emitted := #[] })

end Lowering

/-- A function as a module defines it: its position, the index of its type, and that type. -/
structure Definition where
  index : Nat
  typeIndex : Nat
  signature : Signature
  body : Body
  deriving DecidableEq, Repr

namespace Definition

/-- How many locals a definition has, parameters included. -/
def slotCount (definition : Definition) : Nat :=
  definition.signature.params.length + definition.body.locals.length

/-- Lowers one function. -/
def lower (definition : Definition) : Lowering Function := do
  Lowering.enter definition.index
  Lowering.countSlots definition.body.codeOffset definition.slotCount
  let scan := StackCode.scan definition.index definition.body
  scan.instructions.forM Lowering.step
  let terminator ← Lowering.close scan.ending
  let emitted ← Lowering.takeEmitted
  let builder ← get
  pure
    { index := definition.index
      typeIndex := definition.typeIndex
      params := definition.signature.params
      locals := definition.body.locals
      result := definition.signature.result
      instructions := emitted.toList
      terminator := terminator
      tempCount := builder.nextTemp }

end Definition

/-- Lowers the function at `index`, whose type has to be declared. -/
def lowerEntry (types : List Signature) (index typeIndex : Nat) (body : Body) :
    Lowering Function :=
  match types[typeIndex]? with
  | some signature =>
    Definition.lower
      { index := index, typeIndex := typeIndex, signature := signature, body := body }
  | none => throw (.malformed body.codeOffset (.undeclaredType index typeIndex types.length))

/-- Lowers the functions of a module in order. -/
def lowerModule (module : Module) : Lowering (List Function) :=
  (module.functions.zip module.bodies).zipIdx.mapM fun ((typeIndex, body), index) ↦
    lowerEntry module.types index typeIndex body

/-- The linear code of a module, with an operand stack of the given capacity. -/
def ofModule (capacity : Nat) (module : Module) : Except Diagnostic (List Function) :=
  match lowerModule module (.ofCapacity capacity) with
  | .ok functions _ => .ok functions
  | .error failure _ => .error failure

end StraightWasm.Linear
