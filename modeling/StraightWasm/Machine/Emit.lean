import Std.Data.TreeMap
import StraightWasm.Diagnostic
import StraightWasm.Linear.Basic
import StraightWasm.Machine.Bindings
import StraightWasm.Machine.Pool
import StraightWasm.Machine.Program

/-!
# Emitting machine code

Emission walks over the linear code of a function once. Parameters occupy the first registers. An
operand is brought into a register of its own, which the instruction at hand may overwrite: a
constant and a local get a fresh register, and a temporary gives up the register that it was defined
in, so it can be used once. An addition leaves its result in the register of its left operand and
gives the other one back; an assignment moves the local into the register of the value and gives its
old register back.

The pool survives from one function to the next, also after a failure; a function starts by
resetting it.
-/

set_option autoImplicit false
set_option relaxedAutoImplicit false

namespace StraightWasm.Machine

open Linear (Frame Operand Terminator)

/-- The state of an emission: the registers left, where the locals are, the registers of the
temporaries that wait to be used, and the code so far. -/
structure Emitter where
  pool : Pool
  bindings : Bindings
  temps : Std.TreeMap Nat Nat
  code : Array Instr

/-- A computation on the state of an emission that may fail. -/
abbrev Emission (α : Type) : Type := EStateM Diagnostic Emitter α

namespace Emission

/-- Gives up on the function at hand. -/
def fail {α : Type} (frame : Frame) (fault : EmissionFault) : Emission α :=
  throw (.emission frame.function fault)

/-- A register that is not in use. -/
def acquire (frame : Frame) : Emission Nat := fun emitter ↦
  match emitter.pool.acquire? with
  | some (register, pool) => .ok register { emitter with pool := pool }
  | none =>
    .error (.emission frame.function (.outOfRegisters emitter.pool.limit)) emitter

/-- Gives a register back. -/
def release (register : Nat) : Emission Unit :=
  modify fun emitter ↦ { emitter with pool := emitter.pool.release register }

/-- Emits an instruction. -/
def emit (instruction : Instr) : Emission Unit :=
  modify fun emitter ↦ { emitter with code := emitter.code.push instruction }

/-- Moves a local into a register and tells which register held it before. -/
def bind (slot register : Nat) : Emission (Option Nat) :=
  modifyGet fun emitter ↦
    (emitter.bindings.register? slot,
      { emitter with bindings := emitter.bindings.bind slot register })

/-- Insists that the function has a local. -/
def checkSlot (frame : Frame) (slot : Nat) : Emission Unit :=
  if slot < frame.slotCount then pure () else fail frame (.unknownLocal slot frame.slotCount)

/-- Notes the register of a temporary, which must not be waiting to be used already. -/
def define (frame : Frame) (temp register : Nat) : Emission Unit := fun emitter ↦
  match emitter.temps[temp]? with
  | some _ => .error (.emission frame.function (.definedTwice temp)) emitter
  | none => .ok () { emitter with temps := emitter.temps.insert temp register }

/-- The register of a temporary, which is used up by this. -/
def consume (frame : Frame) (temp : Nat) : Emission Nat := fun emitter ↦
  match emitter.temps[temp]? with
  | some register => .ok register { emitter with temps := emitter.temps.erase temp }
  | none => .error (.emission frame.function (.notAvailable temp)) emitter

/-- Copies a local into a fresh register. A local that was never assigned holds zero. -/
def copySlot (frame : Frame) (slot : Nat) : Emission Nat := do
  checkSlot frame slot
  let dest ← acquire frame
  match (← get).bindings.register? slot with
  | some source => emit (.move dest source)
  | none => emit (.load dest 0)
  pure dest

/-- Brings an operand into a register of its own. -/
def intoRegister (frame : Frame) : Operand → Emission Nat
  | .const value => do
    let dest ← acquire frame
    emit (.load dest value)
    pure dest
  | .slot slot => copySlot frame slot
  | .temp temp => consume frame temp

/-- Emits the code of one linear instruction. -/
def step (frame : Frame) : Linear.Instr → Emission Unit
  | .snapshot dest slot => do
    let register ← copySlot frame slot
    define frame dest register
  | .assign slot value => do
    checkSlot frame slot
    let register ← intoRegister frame value
    match ← bind slot register with
    | some old => release old
    | none => pure ()
  | .add dest lhs rhs => do
    let left ← intoRegister frame lhs
    let right ← intoRegister frame rhs
    emit (.add left right)
    release right
    define frame dest left

/-- The register of the value that a function returns. A local that has a register is returned in
place. -/
def returned (frame : Frame) : Operand → Emission Nat
  | .slot slot => do
    match (← get).bindings.register? slot with
    | some register => pure register
    | none => copySlot frame slot
  | operand => intoRegister frame operand

/-- Emits the code of a terminator. -/
def finish (frame : Frame) : Terminator → Emission Unit
  | .ret (some operand) => do
    let source ← returned frame operand
    emit (.ret source)
  | .ret none => fail frame .missingReturnValue
  | .trap => emit .trap

/-- Gives the parameters from `slot` on a register each. -/
def placeParams (frame : Frame) (slot : Nat) : Nat → Emission Unit
  | 0 => pure ()
  | count + 1 => do
    let register ← acquire frame
    let _ ← bind slot register
    placeParams frame (slot + 1) count

/-- Emits the code of a whole function. -/
def body (function : Linear.Function) : Emission Unit := do
  let frame : Frame := { function := function.index, slotCount := function.slotCount }
  placeParams frame 0 function.params.length
  function.instructions.forM (step frame)
  finish frame function.terminator

end Emission

namespace Emitter

/-- The state before the first instruction of a function, with all registers back in the pool. -/
def start (slotCount : Nat) (pool : Pool) : Emitter where
  pool := pool.reset
  bindings := .ofSlotCount slotCount
  temps := ∅
  code := #[]

end Emitter

/-- A computation that draws registers from a pool, function after function, and may fail. -/
abbrev Session (α : Type) : Type := EStateM Diagnostic Pool α

/-- The machine code of one function. -/
def emitFunction (function : Linear.Function) : Session (List Instr) := fun pool ↦
  match Emission.body function (.start function.slotCount pool) with
  | .ok _ emitter => .ok emitter.code.toList emitter.pool
  | .error failure emitter => .error failure emitter.pool

/-- Appends the machine code of a function to a program. -/
def appendFunction (program : Program) (function : Linear.Function) : Session Program := do
  let code ← emitFunction function
  let pool ← get
  pure (program.push function.index pool.used code)

/-- The machine code of a list of functions. -/
def emitProgram (functions : List Linear.Function) : Session Program :=
  functions.foldlM appendFunction {}

/-- The program of a list of functions, with the given number of registers. -/
def Program.ofLinear (strategy : Strategy) (registers : Nat) (functions : List Linear.Function) :
    Except Diagnostic Program :=
  match emitProgram functions (.ofLimit strategy registers) with
  | .ok program _ => .ok program
  | .error failure _ => .error failure

end StraightWasm.Machine
