import StraightWasm.Bytes.Forward

/-!
# Stack code

The supported instructions and how they stand in the bytes of a function body. `StackCode.scan`
reads instructions up to the first `end`. It never fails as a whole: when the bytes cannot be read
on, it gives the instructions found so far together with the reason, because an instruction that
comes earlier may turn out to be at fault first.
-/

set_option autoImplicit false
set_option relaxedAutoImplicit false

namespace StraightWasm.StackCode

open Reader

/-- The supported instructions, apart from `end`. -/
inductive Instruction where
  /-- Traps; what follows up to `end` is dead. -/
  | unreachable
  /-- Does nothing. -/
  | nop
  /-- Pushes a constant. -/
  | const (value : Int32)
  /-- Pushes the contents of a local. -/
  | localGet (slot : Nat)
  /-- Pops a value into a local. -/
  | localSet (slot : Nat)
  /-- Copies the top value into a local. -/
  | localTee (slot : Nat)
  /-- Pops two values and pushes their sum. -/
  | add
  deriving DecidableEq, Repr

/-- An instruction and the offset of its opcode. -/
structure Located where
  offset : Nat
  instruction : Instruction
  deriving DecidableEq, Repr

/-- The instruction behind an opcode that stood at `place`; the opcode of `end` gives none. -/
def behindOpcode (function place : Nat) (opcode : UInt8) : Reader (Option Instruction) :=
  match opcode with
  | 0x00 => pure (some .unreachable)
  | 0x01 => pure (some .nop)
  | 0x0b => pure none
  | 0x20 => (some <| .localGet ·) <$> unsigned 32
  | 0x21 => (some <| .localSet ·) <$> unsigned 32
  | 0x22 => (some <| .localTee ·) <$> unsigned 32
  | 0x41 => (fun value ↦ some (.const (Int32.ofInt value))) <$> signed 32
  | 0x6a => pure (some .add)
  | _ => fail (.unsupportedOpcode function place opcode)

/-- The next instruction of a function, or none at `end`. -/
def next (function : Nat) : Reader (Option Instruction) := do
  let place ← offset
  let opcode ← byte
  behindOpcode function place opcode

theorem forward_behindOpcode (function place : Nat) (opcode : UInt8) :
    Forward (behindOpcode function place opcode) := by
  fun_cases behindOpcode function place opcode with
  | case1 | case2 | case3 | case8 => exact forward_pure _
  | case4 | case5 | case6 => exact forward_map _ (forward_unsigned 32)
  | case7 => exact forward_map _ (forward_signed 32)
  | case9 => exact forward_fail _

/-- An instruction takes at least one byte. -/
theorem length_lt_of_next {function : Nat} {before after : Span} {found : Option Instruction}
    (h : next function before = .ok found after) : after.bytes.length < before.bytes.length :=
  length_lt_of_byte_bind (fun opcode ↦ forward_behindOpcode function before.offset opcode) h

/-- What reading a body gave: the instructions in order, and either what is left behind `end` or the
reason why `end` was not reached. -/
structure Scan where
  instructions : List Located
  ending : Except Diagnostic Span

/-- Adds the instructions of a span to those already found, the last of which comes first. -/
def scanFrom (function : Nat) (found : List Located) (span : Span) : Scan :=
  match h : next function span with
  | .ok (some instruction) after =>
    have := length_lt_of_next h
    scanFrom function ({ offset := span.offset, instruction := instruction } :: found) after
  | .ok none after => { instructions := found.reverse, ending := .ok after }
  | .error failure _ => { instructions := found.reverse, ending := .error failure }
termination_by span.bytes.length

/-- The instructions of a body up to the first `end`. -/
def scan (function : Nat) (body : Body) : Scan :=
  scanFrom function [] { offset := body.codeOffset, bytes := body.code }

end StraightWasm.StackCode
