import StraightWasm.Bytes.Span
import StraightWasm.Bytes.Leb128
import StraightWasm.Diagnostic

/-!
# Readers

A reader takes bytes off a span and gives a value or a diagnostic. What is left of the span is known
in both cases: after a failure it is what the failing part left. The readers of this file are the
elementary ones: bytes, little-endian words, variable-length integers, length-delimited runs of
bytes, and windows. Each of them takes nothing when it fails. Readers built from several of them
keep the progress of the parts that succeeded.
-/

set_option autoImplicit false
set_option relaxedAutoImplicit false

namespace StraightWasm

/-- A computation that consumes bytes and may fail. -/
abbrev Reader (α : Type) : Type := EStateM Diagnostic Span α

namespace Reader

variable {α β : Type}

/-! ### Elementary readers -/

/-- The absolute offset of the next byte. -/
def offset : Reader Nat := fun span ↦ .ok span.offset span

/-- The next `count` bytes. -/
def take (count : Nat) : Reader (List UInt8) := fun span ↦
  match span.take? count with
  | some (taken, next) => .ok taken next
  | none => .error (.endOfInput span.offset (count - span.length)) span

/-- The next byte. -/
def byte : Reader UInt8 := fun span ↦
  match span.bytes with
  | first :: rest => .ok first { offset := span.offset + 1, bytes := rest }
  | [] => .error (.endOfInput span.offset 1) span

/-- The number whose base-256 digits are the given bytes, the least significant first. -/
def littleEndian (bytes : List UInt8) : Nat :=
  bytes.foldr (fun digit number ↦ digit.toNat + 256 * number) 0

/-- A little-endian word of `size` bytes. -/
def word (size : Nat) : Reader Nat :=
  littleEndian <$> take size

/-- A little-endian word of `size` bytes in two's complement. -/
def signedWord (size : Nat) : Reader Int :=
  (fun bytes ↦ Int.bmod (littleEndian bytes) (Nat.pow 256 size)) <$> take size

/-- The diagnostic for a variable-length integer that could not be read off a span. -/
def integerFault (bits : Nat) (span : Span) : Leb128.Fault → Diagnostic
  | .truncated => .endOfInput span.endOffset 1
  | .tooLong => .malformed span.offset (.integerTooLong bits)
  | .tooLarge => .malformed span.offset (.integerTooLarge bits)

/-- A variable-length integer of at most `bits` bits. -/
def integer (sign : Signedness) (bits : Nat) : Reader Int := fun span ↦
  match Leb128.decode sign bits span.bytes with
  | .ok decoded => .ok decoded.value (span.advance decoded.size)
  | .error fault => .error (integerFault bits span fault) span

/-- An unsigned variable-length integer of at most `bits` bits. -/
def unsigned (bits : Nat) : Reader Nat :=
  Int.toNat <$> integer .unsigned bits

/-- A signed variable-length integer of at most `bits` bits. -/
def signed (bits : Nat) : Reader Int :=
  integer .signed bits

/-- All bytes that are left, without taking them. -/
def unread : Reader (List UInt8) := fun span ↦ .ok span.bytes span

/-- Takes all bytes that are left. -/
def skipAll : Reader Unit := fun span ↦ .ok () span.finish

/-! ### Combinators -/

/-- Fails without taking anything. -/
def fail (diagnostic : Diagnostic) : Reader α := fun span ↦ .error diagnostic span

/-- Fails with a malformation at the given offset. -/
def malformed (offset : Nat) (cause : Malformation) : Reader α :=
  fail (.malformed offset cause)

/-- A byte that has to stand for something; a byte that stands for nothing is a malformation at its
own offset. -/
def expect (meaning : UInt8 → Option α) (cause : UInt8 → Malformation) : Reader α := do
  let place ← offset
  let found ← byte
  match meaning found with
  | some value => pure value
  | none => malformed place (cause found)

/-- Runs a reader and takes nothing if it fails. -/
def atomic (reader : Reader α) : Reader α := fun span ↦
  match reader span with
  | .ok value next => .ok value next
  | .error failure _ => .error failure span

/-- An unsigned length and then that many bytes. -/
def sizedBytes : Reader (List UInt8) :=
  atomic do take (← unsigned 32)

/-- Takes the next `count` bytes as a span of their own. -/
def window (count : Nat) : Reader Span := do
  let start ← offset
  let bytes ← take count
  pure { offset := start, bytes := bytes }

/-- Runs a reader on a window. The value comes with what is left of the window; nothing is taken
outside of it. -/
def inside (inner : Reader α) (window : Span) : Reader (α × Span) := fun span ↦
  match inner window with
  | .ok value left => .ok (value, left) span
  | .error failure _ => .error failure span

/-- Runs a step the given number of times, handing a value from each run to the next. -/
def iterate (step : α → Reader α) : Nat → α → Reader α
  | 0, value => pure value
  | count + 1, value => do iterate step count (← step value)

/-- Reads the given number of items in a row. -/
def replicate (count : Nat) (item : Reader α) : Reader (List α) :=
  List.reverse <$> iterate (fun found ↦ (· :: found) <$> item) count []

/-- An unsigned count and then that many items. -/
def vector (item : Reader α) : Reader (List α) := do
  replicate (← unsigned 32) item

end Reader

end StraightWasm
