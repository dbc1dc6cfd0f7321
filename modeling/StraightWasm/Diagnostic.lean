import StraightWasm.Module.Basic
import StraightWasm.Text.Hex

/-!
# Diagnostics

Every reason why a compilation can fail, and the one place where each of them is put into words.
A diagnostic carries the data of the failure; the wording is computed from it by
`Diagnostic.message`.
-/

set_option autoImplicit false
set_option relaxedAutoImplicit false

namespace StraightWasm

open Text

/-- Which name of a module was not valid text. -/
inductive NameRole where
  | exported
  | importModule
  | importField
  deriving DecidableEq, Repr

/-- Why a binary is malformed. -/
inductive Malformation where
  /-- The first word is not the magic number. -/
  | badMagic (found : Nat)
  /-- The second word is not a known version. -/
  | unsupportedVersion (found : Nat)
  /-- A section starts with a byte that identifies no kind. -/
  | unknownSection (identifier : UInt8)
  /-- The reader of a section stopped before the end of the payload. -/
  | unreadPayload (kind : SectionKind) (declared left : Nat)
  /-- The numbers of functions and of bodies differ. -/
  | bodyCount (declared bodies : Nat)
  /-- A variable-length integer has more bytes than its width allows. -/
  | integerTooLong (bits : Nat)
  /-- A variable-length integer does not fit its width. -/
  | integerTooLarge (bits : Nat)
  /-- A byte stands for no value type. -/
  | valueType (found : UInt8)
  /-- A type entry does not start with the function marker. -/
  | functionMarker (found : UInt8)
  /-- A signature does not have exactly one result. -/
  | resultCount (found : Nat)
  /-- A name is not valid text. -/
  | nameEncoding (role : NameRole)
  /-- A byte stands for no kind of export. -/
  | exportKind (found : UInt8)
  /-- A byte stands for no kind of import. -/
  | importKind (found : UInt8)
  /-- A byte stands for no element type of a table. -/
  | elementType (found : UInt8)
  /-- A byte stands for no type of a global. -/
  | globalType (found : UInt8)
  /-- A byte is neither of the two marks of mutability. -/
  | mutability (found : UInt8)
  /-- A byte carries unknown limit flags. -/
  | limitFlags (found : UInt8)
  /-- A body declares more locals than the limit. -/
  | localLimit (limit : Nat)
  /-- A function refers to a signature that is not declared. -/
  | undeclaredType (function typeIndex declared : Nat)
  /-- Parameters and locals together cannot be indexed. -/
  | uncountableLocals
  /-- An instruction names a local that the function does not have. -/
  | localIndex (index function available : Nat)
  /-- Bytes follow the end of the code. -/
  | trailingBytes (count function : Nat)
  /-- More than one value is on the operand stack at the end; `count` lie below the top. -/
  | valuesLeft (count function : Nat)
  deriving DecidableEq, Repr

/-- Why registers could not be assigned to a function. -/
inductive EmissionFault where
  /-- All registers are in use. -/
  | outOfRegisters (available : Nat)
  /-- A local is named that the function does not have. -/
  | unknownLocal (slot available : Nat)
  /-- A temporary is defined while its previous value is still waiting to be used. -/
  | definedTwice (temp : Nat)
  /-- A temporary is used that holds no value. -/
  | notAvailable (temp : Nat)
  /-- The function returns, but no value is left to return. -/
  | missingReturnValue
  deriving DecidableEq, Repr

/-- A failure of the compiler. Offsets are positions in the binary; functions are counted from the
first one that is defined in the module. -/
inductive Diagnostic where
  /-- A read ran past the end of the bytes it was allowed to see. -/
  | endOfInput (offset needed : Nat)
  /-- The binary breaks a rule of the format. -/
  | malformed (offset : Nat) (cause : Malformation)
  /-- An instruction took an operand from an empty stack. -/
  | stackUnderflow (function offset : Nat)
  /-- An instruction put an operand on a full stack. -/
  | stackOverflow (function offset capacity : Nat)
  /-- An opcode lies outside the supported instructions. -/
  | unsupportedOpcode (function offset : Nat) (opcode : UInt8)
  /-- Registers could not be assigned. -/
  | emission (function : Nat) (cause : EmissionFault)
  deriving DecidableEq, Repr

/-! ### Wording -/

namespace Wording

/-- The sentence for input that ended too early. -/
def endOfInput (offset needed : Nat) : String :=
  let place := hex offset
  s!"unexpected end of input at offset {place}: {needed} more byte(s) needed"

/-- The sentence for a malformed binary. -/
def malformed (offset : Nat) (reason : String) : String :=
  let place := hex offset
  s!"invalid module at offset {place}: {reason}"

/-- The sentence for an operand taken from an empty stack. -/
def stackUnderflow (function offset : Nat) : String :=
  let place := hex offset
  s!"operand stack underflow in function {function} at offset {place}"

/-- The sentence for an operand put on a full stack. -/
def stackOverflow (function offset capacity : Nat) : String :=
  let place := hex offset
  s!"operand stack overflow in function {function} at offset {place}, capacity {capacity}"

/-- The sentence for an opcode outside the supported instructions. -/
def unsupportedOpcode (function offset : Nat) (opcode : UInt8) : String :=
  let place := hex offset
  let shown := hexByte opcode
  s!"unsupported opcode {shown} in function {function} at offset {place}"

/-- The sentence for a function that could not be given registers. -/
def emission (function : Nat) (reason : String) : String :=
  s!"code generation failed for function {function}: {reason}"

end Wording

namespace NameRole

/-- How a name is called in messages. -/
def description : NameRole → String
  | exported => "export name"
  | importModule => "import module name"
  | importField => "import field name"

end NameRole

namespace Malformation

/-- The reason in words. -/
def message : Malformation → String
  | badMagic found => "bad magic number " ++ hexPadded 8 found
  | unsupportedVersion found => s!"unsupported version {found}"
  | unknownSection identifier => s!"unknown section id {identifier}"
  | unreadPayload kind declared left =>
    let sectionName := kind.name
    s!"section size mismatch: {sectionName} section declared {declared} bytes, {left} left unread"
  | bodyCount declared bodies =>
    s!"function section declares {declared} functions but code section has {bodies} bodies"
  | integerTooLong bits => s!"integer representation too long for {bits}-bit value"
  | integerTooLarge bits => s!"integer too large for {bits}-bit value"
  | valueType found => "invalid value type " ++ hexByte found
  | functionMarker found => "expected function type marker 0x60, found " ++ hexByte found
  | resultCount found => s!"function types must have exactly one result, found {found}"
  | nameEncoding role => role.description ++ " is not valid UTF-8"
  | exportKind found => "invalid export kind " ++ hexByte found
  | importKind found => "invalid import kind " ++ hexByte found
  | elementType found => "invalid table element type " ++ hexByte found
  | globalType found => "invalid global type " ++ hexByte found
  | mutability found => "invalid global mutability " ++ hexByte found
  | limitFlags found => "invalid limits flags " ++ hexByte found
  | localLimit limit => s!"too many locals (limit {limit})"
  | undeclaredType function typeIndex declared =>
    s!"function {function} references type {typeIndex}, but only {declared} are declared"
  | uncountableLocals => "too many locals"
  | localIndex index function available =>
    s!"local index {index} out of range in function {function} ({available} locals)"
  | trailingBytes count function => s!"{count} trailing byte(s) after end of function {function}"
  | valuesLeft count function =>
    s!"{count} value(s) left on the operand stack at end of function {function}"

end Malformation

namespace EmissionFault

/-- The reason in words. -/
def message : EmissionFault → String
  | outOfRegisters available =>
    s!"out of physical registers ({available} available, spilling is not supported)"
  | unknownLocal slot available => s!"unbound local l{slot} ({available} locals)"
  | definedTwice temp => s!"v{temp} defined twice"
  | notAvailable temp => s!"v{temp} used before definition or consumed twice"
  | missingReturnValue => "missing return value: operand stack is empty at end"

end EmissionFault

namespace Diagnostic

/-- The diagnostic in words. -/
def message : Diagnostic → String
  | endOfInput offset needed => Wording.endOfInput offset needed
  | malformed offset cause => Wording.malformed offset cause.message
  | stackUnderflow function offset => Wording.stackUnderflow function offset
  | stackOverflow function offset capacity => Wording.stackOverflow function offset capacity
  | unsupportedOpcode function offset opcode => Wording.unsupportedOpcode function offset opcode
  | emission function cause => Wording.emission function cause.message

end Diagnostic

end StraightWasm
