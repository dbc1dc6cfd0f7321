/-!
# Modules

What the compiler keeps of a WebAssembly binary: the signatures it declares, the functions that use
them, the members it imports and exports, and the function bodies as raw instruction bytes together
with the place where those bytes stood. Every offset is an absolute position in the binary.
-/

set_option autoImplicit false
set_option relaxedAutoImplicit false

namespace StraightWasm

/-- The four primitive value types. -/
inductive ValueType where
  | i32
  | i64
  | f32
  | f64
  deriving DecidableEq, Repr, Inhabited

namespace ValueType

/-- The value type that a byte stands for, if any. -/
def ofByte? : UInt8 → Option ValueType
  | 0x7f => some i32
  | 0x7e => some i64
  | 0x7d => some f32
  | 0x7c => some f64
  | _ => none

/-- The byte that stands for a value type. -/
def toByte : ValueType → UInt8
  | i32 => 0x7f
  | i64 => 0x7e
  | f32 => 0x7d
  | f64 => 0x7c

/-- The name of a value type in the text format. -/
def name : ValueType → String
  | i32 => "i32"
  | i64 => "i64"
  | f32 => "f32"
  | f64 => "f64"

/-- Reading the byte of a value type gives the type back. -/
@[simp] theorem ofByte?_toByte (type : ValueType) : ofByte? type.toByte = some type := by
  cases type <;> rfl

end ValueType

/-- A function signature: parameter types and the one result type. -/
structure Signature where
  params : List ValueType
  result : ValueType
  deriving DecidableEq, Repr, Inhabited

/-- The kinds of member a module can export. -/
inductive ExternKind where
  | func
  | table
  | memory
  | global
  deriving DecidableEq, Repr, Inhabited

namespace ExternKind

/-- The member kind that a byte stands for, if any. -/
def ofByte? : UInt8 → Option ExternKind
  | 0 => some func
  | 1 => some table
  | 2 => some memory
  | 3 => some global
  | _ => none

end ExternKind

/-- An exported member: its public name, its kind, and its index among the members of that kind. -/
structure Export where
  name : String
  kind : ExternKind
  index : Nat
  deriving DecidableEq, Repr, Inhabited

/-- What an import brings in. Only what shapes the index spaces is kept. -/
inductive ImportDescriptor where
  | func (typeIndex : Nat)
  | table
  | memory
  | global (isMutable : Bool)
  deriving DecidableEq, Repr, Inhabited

namespace ImportDescriptor

/-- Whether the import occupies a place among the functions. -/
def isFunction : ImportDescriptor → Bool
  | func _ => true
  | _ => false

end ImportDescriptor

/-- An imported member. Imports are never compiled; they only shift the indices of their kind. -/
structure Import where
  moduleName : String
  fieldName : String
  descriptor : ImportDescriptor
  deriving DecidableEq, Repr, Inhabited

/-- The twelve kinds of section, in the order of their identifying bytes. -/
inductive SectionKind where
  | custom
  | types
  | imports
  | functions
  | tables
  | memories
  | globals
  | exports
  | start
  | elements
  | code
  | data
  deriving DecidableEq, Repr, Inhabited

namespace SectionKind

/-- The section kind that an identifying byte stands for; bytes from twelve on stand for none. -/
def ofByte? : UInt8 → Option SectionKind
  | 0 => some custom
  | 1 => some types
  | 2 => some imports
  | 3 => some functions
  | 4 => some tables
  | 5 => some memories
  | 6 => some globals
  | 7 => some exports
  | 8 => some start
  | 9 => some elements
  | 10 => some code
  | 11 => some data
  | _ => none

/-- The name of a section kind in messages. -/
def name : SectionKind → String
  | custom => "Custom"
  | types => "Type"
  | imports => "Import"
  | functions => "Function"
  | tables => "Table"
  | memories => "Memory"
  | globals => "Global"
  | exports => "Export"
  | start => "Start"
  | elements => "Element"
  | code => "Code"
  | data => "Data"

end SectionKind

/-- Where a section's payload stood: the offset of its first byte and its length in bytes. -/
structure SectionHeader where
  kind : SectionKind
  offset : Nat
  size : Nat
  deriving DecidableEq, Repr, Inhabited

/-- A function body: the declared locals one by one, the instruction bytes, and the offset of the
first of them. Parameters are not among the locals. -/
structure Body where
  locals : List ValueType
  code : List UInt8
  codeOffset : Nat
  deriving DecidableEq, Repr, Inhabited

/-- The two words that open every binary. -/
structure Preamble where
  magic : Nat
  version : Nat
  deriving DecidableEq, Repr, Inhabited

namespace Preamble

/-- The only preamble that is accepted: the bytes `\0asm` as a little-endian word, then version
one. -/
def standard : Preamble where
  magic := 0x6d736100
  version := 1

end Preamble

/-- A decoded module. `sections` lists the section headers in the order of the binary; `functions`
holds the type index of each function defined here, and `bodies` runs parallel to it. -/
structure Module where
  preamble : Preamble := Preamble.standard
  sections : List SectionHeader := []
  types : List Signature := []
  functions : List Nat := []
  imports : List Import := []
  exports : List Export := []
  bodies : List Body := []
  deriving DecidableEq, Repr, Inhabited

namespace Module

/-- The signature of the function defined at `position`, if its type index is declared. -/
def signature? (module : Module) (position : Nat) : Option Signature :=
  module.functions[position]?.bind fun typeIndex ↦ module.types[typeIndex]?

/-- How many functions are imported. They come before all functions defined here. -/
def importedFunctions (module : Module) : Nat :=
  module.imports.countP fun entry ↦ entry.descriptor.isFunction

/-- The index under which the function at `index` among those defined here is exported. Exports
count the imported functions first, in words of 32 bits. -/
def exportIndex (module : Module) (index : Nat) : UInt32 :=
  UInt32.ofNat module.importedFunctions + UInt32.ofNat index

/-- The name of the first function export of `index`, an index that counts imports first. -/
def exportName? (module : Module) (index : Nat) : Option String :=
  (module.exports.find? fun entry ↦ entry.kind = .func ∧ entry.index = index).map (·.name)

end Module

end StraightWasm
