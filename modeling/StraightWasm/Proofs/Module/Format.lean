import StraightWasm.Module.Decode
import StraightWasm.Proofs.Bytes.Forms

/-!
# The format of a binary

Which bytes are a binary of which module (`Module.Written`). The format is said in terms of the
elementary forms, without a reader: a binary is eight fixed bytes and a row of sections
(`Section.Written`), a section is an identifying byte and sized contents, and each kind of section
has contents of its own (`SectionContent.Written`). Only two of these forms depend on where they
stand, because a module keeps the places of section payloads and of code: `Section.Written` and
`Body.Written`.

An integer may be written in any of its forms, so a module has many binaries. That a binary has one
module at most is a consequence of reading it.
-/

set_option autoImplicit false
set_option relaxedAutoImplicit false

namespace StraightWasm

/-! ### Types and names -/

/-- A value type is its byte. -/
def ValueType.Written : Form ValueType := fun _ type bytes ↦
  bytes = [type.toByte]

/-- A signature: the marker, the parameter types, and the result type behind a count of one. -/
def Signature.Written : Form Signature := fun offset signature bytes ↦
  ∃ params count, bytes = 0x60 :: (params ++ count ++ [signature.result.toByte]) ∧
    Form.Vector ValueType.Written (offset + 1) signature.params params ∧
    Form.Integer 32 (offset + 1 + params.length) 1 count

/-- A name: the UTF-8 bytes of its characters behind the number of these bytes. -/
def Name.Written : Form String :=
  Form.Sized fun _ text bytes ↦ bytes = text.toList.flatMap String.utf8EncodeChar

/-! ### Exports and imports -/

/-- The byte that stands for a kind of member. -/
def ExternKind.toByte : ExternKind → UInt8
  | func => 0
  | table => 1
  | memory => 2
  | global => 3

/-- An exported member: its name, its kind and its index. -/
def Export.Written : Form Export := fun offset entry bytes ↦
  ∃ name index, bytes = name ++ entry.kind.toByte :: index ∧
    Name.Written offset entry.name name ∧
    Form.Integer 32 (offset + name.length + 1) entry.index index

/-- Bounds of a width: the minimum and, if it is there, the maximum. -/
def Bounds.Written (width : Nat) (hasMaximum : Bool) : Form Unit := fun offset _ bytes ↦
  if hasMaximum then
    ∃ minimum maximum low high, bytes = low ++ high ∧ Form.Integer width offset minimum low ∧
      Form.Integer width (offset + low.length) maximum high
  else ∃ minimum, Form.Integer width offset minimum bytes

/-- Limits of a table or a memory: flags, of which only the lowest three may be set, and bounds. Bit
0 announces the maximum, and bit 2 widens the bounds to 64 bits. -/
def Limits.Written : Form Unit := fun offset _ bytes ↦
  ∃ flags : UInt8, ∃ bounds, bytes = flags :: bounds ∧ flags.toNat ≤ 7 ∧
    Bounds.Written (if flags.toNat.testBit 2 then 64 else 32) (flags.toNat.testBit 0)
      (offset + 1) () bounds

/-- The description of an imported member behind its kind. -/
inductive ImportDescriptor.Described : ExternKind → Form ImportDescriptor
  | func {offset typeIndex : Nat} {index : List UInt8}
    (hindex : Form.Integer 32 offset typeIndex index) :
    Described .func offset (.func typeIndex) index
  | table {offset : Nat} {element : UInt8} {limits : List UInt8}
    (helement : element ∈ [0x70, 0x6f]) (hlimits : Limits.Written (offset + 1) () limits) :
    Described .table offset .table (element :: limits)
  | memory {offset : Nat} {limits : List UInt8} (hlimits : Limits.Written offset () limits) :
    Described .memory offset .memory limits
  | global {offset : Nat} {type : UInt8} {isMutable : Bool}
    (htype : type ∈ [0x7f, 0x7e, 0x7d, 0x7c, 0x7b, 0x70, 0x6f]) :
    Described .global offset (.global isMutable) [type, if isMutable then 1 else 0]

/-- What an import brings in: the byte of its kind and its description. -/
def ImportDescriptor.Written : Form ImportDescriptor := fun offset descriptor bytes ↦
  ∃ kind description, bytes = ExternKind.toByte kind :: description ∧
    Described kind (offset + 1) descriptor description

/-- An imported member: the names of its module and its field, and what it brings in. -/
def Import.Written : Form Import := fun offset entry bytes ↦
  ∃ moduleName fieldName descriptor, bytes = moduleName ++ fieldName ++ descriptor ∧
    Name.Written offset entry.moduleName moduleName ∧
    Name.Written (offset + moduleName.length) entry.fieldName fieldName ∧
    ImportDescriptor.Written (offset + moduleName.length + fieldName.length) entry.descriptor
      descriptor

/-! ### Code -/

/-- A run of locals: how many, and their type. -/
def Payload.LocalRun.Written : Form Payload.LocalRun := fun offset run bytes ↦
  ∃ length, bytes = length ++ [run.type.toByte] ∧ Form.Integer 32 offset run.length length

/-- A body: runs of at most 50000 locals in all, and the code up to the end. -/
def Body.Written : Form Body := fun offset body bytes ↦
  ∃ runs declared, bytes = declared ++ body.code ∧
    Form.Vector Payload.LocalRun.Written offset runs declared ∧
    (runs.map (·.length)).sum ≤ 50000 ∧
    body.locals = runs.flatMap (fun run ↦ List.replicate run.length run.type) ∧
    body.codeOffset = offset + declared.length

/-! ### Sections -/

/-- The byte that stands for a kind of section. -/
def SectionKind.toByte : SectionKind → UInt8
  | custom => 0
  | types => 1
  | imports => 2
  | functions => 3
  | tables => 4
  | memories => 5
  | globals => 6
  | exports => 7
  | start => 8
  | elements => 9
  | code => 10
  | data => 11

/-- The contents of each kind of section. What is skipped may be any bytes. -/
def SectionContent.Written : SectionKind → Form SectionContent
  | .types => (Form.Vector Signature.Written).Map .types
  | .functions => (Form.Vector (Form.Integer 32)).Map .functions
  | .imports => (Form.Vector Import.Written).Map .imports
  | .exports => (Form.Vector Export.Written).Map .exports
  | .code => (Form.Vector (Form.Sized Body.Written)).Map .code
  | _ => fun _ content _ ↦ content = .skipped

/-- A section: the byte of its kind, the size of its contents, and the contents. -/
def Section.Written : Form Section := fun offset found bytes ↦
  ∃ size contents, bytes = found.header.kind.toByte :: (size ++ contents) ∧
    Form.Integer 32 (offset + 1) contents.length size ∧
    SectionContent.Written found.header.kind (offset + 1 + size.length) found.content contents ∧
    found.header.offset = offset + 1 + size.length ∧
    found.header.size = contents.length

/-! ### Modules -/

namespace SectionContent

/-- The contents of a type section. -/
def types? : SectionContent → Option (List Signature)
  | types entries => some entries
  | _ => none

/-- The contents of a function section. -/
def functions? : SectionContent → Option (List Nat)
  | functions typeIndices => some typeIndices
  | _ => none

/-- The contents of an import section. -/
def imports? : SectionContent → Option (List Import)
  | imports entries => some entries
  | _ => none

/-- The contents of an export section. -/
def exports? : SectionContent → Option (List Export)
  | exports entries => some entries
  | _ => none

/-- The contents of a code section. -/
def code? : SectionContent → Option (List Body)
  | code bodies => some bodies
  | _ => none

end SectionContent

namespace Module

/-- The bytes in front of the sections: `\0asm` and the version. -/
def opening : List UInt8 :=
  [0x00, 0x61, 0x73, 0x6d, 0x01, 0x00, 0x00, 0x00]

/-- What the last section of some kind holds, or nothing if there is no section of that kind. -/
def last {α : Type} (held? : SectionContent → Option (List α)) (sections : List Section) : List α :=
  (sections.filterMap fun found ↦ held? found.content).getLast?.getD []

/-- Whether a module consists of what some sections hold. -/
structure Comprises (module : Module) (sections : List Section) : Prop where
  preamble_eq : module.preamble = Preamble.standard
  sections_eq : module.sections = sections.map (·.header)
  types_eq : module.types = last SectionContent.types? sections
  functions_eq : module.functions = last SectionContent.functions? sections
  imports_eq : module.imports = last SectionContent.imports? sections
  exports_eq : module.exports = last SectionContent.exports? sections
  bodies_eq : module.bodies = last SectionContent.code? sections

/-- Whether some bytes are a binary of a module. -/
def Written (module : Module) (bytes : List UInt8) : Prop :=
  ∃ sections rows, bytes = opening ++ rows ∧ Form.Row Section.Written 8 sections rows ∧
    module.Comprises sections ∧ module.functions.length = module.bodies.length

end Module

end StraightWasm
