import StraightWasm.Bytes.Reader

/-!
# Section payloads

One reader for the contents of each kind of section that the compiler uses. A reader takes what its
section declares and leaves what follows; that a payload has to be used up is the business of the
one who framed it.
-/

set_option autoImplicit false
set_option relaxedAutoImplicit false

namespace StraightWasm.Payload

open Reader

/-! ### Types and functions -/

/-- A value type. -/
def valueType : Reader ValueType :=
  expect ValueType.ofByte? .valueType

/-- The byte in front of every signature. -/
def functionMarker : UInt8 := 0x60

/-- A signature: the marker, the parameter types, and exactly one result type. -/
def signature : Reader Signature := do
  expect (fun found ↦ if found = functionMarker then some () else none) .functionMarker
  let params ← vector valueType
  let place ← offset
  let results ← unsigned 32
  if results = 1 then
    let result ← valueType
    pure { params := params, result := result }
  else malformed place (.resultCount results)

/-- The signatures of a type section. -/
def types : Reader (List Signature) :=
  vector signature

/-- The type indices of a function section. -/
def functions : Reader (List Nat) :=
  vector (unsigned 32)

/-! ### Exports and imports -/

/-- A name: length-delimited bytes that have to be valid text. -/
def name (role : NameRole) : Reader String := do
  let place ← offset
  let bytes ← sizedBytes
  match String.fromUTF8? bytes.toByteArray with
  | some text => pure text
  | none => malformed place (.nameEncoding role)

/-- An exported member. -/
def exportEntry : Reader Export := do
  let publicName ← name .exported
  let kind ← expect ExternKind.ofByte? .exportKind
  let index ← unsigned 32
  pure { name := publicName, kind := kind, index := index }

/-- The members of an export section. -/
def exports : Reader (List Export) :=
  vector exportEntry

/-- Whether a byte stands for a reference type. -/
def isReferenceType (found : UInt8) : Bool :=
  found == 0x70 || found == 0x6f

/-- Whether a byte stands for a type that a global can have: a value type, a vector or a
reference. -/
def isGlobalType (found : UInt8) : Bool :=
  (ValueType.ofByte? found).isSome || found == 0x7b || isReferenceType found

/-- The mark of mutability of a global. -/
def mutability? : UInt8 → Option Bool
  | 0 => some false
  | 1 => some true
  | _ => none

/-- Passes over the limits of a table or a memory: flags, the minimum, and the maximum if bit 0 of
the flags is set. Bit 2 widens both bounds to 64 bits. -/
def limits : Reader Unit := do
  let flags ← expect (fun found ↦ if found ≤ 7 then some found else none) .limitFlags
  let bits := if flags &&& 4 = 0 then 32 else 64
  let _ ← unsigned bits
  if flags &&& 1 = 0 then pure ()
  else
    let _ ← unsigned bits
    pure ()

/-- What an import brings in: a kind and the description that belongs to it. -/
def importDescriptor : Reader ImportDescriptor := do
  match ← expect ExternKind.ofByte? .importKind with
  | .func => ImportDescriptor.func <$> unsigned 32
  | .table =>
    expect (fun found ↦ if isReferenceType found then some () else none) .elementType
    limits
    pure .table
  | .memory =>
    limits
    pure .memory
  | .global =>
    expect (fun found ↦ if isGlobalType found then some () else none) .globalType
    ImportDescriptor.global <$> expect mutability? .mutability

/-- An imported member. -/
def importEntry : Reader Import := do
  let moduleName ← name .importModule
  let fieldName ← name .importField
  let descriptor ← importDescriptor
  pure { moduleName := moduleName, fieldName := fieldName, descriptor := descriptor }

/-- The members of an import section. -/
def imports : Reader (List Import) :=
  vector importEntry

/-! ### Code -/

/-- A run of locals of one type. -/
structure LocalRun where
  length : Nat
  type : ValueType
  deriving DecidableEq, Repr

/-- The locals of a list of runs, one by one. -/
def expand (runs : List LocalRun) : List ValueType :=
  runs.flatMap fun run ↦ List.replicate run.length run.type

/-- The greatest number of locals that a body may declare. -/
def localLimit : Nat := 50000

/-- The runs read so far, the last one first, and the number of locals in them. -/
structure RunsSoFar where
  total : Nat
  runs : List LocalRun

/-- Reads one more run of locals. A run that brings the number of locals above the limit is a
malformation at the offset of the run. -/
def localRun (soFar : RunsSoFar) : Reader RunsSoFar := do
  let place ← offset
  let length ← unsigned 32
  let type ← valueType
  if soFar.total + length ≤ localLimit then
    pure { total := soFar.total + length, runs := { length := length, type := type } :: soFar.runs }
  else malformed place (.localLimit localLimit)

/-- The declared locals of a body. -/
def locals : Reader (List ValueType) := do
  let soFar ← iterate localRun (← unsigned 32) { total := 0, runs := [] }
  pure (expand soFar.runs.reverse)

/-- A body: the declared locals, and everything behind them as code. -/
def body : Reader Body := do
  let declared ← locals
  let place ← offset
  let code ← unread
  skipAll
  pure { locals := declared, code := code, codeOffset := place }

/-- A body behind its size. -/
def sizedBody : Reader Body := do
  let frame ← window (← unsigned 32)
  let (found, _) ← inside body frame
  pure found

/-- The bodies of a code section. -/
def code : Reader (List Body) :=
  vector sizedBody

end StraightWasm.Payload
