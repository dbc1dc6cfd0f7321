import StraightWasm.Bytes.Forward
import StraightWasm.Module.Payload

/-!
# Decoding a binary

A binary is the preamble and then sections to the end of the bytes. A section is an identifying
byte, the size of its payload, and the payload, which the reader of its kind has to use up. Sections
may come in any order and repeat: the last section of a kind is the one that counts.
-/

set_option autoImplicit false
set_option relaxedAutoImplicit false

namespace StraightWasm

open Reader

namespace Preamble

/-- The preamble: a magic number and a version of four bytes each. -/
def read : Reader Preamble := do
  let magic ← word 4
  if magic = standard.magic then
    let version ← word 4
    if version = standard.version then pure { magic := magic, version := version }
    else malformed 4 (.unsupportedVersion version)
  else malformed 0 (.badMagic magic)

end Preamble

/-- The contents of a section. The kinds that the compiler has no use for are skipped. -/
inductive SectionContent where
  | types (entries : List Signature)
  | functions (typeIndices : List Nat)
  | imports (entries : List Import)
  | exports (entries : List Export)
  | code (bodies : List Body)
  | skipped
  deriving DecidableEq, Repr

/-- A section: where its payload stood and what it holds. -/
structure Section where
  header : SectionHeader
  content : SectionContent
  deriving DecidableEq, Repr

namespace Section

/-- The reader of the payload of each kind. -/
def payload : SectionKind → Reader SectionContent
  | .types => SectionContent.types <$> Payload.types
  | .functions => SectionContent.functions <$> Payload.functions
  | .imports => SectionContent.imports <$> Payload.imports
  | .exports => SectionContent.exports <$> Payload.exports
  | .code => SectionContent.code <$> Payload.code
  | _ => do
    skipAll
    pure .skipped

/-- The part of a section behind its identifying byte, which stood at `place`. The size is read
before the identifier is judged. -/
def behindIdentifier (place : Nat) (identifier : UInt8) : Reader Section := do
  let size ← unsigned 32
  match SectionKind.ofByte? identifier with
  | none => malformed place (.unknownSection identifier)
  | some kind =>
    let frame ← window size
    let (content, left) ← inside (payload kind) frame
    if left.isEmpty then
      pure { header := { kind := kind, offset := frame.offset, size := size }, content := content }
    else malformed left.offset (.unreadPayload kind size left.length)

/-- A section. -/
def read : Reader Section := do
  let place ← offset
  let identifier ← byte
  behindIdentifier place identifier

theorem forward_behindIdentifier (place : Nat) (identifier : UInt8) :
    Forward (behindIdentifier place identifier) := by
  refine forward_bind (forward_unsigned 32) fun size ↦ ?_
  split
  · exact forward_malformed _ _
  · refine forward_bind (forward_window size) fun frame ↦
      forward_bind (forward_inside _ frame) fun (_, left) ↦ ?_
    dsimp only
    split
    · exact forward_pure _
    · exact forward_malformed _ _

/-- A section takes at least one byte. -/
theorem length_lt_of_read {before after : Span} {found : Section}
    (h : read before = .ok found after) : after.bytes.length < before.bytes.length :=
  length_lt_of_byte_bind (fun identifier ↦ forward_behindIdentifier before.offset identifier) h

end Section

namespace Module

/-- Takes over the contents of a section in place of what was there before. -/
def withContent (module : Module) : SectionContent → Module
  | .types entries => { module with types := entries }
  | .functions typeIndices => { module with functions := typeIndices }
  | .imports entries => { module with imports := entries }
  | .exports entries => { module with exports := entries }
  | .code bodies => { module with bodies := bodies }
  | .skipped => module

/-- The module that a preamble and a list of sections describe. -/
def ofSections (preamble : Preamble) (sections : List Section) : Module :=
  let contents : Module := sections.foldl (fun module found ↦ withContent module found.content) {}
  { contents with preamble := preamble, sections := sections.map (·.header) }

/-- A whole binary. The functions and the bodies have to be equally many. -/
def read : Reader Module := do
  let preamble ← Preamble.read
  let sections ← all Section.read Section.length_lt_of_read
  let module := ofSections preamble sections
  if module.functions.length = module.bodies.length then pure module
  else malformed (← offset) (.bodyCount module.functions.length module.bodies.length)

/-- Decodes a binary. -/
def decode (bytes : List UInt8) : Except Diagnostic Module :=
  match read { offset := 0, bytes := bytes } with
  | .ok module _ => .ok module
  | .error failure _ => .error failure

end Module

end StraightWasm
