import StraightWasm.Proofs.Bytes.Displacement
import StraightWasm.Proofs.Module.Recognition

/-!
# Sections further back in a binary

A section keeps two kinds of places: where its payload stood, and where the code of each body stood.
If it is read further back by some distance, both are further back by that distance, and nothing
else changes (`Section.displaces_read`). That is proved reader by reader; of the payloads only code
keeps places at all.

What is read is what is written, so a row of sections that is written at one offset is written at
every later one, with its places sent along (`Section.row_displace`).
-/

set_option autoImplicit false
set_option relaxedAutoImplicit false

namespace StraightWasm

open Reader

/-! ### Places -/

/-- A body with the place of its code sent elsewhere. -/
def Body.mapOffset (send : Nat → Nat) (body : Body) : Body :=
  { body with codeOffset := send body.codeOffset }

/-- The header of a section with the place of its payload sent elsewhere. -/
def SectionHeader.mapOffset (send : Nat → Nat) (header : SectionHeader) : SectionHeader :=
  { header with offset := send header.offset }

/-- The contents of a section with all places sent elsewhere. -/
def SectionContent.mapOffset (send : Nat → Nat) : SectionContent → SectionContent
  | .code bodies => .code (bodies.map (Body.mapOffset send))
  | content => content

/-- A section with all places sent elsewhere. -/
def Section.mapOffset (send : Nat → Nat) (found : Section) : Section where
  header := found.header.mapOffset send
  content := found.content.mapOffset send

variable {distance : Nat}

/-! ### Payloads -/

namespace Payload

theorem displaces_valueType : Displaces distance id valueType valueType :=
  displaces_expect _ _

theorem displaces_signature : Displaces distance id signature signature := by
  refine (displaces_expect _ _).bind fun _ ↦ displaces_valueType.vector_id.bind fun params ↦ ?_
  refine displaces_offset.bind fun place ↦ (displaces_unsigned 32).bind fun results ↦ ?_
  apply Displaces.ite
  · exact displaces_valueType.bind fun result ↦ displaces_pure _
  · exact displaces_malformed place _

theorem displaces_name (role : NameRole) : Displaces distance id (name role) (name role) := by
  refine displaces_offset.bind fun place ↦ displaces_sizedBytes.bind fun bytes ↦ ?_
  dsimp only [id]
  split
  · exact displaces_pure _
  · exact displaces_malformed place _

theorem displaces_exportEntry : Displaces distance id exportEntry exportEntry :=
  (displaces_name _).bind fun _ ↦ (displaces_expect _ _).bind fun _ ↦
    (displaces_unsigned 32).bind fun _ ↦ displaces_pure _

theorem displaces_limits : Displaces distance id limits limits := by
  refine (displaces_expect _ _).bind fun flags ↦ (displaces_unsigned _).bind fun _ ↦ ?_
  apply Displaces.ite
  · exact displaces_pure _
  · exact (displaces_unsigned _).bind fun _ ↦ displaces_pure _

theorem displaces_importDescriptor :
    Displaces distance id importDescriptor importDescriptor := by
  refine (displaces_expect _ _).bind fun kind ↦ ?_
  cases kind with
  | func => exact (displaces_unsigned 32).map fun _ ↦ rfl
  | table =>
    exact (displaces_expect _ _).bind fun _ ↦ displaces_limits.bind fun _ ↦ displaces_pure _
  | memory => exact displaces_limits.bind fun _ ↦ displaces_pure _
  | global => exact (displaces_expect _ _).bind fun _ ↦ (displaces_expect _ _).map fun _ ↦ rfl

theorem displaces_importEntry : Displaces distance id importEntry importEntry :=
  (displaces_name _).bind fun _ ↦ (displaces_name _).bind fun _ ↦
    displaces_importDescriptor.bind fun _ ↦ displaces_pure _

theorem displaces_localRun (soFar : RunsSoFar) :
    Displaces distance id (localRun soFar) (localRun soFar) := by
  refine displaces_offset.bind fun place ↦ (displaces_unsigned 32).bind fun length ↦
    displaces_valueType.bind fun type ↦ ?_
  apply Displaces.ite
  · exact displaces_pure _
  · exact displaces_malformed place _

theorem displaces_locals : Displaces distance id locals locals :=
  (displaces_unsigned 32).bind fun count ↦
    (displaces_iterate displaces_localRun count _).bind fun _ ↦ displaces_pure _

theorem displaces_body : Displaces distance (Body.mapOffset (· + distance)) body body := by
  refine displaces_locals.bind fun declared ↦ displaces_offset.bind fun place ↦
    displaces_unread.bind fun code ↦ displaces_skipAll.bind fun _ ↦ ?_
  exact displaces_pure (Body.mk declared code place)

theorem displaces_sizedBody :
    Displaces distance (Body.mapOffset (· + distance)) sizedBody sizedBody := by
  refine (displaces_unsigned 32).bind fun size ↦ (displaces_window size).bind fun frame ↦ ?_
  exact (displaces_body.inside frame).bind fun found ↦ displaces_pure found.1

end Payload

/-! ### Sections -/

namespace Section

theorem displaces_payload (kind : SectionKind) :
    Displaces distance (SectionContent.mapOffset (· + distance)) (payload kind) (payload kind) := by
  cases kind with
  | types => exact Payload.displaces_signature.vector_id.map fun _ ↦ rfl
  | functions => exact (displaces_unsigned 32).vector_id.map fun _ ↦ rfl
  | imports => exact Payload.displaces_importEntry.vector_id.map fun _ ↦ rfl
  | exports => exact Payload.displaces_exportEntry.vector_id.map fun _ ↦ rfl
  | code => exact Payload.displaces_sizedBody.vector.map fun _ ↦ rfl
  | custom | tables | memories | globals | start | elements | data =>
    exact displaces_skipAll.bind fun _ ↦ displaces_pure SectionContent.skipped

/-- A section that is read further back has its places further back. -/
theorem displaces_read : Displaces distance (mapOffset (· + distance)) read read := by
  refine displaces_offset.bind fun place ↦ displaces_byte.bind fun identifier ↦
    (displaces_unsigned 32).bind fun size ↦ ?_
  dsimp only [id]
  cases SectionKind.ofByte? identifier with
  | none => exact displaces_malformed place _
  | some kind =>
    refine (displaces_window size).bind fun frame ↦
      ((displaces_payload kind).inside frame).bind fun found ↦ ?_
    apply Displaces.ite
    · exact displaces_pure (Section.mk ⟨kind, frame.offset, size⟩ found.1)
    · exact displaces_malformed found.2.offset _

variable {offset : Nat} {bytes : List UInt8}

theorem Written.displace {found : Section} (h : Written offset found bytes) (distance : Nat) :
    Written (offset + distance) (found.mapOffset (· + distance)) bytes := by
  have hread : read ⟨offset, bytes⟩ = .ok found ⟨offset + bytes.length, []⟩ :=
    (reads_read _ _ _).mpr ⟨bytes, h, (List.append_nil bytes).symm, rfl⟩
  have hdisplaced := @displaces_read distance ⟨offset, bytes⟩
  rw [hread] at hdisplaced
  obtain ⟨front, hfront, hpasses⟩ := (reads_read _ _ _).mp hdisplaced
  obtain rfl : bytes = front := hpasses.bytes_eq.trans (List.append_nil front)
  exact hfront

/-- A row of sections can be written further back. -/
theorem row_displace {sections : List Section} (h : Form.Row Written offset sections bytes)
    (distance : Nat) :
    Form.Row Written (offset + distance) (sections.map (mapOffset (· + distance))) bytes := by
  induction h with
  | nil offset => exact .nil _
  | @cons offset found rest front back hfound _ ih =>
    rw [Nat.add_right_comm] at ih
    exact .cons (Written.displace hfound distance) ih

end Section

end StraightWasm
