import StraightWasm.Module.Decode
import StraightWasm.Proofs.Bytes.Faults

/-!
# Where decoding fails

Every reader of a payload is confined, and so is the reader of a section
(`Section.confined_read`). The preamble is blamed on the two words that it consists of. So a binary
that cannot be decoded is blamed on a place in it, the one behind its last byte included, and on no
function (`Module.isReadFault_of_decode`).
-/

set_option autoImplicit false
set_option relaxedAutoImplicit false

namespace StraightWasm

open Reader
open Success (Ends)

variable {low high : Nat}

/-! ### Payloads -/

namespace Payload

theorem confined_valueType : Confined low high valueType :=
  confined_expect fun _ ↦ rfl

theorem confined_signature : Confined low high signature := by
  refine (confined_expect fun _ ↦ rfl).bind fun _ ↦ confined_valueType.vector.bind fun params ↦ ?_
  refine confined_offset_bind fun place hlow hhigh ↦ (confined_unsigned 32).bind fun results ↦ ?_
  apply Confined.ite
  · exact confined_valueType.bind fun result ↦ confined_pure _
  · exact confined_malformed hlow hhigh rfl

theorem confined_name (role : NameRole) : Confined low high (name role) := by
  refine confined_offset_bind fun place hlow hhigh ↦ confined_sizedBytes.bind fun bytes ↦ ?_
  split
  · exact confined_pure _
  · exact confined_malformed hlow hhigh rfl

theorem confined_exportEntry : Confined low high exportEntry :=
  (confined_name _).bind fun _ ↦ (confined_expect fun _ ↦ rfl).bind fun _ ↦
    (confined_unsigned 32).bind fun _ ↦ confined_pure _

theorem confined_limits : Confined low high limits := by
  refine (confined_expect fun _ ↦ rfl).bind fun flags ↦ (confined_unsigned _).bind fun _ ↦ ?_
  apply Confined.ite
  · exact confined_pure _
  · exact (confined_unsigned _).bind fun _ ↦ confined_pure _

theorem confined_importDescriptor : Confined low high importDescriptor := by
  refine (confined_expect fun _ ↦ rfl).bind fun kind ↦ ?_
  cases kind with
  | func => exact (confined_unsigned 32).map _
  | table =>
    exact (confined_expect fun _ ↦ rfl).bind fun _ ↦ confined_limits.bind fun _ ↦ confined_pure _
  | memory => exact confined_limits.bind fun _ ↦ confined_pure _
  | global => exact (confined_expect fun _ ↦ rfl).bind fun _ ↦ (confined_expect fun _ ↦ rfl).map _

theorem confined_importEntry : Confined low high importEntry :=
  (confined_name _).bind fun _ ↦ (confined_name _).bind fun _ ↦
    confined_importDescriptor.bind fun _ ↦ confined_pure _

theorem confined_localRun (soFar : RunsSoFar) : Confined low high (localRun soFar) := by
  refine confined_offset_bind fun place hlow hhigh ↦ (confined_unsigned 32).bind fun length ↦
    confined_valueType.bind fun type ↦ ?_
  apply Confined.ite
  · exact confined_pure _
  · exact confined_malformed hlow hhigh rfl

theorem confined_body : Confined low high body := by
  have hlocals : Confined low high locals :=
    (confined_unsigned 32).bind fun count ↦
      (confined_iterate confined_localRun count _).bind fun _ ↦ confined_pure _
  refine hlocals.bind fun declared ↦ confined_offset_bind fun place _ _ ↦ ?_
  exact confined_unread.bind fun _ ↦ confined_skipAll.bind fun _ ↦ confined_pure _

theorem confined_sizedBody : Confined low high sizedBody := by
  refine (confined_unsigned 32).bind fun size ↦ confined_window_bind fun frame hlow hhigh ↦ ?_
  exact confined_inside_bind confined_body hlow hhigh fun _ _ _ _ ↦ confined_pure _

end Payload

/-! ### Sections and modules -/

namespace Section

theorem confined_payload (kind : SectionKind) : Confined low high (payload kind) := by
  cases kind with
  | types => exact Payload.confined_signature.vector.map _
  | functions => exact (confined_unsigned 32).vector.map _
  | imports => exact Payload.confined_importEntry.vector.map _
  | exports => exact Payload.confined_exportEntry.vector.map _
  | code => exact Payload.confined_sizedBody.vector.map _
  | custom | tables | memories | globals | start | elements | data =>
    exact confined_skipAll.bind fun _ ↦ confined_pure _

/-- A section is blamed on its identifier, on its size, on a place in its payload, or on what its
payload leaves. -/
theorem confined_read : Confined low high read := by
  refine confined_offset_bind fun place hlow hhigh ↦ confined_byte.bind fun identifier ↦
    (confined_unsigned 32).bind fun size ↦ ?_
  split
  · exact confined_malformed hlow hhigh rfl
  · refine confined_window_bind fun frame hframe hframe' ↦
      confined_inside_bind (confined_payload _) hframe hframe' fun content left hleft hleft' ↦ ?_
    apply Confined.ite
    · exact confined_pure _
    · exact confined_malformed hleft hleft' rfl

end Section

/-- A preamble at the start of a binary is blamed on one of its words. -/
theorem Preamble.confined_read : Confined 0 high read := by
  refine confined_word_bind fun hmagic magic ↦ ?_
  apply Confined.ite
  · refine confined_word_bind fun hversion version ↦ ?_
    apply Confined.ite
    · exact confined_pure _
    · exact confined_malformed (Nat.zero_le 4) (by omega) rfl
  · exact confined_malformed le_rfl (Nat.zero_le high) rfl

namespace Module

theorem confined_read : Confined 0 high read := by
  have hsections : Confined 0 high (all Section.read Section.length_lt_of_read) :=
    fun span hspan ↦ Section.confined_read.untilEnd [] span hspan
  refine Preamble.confined_read.bind fun preamble ↦ hsections.bind fun sections ↦ ?_
  apply Confined.ite
  · exact confined_pure _
  · exact confined_offset_bind fun place hlow hhigh ↦ confined_malformed hlow hhigh rfl

/-- A binary that cannot be decoded is blamed on a place in it. -/
theorem isReadFault_of_decode {bytes : List UInt8} {failure : Diagnostic}
    (h : decode bytes = .error failure) : failure.IsReadFault 0 bytes.length := by
  have hread := @confined_read bytes.length { offset := 0, bytes := bytes }
    ⟨le_rfl, Nat.zero_add _⟩
  unfold decode at h
  cases hrun : read { offset := 0, bytes := bytes } with
  | ok module after =>
    rw [hrun] at h
    cases h
  | error found stop =>
    rw [hrun] at h hread
    cases h
    exact hread

end Module

end StraightWasm
