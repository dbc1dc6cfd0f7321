import StraightWasm.Proofs.Bytes.Truncation
import StraightWasm.Proofs.Module.Payloads

/-!
# Payloads end where their readers say

The readers of payloads find exactly the written forms of their contents, and they are frugal: what
stands behind the bytes that a reader takes has no say in what it does, and without the last of
these bytes it runs out of input (`Reader.Delimits`). A reader is a sequence of elementary readers,
so it is frugal because its parts are (`Reader.Frugal.bind`). A choice between readers depends on a
value that has been read before, so it is enough that each of them is frugal.

Only the reader of a body is not frugal on its own: it takes all bytes there are as code. It runs in
a window that is cut out before, and what is read inside of a window does not depend on what is
outside of it (`Reader.frugal_inside`).
-/

set_option autoImplicit false
set_option relaxedAutoImplicit false

namespace StraightWasm

/-- Whether a reader succeeds exactly on a written form at the front of its span, and takes no
notice of anything behind it. -/
structure Reader.Delimits {α : Type} (reader : Reader α) (form : Form α) : Prop where
  reads : reader.Reads form
  frugal : reader.Frugal

namespace Payload

open Reader

/-! ### Entries -/

theorem frugal_valueType : Frugal valueType :=
  frugal_expect _ _

theorem frugal_signature : Frugal signature := by
  refine (frugal_expect _ _).bind fun _ ↦ frugal_valueType.vector.bind fun params ↦ ?_
  refine frugal_offset.bind fun place ↦ (frugal_unsigned 32).bind fun results ↦ .ite ?_ ?_
  · exact frugal_valueType.bind fun result ↦ frugal_pure _
  · exact frugal_malformed _ _

theorem frugal_name (role : NameRole) : Frugal (name role) := by
  refine frugal_offset.bind fun place ↦ frugal_sizedBytes.bind fun bytes ↦ ?_
  split
  · exact frugal_pure _
  · exact frugal_malformed _ _

theorem frugal_exportEntry : Frugal exportEntry :=
  (frugal_name _).bind fun _ ↦ (frugal_expect _ _).bind fun _ ↦
    (frugal_unsigned 32).bind fun _ ↦ frugal_pure _

theorem frugal_limits : Frugal limits := by
  refine (frugal_expect _ _).bind fun flags ↦ (frugal_unsigned _).bind fun _ ↦ .ite ?_ ?_
  · exact frugal_pure _
  · exact (frugal_unsigned _).bind fun _ ↦ frugal_pure _

theorem frugal_importDescriptor : Frugal importDescriptor := by
  refine (frugal_expect _ _).bind fun kind ↦ ?_
  cases kind with
  | func => exact (frugal_unsigned 32).map _
  | table =>
    exact (frugal_expect _ _).bind fun _ ↦ frugal_limits.bind fun _ ↦ frugal_pure _
  | memory => exact frugal_limits.bind fun _ ↦ frugal_pure _
  | global => exact (frugal_expect _ _).bind fun _ ↦ (frugal_expect _ _).map _

theorem frugal_importEntry : Frugal importEntry :=
  (frugal_name _).bind fun _ ↦ (frugal_name _).bind fun _ ↦
    frugal_importDescriptor.bind fun _ ↦ frugal_pure _

/-! ### Code -/

theorem frugal_localRun (soFar : RunsSoFar) : Frugal (localRun soFar) := by
  refine frugal_offset.bind fun place ↦ (frugal_unsigned 32).bind fun length ↦ ?_
  refine frugal_valueType.bind fun type ↦ .ite ?_ ?_
  · exact frugal_pure _
  · exact frugal_malformed _ _

theorem frugal_locals : Frugal locals :=
  (frugal_unsigned 32).bind fun count ↦
    (frugal_iterate frugal_localRun count _).bind fun _ ↦ frugal_pure _

theorem frugal_sizedBody : Frugal sizedBody :=
  (frugal_unsigned 32).bind fun size ↦ (frugal_window size).bind fun frame ↦
    (frugal_inside body frame).bind fun _ ↦ frugal_pure _

/-! ### Payloads -/

/-- Every reader of a payload, and the reader of the declared locals, succeeds on the written forms
of its contents and looks at the bytes that it takes and at nothing else. With any other bytes
behind them it succeeds with the same value and stops at the same place, and if the input ends
before the last of them it runs out. -/
theorem payloads_delimited :
    types.Delimits (Form.Vector Signature.Written) ∧
    functions.Delimits (Form.Vector (Form.Integer 32)) ∧
    imports.Delimits (Form.Vector Import.Written) ∧
    exports.Delimits (Form.Vector Export.Written) ∧
    code.Delimits (Form.Vector (Form.Sized Body.Written)) ∧
    locals.Delimits (fun offset declared bytes ↦ ∃ runs,
      Form.Vector LocalRun.Written offset runs bytes ∧
        (runs.map (·.length)).sum ≤ localLimit ∧ declared = expand runs) :=
  ⟨⟨reads_vector reads_signature, frugal_signature.vector⟩,
    ⟨reads_vector (reads_unsigned (by decide)), (frugal_unsigned 32).vector⟩,
    ⟨reads_vector reads_importEntry, frugal_importEntry.vector⟩,
    ⟨reads_vector reads_exportEntry, frugal_exportEntry.vector⟩,
    ⟨reads_vector reads_sizedBody, frugal_sizedBody.vector⟩,
    ⟨reads_locals, frugal_locals⟩⟩

end Payload

end StraightWasm
