import StraightWasm.Proofs.Module.Payloads

/-!
# Decoding accepts exactly the format

The reader of a section finds exactly the written sections (`Section.reads_read`): the size in front
of a payload cuts the window out, and a payload that is not used up is refused. Reading sections up
to the end of the bytes therefore finds exactly the rows of sections. What the reader makes of them
section by section is what the last section of each kind holds (`Module.foldl_withContent`). So a
binary can be decoded exactly if it is written in the format, and it has one module
(`Module.decode_eq_ok_iff_written`).
-/

set_option autoImplicit false
set_option relaxedAutoImplicit false

namespace StraightWasm

open Reader

/-! ### The preamble -/

theorem Preamble.reads_read :
    Reads read fun _ found bytes ↦ found = standard ∧ bytes = Module.opening := by
  refine Reads.congr ((reads_word 4).bind fun magic ↦
    ((reads_word 4).bind fun version ↦ (reads_pure _).guard _).guard _) fun offset found bytes ↦ ?_
  constructor
  · rintro ⟨_, magic, _, rfl, ⟨hmagicSize, rfl⟩, hmagic, _, version, _, rfl, ⟨hversionSize, rfl⟩,
      hversion, rfl, rfl⟩
    obtain rfl : magic = [0x00, 0x61, 0x73, 0x6d] := littleEndian_inj hmagicSize hmagic
    obtain rfl : version = [0x01, 0x00, 0x00, 0x00] := littleEndian_inj hversionSize hversion
    exact ⟨rfl, rfl⟩
  · rintro ⟨rfl, rfl⟩
    exact ⟨_, [0x00, 0x61, 0x73, 0x6d], _, rfl, ⟨rfl, rfl⟩, rfl, _, [0x01, 0x00, 0x00, 0x00], [],
      rfl, ⟨rfl, rfl⟩, rfl, rfl, rfl⟩

/-! ### Sections -/

namespace Section

theorem readsWhole_payload :
    ∀ kind : SectionKind, (payload kind).ReadsWhole (SectionContent.Written kind)
  | .types => ((reads_vector Payload.reads_signature).map _).whole
  | .functions => ((reads_vector (reads_unsigned (by decide))).map _).whole
  | .imports => ((reads_vector Payload.reads_importEntry).map _).whole
  | .exports => ((reads_vector Payload.reads_exportEntry).map _).whole
  | .code => ((reads_vector Payload.reads_sizedBody).map _).whole
  | .custom | .tables | .memories | .globals | .start | .elements | .data =>
    (exhausts_skipAll _).whole

theorem reads_behindIdentifier (place : Nat) (identifier : UInt8) :
    Reads (behindIdentifier place identifier) fun offset found bytes ↦
      identifier = found.header.kind.toByte ∧ ∃ size contents, bytes = size ++ contents ∧
        Form.Integer 32 offset contents.length size ∧
        SectionContent.Written found.header.kind (offset + size.length) found.content contents ∧
        found.header.offset = offset + size.length ∧ found.header.size = contents.length := by
  refine ((reads_unsigned (by decide)).bind (?_ : ∀ size : Nat, Reads _ fun offset found bytes ↦
    identifier = found.header.kind.toByte ∧ bytes.length = size ∧
      SectionContent.Written found.header.kind offset found.content bytes ∧
      found.header.offset = offset ∧ found.header.size = size)).congr fun offset found bytes ↦ ?_
  · intro size
    cases hkind : SectionKind.ofByte? identifier with
    | none =>
      -- The byte is that of no kind, so it is not the byte of the kind of a section.
      refine (reads_fail _).congr fun offset found bytes ↦ ?_
      simp only [false_iff, not_and]
      intro hbyte
      rw [SectionKind.ofByte?_eq_some_iff.mpr hbyte] at hkind
      cases hkind
    | some kind =>
      refine Reads.congr ((readsWhole_payload kind).reads_framed size
        (fun frame content ↦ Section.mk ⟨kind, frame.offset, size⟩ content)
        fun _ left ↦ .malformed left.offset (.unreadPayload kind size left.length))
        fun offset found bytes ↦ ?_
      constructor
      · rintro ⟨hlength, content, hcontent, rfl⟩
        exact ⟨SectionKind.ofByte?_eq_some_iff.mp hkind, hlength, hcontent, rfl, rfl⟩
      · obtain ⟨⟨foundKind, place, length⟩, content⟩ := found
        rintro ⟨hidentifier, hlength, hcontent, rfl, rfl⟩
        obtain rfl : kind = foundKind := by
          rw [SectionKind.ofByte?_eq_some_iff.mpr hidentifier] at hkind
          exact (Option.some.inj hkind).symm
        exact ⟨hlength, content, hcontent, rfl⟩
  · constructor
    · rintro ⟨_, size, contents, rfl, hsize, hidentifier, rfl, hcontent, hoffset, hlength⟩
      exact ⟨hidentifier, size, contents, rfl, hsize, hcontent, hoffset, hlength⟩
    · rintro ⟨hidentifier, size, contents, rfl, hsize, hcontent, hoffset, hlength⟩
      exact ⟨_, size, contents, rfl, hsize, hidentifier, rfl, hcontent, hoffset, hlength⟩

theorem reads_read : Reads read Section.Written := by
  refine Reads.congr (reads_behind_offset fun place ↦
    reads_byte.bind fun identifier ↦ reads_behindIdentifier place identifier)
    fun offset found bytes ↦ ?_
  constructor
  · rintro ⟨identifier, _, _, rfl, rfl, rfl, size, contents, rfl, h⟩
    exact ⟨size, contents, rfl, h⟩
  · rintro ⟨size, contents, rfl, h⟩
    exact ⟨_, [_], size ++ contents, rfl, rfl, rfl, size, contents, rfl, h⟩

end Section

/-! ### Modules -/

namespace Module

theorem decode_iff {bytes : List UInt8} {module : Module} :
    decode bytes = .ok module ↔ ∃ rest, read { offset := 0, bytes := bytes } = .ok module rest := by
  unfold decode
  cases hread : read { offset := 0, bytes := bytes } with
  | ok found rest => simp
  | error failure stop => simp

/-- A part of a module that every section either replaces or leaves alone is what the last section
holds that replaces it. -/
theorem foldl_withContent {α : Type} (part : Module → List α)
    (held? : SectionContent → Option (List α))
    (hpart : ∀ module content, part (withContent module content) =
      (held? content).getD (part module)) (sections : List Section) :
    ∀ module, part (sections.foldl (fun module found ↦ withContent module found.content) module) =
      (sections.filterMap fun found ↦ held? found.content).getLast?.getD (part module) := by
  induction sections with
  | nil => exact fun module ↦ rfl
  | cons found rest ih =>
    intro module
    rw [List.foldl_cons, ih, hpart, List.filterMap_cons]
    cases held? found.content with
    | none => rfl
    | some held => simp only [List.getLast?_cons, Option.getD_some]

theorem comprises_ofSections (sections : List Section) :
    (ofSections .standard sections).Comprises sections where
  preamble_eq := rfl
  sections_eq := rfl
  types_eq := foldl_withContent (·.types) SectionContent.types?
    (fun _ content ↦ by cases content <;> rfl) sections {}
  functions_eq := foldl_withContent (·.functions) SectionContent.functions?
    (fun _ content ↦ by cases content <;> rfl) sections {}
  imports_eq := foldl_withContent (·.imports) SectionContent.imports?
    (fun _ content ↦ by cases content <;> rfl) sections {}
  exports_eq := foldl_withContent (·.exports) SectionContent.exports?
    (fun _ content ↦ by cases content <;> rfl) sections {}
  bodies_eq := foldl_withContent (·.bodies) SectionContent.code?
    (fun _ content ↦ by cases content <;> rfl) sections {}

theorem Comprises.unique {module other : Module} {sections : List Section}
    (h : module.Comprises sections) (hother : other.Comprises sections) : module = other := by
  cases module
  cases other
  obtain ⟨rfl, rfl, rfl, rfl, rfl, rfl, rfl⟩ := h
  obtain ⟨rfl, rfl, rfl, rfl, rfl, rfl, rfl⟩ := hother
  rfl

theorem read_iff_written {bytes : List UInt8} {module : Module} :
    (∃ left, read { offset := 0, bytes := bytes } = .ok module left) ↔ module.Written bytes := by
  have hsections := exhausts_all Section.length_lt_of_read Section.reads_read
  constructor
  · rintro ⟨left, hread⟩
    obtain ⟨preamble, middle, hpreamble, hread⟩ := Success.bind_iff.mp hread
    obtain ⟨_, ⟨rfl, rfl⟩, hopening⟩ := (Preamble.reads_read _ _ _).mp hpreamble
    obtain ⟨sections, _, hall, hread⟩ := Success.bind_iff.mp hread
    obtain ⟨hrow, rfl⟩ := (hsections _ _ _).mp hall
    -- What is left is the comparison of the numbers of functions and bodies.
    split_ifs at hread with hlength
    · obtain ⟨rfl, -⟩ := Success.pure_iff.mp hread
      rw [hopening.offset_eq] at hrow
      exact ⟨sections, middle.bytes, hopening.bytes_eq, hrow, comprises_ofSections sections,
        hlength⟩
    · cases hread
  · rintro ⟨sections, rows, rfl, hrow, hcomprises, hlength⟩
    obtain rfl := hcomprises.unique (comprises_ofSections sections)
    have hpreamble := (Preamble.reads_read ⟨0, opening ++ rows⟩ .standard ⟨8, rows⟩).mpr
      ⟨opening, ⟨rfl, rfl⟩, rfl, rfl⟩
    have hall := (hsections ⟨8, rows⟩ sections _).mpr ⟨hrow, rfl⟩
    refine ⟨Span.finish ⟨8, rows⟩, Success.bind_iff.mpr ⟨_, _, hpreamble, ?_⟩⟩
    refine Success.bind_iff.mpr ⟨_, _, hall, ?_⟩
    rw [if_pos hlength]
    rfl

/-- Decoding accepts exactly the binaries of modules, and gives the module that a binary is one
of. -/
theorem decode_eq_ok_iff_written (bytes : List UInt8) (module : Module) :
    decode bytes = .ok module ↔ module.Written bytes :=
  decode_iff.trans read_iff_written

end Module

end StraightWasm
