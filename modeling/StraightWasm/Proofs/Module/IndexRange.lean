import StraightWasm.Proofs.Module.Positions

/-!
# Indices of a module fit in 32 bits

Functions are counted in 32-bit words, the imported ones first. Nothing in a module says that this
is enough; it follows from how a module is written. Every item of a row takes some least number of
bytes (`Form.Takes`), so a payload has room for so many items and no more (`Form.Takes.vector_lt`),
and the size of a payload is itself a 32-bit integer (`Section.size_lt_of_written`). An import takes
four bytes at least and a body two (`Import.takes_written`, `Body.takes_sized`), so the imports fill
less than a quarter of the words and the bodies less than a half. That leaves room for the sum of
both counts (`Module.indexable_of_lt`).

The code of a body is bounded in the same way (`Module.length_code_lt`).
-/

set_option autoImplicit false
set_option relaxedAutoImplicit false

namespace StraightWasm

variable {α : Type}

/-! ### How many bytes a form takes -/

namespace Form

/-- Whether every written form of a value has some number of bytes at least. -/
def Takes (least : Nat) (form : Form α) : Prop :=
  ∀ offset value bytes, form offset value bytes → least ≤ bytes.length

variable {least offset : Nat} {form : Form α} {values : List α} {bytes : List UInt8}

theorem takes_zero (form : Form α) : Takes 0 form :=
  fun _ _ _ _ ↦ Nat.zero_le _

theorem takes_integer (width : Nat) : Takes 1 (Integer width) :=
  fun _ _ _ h ↦ List.length_pos_iff.mpr h.ne_nil

theorem Takes.sized (h : Takes least form) : Takes (1 + least) (Sized form) := by
  rintro offset value _ ⟨size, inner, rfl, hsize, hinner⟩
  rw [List.length_append]
  exact Nat.add_le_add (takes_integer 32 _ _ _ hsize) (h _ _ _ hinner)

/-- Items in a row take the least number of bytes each. -/
theorem Takes.mul_length_le (h : Takes least form) (hrow : Row form offset values bytes) :
    least * values.length ≤ bytes.length := by
  induction hrow with
  | nil => exact Nat.le_refl 0
  | cons first others ih =>
    rw [List.length_cons, List.length_append, Nat.mul_succ, Nat.add_comm]
    exact Nat.add_le_add (h _ _ _ first) ih

/-- Behind a count there is less room than in the whole vector. -/
theorem Takes.vector_lt (h : Takes least form) (hvector : Vector form offset values bytes) :
    least * values.length < bytes.length := by
  obtain ⟨count, items, rfl, hcount, hitems⟩ := hvector
  have hlead := takes_integer 32 _ _ _ hcount
  have hrow := h.mul_length_le hitems
  rw [List.length_append]
  omega

theorem integer_lt {value : Nat} (h : Integer 32 offset value bytes) : value < UInt32.size :=
  Int.ofNat_lt.mp h.fits.2

end Form

/-- What a form takes its reader takes off the span. -/
theorem Reader.Reads.length_add_le {reader : Reader α} {form : Form α} {least : Nat}
    (h : reader.Reads form) (htakes : form.Takes least) {before after : Span} {value : α}
    (hrun : reader before = .ok value after) : after.length + least ≤ before.length := by
  obtain ⟨bytes, hwritten, hpasses⟩ := (h before value after).mp hrun
  have hleast := htakes _ _ _ hwritten
  rw [Span.length, Span.length, hpasses.bytes_eq, List.length_append]
  omega

/-! ### Imports and bodies -/

theorem Name.takes_written : Form.Takes 1 Name.Written :=
  (Form.takes_zero _).sized

theorem Bounds.takes_written (width : Nat) (hasMaximum : Bool) :
    Form.Takes 1 (Bounds.Written width hasMaximum) := by
  intro offset _ bytes hbounds
  cases hasMaximum with
  | false =>
    obtain ⟨_, hminimum⟩ := hbounds
    exact Form.takes_integer _ _ _ _ hminimum
  | true =>
    obtain ⟨_, _, low, high, rfl, hlow, -⟩ := hbounds
    have hleast := Form.takes_integer _ _ _ _ hlow
    rw [List.length_append]
    omega

theorem Limits.takes_written : Form.Takes 2 Limits.Written := by
  rintro offset _ _ ⟨flags, bounds, rfl, -, hbounds⟩
  rw [List.length_cons]
  exact Nat.succ_le_succ (Bounds.takes_written _ _ _ _ _ hbounds)

/-- Behind its kind the description of a function is the shortest one. -/
theorem ImportDescriptor.takes_written : Form.Takes 2 ImportDescriptor.Written := by
  rintro offset descriptor _ ⟨kind, description, rfl, hdescription⟩
  rw [List.length_cons]
  refine Nat.succ_le_succ ?_
  cases hdescription with
  | func hindex => exact Form.takes_integer _ _ _ _ hindex
  | table helement hlimits => exact Nat.le_add_left 1 _
  | memory hlimits => exact Nat.le_of_succ_le (Limits.takes_written _ _ _ hlimits)
  | global htype => exact Nat.le_add_left 1 _

/-- An import takes a byte for each of its two names and two for what it brings in. -/
theorem Import.takes_written : Form.Takes 4 Import.Written := by
  rintro offset entry _ ⟨moduleName, fieldName, descriptor, rfl, hmodule, hfield, hdescriptor⟩
  have hmoduleLeast := Name.takes_written _ _ _ hmodule
  have hfieldLeast := Name.takes_written _ _ _ hfield
  have hdescriptorLeast := ImportDescriptor.takes_written _ _ _ hdescriptor
  rw [List.length_append, List.length_append]
  omega

/-- A body takes a byte for its size and one for the number of its runs. -/
theorem Body.takes_sized : Form.Takes 2 (Form.Sized Body.Written) := by
  have hbody : Form.Takes 1 Body.Written := by
    rintro offset body _ ⟨runs, declared, rfl, hruns, -⟩
    have hlead := (Form.takes_zero _).vector_lt hruns
    rw [List.length_append]
    omega
  exact hbody.sized

theorem Body.length_code_lt {offset : Nat} {body : Body} {bytes : List UInt8}
    (h : Form.Sized Body.Written offset body bytes) : body.code.length < UInt32.size := by
  obtain ⟨size, inner, rfl, hsize, runs, declared, rfl, -⟩ := h
  have hinner := Form.integer_lt hsize
  rw [List.length_append] at hinner
  omega

/-! ### Sections -/

namespace Section

theorem size_lt_of_written {offset : Nat} {found : Section} {bytes : List UInt8}
    (h : Written offset found bytes) : found.header.size < UInt32.size := by
  obtain ⟨size, contents, -, hsize, -, -, hlength⟩ := h
  rw [hlength]
  exact Form.integer_lt hsize

end Section

namespace SectionContent

/-- How many bytes the imports or the bodies of a section take at least. -/
def need : SectionContent → Nat
  | imports entries => 4 * entries.length
  | code bodies => 2 * bodies.length
  | _ => 0

theorem need_le_of_written {kind : SectionKind} {offset : Nat} {content : SectionContent}
    {contents : List UInt8} (h : Written kind offset content contents) :
    content.need ≤ contents.length := by
  cases kind with
  | imports =>
    obtain ⟨entries, hentries, rfl⟩ := h
    exact Nat.le_of_lt (Import.takes_written.vector_lt hentries)
  | code =>
    obtain ⟨bodies, hbodies, rfl⟩ := h
    exact Nat.le_of_lt (Body.takes_sized.vector_lt hbodies)
  | types | functions | exports =>
    obtain ⟨_, -, rfl⟩ := h
    exact Nat.zero_le _
  | custom | tables | memories | globals | start | elements | data =>
    obtain rfl := h
    exact Nat.zero_le _

end SectionContent

/-- What the last section of a kind holds needs no more room than a 32-bit size can give. -/
theorem Section.mul_length_last_lt {least : Nat} {held? : SectionContent → Option (List α)}
    (hheld : ∀ content values, held? content = some values →
      content.need = least * values.length) {sections : List Section} {offset : Nat}
    {rows : List UInt8} (h : Form.Row Written offset sections rows) :
    least * (Module.last held? sections).length < UInt32.size := by
  obtain hnone | ⟨before, found, after, rfl, hfound, -⟩ := Module.last_cases held? sections
  · rw [hnone]
    exact Nat.zero_lt_succ _
  · obtain ⟨place, part, -, size, contents, -, hsize, hcontents, -, -⟩ :=
      h.exists_of_mem (List.mem_append_right before List.mem_cons_self)
    rw [← hheld found.content _ hfound]
    exact Nat.lt_of_le_of_lt (SectionContent.need_le_of_written hcontents) (Form.integer_lt hsize)

/-! ### Modules -/

namespace Module

variable {bytes : List UInt8} {module : Module}

/-- The code of every body of a decoded module is shorter than a 32-bit word can say. -/
theorem length_code_lt (h : decode bytes = .ok module) {body : Body}
    (hbody : body ∈ module.bodies) :
    body.code.length < UInt32.size := by
  obtain ⟨sections, rows, -, hrow, hcomprises, -⟩ := read_iff_written.mp (decode_iff.mp h)
  rw [hcomprises.bodies_eq] at hbody
  obtain hnone | ⟨header, -, place, payload, -, -, -, count, items, -, -, hitems⟩ :=
    Section.lastCode_cases hrow
  · rw [hnone] at hbody
    cases hbody
  · obtain ⟨_, _, -, hwritten⟩ := hitems.exists_of_mem hbody
    exact Body.length_code_lt hwritten

/-- Whether the functions of a module can be counted in 32-bit words, the imported ones first. -/
structure Indexable (module : Module) : Prop where
  imports_lt : 4 * module.imports.length < UInt32.size
  bodies_lt : 2 * module.bodies.length < UInt32.size
  length_eq : module.functions.length = module.bodies.length
  /-- The number of imported functions is kept by a word. -/
  toNat_imported : (UInt32.ofNat module.importedFunctions).toNat = module.importedFunctions
  /-- The index of a function that is defined here is kept by a word. -/
  toNat_index : ∀ index < module.functions.length, (UInt32.ofNat index).toNat = index
  sum_lt : ∀ index < module.functions.length, module.importedFunctions + index < UInt32.size
  /-- The two are added in words without a carry out of the word. -/
  toNat_exportIndex : ∀ index < module.functions.length,
    (module.exportIndex index).toNat = module.importedFunctions + index

/-- A quarter of the words and a half of them leave room for each other. -/
theorem indexable_of_lt (himports : 4 * module.imports.length < UInt32.size)
    (hbodies : 2 * module.bodies.length < UInt32.size)
    (hlength : module.functions.length = module.bodies.length) : module.Indexable := by
  have himported : module.importedFunctions ≤ module.imports.length := List.countP_le_length
  have hsum : ∀ index < module.functions.length,
      module.importedFunctions + index < UInt32.size := by
    intro index hindex
    omega
  have hindex : ∀ index < module.functions.length, (UInt32.ofNat index).toNat = index :=
    fun index hindex ↦ UInt32.toNat_ofNat_of_lt' (by omega)
  have hcount : (UInt32.ofNat module.importedFunctions).toNat = module.importedFunctions :=
    UInt32.toNat_ofNat_of_lt' (by omega)
  refine ⟨himports, hbodies, hlength, hcount, hindex, hsum, fun index hlt ↦ ?_⟩
  rw [exportIndex, UInt32.toNat_add, hcount, hindex index hlt]
  exact Nat.mod_eq_of_lt (hsum index hlt)

/-- Assumes: a binary that can be decoded. Reading an import takes four bytes at least and reading a
body two, the size of every payload is a 32-bit integer, and the functions of the module can be
counted in 32-bit words. -/
theorem indexable_of_decode (h : decode bytes = .ok module) :
    (∀ before entry after, Payload.importEntry before = .ok entry after →
        after.length + 4 ≤ before.length) ∧
      (∀ before body after, Payload.sizedBody before = .ok body after →
        after.length + 2 ≤ before.length) ∧
      (∀ header ∈ module.sections, header.size < UInt32.size) ∧ module.Indexable := by
  obtain ⟨sections, rows, -, hrow, hcomprises, hlength⟩ := read_iff_written.mp (decode_iff.mp h)
  refine ⟨fun _ _ _ ↦ Payload.reads_importEntry.length_add_le Import.takes_written,
    fun _ _ _ ↦ Payload.reads_sizedBody.length_add_le Body.takes_sized, ?_,
    indexable_of_lt ?_ ?_ hlength⟩
  · intro header hheader
    rw [hcomprises.sections_eq] at hheader
    obtain ⟨found, hfound, rfl⟩ := List.mem_map.mp hheader
    obtain ⟨_, _, -, hwritten⟩ := hrow.exists_of_mem hfound
    exact Section.size_lt_of_written hwritten
  · rw [hcomprises.imports_eq]
    refine Section.mul_length_last_lt (fun content entries hentries ↦ ?_) hrow
    cases content <;> cases hentries
    rfl
  · rw [hcomprises.bodies_eq]
    refine Section.mul_length_last_lt (fun content bodies hbodies ↦ ?_) hrow
    cases content <;> cases hbodies
    rfl

/-- A binary with an import in four bytes and a body in two, which has no code at all. -/
def sparse : List UInt8 :=
  [0x00, 0x61, 0x73, 0x6d, 0x01, 0x00, 0x00, 0x00,
    0x01, 0x05, 0x01, 0x60, 0x00, 0x01, 0x7f,
    0x02, 0x05, 0x01, 0x00, 0x00, 0x00, 0x00,
    0x03, 0x03, 0x02, 0x00, 0x00,
    0x0a, 0x06, 0x02, 0x01, 0x00, 0x02, 0x00, 0x0b]

theorem indexable_of_decode_sparse :
    ∃ module, decode sparse = .ok module ∧ module.Indexable ∧ module.importedFunctions = 1 ∧
      module.functions.length = 2 := by
  have hcounts : (decode sparse).map
      (fun module ↦ (module.importedFunctions, module.functions.length)) = .ok (1, 2) := by
    decide +kernel
  cases h : decode sparse with
  | error failure =>
    rw [h] at hcounts
    cases hcounts
  | ok module =>
    rw [h] at hcounts
    obtain ⟨himported, hfunctions⟩ := Prod.mk.inj (Except.ok.inj hcounts)
    exact ⟨module, rfl, (indexable_of_decode h).2.2.2, himported, hfunctions⟩

end Module

end StraightWasm
