import StraightWasm.Proofs.Module.Displacement
import StraightWasm.Proofs.Module.Truncation

/-!
# Inserting a section that is skipped

A section of a kind that the compiler has no use for may hold any bytes. Put between two sections of
a binary, it sends what stands behind it further back by its own length and leaves alone what stands
in front (`makeRoom`). Every place that a section keeps lies within the bytes of the section
(`Section.mapOffset_congr`), so all places of a section are sent back or none, and the sections
behind the new one are written where they stand now (`Section.row_insert`).

A skipped section holds nothing that a module consists of, and sending places elsewhere changes
nothing but places. So the module of the longer binary is the old one with its places sent along and
the new header among its headers (`Module.Inserted`, `Module.decode_insert`).
-/

set_option autoImplicit false
set_option relaxedAutoImplicit false

namespace StraightWasm

/-- Where a place goes when so many bytes are inserted at another place. What stands behind the
inserted bytes goes back. -/
def makeRoom (place length offset : Nat) : Nat :=
  if place < offset then offset + length else offset

theorem makeRoom_of_lt {place offset : Nat} (h : place < offset) (length : Nat) :
    makeRoom place length offset = offset + length :=
  if_pos h

theorem makeRoom_of_le {place offset : Nat} (h : offset ≤ place) (length : Nat) :
    makeRoom place length offset = offset :=
  if_neg (Nat.not_lt.mpr h)

/-- Bytes with others inserted at a place. -/
def insertAt (place : Nat) (inserted bytes : List UInt8) : List UInt8 :=
  bytes.take place ++ inserted ++ bytes.drop place

/-- The kinds of section that are skipped. -/
def SectionKind.skipped : List SectionKind :=
  [.custom, .tables, .memories, .globals, .start, .elements, .data]

/-- A section that is skipped: its kind, a written form of its size, and what it holds. -/
structure SkippedSection where
  kind : SectionKind
  size : List UInt8
  payload : List UInt8
  kind_mem : kind ∈ SectionKind.skipped
  size_encodes : Leb128.Encodes .unsigned 32 payload.length size

namespace SkippedSection

/-- The bytes of a section. -/
def bytes (skipped : SkippedSection) : List UInt8 :=
  skipped.kind.toByte :: (skipped.size ++ skipped.payload)

/-- The header of a section that stands at a place. -/
def headerAt (place : Nat) (skipped : SkippedSection) : SectionHeader where
  kind := skipped.kind
  offset := place + 1 + skipped.size.length
  size := skipped.payload.length

theorem written (skipped : SkippedSection) (place : Nat) :
    Section.Written place { header := skipped.headerAt place, content := .skipped }
      skipped.bytes := by
  obtain ⟨kind, size, payload, hkind, hsize⟩ := skipped
  refine ⟨size, payload, rfl, hsize, ?_, rfl, rfl⟩
  simp only [SectionKind.skipped, List.mem_cons, List.not_mem_nil, or_false] at hkind
  rcases hkind with rfl | rfl | rfl | rfl | rfl | rfl | rfl <;> rfl

end SkippedSection

/-! ### Sections -/

namespace Section

variable {offset : Nat} {found : Section} {sections : List Section} {bytes : List UInt8}

/-- The code of the bodies of a section stands in the section, behind its first byte. -/
theorem code_between (h : Written offset found bytes) {bodies : List Body}
    (hbodies : found.content.code? = some bodies) {body : Body} (hbody : body ∈ bodies) :
    offset < body.codeOffset ∧ body.codeOffset + body.code.length ≤ offset + bytes.length := by
  obtain ⟨-, lead, payload, others, rfl, hoffset, -, hheld, count, items, rfl, hcount, hrow⟩ |
    ⟨-, hnone⟩ := code_cases h
  · rw [hbodies, Option.some.injEq] at hheld
    rw [← hheld] at hrow
    obtain ⟨place, hstands, hplace⟩ := Body.standsAt_of_row hrow hbody
    have hle := hstands.length_le
    have hpos := List.length_pos_iff.mpr hcount.ne_nil
    rw [hplace, hoffset, List.length_append, List.length_append]
    omega
  · rw [hbodies] at hnone
    cases hnone

/-- What becomes of the places of a section depends on what becomes of the places in its bytes. -/
theorem mapOffset_congr {send send' : Nat → Nat} (h : Written offset found bytes)
    (hsame : ∀ place, offset < place → place ≤ offset + bytes.length → send place = send' place) :
    found.mapOffset send = found.mapOffset send' := by
  have hheader : send found.header.offset = send' found.header.offset := by
    obtain ⟨size, contents, rfl, -, -, hoffset, -⟩ := h
    rw [hoffset]
    refine hsame _ (by omega) ?_
    rw [List.length_cons, List.length_append]
    omega
  have hcontent : found.content.mapOffset send = found.content.mapOffset send' := by
    cases hcode : found.content with
    | code bodies =>
      rw [SectionContent.mapOffset, SectionContent.mapOffset, SectionContent.code.injEq]
      refine List.map_congr_left fun body hbody ↦ ?_
      have hheld : found.content.code? = some bodies := by
        rw [hcode]
        rfl
      obtain ⟨hlow, hhigh⟩ := code_between h hheld hbody
      rw [Body.mapOffset, Body.mapOffset, hsame _ hlow (by omega)]
    | types | functions | imports | exports | skipped => rfl
  rw [mapOffset, mapOffset, hcontent, SectionHeader.mapOffset, SectionHeader.mapOffset, hheader]

theorem map_mapOffset_congr {send send' : Nat → Nat} (h : Form.Row Written offset sections bytes)
    (hsame : ∀ place, offset < place → place ≤ offset + bytes.length → send place = send' place) :
    sections.map (mapOffset send) = sections.map (mapOffset send') := by
  refine List.map_congr_left fun found hfound ↦ ?_
  obtain ⟨place, part, hpart, hwritten⟩ := h.exists_of_mem hfound
  have hle := hpart.length_le
  exact mapOffset_congr hwritten fun inner hlow hhigh ↦ hsame inner (by omega) (by omega)

theorem mapOffset_id (found : Section) : found.mapOffset (fun offset ↦ offset) = found := by
  obtain ⟨header, content⟩ := found
  cases content with
  | code bodies =>
    have hbodies : bodies.map (Body.mapOffset fun offset ↦ offset) = bodies := List.map_id bodies
    rw [mapOffset, SectionContent.mapOffset, hbodies]
    rfl
  | types | functions | imports | exports | skipped => rfl

/-- The contents of the sections of a row stand behind the place where the row begins. -/
theorem lt_offset_of_row (h : Form.Row Written offset sections bytes) {header : SectionHeader}
    (hheader : header ∈ sections.map (·.header)) : offset < header.offset := by
  obtain ⟨found, hfound, rfl⟩ := List.mem_map.mp hheader
  obtain ⟨place, part, -, hwritten⟩ := h.exists_of_mem hfound
  obtain ⟨size, contents, rfl, -, -, hoffset, -⟩ := hwritten
  rw [hoffset]
  omega

/-- A section between two rows of sections leaves the first row as it is and sends the places of the
second one back. -/
theorem row_insert {front back : List Section} {piece rest inserted : List UInt8} {place : Nat}
    (hfront : Form.Row Written offset front piece) (hplace : offset + piece.length = place)
    (hback : Form.Row Written place back rest) (hfound : Written place found inserted) :
    front.map (mapOffset (makeRoom place inserted.length)) = front ∧
      back.map (mapOffset (makeRoom place inserted.length)) =
        back.map (mapOffset (· + inserted.length)) ∧
      Form.Row Written offset
        (front ++ found :: back.map (mapOffset (makeRoom place inserted.length)))
        (piece ++ inserted ++ rest) := by
  have hstays : front.map (mapOffset (makeRoom place inserted.length)) = front := by
    rw [map_mapOffset_congr hfront fun inner _ hinner ↦ makeRoom_of_le (hplace ▸ hinner) _]
    exact (List.map_congr_left fun found _ ↦ mapOffset_id found).trans (List.map_id front)
  have hmoves : back.map (mapOffset (makeRoom place inserted.length)) =
      back.map (mapOffset (· + inserted.length)) :=
    map_mapOffset_congr hback fun inner hinner _ ↦ makeRoom_of_lt hinner _
  refine ⟨hstays, hmoves, ?_⟩
  rw [hmoves, List.append_assoc]
  refine Form.row_append_iff.mpr ⟨piece, inserted ++ rest, rfl, hfront, ?_⟩
  rw [hplace]
  exact .cons hfound (row_displace hback inserted.length)

end Section

/-! ### Modules -/

namespace Module

variable {α : Type}

/-- What the last section of some kind holds does not depend on sections that hold nothing of that
kind. -/
theorem last_insert (held? : SectionContent → Option (List α)) {found : Section}
    (h : held? found.content = none) (front back : List Section) :
    last held? (front ++ found :: back) = last held? (front ++ back) := by
  unfold last
  rw [List.filterMap_append, List.filterMap_cons, h, List.filterMap_append]

/-- What becomes of the contents of each section becomes of what the last section of some kind
holds. -/
theorem last_mapOffset (held? : SectionContent → Option (List α)) {send : Nat → Nat} {f : α → α}
    (h : ∀ content, held? (content.mapOffset send) = (held? content).map (List.map f))
    (sections : List Section) :
    last held? (sections.map (Section.mapOffset send)) = (last held? sections).map f := by
  have hheld : ∀ found : Section, held? (found.mapOffset send).content =
      (held? found.content).map (List.map f) := fun found ↦ h found.content
  unfold last
  simp only [List.filterMap_map, Function.comp_def, hheld]
  rw [← List.map_filterMap, List.getLast?_map]
  cases (sections.filterMap fun found ↦ held? found.content).getLast? with
  | none => rfl
  | some held => rfl

/-- A place between two sections splits the row of sections. -/
theorem IsBoundary.row_split {module : Module} {sections : List Section} {rows : List UInt8}
    {place : Nat} (h : module.IsBoundary place) (hrow : Form.Row Section.Written 8 sections rows)
    (hheaders : module.sections = sections.map (·.header)) :
    ∃ front back piece rest, sections = front ++ back ∧ rows = piece ++ rest ∧
      8 + piece.length = place ∧ Form.Row Section.Written 8 front piece ∧
      Form.Row Section.Written place back rest := by
  rcases h with rfl | ⟨header, hheader, hstop⟩
  · exact ⟨[], sections, [], rows, rfl, rfl, rfl, .nil 8, hrow⟩
  · rw [hheaders] at hheader
    obtain ⟨found, hfound, rfl⟩ := List.mem_map.mp hheader
    obtain ⟨earlier, later, rfl⟩ := List.append_of_mem hfound
    rw [← List.singleton_append, ← List.append_assoc] at hrow ⊢
    obtain ⟨piece, rest, rfl, hpiece, hrest⟩ := Form.row_append_iff.mp hrow
    have hlength := (Section.stop_of_row_concat hpiece).symm.trans hstop
    exact ⟨_, later, piece, rest, rfl, rfl, hlength, hpiece, hlength ▸ hrest⟩

/-- Sections with their places sent elsewhere and a skipped section among them describe a module
that differs in nothing but places and headers. -/
theorem comprises_insert {module : Module} {front back : List Section} {send : Nat → Nat}
    {distance : Nat} (h : module.Comprises (front ++ back))
    (hstays : front.map (Section.mapOffset send) = front)
    (hmoves : back.map (Section.mapOffset send) = back.map (Section.mapOffset (· + distance)))
    (header : SectionHeader) :
    Comprises
      { module with
        sections := front.map (·.header) ++
          header :: (back.map (·.header)).map (SectionHeader.mapOffset (· + distance))
        bodies := module.bodies.map (Body.mapOffset send) }
      (front ++
        { header := header, content := .skipped } :: back.map (Section.mapOffset send)) := by
  have hpart : ∀ {α : Type} (held? : SectionContent → Option (List α)) (f : α → α),
      held? .skipped = none →
      (∀ content, held? (content.mapOffset send) = (held? content).map (List.map f)) →
        last held? (front ++
          { header := header, content := .skipped } :: back.map (Section.mapOffset send)) =
            (last held? (front ++ back)).map f := by
    intro α held? f hskipped hcontent
    rw [last_insert held? hskipped, ← last_mapOffset held? hcontent, List.map_append, hstays]
  have hkept : ∀ {α : Type} (held? : SectionContent → Option (List α)),
      held? .skipped = none →
      (∀ content, held? (content.mapOffset send) = held? content) →
        last held? (front ++
          { header := header, content := .skipped } :: back.map (Section.mapOffset send)) =
            last held? (front ++ back) := by
    intro α held? hskipped hcontent
    rw [hpart held? id hskipped fun content ↦ by
        rw [hcontent, List.map_id_fun, Option.map_id_apply],
      List.map_id_fun, id]
  refine ⟨h.preamble_eq, ?_, ?_, ?_, ?_, ?_, ?_⟩
  · rw [hmoves]
    simp [Section.mapOffset, Function.comp_def]
  · rw [hkept SectionContent.types? rfl fun content ↦ by cases content <;> rfl]
    exact h.types_eq
  · rw [hkept SectionContent.functions? rfl fun content ↦ by cases content <;> rfl]
    exact h.functions_eq
  · rw [hkept SectionContent.imports? rfl fun content ↦ by cases content <;> rfl]
    exact h.imports_eq
  · rw [hkept SectionContent.exports? rfl fun content ↦ by cases content <;> rfl]
    exact h.exports_eq
  · rw [hpart SectionContent.code? (Body.mapOffset send) rfl fun content ↦ by cases content <;> rfl,
      ← h.bodies_eq]

/-- The code of a body stands in front of a place between two sections or behind it. -/
theorem code_apart {module : Module} {front back : List Section} {piece rest : List UInt8}
    {place : Nat} (hbodies : module.bodies = last SectionContent.code? (front ++ back))
    (hfront : Form.Row Section.Written 8 front piece) (hplace : 8 + piece.length = place)
    (hback : Form.Row Section.Written place back rest) {body : Body}
    (hbody : body ∈ module.bodies) :
    body.codeOffset + body.code.length ≤ place ∨ place < body.codeOffset := by
  rw [hbodies] at hbody
  obtain hnone | ⟨before, found, after, hsplit, hfound, -⟩ :=
    last_cases SectionContent.code? (front ++ back)
  · rw [hnone] at hbody
    cases hbody
  have hmem : found ∈ front ++ back := by
    rw [hsplit]
    exact List.mem_append_right before List.mem_cons_self
  rcases List.mem_append.mp hmem with hmem | hmem
  · obtain ⟨inner, part, hpart, hwritten⟩ := hfront.exists_of_mem hmem
    have hle := hpart.length_le
    have hbetween := Section.code_between hwritten hfound hbody
    exact .inl (by omega)
  · obtain ⟨inner, part, -, hwritten⟩ := hback.exists_of_mem hmem
    have hbetween := Section.code_between hwritten hfound hbody
    exact .inr (by omega)

/-- Whether a second module is a first one after bytes with the header of a section were inserted at
a place: what stands behind the place is further back by their number, and nothing else is
different. -/
structure Inserted (place length : Nat) (header : SectionHeader) (module module' : Module) :
    Prop where
  preamble_eq : module'.preamble = module.preamble
  types_eq : module'.types = module.types
  functions_eq : module'.functions = module.functions
  imports_eq : module'.imports = module.imports
  exports_eq : module'.exports = module.exports
  bodies_eq : module'.bodies = module.bodies.map (Body.mapOffset (makeRoom place length))
  /-- The code of a body is not torn apart. -/
  bodies_apart : ∀ body ∈ module.bodies,
    body.codeOffset + body.code.length ≤ place ∨ place < body.codeOffset
  sections_eq : ∃ front back, module.sections = front ++ back ∧
    (∀ earlier ∈ front, earlier.offset + earlier.size ≤ place) ∧
    (∀ later ∈ back, place < later.offset) ∧
    module'.sections = front ++ header :: back.map (SectionHeader.mapOffset (· + length))

/-- A binary with a section inserted that is skipped is decoded to the same module, except for the
header of the section and for the places behind it. -/
theorem decode_insert {bytes : List UInt8} {module : Module} (h : decode bytes = .ok module)
    {place : Nat} (hplace : module.IsBoundary place) (skipped : SkippedSection) :
    ∃ module', decode (insertAt place skipped.bytes bytes) = .ok module' ∧
      module.Inserted place skipped.bytes.length (skipped.headerAt place) module' := by
  obtain ⟨sections, rows, rfl, hrow, hcomprises, hlength⟩ := read_iff_written.mp (decode_iff.mp h)
  obtain ⟨front, back, piece, rest, rfl, rfl, hpiece, hfront, hback⟩ :=
    hplace.row_split hrow hcomprises.sections_eq
  obtain ⟨hstays, hmoves, hrows⟩ :=
    Section.row_insert hfront hpiece hback (skipped.written place)
  have hinsert := comprises_insert hcomprises hstays hmoves (skipped.headerAt place)
  have hopening : (opening ++ piece).length = place := by
    rw [List.length_append, ← hpiece]
    rfl
  have hdecode := decode_iff.mpr (read_iff_written.mpr
    ⟨_, _, rfl, hrows, hinsert, hlength.trans (List.length_map _).symm⟩)
  rw [insertAt, ← List.append_assoc, List.take_left' hopening, List.drop_left' hopening,
    List.append_assoc, List.append_assoc, ← List.append_assoc piece]
  refine ⟨_, hdecode, rfl, rfl, rfl, rfl, rfl, rfl, fun body hbody ↦ ?_, front.map (·.header),
    back.map (·.header), ?_, fun header hheader ↦ ?_, fun header hheader ↦ ?_, rfl⟩
  · exact code_apart hcomprises.bodies_eq hfront hpiece hback hbody
  · rw [hcomprises.sections_eq, List.map_append]
  · exact hpiece ▸ (Section.stop_le_of_row hfront hheader).2
  · exact Section.lt_offset_of_row hback hheader

end Module

end StraightWasm
