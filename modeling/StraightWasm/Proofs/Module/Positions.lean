import StraightWasm.Proofs.Module.Recognition

/-!
# The positions of a decoded module

A decoded module keeps the places of its section payloads and of the code of its bodies. They
describe the binary exactly (`Module.Located`): the sections lie one behind the other from the
opening to the last byte, and the code of every body stands where the module says, inside the
payload of the last code section and behind the code of the bodies before it.

Places are kept by forms: whatever is written in a row stands in it at its own place
(`Form.Row.exists_of_mem`), and what is behind it in the row starts later (`Form.Row.pairwise`). So
each part of the statement follows from what one section (`Section.code_cases`) or one body
(`Body.exists_lead`) looks like.
-/

set_option autoImplicit false
set_option relaxedAutoImplicit false

namespace StraightWasm

variable {α : Type}

/-! ### Places in bytes -/

/-- Whether some bytes stand at a place of others. -/
def StandsAt (bytes : List UInt8) (place : Nat) (part : List UInt8) : Prop :=
  ∃ front back, bytes = front ++ part ++ back ∧ front.length = place

namespace StandsAt

variable {bytes part piece : List UInt8} {place inner : Nat}

theorem trans (h : StandsAt bytes place part) (hpiece : StandsAt part inner piece) :
    StandsAt bytes (place + inner) piece := by
  obtain ⟨front, back, rfl, rfl⟩ := h
  obtain ⟨lead, trail, rfl, rfl⟩ := hpiece
  exact ⟨front ++ lead, trail ++ back, by simp, by simp⟩

theorem length_le (h : StandsAt bytes place part) : place + part.length ≤ bytes.length := by
  obtain ⟨front, back, rfl, rfl⟩ := h
  simp

theorem behind (front part : List UInt8) : StandsAt (front ++ part) front.length part :=
  ⟨front, [], (List.append_nil _).symm, rfl⟩

theorem start (part back : List UInt8) : StandsAt (part ++ back) 0 part :=
  ⟨[], back, rfl, rfl⟩

end StandsAt

namespace Form.Row

variable {item : Form α} {offset : Nat} {values : List α} {bytes : List UInt8}

/-- What is written in a row stands in it at its own place. -/
theorem exists_of_mem (h : Row item offset values bytes) {value : α} (hvalue : value ∈ values) :
    ∃ place part, StandsAt bytes place part ∧ item (offset + place) value part := by
  induction h with
  | nil => cases hvalue
  | @cons offset first rest front back hfirst _ ih =>
    rcases List.mem_cons.mp hvalue with rfl | hvalue
    · exact ⟨0, front, .start front back, hfirst⟩
    · obtain ⟨place, part, hpart, hitem⟩ := ih hvalue
      rw [Nat.add_assoc] at hitem
      exact ⟨front.length + place, part, (StandsAt.behind front back).trans hpart, hitem⟩

/-- In a row, what an item covers ends before what a later item covers starts, if an item covers
nothing outside of its bytes and not the first of them. -/
theorem pairwise {start stop : α → Nat} (h : Row item offset values bytes)
    (hitem : ∀ offset value bytes, item offset value bytes →
      offset < start value ∧ stop value ≤ offset + bytes.length) :
    values.Pairwise fun earlier later ↦ stop earlier < start later := by
  induction h with
  | nil => exact .nil
  | @cons offset first rest front back hfirst hrest ih =>
    refine .cons ?_ ih
    intro later hlater
    obtain ⟨place, part, -, hwritten⟩ := hrest.exists_of_mem hlater
    have hstop := (hitem _ _ _ hfirst).2
    have hstart := (hitem _ _ _ hwritten).1
    omega

end Form.Row

/-! ### Sections -/

/-- Whether sections lie one behind the other from a place to the end of the bytes: at the place
stands the byte of the kind, behind it the size, and behind the size the payload. -/
def Tiles (bytes : List UInt8) : Nat → List SectionHeader → Prop
  | place, [] => place = bytes.length
  | place, header :: rest =>
    (∃ size, StandsAt bytes place (header.kind.toByte :: size) ∧
      Leb128.Encodes .unsigned 32 header.size size ∧
      header.offset = place + 1 + size.length) ∧
    Tiles bytes (header.offset + header.size) rest

theorem tiles_of_row {sections : List Section} {offset : Nat} {rows : List UInt8}
    (h : Form.Row Section.Written offset sections rows) :
    ∀ front : List UInt8, front.length = offset →
      Tiles (front ++ rows) offset (sections.map (·.header)) := by
  induction h with
  | nil offset =>
    rintro front rfl
    simp [Tiles]
  | @cons offset found rest piece back hfound _ ih =>
    rintro front rfl
    have hrest := ih (front ++ piece) List.length_append
    rw [List.append_assoc] at hrest
    obtain ⟨size, contents, rfl, hsize, -, hoffset, hlength⟩ := hfound
    have hnext : found.header.offset + found.header.size =
        front.length + (found.header.kind.toByte :: (size ++ contents)).length := by
      rw [hoffset, hlength, List.length_cons, List.length_append]
      omega
    rw [← hlength] at hsize
    refine ⟨⟨size, ⟨front, contents ++ back, ?_, rfl⟩, hsize, hoffset⟩, hnext ▸ hrest⟩
    simp

/-- Either a section is a code section, and its payload is that of the bodies that it holds, or it
is of another kind and holds no bodies. -/
theorem Section.code_cases {offset : Nat} {found : Section} {bytes : List UInt8}
    (h : Written offset found bytes) :
    (found.header.kind = .code ∧ ∃ lead payload bodies, bytes = lead ++ payload ∧
      found.header.offset = offset + lead.length ∧ found.header.size = payload.length ∧
      found.content.code? = some bodies ∧
      Form.Vector (Form.Sized Body.Written) found.header.offset bodies payload) ∨
    (found.header.kind ≠ .code ∧ found.content.code? = none) := by
  obtain ⟨⟨kind, place, length⟩, content⟩ := found
  obtain ⟨size, payload, rfl, -, hcontent, rfl, rfl⟩ := h
  cases kind with
  | code =>
    obtain ⟨bodies, hbodies, rfl⟩ := hcontent
    refine .inl ⟨rfl, SectionKind.code.toByte :: size, payload, bodies, rfl, ?_, rfl, rfl, hbodies⟩
    simp only [List.length_cons]
    omega
  | types | functions | imports | exports =>
    obtain ⟨_, -, rfl⟩ := hcontent
    exact .inr ⟨nofun, rfl⟩
  | custom | tables | memories | globals | start | elements | data =>
    obtain rfl := hcontent
    exact .inr ⟨nofun, rfl⟩

/-- What is held by the last section of some kind is held by a section behind which no section of
that kind comes. -/
theorem Module.last_cases (held? : SectionContent → Option (List α)) (sections : List Section) :
    last held? sections = [] ∨ ∃ before found after, sections = before ++ found :: after ∧
      held? found.content = some (last held? sections) ∧
      ∀ later ∈ after, held? later.content = none := by
  unfold last
  cases hlast : (sections.filterMap fun found ↦ held? found.content).getLast? with
  | none => exact .inl rfl
  | some held =>
    obtain ⟨_, hheld⟩ := List.getLast?_eq_some_iff.mp hlast
    obtain ⟨before, rest, rfl, -, hrest⟩ := List.filterMap_eq_append_iff.mp hheld
    obtain ⟨middle, found, after, rfl, -, hfound, hafter⟩ := List.filterMap_eq_cons_iff.mp hrest
    exact .inr ⟨before ++ middle, found, after, by simp, hfound,
      List.filterMap_eq_nil_iff.mp hafter⟩

/-- If sections hold bodies at all, these are written in the payload of the last code section. -/
theorem Section.lastCode_cases {sections : List Section} {offset : Nat} {rows : List UInt8}
    (h : Form.Row Section.Written offset sections rows) :
    Module.last SectionContent.code? sections = [] ∨
      ∃ header ∈ ((sections.map (·.header)).filter (·.kind = .code)).getLast?,
      ∃ place payload, StandsAt rows place payload ∧ header.offset = offset + place ∧
        header.size = payload.length ∧
        Form.Vector (Form.Sized Body.Written) header.offset
          (Module.last SectionContent.code? sections) payload := by
  obtain hnone | ⟨before, found, after, hsections, hfound, hafter⟩ :=
    Module.last_cases SectionContent.code? sections
  · exact .inl hnone
  -- Which section is the last one that holds bodies is known from the contents. The form of a
  -- section ties contents to kinds, so it is the last code section by the headers, too.
  have hwritten : ∀ other ∈ found :: after, ∃ place part, StandsAt rows place part ∧
      Section.Written (offset + place) other part := by
    intro other hother
    refine h.exists_of_mem ?_
    rw [hsections]
    exact List.mem_append_right before hother
  obtain ⟨place, part, hpart, hpiece⟩ := hwritten found List.mem_cons_self
  obtain ⟨hkind, lead, payload, bodies, rfl, hoffset, hsize, hbodies, hvector⟩ | ⟨-, hnone⟩ :=
    code_cases hpiece
  · rw [hfound, Option.some.injEq] at hbodies
    rw [← hbodies] at hvector
    rw [Nat.add_assoc] at hoffset
    have hlater : ∀ header ∈ after.map (·.header), header.kind ≠ .code := by
      intro header hheader
      obtain ⟨later, hlater, rfl⟩ := List.mem_map.mp hheader
      obtain ⟨_, _, -, hpiece⟩ := hwritten later (List.mem_cons_of_mem found hlater)
      obtain ⟨-, _, _, _, -, -, -, hheld, -⟩ | ⟨hkind, -⟩ := code_cases hpiece
      · rw [hafter later hlater] at hheld
        cases hheld
      · exact hkind
    have hlast : ((sections.map (·.header)).filter (·.kind = .code)).getLast? =
        some found.header := by
      have hnil : (after.map (·.header)).filter (·.kind = .code) = [] := by
        simpa [List.filter_eq_nil_iff] using hlater
      simp [hsections, hkind, hnil]
    exact .inr ⟨found.header, hlast, place + lead.length, payload,
      hpart.trans (.behind lead payload), hoffset, hsize, hvector⟩
  · rw [hfound] at hnone
    cases hnone

/-! ### Bodies -/

/-- The code of a body is what stands behind its size and its locals. -/
theorem Body.exists_lead {offset : Nat} {body : Body} {bytes : List UInt8}
    (h : Form.Sized Body.Written offset body bytes) :
    ∃ lead, bytes = lead ++ body.code ∧ lead ≠ [] ∧ body.codeOffset = offset + lead.length := by
  obtain ⟨size, inner, rfl, hsize, runs, declared, rfl, -, -, -, hoffset⟩ := h
  refine ⟨size ++ declared, by simp, by simp [hsize.ne_nil], ?_⟩
  rw [hoffset, List.length_append, Nat.add_assoc]

section Bodies

variable {offset : Nat} {bodies : List Body} {bytes : List UInt8}

theorem Body.standsAt_of_row (h : Form.Row (Form.Sized Body.Written) offset bodies bytes)
    {body : Body} (hbody : body ∈ bodies) :
    ∃ place, StandsAt bytes place body.code ∧ body.codeOffset = offset + place := by
  obtain ⟨place, part, hpart, hwritten⟩ := h.exists_of_mem hbody
  obtain ⟨lead, rfl, -, hoffset⟩ := exists_lead hwritten
  rw [Nat.add_assoc] at hoffset
  exact ⟨place + lead.length, hpart.trans (.behind lead body.code), hoffset⟩

theorem Body.pairwise_of_row (h : Form.Row (Form.Sized Body.Written) offset bodies bytes) :
    bodies.Pairwise fun earlier later ↦
      earlier.codeOffset + earlier.code.length < later.codeOffset := by
  refine h.pairwise fun offset body bytes hwritten ↦ ?_
  obtain ⟨lead, rfl, hlead, hoffset⟩ := exists_lead hwritten
  have hpos := List.length_pos_iff.mpr hlead
  rw [hoffset, List.length_append]
  omega

end Bodies

/-! ### Modules -/

namespace Module

/-- Whether the positions that a module keeps describe a binary. -/
structure Located (module : Module) (bytes : List UInt8) : Prop where
  /-- The sections fill the bytes behind the opening. -/
  tiles : Tiles bytes 8 module.sections
  length_eq : module.functions.length = module.bodies.length
  /-- The code of a body stands where the module says. -/
  code : ∀ body ∈ module.bodies, StandsAt bytes body.codeOffset body.code
  /-- The code of a body ends before the code of a later one starts. -/
  apart : module.bodies.Pairwise fun earlier later ↦
    earlier.codeOffset + earlier.code.length < later.codeOffset
  /-- All code lies in the payload of the last code section. -/
  inside : ∀ body ∈ module.bodies,
    ∃ header ∈ (module.sections.filter (·.kind = .code)).getLast?,
      header.offset ≤ body.codeOffset ∧
        body.codeOffset + body.code.length ≤ header.offset + header.size

/-- The code of every body stands in the binary where the body says. -/
theorem standsAt_code {bytes : List UInt8} {module : Module} (h : decode bytes = .ok module)
    {body : Body} (hbody : body ∈ module.bodies) : StandsAt bytes body.codeOffset body.code := by
  obtain ⟨sections, rows, rfl, hrow, hcomprises, -⟩ := read_iff_written.mp (decode_iff.mp h)
  rw [hcomprises.bodies_eq] at hbody
  obtain hnone | ⟨header, -, place, contents, hcontents, hoffset, -, count, items, rfl, -,
    hbodies⟩ := Section.lastCode_cases hrow
  · rw [hnone] at hbody
    cases hbody
  -- Four steps inwards: from the binary to the rows, to the payload, behind the count in it, and to
  -- the body.
  obtain ⟨lead, hstands, hplace⟩ := Body.standsAt_of_row hbodies hbody
  have hrows : StandsAt (opening ++ rows) 8 rows := .behind opening rows
  rw [hplace, hoffset]
  exact ((hrows.trans hcontents).trans (.behind count items)).trans hstands

/-- Assumes: a binary that can be decoded. The positions in its module describe it. -/
theorem located_of_decode {bytes : List UInt8} {module : Module} (h : decode bytes = .ok module) :
    module.Located bytes := by
  have hstands := fun body (hbody : body ∈ module.bodies) ↦ standsAt_code h hbody
  obtain ⟨sections, rows, rfl, hrow, hcomprises, hlength⟩ :=
    read_iff_written.mp (decode_iff.mp h)
  have htiles := tiles_of_row hrow opening rfl
  rw [← hcomprises.sections_eq] at htiles
  have hcode := Section.lastCode_cases hrow
  rw [← hcomprises.sections_eq, ← hcomprises.bodies_eq] at hcode
  obtain hnone | ⟨header, hheader, place, contents, -, -, hsize, count, items, rfl, -, hbodies⟩ :=
    hcode
  · exact ⟨htiles, hlength, hstands, by simp [hnone], by simp [hnone]⟩
  refine ⟨htiles, hlength, hstands, Body.pairwise_of_row hbodies, fun body hbody ↦ ?_⟩
  obtain ⟨lead, hpart, hplace⟩ := Body.standsAt_of_row hbodies hbody
  have hle := hpart.length_le
  rw [List.length_append] at hsize
  exact ⟨header, hheader, by omega, by omega⟩

/-- A binary with two code sections. The size of the second one has a byte more than it needs. -/
def overridden : List UInt8 :=
  [0x00, 0x61, 0x73, 0x6d, 0x01, 0x00, 0x00, 0x00,
    0x01, 0x05, 0x01, 0x60, 0x00, 0x01, 0x7f,
    0x03, 0x03, 0x02, 0x00, 0x00,
    0x0a, 0x06, 0x01, 0x04, 0x00, 0x41, 0x07, 0x0b,
    0x00, 0x00,
    0x0a, 0x8d, 0x00, 0x02, 0x04, 0x00, 0x41, 0x01, 0x0b, 0x06, 0x01, 0x02, 0x7f, 0x41, 0x02, 0x0b]

theorem located_of_decode_overridden :
    ∃ module, decode overridden = .ok module ∧ module.Located overridden ∧
      module.bodies.map (·.codeOffset) = [36, 43] := by
  have hbodies : (decode overridden).map (fun module ↦ module.bodies.map (·.codeOffset)) =
      .ok [36, 43] := by decide +kernel
  cases h : decode overridden with
  | error failure =>
    rw [h] at hbodies
    cases hbodies
  | ok module =>
    rw [h] at hbodies
    exact ⟨module, rfl, located_of_decode h, Except.ok.inj hbodies⟩

end Module

end StraightWasm
