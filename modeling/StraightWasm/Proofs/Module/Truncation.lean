import StraightWasm.Proofs.Bytes.Truncation
import StraightWasm.Proofs.Module.Positions

/-!
# Binaries that are cut short

A binary that ends too early never passes for another one. A cut anywhere but between two sections
makes decoding run out of input: within the opening, within the size of a section, or because a
payload is shorter than its size says. The payload is cut out before it is read, so what it holds
has no say in this (`Section.frugal_read`).

A cut between two sections leaves the opening and the sections in front of the cut, and those are
the sections that end there or earlier (`Section.headers_filter`). What decoding makes of an opening
and a row of sections is known (`Module.decode_of_outlines`): the module of these sections, unless
it has more functions than bodies or the other way round. So both kinds of cut are settled, and
`Module.decode_take` puts them together.
-/

set_option autoImplicit false
set_option relaxedAutoImplicit false

namespace StraightWasm

open Reader

/-! ### The opening and sections -/

theorem Preamble.frugal_read : Frugal Preamble.read := by
  refine (frugal_word 4).bind fun magic ↦ ?_
  split_ifs
  · refine (frugal_word 4).bind fun version ↦ ?_
    split_ifs
    · exact frugal_pure _
    · exact frugal_malformed _ _
  · exact frugal_malformed _ _

namespace Section

theorem frugal_read : Frugal Section.read := by
  refine frugal_offset.bind fun place ↦ frugal_byte.bind fun identifier ↦ ?_
  refine (frugal_unsigned 32).bind fun size ↦ ?_
  split
  · exact frugal_malformed _ _
  · refine (frugal_window size).bind fun frame ↦ (frugal_inside _ frame).bind fun found ↦ ?_
    dsimp only
    split_ifs
    · exact frugal_pure _
    · exact frugal_malformed _ _

/-- A section ends where its payload ends. -/
theorem stop_eq {offset : Nat} {found : Section} {bytes : List UInt8}
    (h : Written offset found bytes) :
    found.header.offset + found.header.size = offset + bytes.length := by
  obtain ⟨size, contents, rfl, -, -, hoffset, hsize⟩ := h
  rw [hoffset, hsize, List.length_cons, List.length_append]
  omega

theorem length_pos {offset : Nat} {found : Section} {bytes : List UInt8}
    (h : Written offset found bytes) : 0 < bytes.length := by
  obtain ⟨size, contents, rfl, -⟩ := h
  exact Nat.succ_pos _

variable {offset : Nat} {front back : List Section} {bytes : List UInt8}

theorem stop_le_of_row (h : Form.Row Written offset front bytes) {header : SectionHeader}
    (hheader : header ∈ front.map (·.header)) :
    offset < header.offset + header.size ∧
      header.offset + header.size ≤ offset + bytes.length := by
  obtain ⟨found, hfound, rfl⟩ := List.mem_map.mp hheader
  obtain ⟨place, part, hpart, hwritten⟩ := h.exists_of_mem hfound
  have hstop := stop_eq hwritten
  have hpos := length_pos hwritten
  have hle := hpart.length_le
  omega

/-- The last section of a row ends where the row ends. -/
theorem stop_of_row_concat {found : Section}
    (h : Form.Row Written offset (front ++ [found]) bytes) :
    found.header.offset + found.header.size = offset + bytes.length := by
  obtain ⟨earlier, last, rfl, -, hlast⟩ := Form.row_append_iff.mp h
  obtain ⟨piece, rest, rfl, hfound, hrest⟩ := Form.row_cons_iff.mp hlast
  rw [Form.row_nil_iff.mp hrest, List.append_nil, stop_eq hfound, List.length_append,
    Nat.add_assoc]

/-- The place behind a section of a row cuts the row behind that section. -/
theorem row_take_stop {sections : List Section} (h : Form.Row Written offset sections bytes)
    {header : SectionHeader} (hheader : header ∈ sections.map (·.header)) {count : Nat}
    (hstop : header.offset + header.size = offset + count) :
    ∃ front, Form.Row Written offset front (bytes.take count) := by
  obtain ⟨found, hfound, rfl⟩ := List.mem_map.mp hheader
  obtain ⟨earlier, later, rfl⟩ := List.append_of_mem hfound
  rw [← List.singleton_append, ← List.append_assoc] at h
  obtain ⟨piece, rest, rfl, hpiece, -⟩ := Form.row_append_iff.mp h
  have hpieceStop := stop_of_row_concat hpiece
  obtain rfl : count = piece.length := by omega
  exact ⟨earlier ++ [found], by rwa [List.take_left]⟩

/-- Of two rows of sections one behind the other, the sections of the first are those that end at
the place between them or before it. -/
theorem headers_filter {count : Nat} {rest : List UInt8}
    (hfront : Form.Row Written offset front bytes)
    (hback : Form.Row Written count back rest) (hcount : offset + bytes.length = count) :
    ((front ++ back).map (·.header)).filter (fun header ↦ header.offset + header.size ≤ count) =
      front.map (·.header) := by
  have hkept : (front.map (·.header)).filter
      (fun header ↦ header.offset + header.size ≤ count) = front.map (·.header) := by
    refine List.filter_eq_self.mpr fun header hheader ↦ decide_eq_true ?_
    exact hcount ▸ (stop_le_of_row hfront hheader).2
  have hdropped : (back.map (·.header)).filter
      (fun header ↦ header.offset + header.size ≤ count) = [] := by
    refine List.filter_eq_nil_iff.mpr fun header hheader ↦ ?_
    rw [decide_eq_true_eq, Nat.not_le]
    exact (stop_le_of_row hback hheader).1
  rw [List.map_append, List.filter_append, hkept, hdropped, List.append_nil]

end Section

/-! ### Modules -/

namespace Module

/-- Whether some bytes are the opening and the sections that a module consists of, be its functions
and bodies equally many or not. -/
def Outlines (module : Module) (bytes : List UInt8) : Prop :=
  ∃ sections rows, bytes = opening ++ rows ∧ Form.Row Section.Written 8 sections rows ∧
    module.Comprises sections

/-- Decoding an opening and sections gives their module, unless its functions and bodies are not
equally many. -/
theorem decode_of_outlines {module : Module} {bytes : List UInt8} (h : module.Outlines bytes) :
    decode bytes =
      if module.functions.length = module.bodies.length then .ok module
      else .error (.malformed bytes.length
        (.bodyCount module.functions.length module.bodies.length)) := by
  obtain ⟨sections, rows, rfl, hrow, hcomprises⟩ := h
  obtain rfl := hcomprises.unique (comprises_ofSections sections)
  have hpreamble := (Preamble.reads_read ⟨0, opening ++ rows⟩ .standard ⟨8, rows⟩).mpr
    ⟨opening, ⟨rfl, rfl⟩, rfl, rfl⟩
  have hall := (exhausts_all Section.length_lt_of_read Section.reads_read ⟨8, rows⟩ sections
    _).mpr ⟨hrow, rfl⟩
  rw [decode, read, Success.bind_of_ok hpreamble, Success.bind_of_ok hall, List.length_append]
  split_ifs with hcount
  · rfl
  · rfl

/-- Whether a place is one between two sections, right behind the opening or behind a section. -/
def IsBoundary (module : Module) (place : Nat) : Prop :=
  place = 8 ∨ ∃ header ∈ module.sections, header.offset + header.size = place

/-- Cutting within the opening. -/
theorem runsOut_opening (rows : List UInt8) {count : Nat} (hcount : count < 8) :
    RunsOut (read { offset := 0, bytes := (opening ++ rows).take count }) := by
  have hopening := (Preamble.reads_read ⟨0, opening⟩ .standard ⟨8, []⟩).mpr
    ⟨opening, ⟨rfl, rfl⟩, rfl, rfl⟩
  obtain ⟨taken, hpasses, -, hshort⟩ := Preamble.frugal_read _ _ _ hopening
  obtain rfl : opening = taken := by simpa using hpasses.bytes_eq
  rw [List.take_append_of_le_length (Nat.le_of_lt hcount)]
  exact (hshort count hcount).bind _

/-- Behind the opening a binary runs out of input if its row of sections does. -/
theorem runsOut_sections {rows : List UInt8}
    (h : RunsOut (all Section.read Section.length_lt_of_read { offset := 8, bytes := rows })) :
    RunsOut (read { offset := 0, bytes := opening ++ rows }) := by
  have hopening := (Preamble.reads_read ⟨0, opening ++ rows⟩ .standard ⟨8, rows⟩).mpr
    ⟨opening, ⟨rfl, rfl⟩, rfl, rfl⟩
  rw [read, Success.bind_of_ok hopening]
  exact h.bind _

theorem decode_of_runsOut {bytes : List UInt8}
    (h : RunsOut (read { offset := 0, bytes := bytes })) :
    ∃ place needed, decode bytes = .error (.endOfInput place needed) := by
  obtain ⟨place, needed, stop, hrun⟩ := h
  exact ⟨place, needed, by rw [decode, hrun]⟩

/-- A row of sections of a module leads from the opening to a place between two sections. -/
theorem isBoundary_of_row {module : Module} {front : List Section} {bytes : List UInt8}
    (h : Form.Row Section.Written 8 front bytes)
    (hfront : ∀ found ∈ front, found.header ∈ module.sections) :
    module.IsBoundary (8 + bytes.length) := by
  rcases List.eq_nil_or_concat front with rfl | ⟨earlier, found, rfl⟩
  · rw [Form.row_nil_iff.mp h]
    exact .inl rfl
  · rw [List.concat_eq_append] at h hfront
    exact .inr ⟨found.header, hfront found (by simp), Section.stop_of_row_concat h⟩

/-- A cut at a place between two sections leaves a row of sections. -/
theorem IsBoundary.row_take {module : Module} {sections : List Section} {rows : List UInt8}
    {inner : Nat} (h : module.IsBoundary (8 + inner))
    (hrow : Form.Row Section.Written 8 sections rows)
    (hheaders : module.sections = sections.map (·.header)) :
    ∃ front, Form.Row Section.Written 8 front (rows.take inner) := by
  rcases h with hzero | ⟨header, hheader, hstop⟩
  · obtain rfl : inner = 0 := by omega
    exact ⟨[], .nil 8⟩
  · exact Section.row_take_stop hrow (hheaders ▸ hheader) hstop

theorem not_runsOut_of_row {front : List Section} {bytes : List UInt8}
    (h : Form.Row Section.Written 8 front bytes) :
    ¬ RunsOut (all Section.read Section.length_lt_of_read { offset := 8, bytes := bytes }) := by
  rintro ⟨place, needed, stop, hrun⟩
  rw [(exhausts_all Section.length_lt_of_read Section.reads_read ⟨8, bytes⟩ front _).mpr
    ⟨h, rfl⟩] at hrun
  cases hrun

/-- Cutting a row of sections between two of them leaves the module of those in front of the cut. -/
theorem decode_front {front back : List Section} {rows : List UInt8} {inner : Nat}
    (hfront : Form.Row Section.Written 8 front (rows.take inner))
    (hback : Form.Row Section.Written (8 + inner) back (rows.drop inner))
    (hinner : inner < rows.length) :
    ∃ part : Module, part.Outlines (opening ++ rows.take inner) ∧
      part.sections = ((front ++ back).map (·.header)).filter
        (fun header ↦ header.offset + header.size ≤ 8 + inner) ∧
      part.sections <+: (front ++ back).map (·.header) ∧
      part.sections ≠ (front ++ back).map (·.header) ∧
      decode (opening ++ rows.take inner) =
        if part.functions.length = part.bodies.length then .ok part
        else .error (.malformed (8 + inner)
          (.bodyCount part.functions.length part.bodies.length)) := by
  have hpart := comprises_ofSections front
  have htaken : (rows.take inner).length = inner := List.length_take_of_le (Nat.le_of_lt hinner)
  have hnonempty : back ≠ [] := by
    rintro rfl
    have hnone := List.drop_eq_nil_iff.mp (Form.row_nil_iff.mp hback)
    omega
  refine ⟨ofSections .standard front, ⟨front, _, rfl, hfront, hpart⟩, ?_, ?_, ?_, ?_⟩
  · rw [hpart.sections_eq, Section.headers_filter hfront hback (by rw [htaken])]
  · rw [hpart.sections_eq, List.map_append]
    exact List.prefix_append _ _
  · rw [hpart.sections_eq, List.map_append]
    simpa using hnonempty
  · have hlength : (opening ++ rows.take inner).length = 8 + inner := by
      rw [List.length_append, htaken]
      rfl
    rw [decode_of_outlines ⟨front, _, rfl, hfront, hpart⟩, hlength]

/-- Assumes: a binary that can be decoded, and a place before its end. If the place is not one
between two sections, decoding the bytes in front of it runs out of input. If it is, then these
bytes are the opening and some of the sections, but not all: those that end there or earlier. They
are decoded to the module of these sections, or refused at the place of the cut because the
functions and the bodies of that module are not equally many. -/
theorem decode_take {bytes : List UInt8} {module : Module} (h : decode bytes = .ok module)
    {count : Nat} (hcount : count < bytes.length) :
    (count < 8 ∨ ¬ module.IsBoundary count →
      ∃ place needed, decode (bytes.take count) = .error (.endOfInput place needed)) ∧
    (module.IsBoundary count → ∃ part : Module, part.Outlines (bytes.take count) ∧
      part.sections = module.sections.filter
        (fun header ↦ header.offset + header.size ≤ count) ∧
      part.sections <+: module.sections ∧ part.sections ≠ module.sections ∧
      decode (bytes.take count) =
        if part.functions.length = part.bodies.length then .ok part
        else .error (.malformed count (.bodyCount part.functions.length part.bodies.length))) := by
  obtain ⟨sections, rows, rfl, hrow, hcomprises, -⟩ := read_iff_written.mp (decode_iff.mp h)
  have hheaders := hcomprises.sections_eq
  by_cases hopening : count < 8
  · refine ⟨fun _ ↦ decode_of_runsOut (runsOut_opening rows hopening), fun hboundary ↦ ?_⟩
    rcases hboundary with rfl | ⟨header, hheader, hstop⟩
    · exact absurd hopening (Nat.lt_irrefl 8)
    · have hbehind := (Section.stop_le_of_row hrow (hheaders ▸ hheader)).1
      omega
  · -- Behind the opening the cut goes through the row of sections.
    obtain ⟨inner, rfl⟩ := Nat.exists_eq_add_of_le (Nat.le_of_not_lt hopening)
    have hlength : opening.length = 8 := rfl
    have htake : (opening ++ rows).take (8 + inner) = opening ++ rows.take inner := by
      rw [← hlength]
      exact List.take_length_add_append inner
    have hinner : inner < rows.length := by
      rw [List.length_append, hlength] at hcount
      exact Nat.lt_of_add_lt_add_left hcount
    rw [htake, hheaders]
    obtain ⟨front, back, rfl, hfront, hback⟩ | hout := row_take Section.length_lt_of_read
      Section.reads_read Section.frugal_read hrow (Nat.le_of_lt hinner)
    · refine ⟨fun hcut ↦ ?_, fun _ ↦ decode_front hfront hback hinner⟩
      have hboundary : module.IsBoundary (8 + (rows.take inner).length) := by
        refine isBoundary_of_row hfront fun found hfound ↦ ?_
        rw [hheaders, List.map_append]
        exact List.mem_append_left _ (List.mem_map_of_mem hfound)
      rw [List.length_take_of_le (Nat.le_of_lt hinner)] at hboundary
      rcases hcut with hcut | hcut
      · exact absurd hcut hopening
      · exact absurd hboundary hcut
    · refine ⟨fun _ ↦ decode_of_runsOut (runsOut_sections (hout [])), fun hboundary ↦ ?_⟩
      obtain ⟨front, hfront⟩ := hboundary.row_take hrow hheaders
      exact absurd (hout []) (not_runsOut_of_row hfront)

/-- Two cuts through `overridden`. Behind the first section the module of that section is left.
Between the two bytes of the size of the last section the input runs out. -/
theorem decode_take_overridden :
    (∃ part, decode (overridden.take 15) = .ok part ∧
      part.sections = [{ kind := .types, offset := 10, size := 5 }]) ∧
    ∃ place needed, decode (overridden.take 32) = .error (.endOfInput place needed) := by
  have hsections : (decode overridden).map (·.sections) =
      .ok [⟨.types, 10, 5⟩, ⟨.functions, 17, 3⟩, ⟨.code, 22, 6⟩, ⟨.custom, 30, 0⟩,
        ⟨.code, 33, 13⟩] := by decide +kernel
  cases h : decode overridden with
  | error failure =>
    rw [h] at hsections
    cases hsections
  | ok module =>
    rw [h] at hsections
    have hheaders : module.sections = _ := Except.ok.inj hsections
    constructor
    · have hfirst : module.IsBoundary 15 := .inr ⟨⟨.types, 10, 5⟩, by simp [hheaders], rfl⟩
      obtain ⟨part, -, hpart, -, -, hdecode⟩ := (decode_take h (by decide : 15 < _)).2 hfirst
      rw [hheaders] at hpart
      have haccepted : (decode (overridden.take 15)).isOk = true := by decide +kernel
      rw [hdecode] at haccepted ⊢
      split_ifs at haccepted ⊢
      · exact ⟨part, rfl, hpart⟩
      · cases haccepted
    · refine (decode_take h (by decide : 32 < _)).1 (.inr fun hboundary ↦ ?_)
      simp [IsBoundary, hheaders] at hboundary

end Module

end StraightWasm
