import StraightWasm.Proofs.Bytes.Forms
import StraightWasm.Proofs.StackCode.ScanLaws

/-!
# How stack code is written

The code of a body is a row of instructions and an `end` that is its last byte (`Body.Spells`). An
instruction is written as its opcode and its immediate (`StackCode.Instruction.Written`). The bytes
of `end` and of the opcodes may occur in immediates, but where an instruction starts there is
nothing to choose, so the code spells one list of instructions at most (`Body.Spells.unique`), and
what the stack machine does with a body is determined by its bytes (`Body.Yields.unique`).

Nothing of this speaks of the scan of a body. The scan takes up the instructions that the code
begins with, one after the other (`StackCode.scanFrom_of_row`), and it finds nothing else
(`StackCode.row_of_scanFrom`). So its instructions are the longest row that the code begins with
(`Body.begins_iff`), and it comes to an `end` that is the last byte exactly on code that spells what
it found (`Body.spells_iff`).
-/

set_option autoImplicit false
set_option relaxedAutoImplicit false

namespace StraightWasm

open Reader

namespace StackCode

/-! ### Written instructions -/

/-- The byte that an instruction starts with. -/
def Instruction.opcode : Instruction → UInt8
  | .unreachable => 0x00
  | .nop => 0x01
  | .localGet _ => 0x20
  | .localSet _ => 0x21
  | .localTee _ => 0x22
  | .const _ => 0x41
  | .add => 0x6a

/-- The bytes behind the opcode of an instruction. -/
def Instruction.Immediate : Instruction → List UInt8 → Prop
  | .const value, bytes => Leb128.Encodes .signed 32 value.toInt bytes
  | .localGet slot, bytes | .localSet slot, bytes | .localTee slot, bytes =>
    Leb128.Encodes .unsigned 32 slot bytes
  | .unreachable, bytes | .nop, bytes | .add, bytes => bytes = []

/-- The forms of an instruction: its opcode and its immediate. -/
def Instruction.Written : Form Instruction := fun _ instruction bytes ↦
  ∃ immediate, bytes = instruction.opcode :: immediate ∧ instruction.Immediate immediate

/-- The forms of an instruction together with its place: it is written where it is said to be. -/
def Located.Written : Form Located := fun offset located bytes ↦
  located.offset = offset ∧ located.instruction.Written offset bytes

/-- Instructions in a row stand at certain places. -/
theorem row_written_iff {offset : Nat} {instructions : List Instruction} {bytes : List UInt8} :
    Form.Row Instruction.Written offset instructions bytes ↔
      ∃ located, located.map Located.instruction = instructions ∧
        Form.Row Located.Written offset located bytes := by
  constructor
  · intro h
    induction h with
    | nil offset => exact ⟨[], rfl, .nil offset⟩
    | @cons offset instruction _ _ _ hfirst _ ih =>
      obtain ⟨others, rfl, hothers⟩ := ih
      exact ⟨{ offset := offset, instruction := instruction } :: others, rfl,
        .cons ⟨rfl, hfirst⟩ hothers⟩
  · rintro ⟨located, rfl, h⟩
    induction h with
    | nil offset => exact .nil offset
    | cons hfirst _ ih => exact .cons hfirst.2 ih

end StackCode

namespace Body

open StackCode (Located Instruction)

/-- The code of a body as a span. -/
def span (body : Body) : Span where
  offset := body.codeOffset
  bytes := body.code

/-- Whether the code of a body begins with the given instructions, each at its place. -/
def Begins (body : Body) (taken : List Located) : Prop :=
  ∃ front rest, body.code = front ++ rest ∧
    Form.Row Located.Written body.codeOffset taken front

/-- Whether the code of a body is a row of the given instructions and an `end`. -/
def Spells (body : Body) (instructions : List Instruction) : Prop :=
  ∃ front, body.code = front ++ [0x0b] ∧
    Form.Row Instruction.Written body.codeOffset instructions front

/-- Whether the stack machine comes to an outcome on the instructions that a body spells. -/
def Yields (body : Body) (arguments : List Int32) (outcome : Outcome) : Prop :=
  ∃ instructions, body.Spells instructions ∧
    StackCode.run instructions (.start arguments body.locals.length) = some outcome

end Body

/-! ### The reader of an instruction -/

namespace StackCode

variable {function : Nat}

/-- What an opcode announces: an instruction with this opcode, or `end`. -/
def Announced (opcode : UInt8) : Form (Option Instruction)
  | _, some instruction, bytes => instruction.opcode = opcode ∧ instruction.Immediate bytes
  | _, none, bytes => opcode = 0x0b ∧ bytes = []

/-- The forms of an instruction or of `end`. -/
def Token : Form (Option Instruction)
  | offset, some instruction, bytes => instruction.Written offset bytes
  | _, none, bytes => bytes = [0x0b]

theorem encodes_ofInt_iff {value : Int32} {bytes : List UInt8} :
    (∃ number, Leb128.Encodes .signed 32 number bytes ∧ value = Int32.ofInt number) ↔
      Leb128.Encodes .signed 32 value.toInt bytes := by
  constructor
  · rintro ⟨number, hnumber, rfl⟩
    obtain ⟨hlow, hhigh⟩ := hnumber.fits
    rw [Int32.toInt_ofInt_of_le hlow hhigh]
    exact hnumber
  · intro h
    exact ⟨value.toInt, h, (Int32.ofInt_toInt value).symm⟩

theorem reads_behindOpcode (function place : Nat) (opcode : UInt8) :
    (behindOpcode function place opcode).Reads (Announced opcode) := by
  fun_cases behindOpcode function place opcode with
  | case1 | case2 | case3 | case8 =>
    refine (reads_pure _).congr fun offset found bytes ↦ ?_
    cases found with
    | none => simp [Announced]
    | some instruction =>
      cases instruction <;> simp [Announced, Instruction.opcode, Instruction.Immediate]
  | case4 | case5 | case6 =>
    refine ((reads_unsigned (by decide)).map _).congr fun offset found bytes ↦ ?_
    cases found with
    | none => simp [Announced, Form.Map]
    | some instruction =>
      cases instruction <;>
        simp [Announced, Instruction.opcode, Instruction.Immediate, Form.Map, Form.Integer]
  | case7 =>
    refine ((reads_integer .signed (by decide)).map _).congr fun offset found bytes ↦ ?_
    cases found with
    | none => simp [Announced, Form.Map]
    | some instruction =>
      cases instruction <;>
        simp [Announced, Instruction.opcode, Instruction.Immediate, Form.Map, encodes_ofInt_iff]
  | case9 _ h00 h01 h0b h20 h21 h22 h41 h6a =>
    refine (reads_fail _).congr fun offset found bytes ↦ ⟨False.elim, fun h ↦ ?_⟩
    cases found with
    | none => exact h0b h.1
    | some instruction =>
      obtain ⟨rfl, -⟩ := h
      cases instruction with
      | unreachable => exact h00 rfl
      | nop => exact h01 rfl
      | localGet => exact h20 rfl
      | localSet => exact h21 rfl
      | localTee => exact h22 rfl
      | const => exact h41 rfl
      | add => exact h6a rfl

theorem reads_next (function : Nat) : (next function).Reads Token := by
  refine (reads_behind_offset fun place ↦
    reads_byte.bind fun opcode ↦ reads_behindOpcode function place opcode).congr
      fun offset found bytes ↦ ?_
  cases found with
  | none =>
    constructor
    · rintro ⟨opcode, _, _, rfl, rfl, rfl, rfl⟩
      rfl
    · rintro rfl
      exact ⟨0x0b, [0x0b], [], rfl, rfl, rfl, rfl⟩
  | some instruction =>
    constructor
    · rintro ⟨opcode, _, immediate, rfl, rfl, rfl, himmediate⟩
      exact ⟨immediate, rfl, himmediate⟩
    · rintro ⟨immediate, rfl, himmediate⟩
      exact ⟨instruction.opcode, [instruction.opcode], immediate, rfl, rfl, rfl, himmediate⟩

/-! ### Scans -/

/-- A scan takes up a row of instructions and goes on behind it. -/
theorem scanFrom_of_row {offset : Nat} {taken : List Located} {front : List UInt8}
    (hrow : Form.Row Located.Written offset taken front) (function : Nat) (rest : List UInt8) :
    ∀ found, scanFrom function found { offset := offset, bytes := front ++ rest } =
      scanFrom function (taken.reverse ++ found)
        { offset := offset + front.length, bytes := rest } := by
  induction hrow with
  | nil offset => exact fun found ↦ rfl
  | @cons offset located others front back hfirst _ ih =>
    intro found
    obtain ⟨hplace, hwritten⟩ := hfirst
    have hnext : next function { offset := offset, bytes := front ++ (back ++ rest) } =
        .ok (some located.instruction)
          { offset := offset + front.length, bytes := back ++ rest } :=
      (reads_next function _ _ _).mpr ⟨front, hwritten, rfl, rfl⟩
    obtain ⟨place, instruction⟩ := located
    cases hplace
    rw [List.append_assoc, scanFrom_of_some hnext, ih, List.length_append, List.reverse_cons,
      List.append_assoc, Nat.add_assoc]
    rfl

/-- A scan takes up nothing but a row of instructions. If it comes to an `end`, this stands behind
the row. -/
theorem row_of_scanFrom (function : Nat) (found : List Located) (span : Span) :
    ∃ taken front back, (scanFrom function found span).instructions = found.reverse ++ taken ∧
      span.bytes = front ++ back ∧ Form.Row Located.Written span.offset taken front ∧
      ∀ behind, (scanFrom function found span).ending = .ok behind →
        back = 0x0b :: behind.bytes := by
  fun_induction scanFrom function found span with
  | case1 found span instruction after hnext _ ih =>
    obtain ⟨bytes, hwritten, hpasses⟩ := (reads_next function _ _ _).mp hnext
    obtain ⟨taken, front, back, hinstructions, hbytes, hrow, hend⟩ := ih
    rw [hpasses.offset_eq] at hrow
    refine ⟨{ offset := span.offset, instruction := instruction } :: taken, bytes ++ front, back,
      ?_, ?_, .cons ⟨rfl, hwritten⟩ hrow, hend⟩
    · rw [hinstructions, List.reverse_cons, List.append_assoc]
      rfl
    · rw [hpasses.bytes_eq, hbytes, List.append_assoc]
  | case2 found span after hnext =>
    obtain ⟨_, rfl, hpasses⟩ := (reads_next function _ _ _).mp hnext
    refine ⟨[], [], span.bytes, (List.append_nil _).symm, rfl, .nil _, fun behind hending ↦ ?_⟩
    cases hending
    exact hpasses.bytes_eq
  | case3 found span =>
    refine ⟨[], [], span.bytes, (List.append_nil _).symm, rfl, .nil _, fun behind hending ↦ ?_⟩
    cases hending

end StackCode

/-! ### Bodies -/

namespace Body

open StackCode (Located Instruction)

variable {body : Body} {taken : List Located} {instructions others : List Instruction}

/-- What a body begins with are the first instructions of its scan. -/
theorem begins_iff (function : Nat) :
    body.Begins taken ↔ taken <+: (StackCode.scan function body).instructions := by
  constructor
  · rintro ⟨front, rest, hcode, hrow⟩
    rw [StackCode.scan, hcode, StackCode.scanFrom_of_row hrow]
    obtain ⟨more, -, -, hmore, -⟩ := StackCode.row_of_scanFrom function (taken.reverse ++ [])
      { offset := body.codeOffset + front.length, bytes := rest }
    rw [hmore, List.append_nil, List.reverse_reverse]
    exact List.prefix_append taken more
  · rintro ⟨more, hmore⟩
    obtain ⟨located, front, back, hlocated, hcode, hrow, -⟩ :=
      StackCode.row_of_scanFrom function [] body.span
    have htaken : taken ++ more = located := hmore.trans hlocated
    rw [← htaken] at hrow
    obtain ⟨first, second, rfl, hfirst, -⟩ := Form.row_append_iff.mp hrow
    exact ⟨first, second ++ back, hcode.trans (List.append_assoc _ _ _), hfirst⟩

/-- What a scan finds is the longest row of instructions that a body begins with. -/
theorem begins_scan (function : Nat) (body : Body) :
    body.Begins (StackCode.scan function body).instructions ∧
      ∀ taken, body.Begins taken → taken <+: (StackCode.scan function body).instructions :=
  ⟨(begins_iff function).mpr List.prefix_rfl, fun _ ↦ (begins_iff function).mp⟩

/-- A body spells the instructions of its scan, and none if the scan does not come to an `end` that
is the last byte. -/
theorem spells_iff (function : Nat) :
    body.Spells instructions ↔
      ∃ behind, (StackCode.scan function body).ending = .ok behind ∧ behind.bytes = [] ∧
        (StackCode.scan function body).instructions.map Located.instruction = instructions := by
  constructor
  · rintro ⟨front, hcode, hrow⟩
    obtain ⟨located, hlocated, hrow⟩ := StackCode.row_written_iff.mp hrow
    have hend : StackCode.next function
        { offset := body.codeOffset + front.length, bytes := [0x0b] } =
          .ok none { offset := body.codeOffset + front.length + 1, bytes := [] } :=
      (StackCode.reads_next function _ _ _).mpr ⟨[0x0b], rfl, rfl, rfl⟩
    rw [StackCode.scan, hcode, StackCode.scanFrom_of_row hrow, StackCode.scanFrom_of_none hend,
      List.append_nil, List.reverse_reverse]
    exact ⟨_, rfl, rfl, hlocated⟩
  · rintro ⟨behind, hending, hempty, rfl⟩
    obtain ⟨located, front, back, hlocated, hcode, hrow, hback⟩ :=
      StackCode.row_of_scanFrom function [] body.span
    rw [hback behind hending, hempty] at hcode
    exact ⟨front, hcode, StackCode.row_written_iff.mpr ⟨located, congrArg _ hlocated.symm, hrow⟩⟩

/-- The code of a body can be read in one way only. -/
theorem Spells.unique (h : body.Spells instructions) (h' : body.Spells others) :
    instructions = others := by
  obtain ⟨-, -, -, hinstructions⟩ := (spells_iff 0).mp h
  obtain ⟨-, -, -, hothers⟩ := (spells_iff 0).mp h'
  exact hinstructions.symm.trans hothers

/-- A body has one outcome at most. -/
theorem Yields.unique {arguments : List Int32} {outcome other : Outcome}
    (h : body.Yields arguments outcome) (h' : body.Yields arguments other) : outcome = other := by
  obtain ⟨_, hspells, hrun⟩ := h
  obtain ⟨_, hspells', hrun'⟩ := h'
  rw [hspells.unique hspells', hrun', Option.some.injEq] at hrun
  exact hrun.symm

end Body

end StraightWasm
