import Mathlib.Data.Nat.Digits.Defs
import StraightWasm.Proofs.Bytes.Faults
import StraightWasm.Proofs.Bytes.Forms

/-!
# Cursors on one binary

A cursor reads a span piece by piece. It was opened on the span, and it knows what is left of it.
The elementary readers are what can be asked of a cursor (`Operation`), and each of them is exact:
it succeeds if and only if the next bytes are what it asks for, it answers with what these bytes say
and moves behind them, and if it fails it has not moved and blames a place among the bytes that are
left (`Operation.exact_on`).

A window is a cursor of its own. It lies on the desk with the cursor that it was taken from, and
from then on each action is on one of them (`Desk.perform`), so that what is done inside of a window
may come in any order with what is done outside of it or inside of other windows. Every cursor on
the desk stands in the binary where its offset says (`Cursor.Sound`). One action keeps that
(`Desk.sound_perform`), leaves all cursors but its own alone (`Desk.getElem?_perform`) and never
moves that one backwards, and so do all actions in a row. `Desk.cursor_exact` says all this of every
cursor that any actions lead to.
-/

set_option autoImplicit false
set_option relaxedAutoImplicit false

namespace StraightWasm

open Reader
open Success (residue)

/-! ### Stretches of a binary -/

namespace Span

variable {whole part inner before after : Span}

/-- Whether a span is a stretch of another one, with the offset at which it stands there. -/
def Holds (whole part : Span) : Prop :=
  ∃ front back, whole.bytes = front ++ (part.bytes ++ back) ∧
    part.offset = whole.offset + front.length

theorem Holds.refl (whole : Span) : whole.Holds whole :=
  ⟨[], [], by simp, rfl⟩

theorem Holds.trans (hpart : whole.Holds part) (hinner : part.Holds inner) :
    whole.Holds inner := by
  obtain ⟨front, back, hbytes, hoffset⟩ := hpart
  obtain ⟨front', back', hbytes', hoffset'⟩ := hinner
  refine ⟨front ++ front', back' ++ back, ?_, ?_⟩
  · simp [hbytes, hbytes']
  · rw [hoffset', hoffset, List.length_append, Nat.add_assoc]

theorem Leads.holds (h : before.Leads after) : before.Holds after := by
  obtain ⟨between, hbytes, hoffset⟩ := h
  exact ⟨between, [], by rw [hbytes, List.append_nil], hoffset⟩

theorem Holds.endOffset_le (h : whole.Holds part) : part.endOffset ≤ whole.endOffset := by
  obtain ⟨front, back, hbytes, hoffset⟩ := h
  simp only [endOffset, length, hbytes, hoffset, List.length_append]
  omega

theorem Leads.endOffset_eq (h : before.Leads after) : after.endOffset = before.endOffset := by
  obtain ⟨between, hbytes, hoffset⟩ := h
  simp only [endOffset, length, hbytes, hoffset, List.length_append]
  omega

theorem Leads.offset_le (h : before.Leads after) : before.offset ≤ after.offset := by
  obtain ⟨between, -, hoffset⟩ := h
  omega

theorem passes_take {count : Nat} (h : count ≤ whole.length) :
    Passes (whole.bytes.take count) whole (whole.advance count) := by
  have hlength : (whole.bytes.take count).length = count := List.length_take_of_le h
  have hpasses := passes_advance (List.take_append_drop count whole.bytes).symm
  rwa [hlength] at hpasses

theorem Passes.leads {taken : List UInt8} (h : Passes taken before after) : before.Leads after :=
  ⟨taken, h.bytes_eq, h.offset_eq⟩

/-- The bytes that are passed are a stretch of the span, right at its start. -/
theorem Passes.holds (h : Passes part.bytes before after) (hoffset : part.offset = before.offset) :
    before.Holds part :=
  ⟨[], after.bytes, h.bytes_eq, hoffset⟩

end Span

/-! ### Words -/

/-- The number whose digits in base 256 are some bytes, the least significant first. -/
def base256 (bytes : List UInt8) : Nat :=
  Nat.ofDigits 256 (bytes.map UInt8.toNat)

theorem littleEndian_eq_base256 (bytes : List UInt8) : littleEndian bytes = base256 bytes := by
  induction bytes with
  | nil => rfl
  | cons byte rest ih =>
    rw [base256, List.map_cons, Nat.ofDigits_cons, ← base256, ← ih]
    rfl

theorem base256_lt (bytes : List UInt8) : base256 bytes < 256 ^ bytes.length := by
  have hdigits : ∀ digit ∈ bytes.map UInt8.toNat, digit < 256 := by
    intro digit hdigit
    obtain ⟨byte, -, rfl⟩ := List.mem_map.mp hdigit
    exact byte.toNat_lt
  have hlt := Nat.ofDigits_lt_base_pow_length (by decide : 1 < 256) hdigits
  rwa [List.length_map] at hlt

/-- The integer that some bytes stand for in two's complement: from half of the range on, the number
that is missing to the end of the range, with a minus sign. -/
def twosComplement (bytes : List UInt8) : Int :=
  if 2 * base256 bytes < 256 ^ bytes.length then base256 bytes
  else base256 bytes - (256 ^ bytes.length : Nat)

theorem bmod_littleEndian (bytes : List UInt8) :
    Int.bmod (littleEndian bytes) (Nat.pow 256 bytes.length) = twosComplement bytes := by
  have hlt := base256_lt bytes
  have hmod : (base256 bytes : Int) % (256 ^ bytes.length : Nat) = base256 bytes :=
    Int.emod_eq_of_lt (Int.natCast_nonneg _) (Int.ofNat_lt.mpr hlt)
  rw [littleEndian_eq_base256, twosComplement, Int.bmod_def, Nat.pow_eq, hmod]
  generalize 256 ^ bytes.length = range at hlt ⊢
  split_ifs <;> omega

/-! ### Operations -/

/-- What can be asked of a cursor. -/
inductive Operation where
  /-- The next byte as a number. -/
  | byte
  /-- A little-endian word. -/
  | word (size : Nat)
  /-- A little-endian word in two's complement. -/
  | signedWord (size : Nat)
  /-- The next bytes. -/
  | take (count : Nat)
  /-- A natural number of variable length. -/
  | unsigned (bits : Nat) (hbits : bits = 32 ∨ bits = 64)
  /-- An integer of variable length. -/
  | signed (bits : Nat) (hbits : bits = 32 ∨ bits = 64)
  /-- Bytes behind their number. -/
  | sizedBytes
  /-- The next bytes as a cursor of their own. -/
  | window (count : Nat)
  /-- All bytes that are left, to look at. -/
  | unread
  /-- To pass over all bytes that are left. -/
  | skipAll

/-- What an operation gives. -/
inductive Answer where
  | bytes (found : List UInt8)
  | number (value : Int)
  | window (frame : Span)
  | done

namespace Operation

/-- The reader that carries an operation out. -/
def reader : Operation → Reader Answer
  | byte => (fun found ↦ .number found.toNat) <$> Reader.byte
  | word size => (fun value ↦ .number (Int.ofNat value)) <$> Reader.word size
  | signedWord size => .number <$> Reader.signedWord size
  | take count => .bytes <$> Reader.take count
  | unsigned bits _ => (fun value ↦ .number (Int.ofNat value)) <$> Reader.unsigned bits
  | signed bits _ => .number <$> Reader.signed bits
  | sizedBytes => .bytes <$> Reader.sizedBytes
  | window count => .window <$> Reader.window count
  | unread => .bytes <$> Reader.unread
  | skipAll => (fun _ ↦ .done) <$> Reader.skipAll

/-- Whether an operation that passes some bytes at the front of a span has to answer so. -/
def Finds (before : Span) (taken : List UInt8) (answer : Answer) : Operation → Prop
  | byte => ∃ found : UInt8, taken = [found] ∧ answer = .number found.toNat
  | word size => taken.length = size ∧ answer = .number (base256 taken)
  | signedWord size => taken.length = size ∧ answer = .number (twosComplement taken)
  | take count => taken.length = count ∧ answer = .bytes taken
  | unsigned bits _ =>
    ∃ value : Nat, Leb128.Encodes .unsigned bits value taken ∧ answer = .number value
  | signed bits _ => ∃ value, Leb128.Encodes .signed bits value taken ∧ answer = .number value
  | sizedBytes => ∃ size found, taken = size ++ found ∧
    Leb128.Encodes .unsigned 32 found.length size ∧ answer = .bytes found
  | window count =>
    taken.length = count ∧ answer = .window { offset := before.offset, bytes := taken }
  | unread => taken = [] ∧ answer = .bytes before.bytes
  | skipAll => taken = before.bytes ∧ answer = .done

/-- Whether an operation on a span does all that is asked and nothing else. -/
structure Exact (operation : Operation) (before : Span) : Prop where
  /-- It succeeds if and only if the next bytes are what it asks for, and moves behind them. -/
  ok_iff : ∀ answer after, operation.reader before = .ok answer after ↔
    ∃ taken, before.Passes taken after ∧ operation.Finds before taken answer
  /-- If it fails, it has not moved. It blames a place among the bytes that are left or right behind
  them, and if it lacks bytes it lacks at least one. -/
  error : ∀ failure after, operation.reader before = .error failure after →
    after = before ∧ failure.IsReadFault before.offset before.endOffset

end Operation

/-! ### Readers that take nothing when they fail -/

namespace Reader

variable {α β : Type}

/-- Whether a reader that fails has not moved and blames a place among the bytes that are left. -/
def Atomic (reader : Reader α) : Prop :=
  ∀ before failure after, reader before = .error failure after →
    after = before ∧ failure.IsReadFault before.offset before.endOffset

/-- A reader that has not moved when it fails, and is confined. -/
theorem atomic_of_confined {reader : Reader α}
    (hplace : ∀ before failure after, reader before = .error failure after → after = before)
    (hconfined : ∀ low high, Confined low high reader) : reader.Atomic := by
  intro before failure after hrun
  have hends := hconfined before.offset before.endOffset before ⟨Nat.le_refl _, rfl⟩
  rw [hrun] at hends
  exact ⟨hplace before failure after hrun, hends⟩

theorem Atomic.map {reader : Reader α} (h : reader.Atomic) (f : α → β) : (f <$> reader).Atomic := by
  intro before failure after hrun
  rw [← bind_pure_comp] at hrun
  obtain hrun | ⟨value, middle, -, hrun⟩ := Success.bind_error_iff.mp hrun
  · exact h before failure after hrun
  · cases hrun

theorem atomic_byte : Atomic byte := by
  refine atomic_of_confined (fun before failure after hrun ↦ ?_) fun low high ↦ confined_byte
  unfold byte at hrun
  split at hrun
  · cases hrun
  · cases hrun
    rfl

theorem atomic_take (count : Nat) : Atomic (take count) := by
  refine atomic_of_confined (fun before failure after hrun ↦ ?_) fun low high ↦ confined_take count
  unfold take at hrun
  split at hrun
  · cases hrun
  · cases hrun
    rfl

theorem atomic_integer (sign : Signedness) (bits : Nat) : Atomic (integer sign bits) := by
  refine atomic_of_confined (fun before failure after hrun ↦ ?_)
    fun low high ↦ confined_integer sign bits
  unfold integer at hrun
  split at hrun
  · cases hrun
  · cases hrun
    rfl

/-- The length in front of the bytes may have been read, but then it is given back. -/
theorem atomic_sizedBytes : Atomic sizedBytes := by
  refine atomic_of_confined (fun before failure after hrun ↦ ?_)
    fun low high ↦ confined_sizedBytes
  unfold sizedBytes atomic at hrun
  split at hrun
  · cases hrun
  · cases hrun
    rfl

theorem atomic_window (count : Nat) : Atomic (window count) := by
  intro before failure after hrun
  exact (atomic_take count).map _ before failure after hrun

/-! ### Readers that find what they ask for -/

/-- A reader of a form answers with what stands for the form that it passes. -/
theorem Reads.answer_iff {reader : Reader α} {form : Form α} (h : reader.Reads form)
    (answer : α → Answer) {before after : Span} {found : Answer} :
    (answer <$> reader) before = .ok found after ↔
      ∃ taken, before.Passes taken after ∧
        ∃ value, form before.offset value taken ∧ found = answer value := by
  rw [(h.map answer) before found after]
  exact exists_congr fun taken ↦ and_comm

theorem reads_signedWord (size : Nat) :
    Reads (signedWord size) fun _ value bytes ↦
      bytes.length = size ∧ value = twosComplement bytes := by
  refine ((reads_take size).map _).congr fun offset value bytes ↦ ?_
  constructor
  · rintro ⟨_, ⟨rfl, rfl⟩, rfl⟩
    exact ⟨rfl, bmod_littleEndian bytes⟩
  · rintro ⟨rfl, rfl⟩
    exact ⟨bytes, ⟨rfl, rfl⟩, (bmod_littleEndian bytes).symm⟩

end Reader

namespace Operation

theorem reader_ok_iff (operation : Operation) {before after : Span} {answer : Answer} :
    operation.reader before = .ok answer after ↔
      ∃ taken, before.Passes taken after ∧ operation.Finds before taken answer := by
  cases operation with
  | byte => exact reads_byte.answer_iff _
  | word size =>
    rw [reader, (reads_word size).answer_iff]
    refine exists_congr fun taken ↦ and_congr_right fun _ ↦ ?_
    simp only [Finds, and_assoc, exists_and_left, exists_eq_left, littleEndian_eq_base256]
    rfl
  | signedWord size =>
    rw [reader, (reads_signedWord size).answer_iff]
    simp only [Finds, and_assoc, exists_and_left, exists_eq_left]
  | take count =>
    rw [reader, (reads_take count).answer_iff]
    refine exists_congr fun taken ↦ and_congr_right fun _ ↦ ?_
    constructor
    · rintro ⟨_, ⟨rfl, hcount⟩, rfl⟩
      exact ⟨hcount, rfl⟩
    · rintro ⟨hcount, rfl⟩
      exact ⟨taken, ⟨rfl, hcount⟩, rfl⟩
  | unsigned bits hbits => exact (reads_unsigned (by omega)).answer_iff _
  | signed bits hbits => exact (reads_integer .signed (by omega)).answer_iff _
  | sizedBytes =>
    rw [reader, reads_sizedBytes.answer_iff]
    refine exists_congr fun taken ↦ and_congr_right fun _ ↦ ?_
    constructor
    · rintro ⟨_, ⟨size, found, rfl, hsize, rfl⟩, rfl⟩
      exact ⟨size, found, rfl, hsize, rfl⟩
    · rintro ⟨size, found, rfl, hsize, rfl⟩
      exact ⟨found, ⟨size, found, rfl, hsize, rfl⟩, rfl⟩
  | window count =>
    rw [reader, (reads_window count).answer_iff]
    simp only [Finds, and_assoc, exists_and_left, exists_eq_left]
  | unread =>
    change EStateM.Result.ok (Answer.bytes before.bytes) before = .ok answer after ↔ _
    rw [EStateM.Result.ok.injEq]
    constructor
    · rintro ⟨rfl, rfl⟩
      exact ⟨[], Span.passes_nil_iff.mpr rfl, rfl, rfl⟩
    · rintro ⟨_, hpasses, rfl, rfl⟩
      exact ⟨rfl, Span.passes_nil_iff.mp hpasses⟩
  | skipAll =>
    change EStateM.Result.ok Answer.done before.finish = .ok answer after ↔ _
    rw [EStateM.Result.ok.injEq]
    constructor
    · rintro ⟨rfl, rfl⟩
      exact ⟨before.bytes, before.passes_finish, rfl, rfl⟩
    · rintro ⟨_, hpasses, rfl, rfl⟩
      exact ⟨rfl, before.passes_finish.advance_eq.symm.trans hpasses.advance_eq⟩

theorem atomic_reader (operation : Operation) : operation.reader.Atomic := by
  cases operation with
  | byte => exact atomic_byte.map _
  | word size => exact ((atomic_take size).map _).map _
  | signedWord size => exact ((atomic_take size).map _).map _
  | take count => exact (atomic_take count).map _
  | unsigned bits hbits => exact ((atomic_integer .unsigned bits).map _).map _
  | signed bits hbits => exact (atomic_integer .signed bits).map _
  | sizedBytes => exact atomic_sizedBytes.map _
  | window count => exact (atomic_window count).map _
  | unread =>
    intro before failure after hrun
    cases hrun
  | skipAll =>
    intro before failure after hrun
    cases hrun

theorem exact_on (operation : Operation) (before : Span) : operation.Exact before :=
  ⟨fun _ _ ↦ operation.reader_ok_iff, operation.atomic_reader before⟩

theorem reader_take_of_le {count : Nat} {before : Span} (h : count ≤ before.length) :
    (take count).reader before = .ok (.bytes (before.bytes.take count)) (before.advance count) :=
  (reader_ok_iff _).mpr ⟨_, Span.passes_take h, List.length_take_of_le h, rfl⟩

/-- An operation never moves backwards. -/
theorem leads_residue (operation : Operation) (before : Span) :
    before.Leads (residue (operation.reader before)) := by
  cases hrun : operation.reader before with
  | ok answer after =>
    obtain ⟨taken, hpasses, -⟩ := operation.reader_ok_iff.mp hrun
    exact hpasses.leads
  | error failure after =>
    obtain ⟨rfl, -⟩ := operation.atomic_reader before failure after hrun
    exact .refl after

/-- Only a window is answered with a window, and it consists of the bytes that were passed. -/
theorem window_of_reader {operation : Operation} {before after frame : Span}
    (h : operation.reader before = .ok (.window frame) after) :
    before.Passes frame.bytes after ∧ frame.offset = before.offset ∧
      operation = .window frame.length := by
  obtain ⟨taken, hpasses, hfinds⟩ := operation.reader_ok_iff.mp h
  cases operation with
  | window count =>
    obtain ⟨rfl, hframe⟩ := hfinds
    cases hframe
    exact ⟨hpasses, rfl, rfl⟩
  | _ => simp [Finds] at hfinds

end Operation

/-! ### The desk -/

/-- A cursor: the span on which it was opened, and what is left of it. -/
structure Cursor where
  opened : Span
  rest : Span

/-- A cursor at the start of a span. -/
def Cursor.on (span : Span) : Cursor where
  opened := span
  rest := span

/-- Whether a cursor stands in a binary where its offset says: it was opened on a stretch of the
binary, and what is left of it is an end of that stretch. -/
structure Cursor.Sound (whole : Span) (cursor : Cursor) : Prop where
  held : whole.Holds cursor.opened
  leads : cursor.opened.Leads cursor.rest

theorem Cursor.Sound.holds_rest {whole : Span} {cursor : Cursor} (h : cursor.Sound whole) :
    whole.Holds cursor.rest :=
  h.held.trans h.leads.holds

/-- An operation, and the place on the desk of the cursor that it is for. -/
structure Action where
  place : Nat
  operation : Operation

/-- The cursors on one binary, in the order in which they were opened. -/
abbrev Desk : Type := List Cursor

namespace Desk

/-- The cursors that a run opens. -/
def openedBy : EStateM.Result Diagnostic Span Answer → List Cursor
  | .ok (.window frame) _ => [.on frame]
  | _ => []

/-- The cursors on the desk after an action. A cursor that is opened takes the next place. At a
place with no cursor nothing is done. -/
def perform (desk : Desk) (action : Action) : Desk :=
  match desk[action.place]? with
  | none => desk
  | some cursor =>
    let run := action.operation.reader cursor.rest
    desk.set action.place { cursor with rest := residue run } ++ openedBy run

/-- Whether some actions lead to a desk from a single cursor at the start of a binary. -/
def Reached (whole : Span) (desk : Desk) : Prop :=
  ∃ actions : List Action, desk = actions.foldl perform [.on whole]

variable {whole : Span} {desk : Desk} {index : Nat} {cursor : Cursor}

/-- The cursors opened by an operation on a sound cursor are sound. -/
theorem sound_openedBy (h : cursor.Sound whole) (operation : Operation) :
    ∀ other ∈ openedBy (operation.reader cursor.rest), other.Sound whole := by
  intro other hother
  unfold openedBy at hother
  split at hother
  next frame after hrun =>
    obtain ⟨hpasses, hoffset, -⟩ := Operation.window_of_reader hrun
    obtain rfl := List.mem_singleton.mp hother
    exact ⟨h.holds_rest.trans (hpasses.holds hoffset), .refl frame⟩
  · cases hother

theorem sound_perform (h : ∀ cursor ∈ desk, cursor.Sound whole) (action : Action) :
    ∀ cursor ∈ perform desk action, cursor.Sound whole := by
  unfold perform
  cases hplace : desk[action.place]? with
  | none => exact h
  | some cursor =>
    have hsound := h cursor (List.mem_of_getElem? hplace)
    intro other hother
    rcases List.mem_append.mp hother with hother | hother
    · rcases List.mem_or_eq_of_mem_set hother with hother | rfl
      · exact h other hother
      · exact ⟨hsound.held,
          hsound.leads.trans (action.operation.leads_residue cursor.rest)⟩
    · exact sound_openedBy hsound action.operation other hother

theorem sound_of_reached (h : Reached whole desk) : ∀ cursor ∈ desk, cursor.Sound whole := by
  obtain ⟨actions, rfl⟩ := h
  have hstart : ∀ cursor ∈ [Cursor.on whole], cursor.Sound whole := by
    intro cursor hcursor
    obtain rfl := List.mem_singleton.mp hcursor
    exact ⟨.refl whole, .refl whole⟩
  generalize [Cursor.on whole] = start at hstart ⊢
  induction actions generalizing start with
  | nil => exact hstart
  | cons action rest ih => exact ih _ (sound_perform hstart action)

/-- An action leaves a cursor alone or is on it. -/
theorem getElem?_perform (hcursor : desk[index]? = some cursor) (action : Action) :
    (perform desk action)[index]? =
      if action.place = index then
        some { cursor with rest := residue (action.operation.reader cursor.rest) }
      else some cursor := by
  obtain ⟨hindex, -⟩ := List.getElem?_eq_some_iff.mp hcursor
  unfold perform
  split_ifs with hplace
  · rw [hplace, hcursor]
    dsimp only
    rw [List.getElem?_append_left (by rwa [List.length_set]), List.getElem?_set_self hindex]
  · cases hother : desk[action.place]? with
    | none => exact hcursor
    | some other =>
      dsimp only
      rw [List.getElem?_append_left (by rwa [List.length_set]), List.getElem?_set_ne hplace]
      exact hcursor

/-- What becomes of a cursor: it stays at its place, keeps the span on which it was opened and never
moves backwards, and it does not move at all if nothing is done to it. -/
theorem getElem?_foldl_perform (later : List Action) :
    ∀ {desk : Desk} {cursor : Cursor}, desk[index]? = some cursor →
      ∃ now, (later.foldl perform desk)[index]? = some now ∧ now.opened = cursor.opened ∧
        cursor.rest.Leads now.rest ∧
        ((∀ action ∈ later, action.place ≠ index) → now = cursor) := by
  induction later with
  | nil => exact fun {desk cursor} hcursor ↦ ⟨cursor, hcursor, rfl, .refl _, fun _ ↦ rfl⟩
  | cons action rest ih =>
    intro desk cursor hcursor
    have hstep := getElem?_perform hcursor action
    split_ifs at hstep with hplace
    · obtain ⟨now, hnow, hopened, hleads, -⟩ := ih hstep
      refine ⟨now, hnow, hopened, (action.operation.leads_residue _).trans hleads, fun hnone ↦ ?_⟩
      exact absurd hplace (hnone action List.mem_cons_self)
    · obtain ⟨now, hnow, hopened, hleads, hsame⟩ := ih hstep
      exact ⟨now, hnow, hopened, hleads, fun hnone ↦
        hsame fun other hother ↦ hnone other (List.mem_cons_of_mem action hother)⟩

/-- A window is opened at the next place on the desk. -/
theorem getElem?_perform_window (hcursor : desk[index]? = some cursor) {count : Nat}
    {frame after : Span}
    (hrun : (Operation.window count).reader cursor.rest = .ok (.window frame) after) :
    (perform desk ⟨index, .window count⟩)[desk.length]? = some (.on frame) := by
  simp only [perform, hcursor, hrun, openedBy]
  rw [List.getElem?_append_right (by rw [List.length_set]), List.length_set, Nat.sub_self]
  rfl

/-! ### Every cursor -/

/-- Assumes: a cursor on a desk to which some actions led. It stands in the binary where its offset
says, and offset and bytes left add up to the same number for good, so no offset goes beyond the end
of the binary. Every operation on it is exact, and that is what becomes of the cursor. Whatever is
done later, the cursor keeps its span and never moves backwards, and actions on other cursors do not
move it. A window of it is a cursor on exactly the next bytes, which reports the offsets from here
to the end of these bytes and no others. -/
theorem cursor_exact {whole : Span} {desk : Desk} (hdesk : Reached whole desk) {index : Nat}
    {cursor : Cursor} (hcursor : desk[index]? = some cursor) :
    (whole.Holds cursor.opened ∧ cursor.opened.Leads cursor.rest ∧
      cursor.rest.endOffset = cursor.opened.endOffset ∧
      cursor.rest.endOffset ≤ whole.endOffset) ∧
    (∀ operation : Operation, operation.Exact cursor.rest ∧
      (perform desk ⟨index, operation⟩)[index]? =
        some { cursor with rest := residue (operation.reader cursor.rest) }) ∧
    (∀ later : List Action, ∃ now, (later.foldl perform desk)[index]? = some now ∧
      now.opened = cursor.opened ∧ cursor.rest.Leads now.rest ∧
      ((∀ action ∈ later, action.place ≠ index) → now = cursor)) ∧
    ∀ count frame after,
      (Operation.window count).reader cursor.rest = .ok (.window frame) after →
        frame = { offset := cursor.rest.offset, bytes := cursor.rest.bytes.take count } ∧
        frame.length = count ∧
        (∀ later : List Action, ∃ inner,
          (later.foldl perform (perform desk ⟨index, .window count⟩))[desk.length]? = some inner ∧
            inner.opened = frame ∧ frame.Leads inner.rest ∧
            cursor.rest.offset ≤ inner.rest.offset ∧
            inner.rest.endOffset = cursor.rest.offset + count) ∧
        ∀ passed ≤ count, ∃ inner, (perform (perform desk ⟨index, .window count⟩)
          ⟨desk.length, .take passed⟩)[desk.length]? = some inner ∧
            inner.rest.offset = cursor.rest.offset + passed := by
  have hsound := sound_of_reached hdesk cursor (List.mem_of_getElem? hcursor)
  refine ⟨⟨hsound.held, hsound.leads, hsound.leads.endOffset_eq, hsound.holds_rest.endOffset_le⟩,
    fun operation ↦ ⟨operation.exact_on _, ?_⟩, fun later ↦ getElem?_foldl_perform later hcursor,
    fun count frame after hrun ↦ ?_⟩
  · rw [getElem?_perform hcursor, if_pos rfl]
  · obtain ⟨hpasses, hoffset, hcount⟩ := Operation.window_of_reader hrun
    obtain rfl : count = frame.length := Operation.window.inj hcount
    have hinner := getElem?_perform_window hcursor hrun
    refine ⟨?_, rfl, fun later ↦ ?_, fun passed hpassed ↦ ?_⟩
    · rw [hpasses.bytes_eq, Span.length, List.take_left, ← hoffset]
    · obtain ⟨inner, hplace, hopened, hleads, -⟩ := getElem?_foldl_perform later hinner
      refine ⟨inner, hplace, hopened, hleads, hoffset ▸ hleads.offset_le, ?_⟩
      rw [hleads.endOffset_eq, ← hoffset]
      rfl
    · refine ⟨_, by rw [getElem?_perform hinner, if_pos rfl], ?_⟩
      show (residue ((Operation.take passed).reader frame)).offset = _
      rw [Operation.reader_take_of_le hpassed, ← hoffset]
      rfl

/-- The desk after some actions with a window within a window: they pass one byte and open the outer
window, ask it for four bytes behind their number, of which there are only three, open the inner
window and read a word in it. -/
def nested : Desk :=
  [⟨0, .byte⟩, ⟨0, .window 5⟩, ⟨1, .sizedBytes⟩, ⟨1, .window 3⟩, ⟨2, .word 2⟩].foldl perform
    [.on ⟨100, [0x07, 0x84, 0x00, 0xaa, 0xbb, 0xcc, 0xdd]⟩]

/-- The inner window starts where the outer one starts, because what failed there took nothing. The
cursor on it has one byte left, so a word of four bytes fails and leaves it where it is. -/
theorem cursor_exact_nested :
    Reached ⟨100, [0x07, 0x84, 0x00, 0xaa, 0xbb, 0xcc, 0xdd]⟩ nested ∧
      nested[2]? = some ⟨⟨101, [0x84, 0x00, 0xaa]⟩, ⟨103, [0xaa]⟩⟩ ∧
      ∃ failure, (Operation.word 4).reader ⟨103, [0xaa]⟩ = .error failure ⟨103, [0xaa]⟩ ∧
        failure.IsReadFault 103 104 := by
  have hreached : Reached ⟨100, [0x07, 0x84, 0x00, 0xaa, 0xbb, 0xcc, 0xdd]⟩ nested :=
    ⟨_, rfl⟩
  have hinner : nested[2]? = some ⟨⟨101, [0x84, 0x00, 0xaa]⟩, ⟨103, [0xaa]⟩⟩ := rfl
  have hexact := ((cursor_exact hreached hinner).2.1 (.word 4)).1
  exact ⟨hreached, hinner, .endOfInput 103 3, rfl, (hexact.error _ _ rfl).2⟩

end Desk

end StraightWasm
