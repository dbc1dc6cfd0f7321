import StraightWasm.Bytes.Forward
import StraightWasm.Proofs.Bytes.IntegerForms
import StraightWasm.Proofs.Success

/-!
# Written forms and their readers

A form says which bytes stand for which value, and where: what is written may depend on the offset
of its first byte. The forms of this file are the parts that every binary format of this kind is
made of: integers, rows of items, vectors with their count in front, and contents with their size in
front.

A reader reads a form if it succeeds exactly on inputs that start with a written form of a value,
gives that value, and takes exactly those bytes (`Reader.Reads`). Each elementary reader reads a
form, and the combinators on readers have their counterparts on forms, so what a composed reader
reads follows from its parts (`Reader.Reads.bind`, `Reader.reads_vector`). A reader that looks at
all bytes of a window is judged by what it makes of the whole window (`Reader.ReadsWhole`).
-/

set_option autoImplicit false
set_option relaxedAutoImplicit false

namespace StraightWasm

variable {α β σ : Type}

/-! ### Forms -/

/-- Which bytes are a written form of which value: `form offset value bytes` is about bytes the
first of which stands at `offset`. -/
abbrev Form (α : Type) : Type := Nat → α → List UInt8 → Prop

namespace Form

/-- An unsigned integer of a width, in any of its forms. -/
def Integer (width : Nat) : Form Nat := fun _ value bytes ↦
  Leb128.Encodes .unsigned width value bytes

/-- Items in a row. -/
inductive Row (item : Form α) : Form (List α)
  | nil (offset : Nat) : Row item offset [] []
  | cons {offset : Nat} {value : α} {rest : List α} {front back : List UInt8}
    (first : item offset value front) (others : Row item (offset + front.length) rest back) :
    Row item offset (value :: rest) (front ++ back)

theorem row_nil_iff {item : Form α} {offset : Nat} {bytes : List UInt8} :
    Row item offset [] bytes ↔ bytes = [] := by
  constructor
  · intro h
    cases h
    rfl
  · rintro rfl
    exact .nil offset

theorem row_cons_iff {item : Form α} {offset : Nat} {value : α} {rest : List α}
    {bytes : List UInt8} :
    Row item offset (value :: rest) bytes ↔
      ∃ front back, bytes = front ++ back ∧ item offset value front ∧
        Row item (offset + front.length) rest back := by
  constructor
  · intro h
    cases h with
    | cons first others => exact ⟨_, _, rfl, first, others⟩
  · rintro ⟨front, back, rfl, first, others⟩
    exact .cons first others

/-- Items in a row are the first of them in a row and, behind these, the others in a row. -/
theorem row_append_iff {item : Form α} {first others : List α} :
    ∀ {offset : Nat} {bytes : List UInt8}, Row item offset (first ++ others) bytes ↔
      ∃ front back, bytes = front ++ back ∧ Row item offset first front ∧
        Row item (offset + front.length) others back := by
  induction first with
  | nil =>
    intro offset bytes
    constructor
    · intro h
      exact ⟨[], bytes, rfl, .nil offset, h⟩
    · rintro ⟨front, back, rfl, hfront, hback⟩
      rw [row_nil_iff.mp hfront] at hback ⊢
      exact hback
  | cons value rest ih =>
    intro offset bytes
    rw [List.cons_append, row_cons_iff]
    constructor
    · rintro ⟨piece, behind, rfl, hvalue, hbehind⟩
      obtain ⟨front, back, rfl, hfront, hback⟩ := ih.mp hbehind
      rw [Nat.add_assoc, ← List.length_append] at hback
      exact ⟨piece ++ front, back, (List.append_assoc _ _ _).symm, .cons hvalue hfront, hback⟩
    · rintro ⟨_, back, rfl, hfront, hback⟩
      obtain ⟨piece, front, rfl, hvalue, hrest⟩ := row_cons_iff.mp hfront
      rw [List.length_append, ← Nat.add_assoc] at hback
      exact ⟨piece, front ++ back, List.append_assoc _ _ _, hvalue,
        ih.mpr ⟨front, back, rfl, hrest, hback⟩⟩

/-- A count and that many items. -/
def Vector (item : Form α) : Form (List α) := fun offset values bytes ↦
  ∃ count items, bytes = count ++ items ∧ Integer 32 offset values.length count ∧
    Row item (offset + count.length) values items

/-- A size and contents of that size. -/
def Sized (contents : Form α) : Form α := fun offset value bytes ↦
  ∃ size inner, bytes = size ++ inner ∧ Integer 32 offset inner.length size ∧
    contents (offset + size.length) value inner

/-- A form of a value, as a form of what a function makes of the value. -/
def Map (f : α → β) (form : Form α) : Form β := fun offset result bytes ↦
  ∃ value, form offset value bytes ∧ result = f value

/-- One form and, behind it, another one that may depend on its value. -/
def Then (first : Form α) (second : α → Form β) : Form β := fun offset result bytes ↦
  ∃ value front back, bytes = front ++ back ∧ first offset value front ∧
    second value (offset + front.length) result back

end Form

/-! ### Readers -/

/-- Whether a span is what is left of another one behind some bytes. -/
structure Span.Passes (bytes : List UInt8) (before after : Span) : Prop where
  bytes_eq : before.bytes = bytes ++ after.bytes
  offset_eq : after.offset = before.offset + bytes.length

theorem Span.passes_append_iff {front back : List UInt8} {before after : Span} :
    Passes (front ++ back) before after ↔
      ∃ middle, Passes front before middle ∧ Passes back middle after := by
  constructor
  · rintro ⟨hbytes, hoffset⟩
    refine ⟨{ offset := before.offset + front.length, bytes := back ++ after.bytes }, ⟨?_, rfl⟩,
      rfl, ?_⟩
    · rw [hbytes, List.append_assoc]
    · rw [hoffset, List.length_append, Nat.add_assoc]
  · rintro ⟨middle, hfront, hback⟩
    refine ⟨?_, ?_⟩
    · rw [hfront.bytes_eq, hback.bytes_eq, List.append_assoc]
    · rw [hback.offset_eq, hfront.offset_eq, List.length_append, Nat.add_assoc]

theorem Span.passes_nil_iff {before after : Span} : Passes [] before after ↔ before = after := by
  constructor
  · rintro ⟨hbytes, hoffset⟩
    cases before
    cases after
    simp_all
  · rintro rfl
    exact ⟨rfl, rfl⟩

theorem Span.passes_advance {front back : List UInt8} {before : Span}
    (h : before.bytes = front ++ back) : Passes front before (before.advance front.length) :=
  ⟨by simp [advance, h], rfl⟩

theorem Span.Passes.advance_eq {bytes : List UInt8} {before after : Span}
    (h : Passes bytes before after) : before.advance bytes.length = after := by
  obtain ⟨hbytes, hoffset⟩ := h
  cases after
  simp_all [advance]

theorem Span.passes_finish (span : Span) : Passes span.bytes span span.finish :=
  ⟨(List.append_nil span.bytes).symm, rfl⟩

theorem Span.Passes.finish_eq {bytes : List UInt8} {before after : Span}
    (h : Passes bytes before after) : after.finish = before.finish := by
  simp [finish, endOffset, length, h.bytes_eq, h.offset_eq, Nat.add_assoc]

namespace Reader

/-- Whether a reader succeeds exactly on a written form at the front of its span, gives its value
and takes its bytes. -/
def Reads (reader : Reader α) (form : Form α) : Prop :=
  ∀ before value after, reader before = .ok value after ↔
    ∃ bytes, form before.offset value bytes ∧ before.Passes bytes after

theorem Reads.congr {reader : Reader α} {form form' : Form α} (h : reader.Reads form)
    (hform : ∀ offset value bytes, form offset value bytes ↔ form' offset value bytes) :
    reader.Reads form' := by
  intro before value after
  rw [h]
  simp only [hform]

/-! ### Elementary readers -/

theorem reads_pure (value : α) :
    Reads (pure value) fun _ found bytes ↦ found = value ∧ bytes = [] := by
  intro before found after
  rw [Success.pure_iff]
  constructor
  · rintro ⟨rfl, hsame⟩
    exact ⟨[], ⟨rfl, rfl⟩, Span.passes_nil_iff.mpr hsame⟩
  · rintro ⟨_, ⟨rfl, rfl⟩, hpasses⟩
    exact ⟨rfl, Span.passes_nil_iff.mp hpasses⟩

theorem reads_fail (diagnostic : Diagnostic) :
    Reads (fail diagnostic : Reader α) fun _ _ _ ↦ False := by
  intro before value after
  simp [fail]

theorem reads_offset : Reads offset fun place found bytes ↦ found = place ∧ bytes = [] := by
  intro before found after
  exact reads_pure before.offset before found after

theorem reads_byte : Reads byte fun _ found bytes ↦ bytes = [found] := by
  intro before found after
  unfold byte
  constructor
  · intro h
    cases hbytes : before.bytes with
    | nil =>
      rw [hbytes] at h
      cases h
    | cons first rest =>
      rw [hbytes] at h
      cases h
      exact ⟨[_], rfl, hbytes, rfl⟩
  · rintro ⟨_, rfl, hpasses⟩
    have hbytes := hpasses.bytes_eq
    rw [List.singleton_append] at hbytes
    rw [hbytes, ← hpasses.advance_eq, Span.advance, hbytes]
    rfl

theorem reads_take (count : Nat) :
    Reads (take count) fun _ found bytes ↦ bytes = found ∧ bytes.length = count := by
  intro before found after
  unfold take
  rw [Span.take?_eq]
  constructor
  · intro h
    split_ifs at h with henough
    cases h
    have hlength : (before.bytes.take count).length = count := List.length_take_of_le henough
    have hpasses := Span.passes_advance (List.take_append_drop count before.bytes).symm
    rw [hlength] at hpasses
    exact ⟨_, ⟨rfl, hlength⟩, hpasses⟩
  · rintro ⟨bytes, ⟨rfl, rfl⟩, hpasses⟩
    have hbytes := hpasses.bytes_eq
    have henough : bytes.length ≤ before.length := by
      rw [Span.length, hbytes, List.length_append]
      exact Nat.le_add_right _ _
    rw [if_pos henough, hpasses.advance_eq, hbytes, List.take_left]

/-- Assumes: a width that is no multiple of seven. -/
theorem reads_integer (sign : Signedness) {bits : Nat} (hbits : bits % 7 ≠ 0) :
    Reads (integer sign bits) fun _ found bytes ↦ Leb128.Encodes sign bits found bytes := by
  intro before found after
  unfold integer
  constructor
  · intro h
    cases hdecode : Leb128.decode sign bits before.bytes with
    | error fault =>
      rw [hdecode] at h
      cases h
    | ok decoded =>
      obtain ⟨front, back, hbytes, hsize, hencodes⟩ :=
        (Leb128.decode_iff_encodes hbits before.bytes).mp hdecode
      rw [hdecode] at h
      cases h
      rw [hsize]
      exact ⟨front, hencodes, Span.passes_advance hbytes⟩
  · rintro ⟨bytes, hencodes, hpasses⟩
    have hdecode : Leb128.decode sign bits before.bytes = .ok ⟨found, bytes.length⟩ :=
      (Leb128.decode_iff_encodes hbits before.bytes).mpr
        ⟨bytes, after.bytes, hpasses.bytes_eq, rfl, hencodes⟩
    rw [hdecode, ← hpasses.advance_eq]

/-! ### Combinators -/

theorem Reads.bind {first : Reader α} {second : α → Reader β} {form : Form α} {next : α → Form β}
    (hfirst : first.Reads form) (hsecond : ∀ value, (second value).Reads (next value)) :
    (first >>= second).Reads (form.Then next) := by
  intro before result after
  simp only [Success.bind_iff, hfirst before, hsecond _ _ result after]
  constructor
  · rintro ⟨value, middle, ⟨front, hvalue, hfront⟩, back, hresult, hback⟩
    rw [hfront.offset_eq] at hresult
    exact ⟨front ++ back, ⟨value, front, back, rfl, hvalue, hresult⟩,
      Span.passes_append_iff.mpr ⟨middle, hfront, hback⟩⟩
  · rintro ⟨_, ⟨value, front, back, rfl, hvalue, hresult⟩, hpasses⟩
    obtain ⟨middle, hfront, hback⟩ := Span.passes_append_iff.mp hpasses
    rw [← hfront.offset_eq] at hresult
    exact ⟨value, middle, ⟨front, hvalue, hfront⟩, back, hresult, hback⟩

/-- A reader whose value is put to use. -/
theorem Reads.bind_pure {reader : Reader α} {form : Form α} (h : reader.Reads form) (f : α → β) :
    Reads (do
      let value ← reader
      pure (f value)) (form.Map f) := by
  refine (h.bind fun value ↦ reads_pure (f value)).congr fun offset result bytes ↦ ?_
  constructor
  · rintro ⟨value, front, _, rfl, hvalue, rfl, rfl⟩
    rw [List.append_nil]
    exact ⟨value, hvalue, rfl⟩
  · rintro ⟨value, hvalue, rfl⟩
    exact ⟨value, bytes, [], (List.append_nil bytes).symm, hvalue, rfl, rfl⟩

theorem Reads.map {reader : Reader α} {form : Form α} (h : reader.Reads form) (f : α → β) :
    (f <$> reader).Reads (form.Map f) := by
  rw [← bind_pure_comp]
  exact h.bind_pure f

theorem reads_unsigned {bits : Nat} (hbits : bits % 7 ≠ 0) :
    Reads (unsigned bits) (Form.Integer bits) := by
  refine ((reads_integer .unsigned hbits).map Int.toNat).congr fun offset value bytes ↦ ?_
  constructor
  · rintro ⟨number, hnumber, rfl⟩
    rw [Form.Integer, Int.toNat_of_nonneg hnumber.fits.1]
    exact hnumber
  · intro h
    exact ⟨value, h, (Int.toNat_natCast value).symm⟩

/-- Equally many bytes with the same value are the same bytes. -/
theorem littleEndian_inj {digits : List UInt8} :
    ∀ {others : List UInt8}, digits.length = others.length →
      littleEndian digits = littleEndian others → digits = others := by
  induction digits with
  | nil =>
    intro others hlength _
    exact (List.length_eq_zero_iff.mp hlength.symm).symm
  | cons digit rest ih =>
    intro others hlength heq
    obtain ⟨other, others, rfl⟩ := List.exists_cons_of_length_eq_add_one hlength.symm
    have hcons : digit.toNat + 256 * littleEndian rest = other.toNat + 256 * littleEndian others :=
      heq
    have hdigit := digit.toNat_lt
    have hother := other.toNat_lt
    have hfirst : digit = other := UInt8.toNat_inj.mp (by omega)
    have hrest : rest = others := ih (Nat.succ.inj hlength) (by omega)
    rw [hfirst, hrest]

theorem reads_word (size : Nat) :
    Reads (word size) fun _ value bytes ↦ bytes.length = size ∧ value = littleEndian bytes := by
  refine ((reads_take size).map littleEndian).congr fun offset value bytes ↦ ?_
  constructor
  · rintro ⟨_, ⟨rfl, hsize⟩, rfl⟩
    exact ⟨hsize, rfl⟩
  · rintro ⟨hsize, rfl⟩
    exact ⟨bytes, ⟨rfl, hsize⟩, rfl⟩

/-- A reader that notes its offset for diagnostics only. -/
theorem reads_behind_offset {next : Nat → Reader α} {form : Form α}
    (h : ∀ place, (next place).Reads form) :
    Reads (do next (← offset)) form := by
  intro before value after
  exact h before.offset before value after

/-- A reader that fails unless a condition holds. -/
theorem Reads.guard {condition : Prop} [Decidable condition] {reader : Reader α} {form : Form α}
    (h : reader.Reads form) (diagnostic : Diagnostic) :
    Reads (if condition then reader else fail diagnostic) fun offset value bytes ↦
      condition ∧ form offset value bytes := by
  split_ifs with hcondition
  · exact h.congr fun _ _ _ ↦ by simp [hcondition]
  · exact (reads_fail diagnostic).congr fun _ _ _ ↦ by simp [hcondition]

/-- A reader that fails unless there is a value to give. -/
theorem reads_accept (accepted : Option α) (diagnostic : Diagnostic) :
    Reads (match accepted with
      | some value => pure value
      | none => fail diagnostic) fun _ value bytes ↦ accepted = some value ∧ bytes = [] := by
  cases accepted with
  | some value => exact (reads_pure value).congr fun _ _ _ ↦ by simp [eq_comm]
  | none => exact (reads_fail diagnostic).congr fun _ _ _ ↦ by simp

theorem reads_expect (meaning : UInt8 → Option α) (cause : UInt8 → Malformation) :
    Reads (expect meaning cause) fun _ value bytes ↦
      ∃ found, bytes = [found] ∧ meaning found = some value := by
  refine (reads_behind_offset fun place ↦
    reads_byte.bind fun found ↦ reads_accept (meaning found) _).congr fun offset value bytes ↦ ?_
  constructor
  · rintro ⟨found, _, _, rfl, rfl, hvalue, rfl⟩
    exact ⟨found, rfl, hvalue⟩
  · rintro ⟨found, rfl, hvalue⟩
    exact ⟨found, [found], [], rfl, rfl, hvalue, rfl⟩

/-- A byte that a table gives for each value. -/
theorem reads_mark {meaning : UInt8 → Option α} {mark : α → UInt8}
    (h : ∀ found value, meaning found = some value ↔ found = mark value)
    (cause : UInt8 → Malformation) :
    Reads (expect meaning cause) fun _ value bytes ↦ bytes = [mark value] := by
  refine (reads_expect meaning cause).congr fun _ value bytes ↦ ?_
  simp only [h, exists_eq_right]

/-- A byte of which something has to hold. -/
theorem reads_check (condition : UInt8 → Prop) [DecidablePred condition] (result : UInt8 → α)
    (cause : UInt8 → Malformation) :
    Reads (expect (fun found ↦ if condition found then some (result found) else none) cause)
      fun _ value bytes ↦ ∃ found, bytes = [found] ∧ condition found ∧ value = result found := by
  refine (reads_expect _ cause).congr fun _ value bytes ↦ ?_
  simp only [Option.ite_none_right_eq_some, Option.some.injEq, @eq_comm _ value]

/-! ### Rows -/

/-- A loop that reads an item in each round and adds it to what it has, unless it refuses the item,
reads the items in a row. -/
theorem reads_iterate {step : σ → Reader σ} {item : Form α} {add : σ → α → Option σ}
    (hstep : ∀ state, (step state).Reads fun offset next bytes ↦
      ∃ value, item offset value bytes ∧ add state value = some next) (count : Nat) :
    ∀ state, (iterate step count state).Reads fun offset last bytes ↦
      ∃ values, values.length = count ∧ Form.Row item offset values bytes ∧
        values.foldlM add state = some last := by
  induction count with
  | zero =>
    intro state
    refine (reads_pure state).congr fun offset last bytes ↦ ?_
    constructor
    · rintro ⟨rfl, rfl⟩
      exact ⟨[], rfl, .nil offset, rfl⟩
    · rintro ⟨values, hcount, hrow, hlast⟩
      obtain rfl := List.length_eq_zero_iff.mp hcount
      cases hlast
      exact ⟨rfl, Form.row_nil_iff.mp hrow⟩
  | succ count ih =>
    intro state
    -- The first round leads to the state from which the other rounds, and the fold, go on.
    refine ((hstep state).bind ih).congr fun offset last bytes ↦ ?_
    constructor
    · rintro ⟨next, front, back, rfl, ⟨value, hvalue, hnext⟩, values, rfl, hrow, hlast⟩
      refine ⟨value :: values, rfl, .cons hvalue hrow, ?_⟩
      rw [List.foldlM_cons, hnext]
      exact hlast
    · rintro ⟨values, hcount, hrow, hlast⟩
      obtain ⟨value, rest, rfl⟩ := List.exists_cons_of_length_eq_add_one hcount
      obtain ⟨front, back, rfl, hvalue, hrest⟩ := Form.row_cons_iff.mp hrow
      rw [List.foldlM_cons, Option.bind_eq_bind, Option.bind_eq_some_iff] at hlast
      obtain ⟨next, hnext, hlast⟩ := hlast
      exact ⟨next, front, back, rfl, ⟨value, hvalue, hnext⟩, rest, Nat.succ.inj hcount, hrest,
        hlast⟩

theorem foldlM_collect (values : List α) :
    ∀ found : List α, values.foldlM (fun found value ↦ some (value :: found)) found =
      some (values.reverse ++ found) := by
  induction values with
  | nil => exact fun found ↦ rfl
  | cons value rest ih =>
    intro found
    rw [List.foldlM_cons, Option.bind_eq_bind, Option.bind_some, ih, List.reverse_cons,
      List.append_assoc, List.singleton_append]

theorem reads_replicate {item : Reader α} {form : Form α} (h : item.Reads form) (count : Nat) :
    (replicate count item).Reads fun offset values bytes ↦
      values.length = count ∧ Form.Row form offset values bytes := by
  have hstep : ∀ found : List α, Reads ((· :: found) <$> item) fun offset next bytes ↦
      ∃ value, form offset value bytes ∧ some (value :: found) = some next := by
    intro found
    refine (h.map (· :: found)).congr fun offset next bytes ↦ ?_
    simp only [Form.Map, Option.some.injEq, eq_comm]
  refine ((reads_iterate hstep count []).map List.reverse).congr fun offset values bytes ↦ ?_
  simp only [foldlM_collect, List.append_nil, Option.some.injEq]
  constructor
  · rintro ⟨_, ⟨found, hcount, hrow, rfl⟩, rfl⟩
    rw [List.reverse_reverse]
    exact ⟨hcount, hrow⟩
  · rintro ⟨hcount, hrow⟩
    exact ⟨values.reverse, ⟨values, hcount, hrow, rfl⟩, values.reverse_reverse.symm⟩

theorem reads_vector {item : Reader α} {form : Form α} (h : item.Reads form) :
    (vector item).Reads (Form.Vector form) := by
  refine ((reads_unsigned (by decide)).bind (reads_replicate h)).congr fun offset values bytes ↦ ?_
  constructor
  · rintro ⟨_, count, items, rfl, hcount, rfl, hitems⟩
    exact ⟨count, items, rfl, hcount, hitems⟩
  · rintro ⟨count, items, rfl, hcount, hitems⟩
    exact ⟨values.length, count, items, rfl, hcount, rfl, hitems⟩

/-! ### Windows -/

theorem Reads.atomic {reader : Reader α} {form : Form α} (h : reader.Reads form) :
    (atomic reader).Reads form := by
  intro before value after
  rw [← h before value after, Reader.atomic]
  cases reader before <;> simp

theorem reads_sizedBytes :
    Reads sizedBytes (Form.Sized fun _ found bytes ↦ bytes = found) := by
  refine ((reads_unsigned (by decide)).bind reads_take).atomic.congr fun offset found bytes ↦ ?_
  constructor
  · rintro ⟨_, size, inner, rfl, hsize, rfl, rfl⟩
    exact ⟨size, inner, rfl, hsize, rfl⟩
  · rintro ⟨size, inner, rfl, hsize, rfl⟩
    exact ⟨_, size, inner, rfl, hsize, rfl, rfl⟩

theorem reads_window (count : Nat) :
    Reads (window count) fun offset found bytes ↦
      bytes.length = count ∧ found = { offset := offset, bytes := bytes } := by
  refine (reads_offset.bind fun start ↦ (reads_take count).bind_pure _).congr
    fun offset found bytes ↦ ?_
  constructor
  · rintro ⟨_, _, inner, rfl, ⟨rfl, rfl⟩, _, ⟨rfl, hcount⟩, rfl⟩
    exact ⟨hcount, rfl⟩
  · rintro ⟨hcount, rfl⟩
    exact ⟨offset, [], bytes, rfl, ⟨rfl, rfl⟩, bytes, ⟨rfl, hcount⟩, rfl⟩

theorem reads_inside (inner : Reader α) (frame : Span) :
    Reads (inside inner frame) fun _ found bytes ↦
      inner frame = .ok found.1 found.2 ∧ bytes = [] := by
  intro before found after
  obtain ⟨value, left⟩ := found
  unfold inside
  cases hinner : inner frame with
  | ok result stop =>
    simp only [EStateM.Result.ok.injEq, Prod.mk.injEq]
    constructor
    · rintro ⟨⟨rfl, rfl⟩, hsame⟩
      exact ⟨[], ⟨⟨rfl, rfl⟩, rfl⟩, Span.passes_nil_iff.mpr hsame⟩
    · rintro ⟨_, ⟨hresult, rfl⟩, hpasses⟩
      exact ⟨hresult, Span.passes_nil_iff.mp hpasses⟩
  | error failure stop => simp

/-! ### Whole spans -/

/-- Whether a reader succeeds exactly if all bytes of its span are a written form, gives its value
and takes them all. -/
def Exhausts (reader : Reader α) (form : Form α) : Prop :=
  ∀ span value left, reader span = .ok value left ↔
    form span.offset value span.bytes ∧ left = span.finish

/-- Whether a reader that has to use up its span succeeds exactly if all bytes of the span are a
written form, and gives its value. -/
def ReadsWhole (reader : Reader α) (form : Form α) : Prop :=
  ∀ span value, (∃ left, reader span = .ok value left ∧ left.bytes = []) ↔
    form span.offset value span.bytes

theorem Reads.whole {reader : Reader α} {form : Form α} (h : reader.Reads form) :
    reader.ReadsWhole form := by
  intro span value
  simp only [h span value]
  constructor
  · rintro ⟨left, ⟨bytes, hvalue, hpasses⟩, hleft⟩
    rw [hpasses.bytes_eq, hleft, List.append_nil]
    exact hvalue
  · intro hvalue
    exact ⟨span.finish, ⟨span.bytes, hvalue, span.passes_finish⟩, rfl⟩

theorem Exhausts.whole {reader : Reader α} {form : Form α} (h : reader.Exhausts form) :
    reader.ReadsWhole form := by
  intro span value
  simp only [h span value]
  constructor
  · rintro ⟨left, ⟨hvalue, -⟩, -⟩
    exact hvalue
  · intro hvalue
    exact ⟨span.finish, ⟨hvalue, rfl⟩, rfl⟩

/-- A window that a reader has to use up is a written form of the value that it gives. -/
theorem ReadsWhole.reads_framed {inner : Reader α} {form : Form α} (h : inner.ReadsWhole form)
    (size : Nat) (result : Span → α → β) (diagnostic : α → Span → Diagnostic) :
    Reads (do
      let frame ← window size
      let (value, left) ← inside inner frame
      if left.isEmpty then pure (result frame value)
      else fail (diagnostic value left)) fun offset found bytes ↦
        bytes.length = size ∧ ∃ value, form offset value bytes ∧
          found = result { offset := offset, bytes := bytes } value := by
  refine ((reads_window size).bind fun frame ↦ (reads_inside inner frame).bind fun found ↦
    (reads_pure (result frame found.1)).guard _).congr fun offset found bytes ↦ ?_
  constructor
  · rintro ⟨_, contents, _, rfl, ⟨rfl, rfl⟩, ⟨value, left⟩, _, _, rfl, ⟨hrun, rfl⟩, hempty, rfl,
      rfl⟩
    have hvalue := (h _ value).mp ⟨left, hrun, List.isEmpty_iff.mp hempty⟩
    rw [List.append_nil, List.append_nil]
    exact ⟨rfl, value, hvalue, rfl⟩
  · rintro ⟨rfl, value, hvalue, rfl⟩
    obtain ⟨left, hrun, hleft⟩ := (h ⟨offset, bytes⟩ value).mpr hvalue
    exact ⟨_, bytes, [], (List.append_nil bytes).symm, ⟨rfl, rfl⟩, (value, left), [], [], rfl,
      ⟨hrun, rfl⟩, List.isEmpty_iff.mpr hleft, rfl, rfl⟩

/-- Taking all bytes as they are. -/
theorem exhausts_rest (result : Nat → List UInt8 → α) :
    Exhausts (do
      let place ← offset
      let bytes ← unread
      skipAll
      pure (result place bytes)) fun offset found bytes ↦ found = result offset bytes := by
  intro span value left
  change EStateM.Result.ok (result span.offset span.bytes) span.finish = .ok value left ↔ _
  rw [EStateM.Result.ok.injEq, eq_comm, @eq_comm _ left]

/-- Passing over all bytes. -/
theorem exhausts_skipAll (value : α) :
    Exhausts (do
      skipAll
      pure value) fun _ found _ ↦ found = value := by
  intro span found left
  change EStateM.Result.ok value span.finish = .ok found left ↔ _
  rw [EStateM.Result.ok.injEq, eq_comm, @eq_comm _ left]

theorem Reads.bind_exhausts {first : Reader α} {second : α → Reader β} {form : Form α}
    {next : α → Form β} (hfirst : first.Reads form)
    (hsecond : ∀ value, (second value).Exhausts (next value)) :
    (first >>= second).Exhausts (form.Then next) := by
  intro span result left
  simp only [Success.bind_iff, hfirst span, hsecond _ _ result left]
  constructor
  · rintro ⟨value, middle, ⟨front, hvalue, hpasses⟩, hresult, rfl⟩
    rw [hpasses.offset_eq] at hresult
    exact ⟨⟨value, front, middle.bytes, hpasses.bytes_eq, hvalue, hresult⟩, hpasses.finish_eq⟩
  · rintro ⟨⟨value, front, back, hbytes, hvalue, hresult⟩, rfl⟩
    have hpasses := Span.passes_advance hbytes
    have hback : (span.advance front.length).bytes = back := by simp [Span.advance, hbytes]
    refine ⟨value, _, ⟨front, hvalue, hpasses⟩, ?_, hpasses.finish_eq.symm⟩
    rw [hback]
    exact hresult

section UntilEnd

variable {item : Reader α} {form : Form α}
  (shrinks : ∀ {before after : Span} {value : α}, item before = .ok value after →
    after.bytes.length < before.bytes.length)

/-- The bytes of a span are items in a row exactly if the reader finds the first item there and the
others are written behind it. -/
theorem Reads.row_cons_iff (h : item.Reads form) {span : Span} {value : α} {rest : List α} :
    Form.Row form span.offset (value :: rest) span.bytes ↔
      ∃ next, item span = .ok value next ∧ Form.Row form next.offset rest next.bytes := by
  simp only [h span value, Form.row_cons_iff]
  constructor
  · rintro ⟨front, back, hbytes, hvalue, hrest⟩
    have hback : (span.advance front.length).bytes = back := by simp [Span.advance, hbytes]
    exact ⟨_, ⟨front, hvalue, Span.passes_advance hbytes⟩, hback ▸ hrest⟩
  · rintro ⟨next, ⟨front, hvalue, hpasses⟩, hrest⟩
    exact ⟨front, next.bytes, hpasses.bytes_eq, hvalue, hpasses.offset_eq ▸ hrest⟩

theorem untilEnd_iff (h : item.Reads form) (found : List α) (span : Span) {values : List α}
    {left : Span} :
    untilEnd item shrinks found span = .ok values left ↔
      (∃ rest, values = found.reverse ++ rest ∧ Form.Row form span.offset rest span.bytes) ∧
        left = span.finish := by
  -- The items found so far are the front of the result, the last of them first.
  fun_induction untilEnd item shrinks found span with
  | case1 found span hempty =>
    have hbytes : span.bytes = [] := List.isEmpty_iff.mp hempty
    have hfinish : span.finish = span := (span.passes_nil_iff.mp (hbytes ▸ span.passes_finish)).symm
    rw [hfinish, EStateM.Result.ok.injEq]
    constructor
    · rintro ⟨rfl, rfl⟩
      exact ⟨⟨[], (List.append_nil _).symm, Form.row_nil_iff.mpr hbytes⟩, rfl⟩
    · rintro ⟨⟨rest, rfl, hrow⟩, rfl⟩
      cases rest with
      | nil => exact ⟨(List.append_nil _).symm, rfl⟩
      | cons value rest =>
        -- One more item would have been written in no bytes, but every item takes a byte.
        obtain ⟨next, hrun, -⟩ := h.row_cons_iff.mp hrow
        have hlt := shrinks hrun
        rw [hbytes] at hlt
        exact absurd hlt (Nat.not_lt_zero _)
  | case2 found span hempty value next hrun _ ih =>
    obtain ⟨front, -, hpasses⟩ := (h span value next).mp hrun
    rw [ih, hpasses.finish_eq, List.reverse_cons]
    refine and_congr_left fun _ ↦ ?_
    constructor
    · rintro ⟨rest, rfl, hrow⟩
      exact ⟨value :: rest, by simp, h.row_cons_iff.mpr ⟨next, hrun, hrow⟩⟩
    · rintro ⟨rest, rfl, hrow⟩
      cases rest with
      | nil => exact absurd (List.isEmpty_iff.mpr (Form.row_nil_iff.mp hrow)) hempty
      | cons other rest =>
        obtain ⟨_, hother, hrest⟩ := h.row_cons_iff.mp hrow
        rw [hrun] at hother
        cases hother
        exact ⟨rest, by simp, hrest⟩
  | case3 found span hempty failure stop hrun =>
    simp only [reduceCtorEq, false_iff, not_and, forall_exists_index]
    rintro rest ⟨-, hrow⟩
    cases rest with
    | nil => exact absurd (List.isEmpty_iff.mpr (Form.row_nil_iff.mp hrow)) hempty
    | cons value rest =>
      obtain ⟨_, hvalue, -⟩ := h.row_cons_iff.mp hrow
      rw [hrun] at hvalue
      cases hvalue

/-- Reading items up to the end of the bytes. -/
theorem exhausts_all (h : item.Reads form) : (all item shrinks).Exhausts (Form.Row form) := by
  intro span values left
  rw [all, untilEnd_iff shrinks h]
  simp

end UntilEnd

end Reader

end StraightWasm
