/-!
# Spans

A span is a stretch of a binary: its bytes and the absolute offset of the first of them. The offset
counts from the start of the whole binary, so a span within another one reports the same positions
as the outer one. Reading a span takes bytes off its front.

Taking bytes is all or nothing, and `Span.take?_eq` says what it gives. `Span.Leads` is the relation
between a span and what is left of it later.
-/

set_option autoImplicit false
set_option relaxedAutoImplicit false

namespace StraightWasm

/-- The bytes of a stretch of a binary and the absolute offset of the first of them. -/
structure Span where
  offset : Nat
  bytes : List UInt8
  deriving DecidableEq, Repr, Inhabited

namespace Span

/-- How many bytes a span has. -/
def length (span : Span) : Nat :=
  span.bytes.length

/-- Whether a span has no bytes. -/
def isEmpty (span : Span) : Bool :=
  span.bytes.isEmpty

/-- The offset just behind the last byte. -/
def endOffset (span : Span) : Nat :=
  span.offset + span.length

/-- What is left of a span behind its first `count` bytes. -/
def advance (count : Nat) (span : Span) : Span where
  offset := span.offset + count
  bytes := span.bytes.drop count

/-- What is left of a span behind all of its bytes. -/
def finish (span : Span) : Span where
  offset := span.endOffset
  bytes := []

/-- Splits `count` bytes off a list in one pass, collecting them in reverse. -/
def splitOff (taken : List UInt8) : Nat → List UInt8 → Option (List UInt8 × List UInt8)
  | 0, rest => some (taken.reverse, rest)
  | _ + 1, [] => none
  | count + 1, byte :: rest => splitOff (byte :: taken) count rest

/-- The first `count` bytes and the span behind them, if there are that many. -/
def take? (count : Nat) (span : Span) : Option (List UInt8 × Span) :=
  (splitOff [] count span.bytes).map fun (taken, rest) ↦
    (taken, { offset := span.offset + count, bytes := rest })

theorem splitOff_eq (taken : List UInt8) (count : Nat) (bytes : List UInt8) :
    splitOff taken count bytes =
      if count ≤ bytes.length then some (taken.reverse ++ bytes.take count, bytes.drop count)
      else none := by
  fun_induction splitOff taken count bytes with
  | case1 => simp
  | case2 => simp
  | case3 taken count byte rest ih => simp [ih]

/-- Taking bytes succeeds exactly when there are enough of them, and then it splits the span. -/
theorem take?_eq (count : Nat) (span : Span) :
    span.take? count =
      if count ≤ span.length then some (span.bytes.take count, span.advance count)
      else none := by
  by_cases enough : count ≤ span.bytes.length <;>
    simp [take?, splitOff_eq, length, advance, enough]

/-! ### Moving forward -/

/-- One span leads to another when the second is what is left of the first behind some bytes, and
its offset has grown by their number. -/
def Leads (before after : Span) : Prop :=
  ∃ between : List UInt8,
    before.bytes = between ++ after.bytes ∧ after.offset = before.offset + between.length

namespace Leads

theorem refl (span : Span) : span.Leads span :=
  ⟨[], rfl, rfl⟩

theorem trans {first middle last : Span} (hfirst : first.Leads middle)
    (hlast : middle.Leads last) : first.Leads last := by
  obtain ⟨front, hfrontBytes, hfrontOffset⟩ := hfirst
  obtain ⟨back, hbackBytes, hbackOffset⟩ := hlast
  exact ⟨front ++ back, by simp [hfrontBytes, hbackBytes],
    by simp [hfrontOffset, hbackOffset, Nat.add_assoc]⟩

theorem length_le {before after : Span} (h : before.Leads after) :
    after.bytes.length ≤ before.bytes.length := by
  obtain ⟨between, hbytes, _⟩ := h
  simp [hbytes]

end Leads

theorem leads_advance {count : Nat} {span : Span} (h : count ≤ span.bytes.length) :
    span.Leads (span.advance count) :=
  ⟨span.bytes.take count, by simp [advance], by simp [advance, h]⟩

theorem leads_finish (span : Span) : span.Leads span.finish :=
  ⟨span.bytes, by simp [finish], rfl⟩

end Span

end StraightWasm
