import StraightWasm.Bytes.Reader

/-!
# Readers never move backwards

Whether it succeeds or fails, a reader only takes bytes off the front of its span. The property
holds of every elementary reader and is kept by the combinators. A reader that starts with a byte
therefore leaves fewer bytes than it found, which is why reading items up to the end of the bytes
comes to an end itself.
-/

set_option autoImplicit false
set_option relaxedAutoImplicit false

namespace StraightWasm

/-- The state that a run leaves behind, whether it succeeds or fails. -/
def Success.residue {ε σ α : Type} : EStateM.Result ε σ α → σ
  | .ok _ after => after
  | .error _ stop => stop

namespace Reader

open Success (residue)

variable {α β : Type}

/-- A reader is forward when it takes bytes off the front of its span and does nothing else to
it. -/
def Forward (reader : Reader α) : Prop :=
  ∀ span : Span, span.Leads (residue (reader span))

theorem forward_pure (value : α) : Forward (pure value) := fun span ↦ .refl span

theorem forward_bind {first : Reader α} {second : α → Reader β} (hfirst : Forward first)
    (hsecond : ∀ value, Forward (second value)) : Forward (first >>= second) := by
  intro span
  have hstart := hfirst span
  change span.Leads (residue (EStateM.bind first second span))
  unfold EStateM.bind
  cases hrun : first span with
  | ok value next =>
    rw [hrun] at hstart
    exact hstart.trans (hsecond value next)
  | error failure stop =>
    rw [hrun] at hstart
    exact hstart

theorem forward_map {reader : Reader α} (f : α → β) (h : Forward reader) :
    Forward (f <$> reader) := by
  intro span
  have hstart := h span
  change span.Leads (residue (EStateM.map f reader span))
  unfold EStateM.map
  cases hrun : reader span <;> rw [hrun] at hstart <;> exact hstart

theorem forward_offset : Forward offset := fun span ↦ .refl span

theorem forward_fail (diagnostic : Diagnostic) : Forward (fail diagnostic : Reader α) :=
  fun span ↦ .refl span

theorem forward_malformed (offset : Nat) (cause : Malformation) :
    Forward (malformed offset cause : Reader α) :=
  forward_fail _

theorem forward_take (count : Nat) : Forward (take count) := by
  intro span
  unfold take
  rw [Span.take?_eq]
  by_cases enough : count ≤ span.length
  · simpa [enough, residue] using Span.leads_advance enough
  · simpa [enough, residue] using Span.Leads.refl span

theorem forward_byte : Forward byte := by
  intro span
  cases hbytes : span.bytes with
  | nil => simpa [byte, hbytes, residue] using Span.Leads.refl span
  | cons first rest =>
    exact ⟨[first], by simp [byte, hbytes, residue], by simp [byte, hbytes, residue]⟩

theorem forward_integer (sign : Signedness) (bits : Nat) : Forward (integer sign bits) := by
  intro span
  unfold integer
  cases hdecode : Leb128.decode sign bits span.bytes with
  | error fault => exact .refl span
  | ok decoded => exact Span.leads_advance (Leb128.size_of_decode hdecode).2

theorem forward_unsigned (bits : Nat) : Forward (unsigned bits) :=
  forward_map _ (forward_integer _ _)

theorem forward_signed (bits : Nat) : Forward (signed bits) :=
  forward_integer _ _

theorem forward_window (count : Nat) : Forward (window count) :=
  forward_bind forward_offset fun _ ↦ forward_bind (forward_take count) fun _ ↦ forward_pure _

theorem forward_inside (inner : Reader α) (window : Span) : Forward (inside inner window) := by
  intro span
  unfold inside
  cases inner window <;> exact .refl span

/-- A reader that is forward behind its first byte leaves fewer bytes than it found. -/
theorem length_lt_of_byte_bind {next : UInt8 → Reader α} (h : ∀ first, Forward (next first))
    {before after : Span} {value : α} (hrun : (byte >>= next) before = .ok value after) :
    after.bytes.length < before.bytes.length := by
  change EStateM.bind byte next before = _ at hrun
  unfold EStateM.bind byte at hrun
  cases hbytes : before.bytes with
  | nil => simp [hbytes] at hrun
  | cons first rest =>
    simp only [hbytes] at hrun
    have hlength := (h first { offset := before.offset + 1, bytes := rest }).length_le
    rw [hrun] at hlength
    simpa [residue, Nat.lt_succ_iff] using hlength

/-! ### Reading to the end -/

/-- Adds items to those already found until no byte is left. Every item has to take at least one
byte. -/
def untilEnd (item : Reader α)
    (shrinks : ∀ {before after : Span} {value : α}, item before = .ok value after →
      after.bytes.length < before.bytes.length)
    (found : List α) (span : Span) : EStateM.Result Diagnostic Span (List α) :=
  if span.isEmpty then .ok found.reverse span
  else
    match hrun : item span with
    | .ok value next =>
      have := shrinks hrun
      untilEnd item shrinks (value :: found) next
    | .error failure stop => .error failure stop
termination_by span.bytes.length

/-- Reads items until no byte is left. -/
def all (item : Reader α)
    (shrinks : ∀ {before after : Span} {value : α}, item before = .ok value after →
      after.bytes.length < before.bytes.length) : Reader (List α) :=
  untilEnd item shrinks []

end Reader

end StraightWasm
