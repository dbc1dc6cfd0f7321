import Mathlib.Order.Basic
import Mathlib.Order.Nat
import StraightWasm.Bytes.Forward
import StraightWasm.Proofs.Success

/-!
# Where readers fail

A failure tells a place in the binary (`Diagnostic.offset?`), and some failures name a function
(`Diagnostic.function?`). A reader that starts between two offsets and may read up to the second of
them fails between them, names no function, and asks for at least one byte if it runs out of them
(`Diagnostic.IsReadFault`). Readers with this property are confined (`Reader.Confined`).

A reader may blame a place that it has passed, such as that of a byte with no meaning. So it is the
place where the outermost reader started that bounds the places from below, and a place that was
looked up on the way stays within the bounds (`Reader.confined_offset_bind`). A window moves the
bounds inwards (`Reader.confined_window_bind`, `Reader.confined_inside_bind`).
-/

set_option autoImplicit false
set_option relaxedAutoImplicit false

namespace StraightWasm

open Success (Ends)

/-! ### What a failure tells -/

/-- The function that a malformation names, if it names one. -/
def Malformation.function? : Malformation → Option Nat
  | .undeclaredType function _ _ => some function
  | .localIndex _ function _ => some function
  | .trailingBytes _ function => some function
  | .valuesLeft _ function => some function
  | _ => none

namespace Diagnostic

/-- The place in the binary that a failure tells. -/
def offset? : Diagnostic → Option Nat
  | .endOfInput offset _ => some offset
  | .malformed offset _ => some offset
  | .stackUnderflow _ offset => some offset
  | .stackOverflow _ offset _ => some offset
  | .unsupportedOpcode _ offset _ => some offset
  | .emission _ _ => none

/-- The function that a failure names. -/
def function? : Diagnostic → Option Nat
  | .endOfInput _ _ => none
  | .malformed _ cause => cause.function?
  | .stackUnderflow function _ => some function
  | .stackOverflow function _ _ => some function
  | .unsupportedOpcode function _ _ => some function
  | .emission function _ => some function

/-- Whether a failure is one of reading between two offsets. -/
def IsReadFault (low high : Nat) : Diagnostic → Prop
  | .endOfInput offset needed => low ≤ offset ∧ offset ≤ high ∧ 1 ≤ needed
  | .malformed offset cause => low ≤ offset ∧ offset ≤ high ∧ cause.function? = none
  | _ => False

theorem IsReadFault.mono {low high low' high' : Nat} {failure : Diagnostic}
    (h : failure.IsReadFault low high) (hlow : low' ≤ low) (hhigh : high ≤ high') :
    failure.IsReadFault low' high' := by
  cases failure with
  | endOfInput offset needed =>
    obtain ⟨hoffset, hoffset', hneeded⟩ := h
    exact ⟨hlow.trans hoffset, hoffset'.trans hhigh, hneeded⟩
  | malformed offset cause =>
    obtain ⟨hoffset, hoffset', hcause⟩ := h
    exact ⟨hlow.trans hoffset, hoffset'.trans hhigh, hcause⟩
  | stackUnderflow | stackOverflow | unsupportedOpcode | emission => exact h

end Diagnostic

/-! ### Confined readers -/

/-- Whether a span starts at an offset or behind it and ends at another one. -/
structure Span.Between (low high : Nat) (span : Span) : Prop where
  low_le : low ≤ span.offset
  endOffset_eq : span.endOffset = high

namespace Span.Between

variable {low high : Nat} {span after : Span}

theorem offset_le (h : span.Between low high) : span.offset ≤ high := by
  rw [← h.endOffset_eq]
  exact Nat.le_add_right _ _

theorem leads (h : span.Between low high) (hleads : span.Leads after) :
    after.Between low high := by
  obtain ⟨between, hbytes, hoffset⟩ := hleads
  have hlow := h.low_le
  have hhigh : span.offset + span.bytes.length = high := h.endOffset_eq
  rw [hbytes, List.length_append] at hhigh
  refine ⟨by omega, ?_⟩
  show after.offset + after.bytes.length = high
  omega

end Span.Between

namespace Reader

variable {α β : Type} {low high : Nat}

/-- Whether all failures of a reader between two offsets are failures of reading between them. -/
def Confined (low high : Nat) (reader : Reader α) : Prop :=
  ∀ span : Span, span.Between low high →
    Ends (fun _ after ↦ after.Between low high) (Diagnostic.IsReadFault low high) (reader span)

theorem confined_of_forward {reader : Reader α} (hforward : Forward reader)
    (hfault : ∀ span failure stop, span.Between low high → reader span = .error failure stop →
      failure.IsReadFault low high) : Confined low high reader := by
  intro span hspan
  have hleads := hforward span
  cases hrun : reader span with
  | ok value after =>
    rw [hrun] at hleads
    exact hspan.leads hleads
  | error failure stop => exact hfault span failure stop hspan hrun

theorem confined_pure (value : α) : Confined low high (pure value) :=
  fun _ hspan ↦ hspan

theorem Confined.bind {first : Reader α} {second : α → Reader β} (hfirst : Confined low high first)
    (hsecond : ∀ value, Confined low high (second value)) :
    Confined low high (first >>= second) :=
  fun span hspan ↦ Ends.bind (hfirst span hspan) fun value middle ↦ hsecond value middle

theorem Confined.map {reader : Reader α} (h : Confined low high reader) (f : α → β) :
    Confined low high (f <$> reader) := by
  rw [map_eq_pure_bind]
  exact h.bind fun value ↦ confined_pure (f value)

theorem Confined.ite {condition : Prop} [Decidable condition] {first second : Reader α}
    (hfirst : Confined low high first) (hsecond : Confined low high second) :
    Confined low high (if condition then first else second) := by
  split_ifs
  · exact hfirst
  · exact hsecond

theorem confined_malformed {place : Nat} (hlow : low ≤ place) (hhigh : place ≤ high)
    {cause : Malformation} (hcause : cause.function? = none) :
    Confined low high (malformed place cause : Reader α) :=
  fun _ _ ↦ ⟨hlow, hhigh, hcause⟩

/-- The place at hand may be blamed later on. -/
theorem confined_offset_bind {next : Nat → Reader α}
    (h : ∀ place, low ≤ place → place ≤ high → Confined low high (next place)) :
    Confined low high (offset >>= next) := by
  intro span hspan
  exact h span.offset hspan.low_le hspan.offset_le span hspan

/-! ### Elementary readers -/

theorem ends_take (count : Nat) {span : Span} (hspan : span.Between low high) :
    Ends (fun taken after ↦ after.Between low high ∧ taken.length = count ∧
        span.offset + count ≤ high)
      (Diagnostic.IsReadFault low high) (take count span) := by
  unfold take
  rw [Span.take?_eq]
  by_cases henough : count ≤ span.length
  · rw [if_pos henough]
    refine ⟨hspan.leads (Span.leads_advance henough), List.length_take_of_le henough, ?_⟩
    rw [← hspan.endOffset_eq]
    exact Nat.add_le_add_left henough span.offset
  · rw [if_neg henough]
    refine ⟨hspan.low_le, hspan.offset_le, ?_⟩
    show 1 ≤ count - span.length
    omega

theorem confined_take (count : Nat) : Confined low high (take count) :=
  fun _ hspan ↦ (ends_take count hspan).mono (fun _ _ h ↦ h.1) fun _ h ↦ h

/-- A word that could be read lies between the offsets. -/
theorem confined_word_bind {size : Nat} {next : Nat → Reader α}
    (h : low + size ≤ high → ∀ value, Confined low high (next value)) :
    Confined low high (word size >>= next) := by
  intro span hspan
  unfold word
  rw [bind_map_left]
  refine Ends.bind (ends_take size hspan) fun taken after ⟨hafter, _, hsize⟩ ↦ ?_
  exact h ((Nat.add_le_add_right hspan.low_le size).trans hsize) _ after hafter

theorem ends_byte {span : Span} (hspan : span.Between low high) :
    Ends (fun first after ↦ after.Between low high ∧ ∃ rest, span.bytes = first :: rest)
      (Diagnostic.IsReadFault low high) (byte span) := by
  have hleads := forward_byte span
  unfold byte at hleads ⊢
  cases hbytes : span.bytes with
  | cons first rest =>
    rw [hbytes] at hleads
    exact ⟨hspan.leads hleads, rest, rfl⟩
  | nil => exact ⟨hspan.low_le, hspan.offset_le, le_rfl⟩

theorem confined_byte : Confined low high byte :=
  fun _ hspan ↦ (ends_byte hspan).mono (fun _ _ h ↦ h.1) fun _ h ↦ h

theorem confined_integer (sign : Signedness) (bits : Nat) :
    Confined low high (integer sign bits) := by
  refine confined_of_forward (forward_integer sign bits) fun span failure stop hspan hrun ↦ ?_
  unfold integer at hrun
  cases hdecode : Leb128.decode sign bits span.bytes with
  | ok decoded =>
    rw [hdecode] at hrun
    cases hrun
  | error fault =>
    rw [hdecode] at hrun
    cases hrun
    cases fault with
    | truncated =>
      show low ≤ span.endOffset ∧ span.endOffset ≤ high ∧ 1 ≤ 1
      rw [hspan.endOffset_eq]
      exact ⟨hspan.low_le.trans hspan.offset_le, le_rfl, le_rfl⟩
    | tooLong => exact ⟨hspan.low_le, hspan.offset_le, rfl⟩
    | tooLarge => exact ⟨hspan.low_le, hspan.offset_le, rfl⟩

theorem confined_unsigned (bits : Nat) : Confined low high (unsigned bits) :=
  (confined_integer _ _).map _

theorem confined_signed (bits : Nat) : Confined low high (signed bits) :=
  confined_integer _ _

theorem confined_unread : Confined low high unread :=
  fun _ hspan ↦ hspan

theorem confined_skipAll : Confined low high skipAll :=
  fun span hspan ↦ hspan.leads span.leads_finish

theorem confined_expect {meaning : UInt8 → Option α} {cause : UInt8 → Malformation}
    (hcause : ∀ found, (cause found).function? = none) :
    Confined low high (expect meaning cause) := by
  refine confined_offset_bind fun place hlow hhigh ↦ confined_byte.bind fun found ↦ ?_
  cases meaning found with
  | some value => exact confined_pure value
  | none => exact confined_malformed hlow hhigh (hcause found)

/-! ### Windows and repetition -/

theorem Confined.atomic {reader : Reader α} (h : Confined low high reader) :
    Confined low high (atomic reader) := by
  intro span hspan
  have hrun := h span hspan
  unfold Reader.atomic
  cases hreader : reader span with
  | ok value after =>
    rw [hreader] at hrun
    exact hrun
  | error failure stop =>
    rw [hreader] at hrun
    exact hrun

theorem confined_sizedBytes : Confined low high sizedBytes :=
  ((confined_unsigned 32).bind confined_take).atomic

/-- A window lies between the offsets. -/
theorem confined_window_bind {count : Nat} {next : Span → Reader α}
    (h : ∀ frame, low ≤ frame.offset → frame.endOffset ≤ high → Confined low high (next frame)) :
    Confined low high (window count >>= next) := by
  intro span hspan
  have hwindow : Ends (fun frame after ↦ after.Between low high ∧ low ≤ frame.offset ∧
      frame.endOffset ≤ high) (Diagnostic.IsReadFault low high) (window count span) := by
    show Ends _ _ ((do
      let taken ← take count
      pure ({ offset := span.offset, bytes := taken } : Span)) span)
    refine Ends.bind (ends_take count hspan) fun taken after ⟨hafter, hlength, hle⟩ ↦ ?_
    refine ⟨hafter, hspan.low_le, ?_⟩
    show span.offset + taken.length ≤ high
    rw [hlength]
    exact hle
  exact Ends.bind hwindow fun frame after ⟨hafter, hlow, hhigh⟩ ↦ h frame hlow hhigh after hafter

/-- What is read inside a window is blamed on places inside of it, and what is left of the window
lies between the offsets, too. -/
theorem confined_inside_bind {inner : Reader α} {frame : Span} {next : α × Span → Reader β}
    (hinner : Confined frame.offset frame.endOffset inner) (hlow : low ≤ frame.offset)
    (hhigh : frame.endOffset ≤ high)
    (h : ∀ value left, low ≤ left.offset → left.offset ≤ high →
      Confined low high (next (value, left))) :
    Confined low high (inside inner frame >>= next) := by
  intro span hspan
  have hinside : Ends (fun found after ↦ after.Between low high ∧ low ≤ found.2.offset ∧
      found.2.offset ≤ high) (Diagnostic.IsReadFault low high) (inside inner frame span) := by
    have hframe := hinner frame ⟨le_rfl, rfl⟩
    unfold inside
    cases hrun : inner frame with
    | ok value left =>
      rw [hrun] at hframe
      exact ⟨hspan, hlow.trans hframe.low_le, hframe.offset_le.trans hhigh⟩
    | error failure stop =>
      rw [hrun] at hframe
      have hfault : failure.IsReadFault frame.offset frame.endOffset := hframe
      exact hfault.mono hlow hhigh
  exact Ends.bind hinside fun found after ⟨hafter, hleft, hleft'⟩ ↦
    h found.1 found.2 hleft hleft' after hafter

theorem confined_iterate {step : α → Reader α} (h : ∀ value, Confined low high (step value))
    (count : Nat) : ∀ value, Confined low high (iterate step count value) := by
  induction count with
  | zero => exact fun value ↦ confined_pure value
  | succ count ih => exact fun value ↦ (h value).bind ih

theorem Confined.vector {item : Reader α} (h : Confined low high item) :
    Confined low high (vector item) :=
  (confined_unsigned 32).bind fun count ↦ (confined_iterate (fun _ ↦ h.map _) count []).map _

theorem Confined.untilEnd {item : Reader α}
    {shrinks : ∀ {before after : Span} {value : α}, item before = .ok value after →
      after.bytes.length < before.bytes.length} (h : Confined low high item)
    (found : List α) (span : Span) (hspan : span.Between low high) :
    Ends (fun _ after ↦ after.Between low high) (Diagnostic.IsReadFault low high)
      (Reader.untilEnd item shrinks found span) := by
  fun_induction Reader.untilEnd item shrinks found span with
  | case1 found span hempty => exact hspan
  | case2 found span hempty value next hrun _ ih =>
    have hitem := h span hspan
    rw [hrun] at hitem
    exact ih hitem
  | case3 found span hempty failure stop hrun =>
    have hitem := h span hspan
    rw [hrun] at hitem
    exact hitem

end Reader

end StraightWasm
