import StraightWasm.Bytes.Forward
import StraightWasm.Proofs.Success

/-!
# Readers do not care where bytes stand

If all bytes stand further back in a binary by some distance, a reader does the same as before: what
it takes, whether it fails and why. Only the places that it tells are further back by that distance,
in its value, in its failure and in the span that is left (`Reader.Displaces`).

That is an instance of a relation between any two computations, of which the second does what the
first does along maps of values, states and failures (`Success.Carries`). Sequences and loops keep
the relation. A reader that looks at its own offset is one of the two parts of a sequence whose
second part is about another offset, so the two computations need not be the same.
-/

set_option autoImplicit false
set_option relaxedAutoImplicit false

namespace StraightWasm

/-! ### Two runs along maps -/

namespace Success

variable {ε ε' σ σ' α α' β β' : Type}

/-- The result of a run along maps. -/
def carry (onValue : α → α') (onState : σ → σ') (onFailure : ε → ε') :
    EStateM.Result ε σ α → EStateM.Result ε' σ' α'
  | .ok value after => .ok (onValue value) (onState after)
  | .error failure stop => .error (onFailure failure) (onState stop)

/-- Whether a second computation does what a first one does, along maps. -/
def Carries (onValue : α → α') (onState : σ → σ') (onFailure : ε → ε') (first : EStateM ε σ α)
    (second : EStateM ε' σ' α') : Prop :=
  ∀ before, second (onState before) = carry onValue onState onFailure (first before)

variable {onValue : α → α'} {onResult : β → β'} {onState : σ → σ'} {onFailure : ε → ε'}

theorem carries_pure (value : α) :
    Carries onValue onState onFailure (pure value) (pure (onValue value)) :=
  fun _ ↦ rfl

theorem Carries.bind {first : EStateM ε σ α} {first' : EStateM ε' σ' α'}
    {second : α → EStateM ε σ β} {second' : α' → EStateM ε' σ' β'}
    (hfirst : Carries onValue onState onFailure first first')
    (hsecond : ∀ value,
      Carries onResult onState onFailure (second value) (second' (onValue value))) :
    Carries onResult onState onFailure (first >>= second) (first' >>= second') := by
  intro before
  show EStateM.bind first' second' (onState before) =
    carry onResult onState onFailure (EStateM.bind first second before)
  unfold EStateM.bind
  rw [hfirst before]
  cases first before with
  | ok value middle => exact hsecond value middle
  | error failure stop => rfl

theorem Carries.map {first : EStateM ε σ α} {second : EStateM ε' σ' α'} {f : α → β} {f' : α' → β'}
    (h : Carries onValue onState onFailure first second)
    (hcommute : ∀ value, onResult (f value) = f' (onValue value)) :
    Carries onResult onState onFailure (f <$> first) (f' <$> second) := by
  rw [map_eq_pure_bind, map_eq_pure_bind]
  refine h.bind fun value ↦ ?_
  rw [← hcommute]
  exact carries_pure (f value)

theorem Carries.ite {condition : Prop} [Decidable condition] {first other : EStateM ε σ α}
    {first' other' : EStateM ε' σ' α'} (hfirst : Carries onValue onState onFailure first first')
    (hother : Carries onValue onState onFailure other other') :
    Carries onValue onState onFailure (if condition then first else other)
      (if condition then first' else other') := by
  split_ifs
  · exact hfirst
  · exact hother

/-- What happens to failures matters for those that occur. -/
theorem Carries.congr_failure {first : EStateM ε σ α} {second : EStateM ε' σ' α'}
    {onFailure' : ε → ε'} (h : Carries onValue onState onFailure first second)
    (hsame : ∀ before failure stop, first before = .error failure stop →
      onFailure failure = onFailure' failure) :
    Carries onValue onState onFailure' first second := by
  intro before
  rw [h before]
  cases hrun : first before with
  | ok value after => rfl
  | error failure stop => rw [carry, carry, hsame before failure stop hrun]

end Success

/-! ### Places -/

/-- A failure with the place that it tells, if any, sent elsewhere. -/
def Diagnostic.mapOffset (send : Nat → Nat) : Diagnostic → Diagnostic
  | .endOfInput offset needed => .endOfInput (send offset) needed
  | .malformed offset cause => .malformed (send offset) cause
  | .stackUnderflow function offset => .stackUnderflow function (send offset)
  | .stackOverflow function offset capacity => .stackOverflow function (send offset) capacity
  | .unsupportedOpcode function offset opcode => .unsupportedOpcode function (send offset) opcode
  | .emission function cause => .emission function cause

namespace Span

/-- The same bytes, further back by a distance. -/
def displace (distance : Nat) (span : Span) : Span where
  offset := span.offset + distance
  bytes := span.bytes

theorem advance_displace (count distance : Nat) (span : Span) :
    (span.displace distance).advance count = (span.advance count).displace distance := by
  simp only [advance, displace, Nat.add_right_comm]

theorem endOffset_displace (distance : Nat) (span : Span) :
    (span.displace distance).endOffset = span.endOffset + distance :=
  Nat.add_right_comm _ _ _

end Span

/-! ### Readers -/

namespace Reader

variable {α α' β β' : Type} {distance : Nat} {onValue : α → α'} {onResult : β → β'}

/-- Whether a second reader does on bytes further back what a first one does on the bytes as they
stand. -/
def Displaces (distance : Nat) (onValue : α → α') (first : Reader α) (second : Reader α') : Prop :=
  Success.Carries onValue (Span.displace distance) (Diagnostic.mapOffset (· + distance)) first
    second

theorem displaces_pure (value : α) :
    Displaces distance onValue (pure value) (pure (onValue value)) :=
  Success.carries_pure value

theorem Displaces.bind {first : Reader α} {first' : Reader α'} {second : α → Reader β}
    {second' : α' → Reader β'} (hfirst : Displaces distance onValue first first')
    (hsecond : ∀ value, Displaces distance onResult (second value) (second' (onValue value))) :
    Displaces distance onResult (first >>= second) (first' >>= second') :=
  Success.Carries.bind hfirst hsecond

theorem Displaces.map {first : Reader α} {second : Reader α'} {f : α → β} {f' : α' → β'}
    (h : Displaces distance onValue first second)
    (hcommute : ∀ value, onResult (f value) = f' (onValue value)) :
    Displaces distance onResult (f <$> first) (f' <$> second) :=
  Success.Carries.map h hcommute

theorem Displaces.ite {condition : Prop} [Decidable condition] {first other : Reader α}
    {first' other' : Reader α'} (hfirst : Displaces distance onValue first first')
    (hother : Displaces distance onValue other other') :
    Displaces distance onValue (if condition then first else other)
      (if condition then first' else other') :=
  Success.Carries.ite hfirst hother

/-! ### Elementary readers -/

theorem displaces_offset : Displaces distance (· + distance) offset offset :=
  fun _ ↦ rfl

theorem displaces_unread : Displaces distance id unread unread :=
  fun _ ↦ rfl

theorem displaces_fail (failure : Diagnostic) :
    Displaces distance onValue (fail failure) (fail (failure.mapOffset (· + distance))) :=
  fun _ ↦ rfl

theorem displaces_malformed (place : Nat) (cause : Malformation) :
    Displaces distance onValue (malformed place cause) (malformed (place + distance) cause) :=
  fun _ ↦ rfl

theorem displaces_skipAll : Displaces distance id skipAll skipAll := by
  intro span
  unfold skipAll Span.finish
  rw [Span.endOffset_displace]
  rfl

theorem displaces_take (count : Nat) : Displaces distance id (take count) (take count) := by
  intro span
  unfold take
  rw [Span.take?_eq, Span.take?_eq, Span.advance_displace]
  by_cases henough : count ≤ span.length
  · rw [if_pos henough, if_pos (show count ≤ (span.displace distance).length from henough)]
    rfl
  · rw [if_neg henough, if_neg (show ¬count ≤ (span.displace distance).length from henough)]
    rfl

theorem displaces_byte : Displaces distance id byte byte := by
  rintro ⟨offset, bytes⟩
  cases bytes with
  | nil => rfl
  | cons first rest =>
    show EStateM.Result.ok first (Span.mk (offset + distance + 1) rest) = _
    rw [Nat.add_right_comm]
    rfl

theorem displaces_integer (sign : Signedness) (bits : Nat) :
    Displaces distance id (integer sign bits) (integer sign bits) := by
  intro span
  have hfault : ∀ fault, integerFault bits (span.displace distance) fault =
      (integerFault bits span fault).mapOffset (· + distance) := by
    intro fault
    cases fault with
    | truncated =>
      rw [integerFault, Span.endOffset_displace]
      rfl
    | tooLong | tooLarge => rfl
  have hbytes : (span.displace distance).bytes = span.bytes := rfl
  unfold integer
  rw [hbytes]
  cases Leb128.decode sign bits span.bytes with
  | ok decoded =>
    dsimp only
    rw [Span.advance_displace]
    rfl
  | error fault =>
    dsimp only
    rw [hfault]
    rfl

theorem displaces_unsigned (bits : Nat) : Displaces distance id (unsigned bits) (unsigned bits) :=
  (displaces_integer .unsigned bits).map fun _ ↦ rfl

theorem displaces_signed (bits : Nat) : Displaces distance id (signed bits) (signed bits) :=
  displaces_integer .signed bits

/-! ### Combinators -/

theorem displaces_expect (meaning : UInt8 → Option α) (cause : UInt8 → Malformation) :
    Displaces distance id (expect meaning cause) (expect meaning cause) := by
  refine displaces_offset.bind fun place ↦ displaces_byte.bind fun found ↦ ?_
  dsimp only [id]
  cases meaning found with
  | some value => exact displaces_pure value
  | none => exact displaces_malformed place (cause found)

theorem Displaces.atomic {first : Reader α} {second : Reader α'}
    (h : Displaces distance onValue first second) :
    Displaces distance onValue first.atomic second.atomic := by
  intro span
  unfold Reader.atomic
  rw [h span]
  cases first span with
  | ok value after => rfl
  | error failure stop => rfl

theorem displaces_sizedBytes : Displaces distance id sizedBytes sizedBytes :=
  ((displaces_unsigned 32).bind displaces_take).atomic

theorem displaces_window (count : Nat) :
    Displaces distance (Span.displace distance) (window count) (window count) :=
  displaces_offset.bind fun start ↦ (displaces_take count).bind fun bytes ↦
    displaces_pure (Span.mk start bytes)

theorem Displaces.inside {inner : Reader α} {inner' : Reader α'}
    (h : Displaces distance onValue inner inner') (frame : Span) :
    Displaces distance (Prod.map onValue (Span.displace distance)) (inside inner frame)
      (inside inner' (frame.displace distance)) := by
  intro span
  unfold Reader.inside
  rw [h frame]
  cases inner frame with
  | ok value left => rfl
  | error failure stop => rfl

theorem displaces_iterate {step : α → Reader α} {step' : α' → Reader α'}
    (h : ∀ value, Displaces distance onValue (step value) (step' (onValue value))) (count : Nat) :
    ∀ value, Displaces distance onValue (iterate step count value)
      (iterate step' count (onValue value)) := by
  induction count with
  | zero => exact fun value ↦ displaces_pure value
  | succ count ih => exact fun value ↦ (h value).bind ih

theorem Displaces.vector {item : Reader α} {item' : Reader α'}
    (h : Displaces distance onValue item item') :
    Displaces distance (List.map onValue) (vector item) (vector item') := by
  have hround : ∀ found : List α, Displaces distance (List.map onValue) ((· :: found) <$> item)
      ((· :: found.map onValue) <$> item') := fun found ↦ h.map fun _ ↦ List.map_cons
  refine (displaces_unsigned 32).bind fun count ↦ ?_
  exact (displaces_iterate hround count []).map fun _ ↦ List.map_reverse

theorem Displaces.vector_id {item : Reader α} (h : Displaces distance id item item) :
    Displaces distance id item.vector item.vector := by
  have hvector := h.vector
  rwa [List.map_id_fun] at hvector

end Reader

end StraightWasm
