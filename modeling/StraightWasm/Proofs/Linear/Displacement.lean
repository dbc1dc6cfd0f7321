import StraightWasm.Linear.Lower
import StraightWasm.Proofs.Module.Displacement
import StraightWasm.Proofs.StackCode.ScanLaws

/-!
# Bodies further back in a binary

Lowering knows the place of the code of a body for its failures only. A body whose code stands
further back by some distance is scanned to the same instructions (`StackCode.scan_displace`), which
are lowered to the same function, or fail for the same reason at a place that is further back by
that distance (`Lowering.displaces_step`, `Definition.displaces_lower`).

Together with the payloads of sections, that is all of a binary that is read at a place:
`displacement_equivariant`.
-/

set_option autoImplicit false
set_option relaxedAutoImplicit false

namespace StraightWasm

open Reader

variable {distance : Nat}

/-! ### Scans -/

namespace StackCode

/-- An instruction with its place sent elsewhere. -/
def Located.mapOffset (send : Nat → Nat) (located : Located) : Located :=
  { located with offset := send located.offset }

/-- What a scan gives if the code stands further back. -/
def Scan.displace (distance : Nat) (scan : Scan) : Scan where
  instructions := scan.instructions.map (Located.mapOffset (· + distance))
  ending := (scan.ending.map (Span.displace distance)).mapError
    (Diagnostic.mapOffset (· + distance))

theorem displaces_behindOpcode (function place : Nat) (opcode : UInt8) :
    Displaces distance id (behindOpcode function place opcode)
      (behindOpcode function (place + distance) opcode) := by
  fun_cases behindOpcode function place opcode with
  | case1 | case2 | case3 | case8 => exact displaces_pure _
  | case4 | case5 | case6 => exact (displaces_unsigned 32).map fun _ ↦ rfl
  | case7 => exact (displaces_signed 32).map fun _ ↦ rfl
  | case9 _ h00 h01 h0b h20 h21 h22 h41 h6a =>
    rw [behindOpcode.eq_9 _ _ _ h00 h01 h0b h20 h21 h22 h41 h6a]
    exact displaces_fail _

theorem displaces_next (function : Nat) :
    Displaces distance id (next function) (next function) :=
  displaces_offset.bind fun place ↦ displaces_byte.bind fun opcode ↦
    displaces_behindOpcode function place opcode

theorem scanFrom_displace (function : Nat) (found : List Located) (span : Span) :
    scanFrom function (found.map (Located.mapOffset (· + distance))) (span.displace distance) =
      (scanFrom function found span).displace distance := by
  have hnext := @displaces_next distance function
  fun_induction scanFrom function found span with
  | case1 found span instruction after hrun _ ih =>
    have hrun' := hnext span
    rw [hrun] at hrun'
    rw [scanFrom_of_some hrun']
    exact ih
  | case2 found span after hrun =>
    have hrun' := hnext span
    rw [hrun] at hrun'
    rw [scanFrom_of_none hrun', ← List.map_reverse]
    rfl
  | case3 found span failure stop hrun =>
    have hrun' := hnext span
    rw [hrun] at hrun'
    rw [scanFrom_of_error hrun', ← List.map_reverse]
    rfl

/-- Code that stands further back is scanned to the same instructions. -/
theorem scan_displace (function : Nat) (body : Body) (distance : Nat) :
    scan function (body.mapOffset (· + distance)) = (scan function body).displace distance :=
  scanFrom_displace function [] ⟨body.codeOffset, body.code⟩

end StackCode

/-! ### Loops along maps -/

namespace Success

variable {ε ε' σ σ' α α' β β' : Type} {onState : σ → σ'} {onFailure : ε → ε'}

theorem carries_modify (f : σ → σ) :
    Carries id id onFailure (modify f : EStateM ε σ PUnit) (modify f) :=
  fun _ ↦ rfl

theorem Carries.forM {step : α → EStateM ε σ PUnit} {step' : α' → EStateM ε' σ' PUnit}
    {send : α → α'} (h : ∀ item, Carries id onState onFailure (step item) (step' (send item)))
    (items : List α) :
    Carries id onState onFailure (items.forM step) ((items.map send).forM step') := by
  induction items with
  | nil => exact carries_pure _
  | cons item rest ih => exact (h item).bind fun _ ↦ ih

theorem Carries.mapM {round : α → EStateM ε σ β} {round' : α' → EStateM ε' σ' β} {send : α → α'}
    (items : List α)
    (h : ∀ item ∈ items, Carries id onState onFailure (round item) (round' (send item))) :
    Carries id onState onFailure (items.mapM round) ((items.map send).mapM round') := by
  induction items with
  | nil =>
    rw [List.map_nil, List.mapM_nil, List.mapM_nil]
    exact carries_pure []
  | cons item rest ih =>
    rw [List.map_cons, List.mapM_cons, List.mapM_cons]
    refine (h item List.mem_cons_self).bind fun value ↦ ?_
    refine (ih fun other hother ↦ h other (List.mem_cons_of_mem item hother)).bind fun values ↦ ?_
    exact carries_pure (value :: values)

end Success

/-! ### Lowering -/

namespace Linear

open StackCode (Located)

namespace Lowering

variable {α β : Type}

/-- Whether a second lowering does what a first one does, and has its failures further back. -/
def Displaces (distance : Nat) (first second : Lowering α) : Prop :=
  Success.Carries id id (Diagnostic.mapOffset (· + distance)) first second

theorem displaces_pure (value : α) :
    Displaces distance (pure value : Lowering α) (pure value) :=
  Success.carries_pure value

theorem displaces_modify (f : Builder → Builder) :
    Displaces distance (modify f : Lowering PUnit) (modify f) :=
  Success.carries_modify f

theorem displaces_throw (failure : Diagnostic) :
    Displaces distance (throw failure : Lowering α)
      (throw (failure.mapOffset (· + distance))) :=
  fun _ ↦ rfl

theorem Displaces.bind {first first' : Lowering α} {second second' : α → Lowering β}
    (hfirst : Displaces distance first first')
    (hsecond : ∀ value, Displaces distance (second value) (second' value)) :
    Displaces distance (first >>= second) (first' >>= second') :=
  Success.Carries.bind hfirst hsecond

theorem Displaces.whenLive {first second : Lowering Unit} (h : Displaces distance first second) :
    Displaces distance (whenLive first) (whenLive second) := by
  intro builder
  unfold Lowering.whenLive
  dsimp only [id]
  split_ifs
  · rfl
  · exact h builder

theorem displaces_push (place : Nat) (operand : Operand) :
    Displaces distance (push place operand) (push (place + distance) operand) := by
  intro builder
  unfold push
  dsimp only [id]
  cases builder.stack.push operand with
  | ok stack => rfl
  | error rejected => rfl

theorem displaces_pop (place : Nat) :
    Displaces distance (pop place) (pop (place + distance)) := by
  intro builder
  unfold pop
  dsimp only [id]
  cases builder.stack.pop? with
  | some found => rfl
  | none => rfl

theorem displaces_assign (place slot : Nat) :
    Displaces distance (assign place slot) (assign (place + distance) slot) :=
  (displaces_pop place).bind fun _ ↦ (displaces_modify _).bind fun _ ↦ displaces_modify _

theorem displaces_checkSlot (place slot : Nat) :
    Displaces distance (checkSlot place slot) (checkSlot (place + distance) slot) := by
  intro builder
  unfold checkSlot
  dsimp only [id]
  split_ifs
  · rfl
  · rfl

theorem displaces_countSlots (place count : Nat) :
    Displaces distance (countSlots place count) (countSlots (place + distance) count) :=
  Success.Carries.ite (displaces_modify _) (displaces_throw _)

theorem displaces_step (located : Located) :
    Displaces distance (step located) (step (located.mapOffset (· + distance))) := by
  obtain ⟨place, instruction⟩ := located
  cases instruction with
  | nop => exact displaces_pure ()
  | unreachable => exact displaces_modify _
  | const value => exact (displaces_push place _).whenLive
  | localGet slot =>
    exact (displaces_checkSlot place slot).bind fun _ ↦ (displaces_push place _).whenLive
  | localSet slot =>
    exact (displaces_checkSlot place slot).bind fun _ ↦ (displaces_assign place slot).whenLive
  | localTee slot =>
    exact (displaces_checkSlot place slot).bind fun _ ↦
      ((displaces_assign place slot).bind fun _ ↦ displaces_push place _).whenLive
  | add =>
    refine ((displaces_pop place).bind fun rhs ↦ (displaces_pop place).bind fun lhs ↦ ?_).whenLive
    have hnewTemp : Displaces distance newTemp newTemp := fun _ ↦ rfl
    exact hnewTemp.bind fun dest ↦ (displaces_modify _).bind fun _ ↦ displaces_push place _

theorem displaces_terminator (place : Nat) :
    Displaces distance (terminator place) (terminator (place + distance)) := by
  intro builder
  unfold terminator
  dsimp only [id]
  split_ifs
  · rfl
  · cases builder.stack.pop? with
    | none => rfl
    | some found =>
      dsimp only
      split_ifs
      · rfl
      · rfl

theorem displaces_close (ending : Except Diagnostic Span) :
    Displaces distance (close ending)
      (close ((ending.map (Span.displace distance)).mapError
        (Diagnostic.mapOffset (· + distance)))) := by
  cases ending with
  | error failure => exact displaces_throw failure
  | ok behind =>
    exact Success.Carries.ite (displaces_terminator behind.offset) fun _ ↦ rfl

end Lowering

/-- A definition with the place of its code sent elsewhere. -/
def Definition.mapOffset (send : Nat → Nat) (definition : Definition) : Definition :=
  { definition with body := definition.body.mapOffset send }

/-- A function whose code stands further back is lowered to the same, or fails further back for the
same reason. -/
theorem Definition.displaces_lower (definition : Definition) :
    Lowering.Displaces distance definition.lower (definition.mapOffset (· + distance)).lower := by
  have hget : Lowering.Displaces distance (get : Lowering Builder) get := fun _ ↦ rfl
  have htake : Lowering.Displaces distance Lowering.takeEmitted Lowering.takeEmitted := fun _ ↦ rfl
  refine (Lowering.displaces_modify _).bind fun _ ↦
    (Lowering.displaces_countSlots _ _).bind fun _ ↦ ?_
  dsimp only [mapOffset]
  rw [StackCode.scan_displace]
  refine Lowering.Displaces.bind (Success.Carries.forM Lowering.displaces_step _) fun _ ↦ ?_
  exact (Lowering.displaces_close _).bind fun terminator ↦ htake.bind fun emitted ↦
    hget.bind fun builder ↦ Lowering.displaces_pure _

theorem displaces_lowerEntry (types : List Signature) (index typeIndex : Nat) (body : Body) :
    Lowering.Displaces distance (lowerEntry types index typeIndex body)
      (lowerEntry types index typeIndex (body.mapOffset (· + distance))) := by
  unfold lowerEntry
  cases types[typeIndex]? with
  | some signature => exact Definition.displaces_lower _
  | none => exact Lowering.displaces_throw _

end Linear

/-! ### Payloads and bodies together -/

/-- Places are equivariant: if the bytes of a payload stand further back by a distance, each reader
gives the same value, leaves the same bytes and fails for the same reason, with the places of code,
of the bytes left and of the failure further back by that distance. Only code has places in its
value. A body whose code stands further back is lowered from every state to the same function and
state, or fails for the same reason further back. -/
theorem displacement_equivariant (distance : Nat) :
    Displaces distance id Payload.types Payload.types ∧
      Displaces distance id Payload.functions Payload.functions ∧
      Displaces distance id Payload.imports Payload.imports ∧
      Displaces distance id Payload.exports Payload.exports ∧
      Displaces distance (List.map (Body.mapOffset (· + distance))) Payload.code Payload.code ∧
      Displaces distance (Body.mapOffset (· + distance)) Payload.body Payload.body ∧
      Displaces distance id Payload.locals Payload.locals ∧
      ∀ definition : Linear.Definition,
        Linear.Lowering.Displaces distance definition.lower
          (definition.mapOffset (· + distance)).lower := by
  refine ⟨?types, ?functions, ?imports, ?exports, ?code, ?body, ?locals, ?lower⟩
  case types => exact Payload.displaces_signature.vector_id
  case functions => exact (displaces_unsigned 32).vector_id
  case imports => exact Payload.displaces_importEntry.vector_id
  case exports => exact Payload.displaces_exportEntry.vector_id
  case code => exact Payload.displaces_sizedBody.vector
  case body => exact Payload.displaces_body
  case locals => exact Payload.displaces_locals
  case lower => exact Linear.Definition.displaces_lower

end StraightWasm
