import StraightWasm.Proofs.Linear.Displacement
import StraightWasm.Proofs.Linear.WellFormed

/-!
# Bodies in normal form

Three kinds of instructions can be taken out of stack code. A `nop` does nothing, a `local.tee` sets
a local and gets it again, and what follows the first `unreachable` is dead (`StackCode.normalize`).

Lowering respects this to the letter: it makes the same linear function from a body and from every
body that spells its normal form (`Definition.lower_normalize`). One computation refines another one
if it does the same wherever the other one succeeds (`Success.Refines`). Where an instruction stands
matters for its failures only (`Lowering.refines_step`), so it is enough to compare instructions
without their places: one by one (`Lowering.refines_plain`), and behind the first `unreachable`
(`Lowering.refines_upToTrap`).
-/

set_option autoImplicit false
set_option relaxedAutoImplicit false

namespace StraightWasm

/-! ### Refinement -/

namespace Success

variable {ε σ α β : Type}

/-- Whether a second computation succeeds wherever a first one does, with the same value and in the
same state. -/
def Refines (first second : EStateM ε σ α) : Prop :=
  ∀ before value after, first before = .ok value after → second before = .ok value after

theorem Refines.refl (action : EStateM ε σ α) : Refines action action :=
  fun _ _ _ h ↦ h

theorem Refines.trans {first second third : EStateM ε σ α} (h : Refines first second)
    (h' : Refines second third) : Refines first third :=
  fun before value after hfirst ↦ h' before value after (h before value after hfirst)

theorem refines_throw (failure : ε) (action : EStateM ε σ α) : Refines (throw failure) action :=
  fun _ _ _ h ↦ nomatch h

theorem Refines.bind {first first' : EStateM ε σ α} {second second' : α → EStateM ε σ β}
    (hfirst : Refines first first') (hsecond : ∀ value, Refines (second value) (second' value)) :
    Refines (first >>= second) (first' >>= second') := by
  intro before result after h
  obtain ⟨value, middle, hvalue, hresult⟩ := bind_iff.mp h
  exact bind_iff.mpr ⟨value, middle, hfirst _ _ _ hvalue, hsecond value _ _ _ hresult⟩

theorem Refines.ite {condition : Prop} [Decidable condition] {yes yes' no no' : EStateM ε σ α}
    (hyes : Refines yes yes') (hno : Refines no no') :
    Refines (if condition then yes else no) (if condition then yes' else no') := by
  split_ifs
  · exact hyes
  · exact hno

theorem Refines.forM {step : α → EStateM ε σ PUnit} {step' : β → EStateM ε σ PUnit}
    {items : List α} {items' : List β}
    (h : List.Forall₂ (fun item item' ↦ Refines (step item) (step' item')) items items') :
    Refines (items.forM step) (items'.forM step') := by
  induction h with
  | nil => exact .refl _
  | cons hitem _ ih => exact hitem.bind fun _ ↦ ih

theorem refines_forM_singleton {step : α → EStateM ε σ PUnit} (item : α) :
    Refines (step item) ([item].forM step) :=
  fun _ value after h ↦ bind_iff.mpr ⟨value, after, h, rfl⟩

/-- Each item of a loop may be replaced by several that refine it together. -/
theorem Refines.flatMap {step : α → EStateM ε σ PUnit} {parts : α → List α}
    (h : ∀ item, Refines (step item) ((parts item).forM step)) (items : List α) :
    Refines (items.forM step) ((items.flatMap parts).forM step) := by
  induction items with
  | nil => exact .refl _
  | cons item rest ih =>
    intro before value after hrun
    obtain ⟨_, middle, hitem, hrest⟩ := bind_iff.mp hrun
    rw [List.flatMap_cons]
    exact forM_append_iff.mpr ⟨middle, h item _ _ _ hitem, ih _ _ _ hrest⟩

end Success

open Success (Refines)

/-! ### Normal forms -/

namespace StackCode

/-- What an instruction amounts to. -/
def Instruction.plain : Instruction → List Instruction
  | .nop => []
  | .localTee slot => [.localSet slot, .localGet slot]
  | instruction => [instruction]

/-- The instructions up to the first `unreachable`. -/
def upToTrap : List Instruction → List Instruction
  | [] => []
  | .unreachable :: _ => [.unreachable]
  | instruction :: rest => instruction :: upToTrap rest

/-- The normal form of instructions: without `nop`, with `local.set` and `local.get` in the place of
`local.tee`, and with nothing behind the first `unreachable`. -/
def normalize (instructions : List Instruction) : List Instruction :=
  (upToTrap instructions).flatMap Instruction.plain

theorem isPrefix_upToTrap (instructions : List Instruction) :
    upToTrap instructions <+: instructions := by
  fun_induction upToTrap instructions with
  | case1 => exact List.prefix_rfl
  | case2 rest => exact List.prefix_append [_] rest
  | case3 instruction rest _ ih => exact List.prefix_cons_inj _ |>.mpr ih

variable {instructions : List Instruction}

/-- Instructions can be written in a row, wherever it begins, if each of them can be written. -/
theorem exists_row_iff : ∀ {offset : Nat},
    (∃ bytes, Form.Row Instruction.Written offset instructions bytes) ↔
      ∀ instruction ∈ instructions, ∃ immediate, instruction.Immediate immediate := by
  induction instructions with
  | nil => exact iff_of_true ⟨[], .nil _⟩ fun _ ↦ False.elim ∘ List.not_mem_nil
  | cons first rest ih =>
    intro offset
    rw [List.forall_mem_cons]
    constructor
    · rintro ⟨bytes, hrow⟩
      obtain ⟨front, back, -, ⟨immediate, -, himmediate⟩, hrest⟩ := Form.row_cons_iff.mp hrow
      exact ⟨⟨immediate, himmediate⟩, ih.mp ⟨back, hrest⟩⟩
    · rintro ⟨⟨immediate, himmediate⟩, hrest⟩
      obtain ⟨back, hrow⟩ := ih.mpr hrest
      exact ⟨_, .cons ⟨immediate, rfl, himmediate⟩ hrow⟩

/-- The normal form of what can be written can be written. -/
theorem exists_spells_normalize {body : Body} (h : body.Spells instructions) :
    ∃ body' : Body, body'.locals = body.locals ∧ body'.Spells (normalize instructions) := by
  obtain ⟨front, -, hrow⟩ := h
  have hwritten := exists_row_iff.mp ⟨front, hrow⟩
  have hnormal : ∀ instruction ∈ normalize instructions,
      ∃ immediate, instruction.Immediate immediate := by
    intro instruction hmem
    obtain ⟨source, hsource, hplain⟩ := List.mem_flatMap.mp hmem
    obtain ⟨immediate, himmediate⟩ :=
      hwritten source ((isPrefix_upToTrap instructions).subset hsource)
    cases source with
    | nop => cases hplain
    | localTee slot =>
      -- The parts of a `local.tee` are written with its own immediate.
      simp only [Instruction.plain, List.mem_cons, List.not_mem_nil, or_false] at hplain
      obtain rfl | rfl := hplain
      · exact ⟨immediate, himmediate⟩
      · exact ⟨immediate, himmediate⟩
    | unreachable | const value | localGet slot | localSet slot | add =>
      cases List.mem_singleton.mp hplain
      exact ⟨immediate, himmediate⟩
  obtain ⟨front', hrow'⟩ := (@exists_row_iff _ body.codeOffset).mpr hnormal
  exact ⟨{ body with code := front' ++ [0x0b] }, rfl, front', rfl, hrow'⟩

end StackCode

namespace Linear

open StackCode (Located Instruction)

namespace Lowering

variable {α : Type}

/-! ### Places -/

/-- A lowering that fails further back does the same where it succeeds. -/
theorem Displaces.refines {distance : Nat} {first second : Lowering α}
    (h : Displaces distance first second) : Refines first second ∧ Refines second first := by
  refine ⟨fun before value after hfirst ↦ ?_, fun before value after hsecond ↦ ?_⟩
  · rw [show second before = _ from h before, hfirst]
    rfl
  · rw [show second before = _ from h before] at hsecond
    cases hrun : first before with
    | ok found late =>
      rw [hrun] at hsecond
      exact hsecond
    | error failure stop =>
      rw [hrun] at hsecond
      cases hsecond

/-- Two places of an action have a third one further back in common. -/
theorem refines_of_displaces {action : Nat → Lowering α}
    (h : ∀ place distance, Displaces distance (action place) (action (place + distance)))
    (place place' : Nat) : Refines (action place) (action place') := by
  have hback := (h place' place).refines.2
  rw [Nat.add_comm] at hback
  exact (h place place').refines.1.trans hback

theorem refines_step (place place' : Nat) (instruction : Instruction) :
    Refines (step { offset := place, instruction := instruction })
      (step { offset := place', instruction := instruction }) :=
  refines_of_displaces
    (fun place _ ↦ displaces_step { offset := place, instruction := instruction })
    place place'

theorem refines_terminator (place place' : Nat) :
    Refines (terminator place) (terminator place') :=
  refines_of_displaces (fun place _ ↦ displaces_terminator place) place place'

/-- Lowers an instruction that may stand anywhere. -/
def pass (instruction : Instruction) : Lowering Unit :=
  step { offset := 0, instruction := instruction }

theorem refines_forM_pass (located : List Located) :
    Refines (located.forM step) ((located.map Located.instruction).forM pass) := by
  refine .forM (List.forall₂_map_right_iff.mpr (List.forall₂_same.mpr ?_))
  exact fun item _ ↦ refines_step item.offset 0 item.instruction

theorem refines_pass_forM (located : List Located) :
    Refines ((located.map Located.instruction).forM pass) (located.forM step) := by
  refine .forM (List.forall₂_map_left_iff.mpr (List.forall₂_same.mpr ?_))
  exact fun item _ ↦ refines_step 0 item.offset item.instruction

/-! ### Instructions -/

/-- Setting a local and getting it does what `local.tee` does, references to the local on the stack
and the room for what is pushed included. -/
theorem refines_tee (slot : Nat) :
    Refines (pass (.localTee slot))
      (do
        pass (.localSet slot)
        pass (.localGet slot)) := by
  intro before _ after h
  obtain ⟨hslot, h⟩ := checked_iff.mp h
  by_cases hdead : before.dead = true
  · cases eq_of_whenLive hdead h
    exact Success.bind_iff.mpr ⟨(), before, checked_iff.mpr ⟨hslot, whenLive_of_dead hdead⟩,
      checked_iff.mpr ⟨hslot, whenLive_of_dead hdead⟩⟩
  · have hlive : before.dead = false := eq_false_of_ne_true hdead
    obtain ⟨_, middle, hassign, hpush⟩ := Success.bind_iff.mp (of_whenLive hlive h)
    obtain ⟨hlive', hslot'⟩ : middle.dead = false ∧ slot < middle.slotCount := by
      obtain ⟨_, _, -, rfl⟩ := assign_cases hassign
      exact ⟨hlive, hslot⟩
    refine Success.bind_iff.mpr ⟨(), middle, checked_iff.mpr ⟨hslot, ?_⟩,
      checked_iff.mpr ⟨hslot', ?_⟩⟩
    · rw [whenLive_of_live hlive]
      exact hassign
    · rw [whenLive_of_live hlive']
      exact hpush

theorem refines_plain (instruction : Instruction) :
    Refines (pass instruction) (instruction.plain.forM pass) := by
  cases instruction with
  | nop => exact .refl _
  | localTee slot =>
    exact (refines_tee slot).trans
      ((Refines.refl _).bind fun _ ↦ Success.refines_forM_singleton _)
  | unreachable | const value | localGet slot | localSet slot | add =>
    exact Success.refines_forM_singleton _

/-- In dead code with an empty stack nothing changes any more. -/
theorem pass_idle {instruction : Instruction} {before after : Builder} (hdead : before.dead = true)
    (hempty : before.stack.clear = before.stack)
    (h : pass instruction before = .ok () after) : after = before := by
  cases instruction with
  | nop => exact (Success.pure_iff.mp h).2.symm
  | unreachable =>
    have hafter : { before with dead := true, stack := before.stack.clear } = after := by
      cases h
      rfl
    rw [← hafter, hempty, ← hdead]
  | const value | add => exact eq_of_whenLive hdead h
  | localGet slot | localSet slot | localTee slot =>
    exact eq_of_whenLive hdead (checked_iff.mp h).2

theorem refines_trap (rest : List Instruction) :
    Refines ((.unreachable :: rest).forM pass) (pass .unreachable) := by
  intro before _ after h
  obtain ⟨_, trapped, htrap, hrest⟩ := Success.bind_iff.mp h
  have hdead : trapped.dead = true ∧ trapped.stack.clear = trapped.stack := by
    cases htrap
    exact ⟨rfl, rfl⟩
  have hafter : after = trapped :=
    Success.forM_keeps (· = trapped)
      (fun _ _ _ hbefore hpass ↦ hbefore ▸ pass_idle (hbefore ▸ hdead.1) (hbefore ▸ hdead.2) hpass)
      rest trapped after rfl hrest
  rw [hafter]
  exact htrap

theorem refines_upToTrap (instructions : List Instruction) :
    Refines (instructions.forM pass)
      ((StackCode.upToTrap instructions).forM pass) := by
  fun_induction StackCode.upToTrap instructions with
  | case1 => exact .refl _
  | case2 rest => exact (refines_trap rest).trans (Success.refines_forM_singleton _)
  | case3 instruction rest _ ih => exact (Refines.refl _).bind fun _ ↦ ih

theorem refines_normalize (instructions : List Instruction) :
    Refines (instructions.forM pass)
      ((StackCode.normalize instructions).forM pass) :=
  (refines_upToTrap instructions).trans (.flatMap refines_plain _)

end Lowering

/-! ### Functions -/

namespace Definition

variable {definition : Definition} {builder after : Builder} {function : Function}

/-- A body that can be lowered spells instructions. -/
theorem spells_of_lower (h : definition.lower builder = .ok function after) :
    ∃ instructions, definition.body.Spells instructions := by
  obtain ⟨late, closed, terminator, -, hclose, -⟩ := lower_iff.mp h
  obtain ⟨behind, hending, hempty, -⟩ := Lowering.close_iff.mp hclose
  exact ⟨_, (Body.spells_iff definition.index).mpr ⟨behind, hending, hempty, rfl⟩⟩

/-- A function is lowered as one that differs in its body only, if the instructions and the end of
the one refine those of the other. -/
theorem refines_lower {body : Body} (hlocals : body.locals = definition.body.locals)
    (hinstructions : Refines
      ((StackCode.scan definition.index definition.body).instructions.forM Lowering.step)
      ((StackCode.scan definition.index body).instructions.forM Lowering.step))
    (hclose : Refines
      (Lowering.close (StackCode.scan definition.index definition.body).ending)
      (Lowering.close (StackCode.scan definition.index body).ending)) :
    Refines definition.lower { definition with body := body }.lower := by
  obtain ⟨index, typeIndex, signature, locals, code, offset⟩ := definition
  obtain ⟨locals', code', offset'⟩ := body
  cases hlocals
  have hcount : ∀ count, Refines (Lowering.countSlots offset count)
      (Lowering.countSlots offset' count) :=
    fun count ↦ .ite (.refl _) (Success.refines_throw _ _)
  refine (Refines.refl (Lowering.enter index)).bind fun _ ↦ (hcount _).bind fun _ ↦ ?_
  exact hinstructions.bind fun _ ↦ hclose.bind fun terminator ↦ .refl _

/-- A body is lowered like every body that spells its normal form. -/
theorem refines_lower_of_spells {instructions : List Instruction} {body : Body}
    (h : definition.body.Spells instructions) (hlocals : body.locals = definition.body.locals)
    (hbody : body.Spells (StackCode.normalize instructions)) :
    Refines definition.lower { definition with body := body }.lower := by
  obtain ⟨behind, hending, hempty, rfl⟩ := (Body.spells_iff definition.index).mp h
  obtain ⟨behind', hending', hempty', hnormal⟩ := (Body.spells_iff definition.index).mp hbody
  refine refines_lower hlocals ?_ ?_
  · have hpass := Lowering.refines_pass_forM (StackCode.scan definition.index body).instructions
    rw [hnormal] at hpass
    exact (Lowering.refines_forM_pass _).trans ((Lowering.refines_normalize _).trans hpass)
  · intro before result late hclose
    obtain ⟨found, hfound, -, hterminator⟩ := Lowering.close_iff.mp hclose
    exact Lowering.close_iff.mpr ⟨behind', hending', hempty',
      Lowering.refines_terminator _ _ _ _ _ hterminator⟩

/-- If a body can be lowered, it spells instructions, their normal form can be spelled, too, and
every body with the same locals that spells the normal form is lowered to the same function. -/
theorem lower_normalize (h : definition.lower builder = .ok function after) :
    (∃ instructions, definition.body.Spells instructions) ∧
      ∀ instructions, definition.body.Spells instructions →
        (∃ body : Body, body.locals = definition.body.locals ∧
          body.Spells (StackCode.normalize instructions)) ∧
        ∀ body : Body, body.locals = definition.body.locals →
          body.Spells (StackCode.normalize instructions) →
            { definition with body := body }.lower builder = .ok function after := by
  refine ⟨spells_of_lower h, fun instructions hspells ↦ ?_⟩
  refine ⟨StackCode.exists_spells_normalize hspells, fun body hlocals hbody ↦ ?_⟩
  exact refines_lower_of_spells hspells hlocals hbody builder function after h

/-- A body with a `nop`, with a `local.tee` on a full stack below whose top there is a reference to
the local, and with dead code that would need more operands than there are. -/
def padded : Definition where
  index := 2
  typeIndex := 1
  signature := { params := [.i32], result := .i32 }
  body :=
    { locals := []
      code := [0x20, 0x00, 0x41, 0x05, 0x01, 0x22, 0x00, 0x6a, 0x21, 0x00, 0x00, 0x6a, 0x22, 0x00,
        0x01, 0x0b]
      codeOffset := 40 }

/-- Its normal form, at another place and with a longer spelling of a local. -/
def trimmed : Body where
  locals := []
  code := [0x20, 0x00, 0x41, 0x05, 0x21, 0x80, 0x00, 0x20, 0x00, 0x6a, 0x21, 0x00, 0x00, 0x0b]
  codeOffset := 12

/-- The linear code of both. -/
def paddedLinear : Function where
  index := 2
  typeIndex := 1
  params := [.i32]
  locals := []
  result := .i32
  instructions :=
    [.snapshot 0 0, .assign 0 (.const 5), .add 1 (.temp 0) (.slot 0), .assign 0 (.temp 1)]
  terminator := .trap
  tempCount := 2

theorem lower_normalize_padded :
    ∃ after, padded.lower (.ofCapacity 2) = .ok paddedLinear after ∧
      { padded with body := trimmed }.lower (.ofCapacity 2) = .ok paddedLinear after := by
  have hvalue : Success.value? (padded.lower (.ofCapacity 2)) = some paddedLinear := by
    decide +kernel
  obtain ⟨after, h⟩ := Success.exists_of_value? hvalue
  have hspells : padded.body.Spells
      [.localGet 0, .const 5, .nop, .localTee 0, .add, .localSet 0, .unreachable, .add, .localTee 0,
        .nop] :=
    (Body.spells_iff 0).mpr ⟨{ offset := 56, bytes := [] }, by decide +kernel, rfl,
      by decide +kernel⟩
  have htrimmed : trimmed.Spells
      [.localGet 0, .const 5, .localSet 0, .localGet 0, .add, .localSet 0, .unreachable] :=
    (Body.spells_iff 0).mpr ⟨{ offset := 26, bytes := [] }, by decide +kernel, rfl,
      by decide +kernel⟩
  exact ⟨after, h, ((lower_normalize h).2 _ hspells).2 trimmed rfl htrimmed⟩

end Definition

end Linear

end StraightWasm
