import StraightWasm.Linear.Lower
import StraightWasm.Proofs.Success

/-!
# What a successful lowering does

Lowering is a computation on a builder. Here each of its actions is turned into what a success of it
says about the builders before and after. In live code an instruction pushes operands, pops them,
pins a local and emits; in dead code it changes nothing but the stack (`Lowering.step_dead`).

Everything that is proved of lowering further on follows from these cases.
-/

set_option autoImplicit false
set_option relaxedAutoImplicit false

namespace StraightWasm.Linear

open StackCode (Located)

/-! ### The operand stack -/

namespace OperandStack

variable {stack next : OperandStack} {operand : Operand}

theorem values_push (h : stack.push operand = .ok next) :
    next.values = operand :: stack.values := by
  unfold push at h
  split_ifs at h
  cases h
  rfl

theorem values_pop? (h : stack.pop? = some (operand, next)) :
    stack.values = operand :: next.values := by
  obtain ⟨capacity, depth, values, hlength, hdepth⟩ := stack
  cases values with
  | nil => cases h
  | cons top below =>
    cases h
    rfl

theorem depth_pop? (h : stack.pop? = some (operand, next)) : stack.depth = next.depth + 1 := by
  rw [← stack.length_values, ← next.length_values, values_pop? h, List.length_cons]

theorem capacity_pop? (h : stack.pop? = some (operand, next)) : next.capacity = stack.capacity := by
  obtain ⟨capacity, depth, values, hlength, hdepth⟩ := stack
  cases values with
  | nil => cases h
  | cons top below =>
    cases h
    rfl

theorem pop?_eq_none_iff : stack.pop? = none ↔ stack.values = [] := by
  obtain ⟨capacity, depth, values, hlength, hdepth⟩ := stack
  cases values with
  | nil => exact iff_of_true rfl rfl
  | cons top below =>
    refine iff_of_false (fun h ↦ ?_) (List.cons_ne_nil top below)
    cases h

theorem depth_eq_zero (h : stack.pop? = none) : stack.depth = 0 := by
  rw [← stack.length_values, pop?_eq_none_iff.mp h, List.length_nil]

theorem pop?_of_cons {below : List Operand} (h : stack.values = operand :: below) :
    ∃ next, stack.pop? = some (operand, next) := by
  obtain ⟨capacity, depth, values, hlength, hdepth⟩ := stack
  cases h
  exact ⟨_, rfl⟩

theorem values_eq_nil (h : stack.depth = 0) : stack.values = [] := by
  rw [← List.length_eq_zero_iff, stack.length_values, h]

end OperandStack

namespace Lowering

variable {place slot : Nat} {operand : Operand} {before after : Builder}

/-! ### Elementary actions -/

theorem push_cases (h : push place operand before = .ok () after) :
    ∃ stack : OperandStack, stack.values = operand :: before.stack.values ∧
      after = { before with stack := stack } := by
  unfold push at h
  cases hpush : before.stack.push operand with
  | ok stack =>
    rw [hpush] at h
    cases h
    exact ⟨stack, OperandStack.values_push hpush, rfl⟩
  | error rejected =>
    rw [hpush] at h
    cases h

theorem pop_cases (h : pop place before = .ok operand after) :
    ∃ stack : OperandStack, before.stack.values = operand :: stack.values ∧
      after = { before with stack := stack } := by
  unfold pop at h
  cases hpop : before.stack.pop? with
  | some found =>
    rw [hpop] at h
    cases h
    exact ⟨_, OperandStack.values_pop? hpop, rfl⟩
  | none =>
    rw [hpop] at h
    cases h

theorem checkSlot_iff :
    checkSlot place slot before = .ok () after ↔ slot < before.slotCount ∧ before = after := by
  unfold checkSlot
  split_ifs with hslot
  · simp [hslot]
  · simp [hslot]

/-- An action on a local runs if the local exists. -/
theorem checked_iff {action : Lowering Unit} :
    (do
      checkSlot place slot
      action) before = .ok () after ↔
      slot < before.slotCount ∧ action before = .ok () after := by
  rw [Success.bind_iff]
  constructor
  · rintro ⟨_, _, hcheck, haction⟩
    obtain ⟨hslot, rfl⟩ := checkSlot_iff.mp hcheck
    exact ⟨hslot, haction⟩
  · rintro ⟨hslot, haction⟩
    exact ⟨(), before, checkSlot_iff.mpr ⟨hslot, rfl⟩, haction⟩

theorem whenLive_of_live {action : Lowering Unit} (h : before.dead = false) :
    whenLive action before = action before := by
  simp [whenLive, h]

theorem whenLive_of_dead {action : Lowering Unit} (h : before.dead = true) :
    whenLive action before = .ok () before := by
  simp [whenLive, h]

/-- What is done in live code only is done if the code is live. -/
theorem of_whenLive {action : Lowering Unit} (hlive : before.dead = false)
    (h : whenLive action before = .ok () after) : action before = .ok () after := by
  rw [whenLive_of_live hlive] at h
  exact h

/-- What is done in live code only changes nothing if the code is dead. -/
theorem eq_of_whenLive {action : Lowering Unit} (hdead : before.dead = true)
    (h : whenLive action before = .ok () after) : after = before := by
  rw [whenLive_of_dead hdead] at h
  cases h
  rfl

/-! ### Instructions -/

/-- An assignment pops the value, pins the local and emits the assignment. -/
theorem assign_cases (h : assign place slot before = .ok () after) :
    ∃ value, ∃ stack : OperandStack, before.stack.values = value :: stack.values ∧
      after = { Builder.pin slot { before with stack := stack } with
        emitted := (Builder.pin slot { before with stack := stack }).emitted.push
          (.assign slot value) } := by
  obtain ⟨value, _, hpop, h⟩ := Success.bind_iff.mp h
  obtain ⟨stack, hstack, rfl⟩ := pop_cases hpop
  obtain ⟨_, _, hpin, h⟩ := Success.bind_iff.mp h
  cases hpin
  cases h
  exact ⟨value, stack, hstack, rfl⟩

/-- An addition in live code pops both operands, emits the addition and pushes its temporary. -/
theorem add_cases {offset : Nat} (hlive : before.dead = false)
    (h : step { offset := offset, instruction := .add } before = .ok () after) :
    ∃ lhs rhs, ∃ below stack : OperandStack,
      before.stack.values = rhs :: lhs :: below.values ∧
      stack.values = .temp before.nextTemp :: below.values ∧
      after = { before with
        stack := stack
        emitted := before.emitted.push (.add before.nextTemp lhs rhs)
        nextTemp := before.nextTemp + 1 } := by
  obtain ⟨rhs, _, hrhs, h⟩ := Success.bind_iff.mp (of_whenLive hlive h)
  obtain ⟨middle, hmiddle, rfl⟩ := pop_cases hrhs
  obtain ⟨lhs, _, hlhs, h⟩ := Success.bind_iff.mp h
  obtain ⟨below, hbelow, rfl⟩ := pop_cases hlhs
  obtain ⟨dest, _, hdest, h⟩ := Success.bind_iff.mp h
  cases hdest
  obtain ⟨_, _, hemit, h⟩ := Success.bind_iff.mp h
  cases hemit
  obtain ⟨stack, hstack, rfl⟩ := push_cases h
  exact ⟨lhs, rhs, below, stack, by rw [hmiddle, hbelow], hstack, rfl⟩

/-- In dead code nothing is emitted, and the code stays dead. -/
theorem step_dead {located : Located} (hdead : before.dead = true)
    (h : step located before = .ok () after) :
    after.dead = true ∧ after.emitted = before.emitted ∧ after.nextTemp = before.nextTemp := by
  obtain ⟨offset, instruction⟩ := located
  cases instruction with
  | nop =>
    obtain ⟨-, rfl⟩ := Success.pure_iff.mp h
    exact ⟨hdead, rfl, rfl⟩
  | unreachable =>
    cases h
    exact ⟨rfl, rfl, rfl⟩
  | const value | add =>
    cases eq_of_whenLive hdead h
    exact ⟨hdead, rfl, rfl⟩
  | localGet slot | localSet slot | localTee slot =>
    cases eq_of_whenLive hdead (checked_iff.mp h).2
    exact ⟨hdead, rfl, rfl⟩

/-! ### Ends -/

/-- A terminator traps in dead code and returns what is on the stack in live code. -/
theorem terminator_cases {result : Terminator}
    (h : terminator place before = .ok result after) :
    (before.dead = true ∧ result = .trap ∧ after = before) ∨
      (before.dead = false ∧ before.stack.values = [] ∧ result = .ret none ∧ after = before) ∨
      ∃ operand, before.dead = false ∧ before.stack.values = [operand] ∧
        result = .ret (some operand) ∧ after.emitted = before.emitted := by
  unfold terminator at h
  by_cases hdead : before.dead = true
  · rw [if_pos hdead] at h
    cases h
    exact .inl ⟨hdead, rfl, rfl⟩
  · have hlive : before.dead = false := eq_false_of_ne_true hdead
    rw [if_neg hdead] at h
    cases hpop : before.stack.pop? with
    | none =>
      rw [hpop] at h
      cases h
      exact .inr (.inl ⟨hlive, OperandStack.pop?_eq_none_iff.mp hpop, rfl, rfl⟩)
    | some found =>
      obtain ⟨operand, below⟩ := found
      rw [hpop] at h
      dsimp only at h
      split_ifs at h with hdepth
      cases h
      have hvalues := OperandStack.values_pop? hpop
      rw [OperandStack.values_eq_nil hdepth] at hvalues
      exact .inr (.inr ⟨operand, hlive, hvalues, rfl, rfl⟩)

/-- A body can be closed if and only if its `end` is its last byte and there is a terminator. -/
theorem close_iff {ending : Except Diagnostic Span} {result : Terminator} :
    close ending before = .ok result after ↔
      ∃ behind, ending = .ok behind ∧ behind.bytes = [] ∧
        terminator behind.offset before = .ok result after := by
  cases ending with
  | error failure =>
    constructor
    · intro h
      cases h
    · rintro ⟨behind, hending, -⟩
      cases hending
  | ok behind =>
    rw [close]
    split_ifs with hempty
    · simp [List.isEmpty_iff.mp hempty]
    · constructor
      · intro h
        cases h
      · rintro ⟨_, hending, hbytes, -⟩
        cases hending
        exact absurd (List.isEmpty_iff.mpr hbytes) hempty

end Lowering

/-! ### Functions -/

namespace Definition

/-- The builder that a definition starts with if its locals can be counted. -/
def entered (definition : Definition) (builder : Builder) : Builder where
  function := definition.index
  stack := builder.stack.clear
  emitted := #[]
  nextTemp := 0
  slotCount := definition.slotCount
  dead := false

/-- The beginning of a lowering, up to and including the given instructions. -/
def upTo (definition : Definition) (taken : List Located) : Lowering Unit := do
  Lowering.enter definition.index
  Lowering.countSlots definition.body.codeOffset definition.slotCount
  taken.forM Lowering.step

variable {definition : Definition} {before after : Builder} {function : Function}

/-- If the locals of a definition can be counted, its instructions are lowered from a builder that
has nothing of the one before but the capacity of its stack. -/
theorem upTo_of_lt (h : definition.slotCount < UInt32.size) (taken : List Located)
    (before : Builder) :
    definition.upTo taken before = taken.forM Lowering.step (definition.entered before) := by
  have hcount : (Lowering.countSlots definition.body.codeOffset definition.slotCount) = modify
      fun builder ↦ { builder with slotCount := definition.slotCount } := if_pos h
  unfold upTo
  rw [hcount]
  rfl

theorem upTo_iff {taken : List Located} :
    definition.upTo taken before = .ok () after ↔
      definition.slotCount < UInt32.size ∧
        taken.forM Lowering.step (definition.entered before) = .ok () after := by
  by_cases hcount : definition.slotCount < UInt32.size
  · rw [upTo_of_lt hcount, and_iff_right hcount]
  · refine iff_of_false (fun h ↦ ?_) fun h ↦ hcount h.1
    obtain ⟨_, _, -, h⟩ := Success.bind_iff.mp h
    obtain ⟨_, _, hslots, -⟩ := Success.bind_iff.mp h
    rw [Lowering.countSlots, if_neg hcount] at hslots
    cases hslots

/-- A lowering begins with its instructions, closes the body and takes up what was emitted. -/
theorem lower_eq (definition : Definition) :
    definition.lower = (do
      definition.upTo (StackCode.scan definition.index definition.body).instructions
      let terminator ← Lowering.close (StackCode.scan definition.index definition.body).ending
      let emitted ← Lowering.takeEmitted
      let builder ← get
      pure
        { index := definition.index
          typeIndex := definition.typeIndex
          params := definition.signature.params
          locals := definition.body.locals
          result := definition.signature.result
          instructions := emitted.toList
          terminator := terminator
          tempCount := builder.nextTemp }) := by
  simp only [lower, upTo, bind_assoc]

/-- A function that can be lowered consists of what its instructions emit and how its body ends. -/
theorem lower_iff :
    definition.lower before = .ok function after ↔
      ∃ late closed terminator,
        definition.upTo (StackCode.scan definition.index definition.body).instructions before =
          .ok () late ∧
        Lowering.close (StackCode.scan definition.index definition.body).ending late =
          .ok terminator closed ∧
        { closed with emitted := #[] } = after ∧
        { index := definition.index
          typeIndex := definition.typeIndex
          params := definition.signature.params
          locals := definition.body.locals
          result := definition.signature.result
          instructions := closed.emitted.toList
          terminator := terminator
          tempCount := closed.nextTemp } = function := by
  rw [lower_eq]
  constructor
  · intro h
    obtain ⟨_, late, hupTo, h⟩ := Success.bind_iff.mp h
    obtain ⟨terminator, closed, hclose, h⟩ := Success.bind_iff.mp h
    cases h
    exact ⟨late, closed, terminator, hupTo, hclose, rfl, rfl⟩
  · rintro ⟨late, closed, terminator, hupTo, hclose, rfl, rfl⟩
    exact Success.bind_iff.mpr ⟨(), late, hupTo,
      Success.bind_iff.mpr ⟨terminator, closed, hclose, rfl⟩⟩

end Definition

end StraightWasm.Linear
