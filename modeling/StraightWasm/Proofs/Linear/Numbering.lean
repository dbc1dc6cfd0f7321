import StraightWasm.Proofs.Histories
import StraightWasm.Proofs.Linear.Actions
import StraightWasm.Proofs.Module.IndexRange
import StraightWasm.Proofs.StackCode.Spelling

/-!
# The numbers of temporaries fit in 32 bits

One assignment can make as many temporaries as the stack is deep, so what an instruction costs says
little about what a body costs. But every temporary of a snapshot takes the place of a reference to
a local, and a reference is pushed by an instruction of its own. The temporaries made so far and the
references on the stack, from each of which one more can come, are counted together
(`Builder.charge`). Replacing a reference keeps the charge (`OperandStack.charge_pinAll`), an
instruction that pushes a reference or adds raises it by one, and no other instruction raises it
(`Lowering.costs_step`).

So after some instructions the charge is at most the number of those that raise it, wherever a
lowering stops and whether it fails there or not (`Definition.charge_upTo`). Every instruction takes
a byte of the code, and `end` takes one more (`StackCode.length_scan`).
-/

set_option autoImplicit false
set_option relaxedAutoImplicit false

namespace StraightWasm

/-! ### Instructions -/

namespace StackCode

/-- Whether an instruction pushes a reference to a local or makes a temporary by itself. -/
def Instruction.isCharged : Instruction → Bool
  | localGet _ | localTee _ | add => true
  | unreachable | nop | const _ | localSet _ => false

/-- How many of some instructions push a reference to a local or make a temporary by themselves. -/
def charged (instructions : List Located) : Nat :=
  instructions.countP fun located ↦ located.instruction.isCharged

theorem charged_cons (located : Located) (rest : List Located) :
    charged (located :: rest) = charged [located] + charged rest := by
  rw [← List.singleton_append, charged, List.countP_append]
  rfl

theorem charged_mono {taken instructions : List Located} (h : taken <+: instructions) :
    charged taken ≤ charged instructions :=
  h.sublist.countP_le

/-- Every instruction takes a byte at least, and so does the `end` of a scan that comes to it. -/
theorem length_scanFrom (function : Nat) (found : List Located) (span : Span) :
    (scanFrom function found span).instructions.length ≤ found.length + span.bytes.length ∧
      ∀ behind, (scanFrom function found span).ending = .ok behind →
        (scanFrom function found span).instructions.length < found.length + span.bytes.length := by
  fun_induction scanFrom function found span with
  | case1 found span instruction after h hshorter ih =>
    rw [List.length_cons] at ih
    exact ⟨by omega, fun behind hbehind ↦ by have := ih.2 behind hbehind; omega⟩
  | case2 found span after h =>
    have hshorter := length_lt_of_next h
    rw [List.length_reverse]
    exact ⟨by omega, fun _ _ ↦ by omega⟩
  | case3 found span failure stop h =>
    rw [List.length_reverse]
    refine ⟨Nat.le_add_right _ _, fun behind hending ↦ ?_⟩
    cases hending

theorem length_scan (function : Nat) (body : Body) :
    (scan function body).instructions.length ≤ body.code.length ∧
      ∀ behind, (scan function body).ending = .ok behind →
        (scan function body).instructions.length < body.code.length := by
  have hlength := length_scanFrom function [] { offset := body.codeOffset, bytes := body.code }
  rwa [List.length_nil, Nat.zero_add] at hlength

end StackCode

namespace Linear

open StackCode (Located charged)

/-! ### References -/

namespace Operand

/-- Whether an operand is a reference to a local. -/
def isReference : Operand → Bool
  | slot _ => true
  | const _ | temp _ => false

/-- How many of some operands are references to locals. -/
def references (operands : List Operand) : Nat :=
  operands.countP isReference

theorem references_cons (operand : Operand) (rest : List Operand) :
    references (operand :: rest) = references rest + references [operand] := by
  rw [← List.singleton_append, references, List.countP_append, Nat.add_comm]
  rfl

theorem references_append (front back : List Operand) :
    references (front ++ back) = references front + references back :=
  List.countP_append

end Operand

open Operand (references references_cons references_append)

namespace OperandStack

/-- Walking over an operand replaces a reference by a temporary or keeps the operand. -/
theorem charge_pinOne (slot : Nat) (operand : Operand) (pinning : Pinning) :
    (pinOne slot operand pinning).nextTemp + references (pinOne slot operand pinning).values =
      pinning.nextTemp + references (operand :: pinning.values) := by
  unfold pinOne
  split_ifs with hoperand
  · rw [hoperand, references_cons (.temp _), references_cons (.slot _)]
    exact Nat.succ_add_eq_add_succ _ _
  · rfl

/-- Pinning makes as many temporaries as it replaces references. -/
theorem charge_pinAll (slot nextTemp : Nat) (emitted : Array Instr) (values : List Operand) :
    (pinAll slot nextTemp emitted values).nextTemp +
        references (pinAll slot nextTemp emitted values).values =
      nextTemp + references values := by
  induction values with
  | nil => rfl
  | cons operand below ih =>
    refine (charge_pinOne slot operand (pinAll slot nextTemp emitted below)).trans ?_
    rw [references_cons, references_cons operand below, ← Nat.add_assoc, ← Nat.add_assoc, ih]

theorem references_pop?_le {stack : OperandStack} {found : Operand × OperandStack}
    (h : stack.pop? = some found) : references found.2.values ≤ references stack.values := by
  rw [values_pop? h, references_cons]
  exact Nat.le_add_right _ _

end OperandStack

namespace Builder

/-- The temporaries made so far and the references on the stack, from each of which one more can
come. -/
def charge (builder : Builder) : Nat :=
  builder.nextTemp + references builder.stack.values

theorem charge_pin (slot : Nat) (builder : Builder) : (builder.pin slot).charge = builder.charge :=
  OperandStack.charge_pinAll slot builder.nextTemp builder.emitted builder.stack.values

/-- Whether the charge of a builder is within a number, and stays within it while operands are taken
off the stack and the references to a local are replaced from the bottom up to some height. -/
structure Covered (count : Nat) (builder : Builder) : Prop where
  charge_le : builder.charge ≤ count
  midway : ∀ (slot : Nat) (upper lower : List Operand), upper ++ lower <:+ builder.stack.values →
    (OperandStack.pinAll slot builder.nextTemp builder.emitted lower).nextTemp +
      references (upper ++
        (OperandStack.pinAll slot builder.nextTemp builder.emitted lower).values) ≤ count

theorem covered_of_charge_le {count : Nat} {builder : Builder} (h : builder.charge ≤ count) :
    builder.Covered count := by
  refine ⟨h, fun slot upper lower hsuffix ↦ ?_⟩
  have hwalk := OperandStack.charge_pinAll slot builder.nextTemp builder.emitted lower
  have hpopped : references (upper ++ lower) ≤ references builder.stack.values :=
    hsuffix.sublist.countP_le
  rw [references_append] at hpopped ⊢
  unfold charge at h
  omega

end Builder

/-! ### Costs -/

namespace Lowering

variable {α β : Type} {price price' : Nat}

/-- Whether an action raises the charge by a price at most, wherever it stops. -/
def Costs (price : Nat) (action : Lowering α) : Prop :=
  ∀ before, (Success.residue (action before)).charge ≤ before.charge + price

theorem Costs.mono {action : Lowering α} (h : Costs price action) (hle : price ≤ price') :
    Costs price' action :=
  fun before ↦ (h before).trans (Nat.add_le_add_left hle _)

theorem costs_pure (value : α) : Costs 0 (pure value : Lowering α) :=
  fun _ ↦ Nat.le_refl _

theorem costs_throw (failure : Diagnostic) : Costs 0 (throw failure : Lowering α) :=
  fun _ ↦ Nat.le_refl _

theorem costs_modify {f : Builder → Builder}
    (h : ∀ builder, (f builder).charge ≤ builder.charge + price) :
    Costs price (modify f : Lowering PUnit) :=
  h

/-- The prices of a sequence add up. If its first part fails, the second one costs nothing. -/
theorem Costs.bind {first : Lowering α} {second : α → Lowering β} (hfirst : Costs price first)
    (hsecond : ∀ value, Costs price' (second value)) :
    Costs (price + price') (first >>= second) := by
  intro before
  have hmiddle := hfirst before
  change (Success.residue (EStateM.bind first second before)).charge ≤ _
  unfold EStateM.bind
  cases hrun : first before with
  | ok value middle =>
    rw [hrun] at hmiddle
    calc (Success.residue (second value middle)).charge
      _ ≤ middle.charge + price' := hsecond value middle
      _ ≤ before.charge + price + price' := Nat.add_le_add_right hmiddle price'
      _ = before.charge + (price + price') := Nat.add_assoc _ _ _
  | error failure stop =>
    rw [hrun] at hmiddle
    exact hmiddle.trans (Nat.add_le_add_left (Nat.le_add_right price price') _)

theorem Costs.free_bind {first : Lowering α} {second : α → Lowering β} (hfirst : Costs 0 first)
    (hsecond : ∀ value, Costs price (second value)) : Costs price (first >>= second) :=
  (hfirst.bind hsecond).mono (Nat.le_of_eq (Nat.zero_add price))

theorem Costs.bind_free {first : Lowering α} {second : α → Lowering β} (hfirst : Costs price first)
    (hsecond : ∀ value, Costs 0 (second value)) : Costs price (first >>= second) :=
  hfirst.bind hsecond

theorem Costs.whenLive {action : Lowering Unit} (h : Costs price action) :
    Costs price (whenLive action) := by
  intro before
  unfold Lowering.whenLive
  split_ifs
  · exact Nat.le_add_right _ _
  · exact h before

theorem costs_push (place : Nat) (operand : Operand) :
    Costs (references [operand]) (push place operand) := by
  intro before
  unfold push
  cases hpush : before.stack.push operand with
  | ok stack =>
    show before.nextTemp + references stack.values ≤ _
    rw [OperandStack.values_push hpush, references_cons, ← Nat.add_assoc]
    exact Nat.le_refl _
  | error rejected => exact Nat.le_add_right _ _

theorem costs_pop (place : Nat) : Costs 0 (pop place) := by
  intro before
  unfold pop
  cases hpop : before.stack.pop? with
  | some found =>
    exact Nat.add_le_add_left (OperandStack.references_pop?_le hpop) before.nextTemp
  | none => exact Nat.le_refl _

theorem costs_emit (instruction : Instr) : Costs 0 (emit instruction) :=
  costs_modify fun _ ↦ Nat.le_refl _

theorem costs_newTemp : Costs 1 newTemp :=
  fun before ↦ Nat.le_of_eq (Nat.add_right_comm before.nextTemp 1 _)

theorem costs_checkSlot (place slot : Nat) : Costs 0 (checkSlot place slot) := by
  intro before
  unfold checkSlot
  split_ifs
  · exact Nat.le_refl _
  · exact Nat.le_refl _

theorem costs_countSlots (place count : Nat) : Costs 0 (countSlots place count) := by
  unfold countSlots
  split_ifs
  · exact costs_modify fun _ ↦ Nat.le_refl _
  · exact costs_throw _

theorem costs_get : Costs 0 (get : Lowering Builder) :=
  fun _ ↦ Nat.le_refl _

theorem costs_takeEmitted : Costs 0 takeEmitted :=
  fun _ ↦ Nat.le_refl _

theorem costs_pin (slot : Nat) : Costs 0 (pin slot) :=
  costs_modify fun builder ↦ Nat.le_of_eq (builder.charge_pin slot)

/-- An assignment turns references into temporaries and raises nothing. -/
theorem costs_assign (place slot : Nat) : Costs 0 (assign place slot) :=
  (costs_pop place).free_bind fun value ↦ (costs_pin slot).free_bind fun _ ↦
    costs_emit (.assign slot value)

/-- An instruction raises the charge by one at most, and only if it is charged. -/
theorem costs_step (located : Located) :
    Costs (charged [located]) (step located) := by
  obtain ⟨place, instruction⟩ := located
  cases instruction with
  | nop => exact costs_pure ()
  | unreachable =>
    refine costs_modify fun builder ↦ ?_
    exact Nat.add_le_add_left (Nat.zero_le _) builder.nextTemp
  | const value => exact (costs_push place (.const value)).whenLive
  | localGet slot =>
    exact (costs_checkSlot place slot).free_bind fun _ ↦ (costs_push place (.slot slot)).whenLive
  | localSet slot =>
    exact (costs_checkSlot place slot).free_bind fun _ ↦ (costs_assign place slot).whenLive
  | localTee slot =>
    exact (costs_checkSlot place slot).free_bind fun _ ↦
      ((costs_assign place slot).free_bind fun _ ↦ costs_push place (.slot slot)).whenLive
  | add =>
    refine Costs.whenLive ((costs_pop place).free_bind fun rhs ↦
      (costs_pop place).free_bind fun lhs ↦ ?_)
    exact costs_newTemp.bind_free fun dest ↦ (costs_emit (.add dest lhs rhs)).free_bind fun _ ↦
      costs_push place (.temp dest)

theorem costs_forM_step (instructions : List Located) :
    Costs (charged instructions) (instructions.forM step) := by
  induction instructions with
  | nil => exact costs_pure _
  | cons located rest ih =>
    rw [StackCode.charged_cons]
    exact (costs_step located).bind fun _ ↦ ih

theorem costs_terminator (place : Nat) : Costs 0 (terminator place) := by
  intro before
  unfold terminator
  split_ifs
  · exact Nat.le_refl _
  · cases hpop : before.stack.pop? with
    | none => exact Nat.le_refl _
    | some found =>
      dsimp only
      split_ifs
      · exact Nat.add_le_add_left (OperandStack.references_pop?_le hpop) before.nextTemp
      · exact Nat.add_le_add_left (OperandStack.references_pop?_le hpop) before.nextTemp

theorem costs_close (ending : Except Diagnostic Span) : Costs 0 (close ending) := by
  cases ending with
  | error failure => exact costs_throw failure
  | ok behind =>
    rw [close]
    split_ifs
    · exact costs_terminator behind.offset
    · exact costs_get.free_bind fun _ ↦ costs_throw _

/-- Behind the beginning of a function the charge is the price of what was done. -/
theorem Costs.charge_le {action : Lowering α} (h : Costs price action) (function : Nat)
    (before : Builder) :
    (Success.residue ((do
      enter function
      action) before)).charge ≤ price :=
  (h _).trans (Nat.le_of_eq (Nat.zero_add price))

end Lowering

/-! ### Functions -/

namespace Definition

/-- After some instructions of a body, or where one of them failed, the charge is at most the number
of those that are charged. -/
theorem charge_upTo (definition : Definition) (taken : List Located) (before : Builder) :
    (Success.residue (definition.upTo taken before)).charge ≤ charged taken :=
  ((Lowering.costs_countSlots _ _).free_bind fun _ ↦
    Lowering.costs_forM_step taken).charge_le definition.index before

/-- Where the lowering of a function ends, the charge is at most the number of instructions that are
charged. -/
theorem charge_lower (definition : Definition) (before : Builder) :
    (Success.residue (definition.lower before)).charge ≤
      charged (StackCode.scan definition.index definition.body).instructions := by
  refine Lowering.Costs.charge_le ?_ definition.index before
  exact (Lowering.costs_countSlots _ _).free_bind fun _ ↦
    (Lowering.costs_forM_step _).bind_free fun _ ↦ (Lowering.costs_close _).free_bind fun _ ↦
      Lowering.costs_takeEmitted.free_bind fun _ ↦ Lowering.costs_get.free_bind fun _ ↦
        Lowering.costs_pure _

/-- A function makes fewer temporaries than its code has bytes. -/
theorem tempCount_of_lower {definition : Definition} {before after : Builder} {function : Function}
    (h : definition.lower before = .ok function after) :
    function.tempCount ≤ charged (StackCode.scan definition.index definition.body).instructions ∧
      function.tempCount < definition.body.code.length := by
  have hcharge := charge_lower definition before
  rw [h] at hcharge
  obtain ⟨late, closed, terminator, -, hclose, rfl, rfl⟩ := lower_iff.mp h
  obtain ⟨behind, hending, -⟩ := Lowering.close_iff.mp hclose
  have hcharged : charged (StackCode.scan definition.index definition.body).instructions ≤ _ :=
    List.countP_le_length
  have hbytes := (StackCode.length_scan definition.index definition.body).2 behind hending
  have hle : closed.nextTemp ≤ charged _ := (Nat.le_add_right _ _).trans hcharge
  exact ⟨hle, by dsimp only; omega⟩

/-- After any instructions that a body begins with, the temporaries made and the references left on
the stack are at most the instructions that read a local, copy into one or add, also where one of
them fails, and also while operands are popped and a local is pinned. Where the lowering ends, the
same holds of all instructions that can be read, and a function that can be lowered has fewer
temporaries than its code has bytes. For a body of a decoded module, whose code is shorter than a
32-bit word can say, the numbers of temporaries never leave such a word. -/
theorem temps_covered (definition : Definition) (before : Builder) :
    (∀ taken, definition.body.Begins taken →
        (Success.residue (definition.upTo taken before)).Covered (charged taken)) ∧
      (∃ longest, definition.body.Begins longest ∧
        (∀ taken, definition.body.Begins taken → taken <+: longest) ∧
        (Success.residue (definition.lower before)).Covered (charged longest) ∧
        ∀ function after, definition.lower before = .ok function after →
          function.tempCount ≤ charged longest ∧
            function.tempCount < definition.body.code.length) ∧
      ∀ bytes module, Module.decode bytes = .ok module → definition.body ∈ module.bodies →
        definition.body.code.length < UInt32.size ∧
          (∀ taken, definition.body.Begins taken →
            (Success.residue (definition.upTo taken before)).Covered (UInt32.size - 1)) ∧
          (Success.residue (definition.lower before)).Covered (UInt32.size - 1) := by
  obtain ⟨hbegins, hlongest⟩ := Body.begins_scan definition.index definition.body
  refine ⟨fun taken _ ↦ Builder.covered_of_charge_le (charge_upTo definition taken before),
    ⟨_, hbegins, hlongest, Builder.covered_of_charge_le (charge_lower definition before),
      fun _ _ ↦ tempCount_of_lower⟩, fun bytes module hdecode hbody ↦ ?_⟩
  have hcode := Module.length_code_lt hdecode hbody
  have hcharged : charged (StackCode.scan definition.index definition.body).instructions ≤
      UInt32.size - 1 := by
    have hlength := (StackCode.length_scan definition.index definition.body).1
    exact (List.countP_le_length.trans hlength).trans (Nat.le_sub_one_of_lt hcode)
  refine ⟨hcode, fun taken htaken ↦ Builder.covered_of_charge_le ?_,
    Builder.covered_of_charge_le ((charge_lower definition before).trans hcharged)⟩
  exact (charge_upTo definition taken before).trans
    ((StackCode.charged_mono (hlongest taken htaken)).trans hcharged)

/-- A binary with one function, which overwrites its parameter while two references to it wait on
the stack, and adds them. -/
def doublingBinary : List UInt8 :=
  [0x00, 0x61, 0x73, 0x6d, 0x01, 0x00, 0x00, 0x00,
    0x01, 0x06, 0x01, 0x60, 0x01, 0x7f, 0x01, 0x7f,
    0x03, 0x02, 0x01, 0x00,
    0x0a, 0x0d, 0x01, 0x0b, 0x00,
    0x20, 0x00, 0x20, 0x00, 0x41, 0x09, 0x21, 0x00, 0x6a, 0x0b]

/-- Its function. -/
def doubling : Definition where
  index := 0
  typeIndex := 0
  signature := { params := [.i32], result := .i32 }
  body :=
    { locals := []
      code := [0x20, 0x00, 0x20, 0x00, 0x41, 0x09, 0x21, 0x00, 0x6a, 0x0b]
      codeOffset := 25 }

/-- Two instructions read a local and one adds, and there are as many temporaries: no bound is
missed. -/
theorem temps_covered_doubling :
    ∃ module function after instructions, Module.decode doublingBinary = .ok module ∧
      doubling.body ∈ module.bodies ∧
      doubling.lower (.ofCapacity 3) = .ok function after ∧ function.tempCount = 3 ∧
      doubling.body.Begins instructions ∧ charged instructions = 3 ∧ after.Covered 3 ∧
      after.Covered (UInt32.size - 1) := by
  have hbodies : (Module.decode doublingBinary).map (·.bodies) = .ok [doubling.body] := by
    decide +kernel
  have hcount : (Success.value? (doubling.lower (.ofCapacity 3))).map (·.tempCount) = some 3 := by
    decide +kernel
  have hcharged : charged (StackCode.scan 0 doubling.body).instructions = 3 := by decide +kernel
  obtain ⟨module, hmodule, hmodules⟩ : ∃ module, Module.decode doublingBinary = .ok module ∧
      module.bodies = [doubling.body] := by
    cases h : Module.decode doublingBinary with
    | error failure =>
      rw [h] at hbodies
      cases hbodies
    | ok module =>
      rw [h] at hbodies
      exact ⟨module, rfl, Except.ok.inj hbodies⟩
  have hbody : doubling.body ∈ module.bodies := hmodules ▸ List.mem_singleton_self _
  obtain ⟨function, hvalue, hfunction⟩ := Option.map_eq_some_iff.mp hcount
  obtain ⟨after, hlower⟩ := Success.exists_of_value? hvalue
  obtain ⟨-, ⟨longest, hbegins, hlongest, hcovered, -⟩, hwords⟩ :=
    temps_covered doubling (.ofCapacity 3)
  obtain ⟨-, -, hword⟩ := hwords doublingBinary module hmodule hbody
  rw [hlower] at hcovered hword
  have hthree : charged longest = 3 := by
    rw [← hcharged]
    exact le_antisymm (StackCode.charged_mono ((Body.begins_iff 0).mp hbegins))
      (StackCode.charged_mono (hlongest _ (Body.begins_scan 0 doubling.body).1))
  rw [hthree] at hcovered
  exact ⟨module, function, after, longest, hmodule, hbody, hlower, hfunction, hbegins, hthree,
    hcovered, hword⟩

end Definition

end Linear

end StraightWasm
