import Mathlib.Algebra.Order.Group.Multiset
import Mathlib.Data.Multiset.Range
import Mathlib.Tactic.Abel
import StraightWasm.Proofs.Linear.Actions

/-!
# Every temporary is defined once and used once

Linear code treats its temporaries as resources. Its instructions define them in the order of their
numbers, and each use takes one temporary that an earlier instruction defined and that nothing has
used yet. `Threaded` is that discipline as a judgement on code: which temporaries the code defines,
and which of them wait to be used behind it. From a derivation it can be read off that the
definitions count up (`Threaded.dests`), that every use comes behind its definition
(`Threaded.defined_earlier`), and that uses and waiting temporaries together are all temporaries,
once each (`Threaded.accounted`).

While a body is lowered, the temporaries that wait are exactly those on the operand stack
(`Builder.Threads`). Pinning keeps this at every depth of the stack
(`OperandStack.threaded_pinAll`), so each instruction keeps it (`Builder.Threads.step`). From
`unreachable` on the code is dead, and what waits then is never used (`Builder.Accounted`).
-/

set_option autoImplicit false
set_option relaxedAutoImplicit false

namespace StraightWasm.Linear

open StackCode (Located)

/-! ### What operands refer to -/

namespace Operand

/-- The temporary that an operand refers to, if any. -/
def temp? : Operand → Option Nat
  | temp index => some index
  | _ => none

/-- The temporaries that some operands refer to, each as often as it occurs. -/
def temps (operands : List Operand) : Multiset Nat :=
  operands.filterMap temp?

@[simp] theorem temps_nil : temps [] = 0 := rfl

@[simp] theorem temps_temp (index : Nat) : temps [.temp index] = {index} := rfl

@[simp] theorem temps_slot (index : Nat) : temps [.slot index] = 0 := rfl

@[simp] theorem temps_const (value : Int32) : temps [.const value] = 0 := rfl

theorem temps_append (front back : List Operand) :
    temps (front ++ back) = temps front + temps back := by
  simp [temps]

theorem temps_cons (operand : Operand) (rest : List Operand) :
    temps (operand :: rest) = temps [operand] + temps rest :=
  temps_append [operand] rest

theorem count_temps (operands : List Operand) (index : Nat) :
    (temps operands).count index = operands.count (.temp index) := by
  rw [temps, Multiset.coe_count, List.count_filterMap, List.count_eq_countP]
  refine List.countP_congr fun operand _ ↦ ?_
  cases operand <;> simp [temp?]

theorem mem_temps {operands : List Operand} {index : Nat} :
    index ∈ temps operands ↔ .temp index ∈ operands := by
  rw [← Multiset.count_pos, count_temps, List.count_pos_iff]

/-- Whether all locals that some operands refer to exist. -/
def SlotsBelow (slotCount : Nat) (operands : List Operand) : Prop :=
  ∀ slot, .slot slot ∈ operands → slot < slotCount

theorem slotsBelow_slot {slotCount slot : Nat} :
    SlotsBelow slotCount [.slot slot] ↔ slot < slotCount := by
  simp [SlotsBelow]

theorem slotsBelow_append {slotCount : Nat} {front back : List Operand} :
    SlotsBelow slotCount (front ++ back) ↔
      SlotsBelow slotCount front ∧ SlotsBelow slotCount back := by
  simp only [SlotsBelow, List.mem_append, or_imp, forall_and]

theorem slotsBelow_cons {slotCount : Nat} {operand : Operand} {rest : List Operand} :
    SlotsBelow slotCount (operand :: rest) ↔
      SlotsBelow slotCount [operand] ∧ SlotsBelow slotCount rest := by
  rw [← slotsBelow_append, List.singleton_append]

end Operand

open Operand (temps SlotsBelow)

/-- The operands that a terminator reads. -/
def Terminator.operands : Terminator → List Operand
  | ret value => value.toList
  | trap => []

/-- The operands that a function reads, in the order of its code. -/
def Function.operands (function : Function) : List Operand :=
  function.instructions.flatMap Instr.operands ++ function.terminator.operands

/-! ### The discipline -/

/-- `Threaded slotCount code count waiting` says that the code defines the temporaries below
`count`, one after the other, that every use takes a temporary off those that wait, and that
`waiting` is what waits in the end. All locals that are named exist. -/
inductive Threaded (slotCount : Nat) : List Instr → Nat → Multiset Nat → Prop where
  | nil : Threaded slotCount [] 0 0
  | snoc {code : List Instr} {count : Nat} {waiting : Multiset Nat} (instruction : Instr)
    (before : Threaded slotCount code count (temps instruction.operands + waiting))
    (fresh : ∀ dest ∈ instruction.dest?, dest = count)
    (reads : SlotsBelow slotCount instruction.operands)
    (writes : ∀ slot value, instruction = .assign slot value → slot < slotCount) :
    Threaded slotCount (code ++ [instruction]) (count + instruction.dest?.toList.length)
      (instruction.dest?.toList + waiting)

namespace Threaded

variable {slotCount count slot : Nat} {code : List Instr} {waiting : Multiset Nat}
  {value lhs rhs : Operand}

theorem snapshot (h : Threaded slotCount code count waiting) (hslot : slot < slotCount) :
    Threaded slotCount (code ++ [.snapshot count slot]) (count + 1) ({count} + waiting) := by
  have hbefore : Threaded slotCount code count (temps [.slot slot] + waiting) := by
    rwa [Operand.temps_slot, zero_add]
  exact .snoc (.snapshot count slot) hbefore (by simp [Instr.dest?])
    (Operand.slotsBelow_slot.mpr hslot) (by simp)

theorem assign (h : Threaded slotCount code count (temps [value] + waiting))
    (hvalue : SlotsBelow slotCount [value]) (hslot : slot < slotCount) :
    Threaded slotCount (code ++ [.assign slot value]) count waiting := by
  have hafter := Threaded.snoc (.assign slot value) h (by simp [Instr.dest?]) hvalue
    (by simpa using hslot)
  rwa [Instr.dest?, Option.toList_none, Multiset.coe_nil, zero_add] at hafter

theorem add (h : Threaded slotCount code count (temps [lhs, rhs] + waiting))
    (hoperands : SlotsBelow slotCount [lhs, rhs]) :
    Threaded slotCount (code ++ [.add count lhs rhs]) (count + 1) ({count} + waiting) :=
  .snoc (.add count lhs rhs) h (by simp [Instr.dest?]) hoperands (by simp)

/-! ### What a derivation says -/

theorem range_fresh {dest? : Option Nat} (h : ∀ dest ∈ dest?, dest = count) :
    List.range count ++ dest?.toList = List.range (count + dest?.toList.length) := by
  cases dest? with
  | none => simp
  | some dest => simp [h dest rfl, List.range_succ]

/-- The definitions count up from zero. -/
theorem dests (h : Threaded slotCount code count waiting) :
    code.filterMap Instr.dest? = List.range count := by
  induction h with
  | nil => rfl
  | snoc instruction before fresh reads writes ih =>
    rw [← range_fresh fresh, ← ih, List.filterMap_append]
    cases hdest : instruction.dest? <;> simp [hdest]

/-- Uses and waiting temporaries together are all temporaries, once each. -/
theorem accounted (h : Threaded slotCount code count waiting) :
    temps (code.flatMap Instr.operands) + waiting = Multiset.range count := by
  induction h with
  | nil => rfl
  | @snoc code count waiting instruction before fresh reads writes ih =>
    have hrange : Multiset.range (count + instruction.dest?.toList.length) =
        Multiset.range count + instruction.dest?.toList := by
      rw [Multiset.range, ← range_fresh fresh]
      rfl
    rw [hrange, ← ih, List.flatMap_append, Operand.temps_append, List.flatMap_singleton]
    abel

theorem lt_of_mem_waiting (h : Threaded slotCount code count waiting) {temp : Nat}
    (htemp : temp ∈ waiting) : temp < count := by
  rw [← Multiset.mem_range, ← h.accounted]
  exact Multiset.mem_add.mpr (.inr htemp)

/-- Every use comes behind the definition. -/
theorem defined_earlier (h : Threaded slotCount code count waiting) {front rest : List Instr}
    {instruction : Instr} (hcode : code = front ++ instruction :: rest) {temp : Nat}
    (htemp : .temp temp ∈ instruction.operands) : temp ∈ front.filterMap Instr.dest? := by
  induction h generalizing rest with
  | nil => simp at hcode
  | snoc last before fresh reads writes ih =>
    -- The instruction is the last one, or it stands in the code before that.
    rcases List.eq_nil_or_concat rest with rfl | ⟨others, final, rfl⟩
    · obtain ⟨rfl, hlast⟩ := List.append_inj' hcode rfl
      cases hlast
      rw [before.dests, List.mem_range]
      exact before.lt_of_mem_waiting (Multiset.mem_add.mpr (.inl (Operand.mem_temps.mpr htemp)))
    · rw [List.concat_eq_append, ← List.cons_append, ← List.append_assoc] at hcode
      exact ih (List.append_inj' hcode rfl).1

theorem slots_lt (h : Threaded slotCount code count waiting) :
    ∀ instruction ∈ code, SlotsBelow slotCount instruction.operands ∧
      ∀ slot value, instruction = .assign slot value → slot < slotCount := by
  induction h with
  | nil => simp
  | snoc last before fresh reads writes ih =>
    intro instruction hmem
    rcases List.mem_append.mp hmem with hmem | hmem
    · exact ih instruction hmem
    · rw [List.mem_singleton.mp hmem]
      exact ⟨reads, writes⟩

end Threaded

/-! ### Pinning -/

namespace OperandStack

variable {slotCount slot nextTemp : Nat} {emitted : Array Instr}

/-- Pinning a local puts a temporary that waits in the place of every reference to it. `others` are
the temporaries that wait apart from those on the stack. -/
theorem threaded_pinAll (hslot : slot < slotCount) (values : List Operand) :
    ∀ others : Multiset Nat, Threaded slotCount emitted.toList nextTemp (temps values + others) →
      Threaded slotCount (pinAll slot nextTemp emitted values).emitted.toList
        (pinAll slot nextTemp emitted values).nextTemp
        (temps (pinAll slot nextTemp emitted values).values + others) := by
  induction values with
  | nil => exact fun others h ↦ h
  | cons operand below ih =>
    intro others h
    -- While the operands below are walked over, this one waits with the others.
    rw [Operand.temps_cons, add_right_comm, add_comm (temps [operand] + others)] at h
    have hbelow := ih _ h
    rw [pinAll, List.foldr_cons, ← pinAll, pinOne]
    split_ifs with heq
    · rw [heq, Operand.temps_slot, zero_add] at hbelow
      rw [Operand.temps_cons, Operand.temps_temp, add_assoc, Array.toList_push]
      exact hbelow.snapshot hslot
    · rw [Operand.temps_cons, add_right_comm, add_comm (temps [operand] + others)]
      exact hbelow

theorem slot_mem_of_mem_pinAll {other : Nat} (values : List Operand)
    (h : .slot other ∈ (pinAll slot nextTemp emitted values).values) : .slot other ∈ values := by
  induction values with
  | nil => exact h
  | cons operand below ih =>
    rw [pinAll, List.foldr_cons, ← pinAll, pinOne] at h
    split_ifs at h with heq
    · rcases List.mem_cons.mp h with hother | hother
      · cases hother
      · exact List.mem_cons_of_mem _ (ih hother)
    · rcases List.mem_cons.mp h with hother | hother
      · exact hother ▸ List.mem_cons_self
      · exact List.mem_cons_of_mem _ (ih hother)

end OperandStack

/-! ### Lowering -/

namespace Builder

/-- The code is live, the temporaries that wait are those on the stack, and the locals on the stack
are among the given number of locals that the function has. -/
structure Threads (slotCount : Nat) (builder : Builder) : Prop where
  live : builder.dead = false
  slotCount_eq : builder.slotCount = slotCount
  threaded : Threaded slotCount builder.emitted.toList builder.nextTemp
    (temps builder.stack.values)
  slots : SlotsBelow slotCount builder.stack.values

namespace Threads

variable {slotCount : Nat} {before after : Builder} {place slot : Nat} {operand : Operand}

theorem push (h : before.Threads slotCount) (htemps : temps [operand] = 0)
    (hslots : SlotsBelow slotCount [operand])
    (hrun : Lowering.push place operand before = .ok () after) : after.Threads slotCount := by
  obtain ⟨stack, hstack, rfl⟩ := Lowering.push_cases hrun
  refine ⟨h.live, h.slotCount_eq, ?_, ?_⟩
  · change Threaded _ _ _ (temps stack.values)
    rw [hstack, Operand.temps_cons, htemps, zero_add]
    exact h.threaded
  · change SlotsBelow _ stack.values
    rw [hstack]
    exact Operand.slotsBelow_cons.mpr ⟨hslots, h.slots⟩

theorem push_slot (h : before.Threads slotCount) (hslot : slot < slotCount)
    (hrun : Lowering.push place (.slot slot) before = .ok () after) : after.Threads slotCount :=
  h.push (Operand.temps_slot slot) (Operand.slotsBelow_slot.mpr hslot) hrun

/-- An assignment uses the operand on top of the stack. It waits off the stack while the references
to the local are pinned. -/
theorem assign (h : before.Threads slotCount) (hslot : slot < slotCount)
    (hrun : Lowering.assign place slot before = .ok () after) : after.Threads slotCount := by
  obtain ⟨value, stack, hstack, rfl⟩ := Lowering.assign_cases hrun
  obtain ⟨hlive, hcount, hthreaded, hslots⟩ := h
  rw [hstack, Operand.temps_cons, add_comm] at hthreaded
  rw [hstack] at hslots
  obtain ⟨hvalue, hbelow⟩ := Operand.slotsBelow_cons.mp hslots
  have hpinned := OperandStack.threaded_pinAll hslot stack.values _ hthreaded
  rw [add_comm] at hpinned
  refine ⟨hlive, hcount, ?_, fun other hother ↦ hbelow other ?_⟩
  · rw [Array.toList_push]
    exact hpinned.assign hvalue hslot
  · exact OperandStack.slot_mem_of_mem_pinAll stack.values hother

/-- An addition uses the two operands on top of the stack and puts its own temporary there. -/
theorem add (h : before.Threads slotCount) {offset : Nat}
    (hrun : Lowering.step { offset := offset, instruction := .add } before = .ok () after) :
    after.Threads slotCount := by
  obtain ⟨lhs, rhs, below, stack, hbefore, hstack, rfl⟩ := Lowering.add_cases h.live hrun
  obtain ⟨hlive, hcount, hthreaded, hslots⟩ := h
  have htaken : temps (rhs :: lhs :: below.values) = temps [lhs, rhs] + temps below.values := by
    rw [Operand.temps_cons rhs, Operand.temps_cons lhs, Operand.temps_cons lhs [rhs]]
    abel
  rw [hbefore, htaken] at hthreaded
  rw [hbefore] at hslots
  obtain ⟨hrhs, hslots⟩ := Operand.slotsBelow_cons.mp hslots
  obtain ⟨hlhs, hbelow⟩ := Operand.slotsBelow_cons.mp hslots
  refine ⟨hlive, hcount, ?_, ?_⟩
  · change Threaded _ _ _ (temps stack.values)
    rw [hstack, Operand.temps_cons, Array.toList_push]
    exact hthreaded.add (Operand.slotsBelow_cons.mpr ⟨hlhs, hrhs⟩)
  · change SlotsBelow _ stack.values
    rw [hstack]
    exact Operand.slotsBelow_cons.mpr ⟨by simp [SlotsBelow], hbelow⟩

theorem step (h : before.Threads slotCount) {located : Located}
    (hlive : located.instruction ≠ .unreachable)
    (hrun : Lowering.step located before = .ok () after) : after.Threads slotCount := by
  obtain ⟨offset, instruction⟩ := located
  cases instruction with
  | unreachable => exact absurd rfl hlive
  | nop =>
    obtain ⟨-, rfl⟩ := Success.pure_iff.mp hrun
    exact h
  | const value =>
    exact h.push (Operand.temps_const value) (by simp [SlotsBelow])
      (Lowering.of_whenLive h.live hrun)
  | localGet slot =>
    obtain ⟨hslot, hpush⟩ := Lowering.checked_iff.mp hrun
    exact h.push_slot (h.slotCount_eq ▸ hslot) (Lowering.of_whenLive h.live hpush)
  | localSet slot =>
    obtain ⟨hslot, hassign⟩ := Lowering.checked_iff.mp hrun
    exact h.assign (h.slotCount_eq ▸ hslot) (Lowering.of_whenLive h.live hassign)
  | localTee slot =>
    obtain ⟨hslot, htee⟩ := Lowering.checked_iff.mp hrun
    rw [h.slotCount_eq] at hslot
    obtain ⟨_, middle, hassign, hpush⟩ := Success.bind_iff.mp (Lowering.of_whenLive h.live htee)
    exact (h.assign hslot hassign).push_slot hslot hpush
  | add => exact h.add hrun

end Threads

/-- Either the temporaries that wait are those on the stack, or the code is dead and they are
lost. -/
def Accounted (slotCount : Nat) (builder : Builder) : Prop :=
  builder.Threads slotCount ∨
    builder.dead = true ∧
      ∃ waiting, Threaded slotCount builder.emitted.toList builder.nextTemp waiting

theorem Accounted.step {slotCount : Nat} {before after : Builder} (h : before.Accounted slotCount)
    {located : Located} (hrun : Lowering.step located before = .ok () after) :
    after.Accounted slotCount := by
  obtain hlive | ⟨hdead, waiting, hwaiting⟩ := h
  · by_cases htrap : located.instruction = .unreachable
    · rw [Lowering.step, htrap] at hrun
      cases hrun
      exact .inr ⟨rfl, _, hlive.threaded⟩
    · exact .inl (hlive.step htrap hrun)
  · obtain ⟨hdead, hemitted, hnext⟩ := Lowering.step_dead hdead hrun
    rw [← hemitted, ← hnext] at hwaiting
    exact .inr ⟨hdead, waiting, hwaiting⟩

end Builder

namespace Lowering

variable {place : Nat} {before after : Builder} {result : Terminator}

theorem terminator_keeps (h : terminator place before = .ok result after) :
    after.emitted = before.emitted ∧ after.nextTemp = before.nextTemp := by
  unfold terminator at h
  split at h
  · cases h
    exact ⟨rfl, rfl⟩
  · split at h
    · cases h
      exact ⟨rfl, rfl⟩
    · split_ifs at h
      cases h
      exact ⟨rfl, rfl⟩

/-- A terminator reads everything that is on the stack of live code. -/
theorem terminator_operands (h : terminator place before = .ok result after) :
    before.dead = true ∧ result = .trap ∨
      before.dead = false ∧ before.stack.values = result.operands := by
  obtain ⟨hdead, hresult, -⟩ | ⟨hlive, hvalues, rfl, -⟩ | ⟨operand, hlive, hvalues, rfl, -⟩ :=
    terminator_cases h
  · exact .inl ⟨hdead, hresult⟩
  · exact .inr ⟨hlive, hvalues⟩
  · exact .inr ⟨hlive, hvalues⟩

end Lowering

/-! ### Functions -/

namespace Definition

variable {definition : Definition} {before after : Builder} {function : Function}

theorem accounted_upTo {taken : List Located} (h : definition.upTo taken before = .ok () after) :
    after.Accounted definition.slotCount := by
  obtain ⟨-, hrun⟩ := upTo_iff.mp h
  refine Success.forM_keeps (Builder.Accounted definition.slotCount)
    (fun _ _ _ haccounted hstep ↦ haccounted.step hstep) taken _ after
    (.inl ⟨rfl, rfl, .nil, ?_⟩) hrun
  intro slot hslot
  cases hslot

/-- The code of a function that can be lowered is threaded. The temporaries that wait behind it are
those that the terminator reads, and others only if the function traps. -/
theorem threaded_lower (h : definition.lower before = .ok function after) :
    SlotsBelow function.slotCount function.terminator.operands ∧
      ∃ lost, Threaded function.slotCount function.instructions function.tempCount
          (temps function.terminator.operands + lost) ∧
        ∀ value, function.terminator = .ret value → lost = 0 := by
  obtain ⟨late, closed, terminator, hupTo, hclose, -, rfl⟩ := lower_iff.mp h
  obtain ⟨behind, -, -, hterminator⟩ := Lowering.close_iff.mp hclose
  obtain ⟨hemitted, hnext⟩ := Lowering.terminator_keeps hterminator
  dsimp only
  rw [hemitted, hnext]
  obtain hlive | ⟨hdead, waiting, hwaiting⟩ := accounted_upTo hupTo
  · obtain ⟨hdead, -⟩ | ⟨-, hvalues⟩ := Lowering.terminator_operands hterminator
    · rw [hlive.live] at hdead
      cases hdead
    · rw [← hvalues]
      refine ⟨hlive.slots, 0, ?_, fun _ _ ↦ rfl⟩
      rw [add_zero]
      exact hlive.threaded
  · obtain ⟨-, htrap⟩ | ⟨hlive, -⟩ := Lowering.terminator_operands hterminator
    · rw [htrap]
      refine ⟨fun slot hslot ↦ (List.not_mem_nil hslot).elim, waiting, ?_, fun value hvalue ↦ ?_⟩
      · rw [Terminator.operands, Operand.temps_nil, zero_add]
        exact hwaiting
      · cases hvalue
    · rw [hdead] at hlive
      cases hlive

/-- Assumes: a function that can be lowered, whatever the lowering was used for before. Its
instructions define the temporaries in the order of their numbers, and every temporary that an
instruction or the terminator reads was defined by an earlier instruction. No temporary is read more
than once, and if the function returns, each is read exactly once. All locals that the function
names are locals that it has. -/
theorem lower_singleAssignment (h : definition.lower before = .ok function after) :
    function.instructions.filterMap Instr.dest? = List.range function.tempCount ∧
    (∀ front instruction rest, function.instructions = front ++ instruction :: rest →
      ∀ temp, .temp temp ∈ instruction.operands → temp ∈ front.filterMap Instr.dest?) ∧
    (∀ temp, .temp temp ∈ function.terminator.operands →
      temp ∈ function.instructions.filterMap Instr.dest?) ∧
    (∀ temp, function.operands.count (.temp temp) ≤ 1) ∧
    (∀ value, function.terminator = .ret value →
      ∀ temp < function.tempCount, function.operands.count (.temp temp) = 1) ∧
    (∀ slot, .slot slot ∈ function.operands → slot < function.slotCount) ∧
    (∀ slot value, .assign slot value ∈ function.instructions → slot < function.slotCount) ∧
    function.slotCount =
      definition.signature.params.length + definition.body.locals.length := by
  obtain ⟨hslots, lost, hthreaded, hlost⟩ := threaded_lower h
  have hcounts : ∀ temp, function.operands.count (.temp temp) + lost.count temp =
      (Multiset.range function.tempCount).count temp := by
    intro temp
    rw [← hthreaded.accounted, ← add_assoc, ← Operand.temps_append, Multiset.count_add,
      Operand.count_temps]
    rfl
  refine ⟨hthreaded.dests, fun _ _ _ hcode _ ↦ hthreaded.defined_earlier hcode, ?_, ?_, ?_, ?_, ?_,
    ?_⟩
  · intro temp htemp
    rw [hthreaded.dests, List.mem_range]
    exact hthreaded.lt_of_mem_waiting (Multiset.mem_add.mpr (.inl (Operand.mem_temps.mpr htemp)))
  · intro temp
    have hrange := Multiset.nodup_iff_count_le_one.mp (Multiset.nodup_range function.tempCount) temp
    rw [← hcounts] at hrange
    exact (Nat.le_add_right _ _).trans hrange
  · intro value hvalue temp htemp
    have hrange := Multiset.count_eq_one_of_mem (Multiset.nodup_range function.tempCount)
      (Multiset.mem_range.mpr htemp)
    rw [← hcounts, hlost value hvalue, Multiset.count_zero, add_zero] at hrange
    exact hrange
  · intro slot hslot
    rcases List.mem_append.mp hslot with hslot | hslot
    · obtain ⟨instruction, hmem, hslot⟩ := List.mem_flatMap.mp hslot
      exact (hthreaded.slots_lt instruction hmem).1 slot hslot
    · exact hslots slot hslot
  · intro slot value hmem
    exact (hthreaded.slots_lt _ hmem).2 slot value rfl
  · obtain ⟨_, _, _, -, -, -, rfl⟩ := lower_iff.mp h
    rfl

/-- A body that overwrites its parameter while two references to it wait on the stack, and adds up
what it has. -/
def accumulating : Definition where
  index := 0
  typeIndex := 0
  signature := { params := [.i32], result := .i32 }
  body :=
    { locals := []
      code := [0x20, 0x00, 0x20, 0x00, 0x41, 0x05, 0x22, 0x00, 0x6a, 0x6a, 0x0b]
      codeOffset := 0 }

/-- Its linear code: both references become temporaries, and the additions define two more. -/
def accumulated : Function where
  index := 0
  typeIndex := 0
  params := [.i32]
  locals := []
  result := .i32
  instructions :=
    [.snapshot 0 0, .snapshot 1 0, .assign 0 (.const 5), .add 2 (.temp 1) (.slot 0),
      .add 3 (.temp 0) (.temp 2)]
  terminator := .ret (some (.temp 3))
  tempCount := 4

theorem lower_singleAssignment_accumulating :
    ∃ after, accumulating.lower (.ofCapacity 3) = .ok accumulated after ∧
      ∀ temp < 4, accumulated.operands.count (.temp temp) = 1 := by
  have hvalue : Success.value? (accumulating.lower (.ofCapacity 3)) = some accumulated := by
    decide +kernel
  obtain ⟨after, h⟩ := Success.exists_of_value? hvalue
  obtain ⟨-, -, -, -, hreturn, -⟩ := lower_singleAssignment h
  exact ⟨after, h, hreturn (some (.temp 3)) rfl⟩

end Definition

end StraightWasm.Linear
