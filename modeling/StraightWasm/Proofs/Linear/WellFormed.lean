import StraightWasm.Proofs.Linear.Actions
import StraightWasm.Proofs.StackCode.Spelling

/-!
# Which bodies can be lowered

The code of a body that can be lowered is a row of instructions and an `end` that is its last byte
(`Body.spells_iff`). The instructions themselves have to keep a discipline (`StackCode.WellFormed`).
Every local that is named exists. Up to the first `unreachable` there are enough operands for what
is popped and enough room for what is pushed, and if there is no `unreachable`, at most one operand
is left at the end. All of it is said of the depth that the instructions passed so far amount to
(`StackCode.depth`), not of a stack.

Each action of lowering succeeds under a condition on the depth and leads to another depth
(`Success.Decides`). One instruction is `Lowering.decides_step`, the instructions of a body are
`Lowering.decides_live` and `Lowering.decides_dead`, and `Definition.lower_iff_wellFormed` is about
the whole function.
-/

set_option autoImplicit false
set_option relaxedAutoImplicit false

namespace StraightWasm

/-! ### The discipline -/

namespace StackCode

variable {instructions : List Instruction}

namespace Instruction

/-- How many operands an instruction pops. -/
def pops : Instruction → Nat
  | .localSet _ | .localTee _ => 1
  | .add => 2
  | .unreachable | .nop | .const _ | .localGet _ => 0

/-- How many operands an instruction pushes. -/
def pushes : Instruction → Nat
  | .const _ | .localGet _ | .localTee _ | .add => 1
  | .unreachable | .nop | .localSet _ => 0

/-- The local that an instruction names. -/
def slot? : Instruction → Option Nat
  | .localGet slot | .localSet slot | .localTee slot => some slot
  | .unreachable | .nop | .const _ | .add => none

/-- Whether the local that an instruction names, if any, is one of the given number of locals. -/
def InRange (slots : Nat) (instruction : Instruction) : Prop :=
  ∀ slot ∈ instruction.slot?, slot < slots

theorem inRange_of_none {slots : Nat} {instruction : Instruction} (h : instruction.slot? = none) :
    instruction.InRange slots := by
  simp [InRange, h]

theorem inRange_iff_of_some {slots slot : Nat} {instruction : Instruction}
    (h : instruction.slot? = some slot) : instruction.InRange slots ↔ slot < slots := by
  simp [InRange, h]

end Instruction

/-- By how much instructions make a stack deeper. -/
def depth (instructions : List Instruction) : Int :=
  (instructions.map fun instruction ↦ (instruction.pushes : Int) - instruction.pops).sum

theorem depth_nil : depth [] = 0 :=
  rfl

theorem depth_cons (instruction : Instruction) (rest : List Instruction) :
    depth (instruction :: rest) = instruction.pushes - instruction.pops + depth rest :=
  List.sum_cons

/-- Whether instructions keep the discipline in a function with the given number of locals, on a
stack of the given capacity that holds some operands at the beginning. -/
structure WellFormed (slots capacity held : Nat) (instructions : List Instruction) : Prop where
  inRange : ∀ instruction ∈ instructions, instruction.InRange slots
  /-- Where the code is live, there is enough to pop. -/
  supplied : ∀ front instruction, front ++ [instruction] <+: instructions →
    .unreachable ∉ front → instruction.pops ≤ held + depth front
  /-- Where the code is live, the stack has room for what it holds. -/
  contained : ∀ front, front <+: instructions → .unreachable ∉ front →
    held + depth front ≤ capacity
  /-- If the end is live, at most one operand is left. -/
  settled : .unreachable ∉ instructions → held + depth instructions ≤ 1

section Discipline

variable {slots capacity held : Nat} {instruction : Instruction} {rest : List Instruction}

theorem WellFormed.held_le (h : WellFormed slots capacity held instructions) : held ≤ capacity := by
  have hcontained := h.contained [] List.nil_prefix List.not_mem_nil
  rw [depth_nil] at hcontained
  omega

theorem wellFormed_nil_iff : WellFormed slots capacity held [] ↔ held ≤ capacity ∧ held ≤ 1 := by
  constructor
  · intro h
    have hsettled := h.settled List.not_mem_nil
    rw [depth_nil] at hsettled
    exact ⟨h.held_le, by omega⟩
  · rintro ⟨hcapacity, hone⟩
    refine ⟨fun _ ↦ False.elim ∘ List.not_mem_nil, ?_, ?_, ?_⟩
    · intro front instruction hprefix
      simp at hprefix
    · intro front hprefix _
      rw [List.prefix_nil.mp hprefix]
      simpa [depth_nil] using hcapacity
    · intro _
      simpa [depth_nil] using hone

/-- Behind `unreachable` nothing is asked of the stack. -/
theorem wellFormed_unreachable_iff :
    WellFormed slots capacity held (.unreachable :: rest) ↔
      held ≤ capacity ∧ ∀ instruction ∈ rest, instruction.InRange slots := by
  -- The fronts that are live are the empty one and no others.
  have hlive : ∀ {front : List Instruction}, front <+: .unreachable :: rest →
      .unreachable ∉ front → front = [] := by
    intro front hprefix hnot
    obtain rfl | ⟨others, rfl, -⟩ := List.prefix_cons_iff.mp hprefix
    · rfl
    · exact absurd List.mem_cons_self hnot
  constructor
  · intro h
    exact ⟨h.held_le, fun instruction hmem ↦ h.inRange instruction (List.mem_cons_of_mem _ hmem)⟩
  · rintro ⟨hcapacity, hrange⟩
    refine ⟨?_, ?_, ?_, fun hnot ↦ absurd List.mem_cons_self hnot⟩
    · rintro instruction hmem slot hslot
      rcases List.mem_cons.mp hmem with rfl | hmem
      · cases hslot
      · exact hrange instruction hmem slot hslot
    · intro front instruction hprefix hnot
      obtain rfl := hlive ((List.prefix_append _ _).trans hprefix) hnot
      obtain ⟨rfl, -⟩ := List.cons_prefix_cons.mp hprefix
      simp [depth_nil, Instruction.pops]
    · intro front hprefix hnot
      obtain rfl := hlive hprefix hnot
      simpa [depth_nil] using hcapacity

/-- An instruction that goes on changes what the rest has to start from. -/
theorem wellFormed_cons_iff (hgoes : instruction ≠ .unreachable) :
    WellFormed slots capacity held (instruction :: rest) ↔
      instruction.InRange slots ∧ held ≤ capacity ∧ instruction.pops ≤ held ∧
        WellFormed slots capacity (held - instruction.pops + instruction.pushes) rest := by
  have hnot : ∀ {others : List Instruction}, .unreachable ∉ others →
      .unreachable ∉ instruction :: others := by
    intro others hothers hmem
    rcases List.mem_cons.mp hmem with heq | hmem
    · exact hgoes heq.symm
    · exact hothers hmem
  constructor
  · intro h
    have hpops := h.supplied [] instruction (List.prefix_append [instruction] rest)
      List.not_mem_nil
    rw [depth_nil] at hpops
    refine ⟨h.inRange instruction List.mem_cons_self, h.held_le, by omega, ?_, ?_, ?_, ?_⟩
    · exact fun other hmem ↦ h.inRange other (List.mem_cons_of_mem _ hmem)
    · intro front other hprefix hfront
      have hsupplied := h.supplied (instruction :: front) other
        (List.cons_prefix_cons.mpr ⟨rfl, hprefix⟩) (hnot hfront)
      rw [depth_cons] at hsupplied
      omega
    · intro front hprefix hfront
      have hcontained := h.contained (instruction :: front)
        (List.cons_prefix_cons.mpr ⟨rfl, hprefix⟩) (hnot hfront)
      rw [depth_cons] at hcontained
      omega
    · intro hrest
      have hsettled := h.settled (hnot hrest)
      rw [depth_cons] at hsettled
      omega
  · rintro ⟨hrange, hcapacity, hpops, h⟩
    refine ⟨?_, ?_, ?_, ?_⟩
    · intro other hmem
      rcases List.mem_cons.mp hmem with rfl | hmem
      · exact hrange
      · exact h.inRange other hmem
    · intro front other hprefix hfront
      cases front with
      | nil =>
        obtain ⟨rfl, -⟩ := List.cons_prefix_cons.mp hprefix
        simpa [depth_nil] using hpops
      | cons first others =>
        obtain ⟨rfl, hothers⟩ := List.cons_prefix_cons.mp hprefix
        have hsupplied := h.supplied others other hothers
          (fun hmem ↦ hfront (List.mem_cons_of_mem _ hmem))
        rw [depth_cons]
        omega
    · intro front hprefix hfront
      obtain rfl | ⟨others, rfl, hothers⟩ := List.prefix_cons_iff.mp hprefix
      · simpa [depth_nil] using hcapacity
      · have hcontained := h.contained others hothers
          (fun hmem ↦ hfront (List.mem_cons_of_mem _ hmem))
        rw [depth_cons]
        omega
    · intro hrest
      have hsettled := h.settled (fun hmem ↦ hrest (List.mem_cons_of_mem _ hmem))
      rw [depth_cons]
      omega

end Discipline

end StackCode

/-! ### Conditions of success -/

namespace Success

variable {ε σ α β : Type}

/-- Whether a run succeeds if and only if a condition holds, and then leads to a state of a kind. -/
def Decides (condition : Prop) (Reached : σ → Prop) (run : EStateM.Result ε σ α) : Prop :=
  Ends (fun _ after ↦ condition ∧ Reached after) (fun _ ↦ ¬condition) run

variable {condition condition' : Prop} {Reached Reached' : σ → Prop}
  {run : EStateM.Result ε σ α}

theorem Decides.succeeds_iff (h : Decides condition Reached run) :
    (∃ value after, run = .ok value after) ↔ condition := by
  cases run with
  | ok value after => exact ⟨fun _ ↦ h.1, fun _ ↦ ⟨value, after, rfl⟩⟩
  | error failure stop =>
    refine ⟨?_, fun hcondition ↦ absurd hcondition h⟩
    rintro ⟨value, after, hrun⟩
    cases hrun

theorem Decides.congr (h : Decides condition Reached run) (hiff : condition ↔ condition') :
    Decides condition' Reached run := by
  cases run with
  | ok value after => exact ⟨hiff.mp h.1, h.2⟩
  | error failure stop => exact fun hcondition ↦ h (hiff.mpr hcondition)

/-- A sequence succeeds if and only if its first step does and what follows does from there. -/
theorem Decides.bind {first : EStateM ε σ α} {second : α → EStateM ε σ β} {before : σ}
    (hfirst : Decides condition Reached (first before))
    (hsecond : ∀ value middle, condition → Reached middle →
      Decides condition' Reached' (second value middle)) :
    Decides (condition ∧ condition') Reached' ((first >>= second) before) := by
  change Decides _ Reached' (EStateM.bind first second before)
  unfold EStateM.bind
  cases hrun : first before with
  | ok value middle =>
    rw [hrun] at hfirst
    exact (hsecond value middle hfirst.1 hfirst.2).congr ⟨fun h ↦ ⟨hfirst.1, h⟩, And.right⟩
  | error failure stop =>
    rw [hrun] at hfirst
    exact fun h ↦ hfirst h.1

/-- A loop and what follows it, in terms of the first round. -/
theorem Decides.forM_cons {step : α → EStateM ε σ PUnit} {second : EStateM ε σ β} {item : α}
    {rest : List α} {before : σ} (hfirst : Decides condition Reached (step item before))
    (hrest : ∀ middle, condition → Reached middle →
      Decides condition' Reached' ((rest.forM step >>= fun _ ↦ second) middle)) :
    Decides (condition ∧ condition') Reached'
      (((item :: rest).forM step >>= fun _ ↦ second) before) := by
  have hcons : ((item :: rest).forM step >>= fun _ ↦ second) =
      step item >>= fun _ ↦ rest.forM step >>= fun _ ↦ second := bind_assoc _ _ _
  rw [hcons]
  exact hfirst.bind fun _ ↦ hrest

end Success

open Success (Decides)

namespace Linear

open StackCode (Located Instruction WellFormed)

/-- Whether a lowering is in live code of a function with the given number of locals and has a stack
of the given depth and capacity. -/
structure Builder.Holds (slots depth capacity : Nat) (builder : Builder) : Prop where
  live : builder.dead = false
  slots_eq : builder.slotCount = slots
  depth_eq : builder.stack.depth = depth
  capacity_eq : builder.stack.capacity = capacity

theorem Builder.Holds.depth_le {slots depth capacity : Nat} {builder : Builder}
    (h : builder.Holds slots depth capacity) : depth ≤ capacity := by
  rw [← h.depth_eq, ← h.capacity_eq]
  exact builder.stack.depth_le

namespace Lowering

variable {place slot slots depth capacity : Nat} {before : Builder}

theorem decides_push (operand : Operand) (h : before.Holds slots depth capacity) :
    Decides (depth < capacity) (Builder.Holds slots (depth + 1) capacity)
      (push place operand before) := by
  unfold push OperandStack.push
  by_cases hroom : before.stack.depth < before.stack.capacity
  · rw [dif_pos hroom]
    rw [h.depth_eq, h.capacity_eq] at hroom
    exact ⟨hroom, h.live, h.slots_eq, congrArg (· + 1) h.depth_eq, h.capacity_eq⟩
  · rw [dif_neg hroom]
    rw [h.depth_eq, h.capacity_eq] at hroom
    exact hroom

theorem decides_pop (h : before.Holds slots depth capacity) :
    Decides (0 < depth) (Builder.Holds slots (depth - 1) capacity) (pop place before) := by
  unfold pop
  cases hpop : before.stack.pop? with
  | none =>
    intro hpos
    rw [← h.depth_eq, OperandStack.depth_eq_zero hpop] at hpos
    exact Nat.lt_irrefl 0 hpos
  | some found =>
    have hdepth := h.depth_eq
    rw [OperandStack.depth_pop? hpop] at hdepth
    refine ⟨?_, h.live, h.slots_eq, ?_, (OperandStack.capacity_pop? hpop).trans h.capacity_eq⟩
    · exact hdepth ▸ Nat.succ_pos _
    · exact Nat.eq_sub_of_add_eq hdepth

theorem decides_assign (h : before.Holds slots depth capacity) :
    Decides (0 < depth) (Builder.Holds slots (depth - 1) capacity) (assign place slot before) := by
  refine ((decides_pop h).bind fun value middle _ hmiddle ↦ ?_).congr
    (iff_of_eq (and_true _))
  exact ⟨trivial, hmiddle.live, hmiddle.slots_eq, hmiddle.depth_eq, hmiddle.capacity_eq⟩

/-- Emitting a sum and pushing its temporary needs room for the temporary. -/
theorem decides_sum (lhs rhs : Operand) (h : before.Holds slots depth capacity) :
    Decides (depth < capacity) (Builder.Holds slots (depth + 1) capacity)
      ((do
        let dest ← newTemp
        emit (.add dest lhs rhs)
        push place (.temp dest)) before) := by
  have hlate : Builder.Holds slots depth capacity
      { before with
        emitted := before.emitted.push (.add before.nextTemp lhs rhs)
        nextTemp := before.nextTemp + 1 } :=
    ⟨h.live, h.slots_eq, h.depth_eq, h.capacity_eq⟩
  exact decides_push (.temp before.nextTemp) hlate

theorem decides_whenLive {condition : Prop} {Reached : Builder → Prop} {action : Lowering Unit}
    (hlive : before.dead = false) (h : Decides condition Reached (action before)) :
    Decides condition Reached (whenLive action before) := by
  rw [whenLive_of_live hlive]
  exact h

/-- An action on a local decides in addition whether there is the local. -/
theorem decides_checked {condition : Prop} {Reached : Builder → Prop} {action : Lowering Unit}
    (hslots : before.slotCount = slots) (h : Decides condition Reached (action before)) :
    Decides (slot < slots ∧ condition) Reached
      ((do
        checkSlot place slot
        action) before) := by
  have hcheck : Decides (slot < slots) (· = before) (checkSlot place slot before) := by
    unfold checkSlot
    rw [hslots]
    split_ifs with hslot
    · exact ⟨hslot, rfl⟩
    · exact hslot
  exact hcheck.bind fun _ middle _ hmiddle ↦ hmiddle ▸ h

/-- An instruction in live code succeeds if and only if the local that it names exists, there is
enough to pop, and there is room for what it pushes. -/
theorem decides_step {located : Located} (hgoes : located.instruction ≠ .unreachable)
    (h : before.Holds slots depth capacity) :
    Decides
      (located.instruction.InRange slots ∧ located.instruction.pops ≤ depth ∧
        depth - located.instruction.pops + located.instruction.pushes ≤ capacity)
      (Builder.Holds slots (depth - located.instruction.pops + located.instruction.pushes) capacity)
      (step located before) := by
  have hdepth := h.depth_le
  obtain ⟨offset, instruction⟩ := located
  cases instruction with
  | unreachable => exact absurd rfl hgoes
  | nop => exact ⟨⟨Instruction.inRange_of_none rfl, Nat.zero_le _, hdepth⟩, h⟩
  | const value =>
    refine (decides_whenLive h.live (decides_push (.const value) h)).congr ?_
    rw [iff_true_intro (Instruction.inRange_of_none rfl), true_and]
    dsimp only [Instruction.pops, Instruction.pushes]
    omega
  | localGet slot =>
    refine (decides_checked h.slots_eq
      (decides_whenLive h.live (decides_push (.slot slot) h))).congr ?_
    rw [Instruction.inRange_iff_of_some rfl]
    dsimp only [Instruction.pops, Instruction.pushes]
    omega
  | localSet slot =>
    refine (decides_checked h.slots_eq (decides_whenLive h.live (decides_assign h))).congr ?_
    rw [Instruction.inRange_iff_of_some rfl]
    dsimp only [Instruction.pops, Instruction.pushes]
    omega
  | localTee slot =>
    refine (decides_checked h.slots_eq (decides_whenLive h.live ((decides_assign h).bind
      fun _ _ _ hmiddle ↦ decides_push (.slot slot) hmiddle))).congr ?_
    rw [Instruction.inRange_iff_of_some rfl]
    dsimp only [Instruction.pops, Instruction.pushes]
    omega
  | add =>
    refine (decides_whenLive h.live ((decides_pop h).bind fun rhs _ _ hrhs ↦
      (decides_pop hrhs).bind fun lhs _ _ hlhs ↦ decides_sum lhs rhs hlhs)).congr ?_
    rw [iff_true_intro (Instruction.inRange_of_none rfl), true_and]
    dsimp only [Instruction.pops, Instruction.pushes]
    omega

/-- Whether a lowering is in dead code of a function with the given number of locals. -/
def Idles (slots : Nat) (builder : Builder) : Prop :=
  builder.dead = true ∧ builder.slotCount = slots

/-- In dead code an instruction succeeds if and only if the local that it names exists. -/
theorem decides_step_dead {located : Located} (h : Idles slots before) :
    Decides (located.instruction.InRange slots) (Idles slots) (step located before) := by
  have hidle : ∀ {action : Lowering Unit},
      Decides True (Idles slots) (whenLive action before) := by
    intro action
    rw [whenLive_of_dead h.1]
    exact ⟨trivial, h⟩
  obtain ⟨offset, instruction⟩ := located
  cases instruction with
  | unreachable => exact ⟨Instruction.inRange_of_none rfl, rfl, h.2⟩
  | nop => exact ⟨Instruction.inRange_of_none rfl, h⟩
  | const value | add =>
    exact hidle.congr (iff_of_true trivial (Instruction.inRange_of_none rfl))
  | localGet slot | localSet slot | localTee slot =>
    refine (decides_checked h.2 hidle).congr ?_
    rw [Instruction.inRange_iff_of_some rfl, and_true]

theorem decides_terminator (h : before.Holds slots depth capacity) :
    Decides (depth ≤ 1) (fun _ ↦ True) (terminator place before) := by
  have hdepth := h.depth_eq
  unfold terminator
  rw [if_neg (ne_true_of_eq_false h.live)]
  cases hpop : before.stack.pop? with
  | none =>
    rw [OperandStack.depth_eq_zero hpop] at hdepth
    exact ⟨by omega, trivial⟩
  | some found =>
    rw [OperandStack.depth_pop? hpop] at hdepth
    dsimp only
    split_ifs with hone
    · exact ⟨by omega, trivial⟩
    · intro hle
      omega

/-- The instructions of a body in dead code, and its end. -/
theorem decides_dead (place : Nat) (located : List Located) :
    ∀ {before : Builder}, Idles slots before →
      Decides
        (∀ instruction ∈ located.map Located.instruction, instruction.InRange slots)
        (fun _ ↦ True)
        ((do
          located.forM step
          terminator place) before) := by
  induction located with
  | nil =>
    intro before h
    change Decides _ _ (terminator place before)
    unfold terminator
    rw [if_pos h.1]
    exact ⟨fun _ ↦ False.elim ∘ List.not_mem_nil, trivial⟩
  | cons first rest ih =>
    intro before h
    refine ((decides_step_dead h).forM_cons fun middle _ hmiddle ↦ ih hmiddle).congr ?_
    rw [List.map_cons, List.forall_mem_cons]

/-- The instructions of a body in live code, and its end. -/
theorem decides_live (place : Nat) (located : List Located) :
    ∀ {before : Builder} {depth : Nat}, before.Holds slots depth capacity →
      Decides (WellFormed slots capacity depth (located.map Located.instruction))
        (fun _ ↦ True)
        ((do
          located.forM step
          terminator place) before) := by
  induction located with
  | nil =>
    intro before depth h
    refine (decides_terminator h).congr ?_
    rw [List.map_nil, StackCode.wellFormed_nil_iff]
    exact (and_iff_right h.depth_le).symm
  | cons first rest ih =>
    intro before depth h
    rw [List.map_cons]
    by_cases hgoes : first.instruction = .unreachable
    · have hdead : Decides True (Idles slots) (step first before) := by
        rw [step, hgoes]
        exact ⟨trivial, rfl, h.slots_eq⟩
      refine (hdead.forM_cons fun middle _ hmiddle ↦ decides_dead place rest hmiddle).congr ?_
      rw [hgoes, StackCode.wellFormed_unreachable_iff]
      exact and_congr_left' (iff_of_true trivial h.depth_le)
    · refine ((decides_step hgoes h).forM_cons fun middle _ hmiddle ↦ ih hmiddle).congr ?_
      rw [StackCode.wellFormed_cons_iff hgoes]
      constructor
      · rintro ⟨⟨hrange, hpops, -⟩, hrest⟩
        exact ⟨hrange, h.depth_le, hpops, hrest⟩
      · rintro ⟨hrange, -, hpops, hrest⟩
        exact ⟨⟨hrange, hpops, hrest.held_le⟩, hrest⟩

end Lowering

namespace Definition

/-- A function can be lowered if and only if its locals can be counted, its code is a row of written
instructions and an `end`, and the instructions keep the discipline. -/
theorem lower_iff_wellFormed (definition : Definition) (builder : Builder) :
    (∃ function after, definition.lower builder = .ok function after) ↔
      definition.slotCount < UInt32.size ∧
        ∃ instructions front, definition.body.code = front ++ [0x0b] ∧
          Form.Row Instruction.Written definition.body.codeOffset instructions front ∧
          WellFormed definition.slotCount builder.stack.capacity 0 instructions := by
  have hentered : Builder.Holds definition.slotCount 0 builder.stack.capacity
      (definition.entered builder) := ⟨rfl, rfl, rfl, rfl⟩
  constructor
  · rintro ⟨function, after, h⟩
    obtain ⟨late, closed, result, hupTo, hclose, -⟩ := lower_iff.mp h
    obtain ⟨hcount, hforM⟩ := upTo_iff.mp hupTo
    obtain ⟨behind, hending, hempty, hterminator⟩ := Lowering.close_iff.mp hclose
    obtain ⟨front, hcode, hrow⟩ :=
      (Body.spells_iff definition.index).mpr ⟨behind, hending, hempty, rfl⟩
    refine ⟨hcount, _, front, hcode, hrow, (Lowering.decides_live behind.offset _
      hentered).succeeds_iff.mp ⟨result, closed, ?_⟩⟩
    exact Success.bind_iff.mpr ⟨(), late, hforM, hterminator⟩
  · rintro ⟨hcount, _, front, hcode, hrow, hformed⟩
    obtain ⟨behind, hending, hempty, rfl⟩ :=
      (Body.spells_iff definition.index).mp ⟨front, hcode, hrow⟩
    obtain ⟨result, closed, hrun⟩ :=
      (Lowering.decides_live behind.offset _ hentered).succeeds_iff.mpr hformed
    obtain ⟨_, late, hforM, hterminator⟩ := Success.bind_iff.mp hrun
    exact ⟨_, _, lower_iff.mpr ⟨late, closed, result, upTo_iff.mpr ⟨hcount, hforM⟩,
      Lowering.close_iff.mpr ⟨behind, hending, hempty, hterminator⟩, rfl, rfl⟩⟩

end Definition

end Linear

end StraightWasm
