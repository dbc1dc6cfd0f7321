import Mathlib.Data.Finset.Card
import StraightWasm.Proofs.Machine.Demand
import StraightWasm.Proofs.Machine.Footprint
import StraightWasm.Proofs.Machine.NoAliasing

/-!
# The shape of machine code

The code of a function ends in its only return or trap. Up to there it consists of plain
instructions, which load a constant or move or add two different registers (`Instr.Plain`): a move
fills a register that nobody held, and the operands of an addition are in the hand together.

The registers that code touches are the ones that it was given for its parameters, those that it
writes and those that it reads (`touched`). They are exactly the registers that were handed out,
because the code writes all of these and reads nothing else.

Under the monotonic strategy no register comes back. So each one behind the parameters is filled
once, at the moment when it is handed out, and a parameter is never overwritten
(`Emitter.SingleFill`): what an addition overwrites comes out of the hand, and no register of a
parameter ever gets there. `emitFunction_shape` puts all of it together.
-/

set_option autoImplicit false
set_option relaxedAutoImplicit false

namespace StraightWasm.Machine

open Linear (Frame Operand Terminator)

namespace Instr

/-- Whether an instruction leaves the function. -/
def isExit : Instr → Bool
  | ret _ => true
  | trap => true
  | _ => false

/-- Whether an instruction goes on and does not move or add a register to itself. -/
def Plain : Instr → Prop
  | load _ _ => True
  | move dest source => dest ≠ source
  | add dest source => dest ≠ source
  | ret _ => False
  | trap => False

theorem Plain.isExit_eq {instruction : Instr} (h : instruction.Plain) :
    instruction.isExit = false := by
  cases instruction with
  | load | move | add => rfl
  | ret | trap => exact h.elim

/-- Whether an instruction fills a register with a constant or with a copy. -/
def fills (register : Nat) (instruction : Instr) : Bool :=
  instruction.isFill && instruction.dest? == some register

end Instr

/-- The registers of the parameters and those that code writes or reads. -/
def touched (params : Nat) (code : List Instr) : Finset Nat :=
  Finset.range params ∪
    (code.flatMap fun instruction ↦ instruction.dest?.toList ++ instruction.sources).toFinset

/-- If code reads only what was written, it touches only what is written. -/
theorem mem_touched_iff {params : Nat} {code : List Instr} (h : ReadsWritten params code)
    {register : Nat} : register ∈ touched params code ↔ Written params code register := by
  simp only [touched, Finset.mem_union, Finset.mem_range, List.mem_toFinset, List.mem_flatMap,
    List.mem_append, Option.mem_toList]
  constructor
  · rintro (hparam | ⟨instruction, hmem, hdest | hsource⟩)
    · exact .inl hparam
    · exact .inr ⟨instruction, hmem, hdest⟩
    · obtain ⟨front, rest, rfl⟩ := List.append_of_mem hmem
      rcases h front instruction rest rfl register hsource with hparam | ⟨earlier, hearlier, hdest⟩
      · exact .inl hparam
      · exact .inr ⟨earlier, List.mem_append_left _ hearlier, hdest⟩
  · rintro (hparam | ⟨instruction, hmem, hdest⟩)
    · exact .inl hparam
    · exact .inr ⟨instruction, hmem, .inl hdest⟩

/-- What holds of all the code so far and of the next instruction holds of all the code then. -/
theorem forall_mem_push {Holds : Instr → Prop} {code : Array Instr} {instruction : Instr}
    (hcode : ∀ other ∈ code.toList, Holds other) (hlast : Holds instruction) :
    ∀ other ∈ (code.push instruction).toList, Holds other := by
  rw [Array.toList_push]
  exact List.forall_mem_append.mpr ⟨hcode, List.forall_mem_singleton.mpr hlast⟩

namespace Emitter

variable {frame : Frame} {hand : List Nat} {before after : Emitter} {register params : Nat}

/-! ### Plain instructions -/

/-- Whether all the code so far is plain. -/
def Plain (emitter : Emitter) : Prop :=
  ∀ instruction ∈ emitter.code.toList, instruction.Plain

theorem Plain.emit (h : before.Plain) (instruction : Instr) (pool : Pool)
    (hplain : instruction.Plain) :
    Plain { before with pool := pool, code := before.code.push instruction } :=
  forall_mem_push h hplain

theorem Plain.intoRegister (h : before.Plain) (horderly : before.Orderly frame hand)
    {operand : Operand} (hrun : Emission.intoRegister frame operand before = .ok register after) :
    after.Plain := by
  obtain ⟨value, pool, -, hpool, rfl⟩ | ⟨slot, pool, -, -, hpool, rfl⟩ | ⟨temp, -, -, rfl⟩ :=
    Emission.intoRegister_cases hrun
  · exact h.emit (.load register value) pool trivial
  · refine h.emit _ pool ?_
    unfold Emission.copyInstr
    cases hsource : before.bindings.register? slot with
    | none => exact trivial
    | some source =>
      -- The source is lent to its local, and the register that comes from the pool was not lent.
      have hlent := horderly.apportioned.lent (.inr ⟨.slot slot, hsource⟩)
      rintro rfl
      exact (Pool.lent_acquire? hpool).1 hlent
  · exact h

theorem Plain.step (h : before.Plain) (horderly : before.Orderly frame [])
    {instruction : Linear.Instr} (hrun : Emission.step frame instruction before = .ok () after) :
    after.Plain := by
  cases instruction with
  | snapshot dest slot =>
    obtain ⟨register, middle, hcopy, -, rfl⟩ := Emission.snapshot_cases hrun
    have hmiddle := h.intoRegister horderly hcopy
    exact hmiddle
  | assign slot value =>
    obtain ⟨-, register, middle, hvalue, rfl⟩ := Emission.assign_cases hrun
    have hmiddle := h.intoRegister horderly hvalue
    exact hmiddle
  | add dest lhs rhs =>
    obtain ⟨left, middle, right, late, hleft, hright, -, rfl⟩ := Emission.add_cases hrun
    have hmiddle := horderly.intoRegister hleft
    have hlate := hmiddle.intoRegister hright
    have hapart : left ≠ right := by
      have hnodup := hlate.apportioned.hand_nodup
      simp only [List.nodup_cons, List.mem_singleton] at hnodup
      exact fun heq ↦ hnodup.1 heq.symm
    have hplain := (h.intoRegister horderly hleft).intoRegister hmiddle hright
    have hadded := hplain.emit (.add left right) (late.pool.release right) hapart
    exact hadded

/-- What a terminator emits last. -/
inductive Closes : Terminator → Instr → Prop
  | ret (operand : Operand) (source : Nat) : Closes (.ret (some operand)) (.ret source)
  | trap : Closes .trap .trap

/-- What a terminator emits last is an exit, and it tells which kind of terminator it was. -/
theorem Closes.isExit_and {terminator : Terminator} {last : Instr} (h : Closes terminator last) :
    last.isExit = true ∧
      ((∃ source, last = .ret source) ↔ ∃ operand, terminator = .ret (some operand)) ∧
      (last = .trap ↔ terminator = .trap) := by
  cases h with
  | ret operand source => simp [Instr.isExit]
  | trap => simp [Instr.isExit]

/-- A terminator puts one exit behind plain code. -/
theorem Plain.finish (h : before.Plain) (horderly : before.Orderly frame [])
    {terminator : Terminator} (hrun : Emission.finish frame terminator before = .ok () after) :
    ∃ front last, after.code.toList = front ++ [last] ∧
      (∀ instruction ∈ front, instruction.Plain) ∧ Closes terminator last := by
  obtain ⟨operand, source, middle, rfl, hreturned, rfl⟩ | ⟨rfl, rfl⟩ := Emission.finish_cases hrun
  · refine ⟨middle.code.toList, .ret source, Array.toList_push, ?_, .ret operand source⟩
    obtain ⟨slot, -, -, rfl⟩ | hoperand := Emission.returned_cases hreturned
    · exact h
    · exact h.intoRegister horderly hoperand
  · exact ⟨before.code.toList, .trap, Array.toList_push, h, .trap⟩

/-! ### The monotonic strategy -/

/-- The state of an emission under the monotonic strategy: only registers behind the parameters are
in the hand, held by temporaries or written, and each of these that was handed out has been filled
once. -/
structure SingleFill (params : Nat) (hand : List Nat) (emitter : Emitter) : Prop where
  strategy : emitter.pool.strategy = .monotonic
  params_le : params ≤ emitter.pool.used
  hand_ge : ∀ register ∈ hand, params ≤ register
  temps_ge : ∀ {temp register : Nat}, emitter.temps[temp]? = some register → params ≤ register
  dests_ge : ∀ instruction ∈ emitter.code.toList, ∀ register ∈ instruction.dest?,
    params ≤ register
  fills : ∀ register, emitter.code.toList.countP (Instr.fills register) =
    if params ≤ register ∧ register < emitter.pool.used then 1 else 0

namespace SingleFill

/-- A register that was just acquired comes into the hand and is filled. -/
theorem fill (h : before.SingleFill params hand) {pool : Pool} {instruction : Instr}
    (hacquire : before.pool.acquire? = some (register, pool))
    (hfill : instruction.isFill = true) (hdest : instruction.dest? = some register) :
    SingleFill params (register :: hand)
      { before with pool := pool, code := before.code.push instruction } := by
  obtain ⟨hstrategy, -⟩ := Pool.sameSettings_acquire? hacquire
  obtain ⟨rfl, hused⟩ := Pool.acquire?_of_monotonic h.strategy hacquire
  have hle := h.params_le
  refine ⟨hstrategy.trans h.strategy, ?_, ?_, h.temps_ge, ?_, ?_⟩
  · rw [hused]
    omega
  · exact List.forall_mem_cons.mpr ⟨hle, h.hand_ge⟩
  · refine forall_mem_push h.dests_ge fun number hnumber ↦ ?_
    rw [hdest] at hnumber
    cases hnumber
    exact hle
  · intro number
    have hone : Instr.fills number instruction = decide (before.pool.used = number) := by
      simp [Instr.fills, hfill, hdest, beq_eq_decide]
    rw [Array.toList_push, List.countP_append, h.fills, List.countP_singleton, hone, hused]
    by_cases hnumber : before.pool.used = number
    · subst hnumber
      simp [hle]
    · have hlt : number < before.pool.used + 1 ↔ number < before.pool.used := by omega
      simp [hnumber, hlt]

theorem intoRegister (h : before.SingleFill params hand) {operand : Operand}
    (hrun : Emission.intoRegister frame operand before = .ok register after) :
    after.SingleFill params (register :: hand) := by
  obtain ⟨value, pool, -, hpool, rfl⟩ | ⟨slot, pool, -, -, hpool, rfl⟩ | ⟨temp, -, htemp, rfl⟩ :=
    Emission.intoRegister_cases hrun
  · exact h.fill hpool rfl rfl
  · unfold Emission.copyInstr
    cases before.bindings.register? slot with
    | none => exact h.fill hpool rfl rfl
    | some source => exact h.fill hpool rfl rfl
  · refine ⟨h.strategy, h.params_le, ?_, ?_, h.dests_ge, h.fills⟩
    · exact List.forall_mem_cons.mpr ⟨h.temps_ge htemp, h.hand_ge⟩
    · intro other number hother
      rw [Std.TreeMap.getElem?_erase] at hother
      split_ifs at hother
      exact h.temps_ge hother

/-- An instruction that fills nothing and writes, if anything, a register in the hand. -/
theorem emit (h : before.SingleFill params hand) (instruction : Instr)
    (hfill : instruction.isFill = false) (hdest : ∀ register ∈ instruction.dest?, register ∈ hand) :
    SingleFill params hand { before with code := before.code.push instruction } := by
  refine ⟨h.strategy, h.params_le, h.hand_ge, h.temps_ge, ?_, ?_⟩
  · exact forall_mem_push h.dests_ge fun number hnumber ↦ h.hand_ge number (hdest number hnumber)
  · intro number
    rw [Array.toList_push, List.countP_append, h.fills, List.countP_singleton]
    simp [Instr.fills, hfill]

theorem define (h : before.SingleFill params hand) (hregister : register ∈ hand) (temp : Nat) :
    SingleFill params [] { before with temps := before.temps.insert temp register } := by
  refine ⟨h.strategy, h.params_le, fun _ ↦ False.elim ∘ List.not_mem_nil, ?_, h.dests_ge,
    h.fills⟩
  intro other number hother
  rw [Std.TreeMap.getElem?_insert] at hother
  split_ifs at hother
  · cases hother
    exact h.hand_ge register hregister
  · exact h.temps_ge hother

theorem step (h : before.SingleFill params []) {instruction : Linear.Instr}
    (hrun : Emission.step frame instruction before = .ok () after) :
    after.SingleFill params [] := by
  cases instruction with
  | snapshot dest slot =>
    obtain ⟨register, middle, hcopy, -, rfl⟩ := Emission.snapshot_cases hrun
    exact (h.intoRegister hcopy).define List.mem_cons_self dest
  | assign slot value =>
    obtain ⟨-, register, middle, hvalue, rfl⟩ := Emission.assign_cases hrun
    have hmiddle := h.intoRegister hvalue
    have hpool : Emission.releasePrevious (middle.bindings.register? slot) middle.pool =
        middle.pool := by
      unfold Emission.releasePrevious
      cases middle.bindings.register? slot with
      | none => rfl
      | some old => exact Pool.release_of_monotonic hmiddle.strategy old
    rw [hpool]
    exact ⟨hmiddle.strategy, hmiddle.params_le,
      fun _ ↦ False.elim ∘ List.not_mem_nil, hmiddle.temps_ge, hmiddle.dests_ge, hmiddle.fills⟩
  | add dest lhs rhs =>
    obtain ⟨left, middle, right, late, hleft, hright, -, rfl⟩ := Emission.add_cases hrun
    have hlate := (h.intoRegister hleft).intoRegister hright
    have hmem : left ∈ [right, left] := List.mem_cons_of_mem right List.mem_cons_self
    rw [Pool.release_of_monotonic hlate.strategy]
    refine (hlate.emit (.add left right) rfl fun register hregister ↦ ?_).define hmem dest
    cases hregister
    exact hmem

theorem finish (h : before.SingleFill params []) {terminator : Terminator}
    (hrun : Emission.finish frame terminator before = .ok () after) :
    ∃ hand, after.SingleFill params hand := by
  obtain ⟨operand, source, middle, -, hreturned, rfl⟩ | ⟨-, rfl⟩ := Emission.finish_cases hrun
  · obtain ⟨slot, -, -, rfl⟩ | hoperand := Emission.returned_cases hreturned
    · exact ⟨[], h.emit (.ret source) rfl fun _ hregister ↦ nomatch hregister⟩
    · exact ⟨[source], (h.intoRegister hoperand).emit (.ret source) rfl
        fun _ hregister ↦ nomatch hregister⟩
  · exact ⟨[], h.emit .trap rfl fun _ hregister ↦ nomatch hregister⟩

end SingleFill

/-- At the call the registers that were handed out are those of the parameters. -/
theorem Placed.singleFill {pool : Pool} {count : Nat} {emitter : Emitter}
    (h : emitter.Placed frame pool count) (hstrategy : pool.strategy = .monotonic) :
    emitter.SingleFill count [] where
  strategy := h.settings.1.trans hstrategy
  params_le := h.used.ge
  hand_ge := fun _ ↦ False.elim ∘ List.not_mem_nil
  temps_ge := fun {temp} _ htemp ↦ by
    rw [h.temps] at htemp
    cases htemp
  dests_ge := by
    simp [h.code]
  fills := by
    intro register
    rw [h.code, h.used, if_neg (by omega)]
    rfl

end Emitter

/-! ### Functions -/

section Function

variable {function : Linear.Function} {pool next : Pool} {code : List Instr}

/-- The code of a function is plain up to its last instruction, which the terminator emits. -/
theorem Emission.plain_body {after : Emitter}
    (h : body function (.start function.slotCount pool) = .ok () after) :
    ∃ front last, after.code.toList = front ++ [last] ∧
      (∀ instruction ∈ front, instruction.Plain) ∧ Emitter.Closes function.terminator last := by
  obtain ⟨_, placed, hplace, h⟩ := Success.bind_iff.mp h
  obtain ⟨_, late, hinstructions, hfinish⟩ := Success.bind_iff.mp h
  have hplaced := placed_params hplace
  have hplain : placed.Plain := by
    intro instruction hmem
    rw [hplaced.code] at hmem
    cases hmem
  have hlate : late.Orderly (frameOf function) [] ∧ late.Plain :=
    Success.forM_keeps (fun emitter ↦ emitter.Orderly (frameOf function) [] ∧ emitter.Plain)
      (fun _ _ _ hkept hstep ↦ ⟨hkept.1.step hstep, hkept.2.step hkept.1 hstep⟩) _ placed late
      ⟨hplaced.orderly, hplain⟩ hinstructions
  exact hlate.2.finish hlate.1 hfinish

/-- Under the monotonic strategy every register behind the parameters is filled once. -/
theorem Emission.singleFill_body {after : Emitter} (hstrategy : pool.strategy = .monotonic)
    (h : body function (.start function.slotCount pool) = .ok () after) :
    ∃ hand, after.SingleFill function.params.length hand := by
  obtain ⟨_, placed, hplace, h⟩ := Success.bind_iff.mp h
  obtain ⟨_, late, hinstructions, hfinish⟩ := Success.bind_iff.mp h
  have hlate : late.SingleFill function.params.length [] :=
    Success.forM_keeps (Emitter.SingleFill function.params.length [])
      (fun _ _ _ hkept hstep ↦ hkept.step hstep) _ placed late
      ((placed_params hplace).singleFill hstrategy) hinstructions
  exact hlate.finish hfinish

/-- The shape of the code of every function that can be emitted. It has one exit, which is its last
instruction: a return if the function returns a value, and a trap if it traps. It reads only
parameters and what it wrote before. The registers of its parameters and those that it writes are
the registers that the pool reports as used, which are no more than there are, so that the report is
the number of registers that the code touches. It never moves or adds a register to itself. Under
the monotonic strategy it fills every register behind the parameters once and writes no register of
a parameter. -/
theorem emitFunction_shape (h : emitFunction function pool = .ok code next) :
    (∃ front last, code = front ++ [last] ∧
      (∀ instruction ∈ front, instruction.isExit = false) ∧ last.isExit = true ∧
      ((∃ source, last = .ret source) ↔ ∃ operand, function.terminator = .ret (some operand)) ∧
      (last = .trap ↔ function.terminator = .trap)) ∧
    ReadsWritten function.params.length code ∧
    (∀ register, Written function.params.length code register ↔ register < next.used) ∧
    next.used ≤ pool.limit ∧
    (touched function.params.length code).card = next.used ∧
    (∀ dest source, .move dest source ∈ code → dest ≠ source) ∧
    (∀ dest source, .add dest source ∈ code → dest ≠ source) ∧
    (pool.strategy = .monotonic →
      (∀ register, function.params.length ≤ register → register < next.used →
        code.countP (Instr.fills register) = 1) ∧
      ∀ instruction ∈ code, ∀ register ∈ instruction.dest?,
        function.params.length ≤ register) := by
  have hlimit : next.used ≤ pool.limit := by
    obtain ⟨tally, -, -, hle, -⟩ := settled_emitFunction h
    exact hle
  obtain ⟨after, hbody, rfl, rfl⟩ := emitFunction_iff.mp h
  obtain ⟨hwritten, hreads⟩ := Emission.footprint_body hbody
  obtain ⟨front, last, hcode, hplain, hcloses⟩ := Emission.plain_body hbody
  have htouched : touched function.params.length after.code.toList =
      Finset.range after.pool.used := by
    ext register
    rw [mem_touched_iff hreads, hwritten, Finset.mem_range]
  have hplain' : ∀ instruction ∈ after.code.toList, instruction.isExit = false →
      instruction.Plain := by
    intro instruction hmem hgoes
    rw [hcode, List.mem_append, List.mem_singleton] at hmem
    rcases hmem with hmem | rfl
    · exact hplain instruction hmem
    · rw [hcloses.isExit_and.1] at hgoes
      cases hgoes
  refine ⟨⟨front, last, hcode, fun instruction hmem ↦ (hplain instruction hmem).isExit_eq,
    hcloses.isExit_and⟩, hreads, hwritten, hlimit, ?_, ?_, ?_, ?_⟩
  · rw [htouched, Finset.card_range]
  · exact fun dest source hmem ↦ hplain' (.move dest source) hmem rfl
  · exact fun dest source hmem ↦ hplain' (.add dest source) hmem rfl
  · intro hstrategy
    obtain ⟨hand, hfill⟩ := Emission.singleFill_body hstrategy hbody
    refine ⟨fun register hge hlt ↦ ?_, hfill.dests_ge⟩
    rw [hfill.fills, if_pos ⟨hge, hlt⟩]

/-- A function that overwrites its parameter, with as many registers as it needs if none comes back.
The first register is the one of the parameter, and each of the other three is filled once. -/
theorem emitFunction_shape_overwriting :
    ∃ next, emitFunction Emission.overwriting (.ofLimit .monotonic 4) =
        .ok [.move 1 0, .load 2 7, .move 3 2, .add 1 3, .ret 1] next ∧
      next.used = 4 ∧
      (touched 1 [.move 1 0, .load 2 7, .move 3 2, .add 1 3, .ret 1]).card = next.used ∧
      ∀ register, 1 ≤ register → register < next.used →
        ([.move 1 0, .load 2 7, .move 3 2, .add 1 3, .ret 1] : List Instr).countP
          (Instr.fills register) = 1 := by
  obtain ⟨next, h, hused⟩ : ∃ next, emitFunction Emission.overwriting (.ofLimit .monotonic 4) =
      .ok [.move 1 0, .load 2 7, .move 3 2, .add 1 3, .ret 1] next ∧ next.used = 4 := ⟨_, rfl, rfl⟩
  obtain ⟨-, -, -, -, htouched, -, -, hmonotonic⟩ := emitFunction_shape h
  exact ⟨next, h, hused, htouched, (hmonotonic rfl).1⟩

end Function

end StraightWasm.Machine
