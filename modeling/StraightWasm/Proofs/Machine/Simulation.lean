import StraightWasm.Machine.Run
import StraightWasm.Proofs.Linear.StateLaws
import StraightWasm.Proofs.Machine.Ownership

/-!
# Machine code does what linear code does

While a function is emitted, the code so far takes the registers from what they held at the call to
what they hold now. An emitter simulates a state of linear code when every register that a local or
a waiting temporary holds contains its value, and every local without a register is zero
(`Emitter.Simulates`). Registers that nobody holds may contain anything.

Bringing an operand into a register puts its value there and changes nothing that is held or in the
hand (`Emitter.Simulates.intoRegister`). An instruction that can be emitted can be executed, and the
emitter behind it simulates the state behind it (`Emitter.Simulates.step`), so the same holds of a
whole function (`Emission.outcome_body`).
-/

set_option autoImplicit false
set_option relaxedAutoImplicit false

namespace StraightWasm.Machine

open Linear (Frame Operand Terminator)

/-! ### Registers -/

namespace Registers

@[simp] theorem write_self (dest : Nat) (value : Int32) (registers : Registers) :
    registers.write dest value dest = value :=
  if_pos rfl

theorem write_of_ne {dest register : Nat} (h : register ≠ dest) (value : Int32)
    (registers : Registers) : registers.write dest value register = registers register :=
  if_neg h

end Registers

/-- Whether code takes the registers from `first` to `last` without ending the run. -/
def Reaches (code : List Instr) (first last : Registers) : Prop :=
  ∀ rest, run (code ++ rest) first = run rest last

theorem Reaches.push {code : Array Instr} {first middle last : Registers} {instruction : Instr}
    (h : Reaches code.toList first middle)
    (hinstruction : ∀ rest, run (instruction :: rest) middle = run rest last) :
    Reaches (code.push instruction).toList first last := by
  intro rest
  rw [Array.toList_push, List.append_assoc, h]
  exact hinstruction rest

/-! ### The relation between linear states and registers -/

namespace Emitter

/-- The code so far takes the registers from `first` to `registers`, which hold the values that the
locals and the waiting temporaries have in `state`. -/
structure Simulates (frame : Frame) (first : Registers) (hand : List Nat) (state : Linear.State)
    (emitter : Emitter) (registers : Registers) : Prop where
  orderly : emitter.Orderly frame hand
  reached : Reaches emitter.code.toList first registers
  length_slots : state.slots.length = frame.slotCount
  /-- A register that is held contains the value of its holder. -/
  held : ∀ {holder : Operand} {register : Nat}, emitter.register? holder = some register →
    state.value? holder = some (registers register)
  /-- A local without a register is zero. -/
  unheld : ∀ {slot : Nat}, slot < frame.slotCount → emitter.bindings.register? slot = none →
    state.value? (.slot slot) = some 0

namespace Simulates

variable {frame : Frame} {first registers : Registers} {hand : List Nat} {state : Linear.State}
  {before after : Emitter} {register : Nat}

/-- Filling a register that was just acquired changes nothing that is held or in the hand. -/
theorem fill (h : before.Simulates frame first hand state registers) {pool : Pool}
    (hacquire : before.pool.acquire? = some (register, pool)) (instruction : Instr) (value : Int32)
    (hinstruction : ∀ rest,
      run (instruction :: rest) registers = run rest (registers.write register value)) :
    Simulates frame first (register :: hand) state
        { before with pool := pool, code := before.code.push instruction }
        (registers.write register value) ∧
      ∀ other ∈ hand, registers.write register value other = registers other := by
  have hfresh := (Pool.lent_acquire? hacquire).1
  have hkeep : ∀ {other}, InUse before.register? hand other →
      registers.write register value other = registers other := by
    intro other huse
    refine Registers.write_of_ne (fun heq ↦ hfresh ?_) value registers
    exact heq ▸ h.orderly.apportioned.lent huse
  have horderly : Orderly frame (register :: hand)
      { before with pool := pool, code := before.code.push instruction } :=
    ⟨h.orderly.size_bySlot, h.orderly.coherent, h.orderly.apportioned.acquire hacquire⟩
  refine ⟨⟨horderly, h.reached.push hinstruction, h.length_slots, ?_, h.unheld⟩,
    fun other hother ↦ hkeep (.inl hother)⟩
  intro holder other hother
  rw [hkeep (.inr ⟨holder, hother⟩)]
  exact h.held hother

/-- The instruction that copies a local puts the value of the local into its register. -/
theorem run_copyInstr (h : before.Simulates frame first hand state registers) {slot : Nat}
    (hslot : slot < frame.slotCount) (dest : Nat) :
    ∃ value, state.value? (.slot slot) = some value ∧ ∀ rest,
      run (Emission.copyInstr before.bindings slot dest :: rest) registers =
        run rest (registers.write dest value) := by
  unfold Emission.copyInstr
  cases hsource : before.bindings.register? slot with
  | some source =>
    have hheld : before.register? (.slot slot) = some source := hsource
    exact ⟨registers source, h.held hheld, fun rest ↦ rfl⟩
  | none => exact ⟨0, h.unheld hslot hsource, fun rest ↦ rfl⟩

/-- Bringing an operand into a register puts its value there and changes nothing in the hand. -/
theorem intoRegister (h : before.Simulates frame first hand state registers) {operand : Operand}
    (hrun : Emission.intoRegister frame operand before = .ok register after) :
    ∃ registers', after.Simulates frame first (register :: hand) state registers' ∧
      state.value? operand = some (registers' register) ∧
      ∀ other ∈ hand, registers' other = registers other := by
  have horderly := h.orderly.intoRegister hrun
  obtain ⟨value, pool, rfl, hpool, rfl⟩ | ⟨slot, pool, rfl, hslot, hpool, rfl⟩ |
    ⟨temp, rfl, htemp, rfl⟩ := Emission.intoRegister_cases hrun
  · obtain ⟨hfilled, hkept⟩ := h.fill hpool (.load register value) value fun rest ↦ rfl
    refine ⟨_, hfilled, ?_, hkept⟩
    rw [Registers.write_self]
    rfl
  · obtain ⟨value, hvalue, hcopy⟩ := h.run_copyInstr hslot register
    obtain ⟨hfilled, hkept⟩ := h.fill hpool _ value hcopy
    refine ⟨_, hfilled, ?_, hkept⟩
    rw [Registers.write_self]
    exact hvalue
  · have hheld : before.register? (.temp temp) = some register := htemp
    refine ⟨registers, ⟨horderly, h.reached, h.length_slots, ?_, h.unheld⟩, h.held hheld,
      fun _ _ ↦ rfl⟩
    intro holder other hother
    rw [register?_erase, Function.update_apply] at hother
    split_ifs at hother
    exact h.held hother

/-! ### Instructions -/

/-- Defining a temporary by a register gives the temporary what the register contains. -/
theorem define (h : before.Simulates frame first hand state registers) {dest : Nat} {pool : Pool}
    (horderly : Orderly frame [] { before with
      pool := pool
      temps := before.temps.insert dest register }) :
    Simulates frame first [] (state.define dest (registers register))
      { before with pool := pool, temps := before.temps.insert dest register } registers := by
  refine ⟨horderly, h.reached, h.length_slots, ?_, h.unheld⟩
  intro holder other hother
  change ({ before with temps := before.temps.insert dest register } : Emitter).register? holder =
    some other at hother
  rw [register?_insert, Function.update_apply] at hother
  rw [Linear.State.value?_define, Function.update_apply]
  split_ifs at hother ⊢ with hholder
  · rw [Option.some.injEq] at hother
    rw [hother]
  · exact h.held hother

/-- Moving a local into a register gives the local what the register contains. -/
theorem assign (h : before.Simulates frame first hand state registers) {slot : Nat} {pool : Pool}
    (hslot : slot < frame.slotCount)
    (horderly : Orderly frame [] { before with
      pool := pool
      bindings := before.bindings.bind slot register }) :
    Simulates frame first [] { state with slots := state.slots.set slot (registers register) }
      { before with pool := pool, bindings := before.bindings.bind slot register } registers := by
  have hsize : slot < before.bindings.bySlot.size := h.orderly.size_bySlot ▸ hslot
  have hvalue := Linear.State.value?_assign (h.length_slots ▸ hslot) (registers register)
  refine ⟨horderly, h.reached, ?_, ?_, ?_⟩
  · rw [List.length_set]
    exact h.length_slots
  · intro holder other hother
    change ({ before with bindings := before.bindings.bind slot register } : Emitter).register?
      holder = some other at hother
    rw [register?_bind hsize, Function.update_apply] at hother
    rw [hvalue, Function.update_apply]
    split_ifs at hother ⊢ with hholder
    · rw [Option.some.injEq] at hother
      rw [hother]
    · exact h.held hother
  · intro other hother hnone
    change (before.bindings.bind slot register).register? other = none at hnone
    rw [Bindings.register?_bind hsize] at hnone
    split_ifs at hnone with heq
    rw [hvalue, Function.update_of_ne (by simpa using heq)]
    exact h.unheld hother hnone

/-- Adding two registers in the hand changes the first one only. -/
theorem add (h : before.Simulates frame first hand state registers) {left : Nat}
    (hleft : left ∈ hand) (right : Nat) :
    Simulates frame first hand state { before with code := before.code.push (.add left right) }
      (registers.write left (registers left + registers right)) := by
  refine ⟨⟨h.orderly.size_bySlot, h.orderly.coherent, h.orderly.apportioned⟩,
    h.reached.push fun rest ↦ rfl, h.length_slots, ?_, h.unheld⟩
  intro holder other hother
  have hne : other ≠ left := by
    rintro rfl
    exact h.orderly.apportioned.hand_unheld hleft holder hother
  rw [Registers.write_of_ne hne]
  exact h.held hother

/-- An instruction that can be emitted can be executed, and both go on side by side. -/
theorem step (h : before.Simulates frame first [] state registers) {instruction : Linear.Instr}
    (hrun : Emission.step frame instruction before = .ok () after) :
    ∃ state' registers', state.step instruction = some state' ∧
      after.Simulates frame first [] state' registers' := by
  have horderly := h.orderly.step hrun
  cases instruction with
  | snapshot dest slot =>
    obtain ⟨register, middle, hcopy, -, rfl⟩ := Emission.snapshot_cases hrun
    obtain ⟨registers', hmiddle, hvalue, -⟩ := h.intoRegister hcopy
    refine ⟨state.define dest (registers' register), registers', ?_, hmiddle.define horderly⟩
    rw [Linear.State.step, hvalue]
    rfl
  | assign slot value =>
    obtain ⟨hslot, register, middle, hoperand, rfl⟩ := Emission.assign_cases hrun
    obtain ⟨registers', hmiddle, hvalue, -⟩ := h.intoRegister hoperand
    refine ⟨{ state with slots := state.slots.set slot (registers' register) }, registers', ?_,
      hmiddle.assign hslot horderly⟩
    rw [Linear.State.step, hvalue]
    exact Linear.State.assign_eq (h.length_slots ▸ hslot) _
  | add dest lhs rhs =>
    obtain ⟨left, middle, right, late, hleft, hright, -, rfl⟩ := Emission.add_cases hrun
    obtain ⟨registers₁, hmiddle, hlhs, -⟩ := h.intoRegister hleft
    obtain ⟨registers₂, hlate, hrhs, hkept⟩ := hmiddle.intoRegister hright
    have hadded := hlate.add (List.mem_cons_of_mem right List.mem_cons_self) right
    refine ⟨_, _, ?_, hadded.define horderly⟩
    rw [Linear.State.step, hlhs, hrhs, ← hkept left List.mem_cons_self]
    simp

/-! ### Functions -/

/-- A sequence of instructions that can be emitted can be executed, and both go on side by side. -/
theorem forM_step (instructions : List Linear.Instr) :
    ∀ {state : Linear.State} {registers : Registers} {before after : Emitter},
      before.Simulates frame first [] state registers →
        instructions.forM (Emission.step frame) before = .ok () after →
          ∃ state' registers',
            (∀ terminator, Linear.run terminator instructions state = state'.finish terminator) ∧
              after.Simulates frame first [] state' registers' := by
  induction instructions with
  | nil =>
    intro state registers before after h hrun
    obtain ⟨-, rfl⟩ := Success.pure_iff.mp hrun
    exact ⟨state, registers, fun _ ↦ rfl, h⟩
  | cons instruction rest ih =>
    intro state registers before after h hrun
    obtain ⟨_, middle, hstep, hrest⟩ := Success.bind_iff.mp hrun
    obtain ⟨state₁, registers₁, hstate, hmiddle⟩ := h.step hstep
    obtain ⟨state₂, registers₂, hfinal, hafter⟩ := ih hmiddle hrest
    refine ⟨state₂, registers₂, fun terminator ↦ ?_, hafter⟩
    rw [Linear.run, hstate]
    exact hfinal terminator

/-- A terminator that can be emitted ends both runs in the same way. It returns a value unless it
traps. -/
theorem finish (h : before.Simulates frame first [] state registers) {terminator : Terminator}
    (hrun : Emission.finish frame terminator before = .ok () after) :
    ∃ outcome, state.finish terminator = some outcome ∧ run after.code.toList first = some outcome ∧
      (outcome = .trapped ↔ terminator = .trap) ∧ outcome ≠ .returned none := by
  obtain ⟨operand, source, middle, rfl, hreturned, rfl⟩ | ⟨rfl, rfl⟩ :=
    Emission.finish_cases hrun
  · have hsource : ∃ registers', Reaches middle.code.toList first registers' ∧
        state.value? operand = some (registers' source) := by
      obtain ⟨slot, rfl, hslot, rfl⟩ | hoperand := Emission.returned_cases hreturned
      · have hheld : middle.register? (.slot slot) = some source := hslot
        exact ⟨registers, h.reached, h.held hheld⟩
      · obtain ⟨registers', hmiddle, hvalue, -⟩ := h.intoRegister hoperand
        exact ⟨registers', hmiddle.reached, hvalue⟩
    obtain ⟨registers', hreached, hvalue⟩ := hsource
    refine ⟨.returned (some (registers' source)), ?_, ?_, by simp, by simp⟩
    · rw [Linear.State.finish, hvalue]
      rfl
    · rw [Array.toList_push, hreached]
      rfl
  · refine ⟨.trapped, rfl, ?_, by simp, by simp⟩
    rw [Array.toList_push, h.reached]
    rfl

end Simulates

/-- At the call of a function the arguments are in the first registers, and what the others contain
does not matter. -/
theorem Placed.simulates {frame : Frame} {pool : Pool} {emitter : Emitter}
    {arguments : List Int32} (h : emitter.Placed frame pool arguments.length) {declared : Nat}
    (hframe : frame.slotCount = arguments.length + declared) (leftover : Registers) :
    emitter.Simulates frame (.start arguments leftover) [] (.start arguments declared)
      (.start arguments leftover) := by
  refine ⟨h.orderly, ?_, ?_, ?_, ?_⟩
  · intro rest
    rw [h.code]
    rfl
  · simp [Linear.State.start, hframe]
  · intro holder register hholder
    obtain ⟨rfl, hlt⟩ := h.register?_iff.mp hholder
    simp [Linear.State.value?, Linear.State.start, Registers.start,
      List.getElem?_append_left hlt, hlt]
  · intro slot hslot hnone
    rw [h.registers] at hnone
    split_ifs at hnone with hlt
    simp only [Linear.State.value?, Linear.State.start]
    rw [List.getElem?_append_right (by omega), List.getElem?_replicate, if_pos (by omega)]

end Emitter

namespace Emission

/-- A function that can be emitted has an outcome on all arguments, and its code has the same one
whatever the other registers contain at the call. It returns a value unless it traps. -/
theorem run_body {function : Linear.Function} {pool : Pool} {after : Emitter}
    (h : body function (.start function.slotCount pool) = .ok () after) {arguments : List Int32}
    (hlength : arguments.length = function.params.length) (leftover : Registers) :
    ∃ outcome, function.outcome arguments = some outcome ∧
      run after.code.toList (.start arguments leftover) = some outcome ∧
      (outcome = .trapped ↔ function.terminator = .trap) ∧ outcome ≠ .returned none := by
  obtain ⟨_, placed, hplace, h⟩ := Success.bind_iff.mp h
  obtain ⟨_, late, hinstructions, hfinish⟩ := Success.bind_iff.mp h
  have hplaced := placed_params hplace
  rw [← hlength] at hplaced
  have hframe : (frameOf function).slotCount = arguments.length + function.locals.length := by
    rw [hlength]
    rfl
  obtain ⟨state, registers, hrun, hlate⟩ :=
    (hplaced.simulates hframe leftover).forM_step function.instructions hinstructions
  obtain ⟨outcome, hstate, hcode, htrap, hvalue⟩ := hlate.finish hfinish
  refine ⟨outcome, ?_, hcode, htrap, hvalue⟩
  rw [Linear.Function.outcome, hrun, hstate]

/-- The outcome of the code does not depend on what the other registers contain at the call. -/
theorem outcome_body {function : Linear.Function} {pool : Pool} {after : Emitter}
    (h : body function (.start function.slotCount pool) = .ok () after) {arguments : List Int32}
    (hlength : arguments.length = function.params.length) :
    ∃ outcome, function.outcome arguments = some outcome ∧
      (∀ leftover, run after.code.toList (.start arguments leftover) = some outcome) ∧
      (outcome = .trapped ↔ function.terminator = .trap) ∧ outcome ≠ .returned none := by
  obtain ⟨outcome, houtcome, -, htrap, hvalue⟩ := run_body h hlength fun _ ↦ 0
  refine ⟨outcome, houtcome, fun leftover ↦ ?_, htrap, hvalue⟩
  obtain ⟨other, hother, hrun, -, -⟩ := run_body h hlength leftover
  rw [houtcome, Option.some.injEq] at hother
  rw [hother]
  exact hrun

end Emission

/-- Assumes: a function that can be emitted from a pool, whatever the pool was used for before, and
an argument for each of its parameters. The function has an outcome, so it never reads a temporary
that was not defined or names a local that does not exist. Its code has the same outcome whatever
the other registers contain at the call. The code traps exactly if the terminator does, and it
returns a value if not. -/
theorem run_emitFunction {function : Linear.Function} {pool next : Pool} {code : List Instr}
    (h : emitFunction function pool = .ok code next) {arguments : List Int32}
    (hlength : arguments.length = function.params.length) :
    ∃ outcome, function.outcome arguments = some outcome ∧
      (∀ leftover, run code (.start arguments leftover) = some outcome) ∧
      (outcome = .trapped ↔ function.terminator = .trap) ∧ outcome ≠ .returned none := by
  obtain ⟨after, hbody, rfl, -⟩ := emitFunction_iff.mp h
  exact Emission.outcome_body hbody hlength

/-- A function that defines a temporary again after its use, overwrites a local by itself and leaves
a temporary over. It gives three times its argument. -/
def redefining : Linear.Function where
  index := 0
  typeIndex := 0
  params := [.i32]
  locals := [.f64]
  result := .i32
  instructions := [.add 5 (.slot 0) (.slot 0), .assign 0 (.slot 0), .add 5 (.temp 5) (.slot 0),
    .assign 1 (.temp 5), .snapshot 2 0]
  terminator := .ret (some (.slot 1))
  tempCount := 0

/-- Three registers are enough for it if they are taken back. -/
theorem run_emitFunction_redefining :
    ∃ code next, emitFunction redefining (.ofLimit .freeList 3) = .ok code next ∧
      ∀ leftover, run code (.start [14] leftover) = some (.returned (some 42)) := by
  have hsuccess : Success.succeeds (emitFunction redefining (.ofLimit .freeList 3)) = true := by
    decide +kernel
  obtain ⟨code, next, h⟩ := Success.exists_of_succeeds hsuccess
  have hlength : ([14] : List Int32).length = redefining.params.length := rfl
  have hresult : redefining.outcome [14] = some (.returned (some 42)) := by decide +kernel
  obtain ⟨outcome, houtcome, hrun, -, -⟩ := run_emitFunction h hlength
  rw [hresult] at houtcome
  rw [← houtcome] at hrun
  exact ⟨code, next, h, hrun⟩

end StraightWasm.Machine
