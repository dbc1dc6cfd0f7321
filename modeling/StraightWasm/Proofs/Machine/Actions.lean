import StraightWasm.Machine.Emit
import StraightWasm.Proofs.Success

/-!
# What a successful emission does

Emission is a computation on the state of an emission. Here each of its actions is turned into what
a success of it says about the states before and after. Bringing an operand into a register either
acquires a register and emits one instruction that fills it, or uses up a temporary
(`Emission.intoRegister_cases`). A linear instruction brings its operands into registers and then
hands them on (`Emission.snapshot_cases`, `Emission.assign_cases`, `Emission.add_cases`).

Everything that is proved of emission further on follows from these cases.
-/

set_option autoImplicit false
set_option relaxedAutoImplicit false

namespace StraightWasm.Machine.Emission

open Linear (Frame Operand Terminator)

variable {frame : Frame} {before after : Emitter}

/-! ### Elementary actions -/

theorem acquire_iff {register : Nat} :
    acquire frame before = .ok register after ↔
      ∃ pool, before.pool.acquire? = some (register, pool) ∧
        { before with pool := pool } = after := by
  unfold acquire
  cases hacquire : before.pool.acquire? with
  | none => simp
  | some found => simp [Prod.ext_iff]

theorem checkSlot_iff {slot : Nat} :
    checkSlot frame slot before = .ok () after ↔ slot < frame.slotCount ∧ before = after := by
  unfold checkSlot
  split_ifs with hslot
  · simp [Success.pure_iff, hslot]
  · simp only [hslot, false_and, iff_false]
    exact fun h ↦ nomatch h

theorem define_iff {temp register : Nat} :
    define frame temp register before = .ok () after ↔
      before.temps[temp]? = none ∧
        { before with temps := before.temps.insert temp register } = after := by
  unfold define
  cases hdefined : before.temps[temp]? <;> simp

theorem consume_iff {temp register : Nat} :
    consume frame temp before = .ok register after ↔
      before.temps[temp]? = some register ∧
        { before with temps := before.temps.erase temp } = after := by
  unfold consume
  cases hdefined : before.temps[temp]? <;> simp

/-! ### Operands -/

/-- The instruction that copies a local into a register: a move if the local has a register, and
else a zero. -/
def copyInstr (bindings : Bindings) (slot dest : Nat) : Instr :=
  match bindings.register? slot with
  | some source => .move dest source
  | none => .load dest 0

/-- Copying a local acquires a register and emits the instruction that fills it. -/
theorem copySlot_cases {slot register : Nat} (h : copySlot frame slot before = .ok register after) :
    slot < frame.slotCount ∧ ∃ pool, before.pool.acquire? = some (register, pool) ∧
      after = { before with
        pool := pool
        code := before.code.push (copyInstr before.bindings slot register) } := by
  obtain ⟨_, _, hcheck, h⟩ := Success.bind_iff.mp h
  obtain ⟨hslot, rfl⟩ := checkSlot_iff.mp hcheck
  obtain ⟨dest, _, hacquire, h⟩ := Success.bind_iff.mp h
  obtain ⟨pool, hpool, rfl⟩ := acquire_iff.mp hacquire
  obtain ⟨_, _, hget, h⟩ := Success.bind_iff.mp h
  cases hget
  refine ⟨hslot, pool, ?_⟩
  unfold copyInstr
  dsimp only at h
  cases hsource : before.bindings.register? slot with
  | some source =>
    rw [hsource] at h
    cases h
    exact ⟨hpool, rfl⟩
  | none =>
    rw [hsource] at h
    cases h
    exact ⟨hpool, rfl⟩

/-- Bringing an operand into a register either acquires a register and emits one instruction that
fills it, or uses up a temporary. -/
theorem intoRegister_cases {operand : Operand} {register : Nat}
    (h : intoRegister frame operand before = .ok register after) :
    (∃ value pool, operand = .const value ∧ before.pool.acquire? = some (register, pool) ∧
      after = { before with pool := pool, code := before.code.push (.load register value) }) ∨
    (∃ slot pool, operand = .slot slot ∧ slot < frame.slotCount ∧
      before.pool.acquire? = some (register, pool) ∧
      after = { before with
        pool := pool
        code := before.code.push (copyInstr before.bindings slot register) }) ∨
    (∃ temp, operand = .temp temp ∧ before.temps[temp]? = some register ∧
      after = { before with temps := before.temps.erase temp }) := by
  cases operand with
  | const value =>
    obtain ⟨dest, _, hacquire, h⟩ := Success.bind_iff.mp h
    obtain ⟨pool, hpool, rfl⟩ := acquire_iff.mp hacquire
    cases h
    exact .inl ⟨value, pool, rfl, hpool, rfl⟩
  | slot slot =>
    obtain ⟨hslot, pool, hpool, hafter⟩ := copySlot_cases h
    exact .inr (.inl ⟨slot, pool, rfl, hslot, hpool, hafter⟩)
  | temp temp =>
    obtain ⟨htemp, hafter⟩ := consume_iff.mp h
    exact .inr (.inr ⟨temp, rfl, htemp, hafter.symm⟩)

/-! ### Instructions -/

/-- A snapshot copies the local and defines the temporary by the copy. -/
theorem snapshot_cases {dest slot : Nat}
    (h : step frame (.snapshot dest slot) before = .ok () after) :
    ∃ register middle, intoRegister frame (.slot slot) before = .ok register middle ∧
      middle.temps[dest]? = none ∧
      after = { middle with temps := middle.temps.insert dest register } := by
  obtain ⟨register, middle, hcopy, h⟩ := Success.bind_iff.mp h
  obtain ⟨hdest, hafter⟩ := define_iff.mp h
  exact ⟨register, middle, hcopy, hdest, hafter.symm⟩

/-- A pool after the register that held a local before was given back, if there was one. -/
def releasePrevious (previous : Option Nat) (pool : Pool) : Pool :=
  match previous with
  | some old => pool.release old
  | none => pool

/-- An assignment moves the local into the register of the value and gives its old register back. -/
theorem assign_cases {slot : Nat} {value : Operand}
    (h : step frame (.assign slot value) before = .ok () after) :
    slot < frame.slotCount ∧
      ∃ register middle, intoRegister frame value before = .ok register middle ∧
        after = { middle with
          pool := releasePrevious (middle.bindings.register? slot) middle.pool
          bindings := middle.bindings.bind slot register } := by
  obtain ⟨_, _, hcheck, h⟩ := Success.bind_iff.mp h
  obtain ⟨hslot, rfl⟩ := checkSlot_iff.mp hcheck
  obtain ⟨register, middle, hvalue, h⟩ := Success.bind_iff.mp h
  obtain ⟨previous, _, hbind, h⟩ := Success.bind_iff.mp h
  cases hbind
  refine ⟨hslot, register, middle, hvalue, ?_⟩
  unfold releasePrevious
  cases hprevious : middle.bindings.register? slot with
  | some old =>
    rw [hprevious] at h
    cases h
    rfl
  | none =>
    rw [hprevious] at h
    cases h
    rfl

/-- An addition brings both operands into registers, adds them in the first one, gives the second
one back and defines the temporary by the first one. -/
theorem add_cases {dest : Nat} {lhs rhs : Operand}
    (h : step frame (.add dest lhs rhs) before = .ok () after) :
    ∃ left middle right late, intoRegister frame lhs before = .ok left middle ∧
      intoRegister frame rhs middle = .ok right late ∧ late.temps[dest]? = none ∧
      after = { late with
        pool := late.pool.release right
        temps := late.temps.insert dest left
        code := late.code.push (.add left right) } := by
  obtain ⟨left, middle, hleft, h⟩ := Success.bind_iff.mp h
  obtain ⟨right, late, hright, h⟩ := Success.bind_iff.mp h
  obtain ⟨_, _, hemit, h⟩ := Success.bind_iff.mp h
  cases hemit
  obtain ⟨_, _, hrelease, h⟩ := Success.bind_iff.mp h
  cases hrelease
  obtain ⟨hdest, hafter⟩ := define_iff.mp h
  exact ⟨left, middle, right, late, hleft, hright, hdest, hafter.symm⟩

/-! ### Terminators and functions -/

/-- The value that a function returns stays in the register of its local, or it is brought into a
register like any other operand. -/
theorem returned_cases {operand : Operand} {source : Nat}
    (h : returned frame operand before = .ok source after) :
    (∃ slot, operand = .slot slot ∧ before.bindings.register? slot = some source ∧
      after = before) ∨
    intoRegister frame operand before = .ok source after := by
  cases operand with
  | const value => exact .inr h
  | temp temp => exact .inr h
  | slot slot =>
    obtain ⟨_, _, hget, h⟩ := Success.bind_iff.mp h
    cases hget
    cases hsource : before.bindings.register? slot with
    | some register =>
      rw [hsource] at h
      cases h
      exact .inl ⟨slot, rfl, hsource, rfl⟩
    | none =>
      rw [hsource] at h
      exact .inr h

/-- A function ends in a return of a register or in a trap. -/
theorem finish_cases {terminator : Terminator} (h : finish frame terminator before = .ok () after) :
    (∃ operand source middle, terminator = .ret (some operand) ∧
      returned frame operand before = .ok source middle ∧
      after = { middle with code := middle.code.push (.ret source) }) ∨
    (terminator = .trap ∧ after = { before with code := before.code.push .trap }) := by
  match terminator, h with
  | .ret (some operand), h =>
    obtain ⟨source, middle, hreturned, h⟩ := Success.bind_iff.mp h
    cases h
    exact .inl ⟨operand, source, middle, rfl, hreturned, rfl⟩
  | .trap, h =>
    cases h
    exact .inr ⟨rfl, rfl⟩

/-- What every step on a function needs to know of it. -/
def frameOf (function : Linear.Function) : Frame where
  function := function.index
  slotCount := function.slotCount

/-- The part of the emission of a function that ends before its instruction number `count`. -/
def upTo (function : Linear.Function) (count : Nat) : Emission Unit := do
  placeParams (frameOf function) 0 function.params.length
  (function.instructions.take count).forM (step (frameOf function))

/-- The emission of a function goes on from any of its instructions. -/
theorem body_eq_upTo (function : Linear.Function) (count : Nat) :
    body function =
      (do upTo function count
          (function.instructions.drop count).forM (step (frameOf function))
          finish (frameOf function) function.terminator) := by
  have hsplit : function.instructions.forM (step (frameOf function)) =
      (do (function.instructions.take count).forM (step (frameOf function))
          (function.instructions.drop count).forM (step (frameOf function))) := by
    conv_lhs => rw [← List.take_append_drop count function.instructions]
    exact List.forM_append
  have hbody : body function =
      (do placeParams (frameOf function) 0 function.params.length
          function.instructions.forM (step (frameOf function))
          finish (frameOf function) function.terminator) := rfl
  rw [hbody, hsplit, upTo]
  simp only [bind_assoc]

end StraightWasm.Machine.Emission

namespace StraightWasm.Machine

theorem emitFunction_iff {function : Linear.Function} {pool next : Pool} {code : List Instr} :
    emitFunction function pool = .ok code next ↔
      ∃ after, Emission.body function (.start function.slotCount pool) = .ok () after ∧
        after.code.toList = code ∧ after.pool = next := by
  unfold emitFunction
  cases hbody : Emission.body function (.start function.slotCount pool) with
  | ok value after => simp
  | error failure stop => simp

end StraightWasm.Machine
