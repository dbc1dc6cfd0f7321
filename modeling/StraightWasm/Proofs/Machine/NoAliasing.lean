import StraightWasm.Proofs.Machine.Ownership

/-!
# Registers never alias and never leak

Between two instructions of a function every register that was handed out has one holder, and under
the free-list strategy every one of them is either free or held. Within an instruction the registers
of its operands are apart from each other and from everything that is held
(`Emission.registers_apart`).

Moving a local into a register reads and writes entries of the tables. It asks for a local of the
function, a vacant register, and an entry for the register that held the local before. An emission
that did something else wherever one of these is missing (`Emission.bodyWith`, `Emission.bindOr`)
would never do it, whatever it is (`Emission.bodyWith_bindOr`).
-/

set_option autoImplicit false
set_option relaxedAutoImplicit false

namespace StraightWasm.Machine

open Linear (Frame Operand)

/-! ### Registers in the hand -/

/-- Bringing operands into registers, one after the other, adds those registers to the hand. -/
theorem Emitter.Orderly.mapM_intoRegister {frame : Frame} (operands : List Operand) :
    ∀ {hand registers : List Nat} {before after : Emitter}, before.Orderly frame hand →
      operands.mapM (Emission.intoRegister frame) before = .ok registers after →
        after.Orderly frame (registers.reverse ++ hand) := by
  induction operands with
  | nil =>
    intro hand registers before after hbefore hrun
    rw [List.mapM_nil] at hrun
    obtain ⟨rfl, rfl⟩ := Success.pure_iff.mp hrun
    exact hbefore
  | cons operand rest ih =>
    intro hand registers before after hbefore hrun
    rw [List.mapM_cons] at hrun
    obtain ⟨register, middle, hoperand, hrun⟩ := Success.bind_iff.mp hrun
    obtain ⟨others, late, hrest, hrun⟩ := Success.bind_iff.mp hrun
    obtain ⟨rfl, rfl⟩ := Success.pure_iff.mp hrun
    have hafter := ih (hbefore.intoRegister hoperand) hrest
    rw [List.reverse_cons, List.append_assoc]
    exact hafter

namespace Emission

variable {frame : Frame}

/-! ### The pool keeps its settings -/

theorem sameSettings_intoRegister {operand : Operand} {register : Nat} {before after : Emitter}
    (h : intoRegister frame operand before = .ok register after) :
    before.pool.SameSettings after.pool := by
  obtain ⟨_, pool, -, hpool, rfl⟩ | ⟨_, pool, -, -, hpool, rfl⟩ | ⟨_, -, -, rfl⟩ :=
    intoRegister_cases h
  · exact Pool.sameSettings_acquire? hpool
  · exact Pool.sameSettings_acquire? hpool
  · exact ⟨rfl, rfl⟩

theorem sameSettings_step {instruction : Linear.Instr} {before after : Emitter}
    (h : step frame instruction before = .ok () after) : before.pool.SameSettings after.pool := by
  cases instruction with
  | snapshot dest slot =>
    obtain ⟨register, middle, hcopy, -, rfl⟩ := snapshot_cases h
    have hsettings := sameSettings_intoRegister hcopy
    exact hsettings
  | assign slot value =>
    obtain ⟨-, register, middle, hvalue, rfl⟩ := assign_cases h
    refine (sameSettings_intoRegister hvalue).trans ?_
    cases hprevious : middle.bindings.register? slot with
    | none => exact ⟨rfl, rfl⟩
    | some old => exact Pool.sameSettings_release old middle.pool
  | add dest lhs rhs =>
    obtain ⟨left, middle, right, late, hleft, hright, -, rfl⟩ := add_cases h
    exact ((sameSettings_intoRegister hleft).trans (sameSettings_intoRegister hright)).trans
      (Pool.sameSettings_release right late.pool)

theorem sameSettings_upTo {function : Linear.Function} {pool : Pool} {count : Nat}
    {emitter : Emitter}
    (h : upTo function count (.start function.slotCount pool) = .ok () emitter) :
    pool.SameSettings emitter.pool := by
  obtain ⟨_, placed, hplace, hrun⟩ := Success.bind_iff.mp h
  exact Success.forM_keeps (fun emitter ↦ pool.SameSettings emitter.pool)
    (fun _ _ _ hsettings hstep ↦ hsettings.trans (sameSettings_step hstep)) _ placed emitter
    (placed_params hplace).settings hrun

/-! ### Moves are always possible -/

/-- Moves a local into a register if the local exists, the register is vacant and the register that
held the local before has an entry in the tables, and does something else if not. -/
def bindOr (violation : Emission (Option Nat)) (slot register : Nat) : Emission (Option Nat) :=
  fun emitter ↦
    if emitter.bindings.CanBind slot register ∧
        (emitter.bindings.register? slot).all (· < emitter.bindings.byRegister.size) then
      bind slot register emitter
    else violation emitter

/-- `step` with another way to move a local into a register. -/
def stepWith (move : Nat → Nat → Emission (Option Nat)) (frame : Frame) :
    Linear.Instr → Emission Unit
  | .assign slot value => do
    checkSlot frame slot
    let register ← intoRegister frame value
    match ← move slot register with
    | some old => release old
    | none => pure ()
  | instruction => step frame instruction

/-- `placeParams` with another way to move a local into a register. -/
def placeParamsWith (move : Nat → Nat → Emission (Option Nat)) (frame : Frame) (slot : Nat) :
    Nat → Emission Unit
  | 0 => pure ()
  | count + 1 => do
    let register ← acquire frame
    let _ ← move slot register
    placeParamsWith move frame (slot + 1) count

/-- `body` with another way to move a local into a register. -/
def bodyWith (move : Nat → Nat → Emission (Option Nat)) (function : Linear.Function) :
    Emission Unit := do
  placeParamsWith move (frameOf function) 0 function.params.length
  function.instructions.forM (stepWith move (frameOf function))
  finish (frameOf function) function.terminator

/-- With the way that emission goes, the two are the same. -/
theorem bodyWith_bind (function : Linear.Function) : bodyWith bind function = body function := by
  have hstep : ∀ frame, stepWith bind frame = step frame := by
    intro frame
    funext instruction
    cases instruction <;> rfl
  have hplace : ∀ frame count slot,
      placeParamsWith bind frame slot count = placeParams frame slot count := by
    intro frame count
    induction count with
    | zero => exact fun _ ↦ rfl
    | succ count ih =>
      intro slot
      simp only [placeParamsWith, placeParams, ih]
  rw [bodyWith, hstep, hplace]
  rfl

/-- In an orderly emitter a local can be moved into any register in the hand. -/
theorem bindOr_eq {emitter : Emitter} {hand : List Nat} {slot register : Nat}
    (h : emitter.Orderly frame hand) (hregister : register ∈ hand) (hslot : slot < frame.slotCount)
    (violation : Emission (Option Nat)) :
    bindOr violation slot register emitter = bind slot register emitter := by
  refine if_pos ⟨h.canBind hregister hslot, ?_⟩
  cases hprevious : emitter.bindings.register? slot with
  | none => rfl
  | some old => simpa using Bindings.lt_of_slot? ((h.coherent slot old).mp hprevious)

theorem stepWith_bindOr {emitter : Emitter} (h : emitter.Orderly frame [])
    (violation : Emission (Option Nat)) (instruction : Linear.Instr) :
    stepWith (bindOr violation) frame instruction emitter = step frame instruction emitter := by
  cases instruction with
  | snapshot dest slot => rfl
  | add dest lhs rhs => rfl
  | assign slot value =>
    refine Success.bind_congr rfl fun _ _ hcheck ↦ ?_
    obtain ⟨hslot, rfl⟩ := checkSlot_iff.mp hcheck
    refine Success.bind_congr rfl fun register middle hvalue ↦ ?_
    have hmove := bindOr_eq (h.intoRegister hvalue) List.mem_cons_self hslot violation
    exact Success.bind_congr hmove fun _ _ _ ↦ rfl

theorem forM_stepWith_bindOr (violation : Emission (Option Nat))
    (instructions : List Linear.Instr) :
    ∀ {emitter : Emitter}, emitter.Orderly frame [] →
      instructions.forM (stepWith (bindOr violation) frame) emitter =
        instructions.forM (step frame) emitter := by
  induction instructions with
  | nil => exact fun _ ↦ rfl
  | cons instruction rest ih =>
    intro emitter h
    have hstep := stepWith_bindOr h violation instruction
    refine Success.bind_congr hstep fun _ middle hrun ↦ ih ?_
    exact h.step (hstep ▸ hrun)

theorem placeParamsWith_bindOr (violation : Emission (Option Nat)) {pool : Pool} (count : Nat) :
    ∀ {slot : Nat} {emitter : Emitter}, emitter.Placed frame pool slot →
      slot + count ≤ frame.slotCount →
        placeParamsWith (bindOr violation) frame slot count emitter =
          placeParams frame slot count emitter := by
  induction count with
  | zero => exact fun _ _ ↦ rfl
  | succ count ih =>
    intro slot emitter h hroom
    refine Success.bind_congr rfl fun register _ hacquire ↦ ?_
    obtain ⟨next, hnext, rfl⟩ := acquire_iff.mp hacquire
    have hhand : Emitter.Orderly frame [register] { emitter with pool := next } :=
      ⟨h.size_bySlot, h.coherent, h.orderly.apportioned.acquire hnext⟩
    have hslot : slot < frame.slotCount := by omega
    have hmove := bindOr_eq hhand List.mem_cons_self hslot violation
    refine Success.bind_congr hmove fun _ _ hbind ↦ ?_
    rw [hmove] at hbind
    cases hbind
    exact ih (h.bind (by omega) hnext).2 (by omega)

/-- What would be done where a local cannot be moved is never done. -/
theorem bodyWith_bindOr (violation : Emission (Option Nat)) (function : Linear.Function)
    (pool : Pool) :
    bodyWith (bindOr violation) function (.start function.slotCount pool) =
      body function (.start function.slotCount pool) := by
  have hplace := placeParamsWith_bindOr violation function.params.length
    (Emitter.placed_start (frameOf function) pool) (by simp [frameOf, Linear.Function.slotCount])
  refine Success.bind_congr hplace fun _ placed hplaced ↦ ?_
  have horderly := (placed_params (hplace ▸ hplaced)).orderly
  exact Success.bind_congr (forM_stepWith_bindOr violation function.instructions horderly)
    fun _ _ _ ↦ rfl

/-! ### Main statement -/

/-- Whatever function is emitted and whatever the pool was used for before:

Between two instructions no register has two holders, every register that is held was handed out,
and no more registers were handed out than there are. No register that is held is free, and under
the free-list strategy every register that was handed out is free or held.

Within an instruction the registers of the operands that have been brought into registers are all
different. None of them is held or free, and all were handed out.

Moving a local never finds the local missing, the register occupied or an entry of the tables
missing, and the tables are coherent when the function ends. -/
theorem registers_apart (function : Linear.Function) (pool : Pool) :
    (∀ count emitter, upTo function count (.start function.slotCount pool) = .ok () emitter →
      (∀ first second register, emitter.register? first = some register →
        emitter.register? second = some register → first = second) ∧
      (∀ holder register, emitter.register? holder = some register →
        register < emitter.pool.used) ∧
      emitter.pool.used ≤ pool.limit ∧
      (∀ register ∈ emitter.pool.free, ∀ holder, emitter.register? holder ≠ some register) ∧
      (pool.strategy = .freeList → ∀ register, register < emitter.pool.used ↔
        register ∈ emitter.pool.free ∨ ∃ holder, emitter.register? holder = some register) ∧
      ∀ (operands : List Operand) (registers : List Nat) (after : Emitter),
        operands.mapM (intoRegister (frameOf function)) emitter = .ok registers after →
          registers.Nodup ∧ ∀ register ∈ registers,
            register < after.pool.used ∧ register ∉ after.pool.free ∧
              ∀ holder, after.register? holder ≠ some register) ∧
    (∀ violation, bodyWith (bindOr violation) function (.start function.slotCount pool) =
      body function (.start function.slotCount pool)) ∧
    ∀ after, body function (.start function.slotCount pool) = .ok () after →
      after.bindings.isCoherent = true := by
  refine ⟨fun count emitter h ↦ ?_, fun violation ↦ bodyWith_bindOr violation function pool,
    fun after h ↦ ?_⟩
  · have horderly := orderly_upTo h
    obtain ⟨hstrategy, hlimit⟩ := sameSettings_upTo h
    have hlent : ∀ {holder register}, emitter.register? holder = some register →
        emitter.pool.Lent register := fun hholder ↦ horderly.apportioned.lent (.inr ⟨_, hholder⟩)
    refine ⟨fun first second register ↦ horderly.apportioned.holder_unique,
      fun holder register hholder ↦ (hlent hholder).1, hlimit ▸ emitter.pool.used_le,
      fun register hfree holder hholder ↦ (hlent hholder).2 hfree, ?_, ?_⟩
    · intro hfreeList register
      constructor
      · intro hused
        by_cases hfree : register ∈ emitter.pool.free
        · exact .inl hfree
        · have huse := horderly.apportioned.in_use (hstrategy.trans hfreeList) ⟨hused, hfree⟩
          exact .inr (huse.resolve_left List.not_mem_nil)
      · rintro (hfree | ⟨holder, hholder⟩)
        · exact emitter.pool.free_lt register hfree
        · exact (hlent hholder).1
    · intro operands registers after hrun
      have hhand := (horderly.mapM_intoRegister operands hrun).apportioned
      rw [List.append_nil] at hhand
      refine ⟨List.nodup_reverse.mp hhand.hand_nodup, fun register hmem ↦ ?_⟩
      have hreverse : register ∈ registers.reverse := List.mem_reverse.mpr hmem
      obtain ⟨hused, hfree⟩ := hhand.lent (.inl hreverse)
      exact ⟨hused, hfree, hhand.hand_unheld hreverse⟩
  · rw [Bindings.isCoherent_iff]
    rw [body_eq_upTo function function.instructions.length] at h
    obtain ⟨_, late, hlate, h⟩ := Success.bind_iff.mp h
    rw [List.drop_length] at h
    obtain ⟨_, _, hnone, hfinish⟩ := Success.bind_iff.mp h
    obtain ⟨-, rfl⟩ := Success.pure_iff.mp hnone
    have horderly := orderly_upTo hlate
    obtain ⟨operand, source, middle, -, hreturned, rfl⟩ | ⟨-, rfl⟩ := finish_cases hfinish
    · obtain ⟨slot, -, -, rfl⟩ | hoperand := returned_cases hreturned
      · exact horderly.coherent
      · exact (horderly.intoRegister hoperand).coherent
    · exact horderly.coherent

/-- A function that copies its parameter, overwrites it and adds the two. -/
def overwriting : Linear.Function where
  index := 0
  typeIndex := 0
  params := [.i32]
  locals := []
  result := .i32
  instructions := [.snapshot 0 0, .assign 0 (.const 7), .add 1 (.temp 0) (.slot 0)]
  terminator := .ret (some (.temp 1))
  tempCount := 2

/-- When the parameter has been overwritten its first register is free again, and the copy and the
new value have registers of their own. -/
theorem registers_apart_overwriting :
    ∃ emitter, upTo overwriting 2 (.start 1 (.ofLimit .freeList 4)) = .ok () emitter ∧
      emitter.pool.free = [0] ∧ emitter.register? (.temp 0) = some 1 ∧
      emitter.register? (.slot 0) = some 2 ∧
      ∀ register, register < emitter.pool.used ↔
        register ∈ emitter.pool.free ∨ ∃ holder, emitter.register? holder = some register := by
  refine ⟨_, rfl, rfl, rfl, rfl, ?_⟩
  exact ((registers_apart overwriting (.ofLimit .freeList 4)).1 2 _ rfl).2.2.2.2.1 rfl

end Emission

end StraightWasm.Machine
