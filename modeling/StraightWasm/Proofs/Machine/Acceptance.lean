import StraightWasm.Proofs.Linear.SingleAssignment
import StraightWasm.Proofs.Machine.Actions
import StraightWasm.Proofs.Machine.PoolLaws

/-!
# Emission accepts what lowering gives

Emission insists on a discipline of its own: a temporary is used while it waits and is not defined
again before that, and every local that is named exists. Threaded code keeps to it. The temporaries
that an emitter has a register for are exactly those that wait behind the code so far
(`Emitter.Awaits`), so of all checks only the one for a free register can fail
(`Emitter.Awaits.step`, `Emitter.Awaits.forM_step`). What lowering gives is threaded. So registers
that run out and a value that is missing at the end are the only reasons to reject it
(`emitFunction_lower`).
-/

set_option autoImplicit false
set_option relaxedAutoImplicit false

namespace StraightWasm.Machine

open Linear (Frame Operand Terminator Threaded)
open Linear.Operand (SlotsBelow)
open Success (Ends)

namespace Emitter

/-- There are `limit` registers, and the temporaries that have one are those in `waiting`, which
holds none of them twice. -/
structure Awaits (limit : Nat) (waiting : Multiset Nat) (emitter : Emitter) : Prop where
  limit_eq : emitter.pool.limit = limit
  nodup : waiting.Nodup
  mem_iff : ∀ temp : Nat, temp ∈ emitter.temps ↔ temp ∈ waiting

theorem awaits_start (slotCount : Nat) (pool : Pool) :
    Awaits pool.limit 0 (.start slotCount pool) :=
  ⟨rfl, Multiset.nodup_zero, fun temp ↦ by simp [start]⟩

/-- Whether a run leads to an emitter that awaits the given temporaries, unless it fails because all
registers are in use. -/
def LeadsTo {α : Type} (frame : Frame) (limit : Nat) (waiting : Multiset Nat) :
    EStateM.Result Diagnostic Emitter α → Prop :=
  Ends (fun _ after ↦ after.Awaits limit waiting)
    (· = .emission frame.function (.outOfRegisters limit))

namespace Awaits

variable {frame : Frame} {limit temp slot : Nat} {waiting : Multiset Nat} {emitter : Emitter}
  {operand lhs rhs : Operand}

/-! ### Elementary actions -/

theorem acquire (h : emitter.Awaits limit waiting) :
    LeadsTo frame limit waiting (Emission.acquire frame emitter) := by
  unfold Emission.acquire
  cases hacquire : emitter.pool.acquire? with
  | some found =>
    have hlimit := (Pool.sameSettings_acquire? hacquire).2
    exact ⟨hlimit.trans h.limit_eq, h.nodup, h.mem_iff⟩
  | none =>
    rw [h.limit_eq]
    rfl

theorem checkSlot (h : emitter.Awaits limit waiting) (hslot : slot < frame.slotCount) :
    LeadsTo frame limit waiting (Emission.checkSlot frame slot emitter) := by
  unfold Emission.checkSlot
  rw [if_pos hslot]
  exact h

theorem emit (h : emitter.Awaits limit waiting) (instruction : Instr) :
    LeadsTo frame limit waiting (Emission.emit instruction emitter) :=
  ⟨h.limit_eq, h.nodup, h.mem_iff⟩

theorem bind (h : emitter.Awaits limit waiting) (slot register : Nat) :
    LeadsTo frame limit waiting (Emission.bind slot register emitter) :=
  ⟨h.limit_eq, h.nodup, h.mem_iff⟩

theorem release (h : emitter.Awaits limit waiting) (register : Nat) :
    LeadsTo frame limit waiting (Emission.release register emitter) :=
  ⟨(Pool.limit_release register emitter.pool).trans h.limit_eq, h.nodup, h.mem_iff⟩

/-- A temporary that does not wait can be defined, and waits then. -/
theorem define (h : emitter.Awaits limit waiting) (htemp : temp ∉ waiting) (register : Nat) :
    LeadsTo frame limit ({temp} + waiting) (Emission.define frame temp register emitter) := by
  have hnone : emitter.temps[temp]? = none :=
    Std.TreeMap.getElem?_eq_none (mt (h.mem_iff temp).mp htemp)
  unfold Emission.define
  rw [hnone, Multiset.singleton_add]
  refine ⟨h.limit_eq, Multiset.nodup_cons.mpr ⟨htemp, h.nodup⟩, fun other ↦ ?_⟩
  rw [Std.TreeMap.mem_insert, h.mem_iff, Multiset.mem_cons, Nat.compare_eq_eq, eq_comm]

/-- A temporary that waits can be used, and does not wait any more. -/
theorem consume (h : emitter.Awaits limit ({temp} + waiting)) :
    LeadsTo frame limit waiting (Emission.consume frame temp emitter) := by
  rw [Multiset.singleton_add] at h
  obtain ⟨hgone, hnodup⟩ := Multiset.nodup_cons.mp h.nodup
  have hmem : temp ∈ emitter.temps := (h.mem_iff temp).mpr (Multiset.mem_cons_self temp waiting)
  unfold Emission.consume
  cases htemp : emitter.temps[temp]? with
  | none =>
    rw [Std.TreeMap.mem_iff_isSome_getElem?, htemp] at hmem
    cases hmem
  | some register =>
    refine ⟨h.limit_eq, hnodup, fun other ↦ ?_⟩
    rw [Std.TreeMap.mem_erase, h.mem_iff, Multiset.mem_cons, Ne, Nat.compare_eq_eq]
    by_cases hother : other = temp
    · simp [hother, hgone]
    · simp [hother, Ne.symm hother]

/-! ### Operands and instructions -/

theorem copySlot (h : emitter.Awaits limit waiting) (hslot : slot < frame.slotCount) :
    LeadsTo frame limit waiting (Emission.copySlot frame slot emitter) := by
  refine Ends.bind (h.checkSlot hslot) fun _ checked hchecked ↦ ?_
  refine Ends.bind hchecked.acquire fun dest acquired hacquired ↦ ?_
  have hget : LeadsTo frame limit waiting ((get : Emission Emitter) acquired) := hacquired
  refine Ends.bind hget fun current middle hmiddle ↦ ?_
  dsimp only
  cases current.bindings.register? slot with
  | some source => exact Ends.bind (hmiddle.emit (.move dest source)) fun _ _ hemitted ↦ hemitted
  | none => exact Ends.bind (hmiddle.emit (.load dest 0)) fun _ _ hemitted ↦ hemitted

/-- An operand that is threaded can be brought into a register, and uses up the temporary that it
is. -/
theorem intoRegister (h : emitter.Awaits limit (Operand.temps [operand] + waiting))
    (hslots : SlotsBelow frame.slotCount [operand]) :
    LeadsTo frame limit waiting (Emission.intoRegister frame operand emitter) := by
  cases operand with
  | const value =>
    rw [Linear.Operand.temps_const, zero_add] at h
    refine Ends.bind h.acquire fun dest acquired hacquired ↦ ?_
    exact Ends.bind (hacquired.emit (.load dest value)) fun _ _ hemitted ↦ hemitted
  | slot slot =>
    rw [Linear.Operand.temps_slot, zero_add] at h
    exact h.copySlot (Linear.Operand.slotsBelow_slot.mp hslots)
  | temp temp => exact h.consume

theorem step (instruction : Linear.Instr)
    (h : emitter.Awaits limit (Operand.temps instruction.operands + waiting))
    (hfresh : ∀ dest ∈ instruction.dest?, dest ∉ waiting)
    (hreads : SlotsBelow frame.slotCount instruction.operands)
    (hwrites : ∀ slot value, instruction = .assign slot value → slot < frame.slotCount) :
    LeadsTo frame limit (instruction.dest?.toList + waiting)
      (Emission.step frame instruction emitter) := by
  cases instruction with
  | snapshot dest slot =>
    refine Ends.bind (intoRegister h hreads) fun register copied hcopied ↦ ?_
    exact hcopied.define (hfresh dest rfl) register
  | assign slot value =>
    rw [Linear.Instr.dest?, Option.toList_none, Multiset.coe_nil, zero_add]
    refine Ends.bind (h.checkSlot (hwrites slot value rfl)) fun _ checked hchecked ↦ ?_
    refine Ends.bind (hchecked.intoRegister hreads) fun register filled hfilled ↦ ?_
    refine Ends.bind (hfilled.bind slot register) fun previous bound hbound ↦ ?_
    cases previous with
    | some old => exact hbound.release old
    | none => exact hbound
  | add dest lhs rhs =>
    obtain ⟨hlhs, hrhs⟩ := Linear.Operand.slotsBelow_cons.mp hreads
    rw [Linear.Instr.operands, Linear.Operand.temps_cons, add_assoc] at h
    refine Ends.bind (h.intoRegister hlhs) fun left first hfirst ↦ ?_
    refine Ends.bind (hfirst.intoRegister hrhs) fun right second hsecond ↦ ?_
    refine Ends.bind (hsecond.emit (.add left right)) fun _ added hadded ↦ ?_
    refine Ends.bind (hadded.release right) fun _ released hreleased ↦ ?_
    exact hreleased.define (hfresh dest rfl) left

/-- Threaded code is emitted to its end, unless registers run out. -/
theorem forM_step {code : List Linear.Instr} {count : Nat}
    (hcode : Threaded frame.slotCount code count waiting) (h : emitter.Awaits limit 0) :
    LeadsTo frame limit waiting (code.forM (Emission.step frame) emitter) := by
  induction hcode with
  | nil => exact h
  | @snoc code count waiting instruction before fresh reads writes ih =>
    have happend : (code ++ [instruction]).forM (Emission.step frame) =
        (do code.forM (Emission.step frame)
            [instruction].forM (Emission.step frame)) := List.forM_append
    rw [happend]
    refine Ends.bind ih fun _ middle hmiddle ↦ ?_
    have hfresh : ∀ dest ∈ instruction.dest?, dest ∉ waiting := by
      -- The temporary that is set now has a number above those of all that wait.
      intro dest hdest hwaiting
      have hlt := before.lt_of_mem_waiting (Multiset.mem_add.mpr (.inr hwaiting))
      rw [fresh dest hdest] at hlt
      exact Nat.lt_irrefl count hlt
    exact Ends.bind (step instruction hmiddle hfresh reads writes) fun _ _ hstepped ↦ hstepped

/-! ### Functions -/

theorem placeParams (count : Nat) :
    ∀ {slot : Nat} {emitter : Emitter}, emitter.Awaits limit waiting →
      LeadsTo frame limit waiting (Emission.placeParams frame slot count emitter) := by
  induction count with
  | zero => exact fun h ↦ h
  | succ count ih =>
    intro slot emitter h
    refine Ends.bind h.acquire fun register acquired hacquired ↦ ?_
    exact Ends.bind (hacquired.bind slot register) fun _ _ hbound ↦ ih hbound

theorem returned (h : emitter.Awaits limit (Operand.temps [operand] + waiting))
    (hslots : SlotsBelow frame.slotCount [operand]) :
    LeadsTo frame limit waiting (Emission.returned frame operand emitter) := by
  cases operand with
  | const value => exact h.intoRegister hslots
  | temp temp => exact h.intoRegister hslots
  | slot slot =>
    rw [Linear.Operand.temps_slot, zero_add] at h
    have hget : LeadsTo frame limit waiting ((get : Emission Emitter) emitter) := h
    refine Ends.bind hget fun current middle hmiddle ↦ ?_
    cases current.bindings.register? slot with
    | some register => exact hmiddle
    | none => exact hmiddle.copySlot (Linear.Operand.slotsBelow_slot.mp hslots)

end Awaits

end Emitter

namespace Emission

variable {frame : Frame} {limit : Nat} {waiting : Multiset Nat} {emitter : Emitter}

/-- The two reasons to reject threaded code: registers run out, or there is nothing to return. -/
def Rejects (index limit : Nat) (terminator : Terminator) (failure : Diagnostic) : Prop :=
  failure = .emission index (.outOfRegisters limit) ∨
    terminator = .ret none ∧ failure = .emission index .missingReturnValue

/-- A terminator whose operand waits is rejected for the two reasons only, and it is rejected if it
has nothing to return. -/
theorem ends_finish (terminator : Terminator)
    (h : emitter.Awaits limit (Operand.temps terminator.operands + waiting))
    (hslots : SlotsBelow frame.slotCount terminator.operands) :
    Ends (fun _ _ ↦ terminator ≠ .ret none) (Rejects frame.function limit terminator)
      (finish frame terminator emitter) := by
  match terminator with
  | .ret (some operand) =>
    have hreturned := Emitter.Awaits.returned h hslots
    refine Ends.bind (hreturned.mono (fun _ _ h ↦ h) fun _ ↦ .inl) fun source middle _ ↦ ?_
    exact fun hnone ↦ by cases hnone
  | .ret none => exact .inr ⟨rfl, rfl⟩
  | .trap => exact fun hnone ↦ by cases hnone

theorem ends_body {function : Linear.Function} {lost : Multiset Nat} (pool : Pool)
    (hslots : SlotsBelow function.slotCount function.terminator.operands)
    (hcode : Threaded function.slotCount function.instructions function.tempCount
      (Operand.temps function.terminator.operands + lost)) :
    Ends (fun _ _ ↦ function.terminator ≠ .ret none)
      (Rejects function.index pool.limit function.terminator)
      (body function (.start function.slotCount pool)) := by
  have hstart := Emitter.awaits_start function.slotCount pool
  have hplaced : Emitter.LeadsTo (frameOf function) pool.limit 0
      (placeParams (frameOf function) 0 function.params.length (.start function.slotCount pool)) :=
    hstart.placeParams function.params.length
  refine Ends.bind (hplaced.mono (fun _ _ h ↦ h) fun _ ↦ .inl) fun _ placed hawaits ↦ ?_
  have hemitted : Emitter.LeadsTo (frameOf function) pool.limit
      (Operand.temps function.terminator.operands + lost)
      (function.instructions.forM (step (frameOf function)) placed) := hawaits.forM_step hcode
  refine Ends.bind (hemitted.mono (fun _ _ h ↦ h) fun _ ↦ .inl) fun _ emitted hlast ↦ ?_
  exact ends_finish function.terminator hlast hslots

end Emission

/-- The emission of a function that lowering gave ends with code only if there is something to
return, and it is rejected for the two reasons only. -/
theorem ends_emitFunction {definition : Linear.Definition} {before after : Linear.Builder}
    {function : Linear.Function} (h : definition.lower before = .ok function after) (pool : Pool) :
    Ends (fun _ _ ↦ function.terminator ≠ .ret none)
      (Emission.Rejects function.index pool.limit function.terminator)
      (emitFunction function pool) := by
  obtain ⟨hslots, lost, hcode, -⟩ := Linear.Definition.threaded_lower h
  have hends := Emission.ends_body pool hslots hcode
  unfold emitFunction
  cases hrun : Emission.body function (.start function.slotCount pool) with
  | ok value emitter =>
    rw [hrun] at hends
    exact hends
  | error failure emitter =>
    rw [hrun] at hends
    exact hends

/-- Assumes: a function that lowering gave. If emission rejects it, then because all registers are
in use, or because the function returns without a value. Emission never accepts a function that
returns without a value. -/
theorem emitFunction_lower {definition : Linear.Definition} {before after : Linear.Builder}
    {function : Linear.Function} (h : definition.lower before = .ok function after) (pool : Pool) :
    (∀ failure stop, emitFunction function pool = .error failure stop →
      failure = .emission function.index (.outOfRegisters pool.limit) ∨
        function.terminator = .ret none ∧
          failure = .emission function.index .missingReturnValue) ∧
    (function.terminator = .ret none →
      ∀ code next, emitFunction function pool ≠ .ok code next) := by
  have hends := ends_emitFunction h pool
  refine ⟨fun failure stop hrun ↦ ?_, fun hnone code next hrun ↦ ?_⟩
  · rw [hrun] at hends
    exact hends
  · rw [hrun] at hends
    exact hends hnone

/-- A body that does nothing, and so returns without a value. -/
def idle : Linear.Definition where
  index := 3
  typeIndex := 0
  signature := { params := [], result := .i32 }
  body := { locals := [], code := [0x01, 0x0b], codeOffset := 0 }

/-- Its linear code. -/
def idled : Linear.Function where
  index := 3
  typeIndex := 0
  params := []
  locals := []
  result := .i32
  instructions := []
  terminator := .ret none
  tempCount := 0

/-- Three registers are too few for `accumulated`, and no number of them is enough for `idled`. -/
theorem emitFunction_lower_rejected :
    (∃ after, Linear.Definition.accumulating.lower (.ofCapacity 3) =
        .ok Linear.Definition.accumulated after ∧
      ∃ stop, emitFunction Linear.Definition.accumulated (.ofLimit .freeList 3) =
        .error (.emission 0 (.outOfRegisters 3)) stop) ∧
    ∃ after, idle.lower (.ofCapacity 0) = .ok idled after ∧
      ∀ pool, ∃ failure stop, emitFunction idled pool = .error failure stop := by
  have haccumulated : Success.value? (Linear.Definition.accumulating.lower (.ofCapacity 3)) =
      some Linear.Definition.accumulated := by decide +kernel
  have hidled : Success.value? (idle.lower (.ofCapacity 0)) = some idled := by decide +kernel
  obtain ⟨after, h⟩ := Success.exists_of_value? haccumulated
  obtain ⟨after', h'⟩ := Success.exists_of_value? hidled
  refine ⟨⟨after, h, ?_⟩, after', h', fun pool ↦ ?_⟩
  · have hfails : Success.succeeds
        (emitFunction Linear.Definition.accumulated (.ofLimit .freeList 3)) = false := by
      decide +kernel
    have hreasons := (emitFunction_lower h (.ofLimit .freeList 3)).1
    cases hrun : emitFunction Linear.Definition.accumulated (.ofLimit .freeList 3) with
    | ok code next =>
      rw [hrun] at hfails
      cases hfails
    | error failure stop =>
      obtain rfl | ⟨hnone, -⟩ := hreasons failure stop hrun
      · exact ⟨stop, rfl⟩
      · cases hnone
  · have hnever := (emitFunction_lower h' pool).2 rfl
    cases hrun : emitFunction idled pool with
    | ok code next => exact absurd hrun (hnever code next)
    | error failure stop => exact ⟨failure, stop, rfl⟩

end StraightWasm.Machine
