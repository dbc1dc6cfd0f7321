import StraightWasm.Proofs.Machine.Ownership

/-!
# The registers that code touches

A register is written by code if it holds a parameter at the call or some instruction has it as its
destination (`Written`). While a function is emitted, the registers that the code so far has written
are exactly those that the pool has handed out, and every instruction reads registers that were
written before it (`Emitter.Footprint`). Both hold at the call, and every action that emits an
instruction keeps them (`Emitter.Footprint.emit`), so they hold of the code of a function
(`Emission.footprint_body`).
-/

set_option autoImplicit false
set_option relaxedAutoImplicit false

namespace StraightWasm.Machine

open Linear (Frame Operand Terminator)

/-! ### Registers that are written -/

/-- Whether a register holds one of the parameters or is written by an instruction. -/
def Written (params : Nat) (code : List Instr) (register : Nat) : Prop :=
  register < params ∨ ∃ instruction ∈ code, instruction.dest? = some register

/-- Whether every instruction reads only what was written before it. -/
def ReadsWritten (params : Nat) (code : List Instr) : Prop :=
  ∀ front instruction rest, code = front ++ instruction :: rest →
    ∀ source ∈ instruction.sources, Written params front source

variable {params : Nat}

theorem written_concat {code : List Instr} {instruction : Instr} {register : Nat} :
    Written params (code ++ [instruction]) register ↔
      Written params code register ∨ instruction.dest? = some register := by
  simp [Written, or_and_right, exists_or, or_assoc]

/-- An instruction that reads only what was written can be put behind code. -/
theorem ReadsWritten.concat {code : List Instr} (h : ReadsWritten params code) {instruction : Instr}
    (hsources : ∀ source ∈ instruction.sources, Written params code source) :
    ReadsWritten params (code ++ [instruction]) := by
  intro front other rest hsplit
  rcases List.eq_nil_or_concat rest with rfl | ⟨between, last, rfl⟩
  · obtain ⟨rfl, hlast⟩ := List.append_inj' hsplit rfl
    rw [List.cons.injEq] at hlast
    rw [← hlast.1]
    exact hsources
  · rw [List.concat_eq_append, ← List.cons_append, ← List.append_assoc] at hsplit
    obtain ⟨hcode, -⟩ := List.append_inj' hsplit rfl
    exact h front other between hcode

/-! ### Emission -/

namespace Emitter

/-- The code so far has written the registers that were handed out, and it reads what it has
written. -/
structure Footprint (params : Nat) (emitter : Emitter) : Prop where
  written_iff : ∀ register, Written params emitter.code.toList register ↔
    register < emitter.pool.used
  reads : ReadsWritten params emitter.code.toList

namespace Footprint

variable {frame : Frame} {hand : List Nat} {before after : Emitter} {register : Nat}

/-- Emitting an instruction that reads what was handed out and writes what is handed out new. -/
theorem emit (h : before.Footprint params) (instruction : Instr) (pool : Pool)
    (hsources : ∀ source ∈ instruction.sources, source < before.pool.used)
    (hused : ∀ other, other < pool.used ↔
      other < before.pool.used ∨ instruction.dest? = some other) :
    Footprint params { before with pool := pool, code := before.code.push instruction } := by
  constructor
  · intro other
    rw [Array.toList_push, written_concat, h.written_iff, hused]
  · rw [Array.toList_push]
    refine h.reads.concat fun source hsource ↦ ?_
    exact (h.written_iff source).mpr (hsources source hsource)

/-- Filling a register that was just acquired. -/
theorem fill (h : before.Footprint params) {pool : Pool} {instruction : Instr}
    (hacquire : before.pool.acquire? = some (register, pool))
    (hdest : instruction.dest? = some register)
    (hsources : ∀ source ∈ instruction.sources, source < before.pool.used) :
    Footprint params { before with pool := pool, code := before.code.push instruction } := by
  refine h.emit instruction pool hsources fun other ↦ ?_
  rw [Pool.lt_used_acquire? hacquire, hdest, Option.some.injEq, @eq_comm _ other]

theorem intoRegister (h : before.Footprint params) (horderly : before.Orderly frame hand)
    {operand : Operand} (hrun : Emission.intoRegister frame operand before = .ok register after) :
    after.Footprint params := by
  obtain ⟨value, pool, -, hpool, rfl⟩ | ⟨slot, pool, -, -, hpool, rfl⟩ | ⟨temp, -, -, rfl⟩ :=
    Emission.intoRegister_cases hrun
  · exact h.fill hpool rfl (by simp [Instr.sources])
  · unfold Emission.copyInstr
    cases hsource : before.bindings.register? slot with
    | none => exact h.fill hpool rfl (by simp [Instr.sources])
    | some source =>
      have hlent := horderly.apportioned.lent (.inr ⟨.slot slot, hsource⟩)
      refine h.fill hpool rfl fun other hother ↦ ?_
      rw [List.mem_singleton.mp hother]
      exact hlent.1
  · exact ⟨h.written_iff, h.reads⟩

theorem step (h : before.Footprint params) (horderly : before.Orderly frame [])
    {instruction : Linear.Instr} (hrun : Emission.step frame instruction before = .ok () after) :
    after.Footprint params := by
  cases instruction with
  | snapshot dest slot =>
    obtain ⟨register, middle, hcopy, -, rfl⟩ := Emission.snapshot_cases hrun
    have hmiddle := h.intoRegister horderly hcopy
    exact ⟨hmiddle.written_iff, hmiddle.reads⟩
  | assign slot value =>
    obtain ⟨-, register, middle, hvalue, rfl⟩ := Emission.assign_cases hrun
    have hmiddle := h.intoRegister horderly hvalue
    refine ⟨fun other ↦ ?_, hmiddle.reads⟩
    rw [hmiddle.written_iff]
    cases middle.bindings.register? slot with
    | none => rfl
    | some old => rw [Emission.releasePrevious, Pool.used_release]
  | add dest lhs rhs =>
    obtain ⟨left, middle, right, late, hleft, hright, -, rfl⟩ := Emission.add_cases hrun
    have hmiddle := horderly.intoRegister hleft
    have hlate := hmiddle.intoRegister hright
    have hsources : ∀ source ∈ [left, right], source < late.pool.used := by
      intro source hsource
      refine (hlate.apportioned.lent (.inl ?_)).1
      rw [List.mem_cons, List.mem_singleton] at hsource ⊢
      exact hsource.symm
    have hadded := ((h.intoRegister horderly hleft).intoRegister hmiddle hright).emit
      (.add left right) (late.pool.release right) hsources fun other ↦ by
        rw [Pool.used_release, Instr.dest?, Option.some.injEq]
        refine ⟨.inl, ?_⟩
        rintro (hother | rfl)
        · exact hother
        · exact hsources left List.mem_cons_self
    exact ⟨hadded.written_iff, hadded.reads⟩

/-- A terminator writes nothing but the register of a value that has none yet, and reads what was
written. -/
theorem finish (h : before.Footprint params) (horderly : before.Orderly frame [])
    {terminator : Terminator} (hrun : Emission.finish frame terminator before = .ok () after) :
    after.Footprint params := by
  obtain ⟨operand, source, middle, -, hreturned, rfl⟩ | ⟨-, rfl⟩ := Emission.finish_cases hrun
  · have hmiddle : middle.Footprint params ∧ source < middle.pool.used := by
      obtain ⟨slot, -, hslot, rfl⟩ | hoperand := Emission.returned_cases hreturned
      · exact ⟨h, (horderly.apportioned.lent (.inr ⟨.slot slot, hslot⟩)).1⟩
      · have hmem : source ∈ [source] := List.mem_cons_self
        exact ⟨h.intoRegister horderly hoperand,
          ((horderly.intoRegister hoperand).apportioned.lent (.inl hmem)).1⟩
    refine hmiddle.1.emit (.ret source) middle.pool ?_ ?_
    · intro other hother
      rw [List.mem_singleton.mp hother]
      exact hmiddle.2
    · simp [Instr.dest?]
  · exact h.emit .trap before.pool (by simp [Instr.sources]) (by simp [Instr.dest?])

end Footprint

/-- At the call only the parameters have registers. -/
theorem Placed.footprint {frame : Frame} {pool : Pool} {count : Nat} {emitter : Emitter}
    (h : emitter.Placed frame pool count) : emitter.Footprint count := by
  constructor
  · intro register
    simp [Written, h.code, h.used]
  · intro front instruction rest hsplit
    rw [h.code] at hsplit
    simp at hsplit

end Emitter

/-- The code of a function writes the registers that were handed out for it and reads only what was
written before. -/
theorem Emission.footprint_body {function : Linear.Function} {pool : Pool} {after : Emitter}
    (h : body function (.start function.slotCount pool) = .ok () after) :
    after.Footprint function.params.length := by
  obtain ⟨_, placed, hplace, h⟩ := Success.bind_iff.mp h
  obtain ⟨_, late, hinstructions, hfinish⟩ := Success.bind_iff.mp h
  have hplaced := placed_params hplace
  have hlate : late.Orderly (frameOf function) [] ∧ late.Footprint function.params.length :=
    Success.forM_keeps
      (fun emitter ↦ emitter.Orderly (frameOf function) [] ∧
        emitter.Footprint function.params.length)
      (fun _ _ _ hkept hstep ↦ ⟨hkept.1.step hstep, hkept.2.step hkept.1 hstep⟩) _ placed late
      ⟨hplaced.orderly, hplaced.footprint⟩ hinstructions
  exact hlate.2.finish hlate.1 hfinish

end StraightWasm.Machine
