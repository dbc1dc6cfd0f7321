import StraightWasm.Proofs.Success
import StraightWasm.StackCode.Run

/-!
# Reading and running stack code

A scan reads instruction after instruction (`StackCode.scanFrom_of_some`), up to the first `end` or
the first failure. A run that executes all instructions returns what is then on top of the stack
(`StackCode.run_of_foldlM`).
-/

set_option autoImplicit false
set_option relaxedAutoImplicit false

namespace StraightWasm.StackCode

variable {function : Nat} {span after : Span}

/-! ### Scans -/

theorem scanFrom_of_some {instruction : Instruction}
    (h : next function span = .ok (some instruction) after) (found : List Located) :
    scanFrom function found span =
      scanFrom function ({ offset := span.offset, instruction := instruction } :: found) after := by
  rw [scanFrom]
  split <;> simp_all

theorem scanFrom_of_none (h : next function span = .ok none after) (found : List Located) :
    scanFrom function found span = { instructions := found.reverse, ending := .ok after } := by
  rw [scanFrom]
  split <;> simp_all

theorem scanFrom_of_error {failure : Diagnostic} (h : next function span = .error failure after)
    (found : List Located) :
    scanFrom function found span = { instructions := found.reverse, ending := .error failure } := by
  rw [scanFrom]
  split <;> simp_all

/-! ### Runs -/

/-- A run goes on from the state behind its first instruction. -/
theorem run_cons_of_step {instruction : Instruction} {state next : State}
    (h : state.step instruction = some next) (rest : List Instruction) :
    run (instruction :: rest) state = run rest next := by
  cases instruction with
  | unreachable => cases h
  | nop | const value | localGet slot | localSet slot | localTee slot | add =>
    rw [run, h, Option.bind_some]
    exact Instruction.noConfusion

/-- A run that executes all instructions returns what is then on top of the stack. -/
theorem run_of_foldlM (instructions : List Instruction) :
    ∀ {state last : State}, instructions.foldlM State.step state = some last →
      run instructions state = some (.returned last.stack.head?) := by
  induction instructions with
  | nil =>
    intro state last h
    cases h
    rfl
  | cons instruction others ih =>
    intro state last h
    rw [List.foldlM_cons, Option.bind_eq_bind, Option.bind_eq_some_iff] at h
    obtain ⟨next, hstep, hothers⟩ := h
    rw [run_cons_of_step hstep]
    exact ih hothers

end StraightWasm.StackCode
