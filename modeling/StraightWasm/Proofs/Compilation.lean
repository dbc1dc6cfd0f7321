import StraightWasm.Compile
import StraightWasm.Proofs.Linear.Simulation
import StraightWasm.Proofs.Machine.Footprint
import StraightWasm.Proofs.Machine.ProgramLaws
import StraightWasm.Proofs.Machine.Simulation
import StraightWasm.Proofs.Module.Recognition

/-!
# Compiled code does what the module says

A successful compilation is a success of each stage on what the stage before gave (`compile_cases`).
Decoding leaves as many functions as bodies (`Module.length_functions`), lowering gives the linear
function of each at its position (`Linear.lower_of_ofModule`), and the program has the code of that
function under the same number. So the simulations of the two stages compose: the code of every
function does what the stack machine does on its body (`compile_preserves`).
-/

set_option autoImplicit false
set_option relaxedAutoImplicit false

namespace StraightWasm

/-! ### Stages -/

theorem Stage.mark_iff {α : Type} {stage : Stage} {result : Except Diagnostic α} {value : α} :
    stage.mark result = .ok value ↔ result = .ok value := by
  cases result with
  | ok found => simp [mark, Except.mapError]
  | error failure => simp [mark, Except.mapError]

/-- A compilation that succeeds is a success of its stages, one after the other. -/
theorem compile_cases {options : Options} {bytes : List UInt8} {compiled : Compiled}
    (h : compile options bytes = .ok compiled) :
    Module.decode bytes = .ok compiled.module ∧
      Linear.ofModule options.stackCapacity compiled.module = .ok compiled.linear ∧
      Machine.Program.ofLinear options.strategy options.registers compiled.linear =
        .ok compiled.program := by
  obtain ⟨module, hmodule, h⟩ := Success.except_bind_iff.mp h
  obtain ⟨linear, hlinear, h⟩ := Success.except_bind_iff.mp h
  obtain ⟨program, hprogram, h⟩ := Success.except_bind_iff.mp h
  cases h
  exact ⟨Stage.mark_iff.mp hmodule, Stage.mark_iff.mp hlinear, Stage.mark_iff.mp hprogram⟩

theorem Linear.ofModule_iff {capacity : Nat} {module : Module} {functions : List Function} :
    ofModule capacity module = .ok functions ↔
      ∃ after, lowerModule module (.ofCapacity capacity) = .ok functions after := by
  unfold ofModule
  cases hlower : lowerModule module (.ofCapacity capacity) with
  | ok found after => simp
  | error failure stop => simp

theorem Machine.Program.ofLinear_iff {strategy : Strategy} {registers : Nat}
    {functions : List Linear.Function} {program : Program} :
    ofLinear strategy registers functions = .ok program ↔
      ∃ next, emitProgram functions (.ofLimit strategy registers) = .ok program next := by
  unfold ofLinear
  cases hemit : emitProgram functions (.ofLimit strategy registers) with
  | ok found next => simp
  | error failure stop => simp

/-! ### From stage to stage -/

/-- A module that was decoded has as many functions as bodies. -/
theorem Module.length_functions {bytes : List UInt8} {module : Module}
    (h : decode bytes = .ok module) : module.functions.length = module.bodies.length := by
  obtain ⟨_, _, _, _, _, hlength⟩ := read_iff_written.mp (decode_iff.mp h)
  exact hlength

namespace Linear

/-- An entry of a module is lowered under the signature that its type index stands for. -/
theorem lowerEntry_cases {types : List Signature} {index typeIndex : Nat} {body : Body}
    {function : Function} {before after : Builder}
    (h : lowerEntry types index typeIndex body before = .ok function after) :
    ∃ signature, types[typeIndex]? = some signature ∧
      Definition.lower
        { index := index, typeIndex := typeIndex, signature := signature, body := body } before =
          .ok function after := by
  unfold lowerEntry at h
  cases hsignature : types[typeIndex]? with
  | some signature =>
    rw [hsignature] at h
    exact ⟨signature, rfl, h⟩
  | none =>
    rw [hsignature] at h
    cases h

variable {capacity : Nat} {module : Module} {functions : List Function}

/-- Every linear function of a module comes from the signature and the body at its position. -/
theorem lower_of_ofModule (h : ofModule capacity module = .ok functions) {position : Nat}
    {function : Function} (hfunction : functions[position]? = some function) :
    ∃ (definition : Definition) (before after : Builder), definition.index = position ∧
      module.signature? position = some definition.signature ∧
      module.bodies[position]? = some definition.body ∧
      definition.lower before = .ok function after := by
  obtain ⟨_, hlower⟩ := ofModule_iff.mp h
  have hpaired := (Success.forall₂_of_mapM _ hlower).flip
  obtain ⟨⟨⟨typeIndex, body⟩, index⟩, hitem, before, after, hentry⟩ :=
    Success.getElem?_of_forall₂ hpaired hfunction
  rw [List.getElem?_zipIdx, Nat.zero_add, Option.map_eq_some_iff] at hitem
  obtain ⟨_, hzip, hpair⟩ := hitem
  cases hpair
  obtain ⟨htype, hbody⟩ := List.getElem?_zip_eq_some.mp hzip
  obtain ⟨signature, hsignature, hlowered⟩ := lowerEntry_cases hentry
  refine ⟨_, before, after, rfl, ?_, hbody, hlowered⟩
  rw [Module.signature?, htype]
  exact hsignature

/-- The linear functions of a module are numbered in order. -/
theorem index_of_ofModule (h : ofModule capacity module = .ok functions) (position : Nat)
    (function : Function) (hfunction : functions[position]? = some function) :
    function.index = position := by
  obtain ⟨definition, before, after, rfl, -, -, hlower⟩ := lower_of_ofModule h hfunction
  obtain ⟨_, _, _, -, -, -, rfl⟩ := Definition.lower_iff.mp hlower
  rfl

/-- A module with as many functions as bodies has as many linear functions. -/
theorem length_ofModule (h : ofModule capacity module = .ok functions)
    (hlength : module.functions.length = module.bodies.length) :
    functions.length = module.functions.length := by
  obtain ⟨_, hlower⟩ := ofModule_iff.mp h
  have hpaired := Success.forall₂_of_mapM _ hlower
  rw [← hpaired.length_eq, List.length_zipIdx, List.length_zip, ← hlength, Nat.min_self]

end Linear

/-! ### Whole programs -/

/-- Assumes: a binary that compiles, with whatever stack, registers and strategy, and the number of
one of its functions. The function has a signature, a body and machine code. Its code reads no
register but those of the parameters and those it has written before. On all arguments the stack
machine has an outcome on the body, which is a value or a trap, and the code has the same outcome
whatever the other registers contain at the call. -/
theorem compile_preserves {options : Options} {bytes : List UInt8} {compiled : Compiled}
    (h : compile options bytes = .ok compiled) {position : Nat}
    (hposition : position < compiled.module.functions.length) :
    Module.decode bytes = .ok compiled.module ∧
    ∃ signature body code, compiled.module.signature? position = some signature ∧
      compiled.module.bodies[position]? = some body ∧
      compiled.program.function? position = some code ∧
      Machine.ReadsWritten signature.params.length code ∧
      ∀ arguments : List Int32, arguments.length = signature.params.length →
        ∃ outcome, body.Yields arguments outcome ∧
          outcome ≠ .returned none ∧
          ∀ leftover, Machine.run code (.start arguments leftover) = some outcome := by
  obtain ⟨hdecode, hlinear, hprogram⟩ := compile_cases h
  refine ⟨hdecode, ?_⟩
  have hlength := Module.length_functions hdecode
  obtain ⟨function, hfunction⟩ : ∃ function, compiled.linear[position]? = some function := by
    rw [← Linear.length_ofModule hlinear hlength] at hposition
    exact ⟨_, List.getElem?_eq_getElem hposition⟩
  obtain ⟨definition, before, after, rfl, hsignature, hbody, hlower⟩ :=
    Linear.lower_of_ofModule hlinear hfunction
  obtain ⟨_, hemit⟩ := Machine.Program.ofLinear_iff.mp hprogram
  obtain ⟨code, earlier, later, hcode, hfunction?⟩ :=
    Machine.function?_emitProgram hemit (Linear.index_of_ofModule hlinear) hfunction
  obtain ⟨emitter, hemitter, rfl, -⟩ := Machine.emitFunction_iff.mp hcode
  have hparams : function.params = definition.signature.params := by
    obtain ⟨_, _, _, -, -, -, rfl⟩ := Linear.Definition.lower_iff.mp hlower
    rfl
  refine ⟨definition.signature, definition.body, _, hsignature, hbody, hfunction?, ?_, ?_⟩
  · rw [← hparams]
    exact (Machine.Emission.footprint_body hemitter).reads
  · intro arguments harguments
    obtain ⟨outcome, hstack, houtcome, -⟩ := Linear.Definition.outcomes_agree hlower harguments
    rw [← hparams] at harguments
    obtain ⟨found, hfound, hrun, -, hvalue⟩ :=
      Machine.Emission.outcome_body hemitter harguments
    rw [houtcome, Option.some.injEq] at hfound
    rw [← hfound] at hrun hvalue
    exact ⟨outcome, hstack, hvalue, hrun⟩

/-- A binary with one function, which overwrites its parameter and its local while their old values
wait on the stack. The function gives one more than twice its argument. -/
def overtakenBinary : List UInt8 :=
  [0x00, 0x61, 0x73, 0x6d, 0x01, 0x00, 0x00, 0x00,
    0x01, 0x06, 0x01, 0x60, 0x01, 0x7f, 0x01, 0x7f,
    0x03, 0x02, 0x01, 0x00,
    0x0a, 0x18, 0x01, 0x16, 0x01, 0x01, 0x7f,
    0x20, 0x00, 0x20, 0x00, 0x41, 0x01, 0x6a, 0x22, 0x00, 0x6a, 0x21, 0x01, 0x20, 0x01,
    0x41, 0x00, 0x21, 0x01, 0x0b]

/-- Its body. -/
def overtakenBody : Body where
  locals := [.i32]
  code := overtakenBinary.drop 27
  codeOffset := 27

/-- A stack of three and four registers are enough for it if registers are taken back. -/
theorem compile_preserves_overtakenBinary :
    ∃ compiled code,
      compile { stackCapacity := 3, registers := 4, strategy := .freeList } overtakenBinary =
        .ok compiled ∧
      compiled.program.function? 0 = some code ∧
      ∀ leftover, Machine.run code (.start [20] leftover) = some (.returned (some 41)) := by
  have hsuccess : (match compile { stackCapacity := 3, registers := 4, strategy := .freeList }
        overtakenBinary with
      | .ok compiled => decide (0 < compiled.module.functions.length ∧
          (compiled.module.signature? 0).map (·.params.length) = some 1 ∧
          compiled.module.bodies[0]? = some overtakenBody)
      | .error _ => false) = true := by decide +kernel
  have hspells : overtakenBody.Spells Linear.Definition.overtakenCode :=
    (Body.spells_iff 0).mpr ⟨{ offset := 46, bytes := [] }, by decide +kernel, rfl,
      by decide +kernel⟩
  have hresult : overtakenBody.Yields [20] (.returned (some 41)) :=
    ⟨Linear.Definition.overtakenCode, hspells, by decide +kernel⟩
  cases h : compile { stackCapacity := 3, registers := 4, strategy := .freeList }
      overtakenBinary with
  | error failure =>
    rw [h] at hsuccess
    cases hsuccess
  | ok compiled =>
    rw [h] at hsuccess
    obtain ⟨hposition, hparams, hdecoded⟩ := of_decide_eq_true hsuccess
    obtain ⟨-, signature, body, code, hsignature, hbody, hcode, -, hrun⟩ :=
      compile_preserves h hposition
    rw [hsignature, Option.map_some, Option.some.injEq] at hparams
    rw [hdecoded, Option.some.injEq] at hbody
    obtain ⟨outcome, houtcome, -, hmachine⟩ := hrun [20] hparams.symm
    rw [← hbody] at houtcome
    rw [houtcome.unique hresult] at hmachine
    exact ⟨compiled, code, rfl, hcode, hmachine⟩

end StraightWasm
