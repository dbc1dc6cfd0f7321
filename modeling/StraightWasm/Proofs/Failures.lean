import StraightWasm.Proofs.Compilation
import StraightWasm.Proofs.Linear.Faults
import StraightWasm.Proofs.Machine.Acceptance
import StraightWasm.Proofs.Module.Faults

/-!
# Failures point at the right place

A compilation that fails does so in one of its stages (`compile_error_cases`). What the failure
tells about places and functions is right (`StageFailure.Pinpoints`, `compile_pinpoints`): decoding
is confined to the binary, lowering blames the code of the body at hand, and that code stands in the
binary where the body says (`Module.standsAt_code`), so the opcode that a failure is about can be
looked up in the binary itself. Emission names a function only (`Machine.Program.fails_ofLinear`).
-/

set_option autoImplicit false
set_option relaxedAutoImplicit false

namespace StraightWasm

/-! ### Stages -/

theorem Stage.mark_error_iff {α : Type} {stage : Stage} {result : Except Diagnostic α}
    {failure : StageFailure} :
    stage.mark result = .error failure ↔
      failure.stage = stage ∧ result = .error failure.diagnostic := by
  cases result with
  | ok found => simp [mark, Except.mapError]
  | error diagnostic =>
    obtain ⟨place, cause⟩ := failure
    simp [mark, Except.mapError, @eq_comm _ place]

/-- A compilation fails in the first of its stages that fails. -/
theorem compile_error_cases {options : Options} {bytes : List UInt8} {failure : StageFailure}
    (h : compile options bytes = .error failure) :
    (failure.stage = .decoding ∧ Module.decode bytes = .error failure.diagnostic) ∨
      ∃ module, Module.decode bytes = .ok module ∧
        ((failure.stage = .lowering ∧
          Linear.ofModule options.stackCapacity module = .error failure.diagnostic) ∨
        ∃ linear, Linear.ofModule options.stackCapacity module = .ok linear ∧
          failure.stage = .emission ∧
          Machine.Program.ofLinear options.strategy options.registers linear =
            .error failure.diagnostic) := by
  obtain hdecode | ⟨module, hmodule, h⟩ := Success.except_bind_error_iff.mp h
  · exact .inl (Stage.mark_error_iff.mp hdecode)
  refine .inr ⟨module, Stage.mark_iff.mp hmodule, ?_⟩
  obtain hlower | ⟨linear, hlinear, h⟩ := Success.except_bind_error_iff.mp h
  · exact .inl (Stage.mark_error_iff.mp hlower)
  obtain hemit | ⟨program, -, h⟩ := Success.except_bind_error_iff.mp h
  · exact .inr ⟨linear, Stage.mark_iff.mp hlinear, Stage.mark_error_iff.mp hemit⟩
  · cases h

theorem Linear.ofModule_error {capacity : Nat} {module : Module} {failure : Diagnostic}
    (h : ofModule capacity module = .error failure) :
    ∃ stop, lowerModule module (.ofCapacity capacity) = .error failure stop := by
  unfold ofModule at h
  cases hrun : lowerModule module (.ofCapacity capacity) with
  | ok functions after =>
    rw [hrun] at h
    cases h
  | error found stop =>
    rw [hrun] at h
    cases h
    exact ⟨stop, rfl⟩

theorem Machine.Program.ofLinear_error {strategy : Strategy} {registers : Nat}
    {functions : List Linear.Function} {failure : Diagnostic}
    (h : ofLinear strategy registers functions = .error failure) :
    ∃ stop, emitProgram functions (.ofLimit strategy registers) = .error failure stop := by
  unfold ofLinear at h
  cases hrun : emitProgram functions (.ofLimit strategy registers) with
  | ok program next =>
    rw [hrun] at h
    cases h
  | error found stop =>
    rw [hrun] at h
    cases h
    exact ⟨stop, rfl⟩

/-! ### Emission -/

/-- A program that cannot be emitted fails at one of its functions, and the failure names it. -/
theorem Machine.Program.fails_ofLinear {strategy : Strategy} {registers capacity : Nat}
    {module : Module} {linear : List Linear.Function} {failure : Diagnostic}
    (hlinear : Linear.ofModule capacity module = .ok linear)
    (h : ofLinear strategy registers linear = .error failure) :
    ∃ function < linear.length, ∃ cause, failure = .emission function cause := by
  obtain ⟨stop, hrun⟩ := ofLinear_error h
  obtain ⟨function, hfunction, program, pool, hfails⟩ := Success.exists_of_foldlM_error _ hrun
  obtain hfails | ⟨code, next, -, hfails⟩ := Success.bind_error_iff.mp hfails
  · obtain ⟨position, hposition⟩ := List.getElem?_of_mem hfunction
    obtain ⟨definition, before, after, -, -, -, hlower⟩ :=
      Linear.lower_of_ofModule hlinear hposition
    have hindex := Linear.index_of_ofModule hlinear position function hposition
    obtain ⟨hlt, -⟩ := List.getElem?_eq_some_iff.mp hposition
    refine ⟨position, hlt, ?_⟩
    have hends := ends_emitFunction hlower pool
    rw [hfails] at hends
    obtain hshort | ⟨-, hmissing⟩ := hends
    · exact ⟨_, hindex ▸ hshort⟩
    · exact ⟨_, hindex ▸ hmissing⟩
  · cases hfails

/-! ### Places in the binary -/

theorem StandsAt.getElem?_eq {bytes : List UInt8} {place : Nat} {byte : UInt8}
    (h : StandsAt bytes place [byte]) : bytes[place]? = some byte := by
  obtain ⟨front, back, rfl, rfl⟩ := h
  simp

theorem Body.Bears.getElem?_eq {body : Body} {bytes : List UInt8} {offset : Nat} {opcode : UInt8}
    (h : body.Bears offset opcode) (hcode : StandsAt bytes body.codeOffset body.code) :
    bytes[offset]? = some opcode := by
  obtain ⟨inner, rfl, hstands⟩ := h
  exact (hcode.trans hstands).getElem?_eq

/-! ### Whole compilations -/

namespace StageFailure

/-- Whether what a failure tells about places and functions of a binary is right. -/
structure Pinpoints (options : Options) (bytes : List UInt8) (failure : StageFailure) : Prop where
  /-- A place lies in the binary or just behind it. -/
  offset_le : ∀ offset ∈ failure.diagnostic.offset?, offset ≤ bytes.length
  /-- Where the input ends too early, at least one byte is missing. -/
  needed_pos : ∀ offset needed, failure.diagnostic = .endOfInput offset needed → 1 ≤ needed
  /-- A function that is named is one of the module. -/
  function_lt : ∀ function ∈ failure.diagnostic.function?,
    ∃ module, Module.decode bytes = .ok module ∧ function < module.functions.length
  /-- Lowering gets to a function and fails there, at a place in the code of its body or just behind
  it. If a function is named, it is this one. -/
  lowering : failure.stage = .lowering → ∃ module position body offset,
    Module.decode bytes = .ok module ∧
    Linear.FailsAt options.stackCapacity module position body failure.diagnostic ∧
    failure.diagnostic.offset? = some offset ∧
    body.codeOffset ≤ offset ∧ offset ≤ body.codeOffset + body.code.length ∧
    ∀ function ∈ failure.diagnostic.function?, function = position
  /-- An unsupported opcode stands at the place, and it is none of the supported ones. -/
  unsupportedOpcode : ∀ function offset opcode,
    failure.diagnostic = .unsupportedOpcode function offset opcode →
      bytes[offset]? = some opcode ∧ opcode ∉ StackCode.supportedOpcodes
  /-- Where an operand is missing, a local is set or an addition is made. -/
  stackUnderflow : ∀ function offset, failure.diagnostic = .stackUnderflow function offset →
    ∃ opcode ∈ ([0x21, 0x22, 0x6a] : List UInt8), bytes[offset]? = some opcode
  /-- Where the stack is full, a local is read or a constant is pushed. -/
  stackOverflow : ∀ function offset capacity,
    failure.diagnostic = .stackOverflow function offset capacity →
      (∃ opcode ∈ ([0x20, 0x41] : List UInt8), bytes[offset]? = some opcode) ∧
        capacity = options.stackCapacity

variable {options : Options} {bytes : List UInt8} {module : Module}

theorem pinpoints_decoding {diagnostic : Diagnostic}
    (h : Module.decode bytes = .error diagnostic) :
    Pinpoints options bytes { stage := .decoding, diagnostic := diagnostic } := by
  have hfault := Module.isReadFault_of_decode h
  cases diagnostic with
  | endOfInput place missing =>
    obtain ⟨-, hplace, hmissing⟩ := hfault
    refine ⟨fun offset hoffset ↦ ?_, fun offset needed heq ↦ ?_, nofun, nofun, nofun, nofun, nofun⟩
    · cases hoffset
      exact hplace
    · cases heq
      exact hmissing
  | malformed place cause =>
    obtain ⟨-, hplace, hcause⟩ := hfault
    refine ⟨fun offset hoffset ↦ ?_, nofun, fun function hfunction ↦ ?_, nofun, nofun, nofun, nofun⟩
    · cases hoffset
      exact hplace
    · have hnamed : cause.function? = some function := hfunction
      rw [hcause] at hnamed
      cases hnamed
  | stackUnderflow | stackOverflow | unsupportedOpcode | emission => exact hfault.elim

/-- A failure of lowering is blamed on a body, and the code of the body stands in the binary. -/
theorem pinpoints_lowering {diagnostic : Diagnostic} (hdecode : Module.decode bytes = .ok module)
    (h : Linear.ofModule options.stackCapacity module = .error diagnostic) :
    Pinpoints options bytes { stage := .lowering, diagnostic := diagnostic } := by
  obtain ⟨stop, hrun⟩ := Linear.ofModule_error h
  obtain ⟨position, body, hfails, hblames⟩ := Linear.fails_lowerModule hrun
  have ⟨_, _, _, _, htype, hbody, _, _⟩ := hfails
  have hcode := Module.standsAt_code hdecode (List.mem_of_getElem? hbody)
  have hlength := hcode.length_le
  obtain ⟨place, hplace, hlow, hhigh⟩ := hblames.offset?_between
  refine ⟨fun offset hoffset ↦ ?_, ?_, fun function hfunction ↦ ?_, fun _ ↦ ?_, ?_, ?_, ?_⟩
  · have htold : diagnostic.offset? = some offset := hoffset
    rw [hplace, Option.some.injEq] at htold
    omega
  · rintro offset needed rfl
    cases hblames with
    | endOfInput _ _ hneeded => exact hneeded
  · rw [hblames.function?_eq function hfunction]
    exact ⟨module, hdecode, (List.getElem?_eq_some_iff.mp htype).1⟩
  · exact ⟨module, position, body, place, hdecode, hfails, hplace, hlow, hhigh,
      hblames.function?_eq⟩
  · rintro function offset opcode rfl
    cases hblames with
    | unsupportedOpcode hbears hunsupported => exact ⟨hbears.getElem?_eq hcode, hunsupported⟩
  · rintro function offset rfl
    cases hblames with
    | stackUnderflow hbears hpops => exact ⟨_, hpops, hbears.getElem?_eq hcode⟩
  · rintro function offset capacity rfl
    cases hblames with
    | stackOverflow hbears hpushes => exact ⟨⟨_, hpushes, hbears.getElem?_eq hcode⟩, rfl⟩

theorem pinpoints_emission {linear : List Linear.Function} {diagnostic : Diagnostic}
    (hdecode : Module.decode bytes = .ok module)
    (hlinear : Linear.ofModule options.stackCapacity module = .ok linear)
    (h : Machine.Program.ofLinear options.strategy options.registers linear = .error diagnostic) :
    Pinpoints options bytes { stage := .emission, diagnostic := diagnostic } := by
  obtain ⟨position, hposition, cause, rfl⟩ := Machine.Program.fails_ofLinear hlinear h
  refine ⟨nofun, nofun, fun function hfunction ↦ ?_, nofun, nofun, nofun, nofun⟩
  cases hfunction
  rw [Linear.length_ofModule hlinear (Module.length_functions hdecode)] at hposition
  exact ⟨module, hdecode, hposition⟩

end StageFailure

/-- Assumes: a binary that does not compile. What the failure tells about places and functions is
right. -/
theorem compile_pinpoints {options : Options} {bytes : List UInt8} {failure : StageFailure}
    (h : compile options bytes = .error failure) : failure.Pinpoints options bytes := by
  obtain ⟨stage, diagnostic⟩ := failure
  obtain ⟨hstage, hdecode⟩ | ⟨module, hdecode, ⟨hstage, hlower⟩ |
    ⟨linear, hlinear, hstage, hemit⟩⟩ := compile_error_cases h
  · cases hstage
    exact StageFailure.pinpoints_decoding hdecode
  · cases hstage
    exact StageFailure.pinpoints_lowering hdecode hlower
  · cases hstage
    exact StageFailure.pinpoints_emission hdecode hlinear hemit

/-- A stack of one operand is too small for `overtakenBinary`. It is full when the parameter is read
for the second time. -/
theorem compile_pinpoints_overtakenBinary :
    compile { stackCapacity := 1 } overtakenBinary =
        .error { stage := .lowering, diagnostic := .stackOverflow 0 29 1 } ∧
      ∃ opcode ∈ ([0x20, 0x41] : List UInt8), overtakenBinary[29]? = some opcode := by
  have hfails : compile { stackCapacity := 1 } overtakenBinary =
      .error { stage := .lowering, diagnostic := .stackOverflow 0 29 1 } := by decide +kernel
  exact ⟨hfails, ((compile_pinpoints hfails).stackOverflow 0 29 1 rfl).1⟩

end StraightWasm
