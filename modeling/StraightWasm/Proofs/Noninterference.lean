import StraightWasm.Proofs.Failures
import StraightWasm.Proofs.Linear.Displacement
import StraightWasm.Proofs.Module.Insertion

/-!
# Skipped sections do not influence compilation

A section that is skipped, inserted between two sections of a binary, changes the module in places
and headers only (`Module.decode_insert`). Lowering uses a place for its failures only, and a
failure is blamed on the code of one body. That code is moved as a whole or not at all, so the place
of the failure goes where the code goes (`Linear.carries_lowerEntry`). Emission and listings see no
place. Two compilations, with the section and without, therefore end in the same way
(`compile_insert`).
-/

set_option autoImplicit false
set_option relaxedAutoImplicit false

namespace StraightWasm

/-- What becomes of a failure depends on what becomes of the place that it tells. -/
theorem Diagnostic.mapOffset_congr {send send' : Nat → Nat} {failure : Diagnostic}
    (h : ∀ offset ∈ failure.offset?, send offset = send' offset) :
    failure.mapOffset send = failure.mapOffset send' := by
  cases failure with
  | emission function cause => rfl
  | endOfInput | malformed | stackUnderflow | stackOverflow | unsupportedOpcode =>
    rw [mapOffset, mapOffset, h _ rfl]

/-- Bytes that are not torn apart are moved by one distance. -/
theorem exists_makeRoom_eq {place start stop : Nat} (h : stop ≤ place ∨ place < start)
    (length : Nat) :
    ∃ distance, ∀ offset, start ≤ offset → offset ≤ stop →
      makeRoom place length offset = offset + distance := by
  rcases h with hfront | hback
  · exact ⟨0, fun offset _ hstop ↦ makeRoom_of_le (hstop.trans hfront) length⟩
  · exact ⟨length, fun offset hstart _ ↦ makeRoom_of_lt (hback.trans_le hstart) length⟩

/-! ### Lowering -/

namespace Linear

/-- Assumes: all places of the code of a body go back by one distance. The body is lowered to the
same function as before, or its failure goes where the code goes. -/
theorem carries_lowerEntry (types : List Signature) (index typeIndex : Nat) {body : Body}
    {send : Nat → Nat} {distance : Nat}
    (hsend : ∀ offset, body.codeOffset ≤ offset → offset ≤ body.codeOffset + body.code.length →
      send offset = offset + distance) :
    Success.Carries id id (Diagnostic.mapOffset send) (lowerEntry types index typeIndex body)
      (lowerEntry types index typeIndex (body.mapOffset send)) := by
  have hbody : body.mapOffset send = body.mapOffset (· + distance) := by
    rw [Body.mapOffset, Body.mapOffset, hsend _ le_rfl (Nat.le_add_right _ _)]
  rw [hbody]
  refine (displaces_lowerEntry types index typeIndex body).congr_failure ?_
  intro before failure stop hfails
  have hends := @ends_lowerEntry types index typeIndex body _ before rfl
  rw [hfails] at hends
  obtain ⟨offset, hoffset, hlow, hhigh⟩ := Body.Blames.offset?_between hends
  refine Diagnostic.mapOffset_congr fun told htold ↦ ?_
  rw [hoffset, Option.mem_some_iff] at htold
  rw [← htold, hsend offset hlow hhigh]

variable {place length : Nat} {header : SectionHeader} {module module' : Module}

theorem carries_lowerModule (h : module.Inserted place length header module') :
    Success.Carries id id (Diagnostic.mapOffset (makeRoom place length)) (lowerModule module)
      (lowerModule module') := by
  unfold lowerModule
  rw [h.types_eq, h.functions_eq, h.bodies_eq, List.zip_map_right, List.zipIdx_map]
  refine Success.Carries.mapM _ fun entry hentry ↦ ?_
  obtain ⟨⟨typeIndex, body⟩, index⟩ := entry
  have hbody : body ∈ module.bodies := (List.of_mem_zip (List.fst_mem_of_mem_zipIdx hentry)).2
  obtain ⟨distance, hdistance⟩ := exists_makeRoom_eq (h.bodies_apart body hbody) length
  exact carries_lowerEntry module.types index typeIndex hdistance

theorem ofModule_inserted (h : module.Inserted place length header module') (capacity : Nat) :
    ofModule capacity module' =
      (ofModule capacity module).mapError (Diagnostic.mapOffset (makeRoom place length)) := by
  have hrun : lowerModule module' (.ofCapacity capacity) = _ :=
    carries_lowerModule h (.ofCapacity capacity)
  unfold ofModule
  rw [hrun]
  cases lowerModule module (.ofCapacity capacity) with
  | ok functions after => rfl
  | error failure stop => rfl

end Linear

/-! ### Listings -/

/-- A listing takes nothing but imports and exports from a module. -/
theorem Listing.render_congr {module module' : Module} (himports : module'.imports = module.imports)
    (hexports : module'.exports = module.exports) (program : Machine.Program)
    (convert : String → String) :
    render module' program convert = render module program convert := by
  have hlabel : ∀ index, label module' index convert = label module index convert := by
    intro index
    unfold label Module.exportName? Module.exportIndex Module.importedFunctions
    rw [himports, hexports]
  unfold render lines block heading
  simp only [hlabel]

/-! ### Whole compilations -/

/-- A failure of a stage with its place sent elsewhere. -/
def StageFailure.mapOffset (send : Nat → Nat) (failure : StageFailure) : StageFailure :=
  { failure with diagnostic := failure.diagnostic.mapOffset send }

section Compilation

variable {options : Options} {bytes bytes' : List UInt8} {module module' : Module}

theorem compile_of_decode (h : Module.decode bytes = .ok module) :
    compile options bytes = (do
      let linear ← Stage.lowering.mark (Linear.ofModule options.stackCapacity module)
      let program ← Stage.emission.mark
        (Machine.Program.ofLinear options.strategy options.registers linear)
      pure { module := module, linear := linear, program := program }) := by
  unfold compile
  rw [h]
  rfl

theorem compile_inserted {place length : Nat} {header : SectionHeader}
    (hdecode : Module.decode bytes = .ok module) (hdecode' : Module.decode bytes' = .ok module')
    (h : module.Inserted place length header module') :
    compile options bytes' =
      match compile options bytes with
      | .ok compiled => .ok { compiled with module := module' }
      | .error failure => .error (failure.mapOffset (makeRoom place length)) := by
  rw [compile_of_decode hdecode, compile_of_decode hdecode', Linear.ofModule_inserted h]
  cases hlinear : Linear.ofModule options.stackCapacity module with
  | error failure => rfl
  | ok linear =>
    dsimp only [Stage.mark, Except.mapError, bind, Except.bind]
    cases hprogram : Machine.Program.ofLinear options.strategy options.registers linear with
    | ok program => rfl
    | error failure =>
      obtain ⟨position, -, cause, rfl⟩ := Machine.Program.fails_ofLinear hlinear hprogram
      rfl

/-- A module that does not compile fails at a place in the code of one of its bodies or just behind
it, if the failure tells a place. -/
theorem body_of_compile_error (hdecode : Module.decode bytes = .ok module)
    {failure : StageFailure} (h : compile options bytes = .error failure) {offset : Nat}
    (hoffset : offset ∈ failure.diagnostic.offset?) :
    ∃ body ∈ module.bodies,
      body.codeOffset ≤ offset ∧ offset ≤ body.codeOffset + body.code.length := by
  obtain ⟨-, hfails⟩ | ⟨found, hfound, hfails⟩ := compile_error_cases h
  · rw [hdecode] at hfails
    cases hfails
  rw [hdecode, Except.ok.injEq] at hfound
  subst hfound
  obtain ⟨-, hlower⟩ | ⟨linear, hlinear, -, hemit⟩ := hfails
  · obtain ⟨stop, hrun⟩ := Linear.ofModule_error hlower
    obtain ⟨position, body, ⟨_, _, _, _, -, hbody, -⟩, hblames⟩ := Linear.fails_lowerModule hrun
    obtain ⟨place, hplace, hlow, hhigh⟩ := hblames.offset?_between
    rw [hplace, Option.mem_some_iff] at hoffset
    subst hoffset
    exact ⟨body, List.mem_of_getElem? hbody, hlow, hhigh⟩
  · obtain ⟨position, -, cause, hcause⟩ := Machine.Program.fails_ofLinear hlinear hemit
    rw [hcause] at hoffset
    cases hoffset

end Compilation

/-- Assumes: a binary that can be decoded and a place between two of its sections. With a section
inserted at the place that is skipped, whatever it holds and however its size is written, the binary
is decoded to the same module, except for the header of the section and for the places behind it. If
the binary compiles, it still does, to the same linear code, program and listing, whatever names are
converted to. If it does not, it fails in the same stage for the same reason. A place that the
failure tells belongs to a body, and it goes back if the code of the body stands behind the section.
-/
theorem compile_insert {bytes : List UInt8} {module : Module}
    (h : Module.decode bytes = .ok module) {place : Nat} (hplace : module.IsBoundary place)
    (skipped : SkippedSection) :
    ∃ module', Module.decode (insertAt place skipped.bytes bytes) = .ok module' ∧
      module.Inserted place skipped.bytes.length (skipped.headerAt place) module' ∧
      ∀ options,
        (∀ compiled, compile options bytes = .ok compiled →
          ∃ compiled', compile options (insertAt place skipped.bytes bytes) = .ok compiled' ∧
            compiled'.module = module' ∧ compiled'.linear = compiled.linear ∧
            compiled'.program = compiled.program ∧
            ∀ convert, compiled'.listing convert = compiled.listing convert) ∧
        ∀ failure, compile options bytes = .error failure →
          ∃ failure', compile options (insertAt place skipped.bytes bytes) = .error failure' ∧
            failure'.stage = failure.stage ∧
            failure'.diagnostic =
              failure.diagnostic.mapOffset (makeRoom place skipped.bytes.length) ∧
            ∀ offset ∈ failure.diagnostic.offset?, ∃ body ∈ module.bodies,
              body.codeOffset ≤ offset ∧ offset ≤ body.codeOffset + body.code.length ∧
              makeRoom place skipped.bytes.length offset =
                if place < body.codeOffset then offset + skipped.bytes.length else offset := by
  obtain ⟨module', hdecode, hmodule⟩ := Module.decode_insert h hplace skipped
  refine ⟨module', hdecode, hmodule, fun options ↦ ?_⟩
  have hsame := @compile_inserted options _ _ _ _ _ _ _ h hdecode hmodule
  refine ⟨fun compiled hcompiled ↦ ?_, fun failure hfails ↦ ?_⟩
  · rw [hcompiled] at hsame
    refine ⟨_, hsame, rfl, rfl, rfl, ?_⟩
    obtain ⟨hfound, -⟩ := compile_cases hcompiled
    rw [h, Except.ok.injEq] at hfound
    rw [hfound] at hmodule
    exact Listing.render_congr hmodule.imports_eq hmodule.exports_eq compiled.program
  · rw [hfails] at hsame
    refine ⟨_, hsame, rfl, rfl, fun offset hoffset ↦ ?_⟩
    obtain ⟨body, hbody, hlow, hhigh⟩ := body_of_compile_error h hfails hoffset
    refine ⟨body, hbody, hlow, hhigh, ?_⟩
    have hapart := hmodule.bodies_apart body hbody
    split_ifs with hbehind
    · exact makeRoom_of_lt (hbehind.trans_le hlow) _
    · exact makeRoom_of_le (hhigh.trans (hapart.resolve_right hbehind)) _

/-- An element section with a size of two bytes, one more than it takes. What it holds looks like
the end of a body and the start of another section. -/
def paddedElements : SkippedSection where
  kind := .elements
  size := [0x82, 0x00]
  payload := [0x0b, 0x0a]
  kind_mem := by decide
  size_encodes :=
    ⟨by simp, ⟨0x00, rfl, by decide⟩, by decide, ⟨by decide, by decide⟩, by decide⟩

/-- In front of the code of `overtakenBinary` the section makes the place go back where a stack of
one operand is full. With the usual stack the code is the same. -/
theorem compile_insert_overtakenBinary :
    compile { stackCapacity := 1 } (insertAt 20 paddedElements.bytes overtakenBinary) =
        .error { stage := .lowering, diagnostic := .stackOverflow 0 34 1 } ∧
      ∃ compiled compiled', compile {} overtakenBinary = .ok compiled ∧
        compile {} (insertAt 20 paddedElements.bytes overtakenBinary) = .ok compiled' ∧
        compiled'.program = compiled.program ∧ compiled'.listing = compiled.listing := by
  have hsections : (Module.decode overtakenBinary).map (·.sections) =
      .ok [⟨.types, 10, 6⟩, ⟨.functions, 18, 2⟩, ⟨.code, 22, 24⟩] := by decide +kernel
  have hfails : compile { stackCapacity := 1 } overtakenBinary =
      .error { stage := .lowering, diagnostic := .stackOverflow 0 29 1 } := by decide +kernel
  have hcompiles : (compile {} overtakenBinary).isOk = true := by decide +kernel
  cases h : Module.decode overtakenBinary with
  | error failure =>
    rw [h] at hsections
    cases hsections
  | ok module =>
    rw [h] at hsections
    have hheaders : module.sections = _ := Except.ok.inj hsections
    have hplace : module.IsBoundary 20 := .inr ⟨⟨.functions, 18, 2⟩, by simp [hheaders], rfl⟩
    obtain ⟨module', -, -, hcompile⟩ := compile_insert h hplace paddedElements
    constructor
    · obtain ⟨⟨stage, diagnostic⟩, hfails', hstage, hdiagnostic, -⟩ := (hcompile _).2 _ hfails
      rw [hfails']
      cases hstage
      cases hdiagnostic
      rfl
    · cases hcompiled : compile {} overtakenBinary with
      | error failure =>
        rw [hcompiled] at hcompiles
        cases hcompiles
      | ok compiled =>
        obtain ⟨compiled', hcompiled', -, -, hprogram, hlisting⟩ := (hcompile _).1 _ hcompiled
        exact ⟨compiled, compiled', rfl, hcompiled', hprogram, hlisting Text.snakeCase⟩

end StraightWasm
