import StraightWasm.Proofs.Compilation
import StraightWasm.Proofs.Histories
import StraightWasm.Proofs.Linear.Faults

/-!
# Functions are lowered independently

One builder lowers the functions of a module one after the other, and a function that fails leaves
it in the middle of its work: with operands on the stack, with snapshots emitted, or in dead code.
The next function does not notice, since it sets every part of the builder anew. Only the capacity
of the stack stays, and no action changes that, whether it succeeds or fails
(`Lowering.preserves_step`, `Definition.repeats_lower`).

So every call on a builder answers what it answers on a builder of its own (`Definition.alone`), and
the lowering of a module is put together from such answers, position by position
(`ofModule_eq_mapM`). It succeeds if and only if all of them are successes, and it fails as the
first of them that fails (`lower_forgets`).
-/

set_option autoImplicit false
set_option relaxedAutoImplicit false

namespace StraightWasm

open Success (Preserves Repeats)

namespace Linear

open StackCode (Located)

/-! ### The capacity of the stack -/

/-- Whether the stack of a builder has a capacity. -/
def Builder.HasCapacity (capacity : Nat) (builder : Builder) : Prop :=
  builder.stack.capacity = capacity

namespace Lowering

variable {capacity place slot : Nat}

theorem preserves_whenLive {action : Lowering Unit}
    (h : Preserves (Builder.HasCapacity capacity) action) :
    Preserves (Builder.HasCapacity capacity) (whenLive action) := by
  intro builder hbuilder
  unfold whenLive
  by_cases hdead : builder.dead = true
  · rw [if_pos hdead]
    exact hbuilder
  · rw [if_neg hdead]
    exact h builder hbuilder

theorem preserves_push (operand : Operand) :
    Preserves (Builder.HasCapacity capacity) (push place operand) := by
  intro builder hbuilder
  unfold push OperandStack.push
  by_cases hroom : builder.stack.depth < builder.stack.capacity
  · rw [dif_pos hroom]
    exact hbuilder
  · rw [dif_neg hroom]
    exact hbuilder

theorem preserves_pop : Preserves (Builder.HasCapacity capacity) (pop place) := by
  intro builder hbuilder
  unfold pop
  cases hpop : builder.stack.pop? with
  | some found => exact (OperandStack.capacity_pop? hpop).trans hbuilder
  | none => exact hbuilder

theorem preserves_emit (instruction : Instr) :
    Preserves (Builder.HasCapacity capacity) (emit instruction) :=
  Success.preserves_modify fun _ h ↦ h

theorem preserves_checkSlot :
    Preserves (Builder.HasCapacity capacity) (checkSlot place slot) := by
  intro builder hbuilder
  unfold checkSlot
  split_ifs
  · exact hbuilder
  · exact hbuilder

theorem preserves_countSlots (count : Nat) :
    Preserves (Builder.HasCapacity capacity) (countSlots place count) := by
  have hnote : Preserves (Builder.HasCapacity capacity)
      (modify fun builder ↦ { builder with slotCount := count } : Lowering Unit) :=
    Success.preserves_modify fun _ h ↦ h
  exact hnote.ite (Success.preserves_throw _)

theorem preserves_assign : Preserves (Builder.HasCapacity capacity) (assign place slot) := by
  have hpin : Preserves (Builder.HasCapacity capacity) (pin slot) :=
    Success.preserves_modify fun _ h ↦ h
  exact preserves_pop.bind fun _ ↦ hpin.bind fun _ ↦ preserves_emit _

/-- An instruction keeps the capacity, also where it fails. -/
theorem preserves_step (located : Located) :
    Preserves (Builder.HasCapacity capacity) (step located) := by
  obtain ⟨offset, instruction⟩ := located
  cases instruction with
  | nop => exact Success.preserves_pure ()
  | unreachable => exact Success.preserves_modify fun _ h ↦ h
  | const value => exact preserves_whenLive (preserves_push _)
  | localGet slot =>
    exact preserves_checkSlot.bind fun _ ↦ preserves_whenLive (preserves_push _)
  | localSet slot => exact preserves_checkSlot.bind fun _ ↦ preserves_whenLive preserves_assign
  | localTee slot =>
    exact preserves_checkSlot.bind fun _ ↦
      preserves_whenLive (preserves_assign.bind fun _ ↦ preserves_push _)
  | add =>
    have hnewTemp : Preserves (Builder.HasCapacity capacity) newTemp := fun _ h ↦ h
    exact preserves_whenLive (preserves_pop.bind fun rhs ↦ preserves_pop.bind fun lhs ↦
      hnewTemp.bind fun dest ↦ (preserves_emit _).bind fun _ ↦ preserves_push _)

theorem preserves_terminator :
    Preserves (Builder.HasCapacity capacity) (terminator place) := by
  intro builder hbuilder
  unfold terminator
  by_cases hdead : builder.dead = true
  · rw [if_pos hdead]
    exact hbuilder
  · rw [if_neg hdead]
    cases hpop : builder.stack.pop? with
    | none => exact hbuilder
    | some found =>
      dsimp only
      split_ifs
      · exact (OperandStack.capacity_pop? hpop).trans hbuilder
      · exact (OperandStack.capacity_pop? hpop).trans hbuilder

theorem preserves_close (ending : Except Diagnostic Span) :
    Preserves (Builder.HasCapacity capacity) (close ending) := by
  cases ending with
  | error failure => exact Success.preserves_throw failure
  | ok behind =>
    exact preserves_terminator.ite
      (Success.preserves_get.bind fun _ ↦ Success.preserves_throw _)

end Lowering

/-! ### Functions on their own -/

namespace Definition

/-- What lowering a function on a builder of its own answers. -/
def alone (capacity : Nat) (definition : Definition) : Except Diagnostic Function :=
  Success.answer (definition.lower (.ofCapacity capacity))

theorem preserves_lower {capacity : Nat} (definition : Definition) :
    Preserves (Builder.HasCapacity capacity) definition.lower := by
  have henter : Preserves (Builder.HasCapacity capacity) (Lowering.enter definition.index) :=
    Success.preserves_modify fun _ h ↦ h
  have htake : Preserves (Builder.HasCapacity capacity) Lowering.takeEmitted := fun _ h ↦ h
  refine henter.bind fun _ ↦ (Lowering.preserves_countSlots _).bind fun _ ↦ ?_
  refine (Preserves.forM Lowering.preserves_step _).bind fun _ ↦ ?_
  exact (Lowering.preserves_close _).bind fun _ ↦ htake.bind fun _ ↦
    Success.preserves_get.bind fun _ ↦ Success.preserves_pure _

/-- From every builder a function is lowered as from one of its own. -/
theorem repeats_lower (capacity : Nat) (definition : Definition) :
    Repeats (Builder.HasCapacity capacity) definition.lower (definition.alone capacity) := by
  refine ⟨definition.preserves_lower, ?_⟩
  rintro builder rfl
  unfold alone lower
  -- Once the number of locals is noted, both builders are the same. If it cannot be noted, both
  -- runs fail at once.
  by_cases hcount : definition.slotCount < UInt32.size
  · have hnote : Lowering.countSlots definition.body.codeOffset definition.slotCount =
        modify fun builder ↦ { builder with slotCount := definition.slotCount } := if_pos hcount
    rw [hnote]
    rfl
  · have hthrow : Lowering.countSlots definition.body.codeOffset definition.slotCount =
        throw (.malformed definition.body.codeOffset .uncountableLocals) := if_neg hcount
    rw [hthrow]
    rfl

end Definition

/-! ### Functions of a module -/

/-- Whether a definition is what a module has at a position. -/
structure Defines (module : Module) (position : Nat) (definition : Definition) : Prop where
  index_eq : definition.index = position
  typeIndex_eq : module.functions[position]? = some definition.typeIndex
  signature_eq : module.types[definition.typeIndex]? = some definition.signature
  body_eq : module.bodies[position]? = some definition.body

/-- A module has one definition at a position. -/
theorem Defines.unique {module : Module} {position : Nat} {definition other : Definition}
    (h : Defines module position definition) (hother : Defines module position other) :
    definition = other := by
  obtain ⟨index, typeIndex, signature, body⟩ := definition
  obtain ⟨rfl, htype, hsignature, hbody⟩ := h
  obtain ⟨index', typeIndex', signature', body'⟩ := other
  obtain ⟨rfl, htype', hsignature', hbody'⟩ := hother
  cases htype.symm.trans htype'
  cases hsignature.symm.trans hsignature'
  cases hbody.symm.trans hbody'
  rfl

/-- Whether the function at a position of a module can be lowered on its own. -/
def LowersAlone (capacity : Nat) (module : Module) (position : Nat) (function : Function) : Prop :=
  ∃ definition, Defines module position definition ∧ definition.alone capacity = .ok function

/-- Whether the function at a position of a module fails on its own: its type is not declared, or
lowering it fails. -/
def FailsAlone (capacity : Nat) (module : Module) (position : Nat) (failure : Diagnostic) : Prop :=
  (∃ typeIndex body, module.functions[position]? = some typeIndex ∧
    module.bodies[position]? = some body ∧ module.types[typeIndex]? = none ∧
    failure = .malformed body.codeOffset
      (.undeclaredType position typeIndex module.types.length)) ∨
  ∃ definition, Defines module position definition ∧ definition.alone capacity = .error failure

/-- The type indices and bodies of a module, with their positions. -/
def entries (module : Module) : List ((Nat × Body) × Nat) :=
  (module.functions.zip module.bodies).zipIdx

/-- What lowering an entry on a builder of its own answers. -/
def entryAlone (capacity : Nat) (module : Module) (entry : (Nat × Body) × Nat) :
    Except Diagnostic Function :=
  Success.answer (lowerEntry module.types entry.2 entry.1.1 entry.1.2 (.ofCapacity capacity))

variable {capacity position : Nat} {module : Module}

theorem length_entries (h : module.functions.length = module.bodies.length) :
    (entries module).length = module.functions.length := by
  simp [entries, ← h]

theorem entries_getElem?_iff {entry : (Nat × Body) × Nat} :
    (entries module)[position]? = some entry ↔
      module.functions[position]? = some entry.1.1 ∧
        module.bodies[position]? = some entry.1.2 ∧ entry.2 = position := by
  obtain ⟨⟨typeIndex, body⟩, index⟩ := entry
  rw [entries, List.getElem?_zipIdx, Nat.zero_add, Option.map_eq_some_iff]
  constructor
  · rintro ⟨_, hzip, hentry⟩
    cases hentry
    obtain ⟨htype, hbody⟩ := List.getElem?_zip_eq_some.mp hzip
    exact ⟨htype, hbody, rfl⟩
  · rintro ⟨htype, hbody, rfl⟩
    exact ⟨(typeIndex, body), List.getElem?_zip_eq_some.mpr ⟨htype, hbody⟩, rfl⟩

theorem repeats_lowerEntry (capacity : Nat) (module : Module) (entry : (Nat × Body) × Nat) :
    Repeats (Builder.HasCapacity capacity)
      (lowerEntry module.types entry.2 entry.1.1 entry.1.2) (entryAlone capacity module entry) := by
  unfold entryAlone lowerEntry
  cases module.types[entry.1.1]? with
  | some signature => exact Definition.repeats_lower capacity _
  | none => exact ⟨Success.preserves_throw _, fun _ _ ↦ rfl⟩

/-- The lowering of a module is put together from what its entries answer on their own. -/
theorem ofModule_eq_mapM (capacity : Nat) (module : Module) :
    ofModule capacity module = (entries module).mapM (entryAlone capacity module) := by
  have hanswer : ofModule capacity module =
      Success.answer (lowerModule module (.ofCapacity capacity)) := by
    unfold ofModule
    cases lowerModule module (.ofCapacity capacity) <;> rfl
  rw [hanswer]
  exact (Repeats.mapM (entries module) (repeats_lowerEntry capacity module)).answer_eq _ rfl

/-- An entry whose type is declared is lowered like the definition that it makes up. -/
theorem entryAlone_of_declared {entry : (Nat × Body) × Nat} {signature : Signature}
    (h : module.types[entry.1.1]? = some signature) :
    entryAlone capacity module entry =
      Definition.alone capacity
        { index := entry.2
          typeIndex := entry.1.1
          signature := signature
          body := entry.1.2 } := by
  unfold entryAlone lowerEntry
  rw [h]
  rfl

theorem entryAlone_of_undeclared {entry : (Nat × Body) × Nat}
    (h : module.types[entry.1.1]? = none) :
    entryAlone capacity module entry = .error (.malformed entry.1.2.codeOffset
      (.undeclaredType entry.2 entry.1.1 module.types.length)) := by
  unfold entryAlone lowerEntry
  rw [h]
  rfl

/-- The definition at the position of an entry has the entry's parts. -/
theorem Defines.entryAlone_eq {entry : (Nat × Body) × Nat} {definition : Definition}
    (h : Defines module position definition) (hentry : (entries module)[position]? = some entry) :
    entryAlone capacity module entry = definition.alone capacity := by
  obtain ⟨⟨typeIndex, body⟩, index⟩ := entry
  obtain ⟨htype, hbody, hindex⟩ := entries_getElem?_iff.mp hentry
  obtain ⟨rfl, htype', hsignature, hbody'⟩ := h
  cases htype.symm.trans htype'
  cases hbody.symm.trans hbody'
  cases hindex
  exact entryAlone_of_declared hsignature

theorem entryAlone_ok_iff {entry : (Nat × Body) × Nat} {function : Function}
    (hentry : (entries module)[position]? = some entry) :
    entryAlone capacity module entry = .ok function ↔
      LowersAlone capacity module position function := by
  constructor
  · intro h
    obtain ⟨htype, hbody, hindex⟩ := entries_getElem?_iff.mp hentry
    cases hsignature : module.types[entry.1.1]? with
    | some signature =>
      rw [entryAlone_of_declared hsignature] at h
      exact ⟨_, ⟨hindex, htype, hsignature, hbody⟩, h⟩
    | none =>
      rw [entryAlone_of_undeclared hsignature] at h
      cases h
  · rintro ⟨definition, hdefines, h⟩
    rw [hdefines.entryAlone_eq hentry, h]

theorem entryAlone_error_iff {entry : (Nat × Body) × Nat} {failure : Diagnostic}
    (hentry : (entries module)[position]? = some entry) :
    entryAlone capacity module entry = .error failure ↔
      FailsAlone capacity module position failure := by
  obtain ⟨htype, hbody, hindex⟩ := entries_getElem?_iff.mp hentry
  constructor
  · intro h
    cases hsignature : module.types[entry.1.1]? with
    | some signature =>
      rw [entryAlone_of_declared hsignature] at h
      exact .inr ⟨_, ⟨hindex, htype, hsignature, hbody⟩, h⟩
    | none =>
      rw [entryAlone_of_undeclared hsignature, hindex] at h
      exact .inl ⟨_, _, htype, hbody, hsignature, (Except.error.inj h).symm⟩
  · rintro (⟨typeIndex, body, htype', hbody', hundeclared, rfl⟩ | ⟨definition, hdefines, h⟩)
    · cases htype.symm.trans htype'
      cases hbody.symm.trans hbody'
      rw [entryAlone_of_undeclared hundeclared, hindex]
    · rw [hdefines.entryAlone_eq hentry, h]

/-! ### Whole modules -/

/-- The linear functions of a module are what its functions give on their own. -/
theorem ofModule_ok_iff (hlength : module.functions.length = module.bodies.length)
    {functions : List Function} :
    ofModule capacity module = .ok functions ↔
      functions.length = module.functions.length ∧
        ∀ (position : Nat) (function : Function), functions[position]? = some function →
          LowersAlone capacity module position function := by
  have hentries := length_entries hlength
  rw [ofModule_eq_mapM, Success.except_mapM_ok_iff]
  constructor
  · intro h
    refine ⟨h.length_eq.symm.trans hentries, fun position function hfunction ↦ ?_⟩
    obtain ⟨entry, hentry, hround⟩ := Success.getElem?_of_forall₂ h.flip hfunction
    exact (entryAlone_ok_iff hentry).mp hround
  · rintro ⟨hcount, halone⟩
    refine List.forall₂_iff_get.mpr ⟨hentries.trans hcount.symm, fun position hentry hfunction ↦ ?_⟩
    exact (entryAlone_ok_iff (List.getElem?_eq_getElem hentry)).mpr
      (halone position _ (List.getElem?_eq_getElem hfunction))

/-- A module fails as the first of its functions that fails on its own. -/
theorem ofModule_error_iff (hlength : module.functions.length = module.bodies.length)
    {failure : Diagnostic} :
    ofModule capacity module = .error failure ↔
      ∃ position, FailsAlone capacity module position failure ∧
        ∀ earlier < position, ∃ function, LowersAlone capacity module earlier function := by
  have hentries := length_entries hlength
  rw [ofModule_eq_mapM, Success.except_mapM_error_iff]
  constructor
  · rintro ⟨position, entry, hentry, hround, hearlier⟩
    refine ⟨position, (entryAlone_error_iff hentry).mp hround, fun earlier hlt ↦ ?_⟩
    have hbound := (List.getElem?_eq_some_iff.mp hentry).1
    have hother : (entries module)[earlier]? = some _ :=
      List.getElem?_eq_getElem (Nat.lt_trans hlt hbound)
    obtain ⟨function, hfunction⟩ := hearlier earlier hlt _ hother
    exact ⟨function, (entryAlone_ok_iff hother).mp hfunction⟩
  · rintro ⟨position, hfails, hearlier⟩
    obtain ⟨entry, hentry⟩ : ∃ entry, (entries module)[position]? = some entry := by
      have hposition : position < module.functions.length := by
        rcases hfails with ⟨_, _, htype, -⟩ | ⟨_, hdefines, -⟩
        · exact (List.getElem?_eq_some_iff.mp htype).1
        · exact (List.getElem?_eq_some_iff.mp hdefines.typeIndex_eq).1
      exact ⟨_, List.getElem?_eq_getElem (hentries ▸ hposition)⟩
    refine ⟨position, entry, hentry, (entryAlone_error_iff hentry).mpr hfails, ?_⟩
    intro earlier hlt other hother
    obtain ⟨function, hfunction⟩ := hearlier earlier hlt
    exact ⟨function, (entryAlone_ok_iff hother).mpr hfunction⟩

/-- A module can be lowered if and only if all types that it uses are declared and every function of
it can be lowered on its own. -/
theorem exists_ofModule_iff (hlength : module.functions.length = module.bodies.length) :
    (∃ functions, ofModule capacity module = .ok functions) ↔
      (∀ typeIndex ∈ module.functions, typeIndex < module.types.length) ∧
        ∀ position definition, Defines module position definition →
          ∃ function, definition.alone capacity = .ok function := by
  constructor
  · rintro ⟨functions, h⟩
    obtain ⟨hcount, halone⟩ := (ofModule_ok_iff hlength).mp h
    have hdefined : ∀ position < module.functions.length, ∃ definition function,
        Defines module position definition ∧ definition.alone capacity = .ok function := by
      intro position hposition
      obtain ⟨definition, hdefines, hlowers⟩ :=
        halone position _ (List.getElem?_eq_getElem (hcount ▸ hposition))
      exact ⟨definition, _, hdefines, hlowers⟩
    refine ⟨fun typeIndex hmem ↦ ?_, fun position definition hdefines ↦ ?_⟩
    · obtain ⟨position, hposition, htype⟩ := List.getElem_of_mem hmem
      obtain ⟨definition, -, hdefines, -⟩ := hdefined position hposition
      have htype' := hdefines.typeIndex_eq
      rw [List.getElem?_eq_getElem hposition, htype, Option.some.injEq] at htype'
      rw [htype']
      exact (List.getElem?_eq_some_iff.mp hdefines.signature_eq).1
    · have hposition := (List.getElem?_eq_some_iff.mp hdefines.typeIndex_eq).1
      obtain ⟨other, function, hother, hlowers⟩ := hdefined position hposition
      rw [hdefines.unique hother]
      exact ⟨function, hlowers⟩
  · rintro ⟨hdeclared, hlowers⟩
    cases h : ofModule capacity module with
    | ok functions => exact ⟨functions, rfl⟩
    | error failure =>
      obtain ⟨position, hfails, -⟩ := (ofModule_error_iff hlength).mp h
      rcases hfails with ⟨typeIndex, _, htype, -, hundeclared, -⟩ | ⟨definition, hdefines, hfails⟩
      · have hlt := hdeclared typeIndex (List.mem_of_getElem? htype)
        rw [List.getElem?_eq_getElem hlt] at hundeclared
        cases hundeclared
      · obtain ⟨function, hfunction⟩ := hlowers position definition hdefines
        rw [hfunction] at hfails
        cases hfails

/-- Calls on one builder, among which any may fail, answer what they answer on builders of their
own. Consequently a decoded module can be lowered if and only if its types are declared and its
functions can be lowered on their own; its linear functions are then those, in order and under the
signatures that the module gives them. If it cannot be lowered, it fails as the first function that
fails on its own. -/
theorem lower_forgets (capacity : Nat) :
    (∀ definitions : List Definition,
      Success.answers (definitions.map Definition.lower) (.ofCapacity capacity) =
        definitions.map (Definition.alone capacity)) ∧
    ∀ (bytes : List UInt8) (module : Module), Module.decode bytes = .ok module →
      ((∃ functions, ofModule capacity module = .ok functions) ↔
        (∀ typeIndex ∈ module.functions, typeIndex < module.types.length) ∧
          ∀ position definition, Defines module position definition →
            ∃ function, definition.alone capacity = .ok function) ∧
      (∀ functions, ofModule capacity module = .ok functions →
        functions.length = module.functions.length ∧
          ∀ (position : Nat) (function : Function), functions[position]? = some function →
            function.index = position ∧
            module.functions[position]? = some function.typeIndex ∧
            (∃ signature, module.types[function.typeIndex]? = some signature ∧
              function.params = signature.params ∧ function.result = signature.result) ∧
            LowersAlone capacity module position function) ∧
      ∀ failure, ofModule capacity module = .error failure ↔
        ∃ position, FailsAlone capacity module position failure ∧
          ∀ earlier < position, ∃ function, LowersAlone capacity module earlier function := by
  refine ⟨fun definitions ↦ ?_, fun bytes module hdecode ↦ ?_⟩
  · exact Repeats.answers_eq (Definition.repeats_lower capacity) definitions _ rfl
  have hlength := Module.length_functions hdecode
  refine ⟨exists_ofModule_iff hlength, fun functions h ↦ ?_, fun _ ↦ ofModule_error_iff hlength⟩
  obtain ⟨hcount, halone⟩ := (ofModule_ok_iff hlength).mp h
  refine ⟨hcount, fun position function hfunction ↦ ?_⟩
  obtain ⟨definition, hdefines, hanswer⟩ := halone position function hfunction
  obtain ⟨_, hlower⟩ := Success.answer_ok_iff.mp hanswer
  obtain ⟨_, _, _, -, -, -, rfl⟩ := Definition.lower_iff.mp hlower
  exact ⟨hdefines.index_eq, hdefines.typeIndex_eq,
    ⟨definition.signature, hdefines.signature_eq, rfl, rfl⟩, ⟨definition, hdefines, hanswer⟩⟩

end Linear

end StraightWasm
