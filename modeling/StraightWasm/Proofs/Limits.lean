import StraightWasm.Proofs.Compilation

/-!
# Limits decide whether, never what

A compilation works under two limits: how deep the operand stack may get, and how many registers
there are. Larger limits let more compilations succeed and change nothing else.

The argument runs two computations side by side, the first under the smaller limit. The second
outlasts the first if it does the same unless the first fails for a shortage (`Success.Outlasts`). A
computation is steady if it outlasts itself from every pair of related states (`Success.Steady`),
and sequences and loops of steady computations are steady (`Success.Steady.bind`,
`Success.Steady.forM`). Lowering is steady with respect to builders that differ in the capacity of
the stack only (`Linear.steady_lowerModule`), and emission with respect to pools that differ in the
number of registers only (`Machine.steady_emitProgram`). So a compilation is, too
(`compile_of_roomier`).
-/

set_option autoImplicit false
set_option relaxedAutoImplicit false

namespace StraightWasm

/-- Whether a failure says that the operand stack is full or that all registers are in use. -/
def Diagnostic.isShortage : Diagnostic → Bool
  | .stackOverflow _ _ _ => true
  | .emission _ (.outOfRegisters _) => true
  | _ => false

/-! ### Two runs side by side -/

namespace Success

variable {σ α β : Type} {Roomier : σ → σ → Prop}

/-- Whether a second run has the result of a first one, in a state with at least as much room,
unless the first one fails for a shortage. -/
def Outlasts (Roomier : σ → σ → Prop) :
    EStateM.Result Diagnostic σ α → EStateM.Result Diagnostic σ α → Prop
  | .ok value after, other => ∃ after', other = .ok value after' ∧ Roomier after after'
  | .error failure _, other =>
    failure.isShortage = true ∨ ∃ stop, other = .error failure stop

/-- Either the first run fails for a shortage, or both fail alike, or both succeed alike. -/
theorem Outlasts.cases {small large : EStateM.Result Diagnostic σ α}
    (h : Outlasts Roomier small large) :
    (∃ failure stop, small = .error failure stop ∧ failure.isShortage = true) ∨
      (∃ failure stop stop', small = .error failure stop ∧ large = .error failure stop') ∨
      ∃ value after after', small = .ok value after ∧ large = .ok value after' ∧
        Roomier after after' := by
  cases small with
  | ok value after =>
    obtain ⟨after', hlarge, hrooms⟩ := h
    exact .inr (.inr ⟨value, after, after', rfl, hlarge, hrooms⟩)
  | error failure stop =>
    rcases h with hshortage | ⟨stop', hlarge⟩
    · exact .inl ⟨failure, stop, rfl, hshortage⟩
    · exact .inr (.inl ⟨failure, stop, stop', rfl, hlarge⟩)

/-- Whether more room changes nothing in what a computation does, unless it fails for a shortage. -/
def Steady (Roomier : σ → σ → Prop) (action : EStateM Diagnostic σ α) : Prop :=
  ∀ small large, Roomier small large → Outlasts Roomier (action small) (action large)

theorem steady_pure (value : α) : Steady Roomier (pure value) :=
  fun _ large h ↦ ⟨large, rfl, h⟩

theorem steady_throw (failure : Diagnostic) :
    Steady Roomier (throw failure : EStateM Diagnostic σ α) :=
  fun _ large _ ↦ .inr ⟨large, rfl⟩

theorem steady_modify {f : σ → σ} (h : ∀ small large, Roomier small large →
    Roomier (f small) (f large)) : Steady Roomier (modify f : EStateM Diagnostic σ PUnit) :=
  fun small large hrooms ↦ ⟨f large, rfl, h small large hrooms⟩

theorem Outlasts.bind {first : EStateM Diagnostic σ α} {second : α → EStateM Diagnostic σ β}
    {small large : σ} (hfirst : Outlasts Roomier (first small) (first large))
    (hsecond : ∀ value, Steady Roomier (second value)) :
    Outlasts Roomier ((first >>= second) small) ((first >>= second) large) := by
  show Outlasts Roomier (EStateM.bind first second small) (EStateM.bind first second large)
  unfold EStateM.bind
  obtain ⟨failure, stop, hsmall, hshortage⟩ | ⟨failure, stop, stop', hsmall, hlarge⟩ |
    ⟨value, middle, middle', hsmall, hlarge, hrooms⟩ := hfirst.cases
  · rw [hsmall]
    exact .inl hshortage
  · rw [hsmall, hlarge]
    exact .inr ⟨stop', rfl⟩
  · rw [hsmall, hlarge]
    exact hsecond value middle middle' hrooms

theorem Steady.bind {first : EStateM Diagnostic σ α} {second : α → EStateM Diagnostic σ β}
    (hfirst : Steady Roomier first) (hsecond : ∀ value, Steady Roomier (second value)) :
    Steady Roomier (first >>= second) :=
  fun small large hrooms ↦ (hfirst small large hrooms).bind hsecond

/-- A computation that looks at the state may use what both states have in common. -/
theorem steady_get_bind {next : σ → EStateM Diagnostic σ α}
    (h : ∀ small large, Roomier small large →
      next large = next small ∧ Steady Roomier (next small)) : Steady Roomier (get >>= next) := by
  intro small large hrooms
  obtain ⟨hsame, hsteady⟩ := h small large hrooms
  show Outlasts Roomier (next small small) (next large large)
  rw [hsame]
  exact hsteady small large hrooms

theorem Steady.ite {condition : Prop} [Decidable condition] {first second : EStateM Diagnostic σ α}
    (hfirst : Steady Roomier first) (hsecond : Steady Roomier second) :
    Steady Roomier (if condition then first else second) := by
  split_ifs
  · exact hfirst
  · exact hsecond

theorem Steady.forM {step : α → EStateM Diagnostic σ PUnit}
    (h : ∀ item, Steady Roomier (step item)) (items : List α) :
    Steady Roomier (items.forM step) := by
  induction items with
  | nil => exact steady_pure _
  | cons item rest ih => exact (h item).bind fun _ ↦ ih

theorem Steady.mapM {round : α → EStateM Diagnostic σ β}
    (h : ∀ item, Steady Roomier (round item)) (items : List α) :
    Steady Roomier (items.mapM round) := by
  induction items with
  | nil => exact steady_pure _
  | cons item rest ih =>
    rw [List.mapM_cons]
    exact (h item).bind fun _ ↦ ih.bind fun _ ↦ steady_pure _

theorem Steady.foldlM {round : β → α → EStateM Diagnostic σ β}
    (h : ∀ result item, Steady Roomier (round result item)) (items : List α) :
    ∀ result, Steady Roomier (items.foldlM round result) := by
  induction items with
  | nil => exact fun result ↦ steady_pure result
  | cons item rest ih =>
    intro result
    rw [List.foldlM_cons]
    exact (h result item).bind ih

end Success

open Success

/-! ### Lowering -/

namespace Linear

/-- Whether two builders differ in the capacity of their stacks only, and the second has at least
that of the first. -/
structure Builder.Roomier (small large : Builder) : Prop where
  function_eq : large.function = small.function
  capacity_le : small.stack.capacity ≤ large.stack.capacity
  values_eq : large.stack.values = small.stack.values
  emitted_eq : large.emitted = small.emitted
  nextTemp_eq : large.nextTemp = small.nextTemp
  slotCount_eq : large.slotCount = small.slotCount
  dead_eq : large.dead = small.dead

theorem Builder.Roomier.depth_eq {small large : Builder} (h : small.Roomier large) :
    large.stack.depth = small.stack.depth := by
  rw [← large.stack.length_values, ← small.stack.length_values, h.values_eq]

namespace Lowering

variable {place slot : Nat}

theorem steady_enter (function : Nat) : Steady Builder.Roomier (enter function) :=
  steady_modify fun _ _ h ↦ ⟨rfl, h.capacity_le, rfl, rfl, rfl, h.slotCount_eq, rfl⟩

theorem steady_countSlots (count : Nat) : Steady Builder.Roomier (countSlots place count) :=
  (steady_modify fun _ _ h ↦ { h with slotCount_eq := rfl }).ite (steady_throw _)

theorem steady_whenLive {action : Lowering Unit} (h : Steady Builder.Roomier action) :
    Steady Builder.Roomier (whenLive action) := by
  intro small large hrooms
  unfold whenLive
  rw [hrooms.dead_eq]
  split_ifs
  · exact ⟨large, rfl, hrooms⟩
  · exact h small large hrooms

/-- A stack with more room may take what a full one refuses. -/
theorem steady_push (operand : Operand) : Steady Builder.Roomier (push place operand) := by
  intro small large hrooms
  unfold push OperandStack.push
  by_cases hroom : small.stack.depth < small.stack.capacity
  · have hlarge : large.stack.depth < large.stack.capacity := by
      rw [hrooms.depth_eq]
      exact Nat.lt_of_lt_of_le hroom hrooms.capacity_le
    rw [dif_pos hroom, dif_pos hlarge]
    exact ⟨_, rfl, { hrooms with values_eq := congrArg (operand :: ·) hrooms.values_eq }⟩
  · rw [dif_neg hroom]
    exact .inl rfl

/-- What a pop gives depends on the operands only. -/
theorem pop?_roomier {small large : Builder} (h : small.Roomier large) :
    (small.stack.pop? = none ∧ large.stack.pop? = none) ∨
      ∃ top below below', small.stack.pop? = some (top, below) ∧
        large.stack.pop? = some (top, below') ∧ below'.depth = below.depth ∧
        ({ small with stack := below } : Builder).Roomier { large with stack := below' } := by
  have hvalues := h.values_eq
  cases hsmall : small.stack.pop? with
  | none =>
    rw [OperandStack.pop?_eq_none_iff.mp hsmall] at hvalues
    exact .inl ⟨rfl, OperandStack.pop?_eq_none_iff.mpr hvalues⟩
  | some found =>
    obtain ⟨top, below⟩ := found
    rw [OperandStack.values_pop? hsmall] at hvalues
    obtain ⟨below', hlarge⟩ := OperandStack.pop?_of_cons hvalues
    rw [OperandStack.values_pop? hlarge] at hvalues
    have hbelow : below'.values = below.values := (List.cons.inj hvalues).2
    have hcapacity : below.capacity ≤ below'.capacity := by
      rw [OperandStack.capacity_pop? hsmall, OperandStack.capacity_pop? hlarge]
      exact h.capacity_le
    refine .inr ⟨top, below, below', rfl, hlarge, ?_,
      { h with values_eq := hbelow, capacity_le := hcapacity }⟩
    rw [← below.length_values, ← below'.length_values, hbelow]

theorem steady_pop : Steady Builder.Roomier (pop place) := by
  intro small large hrooms
  unfold pop
  obtain ⟨hsmall, hlarge⟩ | ⟨top, below, below', hsmall, hlarge, -, hbelow⟩ := pop?_roomier hrooms
  · rw [hsmall, hlarge, hrooms.function_eq]
    exact .inr ⟨large, rfl⟩
  · rw [hsmall, hlarge]
    exact ⟨_, rfl, hbelow⟩

theorem steady_emit (instruction : Instr) : Steady Builder.Roomier (emit instruction) :=
  steady_modify fun _ _ h ↦ { h with emitted_eq := congrArg (·.push instruction) h.emitted_eq }

theorem steady_newTemp : Steady Builder.Roomier newTemp := by
  intro small large h
  refine ⟨{ large with nextTemp := large.nextTemp + 1 }, ?_,
    { h with nextTemp_eq := congrArg (· + 1) h.nextTemp_eq }⟩
  show EStateM.Result.ok large.nextTemp _ = _
  rw [h.nextTemp_eq]

theorem steady_pin (slot : Nat) : Steady Builder.Roomier (pin slot) := by
  apply steady_modify
  intro small large h
  have hpinning : OperandStack.pinAll slot large.nextTemp large.emitted large.stack.values =
      OperandStack.pinAll slot small.nextTemp small.emitted small.stack.values := by
    rw [h.nextTemp_eq, h.emitted_eq, h.values_eq]
  exact
    { h with
      values_eq := congrArg (·.values) hpinning
      emitted_eq := congrArg (·.emitted) hpinning
      nextTemp_eq := congrArg (·.nextTemp) hpinning }

theorem steady_checkSlot : Steady Builder.Roomier (checkSlot place slot) := by
  intro small large h
  unfold checkSlot
  rw [h.slotCount_eq, h.function_eq]
  split_ifs
  · exact ⟨large, rfl, h⟩
  · exact .inr ⟨large, rfl⟩

theorem steady_assign : Steady Builder.Roomier (assign place slot) :=
  steady_pop.bind fun value ↦ (steady_pin slot).bind fun _ ↦ steady_emit (.assign slot value)

theorem steady_step (located : StackCode.Located) :
    Steady Builder.Roomier (step located) := by
  obtain ⟨offset, instruction⟩ := located
  cases instruction with
  | nop => exact steady_pure ()
  | unreachable =>
    exact steady_modify fun _ _ h ↦ { h with values_eq := rfl, dead_eq := rfl }
  | const value => exact steady_whenLive (steady_push _)
  | localGet slot => exact steady_checkSlot.bind fun _ ↦ steady_whenLive (steady_push _)
  | localSet slot => exact steady_checkSlot.bind fun _ ↦ steady_whenLive steady_assign
  | localTee slot =>
    exact steady_checkSlot.bind fun _ ↦
      steady_whenLive (steady_assign.bind fun _ ↦ steady_push _)
  | add =>
    exact steady_whenLive (steady_pop.bind fun rhs ↦ steady_pop.bind fun lhs ↦
      steady_newTemp.bind fun dest ↦ (steady_emit _).bind fun _ ↦ steady_push _)

theorem steady_terminator : Steady Builder.Roomier (terminator place) := by
  intro small large hrooms
  unfold terminator
  by_cases hdead : small.dead = true
  · have hlarge : large.dead = true := hrooms.dead_eq.trans hdead
    rw [if_pos hdead, if_pos hlarge]
    exact ⟨large, rfl, hrooms⟩
  · have hlive : ¬large.dead = true := by rwa [hrooms.dead_eq]
    rw [if_neg hdead, if_neg hlive]
    obtain ⟨hsmall, hlarge⟩ | ⟨top, below, below', hsmall, hlarge, hdepth, hbelow⟩ :=
      pop?_roomier hrooms
    · rw [hsmall, hlarge]
      exact ⟨large, rfl, hrooms⟩
    · rw [hsmall, hlarge]
      dsimp only
      rw [hdepth]
      split_ifs
      · exact ⟨_, rfl, hbelow⟩
      · rw [hrooms.function_eq]
        exact .inr ⟨_, rfl⟩

theorem steady_close (ending : Except Diagnostic Span) :
    Steady Builder.Roomier (close ending) := by
  cases ending with
  | error failure => exact steady_throw failure
  | ok behind =>
    exact steady_terminator.ite (steady_get_bind fun small large h ↦
      ⟨by rw [h.function_eq], steady_throw _⟩)

theorem steady_takeEmitted : Steady Builder.Roomier takeEmitted := by
  intro small large h
  refine ⟨{ large with emitted := #[] }, ?_, { h with emitted_eq := rfl }⟩
  show EStateM.Result.ok large.emitted _ = _
  rw [h.emitted_eq]

end Lowering

theorem Definition.steady_lower (definition : Definition) :
    Steady Builder.Roomier definition.lower := by
  refine (Lowering.steady_enter _).bind fun _ ↦ (Lowering.steady_countSlots _).bind fun _ ↦ ?_
  refine (Steady.forM Lowering.steady_step _).bind fun _ ↦ ?_
  refine (Lowering.steady_close _).bind fun terminator ↦
    Lowering.steady_takeEmitted.bind fun emitted ↦ steady_get_bind fun small large h ↦ ?_
  exact ⟨by rw [h.nextTemp_eq], steady_pure _⟩

theorem steady_lowerEntry (types : List Signature) (index typeIndex : Nat) (body : Body) :
    Steady Builder.Roomier (lowerEntry types index typeIndex body) := by
  unfold lowerEntry
  split
  · exact Definition.steady_lower _
  · exact steady_throw _

theorem steady_lowerModule (module : Module) : Steady Builder.Roomier (lowerModule module) :=
  Steady.mapM (fun _ ↦ steady_lowerEntry module.types _ _ _) _

end Linear

/-! ### Emission -/

namespace Machine

/-- Whether two pools differ in the number of registers only, and the second has at least as many as
the first. -/
structure Pool.Roomier (small large : Pool) : Prop where
  limit_le : small.limit ≤ large.limit
  strategy_eq : large.strategy = small.strategy
  used_eq : large.used = small.used
  free_eq : large.free = small.free

theorem Pool.Roomier.reset {small large : Pool} (h : small.Roomier large) :
    small.reset.Roomier large.reset :=
  ⟨h.limit_le, h.strategy_eq, rfl, rfl⟩

/-- Where both pools have a register, it is the same one. -/
theorem Pool.Roomier.acquire? {small large : Pool} (h : small.Roomier large) :
    small.acquire? = none ∨ ∃ register next next', small.acquire? = some (register, next) ∧
      large.acquire? = some (register, next') ∧ next.Roomier next' := by
  obtain ⟨strategy, limit, used, free, hused, hfree, hascending, hmonotonic⟩ := small
  obtain ⟨strategy', limit', used', free', hused', hfree', hascending', hmonotonic'⟩ := large
  obtain ⟨hlimit, rfl, rfl, rfl⟩ := h
  cases free' with
  | cons register rest => exact .inr ⟨register, _, _, rfl, rfl, hlimit, rfl, rfl, rfl⟩
  | nil =>
    by_cases hroom : used' < limit
    · refine .inr ⟨used', _, _, dif_pos hroom, dif_pos (Nat.lt_of_lt_of_le hroom hlimit), ?_⟩
      exact ⟨hlimit, rfl, rfl, rfl⟩
    · exact .inl (dif_neg hroom)

theorem Pool.Roomier.release {small large : Pool} (h : small.Roomier large) (register : Nat) :
    (small.release register).Roomier (large.release register) := by
  obtain ⟨strategy, limit, used, free, hused, hfree, hascending, hmonotonic⟩ := small
  obtain ⟨strategy', limit', used', free', hused', hfree', hascending', hmonotonic'⟩ := large
  obtain ⟨hlimit, rfl, rfl, rfl⟩ := h
  cases strategy' with
  | monotonic => exact ⟨hlimit, rfl, rfl, rfl⟩
  | freeList =>
    unfold Pool.release
    dsimp only
    split_ifs
    · exact ⟨hlimit, rfl, rfl, rfl⟩
    · exact ⟨hlimit, rfl, rfl, rfl⟩

/-- Whether two emitters differ in the number of registers of their pools only. -/
structure Emitter.Roomier (small large : Emitter) : Prop where
  pool : small.pool.Roomier large.pool
  bindings_eq : large.bindings = small.bindings
  temps_eq : large.temps = small.temps
  code_eq : large.code = small.code

namespace Emission

variable {frame : Linear.Frame} {slot register temp : Nat}

theorem steady_fail {α : Type} (fault : EmissionFault) :
    Steady Emitter.Roomier (fail frame fault : Emission α) :=
  steady_throw _

/-- A pool with more registers may have one where a smaller one has none left. -/
theorem steady_acquire : Steady Emitter.Roomier (acquire frame) := by
  intro small large hrooms
  unfold acquire
  obtain hsmall | ⟨register, next, next', hsmall, hlarge, hnext⟩ := hrooms.pool.acquire?
  · rw [hsmall]
    exact .inl rfl
  · rw [hsmall, hlarge]
    exact ⟨_, rfl, hnext, hrooms.bindings_eq, hrooms.temps_eq, hrooms.code_eq⟩

theorem steady_release : Steady Emitter.Roomier (release register) :=
  steady_modify fun _ _ h ↦ ⟨h.pool.release register, h.bindings_eq, h.temps_eq, h.code_eq⟩

theorem steady_emit (instruction : Instr) : Steady Emitter.Roomier (emit instruction) :=
  steady_modify fun _ _ h ↦
    ⟨h.pool, h.bindings_eq, h.temps_eq, congrArg (·.push instruction) h.code_eq⟩

theorem steady_bind : Steady Emitter.Roomier (bind slot register) := by
  intro small large h
  refine ⟨{ large with bindings := large.bindings.bind slot register }, ?_, h.pool,
    congrArg (·.bind slot register) h.bindings_eq, h.temps_eq, h.code_eq⟩
  show EStateM.Result.ok (large.bindings.register? slot) _ = _
  rw [h.bindings_eq]

theorem steady_checkSlot : Steady Emitter.Roomier (checkSlot frame slot) :=
  (steady_pure ()).ite (steady_fail _)

theorem steady_define : Steady Emitter.Roomier (define frame temp register) := by
  intro small large h
  unfold define
  rw [h.temps_eq]
  split
  · exact .inr ⟨large, rfl⟩
  · exact ⟨_, rfl, h.pool, h.bindings_eq, rfl, h.code_eq⟩

theorem steady_consume : Steady Emitter.Roomier (consume frame temp) := by
  intro small large h
  unfold consume
  rw [h.temps_eq]
  split
  · exact ⟨_, rfl, h.pool, h.bindings_eq, rfl, h.code_eq⟩
  · exact .inr ⟨large, rfl⟩

theorem steady_copySlot : Steady Emitter.Roomier (copySlot frame slot) := by
  refine steady_checkSlot.bind fun _ ↦ steady_acquire.bind fun dest ↦
    steady_get_bind fun small large h ↦ ⟨by rw [h.bindings_eq], ?_⟩
  split
  · exact (steady_emit _).bind fun _ ↦ steady_pure dest
  · exact (steady_emit _).bind fun _ ↦ steady_pure dest

theorem steady_intoRegister (operand : Linear.Operand) :
    Steady Emitter.Roomier (intoRegister frame operand) := by
  cases operand with
  | const value =>
    exact steady_acquire.bind fun dest ↦ (steady_emit _).bind fun _ ↦ steady_pure dest
  | slot slot => exact steady_copySlot
  | temp temp => exact steady_consume

theorem steady_step (instruction : Linear.Instr) :
    Steady Emitter.Roomier (step frame instruction) := by
  cases instruction with
  | snapshot dest slot => exact steady_copySlot.bind fun _ ↦ steady_define
  | assign slot value =>
    refine steady_checkSlot.bind fun _ ↦ (steady_intoRegister value).bind fun register ↦
      steady_bind.bind fun previous ↦ ?_
    cases previous with
    | some old => exact steady_release
    | none => exact steady_pure ()
  | add dest lhs rhs =>
    exact (steady_intoRegister lhs).bind fun left ↦ (steady_intoRegister rhs).bind fun right ↦
      (steady_emit _).bind fun _ ↦ steady_release.bind fun _ ↦ steady_define

theorem steady_returned (operand : Linear.Operand) :
    Steady Emitter.Roomier (returned frame operand) := by
  cases operand with
  | const value => exact steady_intoRegister (.const value)
  | temp temp => exact steady_intoRegister (.temp temp)
  | slot slot =>
    refine steady_get_bind fun small large h ↦ ⟨by rw [h.bindings_eq], ?_⟩
    split
    · exact steady_pure _
    · exact steady_copySlot

theorem steady_finish (terminator : Linear.Terminator) :
    Steady Emitter.Roomier (finish frame terminator) := by
  match terminator with
  | .ret (some operand) => exact (steady_returned operand).bind fun _ ↦ steady_emit _
  | .ret none => exact steady_fail _
  | .trap => exact steady_emit .trap

theorem steady_placeParams (count : Nat) :
    ∀ slot, Steady Emitter.Roomier (placeParams frame slot count) := by
  induction count with
  | zero => exact fun slot ↦ steady_pure ()
  | succ count ih =>
    exact fun slot ↦ steady_acquire.bind fun _ ↦ steady_bind.bind fun _ ↦ ih (slot + 1)

theorem steady_body (function : Linear.Function) : Steady Emitter.Roomier (body function) :=
  (steady_placeParams _ 0).bind fun _ ↦ (Steady.forM steady_step _).bind fun _ ↦ steady_finish _

end Emission

theorem steady_emitFunction (function : Linear.Function) :
    Steady Pool.Roomier (emitFunction function) := by
  intro small large hrooms
  have hbody := Emission.steady_body function (.start function.slotCount small)
    (.start function.slotCount large) ⟨hrooms.reset, rfl, rfl, rfl⟩
  unfold emitFunction
  obtain ⟨failure, stop, hsmall, hshortage⟩ | ⟨failure, stop, stop', hsmall, hlarge⟩ |
    ⟨value, after, after', hsmall, hlarge, hafter⟩ := hbody.cases
  · rw [hsmall]
    exact .inl hshortage
  · rw [hsmall, hlarge]
    exact .inr ⟨stop'.pool, rfl⟩
  · rw [hsmall, hlarge]
    refine ⟨after'.pool, ?_, hafter.pool⟩
    show EStateM.Result.ok after'.code.toList after'.pool = _
    rw [hafter.code_eq]

theorem steady_emitProgram (functions : List Linear.Function) :
    Steady Pool.Roomier (emitProgram functions) := by
  refine Steady.foldlM (fun (program : Program) function ↦ ?_) functions {}
  refine (steady_emitFunction function).bind fun code ↦ steady_get_bind fun small large h ↦ ?_
  exact ⟨by rw [h.used_eq], steady_pure _⟩

end Machine

/-! ### Stages -/

/-- Whether a stage under larger limits has the same result as under smaller ones, unless it fails
for a shortage there. -/
def Outlives {α : Type} (small large : Except StageFailure α) : Prop :=
  large = small ∨ ∃ failure, small = .error failure ∧ failure.diagnostic.isShortage = true

theorem Outlives.bind {α β : Type} {small large : Except StageFailure α}
    {next next' : α → Except StageFailure β} (h : Outlives small large)
    (hnext : ∀ value, Outlives (next value) (next' value)) :
    Outlives (small >>= next) (large >>= next') := by
  rcases h with rfl | ⟨failure, rfl, hshortage⟩
  · cases large with
    | ok value => exact hnext value
    | error failure => exact .inl rfl
  · exact .inr ⟨failure, rfl, hshortage⟩

theorem Linear.outlives_ofModule {small large : Nat} (h : small ≤ large) (module : Module) :
    Outlives (Stage.lowering.mark (ofModule small module))
      (Stage.lowering.mark (ofModule large module)) := by
  have hrun := steady_lowerModule module (.ofCapacity small) (.ofCapacity large)
    ⟨rfl, h, rfl, rfl, rfl, rfl, rfl⟩
  unfold ofModule
  obtain ⟨failure, stop, hsmall, hshortage⟩ | ⟨failure, stop, stop', hsmall, hlarge⟩ |
    ⟨functions, after, after', hsmall, hlarge, -⟩ := hrun.cases
  · rw [hsmall]
    exact .inr ⟨_, rfl, hshortage⟩
  · rw [hsmall, hlarge]
    exact .inl rfl
  · rw [hsmall, hlarge]
    exact .inl rfl

theorem Machine.Program.outlives_ofLinear {small large : Nat} (h : small ≤ large)
    (strategy : Strategy) (functions : List Linear.Function) :
    Outlives (Stage.emission.mark (ofLinear strategy small functions))
      (Stage.emission.mark (ofLinear strategy large functions)) := by
  have hrun := steady_emitProgram functions (.ofLimit strategy small) (.ofLimit strategy large)
    ⟨h, rfl, rfl, rfl⟩
  unfold ofLinear
  obtain ⟨failure, stop, hsmall, hshortage⟩ | ⟨failure, stop, stop', hsmall, hlarge⟩ |
    ⟨program, next, next', hsmall, hlarge, -⟩ := hrun.cases
  · rw [hsmall]
    exact .inr ⟨_, rfl, hshortage⟩
  · rw [hsmall, hlarge]
    exact .inl rfl
  · rw [hsmall, hlarge]
    exact .inl rfl

/-- Assumes: two sets of options with the same strategy, of which the second allows a stack at least
as deep and at least as many registers. What compiles under the first set compiles under the second,
to the same module, linear code and program. What fails under the first set for another reason than
a full stack or a lack of registers fails under the second in the same stage with the same
diagnostic. -/
theorem compile_of_roomier {options options' : Options}
    (hstrategy : options'.strategy = options.strategy)
    (hcapacity : options.stackCapacity ≤ options'.stackCapacity)
    (hregisters : options.registers ≤ options'.registers) (bytes : List UInt8) :
    (∀ compiled, compile options bytes = .ok compiled → compile options' bytes = .ok compiled) ∧
      ∀ failure, compile options bytes = .error failure →
        failure.diagnostic.isShortage = false → compile options' bytes = .error failure := by
  have houtlives : Outlives (compile options bytes) (compile options' bytes) := by
    refine Outlives.bind (.inl rfl) fun module ↦ ?_
    refine (Linear.outlives_ofModule hcapacity module).bind fun linear ↦ ?_
    rw [hstrategy]
    exact (Machine.Program.outlives_ofLinear hregisters options.strategy linear).bind
      fun program ↦ .inl rfl
  rcases houtlives with hsame | ⟨shortage, hshort, hshortage⟩
  · rw [hsame]
    exact ⟨fun compiled h ↦ h, fun failure h _ ↦ h⟩
  · rw [hshort]
    refine ⟨fun _ h ↦ (nomatch h), fun failure h hother ↦ ?_⟩
    cases h
    rw [hshortage] at hother
    cases hother

/-- Room for three operands and four registers give what the usual limits give. A binary that breaks
off behind the section of functions is refused under both, since its function has no body. -/
theorem compile_of_roomier_overtakenBinary :
    (∃ compiled, compile { stackCapacity := 3, registers := 4, strategy := .freeList }
        overtakenBinary = .ok compiled ∧
      compile { strategy := .freeList } overtakenBinary = .ok compiled) ∧
    compile { strategy := .freeList } (overtakenBinary.take 20) =
      .error { stage := .decoding, diagnostic := .malformed 20 (.bodyCount 1 0) } := by
  have hroomier := @compile_of_roomier { stackCapacity := 3, registers := 4, strategy := .freeList }
    { strategy := .freeList } rfl (by decide) (by decide)
  refine ⟨?_, (hroomier _).2 _ (by decide +kernel) rfl⟩
  have hsuccess : (compile { stackCapacity := 3, registers := 4, strategy := .freeList }
      overtakenBinary).isOk = true := by decide +kernel
  cases h : compile { stackCapacity := 3, registers := 4, strategy := .freeList }
      overtakenBinary with
  | ok compiled => exact ⟨compiled, rfl, (hroomier _).1 compiled h⟩
  | error failure =>
    rw [h] at hsuccess
    cases hsuccess

end StraightWasm
