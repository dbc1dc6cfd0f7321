import StraightWasm.Proofs.Linear.Actions
import StraightWasm.Proofs.Linear.Pinning
import StraightWasm.Proofs.StackCode.Spelling

/-!
# Linear code does what stack code does

While a body is lowered, the linear code so far leads from the state at the call to a state with the
same locals as the stack machine, and the operands on the symbolic stack stand for the values on the
stack of the machine (`Builder.Follows`). A reference to a local stands for what the local holds
now, so the relation says that nothing was assigned to the local since it was read.

In live code an instruction that can be lowered can be executed, and the relation holds behind it
(`Builder.Follows.step`); from `unreachable` on the machine has trapped and nothing more is emitted.
So the same holds of a sequence of instructions (`Builder.Follows.forM_step`) and of a whole body
(`Definition.runs_lower`).
-/

set_option autoImplicit false
set_option relaxedAutoImplicit false

namespace StraightWasm.Linear

open StackCode (Located)

/-! ### The relation between the two stacks -/

namespace Builder

/-- The instructions so far lead from `first` to `linear`, which has the locals of `state`, and the
operands on the stack stand for the values on the stack of `state`. -/
structure Follows (first : State) (builder : Builder) (linear : State)
    (state : StackCode.State) : Prop where
  live : builder.dead = false
  reached : builder.emitted.toList.foldlM State.step first = some linear
  slots : linear.slots = state.locals
  length_locals : state.locals.length = builder.slotCount
  stands : List.Forall₂ (Operand.StandsFor linear builder.nextTemp) builder.stack.values
    state.stack

namespace Follows

variable {first linear : State} {before after : Builder} {state : StackCode.State}
  {place slot : Nat} {operand : Operand}

/-- Pushing an operand pushes the value that it stands for. -/
theorem push (h : before.Follows first linear state) {value : Int32}
    (hoperand : operand.StandsFor linear before.nextTemp value)
    (hrun : Lowering.push place operand before = .ok () after) :
    after.Follows first linear { state with stack := value :: state.stack } := by
  obtain ⟨stack, hstack, rfl⟩ := Lowering.push_cases hrun
  refine ⟨h.live, h.reached, h.slots, h.length_locals, ?_⟩
  change List.Forall₂ _ stack.values _
  rw [hstack]
  exact .cons hoperand h.stands

/-- Popping an operand pops the value that it stands for. -/
theorem pop (h : before.Follows first linear state) {stack : OperandStack}
    (hstack : before.stack.values = operand :: stack.values) :
    ∃ value below, state.stack = value :: below ∧
      operand.StandsFor linear before.nextTemp value ∧
      Follows first { before with stack := stack } linear { state with stack := below } := by
  have hstands := h.stands
  rw [hstack, List.forall₂_cons_left_iff] at hstands
  obtain ⟨value, below, hoperand, hbelow, hvalues⟩ := hstands
  exact ⟨value, below, hvalues, hoperand, h.live, h.reached, h.slots, h.length_locals, hbelow⟩

/-! ### Instructions -/

/-- A local is read by a reference to it. -/
theorem standsFor_slot (h : before.Follows first linear state)
    (hslot : slot < before.slotCount) :
    ∃ value, state.locals[slot]? = some value ∧
      (Operand.slot slot).StandsFor linear before.nextTemp value := by
  have hlength : slot < state.locals.length := h.length_locals ▸ hslot
  have hvalue : state.locals[slot]? = some state.locals[slot] := List.getElem?_eq_getElem hlength
  refine ⟨state.locals[slot], hvalue, ?_, trivial⟩
  rw [State.value?, h.slots]
  exact hvalue

/-- An assignment gives the local the value on top of the stack. The references to the local that
are left on the stack have been pinned, so what they stand for stays. -/
theorem assign (h : before.Follows first linear state) (hslot : slot < before.slotCount)
    (hrun : Lowering.assign place slot before = .ok () after) :
    ∃ value below linear', state.stack = value :: below ∧
      after.Follows first linear'
        { locals := state.locals.set slot value, stack := below } := by
  obtain ⟨operand, stack, hstack, rfl⟩ := Lowering.assign_cases hrun
  obtain ⟨value, below, hvalues, hoperand, hpopped⟩ := h.pop hstack
  obtain ⟨pinned, hpins⟩ := OperandStack.pins_pinAll slot hpopped.reached hpopped.stands
  have hlength : slot < pinned.slots.length := by
    rw [hpins.slots, h.slots, h.length_locals]
    exact hslot
  have hvalue : pinned.value? operand = some value :=
    (hpins.kept operand hoperand.below).trans hoperand.value?_eq
  refine ⟨value, below, { pinned with slots := pinned.slots.set slot value }, hvalues, h.live, ?_,
    ?_, ?_, ?_⟩
  · change (Array.push (OperandStack.pinAll slot before.nextTemp before.emitted
      stack.values).emitted _).toList.foldlM _ _ = _
    rw [foldlM_push hpins.reached, State.step, hvalue]
    exact State.assign_eq hlength value
  · rw [hpins.slots, h.slots]
  · rw [List.length_set]
    exact h.length_locals
  · exact hpins.stands.imp fun other word hother ↦ hother.1.assign hlength hother.2 value

/-- An addition pushes a temporary that stands for the sum. -/
theorem add (h : before.Follows first linear state) {offset : Nat}
    (hrun : Lowering.step { offset := offset, instruction := .add } before = .ok () after) :
    ∃ linear' state', state.step .add = some state' ∧
      after.Follows first linear' state' := by
  obtain ⟨lhs, rhs, below, stack, hbefore, hstack, rfl⟩ := Lowering.add_cases h.live hrun
  have hstands := h.stands
  rw [hbefore, List.forall₂_cons_left_iff] at hstands
  obtain ⟨right, _, hrhs, hstands, hright⟩ := hstands
  rw [List.forall₂_cons_left_iff] at hstands
  obtain ⟨left, words, hlhs, hwords, rfl⟩ := hstands
  refine ⟨linear.define before.nextTemp (left + right),
    { state with stack := (left + right) :: words }, ?_, h.live, ?_, h.slots, h.length_locals, ?_⟩
  · rw [StackCode.State.step, hright]
  · rw [foldlM_push h.reached, State.step, hlhs.value?_eq, hrhs.value?_eq]
    rfl
  · change List.Forall₂ _ stack.values _
    rw [hstack]
    refine .cons (Operand.standsFor_define linear _ _) (hwords.imp ?_)
    exact fun operand word hoperand ↦ hoperand.define _

/-- An instruction that can be lowered in live code can be executed, and both go on side by side. -/
theorem step (h : before.Follows first linear state) {located : Located}
    (hlive : located.instruction ≠ .unreachable)
    (hrun : Lowering.step located before = .ok () after) :
    ∃ linear' state', state.step located.instruction = some state' ∧
      after.Follows first linear' state' := by
  obtain ⟨offset, instruction⟩ := located
  cases instruction with
  | unreachable => exact absurd rfl hlive
  | nop =>
    obtain ⟨-, rfl⟩ := Success.pure_iff.mp hrun
    exact ⟨linear, state, rfl, h⟩
  | const value =>
    have hoperand : (Operand.const value).StandsFor linear before.nextTemp value :=
      ⟨rfl, trivial⟩
    exact ⟨linear, _, rfl, h.push hoperand (Lowering.of_whenLive h.live hrun)⟩
  | localGet slot =>
    obtain ⟨hslot, hpush⟩ := Lowering.checked_iff.mp hrun
    obtain ⟨value, hvalue, hoperand⟩ := h.standsFor_slot hslot
    refine ⟨linear, { state with stack := value :: state.stack }, ?_,
      h.push hoperand (Lowering.of_whenLive h.live hpush)⟩
    rw [StackCode.State.step, hvalue]
    rfl
  | localSet slot =>
    obtain ⟨hslot, hassign⟩ := Lowering.checked_iff.mp hrun
    obtain ⟨value, below, linear', hstack, hafter⟩ :=
      h.assign hslot (Lowering.of_whenLive h.live hassign)
    refine ⟨linear', _, ?_, hafter⟩
    rw [StackCode.State.step, hstack]
    exact if_pos (h.length_locals ▸ hslot)
  | localTee slot =>
    obtain ⟨hslot, htee⟩ := Lowering.checked_iff.mp hrun
    obtain ⟨_, middle, hassign, hpush⟩ := Success.bind_iff.mp (Lowering.of_whenLive h.live htee)
    obtain ⟨value, below, linear', hstack, hmiddle⟩ := h.assign hslot hassign
    have hlength : slot < state.locals.length := h.length_locals ▸ hslot
    have hslot' : slot < middle.slotCount := by
      rw [← hmiddle.length_locals, List.length_set]
      exact hlength
    obtain ⟨top, htop, hoperand⟩ := hmiddle.standsFor_slot hslot'
    rw [List.getElem?_set_self hlength, Option.some.injEq] at htop
    subst htop
    have hassigned : state.assign slot value =
        some { state with locals := state.locals.set slot value } := if_pos hlength
    refine ⟨linear', _, ?_, hmiddle.push hoperand hpush⟩
    rw [StackCode.State.step, hstack]
    dsimp only
    rw [hassigned, hstack]
  | add => exact h.add hrun

/-! ### Bodies -/

/-- A sequence of instructions that can be lowered is executed to its end, and both go on side by
side, or it is executed up to a trap, and linear code stops growing there. -/
theorem forM_step (code : List Located) :
    ∀ {before after : Builder} {linear : State} {state : StackCode.State},
      before.Follows first linear state →
        code.forM Lowering.step before = .ok () after →
          (∃ linear' state', (code.map (·.instruction)).foldlM StackCode.State.step state =
              some state' ∧ after.Follows first linear' state') ∨
            (after.dead = true ∧
              (∃ linear', after.emitted.toList.foldlM State.step first = some linear') ∧
              StackCode.run (code.map (·.instruction)) state = some .trapped) := by
  induction code with
  | nil =>
    intro before after linear state h hrun
    obtain ⟨-, rfl⟩ := Success.pure_iff.mp hrun
    exact .inl ⟨linear, state, rfl, h⟩
  | cons located rest ih =>
    intro before after linear state h hrun
    obtain ⟨_, middle, hstep, hrest⟩ := Success.bind_iff.mp hrun
    by_cases htrap : located.instruction = .unreachable
    · have hmiddle : middle.dead = true ∧ middle.emitted = before.emitted := by
        rw [Lowering.step, htrap] at hstep
        cases hstep
        exact ⟨rfl, rfl⟩
      obtain ⟨hdead, hemitted⟩ := Success.forM_keeps
        (fun builder ↦ builder.dead = true ∧ builder.emitted = before.emitted)
        (fun item earlier later hearlier hitem ↦ by
          obtain ⟨hdead, hemitted, -⟩ := Lowering.step_dead hearlier.1 hitem
          exact ⟨hdead, hemitted.trans hearlier.2⟩)
        rest middle after hmiddle hrest
      refine .inr ⟨hdead, ⟨linear, hemitted ▸ h.reached⟩, ?_⟩
      rw [List.map_cons, htrap]
      rfl
    · obtain ⟨linear₁, state₁, hstate, hmiddle⟩ := h.step htrap hstep
      obtain ⟨linear₂, state₂, hlast, hafter⟩ | ⟨hdead, hemitted, htrapped⟩ := ih hmiddle hrest
      · refine .inl ⟨linear₂, state₂, ?_, hafter⟩
        rw [List.map_cons, List.foldlM_cons, hstate]
        exact hlast
      · refine .inr ⟨hdead, hemitted, ?_⟩
        rw [List.map_cons, StackCode.run_cons_of_step hstate]
        exact htrapped

/-- In live code a terminator returns what is on top of the stack, if anything is. -/
theorem terminator (h : before.Follows first linear state) {result : Terminator}
    (hrun : Lowering.terminator place before = .ok result after) :
    after.emitted = before.emitted ∧ linear.finish result = some (.returned state.stack.head?) ∧
      result ≠ .trap ∧ (result = .ret none ↔ state.stack = []) := by
  have hstands := h.stands
  obtain ⟨hdead, -⟩ | ⟨-, hempty, rfl, rfl⟩ | ⟨operand, -, hsingle, rfl, hemitted⟩ :=
    Lowering.terminator_cases hrun
  · rw [h.live] at hdead
    cases hdead
  · rw [hempty, List.forall₂_nil_left_iff] at hstands
    rw [hstands]
    exact ⟨rfl, rfl, by simp, by simp⟩
  · rw [hsingle, List.forall₂_cons_left_iff] at hstands
    obtain ⟨value, words, hoperand, -, hvalues⟩ := hstands
    rw [hvalues]
    refine ⟨hemitted, ?_, by simp, by simp⟩
    rw [State.finish, hoperand.value?_eq]
    rfl

end Follows

end Builder

/-! ### Functions -/

namespace Definition

variable {definition : Definition} {before after : Builder} {function : Function}
  {arguments : List Int32}

/-- The beginning of a body that can be lowered is executed to its end, and both stacks go on side
by side, or it is executed up to a trap. -/
theorem follows_upTo {taken : List Located} (h : definition.upTo taken before = .ok () after)
    (hlength : arguments.length = definition.signature.params.length) :
    (∃ linear state, (taken.map (·.instruction)).foldlM StackCode.State.step
        (.start arguments definition.body.locals.length) = some state ∧
      after.Follows (.start arguments definition.body.locals.length) linear state) ∨
      (after.dead = true ∧
        (∃ linear, after.emitted.toList.foldlM State.step
          (.start arguments definition.body.locals.length) = some linear) ∧
        StackCode.run (taken.map (·.instruction))
          (.start arguments definition.body.locals.length) = some .trapped) := by
  obtain ⟨-, hrun⟩ := upTo_iff.mp h
  refine Builder.Follows.forM_step taken ⟨rfl, rfl, rfl, ?_, .nil⟩ hrun
  rw [StackCode.State.start, List.length_append, List.length_replicate, hlength]
  rfl

/-- A function that can be lowered has the outcome of its body. -/
theorem outcomes_agree (h : definition.lower before = .ok function after)
    (hlength : arguments.length = definition.signature.params.length) :
    ∃ outcome, definition.body.Yields arguments outcome ∧
      function.outcome arguments = some outcome ∧
      (function.terminator = .trap ↔ outcome = .trapped) ∧
      (function.terminator = .ret none ↔ outcome = .returned none) := by
  obtain ⟨late, closed, terminator, hupTo, hclose, -, rfl⟩ := lower_iff.mp h
  obtain ⟨behind, hending, hempty, hterminator⟩ := Lowering.close_iff.mp hclose
  have hspells := (Body.spells_iff definition.index).mpr ⟨behind, hending, hempty, rfl⟩
  have hlinear : ∀ last, closed.emitted.toList.foldlM State.step
      (.start arguments definition.body.locals.length) = some last →
        run terminator closed.emitted.toList (.start arguments definition.body.locals.length) =
          last.finish terminator := by
    intro last hlast
    rw [run_eq_bind, hlast, Option.bind_some]
  obtain ⟨linear, state, hstate, hlate⟩ | ⟨hdead, ⟨linear, hreached⟩, htrapped⟩ :=
    follows_upTo hupTo hlength
  · obtain ⟨hemitted, hfinish, htrap, hempty⟩ := hlate.terminator hterminator
    have hrun := StackCode.run_of_foldlM _ hstate
    refine ⟨.returned state.stack.head?, ⟨_, hspells, hrun⟩, ?_, by simp [htrap], by simp [hempty]⟩
    exact (hlinear linear (hemitted ▸ hlate.reached)).trans hfinish
  · rw [Lowering.terminator, if_pos hdead, EStateM.Result.ok.injEq] at hterminator
    obtain ⟨rfl, rfl⟩ := hterminator
    exact ⟨.trapped, ⟨_, hspells, htrapped⟩, hlinear linear hreached, by simp, by simp⟩

/-- Assumes: a function that can be lowered, whatever the lowering was used for before, and an
argument for each of its parameters. The stack machine has an outcome on the body, and linear code
has the same. It traps exactly if the machine reaches `unreachable`, and it returns nothing exactly
if the machine ends with an empty stack. Moreover, wherever the machine is in the body, the symbolic
stack of the lowering stands for the values on its stack: what was read from a local stays as it was
read, whatever has been assigned to the local since. -/
theorem outcome_lower (h : definition.lower before = .ok function after)
    (hlength : arguments.length = definition.signature.params.length) :
    (∃ outcome, definition.body.Yields arguments outcome ∧
      function.outcome arguments = some outcome ∧
      (function.terminator = .trap ↔ outcome = .trapped) ∧
      (function.terminator = .ret none ↔ outcome = .returned none)) ∧
    ∀ taken, definition.body.Begins taken →
      ∃ middle, definition.upTo taken before = .ok () middle ∧
        ∀ state, (taken.map (·.instruction)).foldlM StackCode.State.step
            (.start arguments definition.body.locals.length) = some state →
          ∃ linear, middle.emitted.toList.foldlM State.step
              (.start arguments definition.body.locals.length) = some linear ∧
            linear.slots = state.locals ∧
            List.Forall₂ (fun operand value ↦ linear.value? operand = some value)
              middle.stack.values state.stack := by
  refine ⟨outcomes_agree h hlength, fun taken hbegins ↦ ?_⟩
  obtain ⟨rest, hscan⟩ := (Body.begins_iff definition.index).mp hbegins
  obtain ⟨late, -, -, hupTo, -⟩ := lower_iff.mp h
  obtain ⟨hcount, hrun⟩ := upTo_iff.mp hupTo
  rw [← hscan] at hrun
  obtain ⟨middle, htaken, -⟩ := Success.forM_append_iff.mp hrun
  have hmiddle : definition.upTo taken before = .ok () middle := upTo_iff.mpr ⟨hcount, htaken⟩
  refine ⟨middle, hmiddle, fun state hstate ↦ ?_⟩
  obtain ⟨linear, state', hstate', hfollows⟩ | ⟨-, -, htrapped⟩ := follows_upTo hmiddle hlength
  · rw [hstate, Option.some.injEq] at hstate'
    subst hstate'
    refine ⟨linear, hfollows.reached, hfollows.slots, hfollows.stands.imp ?_⟩
    exact fun operand value hoperand ↦ hoperand.value?_eq
  · have hreturned := StackCode.run_of_foldlM _ hstate
    rw [htrapped] at hreturned
    cases hreturned

/-- A body that overwrites its parameter and its local while their old values wait on the stack. It
gives one more than twice its argument. -/
def overtaken : Definition where
  index := 7
  typeIndex := 0
  signature := { params := [.i32], result := .i32 }
  body :=
    { locals := [.i32]
      code := [0x20, 0x00, 0x20, 0x00, 0x41, 0x01, 0x6a, 0x22, 0x00, 0x6a, 0x21, 0x01, 0x20, 0x01,
        0x41, 0x00, 0x21, 0x01, 0x0b]
      codeOffset := 0 }

/-- Its instructions. -/
def overtakenCode : List StackCode.Instruction :=
  [.localGet 0, .localGet 0, .const 1, .add, .localTee 0, .add, .localSet 1, .localGet 1, .const 0,
    .localSet 1]

/-- A stack of three is enough for it. -/
theorem outcome_lower_overtaken :
    ∃ function after, overtaken.lower (.ofCapacity 3) = .ok function after ∧
      overtaken.body.Spells overtakenCode ∧
      function.outcome [20] = some (.returned (some 41)) := by
  have hsuccess : Success.succeeds (overtaken.lower (.ofCapacity 3)) = true := by decide +kernel
  obtain ⟨function, after, h⟩ := Success.exists_of_succeeds hsuccess
  have hlength : ([20] : List Int32).length = overtaken.signature.params.length := rfl
  have hspells : overtaken.body.Spells overtakenCode :=
    (Body.spells_iff 0).mpr ⟨{ offset := 19, bytes := [] }, by decide +kernel, rfl,
      by decide +kernel⟩
  have hresult : overtaken.body.Yields [20] (.returned (some 41)) :=
    ⟨overtakenCode, hspells, by decide +kernel⟩
  obtain ⟨⟨outcome, houtcome, hrun, -⟩, -⟩ := outcome_lower h hlength
  rw [houtcome.unique hresult] at hrun
  exact ⟨function, after, h, hspells, hrun⟩

end Definition

end StraightWasm.Linear
