import StraightWasm.Proofs.Machine.Demand

/-!
# Taking registers back costs nothing

Two emissions of one function, the first under the monotonic strategy, do the same under different
names of registers. A register of the first emission has one use only, so one table translates its
registers to those of the second. While both go on, the table gets an entry for each new register,
and what has been translated before does not change: the second emission mirrors the first one if
every renaming that continues the table so far turns the code and the tables of the first emission
into those of the second (`Emitter.Mirrors`). Each instruction keeps that
(`Emitter.Mirrors.intoRegister`, `Emitter.Mirrors.step`), so the code of the function is the same up
to one renaming (`Emission.renames_body`).

Together with the demand of a function this compares the two strategies (`emitFunction_demand`): how
many registers each of them needs, that the free-list strategy needs no more than the monotonic one,
and that it emits the same code under other names.
-/

set_option autoImplicit false
set_option relaxedAutoImplicit false

namespace StraightWasm.Machine

open Linear (Frame Operand Terminator)

/-- The instruction under other names of its registers. -/
def Instr.rename (rename : Nat → Nat) : Instr → Instr
  | .load dest value => .load (rename dest) value
  | .move dest source => .move (rename dest) (rename source)
  | .add dest source => .add (rename dest) (rename source)
  | .ret source => .ret (rename source)
  | .trap => .trap

/-- A constant is loaded into a register that was just acquired. -/
theorem Emission.const_cases {frame : Frame} {value : Int32} {register : Nat}
    {before after : Emitter}
    (h : intoRegister frame (.const value) before = .ok register after) :
    ∃ pool, before.pool.acquire? = some (register, pool) ∧
      after = { before with pool := pool, code := before.code.push (.load register value) } := by
  obtain ⟨dest, _, hacquire, h⟩ := Success.bind_iff.mp h
  obtain ⟨pool, hpool, rfl⟩ := acquire_iff.mp hacquire
  cases h
  exact ⟨pool, hpool, rfl⟩

namespace Emitter

/-- Whether a renaming turns the code, the tables and the hand of one emission into those of
another one. -/
structure Renames (rename : Nat → Nat) (hand : List (Nat × Nat)) (mono free : Emitter) : Prop where
  code_eq : free.code.toList = mono.code.toList.map (Instr.rename rename)
  register?_eq : ∀ holder, free.register? holder = (mono.register? holder).map rename
  hand_eq : ∀ register other, (register, other) ∈ hand → rename register = other

/-- Whether an emission goes as another one under the monotonic strategy does, up to the names of
registers: the names of those that were handed out so far are settled, and the parameters keep
theirs. -/
structure Mirrors (frame : Frame) (params : Nat) (hand : List (Nat × Nat)) (mono free : Emitter) :
    Prop where
  strategy_eq : mono.pool.strategy = .monotonic
  params_le : params ≤ mono.pool.used
  size_mono : mono.bindings.bySlot.size = frame.slotCount
  size_free : free.bindings.bySlot.size = frame.slotCount
  renames : ∃ table : Nat → Nat, (∀ register < params, table register = register) ∧
    ∀ rename : Nat → Nat, (∀ register < mono.pool.used, rename register = table register) →
      Renames rename hand mono free

namespace Renames

variable {rename : Nat → Nat} {hand : List (Nat × Nat)} {mono free : Emitter}

/-- Both emissions go on with the same instruction. -/
theorem code_push (h : Renames rename hand mono free) {instruction other : Instr}
    (hother : other = instruction.rename rename) :
    (free.code.push other).toList =
      (mono.code.push instruction).toList.map (Instr.rename rename) := by
  rw [Array.toList_push, Array.toList_push, List.map_append, h.code_eq, hother]
  rfl

/-- A local is copied from the register that it has in each emission. -/
theorem rename_copyInstr (h : Renames rename hand mono free) (slot register : Nat) :
    Emission.copyInstr free.bindings slot (rename register) =
      (Emission.copyInstr mono.bindings slot register).rename rename := by
  have hslot : free.bindings.register? slot = (mono.bindings.register? slot).map rename :=
    h.register?_eq (.slot slot)
  unfold Emission.copyInstr
  rw [hslot]
  cases mono.bindings.register? slot with
  | some source => rfl
  | none => rfl

/-- A holder that has its register from the hand in one emission has it from there in the other. -/
theorem update_register? (h : Renames rename hand mono free) (holder : Operand)
    (register? : Option Nat) :
    Function.update free.register? holder (register?.map rename) =
      fun other ↦ (Function.update mono.register? holder register? other).map rename := by
  ext1 other
  rw [Function.update_apply, Function.update_apply, h.register?_eq]
  split_ifs <;> rfl

end Renames

namespace Mirrors

variable {frame : Frame} {params : Nat} {hand hand' : List (Nat × Nat)}
  {mono mono' free free' : Emitter} {register other : Nat}

/-- A register that both emissions acquire and fill gets an entry in the table. -/
theorem fill (h : Mirrors frame params hand mono free) {next : Pool} (next' : Pool)
    {instruction instruction' : Instr} (hacquire : mono.pool.acquire? = some (register, next))
    (hinstruction : ∀ rename, Renames rename hand mono free → rename register = other →
      instruction' = instruction.rename rename) :
    Mirrors frame params ((register, other) :: hand)
      { mono with pool := next, code := mono.code.push instruction }
      { free with pool := next', code := free.code.push instruction' } := by
  obtain ⟨hstrategy, -⟩ := Pool.sameSettings_acquire? hacquire
  obtain ⟨rfl, hused⟩ := Pool.acquire?_of_monotonic h.strategy_eq hacquire
  have hparams_le := h.params_le
  obtain ⟨table, hparams, htable⟩ := h.renames
  refine ⟨hstrategy.trans h.strategy_eq, ?_, h.size_mono, h.size_free,
    Function.update table mono.pool.used other, ?_, ?_⟩
  · show params ≤ next.used
    omega
  · intro param hparam
    rw [Function.update_of_ne (by omega), hparams param hparam]
  · show ∀ rename : Nat → Nat, (∀ settled < next.used, _) → _
    intro rename hrename
    have hnew : rename mono.pool.used = other := by
      rw [hrename mono.pool.used (by omega), Function.update_self]
    have hold : Renames rename hand mono free := by
      apply htable
      intro settled hsettled
      rw [hrename settled (by omega), Function.update_of_ne (by omega)]
    refine ⟨hold.code_push (hinstruction rename hold hnew), hold.register?_eq, ?_⟩
    intro first second hmem
    rcases List.mem_cons.mp hmem with heq | hmem
    · cases heq
      exact hnew
    · exact hold.hand_eq first second hmem

/-- What acquires no register leaves the table as it is. -/
theorem keep (h : Mirrors frame params hand mono free) (hpool : mono'.pool = mono.pool)
    (hmono : mono'.bindings.bySlot.size = mono.bindings.bySlot.size)
    (hfree : free'.bindings.bySlot.size = free.bindings.bySlot.size)
    (hrenames : ∀ rename, Renames rename hand mono free → Renames rename hand' mono' free') :
    Mirrors frame params hand' mono' free' := by
  obtain ⟨table, hparams, htable⟩ := h.renames
  refine ⟨?_, ?_, hmono.trans h.size_mono, hfree.trans h.size_free, table, hparams, ?_⟩
  · rw [hpool]
    exact h.strategy_eq
  · rw [hpool]
    exact h.params_le
  · rw [hpool]
    exact fun rename hrename ↦ hrenames rename (htable rename hrename)

/-- An operand comes into registers that the table relates. -/
theorem intoRegister (h : Mirrors frame params hand mono free) {operand : Operand}
    (hmono : Emission.intoRegister frame operand mono = .ok register mono')
    (hfree : Emission.intoRegister frame operand free = .ok other free') :
    Mirrors frame params ((register, other) :: hand) mono' free' := by
  cases operand with
  | const value =>
    obtain ⟨next, hnext, rfl⟩ := Emission.const_cases hmono
    obtain ⟨next', -, rfl⟩ := Emission.const_cases hfree
    refine h.fill next' hnext fun rename _ hname ↦ ?_
    rw [← hname]
    rfl
  | slot slot =>
    obtain ⟨-, next, hnext, rfl⟩ := Emission.copySlot_cases hmono
    obtain ⟨-, next', -, rfl⟩ := Emission.copySlot_cases hfree
    refine h.fill next' hnext fun rename hrenames hname ↦ ?_
    rw [← hname]
    exact hrenames.rename_copyInstr slot register
  | temp temp =>
    obtain ⟨htemp, rfl⟩ := Emission.consume_iff.mp hmono
    obtain ⟨htemp', rfl⟩ := Emission.consume_iff.mp hfree
    refine h.keep rfl rfl rfl fun rename hrenames ↦ ⟨hrenames.code_eq, fun holder ↦ ?_, ?_⟩
    · rw [register?_erase, register?_erase]
      exact congrFun (hrenames.update_register? (.temp temp) none) holder
    · intro first second hmem
      rcases List.mem_cons.mp hmem with heq | hmem
      · cases heq
        have hheld : free.temps[temp]? = mono.temps[temp]?.map rename :=
          hrenames.register?_eq (.temp temp)
        rw [htemp, htemp', Option.map_some, Option.some.injEq] at hheld
        exact hheld.symm
      · exact hrenames.hand_eq first second hmem

/-- A temporary is defined by registers that the table relates. -/
theorem define (h : Mirrors frame params ((register, other) :: hand) mono free) (temp : Nat) :
    Mirrors frame params hand { mono with temps := mono.temps.insert temp register }
      { free with temps := free.temps.insert temp other } := by
  refine h.keep rfl rfl rfl fun rename hrenames ↦ ⟨hrenames.code_eq, fun holder ↦ ?_, ?_⟩
  · rw [register?_insert, register?_insert, ← hrenames.hand_eq register other List.mem_cons_self]
    exact congrFun (hrenames.update_register? (.temp temp) (some register)) holder
  · exact fun first second hmem ↦ hrenames.hand_eq first second (List.mem_cons_of_mem _ hmem)

/-- A local moves into registers that the table relates. What the second emission gives back does
not matter. -/
theorem bind (h : Mirrors frame params ((register, other) :: hand) mono free) {slot : Nat}
    (hslot : slot < frame.slotCount) (next : Pool) :
    Mirrors frame params hand
      { mono with bindings := mono.bindings.bind slot register }
      { free with pool := next, bindings := free.bindings.bind slot other } := by
  refine h.keep rfl (Bindings.size_bySlot_bind _ _ _) (Bindings.size_bySlot_bind _ _ _)
    fun rename hrenames ↦ ⟨hrenames.code_eq, fun holder ↦ ?_, ?_⟩
  · have hmono := register?_bind (h.size_mono ▸ hslot) register
    have hfree := register?_bind (h.size_free ▸ hslot) other
    have hupdate := hrenames.update_register? (.slot slot) (some register)
    rw [Option.map_some, hrenames.hand_eq register other List.mem_cons_self] at hupdate
    rw [hmono]
    exact (congrFun hfree holder).trans (congrFun hupdate holder)
  · exact fun first second hmem ↦ hrenames.hand_eq first second (List.mem_cons_of_mem _ hmem)

/-- Both emissions go on with instructions that the table relates. -/
theorem emit (h : Mirrors frame params hand mono free) (next : Pool)
    {instruction instruction' : Instr}
    (hinstruction : ∀ rename, Renames rename hand mono free →
      instruction' = instruction.rename rename) :
    Mirrors frame params hand { mono with code := mono.code.push instruction }
      { free with pool := next, code := free.code.push instruction' } :=
  h.keep rfl rfl rfl fun rename hrenames ↦
    ⟨hrenames.code_push (hinstruction rename hrenames), hrenames.register?_eq, hrenames.hand_eq⟩

theorem forget (h : Mirrors frame params ((register, other) :: hand) mono free) :
    Mirrors frame params hand mono free :=
  h.keep rfl rfl rfl fun _ hrenames ↦ ⟨hrenames.code_eq, hrenames.register?_eq,
    fun first second hmem ↦ hrenames.hand_eq first second (List.mem_cons_of_mem _ hmem)⟩

/-- An instruction keeps the emissions in step. -/
theorem step (h : Mirrors frame params [] mono free) {instruction : Linear.Instr}
    (hmono : Emission.step frame instruction mono = .ok () mono')
    (hfree : Emission.step frame instruction free = .ok () free') :
    Mirrors frame params [] mono' free' := by
  cases instruction with
  | snapshot dest slot =>
    obtain ⟨register, middle, hcopy, -, rfl⟩ := Emission.snapshot_cases hmono
    obtain ⟨other, middle', hcopy', -, rfl⟩ := Emission.snapshot_cases hfree
    exact (h.intoRegister hcopy hcopy').define dest
  | assign slot value =>
    obtain ⟨hslot, register, middle, hvalue, rfl⟩ := Emission.assign_cases hmono
    obtain ⟨-, other, middle', hvalue', rfl⟩ := Emission.assign_cases hfree
    have hinto := h.intoRegister hvalue hvalue'
    have hkept : Emission.releasePrevious (middle.bindings.register? slot) middle.pool =
        middle.pool := by
      cases middle.bindings.register? slot with
      | none => rfl
      | some old => exact Pool.release_of_monotonic hinto.strategy_eq old
    rw [hkept]
    exact hinto.bind hslot _
  | add dest lhs rhs =>
    obtain ⟨left, middle, right, late, hleft, hright, -, rfl⟩ := Emission.add_cases hmono
    obtain ⟨left', middle', right', late', hleft', hright', -, rfl⟩ := Emission.add_cases hfree
    have hboth := (h.intoRegister hleft hleft').intoRegister hright hright'
    rw [Pool.release_of_monotonic hboth.strategy_eq]
    have hadded := hboth.emit (late'.pool.release right') fun rename hrenames ↦ by
      show Instr.add left' right' = (Instr.add left right).rename rename
      rw [← hrenames.hand_eq left left' (by simp), ← hrenames.hand_eq right right' (by simp)]
      rfl
    exact hadded.forget.define dest

theorem forM_step (instructions : List Linear.Instr) :
    ∀ {mono free : Emitter}, Mirrors frame params [] mono free →
      instructions.forM (Emission.step frame) mono = .ok () mono' →
      instructions.forM (Emission.step frame) free = .ok () free' →
        Mirrors frame params [] mono' free' := by
  induction instructions with
  | nil =>
    intro mono free h hmono hfree
    cases hmono
    cases hfree
    exact h
  | cons instruction rest ih =>
    intro mono free h hmono hfree
    obtain ⟨_, middle, hstep, hrest⟩ := Success.bind_iff.mp hmono
    obtain ⟨_, middle', hstep', hrest'⟩ := Success.bind_iff.mp hfree
    exact ih (h.step hstep hstep') hrest hrest'

/-- The value that a function returns is in registers that the table relates. Either both emissions
return a local in place or neither does, since a local has a register in both or in neither. -/
theorem returned (h : Mirrors frame params [] mono free) {operand : Operand}
    (hmono : Emission.returned frame operand mono = .ok register mono')
    (hfree : Emission.returned frame operand free = .ok other free') :
    Mirrors frame params [(register, other)] mono' free' := by
  cases operand with
  | const value =>
    have hload : Emission.intoRegister frame (.const value) mono = .ok register mono' := hmono
    exact h.intoRegister hload hfree
  | temp temp =>
    have hconsume : Emission.intoRegister frame (.temp temp) mono = .ok register mono' := hmono
    exact h.intoRegister hconsume hfree
  | slot slot =>
    rw [Emission.returned_slot] at hmono hfree
    obtain ⟨table, -, htable⟩ := h.renames
    have hslot : ∀ rename, Renames rename [] mono free →
        free.bindings.register? slot = (mono.bindings.register? slot).map rename :=
      fun rename hrenames ↦ hrenames.register?_eq (.slot slot)
    have hnow := hslot table (htable table fun _ _ ↦ rfl)
    cases hsource : mono.bindings.register? slot with
    | none =>
      rw [hsource] at hmono hnow
      rw [hnow] at hfree
      have hcopy : Emission.intoRegister frame (.slot slot) mono = .ok register mono' := hmono
      exact h.intoRegister hcopy hfree
    | some source =>
      rw [hsource] at hmono hnow hslot
      rw [hnow] at hfree
      cases hmono
      cases hfree
      refine h.keep rfl rfl rfl fun rename hrenames ↦
        ⟨hrenames.code_eq, hrenames.register?_eq, fun first second hmem ↦ ?_⟩
      cases List.mem_singleton.mp hmem
      have hlater := hslot rename hrenames
      rw [hnow, Option.map_some, Option.map_some, Option.some.injEq] at hlater
      exact hlater.symm

theorem finish (h : Mirrors frame params [] mono free) {terminator : Terminator}
    (hmono : Emission.finish frame terminator mono = .ok () mono')
    (hfree : Emission.finish frame terminator free = .ok () free') :
    ∃ hand, Mirrors frame params hand mono' free' := by
  match terminator with
  | .ret (some operand) =>
    obtain ⟨source, middle, hreturned, hemit⟩ := Success.bind_iff.mp hmono
    obtain ⟨source', middle', hreturned', hemit'⟩ := Success.bind_iff.mp hfree
    cases hemit
    cases hemit'
    refine ⟨_, (h.returned hreturned hreturned').emit middle'.pool fun rename hrenames ↦ ?_⟩
    rw [← hrenames.hand_eq source source' (by simp)]
    rfl
  | .ret none => cases hmono
  | .trap =>
    cases hmono
    cases hfree
    exact ⟨[], h.emit free.pool fun _ _ ↦ rfl⟩

end Mirrors

/-- At the call the parameters are in the same registers. -/
theorem Placed.mirrors {frame : Frame} {pool pool' : Pool} {count : Nat} {mono free : Emitter}
    (h : mono.Placed frame pool count) (h' : free.Placed frame pool' count)
    (hstrategy : pool.strategy = .monotonic) : Mirrors frame count [] mono free := by
  refine ⟨h.settings.1.trans hstrategy, h.used.ge, h.size_bySlot, h'.size_bySlot, id,
    fun _ _ ↦ rfl, fun rename hrename ↦ ⟨?_, fun holder ↦ ?_, ?_⟩⟩
  · rw [h.code, h'.code]
    rfl
  · ext register
    rw [h'.register?_iff, Option.map_eq_some_iff]
    simp only [h.register?_iff]
    rw [h.used] at hrename
    constructor
    · rintro ⟨rfl, hregister⟩
      exact ⟨register, ⟨rfl, hregister⟩, hrename register hregister⟩
    · rintro ⟨found, ⟨rfl, hfound⟩, rfl⟩
      rw [hrename found hfound]
      exact ⟨rfl, hfound⟩
  · exact fun first second hmem ↦ absurd hmem List.not_mem_nil

end Emitter

/-- Two emissions of a function, the first of them monotonic, give the same code up to one renaming
of the registers, which keeps those of the parameters. -/
theorem Emission.renames_body {function : Linear.Function} {mono free : Pool}
    {after after' : Emitter} (hstrategy : mono.strategy = .monotonic)
    (h : body function (.start function.slotCount mono) = .ok () after)
    (h' : body function (.start function.slotCount free) = .ok () after') :
    ∃ rename : Nat → Nat, (∀ param < function.params.length, rename param = param) ∧
      after'.code.toList = after.code.toList.map (Instr.rename rename) := by
  obtain ⟨_, placed, hplace, h⟩ := Success.bind_iff.mp h
  obtain ⟨_, late, hinstructions, hfinish⟩ := Success.bind_iff.mp h
  obtain ⟨_, placed', hplace', h'⟩ := Success.bind_iff.mp h'
  obtain ⟨_, late', hinstructions', hfinish'⟩ := Success.bind_iff.mp h'
  have hplaced := (placed_params hplace).mirrors (placed_params hplace') hstrategy
  have hlate := hplaced.forM_step _ hinstructions hinstructions'
  obtain ⟨hand, hdone⟩ := hlate.finish hfinish hfinish'
  obtain ⟨table, hparams, htable⟩ := hdone.renames
  exact ⟨table, hparams, (htable table fun _ _ ↦ rfl).code_eq⟩

/-- Assumes: a pool of each strategy. The free-list strategy can emit a function exactly if the walk
over it succeeds and its peak is within the limit, and it touches as many registers as the peak. The
monotonic strategy can emit it exactly if the walk succeeds and the parameters and the fills
together are within the limit. It touches as many registers as these are, and its code has as many
loads and moves as there are fills. If the free-list strategy has at least the registers of the
monotonic one, it can emit all that the monotonic one can, touches no more registers, and emits the
same code up to a renaming of the registers, which keeps those of the parameters. -/
theorem emitFunction_demand (function : Linear.Function) {free mono : Pool}
    (hfree : free.strategy = .freeList) (hmono : mono.strategy = .monotonic) :
    ((∃ code next, emitFunction function free = .ok code next) ↔
      ∃ tally, demand function = .ok tally ∧ tally.peak ≤ free.limit) ∧
    (∀ code next, emitFunction function free = .ok code next →
      ∃ tally, demand function = .ok tally ∧ next.used = tally.peak) ∧
    ((∃ code next, emitFunction function mono = .ok code next) ↔
      ∃ tally, demand function = .ok tally ∧
        function.params.length + tally.fills ≤ mono.limit) ∧
    (∀ code next, emitFunction function mono = .ok code next →
      ∃ tally, demand function = .ok tally ∧
        next.used = function.params.length + tally.fills ∧
        code.countP Instr.isFill = tally.fills) ∧
    (mono.limit ≤ free.limit → ∀ code next, emitFunction function mono = .ok code next →
      ∃ code' next', emitFunction function free = .ok code' next' ∧ next'.used ≤ next.used ∧
        code'.length = code.length ∧
        ∃ rename : Nat → Nat, (∀ param < function.params.length, rename param = param) ∧
          code' = code.map (Instr.rename rename)) := by
  have hpeak : ∀ code next, emitFunction function free = .ok code next →
      ∃ tally, demand function = .ok tally ∧ next.used = tally.peak ∧ next.used ≤ free.limit := by
    intro code next hrun
    obtain ⟨tally, hdemand, hused, hlimit, -⟩ := settled_emitFunction hrun
    rw [hfree] at hused
    exact ⟨tally, hdemand, hused, hlimit⟩
  have hfills : ∀ code next, emitFunction function mono = .ok code next →
      ∃ tally, demand function = .ok tally ∧
        next.used = function.params.length + tally.fills ∧ next.used ≤ mono.limit ∧
        code.countP Instr.isFill = tally.fills := by
    intro code next hrun
    obtain ⟨tally, hdemand, hused, hlimit, hcount⟩ := settled_emitFunction hrun
    rw [hmono] at hused
    exact ⟨tally, hdemand, hused, hlimit, hcount⟩
  have henough : ∀ tally, demand function = .ok tally → tally.peak ≤ free.limit →
      ∃ code next, emitFunction function free = .ok code next := by
    intro tally hdemand hlimit
    apply emitFunction_of_demand hdemand
    rw [hfree]
    exact hlimit
  refine ⟨⟨?_, fun ⟨tally, hdemand, hlimit⟩ ↦ henough tally hdemand hlimit⟩, ?_, ⟨?_, ?_⟩, ?_, ?_⟩
  · rintro ⟨code, next, hrun⟩
    obtain ⟨tally, hdemand, hused, hlimit⟩ := hpeak code next hrun
    exact ⟨tally, hdemand, hused ▸ hlimit⟩
  · intro code next hrun
    obtain ⟨tally, hdemand, hused, -⟩ := hpeak code next hrun
    exact ⟨tally, hdemand, hused⟩
  · rintro ⟨code, next, hrun⟩
    obtain ⟨tally, hdemand, hused, hlimit, -⟩ := hfills code next hrun
    exact ⟨tally, hdemand, hused ▸ hlimit⟩
  · rintro ⟨tally, hdemand, hlimit⟩
    apply emitFunction_of_demand hdemand
    rw [hmono]
    exact hlimit
  · intro code next hrun
    obtain ⟨tally, hdemand, hused, -, hcount⟩ := hfills code next hrun
    exact ⟨tally, hdemand, hused, hcount⟩
  · intro hlimits code next hrun
    obtain ⟨tally, hdemand, hused, hlimit, -⟩ := hfills code next hrun
    have hle := peak_demand_le hdemand
    obtain ⟨code', next', hrun'⟩ := henough tally hdemand (by omega)
    obtain ⟨tally', hdemand', hused', -⟩ := hpeak code' next' hrun'
    rw [hdemand, Except.ok.injEq] at hdemand'
    obtain ⟨after, hbody, rfl, rfl⟩ := emitFunction_iff.mp hrun
    obtain ⟨after', hbody', rfl, rfl⟩ := emitFunction_iff.mp hrun'
    obtain ⟨rename, hparams, hcode⟩ := Emission.renames_body hmono hbody hbody'
    refine ⟨_, _, hrun', ?_, ?_, rename, hparams, hcode⟩
    · rw [hused', ← hdemand', hused]
      exact hle
    · rw [hcode, List.length_map]

/-- A function that adds one to its parameter twice. -/
def incremented : Linear.Function where
  index := 0
  typeIndex := 0
  params := [.i32]
  locals := []
  result := .i32
  instructions := [.add 0 (.slot 0) (.const 1), .assign 0 (.temp 0), .add 1 (.slot 0) (.const 1),
    .assign 0 (.temp 1)]
  terminator := .ret (some (.slot 0))
  tempCount := 2

/-- Five registers are enough for it without taking any back, and three of them are touched if they
are taken back. -/
theorem emitFunction_demand_incremented :
    ∃ code next code' next' rename,
      emitFunction incremented (.ofLimit .monotonic 5) = .ok code next ∧ next.used = 5 ∧
      emitFunction incremented (.ofLimit .freeList 5) = .ok code' next' ∧ next'.used = 3 ∧
      code' = code.map (Instr.rename rename) := by
  have hdemand : ∃ tally, demand incremented = .ok tally ∧ tally.peak = 3 ∧ tally.fills = 4 :=
    ⟨_, rfl, by decide +kernel, rfl⟩
  obtain ⟨tally, htally, hpeak, hfills⟩ := hdemand
  obtain ⟨-, hfree, hmono, hused, hsame⟩ := @emitFunction_demand incremented
    (.ofLimit .freeList 5) (.ofLimit .monotonic 5) rfl rfl
  obtain ⟨code, next, hrun⟩ := hmono.mpr ⟨tally, htally, by rw [hfills]; decide⟩
  obtain ⟨code', next', hrun', -, -, rename, -, hcode⟩ := hsame le_rfl code next hrun
  obtain ⟨found, hfound, hnext, -⟩ := hused code next hrun
  obtain ⟨found', hfound', hnext'⟩ := hfree code' next' hrun'
  rw [htally, Except.ok.injEq] at hfound hfound'
  rw [← hfound, hfills] at hnext
  rw [← hfound', hpeak] at hnext'
  exact ⟨code, next, code', next', rename, hrun, hnext, hrun', hnext', hcode⟩

end StraightWasm.Machine
