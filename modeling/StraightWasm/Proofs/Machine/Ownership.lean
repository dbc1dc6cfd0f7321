import StraightWasm.Proofs.Machine.Actions
import StraightWasm.Proofs.Machine.Apportionment
import StraightWasm.Proofs.Machine.BindingLaws

/-!
# No two live values share a register

An emitter is orderly when its tables of locals and registers are coherent and its registers are
apportioned between locals, waiting temporaries and the hand of the instruction at work
(`Emitter.Orderly`). The parameters start out in registers of their own (`Emitter.Placed`), bringing
an operand into a register adds that register to the hand (`Emitter.Orderly.intoRegister`), and an
instruction that starts and ends with an empty hand keeps the emitter orderly
(`Emitter.Orderly.step`). So every emitter that is reached between two instructions is orderly
(`Emission.orderly_upTo`).
-/

set_option autoImplicit false
set_option relaxedAutoImplicit false

namespace StraightWasm.Machine

open Linear (Frame Operand)

namespace Emitter

/-! ### Who holds which register -/

/-- The register that a local or a waiting temporary holds. A constant holds none. -/
def register? (emitter : Emitter) : Operand → Option Nat
  | .const _ => none
  | .slot slot => emitter.bindings.register? slot
  | .temp temp => emitter.temps[temp]?

theorem register?_insert (emitter : Emitter) (temp register : Nat) :
    ({ emitter with temps := emitter.temps.insert temp register } : Emitter).register? =
      Function.update emitter.register? (.temp temp) (some register) := by
  funext holder
  rw [Function.update_apply]
  cases holder with
  | const value => rfl
  | slot slot => rfl
  | temp other => simp [register?, Std.TreeMap.getElem?_insert, @eq_comm _ temp other]

theorem register?_erase (emitter : Emitter) (temp : Nat) :
    ({ emitter with temps := emitter.temps.erase temp } : Emitter).register? =
      Function.update emitter.register? (.temp temp) none := by
  funext holder
  rw [Function.update_apply]
  cases holder with
  | const value => rfl
  | slot slot => rfl
  | temp other => simp [register?, Std.TreeMap.getElem?_erase, @eq_comm _ temp other]

theorem register?_bind {emitter : Emitter} {slot : Nat}
    (h : slot < emitter.bindings.bySlot.size) (register : Nat) :
    ({ emitter with bindings := emitter.bindings.bind slot register } : Emitter).register? =
      Function.update emitter.register? (.slot slot) (some register) := by
  funext holder
  rw [Function.update_apply]
  cases holder with
  | const value => rfl
  | slot other => simp [register?, Bindings.register?_bind h]
  | temp other => rfl

/-! ### Orderly emitters -/

/-- The tables are coherent, and the registers are apportioned between the locals, the waiting
temporaries and the hand. -/
structure Orderly (frame : Frame) (hand : List Nat) (emitter : Emitter) : Prop where
  size_bySlot : emitter.bindings.bySlot.size = frame.slotCount
  coherent : emitter.bindings.Coherent
  apportioned : Apportioned emitter.pool emitter.register? hand

namespace Orderly

variable {frame : Frame} {hand : List Nat} {before after : Emitter} {register : Nat}

/-- Bringing an operand into a register adds that register to the hand. -/
theorem intoRegister (h : before.Orderly frame hand) {operand : Operand}
    (hrun : Emission.intoRegister frame operand before = .ok register after) :
    after.Orderly frame (register :: hand) := by
  obtain ⟨value, pool, -, hpool, rfl⟩ | ⟨slot, pool, -, -, hpool, rfl⟩ | ⟨temp, -, htemp, rfl⟩ :=
    Emission.intoRegister_cases hrun
  · exact ⟨h.size_bySlot, h.coherent, h.apportioned.acquire hpool⟩
  · exact ⟨h.size_bySlot, h.coherent, h.apportioned.acquire hpool⟩
  · refine ⟨h.size_bySlot, h.coherent, ?_⟩
    rw [register?_erase]
    exact h.apportioned.take htemp

/-- A local of the function can be moved into any register in the hand. -/
theorem canBind (h : before.Orderly frame hand) (hregister : register ∈ hand) {slot : Nat}
    (hslot : slot < frame.slotCount) : before.bindings.CanBind slot register := by
  refine ⟨h.size_bySlot ▸ hslot, ?_⟩
  cases hvacant : before.bindings.slot? register with
  | none => rfl
  | some other =>
    have hother := (h.coherent other register).mpr hvacant
    exact absurd hother (h.apportioned.hand_unheld hregister (.slot other))

/-- Moving a local into a register in the hand brings its previous register into the hand. -/
theorem bind (h : before.Orderly frame (register :: hand)) {slot : Nat}
    (hslot : slot < frame.slotCount) :
    Orderly frame ((before.bindings.register? slot).toList ++ hand)
      { before with bindings := before.bindings.bind slot register } := by
  refine ⟨by simpa using h.size_bySlot, ?_, ?_⟩
  · exact h.coherent.bind (h.canBind List.mem_cons_self hslot)
  · rw [register?_bind (h.size_bySlot ▸ hslot)]
    exact h.apportioned.place (.slot slot)

/-- Defining a temporary by a register in the hand empties the hand of it. -/
theorem define (h : before.Orderly frame (register :: hand)) {temp : Nat}
    (htemp : before.temps[temp]? = none) :
    Orderly frame hand { before with temps := before.temps.insert temp register } := by
  refine ⟨h.size_bySlot, h.coherent, ?_⟩
  have hplace := h.apportioned.place (.temp temp)
  have hprevious : before.register? (.temp temp) = none := htemp
  rw [hprevious] at hplace
  rw [register?_insert]
  exact hplace

/-- An instruction keeps an emitter orderly. -/
theorem step (h : before.Orderly frame []) {instruction : Linear.Instr}
    (hrun : Emission.step frame instruction before = .ok () after) : after.Orderly frame [] := by
  cases instruction with
  | snapshot dest slot =>
    obtain ⟨register, middle, hcopy, hdest, rfl⟩ := Emission.snapshot_cases hrun
    exact (h.intoRegister hcopy).define hdest
  | assign slot value =>
    obtain ⟨hslot, register, middle, hvalue, rfl⟩ := Emission.assign_cases hrun
    have hbound := (h.intoRegister hvalue).bind hslot
    cases hprevious : middle.bindings.register? slot with
    | none =>
      rw [hprevious] at hbound
      exact hbound
    | some old =>
      rw [hprevious] at hbound
      exact ⟨hbound.size_bySlot, hbound.coherent, hbound.apportioned.release⟩
  | add dest lhs rhs =>
    obtain ⟨left, middle, right, late, hleft, hright, hdest, rfl⟩ := Emission.add_cases hrun
    have hlate := (h.intoRegister hleft).intoRegister hright
    have hreleased : Orderly frame [left] { late with
        pool := late.pool.release right
        code := late.code.push (.add left right) } :=
      ⟨hlate.size_bySlot, hlate.coherent, hlate.apportioned.release⟩
    exact hreleased.define hdest

end Orderly

/-! ### Parameters -/

/-- The first `count` locals are in the registers of the same numbers, which come from a pool with
the settings of `pool`, and nothing else has happened yet. -/
structure Placed (frame : Frame) (pool : Pool) (count : Nat) (emitter : Emitter) : Prop where
  settings : pool.SameSettings emitter.pool
  used : emitter.pool.used = count
  free : emitter.pool.free = []
  size_bySlot : emitter.bindings.bySlot.size = frame.slotCount
  coherent : emitter.bindings.Coherent
  registers : ∀ slot, emitter.bindings.register? slot = if slot < count then some slot else none
  temps : ∀ temp : Nat, emitter.temps[temp]? = none
  code : emitter.code = #[]

theorem placed_start (frame : Frame) (pool : Pool) :
    Placed frame pool 0 (.start frame.slotCount pool) where
  settings := ⟨rfl, rfl⟩
  used := rfl
  free := rfl
  size_bySlot := Array.size_replicate
  coherent := Bindings.coherent_ofSlotCount frame.slotCount
  registers := fun slot ↦ by simp [start]
  temps := fun temp ↦ Std.TreeMap.getElem?_emptyc
  code := rfl

namespace Placed

variable {frame : Frame} {pool next : Pool} {count : Nat} {emitter : Emitter}

theorem register?_iff (h : emitter.Placed frame pool count) {holder : Operand} {register : Nat} :
    emitter.register? holder = some register ↔ holder = .slot register ∧ register < count := by
  cases holder with
  | const value => simp [register?]
  | slot slot =>
    simp only [register?, h.registers, Operand.slot.injEq]
    split_ifs with hslot
    · rw [Option.some.injEq]
      exact ⟨fun heq ↦ ⟨heq, heq ▸ hslot⟩, fun hand ↦ hand.1⟩
    · simp only [false_iff, not_and]
      exact fun heq ↦ heq ▸ hslot
  | temp temp => simp [register?, h.temps]

theorem orderly (h : emitter.Placed frame pool count) : emitter.Orderly frame [] := by
  have hlent : ∀ {register : Nat}, emitter.pool.Lent register ↔ register < count := by
    intro register
    simp [Pool.Lent, h.used, h.free]
  have huse : ∀ {register : Nat}, InUse emitter.register? [] register ↔ register < count := by
    intro register
    simp [InUse, h.register?_iff]
  refine ⟨h.size_bySlot, h.coherent, ?_, List.nodup_nil, ?_, ?_, ?_⟩
  · intro first second register hfirst hsecond
    rw [(h.register?_iff.mp hfirst).1, (h.register?_iff.mp hsecond).1]
  · intro register hmem
    exact absurd hmem List.not_mem_nil
  · exact fun hregister ↦ hlent.mpr (huse.mp hregister)
  · exact fun _ _ hregister ↦ huse.mpr (hlent.mp hregister)

/-- The next parameter goes into the next register. -/
theorem bind (h : emitter.Placed frame pool count) (hcount : count < frame.slotCount)
    {register : Nat}
    (hacquire : emitter.pool.acquire? = some (register, next)) :
    register = count ∧ Placed frame pool (count + 1) { emitter with
      pool := next
      bindings := emitter.bindings.bind count register } := by
  have hnext : register = count ∧ next.used = count + 1 ∧ next.free = [] := by
    obtain ⟨-, -, ⟨hfree, -⟩ | ⟨-, hfree, hregister, hused⟩⟩ := Pool.acquire?_cases hacquire
    · rw [h.free] at hfree
      cases hfree
    · rw [h.used] at hregister hused
      exact ⟨hregister, hused, hfree⟩
  obtain ⟨rfl, hused, hfree⟩ := hnext
  have hhand : Orderly frame [register] { emitter with pool := next } :=
    ⟨h.size_bySlot, h.coherent, h.orderly.apportioned.acquire hacquire⟩
  have hbound := hhand.bind hcount
  have hsettings := h.settings.trans (Pool.sameSettings_acquire? hacquire)
  refine ⟨rfl, hsettings, hused, hfree, hbound.size_bySlot, hbound.coherent, ?_, h.temps, h.code⟩
  intro slot
  change (emitter.bindings.bind register register).register? slot = _
  rw [Bindings.register?_bind (h.size_bySlot ▸ hcount), h.registers]
  by_cases hslot : slot = register
  · simp [hslot]
  · have hlt : slot < register + 1 ↔ slot < register := by omega
    simp [hslot, hlt]

end Placed

end Emitter

namespace Emission

variable {frame : Frame} {pool : Pool}

theorem placed_placeParams (count : Nat) :
    ∀ {slot : Nat} {before after : Emitter}, before.Placed frame pool slot →
      slot + count ≤ frame.slotCount → placeParams frame slot count before = .ok () after →
        after.Placed frame pool (slot + count) := by
  induction count with
  | zero =>
    intro slot before after hbefore _ hrun
    obtain ⟨-, rfl⟩ := Success.pure_iff.mp hrun
    exact hbefore
  | succ count ih =>
    intro slot before after hbefore hroom hrun
    obtain ⟨register, _, hacquire, hrun⟩ := Success.bind_iff.mp hrun
    obtain ⟨next, hnext, rfl⟩ := acquire_iff.mp hacquire
    obtain ⟨_, _, hbind, hrun⟩ := Success.bind_iff.mp hrun
    cases hbind
    have hplaced := (hbefore.bind (by omega) hnext).2
    have hafter := ih hplaced (by omega) hrun
    rwa [Nat.add_right_comm] at hafter

/-- Before the first instruction every parameter is in the register of its own number. -/
theorem placed_params {function : Linear.Function} {emitter : Emitter}
    (h : placeParams (frameOf function) 0 function.params.length
      (.start function.slotCount pool) = .ok () emitter) :
    emitter.Placed (frameOf function) pool function.params.length := by
  have hplaced := placed_placeParams function.params.length
    (Emitter.placed_start (frameOf function) pool)
    (by simp [frameOf, Linear.Function.slotCount]) h
  rwa [Nat.zero_add] at hplaced

/-- Every emitter that is reached between two instructions is orderly. -/
theorem orderly_upTo {function : Linear.Function} {count : Nat} {emitter : Emitter}
    (h : upTo function count (.start function.slotCount pool) = .ok () emitter) :
    emitter.Orderly (frameOf function) [] := by
  obtain ⟨_, placed, hplace, hrun⟩ := Success.bind_iff.mp h
  exact Success.forM_keeps (Emitter.Orderly (frameOf function) [])
    (fun _ _ _ horderly hstep ↦ horderly.step hstep) _ placed emitter
    (placed_params hplace).orderly hrun

end Emission

end StraightWasm.Machine
