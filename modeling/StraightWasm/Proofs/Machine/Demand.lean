import Mathlib.Data.Finset.Card
import StraightWasm.Proofs.Machine.Ownership

/-!
# How many registers a function demands

A walk over linear code that knows nothing of registers keeps a tally (`Tally`): which locals and
temporaries hold a register, the most registers that were held or in the hand at any moment, and how
many were filled by a load or a move (`demand`). It makes the checks of an emission that do not
depend on registers, and no others.

An emission and the walk go side by side. Under the free-list strategy a pool has handed out as many
registers as the peak of the tally, and under the monotonic one as many as there are parameters and
fills (`Pool.Backs`). So a pool has no register left exactly when the tally gets beyond its limit
(`Pool.Backs.acquire`, `Pool.Backs.lt_of_exhausted`), and the emission of a function succeeds
exactly when the walk does and its tally stays within the limit (`Emission.agrees_body`).
-/

set_option autoImplicit false
set_option relaxedAutoImplicit false

namespace StraightWasm.Machine

open Linear (Frame Operand Terminator)

/-- Whether an instruction fills a register with a constant or with a copy. -/
def Instr.isFill : Instr → Bool
  | .load _ _ => true
  | .move _ _ => true
  | _ => false

/-! ### The walk -/

/-- What a walk has counted: the locals and temporaries that hold a register, the most registers
that were held or in the hand at any moment, and how many were filled. -/
structure Tally where
  holders : Finset Operand
  peak : Nat
  fills : Nat

namespace Tally

/-- Notes that a moment was reached with so many registers in the hand. -/
def note (inHand : Nat) (tally : Tally) : Tally :=
  { tally with peak := max tally.peak (tally.holders.card + inHand) }

/-- At the call every parameter holds a register. -/
def start (params : Nat) : Tally :=
  note 0 { holders := (Finset.range params).image .slot, peak := 0, fills := 0 }

/-- One more register comes into the hand and is filled. -/
def fill (inHand : Nat) (tally : Tally) : Tally :=
  note (inHand + 1) { tally with fills := tally.fills + 1 }

/-- An operand comes into the hand. A temporary gives up the register that it holds. -/
def take (slotCount inHand : Nat) (tally : Tally) : Operand → Except EmissionFault Tally
  | .const _ => .ok (tally.fill inHand)
  | .slot slot =>
    if slot < slotCount then .ok (tally.fill inHand) else .error (.unknownLocal slot slotCount)
  | .temp temp =>
    if .temp temp ∈ tally.holders then
      .ok (note (inHand + 1) { tally with holders := tally.holders.erase (.temp temp) })
    else .error (.notAvailable temp)

/-- The register in the hand passes to a holder. A register that it held before is given back. -/
def place (holder : Operand) (tally : Tally) : Tally :=
  note 0 { tally with holders := insert holder tally.holders }

/-- The register in the hand passes to a temporary, which must not hold one already. -/
def define (temp : Nat) (tally : Tally) : Except EmissionFault Tally :=
  if .temp temp ∈ tally.holders then .error (.definedTwice temp)
  else .ok (tally.place (.temp temp))

/-- Walks over one instruction. An addition gives the register of its right operand back. -/
def step (slotCount : Nat) (tally : Tally) : Linear.Instr → Except EmissionFault Tally
  | .snapshot dest slot => do
    let copied ← tally.take slotCount 0 (.slot slot)
    copied.define dest
  | .assign slot value =>
    if slot < slotCount then do
      let filled ← tally.take slotCount 0 value
      pure (filled.place (.slot slot))
    else throw (.unknownLocal slot slotCount)
  | .add dest lhs rhs => do
    let left ← tally.take slotCount 0 lhs
    let both ← left.take slotCount 1 rhs
    both.define dest

/-- The value that a function returns. A local that holds a register is returned in place. -/
def returned (slotCount : Nat) (tally : Tally) : Operand → Except EmissionFault Tally
  | .slot slot =>
    if .slot slot ∈ tally.holders then .ok tally else tally.take slotCount 0 (.slot slot)
  | operand => tally.take slotCount 0 operand

/-- Walks over a terminator. -/
def finish (slotCount : Nat) (tally : Tally) : Terminator → Except EmissionFault Tally
  | .ret (some operand) => tally.returned slotCount operand
  | .ret none => .error .missingReturnValue
  | .trap => .ok tally

/-- The number of registers that have to be there for a strategy to get so far. -/
def need (params : Nat) (tally : Tally) : Strategy → Nat
  | .monotonic => params + tally.fills
  | .freeList => tally.peak

end Tally

/-- The tally of a whole function. -/
def demand (function : Linear.Function) : Except EmissionFault Tally := do
  let tally ← function.instructions.foldlM (Tally.step function.slotCount)
    (.start function.params.length)
  tally.finish function.slotCount function.terminator

/-! ### The tally grows -/

namespace Tally

/-- Whether no more registers are or were in use than there are parameters and fills. -/
structure Sound (params inHand : Nat) (tally : Tally) : Prop where
  held_le : tally.holders.card + inHand ≤ params + tally.fills
  peak_le : tally.peak ≤ params + tally.fills

/-- Whether one tally may follow another one. -/
structure Advances (params inHand : Nat) (before : Tally) (inHand' : Nat) (after : Tally) :
    Prop where
  peak_le : before.peak ≤ after.peak
  fills_le : before.fills ≤ after.fills
  sound : before.Sound params inHand → after.Sound params inHand'

variable {params inHand slotCount : Nat} {tally before after : Tally}

theorem Advances.refl (tally : Tally) : Advances params inHand tally inHand tally :=
  ⟨le_rfl, le_rfl, id⟩

theorem Advances.trans {inHand' inHand'' : Nat} {middle : Tally}
    (hfirst : Advances params inHand before inHand' middle)
    (hsecond : Advances params inHand' middle inHand'' after) :
    Advances params inHand before inHand'' after :=
  ⟨hfirst.peak_le.trans hsecond.peak_le, hfirst.fills_le.trans hsecond.fills_le,
    fun h ↦ hsecond.sound (hfirst.sound h)⟩

theorem Advances.need_le {inHand' : Nat} (h : Advances params inHand before inHand' after)
    (strategy : Strategy) : before.need params strategy ≤ after.need params strategy := by
  cases strategy with
  | monotonic => exact Nat.add_le_add_left h.fills_le params
  | freeList => exact h.peak_le

theorem advances_fill (tally : Tally) :
    Advances params inHand tally (inHand + 1) (tally.fill inHand) := by
  refine ⟨le_max_left _ _, Nat.le_succ _, fun ⟨hheld, hpeak⟩ ↦ ⟨?_, max_le ?_ ?_⟩⟩
  · show tally.holders.card + (inHand + 1) ≤ params + (tally.fills + 1)
    omega
  · show tally.peak ≤ params + (tally.fills + 1)
    omega
  · show tally.holders.card + (inHand + 1) ≤ params + (tally.fills + 1)
    omega

/-- Noting a moment at which no more registers are in use than before. -/
theorem advances_note {inHand' : Nat} (holders : Finset Operand)
    (h : holders.card + inHand' ≤ tally.holders.card + inHand) :
    Advances params inHand tally inHand' (note inHand' { tally with holders := holders }) := by
  refine ⟨le_max_left _ _, le_rfl, fun ⟨hheld, hpeak⟩ ↦ ⟨?_, max_le hpeak ?_⟩⟩
  · exact h.trans hheld
  · exact h.trans hheld

theorem advances_take {operand : Operand} (h : before.take slotCount inHand operand = .ok after) :
    Advances params inHand before (inHand + 1) after := by
  cases operand with
  | const value =>
    cases h
    exact advances_fill before
  | slot slot =>
    rw [take] at h
    split_ifs at h with hslot
    cases h
    exact advances_fill before
  | temp temp =>
    rw [take] at h
    split_ifs at h with htemp
    cases h
    apply advances_note
    rw [Finset.card_erase_of_mem htemp]
    have hpos := Finset.card_pos.mpr ⟨_, htemp⟩
    omega

/-- The register in the hand passes to a holder, whatever else is in the hand is given back. -/
theorem advances_place (holder : Operand) (tally : Tally) :
    Advances params (inHand + 1) tally 0 (tally.place holder) := by
  apply advances_note
  have hcard := Finset.card_insert_le holder tally.holders
  omega

theorem advances_define {temp : Nat} (h : before.define temp = .ok after) :
    Advances params (inHand + 1) before 0 after := by
  unfold define at h
  split_ifs at h
  cases h
  exact advances_place _ before

theorem advances_step {instruction : Linear.Instr}
    (h : before.step slotCount instruction = .ok after) :
    Advances params 0 before 0 after := by
  cases instruction with
  | snapshot dest slot =>
    obtain ⟨copied, hcopied, h⟩ := Success.except_bind_iff.mp h
    exact (advances_take hcopied).trans (advances_define h)
  | assign slot value =>
    rw [step] at h
    split_ifs at h with hslot
    obtain ⟨filled, hfilled, h⟩ := Success.except_bind_iff.mp h
    cases h
    exact (advances_take hfilled).trans (advances_place _ filled)
  | add dest lhs rhs =>
    obtain ⟨left, hleft, h⟩ := Success.except_bind_iff.mp h
    obtain ⟨both, hboth, h⟩ := Success.except_bind_iff.mp h
    exact ((advances_take hleft).trans (advances_take hboth)).trans (advances_define h)

theorem advances_foldlM (instructions : List Linear.Instr) :
    ∀ {before after : Tally}, instructions.foldlM (step slotCount) before = .ok after →
      Advances params 0 before 0 after := by
  induction instructions with
  | nil =>
    intro before after h
    cases h
    exact .refl before
  | cons instruction rest ih =>
    intro before after h
    rw [List.foldlM_cons] at h
    obtain ⟨middle, hmiddle, h⟩ := Success.except_bind_iff.mp h
    exact (advances_step hmiddle).trans (ih h)

theorem advances_returned {operand : Operand}
    (h : before.returned slotCount operand = .ok after) :
    ∃ inHand, Advances params 0 before inHand after := by
  cases operand with
  | const value =>
    have htake : before.take slotCount 0 (.const value) = .ok after := h
    exact ⟨1, advances_take htake⟩
  | temp temp =>
    have htake : before.take slotCount 0 (.temp temp) = .ok after := h
    exact ⟨1, advances_take htake⟩
  | slot slot =>
    rw [returned] at h
    split_ifs at h with hheld
    · cases h
      exact ⟨0, .refl before⟩
    · exact ⟨1, advances_take h⟩

theorem advances_finish {terminator : Terminator}
    (h : before.finish slotCount terminator = .ok after) :
    ∃ inHand, Advances params 0 before inHand after := by
  match terminator with
  | .ret (some operand) => exact advances_returned h
  | .ret none => cases h
  | .trap =>
    cases h
    exact ⟨0, .refl before⟩

theorem card_start (params : Nat) : (start params).holders.card = params := by
  show ((Finset.range params).image Operand.slot).card = params
  rw [Finset.card_image_of_injective _ fun _ _ h ↦ Operand.slot.inj h, Finset.card_range]

theorem peak_start (params : Nat) : (start params).peak = params := by
  show max 0 ((start params).holders.card + 0) = params
  rw [card_start, Nat.add_zero, Nat.zero_max]

theorem need_start (params : Nat) (strategy : Strategy) :
    (start params).need params strategy = params := by
  cases strategy with
  | monotonic => rfl
  | freeList => exact peak_start params

theorem sound_start (params : Nat) : (start params).Sound params 0 :=
  ⟨(card_start params).le, (peak_start params).le⟩

end Tally

/-- Never are more registers in use than there are parameters and fills. -/
theorem peak_demand_le {function : Linear.Function} {tally : Tally}
    (h : demand function = .ok tally) : tally.peak ≤ function.params.length + tally.fills := by
  obtain ⟨late, hlate, h⟩ := Success.except_bind_iff.mp h
  obtain ⟨inHand, hfinish⟩ : ∃ inHand, late.Advances function.params.length 0 inHand tally :=
    Tally.advances_finish h
  have hsound := ((Tally.advances_foldlM _ hlate).trans hfinish).sound
  exact (hsound (Tally.sound_start function.params.length)).peak_le

/-! ### Pools -/

namespace Pool

/-- A number that is not there yet makes a list longer by one. -/
theorem length_insert {number : Nat} {ascending : List Nat} (h : number ∉ ascending) :
    (insert number ascending).length = ascending.length + 1 := by
  have hsame : ascending.dropWhile (· ≤ number) = ascending.dropWhile (· < number) := by
    induction ascending with
    | nil => rfl
    | cons first rest ih =>
      have hne : first ≠ number := fun heq ↦ h (heq ▸ List.mem_cons_self)
      have hiff : first ≤ number ↔ first < number := by omega
      simp only [List.dropWhile_cons, hiff]
      split_ifs
      · exact ih fun hmem ↦ h (List.mem_cons_of_mem first hmem)
      · rfl
  have hlength := congrArg List.length
    (List.takeWhile_append_dropWhile (p := fun other ↦ decide (other < number)) (l := ascending))
  rw [List.length_append] at hlength
  rw [insert, hsame, List.length_append, List.length_cons]
  omega

/-- Whether a pool has handed out what a tally says for its strategy, and all but the registers that
are held or in the hand are free where they are taken back. -/
structure Backs (params inHand : Nat) (tally : Tally) (pool : Pool) : Prop where
  used_eq : pool.used = tally.need params pool.strategy
  length_free : pool.strategy = .freeList →
    pool.free.length + (tally.holders.card + inHand) = pool.used

namespace Backs

variable {params inHand register : Nat} {tally : Tally} {pool next : Pool}

theorem of_monotonic (hkind : pool.strategy = .monotonic)
    (hused : pool.used = params + tally.fills) : pool.Backs params inHand tally := by
  refine ⟨?_, fun hother ↦ ?_⟩
  · rw [hkind]
    exact hused
  · rw [hkind] at hother
    cases hother

theorem of_freeList (hkind : pool.strategy = .freeList) (hused : pool.used = tally.peak)
    (hlength : pool.free.length + (tally.holders.card + inHand) = pool.used) :
    pool.Backs params inHand tally := by
  refine ⟨?_, fun _ ↦ hlength⟩
  rw [hkind]
  exact hused

/-- What a pool has handed out, by its strategy. -/
theorem cases (h : pool.Backs params inHand tally) :
    (pool.strategy = .monotonic ∧ pool.used = params + tally.fills) ∨
      (pool.strategy = .freeList ∧ pool.used = tally.peak ∧
        pool.free.length + (tally.holders.card + inHand) = pool.used) := by
  have hused := h.used_eq
  cases hkind : pool.strategy with
  | monotonic =>
    rw [hkind] at hused
    exact .inl ⟨rfl, hused⟩
  | freeList =>
    rw [hkind] at hused
    exact .inr ⟨rfl, hused, h.length_free hkind⟩

/-- Where registers are taken back, the peak only grows when no register is free. -/
theorem acquire (h : pool.Backs params inHand tally)
    (hacquire : pool.acquire? = some (register, next)) :
    next.Backs params (inHand + 1) (tally.fill inHand) := by
  obtain ⟨hstrategy, -, hnext⟩ := acquire?_cases hacquire
  obtain ⟨hkind, hused⟩ | ⟨hkind, hused, hlength⟩ := h.cases
  · obtain ⟨-, hmore⟩ := acquire?_of_monotonic hkind hacquire
    apply of_monotonic (hstrategy.trans hkind)
    show next.used = params + (tally.fills + 1)
    omega
  · apply of_freeList (hstrategy.trans hkind)
    · show next.used = max tally.peak (tally.holders.card + (inHand + 1))
      obtain ⟨hfirst, hsame⟩ | ⟨hempty, -, -, hmore⟩ := hnext
      · rw [hfirst, List.length_cons] at hlength
        omega
      · rw [hempty, List.length_nil] at hlength
        omega
    · show next.free.length + (tally.holders.card + (inHand + 1)) = next.used
      obtain ⟨hfirst, hsame⟩ | ⟨hempty, hnone, -, hmore⟩ := hnext
      · rw [hfirst, List.length_cons] at hlength
        omega
      · rw [hempty, List.length_nil] at hlength
        rw [hnone, List.length_nil]
        omega

/-- A pool that has no register left would have to be larger. -/
theorem lt_of_exhausted (h : pool.Backs params inHand tally) (hnone : pool.acquire? = none) :
    pool.limit < (tally.fill inHand).need params pool.strategy := by
  obtain ⟨hempty, hlimit⟩ := used_of_acquire?_eq_none hnone
  obtain ⟨hkind, hused⟩ | ⟨hkind, -, hlength⟩ := h.cases
  · rw [hkind]
    show pool.limit < params + (tally.fills + 1)
    omega
  · rw [hempty, List.length_nil] at hlength
    rw [hkind]
    show pool.limit < max tally.peak (tally.holders.card + (inHand + 1))
    omega

/-- A register that is lent is free when it was given back. -/
theorem release (h : pool.Backs params (inHand + 1) tally) (hlent : pool.Lent register) :
    (pool.release register).Backs params inHand tally := by
  obtain ⟨hkind, hused⟩ | ⟨hkind, hused, hlength⟩ := h.cases
  · rw [release_of_monotonic hkind]
    exact of_monotonic hkind hused
  · have hfree : (pool.release register).free = insert register pool.free := by
      unfold Pool.release
      rw [hkind]
      dsimp only
      rw [dif_pos hlent.1]
    apply of_freeList
    · rw [strategy_release, hkind]
    · rw [used_release, hused]
    · rw [used_release, hfree, length_insert hlent.2]
      omega

/-- A register that passes from the hand to a holder, or back, was in use before. -/
theorem pass {inHand' : Nat} {holders : Finset Operand} (h : pool.Backs params inHand tally)
    (hheld : holders.card + inHand' = tally.holders.card + inHand) :
    pool.Backs params inHand' (Tally.note inHand' { tally with holders := holders }) := by
  obtain ⟨hkind, hused⟩ | ⟨hkind, hused, hlength⟩ := h.cases
  · exact of_monotonic hkind hused
  · apply of_freeList hkind
    · show pool.used = max tally.peak (holders.card + inHand')
      omega
    · show pool.free.length + (holders.card + inHand') = pool.used
      omega

end Backs

end Pool

/-! ### Emission and walk side by side -/

namespace Emitter

/-- The tables, the code and the pool of an emitter are as a tally says. -/
structure Accounted (frame : Frame) (pool : Pool) (params : Nat) (hand : List Nat) (tally : Tally)
    (emitter : Emitter) : Prop where
  orderly : emitter.Orderly frame hand
  settings : pool.SameSettings emitter.pool
  mem_holders : ∀ holder, holder ∈ tally.holders ↔ (emitter.register? holder).isSome = true
  fills_eq : emitter.code.toList.countP Instr.isFill = tally.fills
  backed : emitter.pool.Backs params hand.length tally

/-- What is left of that at the end of a function. -/
structure Settled (pool : Pool) (params : Nat) (tally : Tally) (emitter : Emitter) : Prop where
  limit_eq : emitter.pool.limit = pool.limit
  used_eq : emitter.pool.used = tally.need params pool.strategy
  fills_eq : emitter.code.toList.countP Instr.isFill = tally.fills

section Accounted

variable {frame : Frame} {pool : Pool} {params : Nat} {hand : List Nat} {tally : Tally}
  {emitter : Emitter}

/-- Filling a register that was just acquired. -/
theorem Accounted.fill (h : emitter.Accounted frame pool params hand tally) {register : Nat}
    {next : Pool} (hnext : emitter.pool.acquire? = some (register, next)) {instruction : Instr}
    (hfill : instruction.isFill = true) :
    Accounted frame pool params (register :: hand) (tally.fill hand.length)
      { emitter with pool := next, code := emitter.code.push instruction } := by
  have horderly := h.orderly
  refine ⟨⟨horderly.size_bySlot, horderly.coherent, horderly.apportioned.acquire hnext⟩,
    h.settings.trans (Pool.sameSettings_acquire? hnext), h.mem_holders, ?_,
    h.backed.acquire hnext⟩
  rw [Array.toList_push, List.countP_append, h.fills_eq, List.countP_singleton, if_pos hfill]
  rfl

theorem Accounted.settled (h : emitter.Accounted frame pool params hand tally) :
    emitter.Settled pool params tally := by
  refine ⟨h.settings.2, ?_, h.fills_eq⟩
  rw [← h.settings.1]
  exact h.backed.used_eq

end Accounted

end Emitter

namespace Emission

variable {frame : Frame} {pool : Pool} {params : Nat} {hand : List Nat} {tally : Tally}
  {before : Emitter}

/-- Whether an emission and a walk agree: where the emission succeeds, the walk does and they have
reached the same, and where the emission fails, the walk fails or gets beyond the limit. -/
def Agrees {α : Type} (pool : Pool) (params : Nat) (Reached : α → Tally → Emitter → Prop) :
    EStateM.Result Diagnostic Emitter α → Except EmissionFault Tally → Prop
  | .ok value after, walk => ∃ tally, walk = .ok tally ∧ Reached value tally after
  | .error _ _, walk => ∀ tally, walk = .ok tally → pool.limit < tally.need params pool.strategy

theorem Agrees.bind {α β : Type} {Middle : α → Tally → Emitter → Prop}
    {Reached : β → Tally → Emitter → Prop} {first : Emission α} {second : α → Emission β}
    {walk : Except EmissionFault Tally} {next : Tally → Except EmissionFault Tally}
    (hfirst : Agrees pool params Middle (first before) walk)
    (hgrows : ∀ tally later, next tally = .ok later →
      ∃ inHand inHand', tally.Advances params inHand inHand' later)
    (hsecond : ∀ value tally middle, Middle value tally middle →
      Agrees pool params Reached (second value middle) (next tally)) :
    Agrees pool params Reached ((first >>= second) before) (walk >>= next) := by
  show Agrees pool params Reached (EStateM.bind first second before) (walk >>= next)
  unfold EStateM.bind
  cases hrun : first before with
  | ok value middle =>
    rw [hrun] at hfirst
    obtain ⟨tally, rfl, hmiddle⟩ := hfirst
    exact hsecond value tally middle hmiddle
  | error failure stop =>
    rw [hrun] at hfirst
    intro later hlater
    obtain ⟨tally, hwalk, hnext⟩ := Success.except_bind_iff.mp hlater
    obtain ⟨inHand, inHand', hadvances⟩ := hgrows tally later hnext
    exact (hfirst tally hwalk).trans_le (hadvances.need_le pool.strategy)

theorem Agrees.mono {α : Type} {Reached Reached' : α → Tally → Emitter → Prop}
    {run : EStateM.Result Diagnostic Emitter α} {walk : Except EmissionFault Tally}
    (h : Agrees pool params Reached run walk)
    (hreached : ∀ value tally after, Reached value tally after → Reached' value tally after) :
    Agrees pool params Reached' run walk := by
  cases run with
  | ok value after =>
    obtain ⟨tally, hwalk, hafter⟩ := h
    exact ⟨tally, hwalk, hreached value tally after hafter⟩
  | error failure stop => exact h

/-! ### Operands -/

/-- Where all that comes behind it succeeds, an acquisition can only fail for want of a register. -/
theorem exhausted_of_acquire_bind {α : Type} {next : Nat → Emission α} {failure : Diagnostic}
    {stop : Emitter}
    (hnext : ∀ register middle, ∃ value after, next register middle = .ok value after)
    (h : (acquire frame >>= next) before = .error failure stop) : before.pool.acquire? = none := by
  cases hacquire : before.pool.acquire? with
  | none => rfl
  | some found =>
    obtain ⟨value, after, hafter⟩ := hnext found.1 { before with pool := found.2 }
    have hrun : acquire frame before = .ok found.1 { before with pool := found.2 } :=
      acquire_iff.mpr ⟨found.2, hacquire, rfl⟩
    rw [Success.bind_of_ok hrun, hafter] at h
    cases h

/-- A local that exists is copied into the next register. -/
theorem copySlot_of_lt {slot : Nat} (h : slot < frame.slotCount) :
    copySlot frame slot = (do
      let dest ← acquire frame
      let emitter ← get
      emit (copyInstr emitter.bindings slot dest)
      pure dest) := by
  unfold copySlot checkSlot copyInstr
  rw [if_pos h, pure_bind]
  congr
  funext dest
  congr
  funext emitter
  cases emitter.bindings.register? slot with
  | some source => rfl
  | none => rfl

/-- An operand can be brought into a register unless the walk refuses it or no register is left. -/
theorem fails_intoRegister {operand : Operand} {failure : Diagnostic} {stop : Emitter}
    (h : before.Accounted frame pool params hand tally)
    (hrun : intoRegister frame operand before = .error failure stop) :
    (∃ fault, tally.take frame.slotCount hand.length operand = .error fault) ∨
      before.pool.acquire? = none ∧
        tally.take frame.slotCount hand.length operand = .ok (tally.fill hand.length) := by
  cases operand with
  | const value =>
    exact .inr ⟨exhausted_of_acquire_bind (fun register _ ↦ ⟨register, _, rfl⟩) hrun, rfl⟩
  | slot slot =>
    by_cases hslot : slot < frame.slotCount
    · refine .inr ⟨?_, if_pos hslot⟩
      have hcopy : copySlot frame slot before = .error failure stop := hrun
      rw [copySlot_of_lt hslot] at hcopy
      exact exhausted_of_acquire_bind (fun register _ ↦ ⟨register, _, rfl⟩) hcopy
    · exact .inl ⟨_, if_neg hslot⟩
  | temp temp =>
    refine .inl ⟨.notAvailable temp, if_neg fun hmem ↦ ?_⟩
    obtain ⟨register, hregister⟩ := Option.isSome_iff_exists.mp ((h.mem_holders _).mp hmem)
    have hconsume : consume frame temp before = .error failure stop := hrun
    rw [consume_iff.mpr ⟨hregister, rfl⟩] at hconsume
    cases hconsume

/-- Bringing an operand into a register agrees with taking it into the hand. -/
theorem agrees_intoRegister (h : before.Accounted frame pool params hand tally)
    (operand : Operand) :
    Agrees pool params
      (fun register tally after ↦ after.Accounted frame pool params (register :: hand) tally)
      (intoRegister frame operand before)
      (tally.take frame.slotCount hand.length operand) := by
  cases hrun : intoRegister frame operand before with
  | error failure stop =>
    intro later hlater
    obtain ⟨fault, hfault⟩ | ⟨hnone, hfill⟩ := fails_intoRegister h hrun
    · rw [hfault] at hlater
      cases hlater
    · rw [hfill] at hlater
      cases hlater
      rw [← h.settings.1, ← h.settings.2]
      exact h.backed.lt_of_exhausted hnone
  | ok register after =>
    have horderly := h.orderly.intoRegister hrun
    obtain ⟨value, next, rfl, hnext, rfl⟩ | ⟨slot, next, rfl, hslot, hnext, rfl⟩ |
      ⟨temp, rfl, htemp, rfl⟩ := intoRegister_cases hrun
    · exact ⟨tally.fill hand.length, rfl, h.fill hnext rfl⟩
    · have hfill : (copyInstr before.bindings slot register).isFill = true := by
        unfold copyInstr
        split <;> rfl
      exact ⟨tally.fill hand.length, if_pos hslot, h.fill hnext hfill⟩
    · have hmem : .temp temp ∈ tally.holders := by
        rw [h.mem_holders]
        exact Option.isSome_of_mem htemp
      refine ⟨_, if_pos hmem, horderly, h.settings, fun holder ↦ ?_, h.fills_eq, ?_⟩
      · show holder ∈ tally.holders.erase (.temp temp) ↔ _
        rw [Emitter.register?_erase, Function.update_apply, Finset.mem_erase, h.mem_holders]
        by_cases heq : holder = .temp temp
        · simp [heq]
        · simp [heq]
      · apply h.backed.pass
        rw [Finset.card_erase_of_mem hmem, List.length_cons]
        have hpos := Finset.card_pos.mpr ⟨_, hmem⟩
        omega

/-! ### Instructions -/

/-- A holder that gets a register is a holder then. -/
theorem mem_insert_holders (h : before.Accounted frame pool params hand tally)
    (holder other : Operand) (register : Nat) :
    other ∈ insert holder tally.holders ↔
      (Function.update before.register? holder (some register) other).isSome = true := by
  rw [Function.update_apply, Finset.mem_insert, h.mem_holders]
  by_cases heq : other = holder
  · simp [heq]
  · simp [heq]

theorem agrees_define {register : Nat} (h : before.Accounted frame pool params [register] tally)
    (temp : Nat) :
    Agrees pool params (fun _ tally after ↦ after.Accounted frame pool params [] tally)
      (define frame temp register before) (tally.define temp) := by
  unfold define Tally.define
  cases htemp : before.temps[temp]? with
  | some other =>
    have hmem : .temp temp ∈ tally.holders := by
      rw [h.mem_holders]
      exact Option.isSome_of_mem htemp
    rw [if_pos hmem]
    exact fun later hlater ↦ nomatch hlater
  | none =>
    have hmem : .temp temp ∉ tally.holders := by
      rw [h.mem_holders]
      show ¬before.temps[temp]?.isSome = true
      simp [htemp]
    rw [if_neg hmem]
    refine ⟨_, rfl, h.orderly.define htemp, h.settings, fun holder ↦ ?_, h.fills_eq, ?_⟩
    · rw [Emitter.register?_insert]
      exact mem_insert_holders h (.temp temp) holder register
    · apply h.backed.pass
      rw [Finset.card_insert_of_notMem hmem]
      rfl

/-- Moving a local into the register in the hand and giving its old register back agrees with
passing the register to the local. -/
theorem accounted_bind {slot register : Nat}
    (h : before.Accounted frame pool params [register] tally) (hslot : slot < frame.slotCount) :
    Emitter.Accounted frame pool params [] (tally.place (.slot slot)) { before with
      pool := releasePrevious (before.bindings.register? slot) before.pool
      bindings := before.bindings.bind slot register } := by
  have hbound := h.orderly.bind hslot
  have hholders : ∀ holder, holder ∈ (tally.place (.slot slot)).holders ↔
      (({ before with bindings := before.bindings.bind slot register } :
        Emitter).register? holder).isSome = true := by
    intro holder
    rw [Emitter.register?_bind (h.orderly.size_bySlot ▸ hslot)]
    exact mem_insert_holders h (.slot slot) holder register
  cases hprevious : before.bindings.register? slot with
  | none =>
    rw [hprevious] at hbound
    have hmem : .slot slot ∉ tally.holders := by
      rw [h.mem_holders]
      show ¬(before.bindings.register? slot).isSome = true
      simp [hprevious]
    refine ⟨hbound, h.settings, hholders, h.fills_eq, ?_⟩
    apply h.backed.pass
    rw [Finset.card_insert_of_notMem hmem]
    rfl
  | some old =>
    rw [hprevious] at hbound
    have hheld : before.register? (.slot slot) = some old := hprevious
    have hmem : .slot slot ∈ tally.holders := by
      rw [h.mem_holders, hheld]
      rfl
    refine ⟨⟨hbound.size_bySlot, hbound.coherent, hbound.apportioned.release⟩,
      h.settings.trans (Pool.sameSettings_release old before.pool), hholders, h.fills_eq, ?_⟩
    have hreleased := h.backed.release (h.orderly.apportioned.lent (.inr ⟨_, hheld⟩))
    apply hreleased.pass
    rw [Finset.insert_eq_of_mem hmem]

/-- An assignment to a local that exists brings the value into a register and moves the local
there. -/
theorem step_assign (frame : Frame) (slot : Nat) (value : Operand) :
    step frame (.assign slot value) =
      if slot < frame.slotCount then do
        let register ← intoRegister frame value
        modify fun emitter ↦ { emitter with
          pool := releasePrevious (emitter.bindings.register? slot) emitter.pool
          bindings := emitter.bindings.bind slot register }
      else fail frame (.unknownLocal slot frame.slotCount) := by
  rw [step, checkSlot]
  split_ifs
  · rw [pure_bind]
    congr
    funext register emitter
    have hbind : bind slot register emitter = .ok (emitter.bindings.register? slot)
        { emitter with bindings := emitter.bindings.bind slot register } := rfl
    rw [Success.bind_of_ok hbind]
    show _ = EStateM.Result.ok () { emitter with
      pool := releasePrevious (emitter.bindings.register? slot) emitter.pool
      bindings := emitter.bindings.bind slot register }
    cases emitter.bindings.register? slot with
    | some old => rfl
    | none => rfl
  · rfl

theorem agrees_step (h : before.Accounted frame pool params [] tally)
    (instruction : Linear.Instr) :
    Agrees pool params (fun _ tally after ↦ after.Accounted frame pool params [] tally)
      (step frame instruction before) (tally.step frame.slotCount instruction) := by
  cases instruction with
  | snapshot dest slot =>
    refine (agrees_intoRegister h (.slot slot)).bind
      (fun _ _ hlater ↦ ⟨1, 0, Tally.advances_define hlater⟩) fun register _ middle hmiddle ↦ ?_
    exact agrees_define hmiddle dest
  | assign slot value =>
    rw [step_assign, Tally.step]
    by_cases hslot : slot < frame.slotCount
    · rw [if_pos hslot, if_pos hslot]
      refine (agrees_intoRegister h value).bind (fun filled _ hlater ↦ ?_)
        fun register filled middle hmiddle ↦ ?_
      · cases hlater
        exact ⟨1, 0, Tally.advances_place _ filled⟩
      · exact ⟨_, rfl, accounted_bind hmiddle hslot⟩
    · rw [if_neg hslot, if_neg hslot]
      exact fun later hlater ↦ nomatch hlater
  | add dest lhs rhs =>
    refine (agrees_intoRegister h lhs).bind (fun left later hlater ↦ ?_)
      fun left taken middle hmiddle ↦ ?_
    · obtain ⟨both, hboth, hdefined⟩ := Success.except_bind_iff.mp hlater
      exact ⟨1, 0, (Tally.advances_take hboth).trans (Tally.advances_define hdefined)⟩
    refine (agrees_intoRegister hmiddle rhs).bind
      (fun _ _ hlater ↦ ⟨1, 0, Tally.advances_define hlater⟩) fun right both late hlate ↦ ?_
    have hlent := hlate.orderly.apportioned.lent (.inl List.mem_cons_self)
    have hreleased : Emitter.Accounted frame pool params [left] both { late with
        pool := late.pool.release right
        code := late.code.push (.add left right) } := by
      refine ⟨⟨hlate.orderly.size_bySlot, hlate.orderly.coherent,
        hlate.orderly.apportioned.release⟩,
        hlate.settings.trans (Pool.sameSettings_release right late.pool), hlate.mem_holders, ?_,
        hlate.backed.release hlent⟩
      rw [Array.toList_push, List.countP_append, hlate.fills_eq]
      rfl
    exact agrees_define hreleased dest

theorem agrees_forM (instructions : List Linear.Instr) :
    ∀ {tally : Tally} {before : Emitter}, before.Accounted frame pool params [] tally →
      Agrees pool params (fun _ tally after ↦ after.Accounted frame pool params [] tally)
        (instructions.forM (step frame) before)
        (instructions.foldlM (Tally.step frame.slotCount) tally) := by
  induction instructions with
  | nil => exact fun h ↦ ⟨_, rfl, h⟩
  | cons instruction rest ih =>
    intro tally before h
    rw [List.foldlM_cons]
    refine (agrees_step h instruction).bind
      (fun _ _ hlater ↦ ⟨0, 0, Tally.advances_foldlM rest hlater⟩) fun _ _ middle hmiddle ↦ ?_
    exact ih hmiddle

/-! ### Functions -/

theorem returned_slot (frame : Frame) (slot : Nat) (emitter : Emitter) :
    returned frame (.slot slot) emitter =
      match emitter.bindings.register? slot with
      | some register => .ok register emitter
      | none => copySlot frame slot emitter := by
  show (match emitter.bindings.register? slot with
    | some register => pure register
    | none => copySlot frame slot : Emission Nat) emitter = _
  cases emitter.bindings.register? slot with
  | some register => rfl
  | none => rfl

theorem agrees_returned (h : before.Accounted frame pool params [] tally) (operand : Operand) :
    Agrees pool params (fun _ tally after ↦ after.Settled pool params tally)
      (returned frame operand before) (tally.returned frame.slotCount operand) := by
  have hinto := fun operand ↦ (agrees_intoRegister h operand).mono fun _ _ _ ↦ (·.settled)
  cases operand with
  | const value => exact hinto (.const value)
  | temp temp => exact hinto (.temp temp)
  | slot slot =>
    have hmem : .slot slot ∈ tally.holders ↔ (before.bindings.register? slot).isSome = true :=
      h.mem_holders (.slot slot)
    rw [Tally.returned, returned_slot]
    cases hsource : before.bindings.register? slot with
    | some register =>
      rw [hsource] at hmem
      rw [if_pos (hmem.mpr rfl)]
      exact ⟨tally, rfl, h.settled⟩
    | none =>
      rw [hsource] at hmem
      rw [if_neg fun hheld ↦ nomatch hmem.mp hheld]
      exact hinto (.slot slot)

theorem agrees_finish (h : before.Accounted frame pool params [] tally) (terminator : Terminator) :
    Agrees pool params (fun _ tally after ↦ after.Settled pool params tally)
      (finish frame terminator before) (tally.finish frame.slotCount terminator) := by
  match terminator with
  | .ret (some operand) =>
    have hwalk : tally.finish frame.slotCount (.ret (some operand)) =
        tally.returned frame.slotCount operand >>= pure := (bind_pure _).symm
    rw [hwalk]
    refine (agrees_returned h operand).bind (fun later _ hlater ↦ ?_)
      fun source later middle hmiddle ↦ ⟨later, rfl, hmiddle.limit_eq, hmiddle.used_eq, ?_⟩
    · cases hlater
      exact ⟨0, 0, .refl later⟩
    · show (middle.code.push (.ret source)).toList.countP Instr.isFill = later.fills
      rw [Array.toList_push, List.countP_append, hmiddle.fills_eq]
      rfl
  | .ret none => exact fun later hlater ↦ nomatch hlater
  | .trap =>
    refine ⟨tally, rfl, h.settled.limit_eq, h.settled.used_eq, ?_⟩
    show (before.code.push .trap).toList.countP Instr.isFill = tally.fills
    rw [Array.toList_push, List.countP_append, h.fills_eq]
    rfl

/-- Parameters can be placed unless there are more of them than registers. -/
theorem lt_of_placeParams_fails (count : Nat) :
    ∀ {slot : Nat} {before stop : Emitter} {failure : Diagnostic}, before.Placed frame pool slot →
      slot + count ≤ frame.slotCount → placeParams frame slot count before = .error failure stop →
        pool.limit < slot + count := by
  induction count with
  | zero =>
    intro slot before stop failure _ _ hrun
    cases hrun
  | succ count ih =>
    intro slot before stop failure hbefore hroom hrun
    cases hacquire : before.pool.acquire? with
    | none =>
      obtain ⟨-, hlimit⟩ := Pool.used_of_acquire?_eq_none hacquire
      rw [hbefore.used, hbefore.settings.2] at hlimit
      omega
    | some found =>
      have hfound : acquire frame before = .ok found.1 { before with pool := found.2 } :=
        acquire_iff.mpr ⟨found.2, hacquire, rfl⟩
      rw [placeParams, Success.bind_of_ok hfound] at hrun
      have hlt := ih (hbefore.bind (by omega) hacquire).2 (by omega) hrun
      omega

/-- The parameters are the holders at the call. -/
theorem accounted_placed {count : Nat} (h : before.Placed frame pool count) :
    before.Accounted frame pool count [] (.start count) := by
  refine ⟨h.orderly, h.settings, fun holder ↦ ?_, ?_, ?_, fun _ ↦ ?_⟩
  · show holder ∈ (Finset.range count).image Operand.slot ↔ _
    rw [Finset.mem_image, Option.isSome_iff_exists]
    simp only [h.register?_iff, Finset.mem_range]
    constructor
    · rintro ⟨slot, hslot, rfl⟩
      exact ⟨slot, rfl, hslot⟩
    · rintro ⟨slot, rfl, hslot⟩
      exact ⟨slot, hslot, rfl⟩
  · rw [h.code]
    rfl
  · rw [h.used, Tally.need_start]
  · rw [h.free, h.used, Tally.card_start, List.length_nil, Nat.add_zero, Nat.zero_add]

/-- The emission of a function agrees with the walk over it. -/
theorem agrees_body (function : Linear.Function) (pool : Pool) :
    Agrees pool function.params.length
      (fun _ tally after ↦ after.Settled pool function.params.length tally)
      (body function (.start function.slotCount pool)) (demand function) := by
  have hplace : Agrees pool function.params.length
      (fun _ tally after ↦
        after.Accounted (frameOf function) pool function.params.length [] tally)
      (placeParams (frameOf function) 0 function.params.length (.start function.slotCount pool))
      (.ok (.start function.params.length)) := by
    cases hrun : placeParams (frameOf function) 0 function.params.length
        (.start function.slotCount pool) with
    | ok value placed => exact ⟨_, rfl, accounted_placed (placed_params hrun)⟩
    | error failure stop =>
      intro tally htally
      cases htally
      have hlt := lt_of_placeParams_fails _ (Emitter.placed_start (frameOf function) pool)
        (by simp [frameOf, Linear.Function.slotCount]) hrun
      rw [Tally.need_start]
      omega
  have hwalk : demand function = (Except.ok (Tally.start function.params.length) >>= fun tally ↦
      function.instructions.foldlM (Tally.step function.slotCount) tally >>= fun late ↦
        late.finish function.slotCount function.terminator) := rfl
  rw [hwalk]
  refine hplace.bind (fun tally later hlater ↦ ?_) fun _ tally placed hplaced ↦ ?_
  · obtain ⟨late, hlate, hlater⟩ := Success.except_bind_iff.mp hlater
    obtain ⟨inHand, hfinish⟩ := Tally.advances_finish hlater
    exact ⟨0, inHand, (Tally.advances_foldlM _ hlate).trans hfinish⟩
  refine (agrees_forM function.instructions hplaced).bind (fun tally later hlater ↦ ?_)
    fun _ late emitted hemitted ↦ agrees_finish hemitted function.terminator
  obtain ⟨inHand, hfinish⟩ := Tally.advances_finish hlater
  exact ⟨0, inHand, hfinish⟩

end Emission

/-- The code of a function has as many fills as the walk counts, and the pool has handed out as many
registers as its strategy needs. -/
theorem settled_emitFunction {function : Linear.Function} {pool next : Pool} {code : List Instr}
    (h : emitFunction function pool = .ok code next) :
    ∃ tally, demand function = .ok tally ∧
      next.used = tally.need function.params.length pool.strategy ∧ next.used ≤ pool.limit ∧
      code.countP Instr.isFill = tally.fills := by
  obtain ⟨after, hbody, rfl, rfl⟩ := emitFunction_iff.mp h
  have hagrees := Emission.agrees_body function pool
  rw [hbody] at hagrees
  obtain ⟨tally, hdemand, hsettled⟩ := hagrees
  refine ⟨tally, hdemand, hsettled.used_eq, ?_, hsettled.fills_eq⟩
  rw [← hsettled.limit_eq]
  exact after.pool.used_le

/-- A function can be emitted if the walk over it succeeds and there are enough registers for the
strategy. -/
theorem emitFunction_of_demand {function : Linear.Function} {pool : Pool} {tally : Tally}
    (h : demand function = .ok tally)
    (hlimit : tally.need function.params.length pool.strategy ≤ pool.limit) :
    ∃ code next, emitFunction function pool = .ok code next := by
  have hagrees := Emission.agrees_body function pool
  cases hbody : Emission.body function (.start function.slotCount pool) with
  | ok value after => exact ⟨_, _, emitFunction_iff.mpr ⟨after, hbody, rfl, rfl⟩⟩
  | error failure stop =>
    rw [hbody] at hagrees
    exact absurd (hagrees tally h) (Nat.not_lt.mpr hlimit)

end StraightWasm.Machine
