import Mathlib.Data.List.Nodup
import Mathlib.Logic.Function.Basic
import StraightWasm.Linear.Basic
import StraightWasm.Proofs.Machine.PoolLaws

/-!
# Registers have one holder each

During an emission a register that a pool has lent is held by a local, held by a temporary that
waits to be used, or in the hand of the instruction at work. `Apportioned` says that no register is
in two of these places at once, that every register in one of them is lent, and that under the
free-list strategy every lent register is in one of them, so that none is lost.

Four moves change who holds what, and each keeps the registers apportioned: a register is acquired
into the hand (`Apportioned.acquire`), given back from the hand (`Apportioned.release`), taken into
the hand from its holder (`Apportioned.take`), and passed from the hand to a holder, whose previous
register comes into the hand instead (`Apportioned.place`).
-/

set_option autoImplicit false
set_option relaxedAutoImplicit false

namespace StraightWasm.Machine

open Linear (Operand)

/-- Whether a register is in use: it is in the hand of the instruction at work, or a local or a
temporary holds it. -/
def InUse (held : Operand → Option Nat) (hand : List Nat) (register : Nat) : Prop :=
  register ∈ hand ∨ ∃ holder, held holder = some register

/-- How the registers of a pool are shared out between the locals and temporaries that hold one and
the hand of the instruction at work. -/
structure Apportioned (pool : Pool) (held : Operand → Option Nat) (hand : List Nat) : Prop where
  /-- No register is held twice. -/
  holder_unique : ∀ {first second : Operand} {register : Nat},
    held first = some register → held second = some register → first = second
  /-- No register is in the hand twice. -/
  hand_nodup : hand.Nodup
  /-- No register in the hand is held as well. -/
  hand_unheld : ∀ {register : Nat}, register ∈ hand → ∀ holder, held holder ≠ some register
  /-- Every register in use was handed out and is not free. -/
  lent : ∀ {register : Nat}, InUse held hand register → pool.Lent register
  /-- Where registers are taken back, every register that was handed out and is not free is in
  use. -/
  in_use : pool.strategy = .freeList → ∀ {register : Nat}, pool.Lent register →
    InUse held hand register

namespace Apportioned

variable {pool next : Pool} {held : Operand → Option Nat} {hand : List Nat} {register : Nat}

/-- The register that comes from a pool goes into the hand. -/
theorem acquire (h : Apportioned pool held hand)
    (hacquire : pool.acquire? = some (register, next)) :
    Apportioned next held (register :: hand) := by
  obtain ⟨hfresh, hlent⟩ := Pool.lent_acquire? hacquire
  have hstrategy : next.strategy = pool.strategy := (Pool.acquire?_cases hacquire).1
  have hunused : ¬ InUse held hand register := fun huse ↦ hfresh (h.lent huse)
  refine ⟨h.holder_unique, ?_, ?_, ?_, ?_⟩
  · exact List.nodup_cons.mpr ⟨fun hmem ↦ hunused (.inl hmem), h.hand_nodup⟩
  · intro other hother holder hholder
    rcases List.mem_cons.mp hother with rfl | hmem
    · exact hunused (.inr ⟨holder, hholder⟩)
    · exact h.hand_unheld hmem holder hholder
  · rintro other (hmem | hholder)
    · rcases List.mem_cons.mp hmem with rfl | hmem
      · exact (hlent other).mpr (.inl rfl)
      · exact (hlent other).mpr (.inr (h.lent (.inl hmem)))
    · exact (hlent other).mpr (.inr (h.lent (.inr hholder)))
  · intro hfree other hother
    rcases (hlent other).mp hother with rfl | hother
    · exact .inl List.mem_cons_self
    · exact (h.in_use (hstrategy ▸ hfree) hother).imp_left (List.mem_cons_of_mem register)

/-- A register in the hand can be given back. -/
theorem release (h : Apportioned pool held (register :: hand)) :
    Apportioned (pool.release register) held hand := by
  obtain ⟨hout, hnodup⟩ := List.nodup_cons.mp h.hand_nodup
  have huse : ∀ {other}, InUse held hand other → InUse held (register :: hand) other ∧
      other ≠ register := by
    rintro other (hmem | ⟨holder, hholder⟩)
    · exact ⟨.inl (List.mem_cons_of_mem register hmem), fun heq ↦ hout (heq ▸ hmem)⟩
    · refine ⟨.inr ⟨holder, hholder⟩, fun heq ↦ ?_⟩
      exact h.hand_unheld List.mem_cons_self holder (heq ▸ hholder)
  refine ⟨h.holder_unique, hnodup, ?_, ?_, ?_⟩
  · exact fun hmem ↦ h.hand_unheld (List.mem_cons_of_mem register hmem)
  · intro other hother
    cases hstrategy : pool.strategy with
    | monotonic =>
      rw [Pool.release_of_monotonic hstrategy]
      exact h.lent (huse hother).1
    | freeList =>
      rw [Pool.lent_release hstrategy]
      exact ⟨h.lent (huse hother).1, (huse hother).2⟩
  · intro hstrategy other hother
    rw [Pool.strategy_release] at hstrategy
    obtain ⟨hother, hne⟩ := (Pool.lent_release hstrategy register other).mp hother
    refine (h.in_use hstrategy hother).imp_left fun hmem ↦ ?_
    exact (List.mem_cons.mp hmem).resolve_left hne

/-- Taking a register from its holder into the hand. -/
theorem take (h : Apportioned pool held hand) {holder : Operand}
    (hholder : held holder = some register) :
    Apportioned pool (Function.update held holder none) (register :: hand) := by
  have hheld : ∀ {other : Operand} {number : Nat},
      Function.update held holder none other = some number ↔
        other ≠ holder ∧ held other = some number := by
    intro other number
    rw [Function.update_apply]
    split_ifs with heq
    · simp [heq]
    · simp [heq]
  have huse : ∀ {number : Nat},
      InUse (Function.update held holder none) (register :: hand) number ↔
        InUse held hand number := by
    intro number
    constructor
    · rintro (hmem | ⟨other, hother⟩)
      · rcases List.mem_cons.mp hmem with rfl | hmem
        · exact .inr ⟨holder, hholder⟩
        · exact .inl hmem
      · exact .inr ⟨other, (hheld.mp hother).2⟩
    · rintro (hmem | ⟨other, hother⟩)
      · exact .inl (List.mem_cons_of_mem register hmem)
      · by_cases heq : other = holder
        · rw [heq, hholder, Option.some.injEq] at hother
          exact .inl (hother ▸ List.mem_cons_self)
        · exact .inr ⟨other, hheld.mpr ⟨heq, hother⟩⟩
  refine ⟨?_, ?_, ?_, fun hnumber ↦ h.lent (huse.mp hnumber),
    fun hstrategy _ hnumber ↦ huse.mpr (h.in_use hstrategy hnumber)⟩
  · exact fun hfirst hsecond ↦ h.holder_unique (hheld.mp hfirst).2 (hheld.mp hsecond).2
  · exact List.nodup_cons.mpr ⟨fun hmem ↦ h.hand_unheld hmem holder hholder, h.hand_nodup⟩
  · intro number hmem other hother
    obtain ⟨hne, hother⟩ := hheld.mp hother
    rcases List.mem_cons.mp hmem with rfl | hmem
    · exact hne (h.holder_unique hother hholder)
    · exact h.hand_unheld hmem other hother

/-- Passing a register from the hand to a holder brings the previous register of the holder into the
hand. -/
theorem place (h : Apportioned pool held (register :: hand)) (holder : Operand) :
    Apportioned pool (Function.update held holder (some register))
      ((held holder).toList ++ hand) := by
  obtain ⟨hout, hnodup⟩ := List.nodup_cons.mp h.hand_nodup
  have hunheld : ∀ other, held other ≠ some register := h.hand_unheld List.mem_cons_self
  have hheld : ∀ {other : Operand} {number : Nat},
      Function.update held holder (some register) other = some number ↔
        (other = holder ∧ register = number) ∨ (other ≠ holder ∧ held other = some number) := by
    intro other number
    rw [Function.update_apply]
    split_ifs with heq
    · simp [heq]
    · simp [heq]
  have huse : ∀ {number : Nat},
      InUse (Function.update held holder (some register)) ((held holder).toList ++ hand) number ↔
        InUse held (register :: hand) number := by
    intro number
    unfold InUse
    simp only [List.mem_append, Option.mem_toList, List.mem_cons, hheld]
    constructor
    · rintro ((hprevious | hmem) | ⟨other, ⟨-, rfl⟩ | ⟨-, hother⟩⟩)
      · exact .inr ⟨holder, hprevious⟩
      · exact .inl (.inr hmem)
      · exact .inl (.inl rfl)
      · exact .inr ⟨other, hother⟩
    · rintro ((rfl | hmem) | ⟨other, hother⟩)
      · exact .inr ⟨holder, .inl ⟨rfl, rfl⟩⟩
      · exact .inl (.inr hmem)
      · by_cases heq : other = holder
        · exact .inl (.inl (heq ▸ hother))
        · exact .inr ⟨other, .inr ⟨heq, hother⟩⟩
  refine ⟨?_, ?_, ?_, fun hnumber ↦ h.lent (huse.mp hnumber),
    fun hstrategy _ hnumber ↦ huse.mpr (h.in_use hstrategy hnumber)⟩
  · intro first second number hfirst hsecond
    rcases hheld.mp hfirst with ⟨rfl, rfl⟩ | ⟨hne, hfirst⟩
    · rcases hheld.mp hsecond with ⟨rfl, -⟩ | ⟨-, hsecond⟩
      · rfl
      · exact absurd hsecond (hunheld second)
    · rcases hheld.mp hsecond with ⟨-, rfl⟩ | ⟨-, hsecond⟩
      · exact absurd hfirst (hunheld first)
      · exact h.holder_unique hfirst hsecond
  · cases hprevious : held holder with
    | none => exact hnodup
    | some old =>
      refine List.nodup_cons.mpr ⟨fun hmem ↦ ?_, hnodup⟩
      exact h.hand_unheld (List.mem_cons_of_mem register hmem) holder hprevious
  · intro number hmem other hother
    rw [List.mem_append, Option.mem_toList] at hmem
    rcases hheld.mp hother with ⟨rfl, rfl⟩ | ⟨hne, hother⟩
    · rcases hmem with hprevious | hmem
      · exact hunheld other hprevious
      · exact hout hmem
    · rcases hmem with hprevious | hmem
      · exact hne (h.holder_unique hother hprevious)
      · exact h.hand_unheld (List.mem_cons_of_mem register hmem) other hother

end Apportioned

end StraightWasm.Machine
