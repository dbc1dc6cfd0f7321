import Mathlib.Data.List.Basic
import StraightWasm.Machine.Bindings

/-!
# The tables of locals and registers are inverse to each other

What either table says after a local was moved into a register (`Bindings.register?_bind`,
`Bindings.slot?_bind`). Tables are coherent when a local has a register exactly when that register
has the local (`Bindings.Coherent`). Empty tables are coherent, moving a local into a vacant
register keeps them so (`Bindings.Coherent.bind`), and the check on both tables finds out whether
they are (`Bindings.isCoherent_iff`).
-/

set_option autoImplicit false
set_option relaxedAutoImplicit false

namespace StraightWasm.Machine.Bindings

/-! ### Tables -/

theorem join_grow (position : Nat) (table : Array (Option Nat)) (index : Nat) :
    (grow position table)[index]?.join = table[index]?.join := by
  unfold grow
  rw [Array.getElem?_append]
  split_ifs with hindex
  · rfl
  · rw [Array.getElem?_eq_none (Nat.le_of_not_lt hindex), Array.getElem?_replicate]
    split_ifs <;> rfl

theorem lt_size_grow (position : Nat) (table : Array (Option Nat)) :
    position < (grow position table).size := by
  simp only [grow, Array.size_append, Array.size_replicate]
  omega

theorem join_vacate (position? : Option Nat) (table : Array (Option Nat)) (index : Nat) :
    (vacate position? table)[index]?.join =
      if position? = some index then none else table[index]?.join := by
  cases position? with
  | none => simp [vacate]
  | some position =>
    simp only [vacate, Array.getElem?_setIfInBounds, Option.some.injEq]
    split_ifs <;> simp [*]

/-! ### Moving a local -/

@[simp] theorem size_bySlot_bind (slot register : Nat) (bindings : Bindings) :
    (bindings.bind slot register).bySlot.size = bindings.bySlot.size := by
  simp [bind]

/-- The register of the local that was moved is the new one, and the others keep theirs. -/
theorem register?_bind {slot : Nat} {bindings : Bindings} (h : slot < bindings.bySlot.size)
    (register other : Nat) :
    (bindings.bind slot register).register? other =
      if other = slot then some register else bindings.register? other := by
  simp only [bind, register?, Array.getElem?_setIfInBounds]
  by_cases hother : other = slot
  · simp [hother, h]
  · simp [hother, Ne.symm hother]

/-- The new register holds the local that was moved, the old one is vacant, and the others keep
what they held. -/
theorem slot?_bind (slot register : Nat) (bindings : Bindings) (other : Nat) :
    (bindings.bind slot register).slot? other =
      if other = register then some slot
      else if bindings.register? slot = some other then none else bindings.slot? other := by
  simp only [bind, slot?, Array.getElem?_setIfInBounds]
  by_cases hother : other = register
  · simp [hother, lt_size_grow]
  · simp [hother, Ne.symm hother, join_grow, join_vacate]

/-! ### Coherence -/

/-- Whether the two tables are inverse to each other. -/
def Coherent (bindings : Bindings) : Prop :=
  ∀ slot register, bindings.register? slot = some register ↔ bindings.slot? register = some slot

@[simp] theorem register?_ofSlotCount (slotCount slot : Nat) :
    (ofSlotCount slotCount).register? slot = none := by
  rw [register?, ofSlotCount, Array.getElem?_replicate]
  split_ifs <;> rfl

@[simp] theorem slot?_ofSlotCount (slotCount register : Nat) :
    (ofSlotCount slotCount).slot? register = none := by
  simp [slot?, ofSlotCount]

theorem coherent_ofSlotCount (slotCount : Nat) : (ofSlotCount slotCount).Coherent := by
  intro slot register
  simp

theorem lt_of_slot? {bindings : Bindings} {slot register : Nat}
    (h : bindings.slot? register = some slot) : register < bindings.byRegister.size := by
  by_contra hregister
  rw [slot?, Array.getElem?_eq_none (Nat.le_of_not_lt hregister)] at h
  cases h

/-- Moving a local into a vacant register keeps the tables coherent. -/
theorem Coherent.bind {bindings : Bindings} (h : bindings.Coherent) {slot register : Nat}
    (hbind : bindings.CanBind slot register) : (bindings.bind slot register).Coherent := by
  obtain ⟨hslot, hvacant⟩ := hbind
  intro otherSlot otherRegister
  rw [register?_bind hslot, slot?_bind]
  by_cases hotherSlot : otherSlot = slot
  · subst hotherSlot
    by_cases hotherRegister : otherRegister = register
    · simp [hotherRegister]
    · have hold := h otherSlot otherRegister
      simp only [hotherRegister, if_true, if_false, Option.some.injEq, Ne.symm hotherRegister]
      split_ifs with hprevious
      · simp
      · simp [← hold, hprevious]
  · by_cases hotherRegister : otherRegister = register
    · subst hotherRegister
      have hfree : bindings.register? otherSlot ≠ some otherRegister := by
        rw [Ne, h, hvacant]
        simp
      simp [hotherSlot, hfree, Ne.symm hotherSlot]
    · simp only [hotherSlot, hotherRegister, if_false]
      split_ifs with hprevious
      · rw [h] at hprevious ⊢
        simp [hprevious, Ne.symm hotherSlot]
      · exact h otherSlot otherRegister

/-- A check of all entries of a table is a check of all numbers that stand in it. -/
theorem all_zipIdx_iff (table : Array (Option Nat)) (accepts : Nat → Nat → Bool) :
    (table.toList.zipIdx.all fun (entry, position) ↦
        entry.all fun number ↦ accepts position number) = true ↔
      ∀ position number, table[position]?.join = some number → accepts position number = true := by
  simp only [List.all_eq_true, Prod.forall, List.mem_zipIdx_iff_getElem?, Array.getElem?_toList]
  constructor
  · intro h position number hnumber
    have hentry := h (some number) position (Option.join_eq_some_iff.mp hnumber)
    simpa using hentry
  · intro h entry position hentry
    cases entry with
    | none => rfl
    | some number => simpa using h position number (by simp [hentry])

/-- The check on both tables finds out whether they are coherent. -/
theorem isCoherent_iff (bindings : Bindings) : bindings.isCoherent = true ↔ bindings.Coherent := by
  rw [isCoherent, Bool.and_eq_true]
  refine (and_congr
    (all_zipIdx_iff bindings.bySlot fun slot register ↦ bindings.slot? register == some slot)
    (all_zipIdx_iff bindings.byRegister fun register slot ↦
      bindings.register? slot == some register)).trans ?_
  simp only [beq_iff_eq]
  constructor
  · rintro ⟨hforward, hbackward⟩ slot register
    exact ⟨hforward slot register, hbackward register slot⟩
  · intro h
    exact ⟨fun slot register ↦ (h slot register).mp, fun register slot ↦ (h slot register).mpr⟩

end StraightWasm.Machine.Bindings
