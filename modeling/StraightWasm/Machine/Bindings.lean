/-!
# Which register holds which local

Two tables that describe one correspondence from both ends: the register of each local, and the
local of each register. The number of locals is fixed; the table of registers grows as registers
come into use.
-/

set_option autoImplicit false
set_option relaxedAutoImplicit false

namespace StraightWasm.Machine

/-- The correspondence between locals and registers, by local and by register. -/
structure Bindings where
  bySlot : Array (Option Nat)
  byRegister : Array (Option Nat)
  deriving DecidableEq, Repr

namespace Bindings

/-- No local has a register yet. -/
def ofSlotCount (slotCount : Nat) : Bindings where
  bySlot := Array.replicate slotCount none
  byRegister := #[]

/-- The register that holds a local. -/
def register? (bindings : Bindings) (slot : Nat) : Option Nat :=
  bindings.bySlot[slot]?.join

/-- The local that a register holds. -/
def slot? (bindings : Bindings) (register : Nat) : Option Nat :=
  bindings.byRegister[register]?.join

/-- A table that is long enough to have an entry for `position`. -/
def grow (position : Nat) (table : Array (Option Nat)) : Array (Option Nat) :=
  table ++ Array.replicate (position + 1 - table.size) none

/-- A table without the entry at `position`, if a position is given. -/
def vacate (position? : Option Nat) (table : Array (Option Nat)) : Array (Option Nat) :=
  match position? with
  | some position => table.setIfInBounds position none
  | none => table

/-- Moves a local into a register and vacates the register that held it before. The local has to
exist and the register has to be vacant. -/
def bind (slot register : Nat) (bindings : Bindings) : Bindings :=
  let previous := bindings.register? slot
  { bySlot := bindings.bySlot.setIfInBounds slot (some register)
    byRegister :=
      (grow register (vacate previous bindings.byRegister)).setIfInBounds register (some slot) }

/-- Whether a local can be moved into a register: the local exists and the register is vacant. -/
def CanBind (bindings : Bindings) (slot register : Nat) : Prop :=
  slot < bindings.bySlot.size ∧ bindings.slot? register = none

instance (bindings : Bindings) (slot register : Nat) :
    Decidable (bindings.CanBind slot register) :=
  inferInstanceAs (Decidable (_ ∧ _))

/-- Whether every entry of either table has its counterpart in the other one. -/
def isCoherent (bindings : Bindings) : Bool :=
  (bindings.bySlot.toList.zipIdx.all fun (entry, slot) ↦
    entry.all fun register ↦ bindings.slot? register == some slot) &&
  (bindings.byRegister.toList.zipIdx.all fun (entry, register) ↦
    entry.all fun slot ↦ bindings.register? slot == some register)

end Bindings

end StraightWasm.Machine
