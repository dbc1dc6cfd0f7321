import Mathlib.Data.PEquiv
import StraightWasm.Proofs.Histories
import StraightWasm.Proofs.Machine.BindingLaws

/-!
# What the tables owe to the moves

Moving a local into a register is three accesses to two tables of different lengths, the second of
which grows on the way. `Bindings.relocate` makes them one after the other and stops, with the
tables as they are at that moment, where an entry is missing. On coherent tables the register that
held the local before always has its entry, so that nothing but the local can be missing
(`Bindings.relocate_of_lt`).

A build with debug assertions looks first whether the register is vacant (`Bindings.move`). On
coherent tables it stops before the first change or not at all (`Bindings.move_of_canBind`,
`Bindings.move_of_not_canBind`). A build without them does not look. Where each move is permitted
when it is made, that makes no difference (`MoveLog.after_of_permitted`).

A log is a pair of tables together with the moves that were made on them (`MoveLog.attempt`). The
tables are coherent and each local has the register of its last move (`MoveLog.Faithful`). One
attempt keeps this, whether it is refused or not (`MoveLog.Faithful.attempt`), so it holds after all
of them.
-/

set_option autoImplicit false
set_option relaxedAutoImplicit false

namespace StraightWasm.Machine

namespace Bindings

variable {tables : Bindings} {slot register : Nat}

/-! ### One access after the other -/

/-- Why a local cannot be moved into a register. -/
inductive Violation where
  /-- The register holds a local. -/
  | occupied
  /-- There is no such local. -/
  | unknownSlot
  /-- A register that is said to hold a local has no entry. -/
  | missingEntry
  deriving DecidableEq, Repr

/-- A computation on the tables that stops where they are misused. -/
abbrev Access (α : Type) : Type := EStateM Violation Bindings α

/-- Insists that a register is vacant. -/
def checkVacant (register : Nat) : Access Unit := fun tables ↦
  if tables.slot? register = none then .ok () tables else .error .occupied tables

/-- Enters a register for a local and gives the register that stood there. -/
def enterRegister (slot register : Nat) : Access (Option Nat) := fun tables ↦
  if slot < tables.bySlot.size then
    .ok (tables.register? slot)
      { tables with bySlot := tables.bySlot.setIfInBounds slot (some register) }
  else .error .unknownSlot tables

/-- Takes the local out of a register, if a register is given. -/
def leaveRegister : Option Nat → Access Unit
  | none => pure ()
  | some register => fun tables ↦
    if register < tables.byRegister.size then
      .ok () { tables with byRegister := tables.byRegister.setIfInBounds register none }
    else .error .missingEntry tables

/-- Enters a local for a register, for which there may be no entry yet. -/
def enterSlot (slot register : Nat) : Access Unit :=
  modify fun tables ↦
    { tables with
      byRegister := (grow register tables.byRegister).setIfInBounds register (some slot) }

/-- Moves a local into a register and gives the register that held it before, as a build without
debug assertions does: it does not look whether the register is vacant. -/
def relocate (slot register : Nat) : Access (Option Nat) := do
  let previous ← enterRegister slot register
  leaveRegister previous
  enterSlot slot register
  pure previous

/-- Moves a local into a vacant register and gives the register that held it before, as a build with
debug assertions does. -/
def move (slot register : Nat) : Access (Option Nat) := do
  checkVacant register
  relocate slot register

/-- Assumes: coherent tables, and a local that exists. All accesses find their entries. -/
theorem relocate_of_lt (h : tables.Coherent) (hslot : slot < tables.bySlot.size) (register : Nat) :
    relocate slot register tables = .ok (tables.register? slot) (tables.bind slot register) := by
  have henter : enterRegister slot register tables = .ok (tables.register? slot)
      { tables with bySlot := tables.bySlot.setIfInBounds slot (some register) } := if_pos hslot
  rw [relocate, Success.bind_of_ok henter]
  unfold bind
  cases hprevious : tables.register? slot with
  | none => rfl
  | some old =>
    -- The first table has changed by now, but the second one still has the entry of `old`.
    have hentry : old < tables.byRegister.size := lt_of_slot? ((h slot old).mp hprevious)
    have hleave : leaveRegister (some old)
        { tables with bySlot := tables.bySlot.setIfInBounds slot (some register) } =
          .ok () ⟨tables.bySlot.setIfInBounds slot (some register),
            tables.byRegister.setIfInBounds old none⟩ := if_pos hentry
    rw [Success.bind_of_ok hleave]
    rfl

/-- Assumes: coherent tables, and a local that can be moved. The move is made. -/
theorem move_of_canBind (h : tables.Coherent) (hbind : tables.CanBind slot register) :
    move slot register tables = .ok (tables.register? slot) (tables.bind slot register) := by
  have hcheck : checkVacant register tables = .ok () tables := if_pos hbind.2
  rw [move, Success.bind_of_ok hcheck]
  exact relocate_of_lt h hbind.1 register

/-- Assumes: a local that cannot be moved. The tables are left as they are. -/
theorem move_of_not_canBind (h : ¬tables.CanBind slot register) :
    ∃ violation, move slot register tables = .error violation tables := by
  by_cases hvacant : tables.slot? register = none
  · have hcheck : checkVacant register tables = .ok () tables := if_pos hvacant
    have henter : enterRegister slot register tables = .error .unknownSlot tables :=
      if_neg fun hslot ↦ h ⟨hslot, hvacant⟩
    rw [move, Success.bind_of_ok hcheck]
    exact ⟨.unknownSlot, Success.bind_error_iff.mpr (.inl henter)⟩
  · have hcheck : checkVacant register tables = .error .occupied tables := if_neg hvacant
    exact ⟨_, Success.bind_error_iff.mpr (.inl hcheck)⟩

/-! ### What a move changes -/

/-- Whether tables differ by the move of a local into a register and by nothing else. -/
structure Moved (slot register : Nat) (before after : Bindings) : Prop where
  register?_self : after.register? slot = some register
  slot?_self : after.slot? register = some slot
  /-- The register that held the local before is vacant. -/
  vacated : ∀ old, before.register? slot = some old → after.slot? old = none
  register?_other : ∀ other ≠ slot, after.register? other = before.register? other
  slot?_other : ∀ other ≠ register, before.register? slot ≠ some other →
    after.slot? other = before.slot? other

theorem moved_bind (h : tables.Coherent) (hbind : tables.CanBind slot register) :
    Moved slot register tables (tables.bind slot register) where
  register?_self := by rw [register?_bind hbind.1, if_pos rfl]
  slot?_self := by rw [slot?_bind, if_pos rfl]
  vacated old hold := by
    have hother : old ≠ register := by
      rintro rfl
      have hheld := (h slot old).mp hold
      rw [hbind.2] at hheld
      cases hheld
    rw [slot?_bind, if_neg hother, if_pos hold]
  register?_other other hother := by rw [register?_bind hbind.1, if_neg hother]
  slot?_other other hother hold := by rw [slot?_bind, if_neg hother, if_neg hold]

/-- Coherent tables are the two directions of a partial bijection between locals and registers. -/
def Coherent.correspondence (h : tables.Coherent) : PEquiv Nat Nat where
  toFun := tables.register?
  invFun := tables.slot?
  inv slot register := (h slot register).symm

end Bindings

/-! ### Logs -/

/-- A local and the register that it is moved into. -/
structure Move where
  slot : Nat
  register : Nat
  deriving DecidableEq, Repr

/-- Tables and the moves that were made on them, the latest first. -/
structure MoveLog where
  tables : Bindings
  moves : List Move
  deriving DecidableEq, Repr

namespace MoveLog

variable {slotCount : Nat} {log : MoveLog}

/-- The tables of some locals, and no move was made. -/
def blank (slotCount : Nat) : MoveLog where
  tables := .ofSlotCount slotCount
  moves := []

/-- Attempts a move. It is noted if it was made, and if not, the tables are what it left. -/
def attempt (log : MoveLog) (next : Move) : MoveLog :=
  match Bindings.move next.slot next.register log.tables with
  | .ok _ tables => { tables := tables, moves := next :: log.moves }
  | .error _ tables => { log with tables := tables }

/-- The log after some attempts, the first one first. -/
def after (slotCount : Nat) (attempts : List Move) : MoveLog :=
  attempts.foldl attempt (blank slotCount)

/-- The register of the last move of a local. -/
def lastRegister? (slot : Nat) (moves : List Move) : Option Nat :=
  (moves.find? (·.slot = slot)).map (·.register)

theorem lastRegister?_cons (slot : Nat) (next : Move) (moves : List Move) :
    lastRegister? slot (next :: moves) =
      if slot = next.slot then some next.register else lastRegister? slot moves := by
  rw [lastRegister?, List.find?_cons]
  by_cases hslot : next.slot = slot
  · simp [hslot]
  · simp [hslot, Ne.symm hslot, lastRegister?]

/-! ### One attempt and all of them -/

/-- Whether tables agree with the moves that were made on them. -/
structure Faithful (slotCount : Nat) (log : MoveLog) : Prop where
  size_eq : log.tables.bySlot.size = slotCount
  coherent : log.tables.Coherent
  register?_eq : ∀ slot, log.tables.register? slot = lastRegister? slot log.moves

theorem faithful_blank (slotCount : Nat) : (blank slotCount).Faithful slotCount where
  size_eq := Array.size_replicate
  coherent := Bindings.coherent_ofSlotCount slotCount
  register?_eq slot := Bindings.register?_ofSlotCount slotCount slot

/-- An attempt keeps tables and moves in agreement. -/
theorem Faithful.attempt (h : log.Faithful slotCount) (next : Move) :
    (log.attempt next).Faithful slotCount := by
  unfold MoveLog.attempt
  by_cases hbind : log.tables.CanBind next.slot next.register
  · rw [Bindings.move_of_canBind h.coherent hbind]
    refine ⟨?_, h.coherent.bind hbind, fun slot ↦ ?_⟩
    · exact (Bindings.size_bySlot_bind _ _ _).trans h.size_eq
    · rw [Bindings.register?_bind hbind.1, lastRegister?_cons, h.register?_eq]
  · obtain ⟨violation, hrefused⟩ := Bindings.move_of_not_canBind hbind
    rw [hrefused]
    exact h

theorem faithful_after (slotCount : Nat) (attempts : List Move) :
    (after slotCount attempts).Faithful slotCount :=
  List.foldlRecOn attempts MoveLog.attempt (faithful_blank slotCount) fun _ h next _ ↦
    h.attempt next

/-! ### Permitted moves -/

/-- Whether each of some moves, made one after the other, takes a local that exists into a register
that is vacant at that moment. -/
def Permitted : List Move → Bindings → Prop
  | [], _ => True
  | next :: rest, tables =>
    tables.CanBind next.slot next.register ∧ Permitted rest (tables.bind next.slot next.register)

/-- Makes moves without looking whether the registers are vacant. -/
def relocateAll : List Move → Bindings.Access Unit
  | [] => pure ()
  | next :: rest => do
    let _ ← Bindings.relocate next.slot next.register
    relocateAll rest

/-- Permitted moves are all made, and made alike whether the register is looked at or not. -/
theorem foldl_attempt_of_permitted (attempts : List Move) :
    ∀ {log : MoveLog}, log.Faithful slotCount → Permitted attempts log.tables →
      (attempts.foldl attempt log).moves = attempts.reverse ++ log.moves ∧
        (attempts.foldl attempt log).tables =
          attempts.foldl (fun tables next ↦ tables.bind next.slot next.register) log.tables ∧
        relocateAll attempts log.tables = .ok () (attempts.foldl attempt log).tables := by
  induction attempts with
  | nil => exact fun _ _ ↦ ⟨rfl, rfl, rfl⟩
  | cons next rest ih =>
    rintro log hlog ⟨hbind, hrest⟩
    have hattempt : log.attempt next =
        { tables := log.tables.bind next.slot next.register, moves := next :: log.moves } := by
      rw [attempt, Bindings.move_of_canBind hlog.coherent hbind]
    have hnext := hlog.attempt next
    rw [hattempt] at hnext
    obtain ⟨hmoves, htables, hrun⟩ := ih hnext hrest
    rw [List.foldl_cons, hattempt]
    refine ⟨?_, htables, ?_⟩
    · rw [hmoves, List.reverse_cons, List.append_assoc]
      rfl
    · rw [relocateAll,
        Success.bind_of_ok (Bindings.relocate_of_lt hlog.coherent hbind.1 next.register)]
      exact hrun

/-- Permitted moves are all made, and the tables are what a build without debug assertions has. -/
theorem after_of_permitted {attempts : List Move}
    (h : Permitted attempts (.ofSlotCount slotCount)) :
    (after slotCount attempts).moves = attempts.reverse ∧
      (after slotCount attempts).tables =
        attempts.foldl (fun tables next ↦ tables.bind next.slot next.register)
          (.ofSlotCount slotCount) ∧
      relocateAll attempts (.ofSlotCount slotCount) =
        .ok () (after slotCount attempts).tables := by
  obtain ⟨hmoves, hrest⟩ := foldl_attempt_of_permitted attempts (faithful_blank slotCount) h
  exact ⟨hmoves.trans (List.append_nil _), hrest⟩

/-! ### The tables after all moves -/

/-- Whether the tables of a log are inverse to each other, tell the last move of every local, and
take the next move exactly if the local exists and the register is vacant. -/
structure Bijective (slotCount : Nat) (log : MoveLog) : Prop where
  register?_iff : ∀ slot register,
    log.tables.register? slot = some register ↔ log.tables.slot? register = some slot
  /-- The two tables are a partial bijection and its inverse. -/
  correspondence : ∃ bijection : PEquiv Nat Nat,
    ⇑bijection = log.tables.register? ∧ ⇑bijection.symm = log.tables.slot?
  isCoherent : log.tables.isCoherent = true
  register?_eq : ∀ slot, log.tables.register? slot = lastRegister? slot log.moves
  /-- A move gives the register that held the local before, and changes nothing that it need not
  change, whether the register is looked at or not. -/
  accepts : ∀ slot register, slot < slotCount → log.tables.slot? register = none →
    Bindings.move slot register log.tables =
        .ok (log.tables.register? slot) (log.tables.bind slot register) ∧
      Bindings.relocate slot register log.tables =
        .ok (log.tables.register? slot) (log.tables.bind slot register) ∧
      Bindings.Moved slot register log.tables (log.tables.bind slot register)
  /-- A move that is not possible is refused before anything has changed. -/
  refuses : ∀ slot register, ¬(slot < slotCount ∧ log.tables.slot? register = none) →
    ∃ violation, Bindings.move slot register log.tables = .error violation log.tables

/-- After any attempts to move locals into registers of any numbers, the tables are a partial
bijection and its inverse, and each local has the register of its last move. That is what a build
with debug assertions has. If each attempt is permitted when it is made, all are made, and a build
without debug assertions makes them alike and has the same tables. -/
theorem bijective_after (slotCount : Nat) (attempts : List Move) :
    (after slotCount attempts).Bijective slotCount ∧
      (Permitted attempts (.ofSlotCount slotCount) →
        (after slotCount attempts).moves = attempts.reverse ∧
        (after slotCount attempts).tables =
          attempts.foldl (fun tables next ↦ tables.bind next.slot next.register)
            (.ofSlotCount slotCount) ∧
        relocateAll attempts (.ofSlotCount slotCount) =
          .ok () (after slotCount attempts).tables) := by
  refine ⟨?_, after_of_permitted⟩
  obtain ⟨hsize, hcoherent, hlast⟩ := faithful_after slotCount attempts
  refine ⟨hcoherent, ⟨hcoherent.correspondence, rfl, rfl⟩,
    (Bindings.isCoherent_iff _).mpr hcoherent, hlast, fun slot register hslot hvacant ↦ ?_,
    fun slot register hrefused ↦ ?_⟩
  · have hbind : (after slotCount attempts).tables.CanBind slot register :=
      ⟨hsize.symm ▸ hslot, hvacant⟩
    exact ⟨Bindings.move_of_canBind hcoherent hbind,
      Bindings.relocate_of_lt hcoherent hbind.1 register, Bindings.moved_bind hcoherent hbind⟩
  · exact Bindings.move_of_not_canBind fun hbind ↦ hrefused ⟨hsize ▸ hbind.1, hbind.2⟩

/-- Two locals that take turns, each moving into a register that was never used or that the other
one has left. -/
def turns : List Move :=
  [⟨0, 0⟩, ⟨1, 3⟩, ⟨0, 5⟩, ⟨1, 0⟩, ⟨0, 3⟩]

theorem bijective_after_turns :
    relocateAll turns (.ofSlotCount 2) = .ok () (after 2 turns).tables ∧
      (after 2 turns).tables.register? 0 = some 3 ∧
      (after 2 turns).tables.slot? 5 = none ∧ (after 2 turns).tables.isCoherent = true := by
  have hpermitted : Permitted turns (.ofSlotCount 2) :=
    ⟨by decide, by decide, by decide, by decide, by decide, trivial⟩
  obtain ⟨hbijective, hturns⟩ := bijective_after 2 turns
  obtain ⟨hmoves, htables, hrun⟩ := hturns hpermitted
  refine ⟨hrun, ?_, by rw [htables]; decide, hbijective.isCoherent⟩
  rw [hbijective.register?_eq, hmoves]
  decide

/-- Moves far up and back into a vacated register. A register that is taken and a local that does
not exist are refused. -/
example : (after 2 [⟨0, 0⟩, ⟨1, 3⟩, ⟨0, 5⟩, ⟨1, 5⟩, ⟨2, 1⟩, ⟨1, 0⟩]).moves =
    [⟨1, 0⟩, ⟨0, 5⟩, ⟨1, 3⟩, ⟨0, 0⟩] := by
  decide

end MoveLog

end StraightWasm.Machine
